import NetSim.Spec.Igmp
import Mathlib.Tactic.Linarith

/-!
# The election of the querier

In a run whose steps meet the condition a router is `NonQuerier` for the query present interval after the latest query
from a lower address and `Querier` otherwise, and no timer event lies in the past.

* `Quiet`: what a step that has nothing to do with the election changes. Sending a query is such a step.
* `Role`: the two roles of a router for a group, and the timer that ends the second.
* `election_onTime`: the election over a run.
-/

namespace NetSim.Igmp

variable {var : IgmpVar} {device : Device} {r r' : Router} {db db' : RouterDb} {g group : UInt32} {now time : ℚ}
  {heard : List (UInt32 × ℚ)} {event : TimerEvent}

/-! ### The property and the condition -/

/-- The query present interval, which is kept in tenths of a second. -/
def presentTime (var : IgmpVar) : ℚ := tenths var.queryPresentInterval

/-- **The election is on time**: after a query from a lower address the router is `NonQuerier` for the query present
interval, otherwise it is `Querier`, and no timer event waits for a time that is over. -/
structure ElectionOk (var : IgmpVar) (run : Run) : Prop where
  querier : ∀ group db, routerGetMulticastDb run.router.database group = some db → db.state = .querier →
    ∀ time, lastHeard run.heard group = some time → time + presentTime var ≤ run.now
  nonQuerier : ∀ group db, routerGetMulticastDb run.router.database group = some db → db.state = .nonQuerier →
    ∃ time, lastHeard run.heard group = some time ∧ time ≤ run.now ∧ run.now ≤ time + presentTime var
  onTime : ∀ event ∈ run.router.events, run.now ≤ event.eventTime

/-- The steps without the defects. A query from a lower address finds the timer not started yet or still running. The
timer finds the interval over, or the time to which it is put off not over. An entry that is deleted is in the role of
the querier. -/
def isSound (var : IgmpVar) (device : Device) (run : Run) : Event → Bool
  | .query src groupAddress =>
    !device.isLower src || (routerGetMulticastDb run.router.database groupAddress).all fun db =>
      !db.isOtherquerierTimerStarted || db.state = .nonQuerier
  | .timer event =>
    (routerGetMulticastDb run.router.database event.group).all fun db =>
      match event.subEvent with
      | .otherQuerierPresentTimer =>
        db.otherQuerierPresentTime + presentTime var ≤ event.eventTime ||
          event.eventTime ≤ db.otherQuerierPresentTime + var.queryPresentInterval.toNat
      | .groupMembershipTimer =>
        event.eventTime < db.reportRcvTime + tenths var.groupMembershipInterval || db.state = .querier
      | _ => true
  | _ => true

/-! ### Reading and writing the database -/

theorem tenths_nonneg (interval : UInt32) : 0 ≤ tenths interval := by
  unfold tenths second
  positivity

/-- The interval as it stands is no longer than the interval in tenths of a second. -/
theorem natCast_le_tenths (interval : UInt32) : (interval.toNat : ℚ) ≤ tenths interval := by
  have h : (0 : ℚ) ≤ interval.toNat := Nat.cast_nonneg _
  unfold tenths second
  linarith

theorem getSubeventDelay_nonneg (var : IgmpVar) (sev : SubEvent) : 0 ≤ getSubeventDelay var sev := by
  cases sev <;> exact tenths_nonneg _

theorem group_of_get {database : List RouterDb} (h : routerGetMulticastDb database g = some db) : db.group = g := by
  simpa using List.find?_some h

theorem get_setDb_self (h : routerGetMulticastDb r.database db.group = some db') :
    routerGetMulticastDb (setDb db r).database db.group = some db :=
  FirstMatch.find?_replaceFirst h (by simp)

theorem get_setDb_of_ne (h : g ≠ db.group) :
    routerGetMulticastDb (setDb db r).database g = routerGetMulticastDb r.database g :=
  FirstMatch.find?_replaceFirst_of_disjoint (by
    intro c hc
    simp only [decide_eq_true_eq] at hc
    simp [hc, Ne.symm h]) (by simp [Ne.symm h])

theorem map_group_setDb (h : routerGetMulticastDb r.database db.group = some db') :
    (setDb db r).database.map RouterDb.group = r.database.map RouterDb.group := by
  obtain ⟨l₁, l₂, -, heq, hrep⟩ := FirstMatch.replaceFirst_of_find? h db
  have hgroup : db'.group = db.group := group_of_get h
  unfold setDb
  dsimp only
  rw [hrep, heq, List.map_append, List.map_append, List.map_cons, List.map_cons, hgroup]

/-! ### Steps outside the election -/

/-- What the election reads of an entry. -/
def RouterDb.role (db : RouterDb) : RouterState × Bool × ℚ :=
  (db.state, db.isOtherquerierTimerStarted, db.otherQuerierPresentTime)

/-- A timer that is to end the role of the non-querier for a group. -/
def isPresentTimer (group : UInt32) (event : TimerEvent) : Bool :=
  event.subEvent = .otherQuerierPresentTimer && event.group = group

/-- The timers that are to end the role of the non-querier for a group. -/
def presentTimers (events : List TimerEvent) (group : UInt32) : List TimerEvent :=
  events.filter (isPresentTimer group)

/-- A step that leaves the election alone: what it reads stays, and no event is added for a time that is over. -/
structure Quiet (now : ℚ) (r r' : Router) : Prop where
  roles : ∀ g, (routerGetMulticastDb r'.database g).map RouterDb.role =
    (routerGetMulticastDb r.database g).map RouterDb.role
  timers : ∀ g, presentTimers r'.events g = presentTimers r.events g
  late : ∀ event ∈ r'.events, event ∈ r.events ∨ now ≤ event.eventTime
  groups : r'.database.map RouterDb.group = r.database.map RouterDb.group

theorem Quiet.refl (now : ℚ) (r : Router) : Quiet now r r :=
  ⟨fun _ => rfl, fun _ => rfl, fun _ h => .inl h, rfl⟩

theorem Quiet.trans {r₁ r₂ r₃ : Router} (h : Quiet now r₁ r₂) (h' : Quiet now r₂ r₃) : Quiet now r₁ r₃ where
  roles g := (h'.roles g).trans (h.roles g)
  timers g := (h'.timers g).trans (h.timers g)
  late event he := by
    rcases h'.late event he with h1 | h1
    · exact h.late event h1
    · exact .inr h1
  groups := h'.groups.trans h.groups

/-- An entry is written that has the role of the one before. -/
theorem Quiet.setDb (now : ℚ) (h : routerGetMulticastDb r.database db.group = some db') (hrole : db.role = db'.role) :
    Quiet now r (setDb db r) where
  roles g := by
    by_cases hg : g = db.group
    · subst hg
      rw [get_setDb_self h, h, Option.map_some, Option.map_some, hrole]
    · rw [get_setDb_of_ne hg]
  timers _ := rfl
  late _ he := .inl he
  groups := map_group_setDb h

/-- An event is added that is not over and no present timer. -/
theorem Quiet.addEvent (r : Router) (hsev : event.subEvent ≠ .otherQuerierPresentTimer) (htime : now ≤ event.eventTime) :
    Quiet now r { r with events := event :: r.events } where
  roles _ := rfl
  timers g := by
    have hno : ¬ isPresentTimer g event = true := by simp [isPresentTimer, hsev]
    exact List.filter_cons_of_neg hno
  late e he := by
    rcases List.mem_cons.1 he with rfl | he
    · exact .inr htime
    · exact .inl he
  groups := rfl

theorem Quiet.startTimer {sev : SubEvent} (hsev : sev ≠ .otherQuerierPresentTimer) (addr : UInt32) (now : ℚ) (r : Router) :
    Quiet now r (igmpStartTimer var sev addr now r) := by
  have hdelay := getSubeventDelay_nonneg var sev
  refine Quiet.addEvent r hsev ?_
  dsimp only
  linarith

/-- **Sending a query** leaves the election alone. -/
theorem quiet_sendQueryMsg (h : sendQueryMsg var group now r = some r') : Quiet now r r' := by
  unfold sendQueryMsg at h
  split at h
  · exact absurd h (by simp)
  · rename_i db hdb
    dsimp only at h
    have hgroup := group_of_get hdb
    split at h
    · obtain rfl := Option.some.inj h
      exact .refl now r
    · obtain rfl := Option.some.inj h
      subst hgroup
      have hset : Quiet now r (setDb { db with sentCount := db.sentCount + 1 } r) := .setDb now hdb rfl
      refine hset.trans (Quiet.startTimer ?_ db.group now _)
      split <;> simp

/-! ### The two roles -/

/-- The router is the querier of a group, and no timer is to make it so. -/
structure Idle (var : IgmpVar) (run : Run) (group : UInt32) : Prop where
  querier : ∀ db, routerGetMulticastDb run.router.database group = some db → db.state = .querier
  timers : presentTimers run.router.events group = []
  elapsed : ∀ time, lastHeard run.heard group = some time → time + presentTime var ≤ run.now

/-- The router is not the querier since a query at a time, and one timer is to end that. -/
structure Waiting (var : IgmpVar) (run : Run) (group : UInt32) (time : ℚ) : Prop where
  role : (routerGetMulticastDb run.router.database group).map RouterDb.role = some (.nonQuerier, true, time)
  heard : lastHeard run.heard group = some time
  past : time ≤ run.now
  timers : ∃ event, presentTimers run.router.events group = [event] ∧ event.eventTime ≤ time + presentTime var

/-- The router has one of the two roles for a group. -/
def HasRole (var : IgmpVar) (run : Run) (group : UInt32) : Prop :=
  Idle var run group ∨ ∃ time, Waiting var run group time

variable {run run' : Run}

/-- A role is kept with what it reads. -/
theorem HasRole.congr (h : HasRole var run g)
    (hrole : (routerGetMulticastDb run'.router.database g).map RouterDb.role =
      (routerGetMulticastDb run.router.database g).map RouterDb.role)
    (htimers : presentTimers run'.router.events g = presentTimers run.router.events g)
    (hheard : lastHeard run'.heard g = lastHeard run.heard g) (hnow : run.now ≤ run'.now) : HasRole var run' g := by
  rcases h with h | ⟨time, h⟩
  · refine .inl ⟨?_, htimers.trans h.timers, ?_⟩
    · intro db hdb
      rw [hdb, Option.map_some] at hrole
      obtain ⟨old, hold, heq⟩ := Option.map_eq_some_iff.1 hrole.symm
      have hstate := congrArg Prod.fst heq
      exact hstate.symm.trans (h.querier old hold)
    · intro time ht
      rw [hheard] at ht
      exact le_trans (h.elapsed time ht) hnow
  · exact .inr ⟨time, hrole.trans h.role, hheard.trans h.heard, le_trans h.past hnow, htimers ▸ h.timers⟩

/-- **The invariant**: a role for each group, no event in the past, one entry for a group. -/
structure Election (var : IgmpVar) (run : Run) : Prop where
  roles : ∀ g, HasRole var run g
  onTime : ∀ event ∈ run.router.events, run.now ≤ event.eventTime
  groups : (run.router.database.map RouterDb.group).Nodup

/-- The invariant gives the property. -/
theorem Election.ok (h : Election var run) : ElectionOk var run where
  querier group db hdb hstate time ht := by
    rcases h.roles group with hi | ⟨t, hw⟩
    · exact hi.elapsed time ht
    · have hrole := hw.role
      rw [hdb, Option.map_some, Option.some.injEq] at hrole
      have hnon : db.state = .nonQuerier := congrArg Prod.fst hrole
      rw [hnon] at hstate
      cases hstate
  nonQuerier group db hdb hstate := by
    rcases h.roles group with hi | ⟨t, hw⟩
    · rw [hi.querier db hdb] at hstate
      cases hstate
    · obtain ⟨event, hevent, hle⟩ := hw.timers
      have hmem : event ∈ presentTimers run.router.events group := by rw [hevent]; exact List.mem_singleton_self _
      have hnow := h.onTime event (List.mem_of_mem_filter hmem)
      exact ⟨t, hw.heard, hw.past, le_trans hnow hle⟩
  onTime := h.onTime

/-! ### Steps -/

/-- A step outside the election keeps the invariant. -/
theorem Election.quiet (h : Election var run) (hq : Quiet run.now run.router r') :
    Election var { run with router := r' } where
  roles g := (h.roles g).congr (hq.roles g) (hq.timers g) rfl le_rfl
  onTime event he := by
    rcases hq.late event he with h1 | h1
    · exact h.onTime event h1
    · exact h1
  groups := by
    have hgroups := hq.groups
    dsimp only
    rw [hgroups]
    exact h.groups

theorem Election.wait (h : Election var run) (hle : run.now ≤ time) (hdue : ∀ event ∈ run.router.events, time ≤ event.eventTime) :
    Election var { run with now := time } where
  roles g := (h.roles g).congr rfl rfl rfl hle
  onTime := hdue
  groups := h.groups

/-- What a query does: nothing, or it comes from a lower address and finds the entry of its group. -/
theorem processQuery_cases {src : UInt32} (h : routerProcessQuery var device src g now r = some r') :
    device.isLower src = false ∧ r' = r ∨
      device.isLower src = true ∧ ∃ db, routerGetMulticastDb r.database g = some db ∧
        r' = if db.isOtherquerierTimerStarted then
            setDb { db with state := .nonQuerier, otherQuerierPresentTime := now, isOtherquerierTimerStarted := true } r
          else
            igmpStartTimer var .otherQuerierPresentTimer g now (setDb
              { db with state := .nonQuerier, otherQuerierPresentTime := now, isOtherquerierTimerStarted := true } r) := by
  unfold routerProcessQuery at h
  unfold Device.isLower
  split at h
  · rename_i hsame
    exact .inl ⟨by rw [hsame]; rfl, (Option.some.inj h).symm⟩
  · rename_i hsame
    have hother : (!device.isIpForSameDevice src) = true := by simpa using hsame
    rw [hother, Bool.true_and]
    split at h
    · exact absurd h (by simp)
    · rename_i same hsub
      rw [hsub, Option.any_some]
      split at h
      · rename_i hlower
        split at h
        · exact absurd h (by simp)
        · rename_i db hdb
          exact .inr ⟨decide_eq_true hlower, db, hdb, (Option.some.inj h).symm⟩
      · rename_i hlower
        exact .inl ⟨decide_eq_false hlower, (Option.some.inj h).symm⟩

/-- **A query from a lower address** makes the router a non-querier, if the timer is not started yet or still runs. -/
theorem Election.lower (h : Election var run) (hdb : routerGetMulticastDb run.router.database g = some db)
    (hsound : db.isOtherquerierTimerStarted = false ∨ db.state = .nonQuerier) :
    Election var
      { run with
        router := if db.isOtherquerierTimerStarted then
            setDb { db with state := .nonQuerier, otherQuerierPresentTime := run.now, isOtherquerierTimerStarted := true }
              run.router
          else
            igmpStartTimer var .otherQuerierPresentTimer g run.now (setDb
              { db with state := .nonQuerier, otherQuerierPresentTime := run.now, isOtherquerierTimerStarted := true }
              run.router)
        heard := (g, run.now) :: run.heard } := by
  have hgroup := group_of_get hdb
  subst hgroup
  generalize hnew : ({ db with
    state := .nonQuerier, otherQuerierPresentTime := run.now, isOtherquerierTimerStarted := true } : RouterDb) = new
  have hnewGroup : new.group = db.group := by rw [← hnew]
  have hnewRole : new.role = (.nonQuerier, true, run.now) := by rw [← hnew]; rfl
  have hget : routerGetMulticastDb run.router.database new.group = some db := by rw [hnewGroup]; exact hdb
  have hself := get_setDb_self hget
  have hgroups := map_group_setDb hget
  have hdelay : 0 ≤ presentTime var := tenths_nonneg _
  have hlast : lastHeard ((db.group, run.now) :: run.heard) db.group = some run.now := by simp [lastHeard]
  have hlastOther : ∀ g, g ≠ db.group → lastHeard ((db.group, run.now) :: run.heard) g = lastHeard run.heard g := by
    intro g hg
    unfold lastHeard
    rw [List.find?_cons_of_neg (by simpa using Ne.symm hg)]
  have hother : ∀ g, g ≠ db.group →
      (routerGetMulticastDb (setDb new run.router).database g).map RouterDb.role =
        (routerGetMulticastDb run.router.database g).map RouterDb.role := by
    intro g hg
    rw [get_setDb_of_ne (by rw [hnewGroup]; exact hg)]
  have hrole : (routerGetMulticastDb (setDb new run.router).database db.group).map RouterDb.role =
      some (.nonQuerier, true, run.now) := by
    rw [← hnewGroup, hself, Option.map_some, hnewRole]
  rcases h.roles db.group with hidle | ⟨t, hwait⟩
  · -- the querier steps back, and its first timer is started
    have hstate := hidle.querier db hdb
    have hstarted : db.isOtherquerierTimerStarted = false := by
      rcases hsound with h1 | h1
      · exact h1
      · rw [h1] at hstate
        cases hstate
    rw [hstarted, if_neg Bool.false_ne_true]
    refine ⟨fun g => ?_, fun event he => ?_, ?_⟩
    · by_cases hg : g = db.group
      · subst hg
        refine .inr ⟨run.now, hrole, hlast, le_rfl, ⟨run.now + getSubeventDelay var .otherQuerierPresentTimer,
          .otherQuerierPresentTimer, db.group⟩, ?_, le_refl (run.now + presentTime var)⟩
        have htimer : isPresentTimer db.group ⟨run.now + getSubeventDelay var .otherQuerierPresentTimer,
            .otherQuerierPresentTimer, db.group⟩ = true := by simp [isPresentTimer]
        have hcons := List.filter_cons_of_pos (l := run.router.events) htimer
        have hnone : run.router.events.filter (isPresentTimer db.group) = [] := hidle.timers
        exact hcons.trans (by rw [hnone])
      · refine (h.roles g).congr (hother g hg) ?_ (hlastOther g hg) le_rfl
        exact List.filter_cons_of_neg (by simp [isPresentTimer, Ne.symm hg])
    · rcases List.mem_cons.1 he with rfl | he
      · change run.now ≤ run.now + presentTime var
        linarith
      · exact h.onTime event he
    · exact hgroups ▸ h.groups
  · -- the non-querier remembers the later query, and its timer runs on
    have hstarted : db.isOtherquerierTimerStarted = true := by
      have hr := hwait.role
      rw [hdb, Option.map_some, Option.some.injEq] at hr
      exact congrArg (fun r => r.2.1) hr
    rw [hstarted, if_pos rfl]
    refine ⟨fun g => ?_, h.onTime, ?_⟩
    · by_cases hg : g = db.group
      · subst hg
        obtain ⟨event, hevent, hle⟩ := hwait.timers
        have hpast := hwait.past
        exact .inr ⟨run.now, hrole, hlast, le_rfl, event, hevent, by linarith⟩
      · exact (h.roles g).congr (hother g hg) rfl (hlastOther g hg) le_rfl
    · exact hgroups ▸ h.groups

/-- A router that joins a group has an entry for it, and is its querier if the entry is new. -/
theorem Election.join (h : Election var run) (g : UInt32) :
    Election var { run with router := (findOrAllocMulticastDbRouter g run.router).2 } ∧
      routerGetMulticastDb (findOrAllocMulticastDbRouter g run.router).2.database g =
        some (findOrAllocMulticastDbRouter g run.router).1 := by
  unfold findOrAllocMulticastDbRouter
  split
  · rename_i db hdb
    exact ⟨h, hdb⟩
  · rename_i hnone
    dsimp only
    have hself : routerGetMulticastDb (run.router.database ++ [allocRouterDb g]) g = some (allocRouterDb g) := by
      unfold routerGetMulticastDb at hnone ⊢
      rw [List.find?_append, hnone]
      simp [allocRouterDb]
    refine ⟨⟨fun g' => ?_, h.onTime, ?_⟩, hself⟩
    · by_cases hg : g' = g
      · subst hg
        rcases h.roles g' with hi | ⟨t, hw⟩
        · refine .inl ⟨?_, hi.timers, hi.elapsed⟩
          intro db hdb
          obtain rfl := Option.some.inj (hself.symm.trans hdb)
          rfl
        · have hr := hw.role
          rw [hnone] at hr
          cases hr
      · refine (h.roles g').congr ?_ rfl rfl le_rfl
        unfold routerGetMulticastDb
        dsimp only
        rw [List.find?_append, List.find?_cons_of_neg (by simp [allocRouterDb, Ne.symm hg]), List.find?_nil,
          Option.or_none]
    · dsimp only
      rw [List.map_append, List.nodup_append]
      refine ⟨h.groups, by simp, ?_⟩
      intro a ha b hb hab
      obtain ⟨db, hdb, rfl⟩ := List.mem_map.1 ha
      have hb' : b = g := by simpa [allocRouterDb] using hb
      have hno := List.find?_eq_none.1 hnone db hdb
      exact hno (by simp [hab, hb'])

/-- **A report** leaves the election alone, but for a new entry. -/
theorem Election.report (h : Election var run) (hstep : routerProcessReport var g run.now run.router = some r') :
    Election var { run with router := r' } := by
  obtain ⟨hjoin, hget⟩ := h.join g
  unfold routerProcessReport at hstep
  dsimp only at hstep
  generalize findOrAllocMulticastDbRouter g run.router = joined at hjoin hget hstep
  obtain ⟨db, r₁⟩ := joined
  dsimp only at hjoin hget hstep
  have hgroup := group_of_get hget
  subst hgroup
  split at hstep
  · obtain rfl := Option.some.inj hstep
    exact hjoin.quiet (.setDb run.now hget rfl)
  · have hset : Quiet run.now r₁ (setDb { db with reportRcvTime := run.now, isGroupMembershipTimerStarted := true } r₁) :=
      .setDb run.now hget rfl
    have htimer : Quiet run.now r₁ (igmpStartTimer var .groupMembershipTimer db.group run.now
        (setDb { db with reportRcvTime := run.now, isGroupMembershipTimerStarted := true } r₁)) :=
      hset.trans (.startTimer (by decide) db.group run.now _)
    exact hjoin.quiet (htimer.trans (quiet_sendQueryMsg hstep))

/-! ### Timer events -/

/-- The state in which a timer event is handled: it is taken from the list, and its time is the current one. -/
def fired (event : TimerEvent) (run : Run) : Run :=
  { run with now := event.eventTime, router := { run.router with events := run.router.events.erase event } }

/-- The earliest event is taken: only the role it is to end is touched. -/
theorem Election.fired (h : Election var run) (hmem : event ∈ run.router.events)
    (hfirst : ∀ other ∈ run.router.events, event.eventTime ≤ other.eventTime) :
    (∀ g, isPresentTimer g event = false → HasRole var (fired event run) g) ∧
      ∀ other ∈ (Igmp.fired event run).router.events, (Igmp.fired event run).now ≤ other.eventTime := by
  refine ⟨fun g hg => (h.roles g).congr rfl ?_ rfl (h.onTime event hmem), fun other ho => ?_⟩
  · have hnot : event ∉ run.router.events.filter (isPresentTimer g) := by
      intro hin
      have := (List.mem_filter.1 hin).2
      rw [hg] at this
      cases this
    exact List.erase_filter.symm.trans (List.erase_of_not_mem hnot)
  · exact hfirst other (List.mem_of_mem_erase ho)

/-- A timer that is not a present timer leaves the roles alone. -/
theorem Election.firedOther (h : Election var run) (hmem : event ∈ run.router.events)
    (hfirst : ∀ other ∈ run.router.events, event.eventTime ≤ other.eventTime)
    (hsev : event.subEvent ≠ .otherQuerierPresentTimer) : Election var (Igmp.fired event run) where
  roles g := (h.fired hmem hfirst).1 g (by simp [isPresentTimer, hsev])
  onTime := (h.fired hmem hfirst).2
  groups := h.groups

/-- **The timer of a non-querier**: the interval is over and the router is the querier again, or the timer is put off
to a time that is not over. -/
theorem Election.present (h : Election var run) (hmem : event ∈ run.router.events)
    (hfirst : ∀ other ∈ run.router.events, event.eventTime ≤ other.eventTime)
    (hsev : event.subEvent = .otherQuerierPresentTimer)
    (hsound : ∀ db, routerGetMulticastDb run.router.database event.group = some db →
      db.otherQuerierPresentTime + presentTime var ≤ event.eventTime ∨
        event.eventTime ≤ db.otherQuerierPresentTime + var.queryPresentInterval.toNat)
    (hstep : processOtherQuerierPresentTime var event (Igmp.fired event run).router = some r') :
    Election var { run with now := event.eventTime, router := r' } := by
  obtain ⟨hothers, honTime⟩ := h.fired hmem hfirst
  have hthis : isPresentTimer event.group event = true := by simp [isPresentTimer, hsev]
  have hin : event ∈ presentTimers run.router.events event.group := List.mem_filter.2 ⟨hmem, hthis⟩
  -- the timer shows that the router is waiting, and is the only one of its group
  obtain ⟨t, hwait⟩ : ∃ t, Waiting var run event.group t := by
    rcases h.roles event.group with hi | hw
    · rw [hi.timers] at hin
      exact absurd hin List.not_mem_nil
    · exact hw
  obtain ⟨db, hdb, hrole⟩ := Option.map_eq_some_iff.1 hwait.role
  have htime : db.otherQuerierPresentTime = t := congrArg (fun r => r.2.2) hrole
  have hgroup := group_of_get hdb
  have hlone : presentTimers (run.router.events.erase event) event.group = [] := by
    obtain ⟨e, he, -⟩ := hwait.timers
    rw [he, List.mem_singleton] at hin
    have herase : (presentTimers run.router.events event.group).erase event = [] := by
      rw [he, hin]
      exact List.erase_cons_head ..
    exact List.erase_filter.symm.trans herase
  have hpast := h.onTime event hmem
  unfold processOtherQuerierPresentTime at hstep
  rw [show routerGetMulticastDb (Igmp.fired event run).router.database event.group = some db from hdb] at hstep
  dsimp only at hstep
  split at hstep
  · rename_i hover
    have hset : Election var { run with
        now := event.eventTime, router := setDb { db with state := .querier } (Igmp.fired event run).router } := by
      have hget : routerGetMulticastDb (Igmp.fired event run).router.database
          ({ db with state := .querier } : RouterDb).group = some db := by
        rw [← hgroup] at hdb
        exact hdb
      have hself := get_setDb_self hget
      have hgroups := map_group_setDb hget
      refine ⟨fun g => ?_, honTime, hgroups ▸ h.groups⟩
      by_cases hg : g = event.group
      · subst hg
        refine .inl ⟨?_, hlone, ?_⟩
        · intro db' hdb'
          rw [← hgroup] at hdb'
          obtain rfl := Option.some.inj (hself.symm.trans hdb')
          rfl
        · intro time ht
          obtain rfl := Option.some.inj (hwait.heard.symm.trans ht)
          rw [htime] at hover
          exact hover
      · refine (hothers g (by simp [isPresentTimer, Ne.symm hg])).congr ?_ rfl rfl le_rfl
        exact congrArg (Option.map RouterDb.role) (get_setDb_of_ne (by rw [hgroup]; exact hg))
    exact hset.quiet (quiet_sendQueryMsg hstep)
  · rename_i hover
    obtain rfl := Option.some.inj hstep
    have hlate : event.eventTime ≤ t + var.queryPresentInterval.toNat := by
      rcases hsound db hdb with h1 | h1
      · exact absurd h1 hover
      · rwa [htime] at h1
    have hshort : (var.queryPresentInterval.toNat : ℚ) ≤ presentTime var := natCast_le_tenths _
    refine ⟨fun g => ?_, fun other ho => ?_, h.groups⟩
    · by_cases hg : g = event.group
      · subst hg
        refine .inr ⟨t, hwait.role, hwait.heard, le_trans hwait.past hpast,
          { event with eventTime := db.otherQuerierPresentTime + var.queryPresentInterval.toNat }, ?_, ?_⟩
        · have hcons := List.filter_cons_of_pos (l := run.router.events.erase event)
            (show isPresentTimer event.group
              { event with eventTime := db.otherQuerierPresentTime + var.queryPresentInterval.toNat } = true from hthis)
          have hnone : (run.router.events.erase event).filter (isPresentTimer event.group) = [] := hlone
          exact hcons.trans (by rw [hnone])
        · dsimp only
          rw [htime]
          linarith
      · refine (hothers g (by simp [isPresentTimer, Ne.symm hg])).congr rfl ?_ rfl le_rfl
        exact List.filter_cons_of_neg (by simp [isPresentTimer, Ne.symm hg])
    · rcases List.mem_cons.1 ho with rfl | ho
      · dsimp only
        rw [htime]
        exact hlate
      · exact honTime other ho

/-- The entry of a group is deleted, and the entries of the others stay. -/
theorem get_delete {database : List RouterDb} (hnodup : (database.map RouterDb.group).Nodup) (group g : UInt32) :
    routerGetMulticastDb (database.eraseP fun db => db.group = group) g =
      if g = group then none else routerGetMulticastDb database g := by
  induction database with
  | nil => split <;> rfl
  | cons db database ih =>
    rw [List.map_cons, List.nodup_cons] at hnodup
    have hrest := ih hnodup.2
    unfold routerGetMulticastDb at hrest ⊢
    by_cases hdb : db.group = group
    · rw [List.eraseP_cons_of_pos (by simpa using hdb)]
      split
      · rename_i hg
        refine List.find?_eq_none.2 fun other ho => ?_
        have hne : other.group ≠ db.group := fun heq => hnodup.1 (heq ▸ List.mem_map_of_mem ho)
        simp [hg, ← hdb, hne]
      · rename_i hg
        rw [List.find?_cons_of_neg (by simp [hdb, Ne.symm hg])]
    · rw [List.eraseP_cons_of_neg (by simpa using hdb)]
      by_cases hg : db.group = g
      · have hne : g ≠ group := hg ▸ hdb
        rw [if_neg hne, List.find?_cons_of_pos (by simpa using hg), List.find?_cons_of_pos (by simpa using hg)]
      · rw [List.find?_cons_of_neg (by simpa using hg), hrest, List.find?_cons_of_neg (by simpa using hg)]

/-- **The membership timer** deletes the entry of a group whose querier the router is. -/
theorem Election.membership (h : Election var run) (hmem : event ∈ run.router.events)
    (hfirst : ∀ other ∈ run.router.events, event.eventTime ≤ other.eventTime)
    (hsev : event.subEvent = .groupMembershipTimer)
    (hsound : ∀ db, routerGetMulticastDb run.router.database event.group = some db →
      event.eventTime < db.reportRcvTime + tenths var.groupMembershipInterval ∨ db.state = .querier)
    (hstep : processGroupMembershipTimer var event (Igmp.fired event run).router = some r') :
    Election var { run with now := event.eventTime, router := r' } := by
  have hfired := h.firedOther hmem hfirst (by rw [hsev]; decide)
  unfold processGroupMembershipTimer at hstep
  split at hstep
  · exact absurd hstep (by simp)
  · rename_i db hdb
    split at hstep
    · rename_i hover
      obtain rfl := Option.some.inj hstep
      have hstate : db.state = .querier := by
        rcases hsound db hdb with h1 | h1
        · exact absurd hover (not_le.2 h1)
        · exact h1
      refine ⟨fun g => ?_, hfired.onTime, h.groups.sublist (List.Sublist.map _ List.eraseP_sublist)⟩
      have hget := get_delete h.groups event.group g
      by_cases hg : g = event.group
      · rw [if_pos hg] at hget
        subst hg
        rcases hfired.roles event.group with hi | ⟨t, hw⟩
        · refine .inl ⟨fun db' hdb' => ?_, hi.timers, hi.elapsed⟩
          exact absurd (hget.symm.trans hdb') (by simp)
        · have hr := hw.role
          rw [hdb, Option.map_some, Option.some.injEq] at hr
          have hnon : db.state = .nonQuerier := congrArg Prod.fst hr
          rw [hstate] at hnon
          cases hnon
      · rw [if_neg hg] at hget
        exact (hfired.roles g).congr (congrArg _ hget) rfl rfl le_rfl
    · rename_i hover
      obtain rfl := Option.some.inj hstep
      refine hfired.quiet (.addEvent _ (by rw [hsev]; decide) ?_)
      exact le_of_not_ge hover

/-! ### Runs -/

theorem election_start (h : (machine var device).init run) : Election var run := by
  obtain ⟨hnow, hinit, hheard⟩ := h
  have hblank : Election var ⟨0, ⟨[], []⟩, []⟩ :=
    ⟨fun g => .inl ⟨fun _ h => (nomatch h), rfl, fun _ h => (nomatch h)⟩, fun _ h => (nomatch h), List.nodup_nil⟩
  obtain ⟨now, r, heard⟩ := run
  dsimp only at hnow hinit hheard
  subst hnow hheard
  unfold igmpRouterInit at hinit
  split at hinit
  · have hq := quiet_sendQueryMsg hinit
    refine (hblank.join allSystems).1.quiet ⟨hq.roles, hq.timers, fun event he => ?_, hq.groups⟩
    rcases hq.late event he with h1 | h1
    · exact .inl h1
    · refine .inr (le_trans ?_ h1)
      unfold millisecond
      norm_num
  · obtain rfl := Option.some.inj hinit
    exact hblank

/-- **Each step** that meets the condition keeps the invariant. -/
theorem Election.step (h : Election var run) {e : Event} (hsound : isSound var device run e = true)
    (hstep : (machine var device).step run e = some run') : Election var run' := by
  cases e with
  | wait time =>
    simp only [machine] at hstep
    split at hstep
    · rename_i hdue
      obtain rfl := Option.some.inj hstep
      exact h.wait hdue.1 hdue.2
    · exact absurd hstep (by simp)
  | query src g =>
    obtain ⟨r', hr, rfl⟩ := Option.map_eq_some_iff.1 hstep
    rcases processQuery_cases hr with ⟨hnot, rfl⟩ | ⟨hlower, db, hdb, rfl⟩
    · rw [hnot, if_neg Bool.false_ne_true]
      exact h
    · rw [hlower, if_pos rfl]
      refine h.lower hdb ?_
      simpa [isSound, hlower, hdb] using hsound
  | report g =>
    obtain ⟨r', hr, rfl⟩ := Option.map_eq_some_iff.1 hstep
    exact h.report hr
  | timer event =>
    simp only [machine] at hstep
    split at hstep
    · rename_i hdue
      obtain ⟨r', hr, rfl⟩ := Option.map_eq_some_iff.1 hstep
      obtain ⟨hmem, hfirst⟩ := hdue
      unfold handleTimer at hr
      cases hsev : event.subEvent with
      | sendStartupQuery =>
        rw [hsev] at hr
        exact (h.firedOther hmem hfirst (by rw [hsev]; decide)).quiet (quiet_sendQueryMsg hr)
      | sendQuery =>
        rw [hsev] at hr
        exact (h.firedOther hmem hfirst (by rw [hsev]; decide)).quiet (quiet_sendQueryMsg hr)
      | otherQuerierPresentTimer =>
        rw [hsev] at hr
        refine h.present hmem hfirst hsev (fun db hdb => ?_) hr
        simpa [isSound, hdb, hsev] using hsound
      | groupMembershipTimer =>
        rw [hsev] at hr
        refine h.membership hmem hfirst hsev (fun db hdb => ?_) hr
        simpa [isSound, hdb, hsev] using hsound
    · exact absurd hstep (by simp)

/-- **The election of the querier is on time** in every run whose steps all meet the condition. -/
theorem election_onTime (var : IgmpVar) (device : Device) (run : Run)
    (h : (machine var device).ReachOn (fun run e => isSound var device run e = true) run) : ElectionOk var run :=
  (h.inv (I := Election var) (fun _ => election_start) fun _ _ _ hI hok hs => hI.step hok hs).ok

/-! ### Samples -/

/-- The default values: the query present interval is of 30 seconds. -/
def defaultVar : IgmpVar := ⟨2, 125, 100⟩

/-- A router of the address `10` in its only subnet. -/
def sampleDevice : Device where
  isIpForSameDevice src := src = 10
  getIpFromSameSubnet _ := some 10
  isBroadcastInterfacePresent := true

/-- A query from a lower address at a time. -/
def queryAt (time : ℚ) : List Event := [.wait time, .query 5 allSystems]

/-- The first query timer of the router and the timer of a query after one second. -/
def firstTimers : List Event :=
  [.timer ⟨3101000, .sendStartupQuery, allSystems⟩, .timer ⟨31000000, .otherQuerierPresentTimer, allSystems⟩]

/-- The router after its start. -/
def sampleStart : Run :=
  ⟨0, ⟨[{ allocRouterDb allSystems with sentCount := 1 }], [⟨3101000, .sendStartupQuery, allSystems⟩]⟩, []⟩

theorem sampleStart_init : (machine defaultVar sampleDevice).init sampleStart :=
  ⟨rfl, by decide +kernel, rfl⟩

/-- The router of a subnet hears one query, and is the querier again after 30 seconds. -/
theorem election_sample :
    ∃ run, ((machine defaultVar sampleDevice).ReachOn (fun run e => isSound defaultVar sampleDevice run e = true) run ∧
      run.now = 31000000) ∧ ElectionOk defaultVar run := by
  obtain ⟨run, hreach, hnow⟩ := Machine.ReachOn.exists_of_execOn
    (M := machine defaultVar sampleDevice) (fun run e => isSound defaultVar sampleDevice run e = true)
    (P := fun run => run.now = 31000000) (queryAt 1000000 ++ firstTimers) (.init sampleStart_init) (by decide +kernel)
  exact ⟨run, ⟨hreach, hnow⟩, election_onTime _ _ run hreach⟩

/-- **The election is late.** After a second query the timer is put off to a time that is over. A router that is demoted
again has no timer, and is no querier 68 seconds later. -/
theorem election_late :
    ¬ (∀ run, (machine defaultVar sampleDevice).Reach run → ∀ event ∈ run.router.events, run.now ≤ event.eventTime) ∧
    ¬ (∀ run, (machine defaultVar sampleDevice).Reach run → ElectionOk defaultVar run) := by
  constructor
  · intro hall
    obtain ⟨run, hreach, hpast⟩ := Machine.Reach.exists_of_exec (M := machine defaultVar sampleDevice)
      (P := fun run => ∃ event ∈ run.router.events, event.eventTime < run.now)
      (queryAt 1000000 ++ queryAt 2000000 ++ firstTimers) (.init sampleStart_init) (by decide +kernel)
    obtain ⟨event, hevent, hlt⟩ := hpast
    exact absurd (hall run hreach event hevent) (not_le.2 hlt)
  · intro hall
    obtain ⟨run, hreach, hlater⟩ := Machine.Reach.exists_of_exec (M := machine defaultVar sampleDevice)
      (P := fun run => (routerGetMulticastDb run.router.database allSystems).map RouterDb.state = some .nonQuerier ∧
        lastHeard run.heard allSystems = some 32000000 ∧ 32000000 + presentTime defaultVar < run.now)
      (queryAt 1000000 ++ firstTimers ++ queryAt 32000000 ++
        [.timer ⟨34100000, .sendStartupQuery, allSystems⟩, .wait 100000000])
      (.init sampleStart_init) (by decide +kernel)
    obtain ⟨hrole, hheard, hlate⟩ := hlater
    obtain ⟨db, hdb, hstate⟩ := Option.map_eq_some_iff.1 hrole
    obtain ⟨time, htime, -, hnow⟩ := (hall run hreach).nonQuerier _ db hdb hstate
    obtain rfl := Option.some.inj (hheard.symm.trans htime)
    exact absurd hnow (not_le.2 hlate)

end NetSim.Igmp
