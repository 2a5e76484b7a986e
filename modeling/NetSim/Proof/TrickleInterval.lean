import NetSim.Spec.Trickle
import Mathlib.Tactic.Linarith

/-!
# The trickle interval

In a run whose steps meet the condition the interval of a node that stays root or joined has doubled with each expiry since
the latest reset, up to the configured number of doublings, the transmission lies in its second half, and both events are
pending after a reset or an expiry.

* `setTrickleTTime_spec`: where the transmission lies.
* `scheduleTrickle_events`: the two events.
* `Interval.double_iff`: what an expiry needs to count.
* `interval_doubles`: the interval over a run.
-/

namespace NetSim.Trickle

variable {run run' : Run} {trickle trickle' : TrickleVar} {r r' : Node} {config : DioConfig} {rand : UInt32} {n : ℕ}
  {now : ℚ}

/-! ### The property and the condition -/

/-- **The trickle interval**, after some expiries since the reset with the latest parameters. -/
structure TrickleOk (run : Run) : Prop where
  interval : ∀ config n, run.latest = some (config, n) →
    run.node.trickle.i = 2 ^ config.dioIntervalMin.toNat * 1000 * 2 ^ min n config.dioIntervalDoublings.toNat
  transmission : ∀ config n, run.latest = some (config, n) →
    run.node.trickle.i ≤ 2 * run.node.trickle.t ∧ run.node.trickle.t < run.node.trickle.i
  pending : run.isSet = true → ∀ subEvent, run.node.events.countP (fun e => e.subEvent = subEvent) = 1

/-- An expiry finds the counter below the number of doublings, or the interval at its greatest. -/
def isSound (run : Run) : Event → Bool
  | .timeout event _ _ =>
    event.subEvent = .trickleTTimeout || run.node.trickle.c.toUInt32 < run.node.trickle.imax ||
      run.node.trickle.imin * 2 ^ run.node.trickle.imax.toNat ≤ run.node.trickle.i
  | _ => true

/-! ### What the routines do -/

/-- **The transmission** is put into the second half of the interval, and nothing else is written. -/
theorem setTrickleTTime_spec (h : setTrickleTTime rand trickle = some trickle') :
    ∃ t, trickle' = { trickle with t := t } ∧ trickle.i / 2 ≤ t ∧ t < trickle.i / 2 + trickle.i / 2 := by
  unfold setTrickleTTime at h
  dsimp only at h
  split at h
  · exact absurd h (by simp)
  · rename_i hhalf
    refine ⟨_, (Option.some.inj h).symm, Nat.le_add_left _ _, ?_⟩
    have hpos : 0 < (UInt32.ofNat (trickle.i / 2)).toNat := by
      refine Nat.pos_of_ne_zero fun h0 => hhalf ?_
      exact UInt32.toNat_inj.1 h0
    have hlt : (rand % UInt32.ofNat (trickle.i / 2)).toNat < (UInt32.ofNat (trickle.i / 2)).toNat := by
      rw [UInt32.toNat_mod]
      exact Nat.mod_lt _ hpos
    have hle : (UInt32.ofNat (trickle.i / 2)).toNat ≤ trickle.i / 2 := by
      rw [UInt32.toNat_ofNat']
      exact Nat.mod_le _ _
    omega

/-- The two events that are scheduled, the interval event first in the list. -/
theorem scheduleTrickle_events (now : ℚ) (r : Node) :
    (scheduleTrickle now r).events =
      ⟨(scheduleTrickle now r).trickle.trickleIEventid, now + r.trickle.i, .trickleITimeout⟩ ::
        ⟨(scheduleTrickle now r).trickle.trickleTEventid, now + r.trickle.t, .trickleTTimeout⟩ :: r.events := rfl

/-! ### The invariant -/

/-- The interval after some expiries. The counter has counted at least the doublings since the reset. -/
structure Interval (config : DioConfig) (n : ℕ) (trickle : TrickleVar) : Prop where
  imin : trickle.imin = 2 ^ config.dioIntervalMin.toNat * 1000
  imax : trickle.imax.toNat = config.dioIntervalDoublings.toNat
  i : trickle.i = trickle.imin * 2 ^ min n trickle.imax.toNat
  counted : min n trickle.imax.toNat ≤ trickle.c.toNat

/-- The events of the timer: none yet, the end of the interval, or first the transmission and then the end. -/
inductive Pending (node : Node) : Bool → Prop
  | blank : node.events = [] → Pending node false
  | interval (time : ℚ) :
    node.events = [⟨node.trickle.trickleIEventid, time, .trickleITimeout⟩] → Pending node false
  | both (isSet : Bool) (time later : ℚ) : time < later →
    node.events = [⟨node.trickle.trickleIEventid, later, .trickleITimeout⟩,
      ⟨node.trickle.trickleTEventid, time, .trickleTTimeout⟩] → Pending node isSet

/-- **The invariant** of a run. -/
structure Timer (run : Run) : Prop where
  interval : ∀ config n, run.latest = some (config, n) → Interval config n run.node.trickle
  transmission : ∀ config n, run.latest = some (config, n) →
    run.node.trickle.i ≤ 2 * run.node.trickle.t ∧ run.node.trickle.t < run.node.trickle.i
  pending : Pending run.node run.isSet
  started : run.latest = none → run.node.events = []

theorem Timer.ok (h : Timer run) : TrickleOk run where
  interval config n hl := by
    have hi := h.interval config n hl
    rw [hi.i, hi.imin, hi.imax]
  transmission := h.transmission
  pending hset subEvent := by
    have hp := h.pending
    rw [hset] at hp
    cases hp with
    | both _ _ _ _ hevents =>
      rw [hevents]
      cases subEvent <;> rfl

/-- The interval is even. -/
theorem Interval.even (h : Interval config n trickle) : 2 * (trickle.i / 2) = trickle.i := by
  have hi := h.i
  rw [h.imin] at hi
  have hdvd : 2 ∣ trickle.i := by
    rw [hi]
    exact Dvd.dvd.mul_right (Dvd.dvd.mul_left (by norm_num) _) _
  exact Nat.mul_div_cancel' hdvd

/-- After the two events are scheduled, in a list without others. -/
theorem Pending.schedule (isSet : Bool) (hevents : r.events = []) (hlt : r.trickle.t < r.trickle.i) (now : ℚ) :
    Pending (scheduleTrickle now r) isSet := by
  have hlt' : (r.trickle.t : ℚ) < r.trickle.i := by exact_mod_cast hlt
  have h := scheduleTrickle_events now r
  rw [hevents] at h
  exact .both isSet (now + r.trickle.t) (now + r.trickle.i) (by linarith) h

/-- A reset takes both events from the list. -/
theorem Pending.delete {isSet : Bool} (h : Pending r isSet) (trickle : TrickleVar) :
    (fnDeleteEvent r.trickle.trickleTEventid (fnDeleteEvent r.trickle.trickleIEventid
      { r with trickle := trickle })).events = [] := by
  unfold fnDeleteEvent
  cases h with
  | blank hevents => simp [hevents]
  | interval time hevents => simp [hevents]
  | both _ time later _ hevents => simp [hevents]

/-! ### Steps -/

theorem interval_loadConfig (config : DioConfig) (trickle : TrickleVar) :
    Interval config 0 (loadConfig config trickle) := by
  refine ⟨rfl, ?_, ?_, ?_⟩
  · unfold loadConfig
    simp
  · unfold loadConfig
    dsimp only
    rw [Nat.zero_min, Nat.pow_zero, Nat.mul_one]
  · rw [Nat.zero_min]
    exact Nat.zero_le _

/-- **An expiry** counts one more, if the counter allows it or no doubling is left. -/
theorem Interval.double (h : Interval config n trickle)
    (hsound : trickle.c.toUInt32 < trickle.imax ∨ trickle.imin * 2 ^ trickle.imax.toNat ≤ trickle.i) :
    Interval config (n + 1) (doubleInterval trickle) := by
  have hi := h.i
  have hcounted := h.counted
  have hpos : 0 < trickle.imin := by
    rw [h.imin]
    positivity
  have hbyte : trickle.imax.toNat < 256 := by
    rw [h.imax]
    exact UInt8.toNat_lt _
  unfold doubleInterval
  split
  · rename_i hlt
    have hlt' : trickle.c.toNat < trickle.imax.toNat := by
      have := UInt32.lt_iff_toNat_lt.1 hlt
      rwa [UInt8.toNat_toUInt32] at this
    have hless : n < trickle.imax.toNat := by omega
    have hnext : min (n + 1) trickle.imax.toNat = min n trickle.imax.toNat + 1 := by omega
    refine ⟨h.imin, h.imax, ?_, ?_⟩
    · dsimp only
      rw [hnext, hi, pow_succ, Nat.mul_assoc]
    · dsimp only
      have hc : (trickle.c + 1).toNat = trickle.c.toNat + 1 := by
        rw [UInt8.toNat_add]
        exact Nat.mod_eq_of_lt (by
          have h1 : (1 : UInt8).toNat = 1 := rfl
          omega)
      rw [hnext, hc]
      exact Nat.succ_le_succ hcounted
  · rename_i hge
    have hge' : trickle.imax.toNat ≤ trickle.c.toNat := by
      have hnot : ¬ trickle.c.toUInt32.toNat < trickle.imax.toNat := fun h0 => hge (UInt32.lt_iff_toNat_lt.2 h0)
      rw [UInt8.toNat_toUInt32] at hnot
      omega
    have hfull : trickle.imin * 2 ^ trickle.imax.toNat ≤ trickle.i := by
      rcases hsound with h1 | h1
      · exact absurd h1 hge
      · exact h1
    have hall : trickle.imax.toNat ≤ n := by
      rw [hi] at hfull
      have hpow := Nat.le_of_mul_le_mul_left hfull hpos
      have hexp := (Nat.pow_le_pow_iff_right (by norm_num)).1 hpow
      omega
    have hsame : min (n + 1) trickle.imax.toNat = min n trickle.imax.toNat := by omega
    refine ⟨h.imin, h.imax, ?_, ?_⟩
    · rw [hsame]
      exact hi
    · rw [hsame]
      exact hcounted

/-- The condition on an expiry is exact: without it the interval is not what it should be. -/
theorem Interval.double_iff (h : Interval config n trickle) :
    (doubleInterval trickle).i = trickle.imin * 2 ^ min (n + 1) trickle.imax.toNat ↔
      trickle.c.toUInt32 < trickle.imax ∨ trickle.imin * 2 ^ trickle.imax.toNat ≤ trickle.i := by
  constructor
  · intro hi
    by_contra hnot
    obtain ⟨hge, hless⟩ := not_or.1 hnot
    unfold doubleInterval at hi
    rw [if_neg hge] at hi
    have hle : trickle.imin * 2 ^ min (n + 1) trickle.imax.toNat ≤ trickle.i := le_of_eq hi.symm
    rw [h.i] at hle hless
    have hpos : 0 < trickle.imin := by
      rw [h.imin]
      positivity
    have hpow := Nat.le_of_mul_le_mul_left hle hpos
    have hexp := (Nat.pow_le_pow_iff_right (by norm_num)).1 hpow
    have hall : min n trickle.imax.toNat = trickle.imax.toNat := by omega
    rw [hall] at hless
    exact hless le_rfl
  · intro hsound
    have hi := (h.double hsound).i
    have hsame : ∀ tr : TrickleVar, (doubleInterval tr).imin = tr.imin ∧ (doubleInterval tr).imax = tr.imax := by
      intro tr
      unfold doubleInterval
      split <;> exact ⟨rfl, rfl⟩
    rw [(hsame trickle).1, (hsame trickle).2] at hi
    exact hi

/-- Both routines end alike: the transmission is drawn, and the events are scheduled in a list without others. -/
theorem timer_schedule (h : Interval config n trickle) (ht : setTrickleTTime rand trickle = some trickle')
    (hevents : r.events = []) (hr : r.trickle = trickle') (now : ℚ) :
    Timer ⟨now, scheduleTrickle now r, some (config, n), true⟩ := by
  obtain ⟨t, rfl, hle, hlt⟩ := setTrickleTTime_spec ht
  have heven := h.even
  have hhalf : r.trickle.i ≤ 2 * r.trickle.t ∧ r.trickle.t < r.trickle.i := by
    rw [hr]
    dsimp only
    omega
  have hint : Interval config n r.trickle := by
    rw [hr]
    exact ⟨h.imin, h.imax, h.i, h.counted⟩
  refine ⟨?_, ?_, .schedule true hevents hhalf.2 now, fun hl => absurd hl (by simp)⟩
  · intro config' n' hl
    obtain ⟨rfl, rfl⟩ := Prod.mk.inj (Option.some.inj hl)
    exact ⟨hint.imin, hint.imax, hint.i, hint.counted⟩
  · intro config' n' _
    exact hhalf

/-- The first event of the list, if both are pending, is the transmission. -/
theorem Pending.first {isSet : Bool} (h : Pending r isSet) {event : PendingEvent} (hmem : event ∈ r.events)
    (hfirst : ∀ other ∈ r.events, event.eventTime ≤ other.eventTime) :
    event.subEvent = .trickleTTimeout ∧ Pending { r with events := r.events.erase event } false ∨
      event.subEvent = .trickleITimeout ∧ r.events.erase event = [] := by
  cases h with
  | blank hevents =>
    rw [hevents] at hmem
    exact absurd hmem List.not_mem_nil
  | interval time hevents =>
    rw [hevents] at hmem ⊢
    obtain rfl := List.mem_singleton.1 hmem
    exact .inr ⟨rfl, by simp⟩
  | both _ time later hlt hevents =>
    rw [hevents] at hmem hfirst
    rcases List.mem_cons.1 hmem with rfl | hmem
    · have hle := hfirst _ (List.mem_cons_of_mem _ (List.mem_singleton_self _))
      exact absurd hlt (not_lt.2 hle)
    · obtain rfl := List.mem_singleton.1 hmem
      refine .inl ⟨rfl, .interval later ?_⟩
      dsimp only
      rw [hevents, List.erase_cons_tail (by simp), List.erase_cons_head]

/-- A reset of a node that is root or joined. -/
theorem reset_of_config {role : Role} (hrole : role.config = some config)
    (h : rplTrickleReset role rand now r = some r') :
    ∃ trickle', setTrickleTTime rand (loadConfig config r.trickle) = some trickle' ∧
      r' = scheduleTrickle now (fnDeleteEvent r.trickle.trickleTEventid
        (fnDeleteEvent r.trickle.trickleIEventid { r with trickle := trickle' })) := by
  cases role with
  | root config' =>
    obtain rfl := Option.some.inj hrole
    obtain ⟨trickle', ht, heq⟩ := Option.map_eq_some_iff.1 h
    exact ⟨trickle', ht, heq.symm⟩
  | joined config' =>
    obtain rfl := Option.some.inj hrole
    obtain ⟨trickle', ht, heq⟩ := Option.map_eq_some_iff.1 h
    exact ⟨trickle', ht, heq.symm⟩
  | poisoning config' => cases hrole
  | isolated => cases hrole

/-- An expiry at a node that is root or joined. -/
theorem iTimeout_of_config {role : Role} (hrole : role.config = some config)
    (h : rplTrickleHandleITimeout role rand now r = some r') :
    ∃ trickle', setTrickleTTime rand (doubleInterval r.trickle) = some trickle' ∧
      r' = scheduleTrickle now { r with trickle := trickle' } := by
  cases role with
  | root config' =>
    obtain ⟨trickle', ht, heq⟩ := Option.map_eq_some_iff.1 h
    exact ⟨trickle', ht, heq.symm⟩
  | joined config' =>
    obtain ⟨trickle', ht, heq⟩ := Option.map_eq_some_iff.1 h
    exact ⟨trickle', ht, heq.symm⟩
  | poisoning config' => cases hrole
  | isolated => cases hrole

/-- **Each step** that meets the condition keeps the invariant. -/
theorem Timer.step (h : Timer run) {e : Event} (hsound : isSound run e = true)
    (hstep : machine.step run e = some run') : Timer run' := by
  cases e with
  | wait time =>
    simp only [machine] at hstep
    split at hstep
    · obtain rfl := Option.some.inj hstep
      exact ⟨h.interval, h.transmission, h.pending, h.started⟩
    · exact absurd hstep (by simp)
  | reset role rand =>
    simp only [machine] at hstep
    cases hconfig : role.config with
    | none =>
      rw [hconfig] at hstep
      exact absurd hstep (by simp)
    | some config =>
      rw [hconfig] at hstep
      obtain ⟨r', hr, rfl⟩ := Option.map_eq_some_iff.1 hstep
      obtain ⟨trickle', ht, rfl⟩ := reset_of_config hconfig hr
      exact timer_schedule (interval_loadConfig config _) ht (h.pending.delete trickle') rfl run.now
  | timeout event role rand =>
    simp only [machine] at hstep
    split at hstep
    · rename_i hdue
      obtain ⟨hmem, hfirst⟩ := hdue
      have hlatest : run.latest ≠ none := fun hl => by
        rw [h.started hl] at hmem
        exact List.not_mem_nil hmem
      rcases h.pending.first hmem hfirst with ⟨hsev, hpending⟩ | ⟨hsev, hevents⟩
      · -- the transmission: the end of the interval is left
        rw [hsev] at hstep
        obtain rfl := Option.some.inj hstep
        exact ⟨h.interval, h.transmission, hpending, fun hl => absurd hl hlatest⟩
      · -- the end of the interval: none is left, and both are scheduled
        rw [hsev] at hstep
        have hcounts : run.node.trickle.c.toUInt32 < run.node.trickle.imax ∨
            run.node.trickle.imin * 2 ^ run.node.trickle.imax.toNat ≤ run.node.trickle.i := by
          simpa [isSound, hsev] using hsound
        obtain ⟨⟨config, n⟩, hl⟩ := Option.ne_none_iff_exists'.1 hlatest
        cases hconfig : role.config with
        | none =>
          rw [hconfig] at hstep
          exact absurd hstep (by simp)
        | some _ =>
          rw [hconfig] at hstep
          obtain ⟨r', hr, rfl⟩ := Option.map_eq_some_iff.1 hstep
          obtain ⟨trickle', ht, rfl⟩ := iTimeout_of_config hconfig hr
          have hint := (h.interval config n hl).double hcounts
          have hnew := timer_schedule (r := { run.node with events := run.node.events.erase event, trickle := trickle' })
            hint ht hevents rfl event.eventTime
          rw [hl]
          exact hnew
    · exact absurd hstep (by simp)

/-! ### Runs -/

theorem timer_start (h : machine.init run) : Timer run := by
  obtain rfl := h
  exact ⟨fun _ _ hl => (nomatch hl), fun _ _ hl => (nomatch hl), .blank rfl, fun _ => rfl⟩

/-- **The interval doubles** up to the configured number of doublings, in every run whose steps all meet the
condition. -/
theorem interval_doubles (run : Run) (h : machine.ReachOn (fun run e => isSound run e = true) run) : TrickleOk run :=
  (h.inv (I := Timer) (fun _ => timer_start) fun _ _ _ hI hok hs => hI.step hok hs).ok

/-! ### Samples -/

/-- An interval of eight milliseconds that doubles twice. -/
def sampleConfig : DioConfig := ⟨3, 2, 10⟩

def sampleStart : Run := ⟨0, ⟨⟨0, 0, 0, 0, 0, 0, 0, 0⟩, 0, [], 1⟩, none, false⟩

/-- A root starts, and its interval expires twice. -/
def sampleExpiries : List Event :=
  [.reset (.root sampleConfig) 0,
    .timeout ⟨1, 4000, .trickleTTimeout⟩ (.root sampleConfig) 0,
    .timeout ⟨2, 8000, .trickleITimeout⟩ (.root sampleConfig) 100,
    .timeout ⟨3, 16100, .trickleTTimeout⟩ (.root sampleConfig) 0,
    .timeout ⟨4, 24000, .trickleITimeout⟩ (.root sampleConfig) 0]

/-- The interval of the root has doubled twice. -/
theorem interval_sample :
    ∃ run, (machine.ReachOn (fun run e => isSound run e = true) run ∧ run.node.trickle.i = 32000) ∧ TrickleOk run := by
  obtain ⟨run, hreach, hi⟩ := Machine.ReachOn.exists_of_execOn (M := machine) (fun run e => isSound run e = true)
    (P := fun run => run.node.trickle.i = 32000) sampleExpiries (.init (rfl : machine.init sampleStart)) (by decide +kernel)
  exact ⟨run, ⟨hreach, hi⟩, interval_doubles run hreach⟩

/-- **After a reset the interval does not double**: the counter is still at the number of doublings. -/
theorem interval_stuck : ¬ ∀ run, machine.Reach run → TrickleOk run := by
  intro hall
  obtain ⟨run, hreach, hlatest, hi⟩ := Machine.Reach.exists_of_exec (M := machine)
    (P := fun run => run.latest = some (sampleConfig, 1) ∧ run.node.trickle.i = 8000)
    (sampleExpiries ++ [.reset (.root sampleConfig) 0,
      .timeout ⟨7, 28000, .trickleTTimeout⟩ (.root sampleConfig) 0,
      .timeout ⟨8, 32000, .trickleITimeout⟩ (.root sampleConfig) 0])
    (.init (rfl : machine.init sampleStart)) (by decide +kernel)
  have h := (hall run hreach).interval _ _ hlatest
  rw [hi] at h
  exact absurd h (by decide)

end NetSim.Trickle
