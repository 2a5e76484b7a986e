import Mathlib.Data.List.Induction
import Mathlib.Data.List.Nodup
import NetSim.Proof.AodvRoutes

/-!
# The route lookups of an AODV node

Three functions look for the route to a destination: the first entry, the first valid one, and any that is valid
and not expired. A destination never has two valid entries. But an entry that was made invalid stays in the table,
and the next insertion for its destination puts a second entry behind it.

* `unique_after`, `exists_of_checkRouteFound`: what holds in every run.
* `lookups_agree_iff`: the runs in which the three lookups agree.
-/

namespace NetSim.Aodv

variable {ν : Type} [DecidableEq ν] {dev : Device ν} {e : RouteEntry ν} {now lifeTime : ℚ} {ip dest nextHop : ν}
  {seq hop : ℕ}

/-- At most one entry is valid for a destination, and where a route is found, the other lookups return the next
hop of a valid entry that has not expired, and that entry. -/
structure LookupsAgree (dev : Device ν) : Prop where
  unique : Unique dev.routeTable
  found : ∀ now dest, dev.checkRouteFound now dest = true → ∃ entry ∈ dev.routeTable, entry.IsFor dest ∧
    now < entry.lifetime ∧ dev.findNextHop dest = some entry.nextHop ∧ dev.findRouteTable dest = some entry

/-- An insertion that adds an entry finds no other one for the destination. -/
def TableEvent.AddsFirst (event : TableEvent ν) (dev : Device ν) : Prop :=
  ∀ now ip seqNumber hopCount nextHop lifeTime, event = .insert now ip seqNumber hopCount nextHop lifeTime →
    findValid dev.routeTable ip = none → ∀ entry ∈ dev.routeTable, entry.destinationIPAddress ≠ ip

/-! ## What an event does -/

theorem after_append (pre : List (TableEvent ν)) (event : TableEvent ν) :
    Device.after (pre ++ [event]) = (Device.after pre).handle event := by
  unfold Device.after
  rw [List.foldl_append, List.foldl_cons, List.foldl_nil]

/-- An insertion adds an entry at the end, overwrites the valid one, or does nothing. -/
theorem insert_cases (now : ℚ) (ip : ν) (seq hop : ℕ) (nextHop : ν) (lifeTime : ℚ) (dev : Device ν) :
    findValid dev.routeTable ip = none ∧ (dev.insertInRouteTable now ip seq hop nextHop lifeTime).routeTable =
        dev.routeTable ++ [newEntry now ip seq hop nextHop lifeTime] ∨
      (∃ l₁ e l₂, e.IsFor ip ∧ dev.routeTable = l₁ ++ e :: l₂ ∧
        (dev.insertInRouteTable now ip seq hop nextHop lifeTime).routeTable =
          l₁ ++ e.insert seq hop nextHop lifeTime :: l₂) ∨
      dev.insertInRouteTable now ip seq hop nextHop lifeTime = dev := by
  unfold Device.insertInRouteTable
  cases h : findValid dev.routeTable ip with
  | none => exact .inl ⟨rfl, rfl⟩
  | some e =>
    dsimp only
    by_cases hout : e.isOutdated seq hop = true
    · obtain ⟨l₁, l₂, -, hsplit, hrep⟩ := FirstMatch.replaceFirst_of_find? h (e.insert seq hop nextHop lifeTime)
      rw [if_pos hout]
      exact .inr (.inl ⟨l₁, e, l₂, (findValid_isFor h).2, hsplit, hrep⟩)
    · rw [if_neg hout]
      exact .inr (.inr rfl)

theorem unique_handle (hu : Unique dev.routeTable) (event : TableEvent ν) : Unique (dev.handle event).routeTable := by
  cases event with
  | insert now ip seqNumber hopCount nextHop lifeTime =>
    unfold Device.handle
    dsimp only
    rcases insert_cases now ip seqNumber hopCount nextHop lifeTime dev with ⟨hnone, heq⟩ | ⟨l₁, e, l₂, hfor, hsplit, heq⟩ | heq
    · rw [heq]
      refine List.pairwise_append.2 ⟨hu, List.pairwise_singleton _ _, fun x hx y hy ip' hx' hy' => ?_⟩
      rw [List.mem_singleton.1 hy] at hy'
      exact findValid_eq_none.1 hnone x hx ⟨hx'.1.trans hy'.1.symm, hx'.2⟩
    · rw [heq]
      rw [hsplit] at hu
      exact unique_replace hu fun ip' hip' => ⟨hip'.1, hfor.2⟩
    · rw [heq]
      exact hu
  | invalidate now hit => exact (tame_breakRoutes now hit dev).unique hu
  | update ip lifetime => exact (tame_updateRouteTable ip lifetime dev).unique hu
  | timeout now dest => exact (tame_activeRouteTimeoutEvent now dest dev).unique hu

/-- **No destination ever has two valid entries.** -/
theorem unique_after (events : List (TableEvent ν)) : Unique (Device.after events).routeTable := by
  induction events using List.reverseRecOn with
  | nil => exact List.Pairwise.nil
  | append_singleton pre event ih =>
    rw [after_append]
    exact unique_handle ih event

/-! ## The lookups -/

/-- **Where a route is found**, the next hop is that of a valid entry that has not expired. -/
theorem exists_of_checkRouteFound (hu : Unique dev.routeTable) (h : dev.checkRouteFound now dest = true) :
    ∃ e ∈ dev.routeTable, e.IsFor dest ∧ now < e.lifetime ∧ dev.findNextHop dest = some e.nextHop := by
  obtain ⟨e, he, hfound⟩ := List.any_eq_true.1 h
  obtain ⟨hdest, hlife, hvalid⟩ := of_decide_eq_true hfound
  have hfor : e.IsFor dest := by
    refine ⟨hdest, ?_⟩
    cases hflag : e.routingFlags with
    | valid => rfl
    | invalid => exact absurd hflag hvalid
  refine ⟨e, he, hfor, hlife, ?_⟩
  unfold Device.findNextHop
  rw [findValid_of_mem hu he hfor]
  rfl

/-! ## One entry for each destination -/

omit [DecidableEq ν] in
theorem map_destination_eq {f : RouteEntry ν → RouteEntry ν} (hf : ∀ e, (f e).destinationIPAddress = e.destinationIPAddress)
    (table : List (RouteEntry ν)) :
    (table.map f).map RouteEntry.destinationIPAddress = table.map RouteEntry.destinationIPAddress := by
  rw [List.map_map]
  exact List.map_congr_left fun e _ => hf e

/-- Insertions that add only where there is no other entry keep the destinations apart. -/
theorem nodup_handle (h : (dev.routeTable.map RouteEntry.destinationIPAddress).Nodup) {event : TableEvent ν}
    (hadds : event.AddsFirst dev) : ((dev.handle event).routeTable.map RouteEntry.destinationIPAddress).Nodup := by
  cases event with
  | insert now ip seqNumber hopCount nextHop lifeTime =>
    unfold Device.handle
    dsimp only
    rcases insert_cases now ip seqNumber hopCount nextHop lifeTime dev with ⟨hnone, heq⟩ | ⟨l₁, e, l₂, -, hsplit, heq⟩ | heq
    · rw [heq, List.map_append, List.nodup_append]
      refine ⟨h, List.nodup_singleton _, fun x hx y hy hxy => ?_⟩
      obtain ⟨e, he, rfl⟩ := List.mem_map.1 hx
      exact hadds now ip seqNumber hopCount nextHop lifeTime rfl hnone e he (hxy.trans (List.mem_singleton.1 hy))
    · rw [hsplit, List.map_append, List.map_cons] at h
      rw [heq, List.map_append, List.map_cons]
      exact h
    · rw [heq]
      exact h
  | invalidate now hit =>
    unfold Device.handle Device.breakRoutes
    dsimp only
    rw [map_destination_eq]
    · exact h
    · intro e
      unfold RouteEntry.breakIf
      split <;> rfl
  | update ip lifetime =>
    unfold Device.handle Device.updateRouteTable
    dsimp only
    rw [map_destination_eq]
    · exact h
    · intro e
      split <;> rfl
  | timeout now dest => exact h.sublist ((dropExpired_sublist dest now dev.routeTable).map _)

/-- An entry that is the only one for its destination is the first one. -/
theorem findRouteTable_of_mem (hnodup : (dev.routeTable.map RouteEntry.destinationIPAddress).Nodup)
    (he : e ∈ dev.routeTable) (hdest : e.destinationIPAddress = dest) : dev.findRouteTable dest = some e := by
  have hsome : (dev.findRouteTable dest).isSome = true := List.find?_isSome.2 ⟨e, he, decide_eq_true hdest⟩
  obtain ⟨z, hz⟩ := Option.isSome_iff_exists.1 hsome
  have hdest' : z.destinationIPAddress = dest := of_decide_eq_true (List.find?_some hz :)
  rw [hz, List.inj_on_of_nodup_map hnodup he (List.mem_of_find?_eq_some hz) (hdest.trans hdest'.symm)]

theorem nodup_after (events : List (TableEvent ν))
    (h : ∀ pre event, pre ++ [event] <+: events → event.AddsFirst (Device.after pre)) :
    ((Device.after events).routeTable.map RouteEntry.destinationIPAddress).Nodup := by
  induction events using List.reverseRecOn with
  | nil => exact List.nodup_nil
  | append_singleton pre event ih =>
    rw [after_append]
    exact nodup_handle (ih fun pre' event' hpre => h pre' event' (hpre.trans (List.prefix_append _ _)))
      (h pre event (List.prefix_refl _))

/-- An entry that is added is found at once. -/
theorem checkRouteFound_insert (hnone : findValid dev.routeTable ip = none) :
    (dev.insertInRouteTable now ip seq hop nextHop lifeTime).checkRouteFound now ip = true := by
  have hpos : 0 < activeRouteTimeout := by decide +kernel
  have hlife : now < max (now + activeRouteTimeout) lifeTime := lt_max_of_lt_left (lt_add_of_pos_right now hpos)
  unfold Device.insertInRouteTable
  rw [hnone]
  exact List.any_eq_true.2 ⟨_, List.mem_append_right _ (List.mem_singleton_self _), decide_eq_true ⟨rfl, hlife, nofun⟩⟩

/-- **The lookups agree in every state of a run** if and only if every insertion that adds an entry finds no other
one for its destination. -/
theorem lookups_agree_iff (events : List (TableEvent ν)) :
    (∀ pre, pre <+: events → LookupsAgree (Device.after pre)) ↔
      ∀ pre event, pre ++ [event] <+: events → event.AddsFirst (Device.after pre) := by
  constructor
  · rintro h pre _ hpre now ip seqNumber hopCount nextHop lifeTime rfl hnone entry hentry hdest
    have hagree := h _ hpre
    rw [after_append] at hagree
    obtain ⟨found, -, hfor, -, -, hfirst⟩ := hagree.found now ip (checkRouteFound_insert hnone)
    -- the first entry is an old one, which is not valid
    have hold : ∃ z ∈ (Device.after pre).routeTable,
        ((Device.after pre).routeTable.find? fun entry => entry.destinationIPAddress = ip) = some z := by
      have hsome : ((Device.after pre).findRouteTable ip).isSome = true :=
        List.find?_isSome.2 ⟨entry, hentry, decide_eq_true hdest⟩
      obtain ⟨z, hz⟩ := Option.isSome_iff_exists.1 hsome
      exact ⟨z, List.mem_of_find?_eq_some hz, hz⟩
    obtain ⟨z, hmem, hz⟩ := hold
    unfold Device.handle Device.insertInRouteTable Device.findRouteTable at hfirst
    dsimp only at hfirst
    rw [hnone] at hfirst
    dsimp only at hfirst
    rw [List.find?_append, hz, Option.some_or] at hfirst
    obtain rfl := Option.some.inj hfirst
    exact findValid_eq_none.1 hnone z hmem hfor
  · intro h pre hpre
    refine ⟨unique_after pre, fun now dest hfound => ?_⟩
    obtain ⟨e, he, hfor, hlife, hnext⟩ := exists_of_checkRouteFound (unique_after pre) hfound
    have hnodup := nodup_after pre fun pre' event hpre' => h pre' event (hpre'.trans hpre)
    exact ⟨e, he, hfor, hlife, hnext, findRouteTable_of_mem hnodup he hfor.1⟩

/-- A route to 5 via 1 is inserted, breaks, and is inserted again via 2. -/
def brokenRoute : List (TableEvent ℕ) :=
  [.insert 0 5 1 1 1 0, .invalidate 0 fun entry => entry.nextHop = 1, .insert 0 5 2 1 2 0]

/-- The route via 2 is found and used, but the entry via 1 is the first one. -/
theorem broken_route_first : ¬ ∀ pre, pre <+: brokenRoute → LookupsAgree (Device.after pre) := by
  intro h
  obtain ⟨entry, -, hfor, -, -, hfirst⟩ := (h brokenRoute (List.prefix_refl _)).found 0 5 (by decide +kernel)
  have hinvalid : ((Device.after brokenRoute).findRouteTable 5).map RouteEntry.routingFlags = some .invalid := by
    decide
  rw [hfirst] at hinvalid
  exact absurd ((Option.some.inj hinvalid).symm.trans hfor.2) (by decide)

end NetSim.Aodv
