import NetSim.Spec.Dsr

/-!
# Duplicate route requests of DSR

The table of route requests has the target and the identification of a request, and not its initiator. It has the
requests of the node itself too, and a retry writes over the first entry for the target without a reply, whosever
request that is for.

* `processRreq_discard_iff`: what is discarded.
* `keys_recorded`: every entry of the table is for a request that has been initiated or processed.
* `mem_keys_exec`: an entry stays as long as no timeout sends a request for its target again or gives it up.
* `duplicates_exact`: so a node discards what it should where no entry of another initiator is in the way, and the entry
  of the request itself is still there.
* `duplicates_wrong`: two initiators whose counters agree.
-/

namespace NetSim.Dsr

variable {ι : Type*} [DecidableEq ι]

/-- The request that an entry has been made for. -/
def RreqTable.key (e : RreqTable ι) : Key ι := (e.initiator, e.nIdentification, e.target)

/-- The requests that a table has entries for. -/
def keys (table : List (RreqTable ι)) : List (Key ι) := table.map RreqTable.key

omit [DecidableEq ι] in
theorem mem_keys {table : List (RreqTable ι)} {k : Key ι} : k ∈ keys table ↔ ∃ e ∈ table, e.key = k := List.mem_map

/-! ### What is discarded -/

theorem checkEntry_iff {rreq : RreqOption ι} {table : List (RreqTable ι)} :
    checkEntryInRreqTable rreq table = true ↔
      ∃ e ∈ table, e.nIdentification = rreq.nIdentification ∧ e.target = rreq.targetAddress := by
  simp [checkEntryInRreqTable]

theorem checkIp_iff {l : List ι} {a : ι} : checkIpInIpList l a = true ↔ a ∈ l := by
  simp [checkIpInIpList]

/-- **What is discarded**: a request with the identification and the target of an entry, and one for another target that
lists the node. -/
theorem processRreq_discard_iff (d : DeviceVar ι) (rreq : RreqOption ι) (time : ℚ) :
    (processRreq d rreq time).2 = .discard ↔
      checkEntryInRreqTable rreq d.rreqTable = true ∨
        rreq.targetAddress ≠ d.address ∧ d.address ∈ rreq.address := by
  unfold processRreq
  by_cases hseen : checkEntryInRreqTable rreq d.rreqTable = true
  · simp [hseen]
  · rw [if_neg hseen]
    dsimp only
    have haddr : (addRreqTable d rreq 1).address = d.address := rfl
    rw [haddr]
    by_cases htarget : rreq.targetAddress = d.address
    · simp [htarget, hseen]
    · rw [if_neg htarget]
      by_cases hown : checkIpInIpList rreq.address d.address = true
      · simp [hown, htarget, checkIp_iff.1 hown]
      · have hnot : d.address ∉ rreq.address := fun h => hown (checkIp_iff.2 h)
        rw [if_neg hown]
        constructor
        · intro h
          exfalso
          revert h
          split
          · dsimp only
            split <;> simp
          · simp
        · rintro (h | h)
          · exact absurd h hseen
          · exact absurd h.2 hnot

/-! ### What the table has entries for -/

theorem keys_updatePending {target : ι} {f : RreqTable ι → RreqTable ι} {k : Key ι}
    (hf : ∀ e, e.target = target → (f e).key = e.key ∨ (f e).key = k) (l : List (RreqTable ι)) :
    ∀ x ∈ keys (updatePending target f l), x ∈ keys l ∨ x = k := by
  induction l with
  | nil =>
    intro x hx
    exact .inl hx
  | cons e l ih =>
    intro x hx
    unfold updatePending at hx
    split at hx
    · rename_i hp
      have ht : e.target = target := by
        simp only [isPending, Bool.and_eq_true, decide_eq_true_eq] at hp
        exact hp.1
      rcases List.mem_cons.1 hx with rfl | hx
      · rcases hf e ht with h | h
        · exact .inl (h ▸ List.mem_cons_self)
        · exact .inr h
      · exact .inl (List.mem_cons_of_mem _ hx)
    · rcases List.mem_cons.1 hx with rfl | hx
      · exact .inl List.mem_cons_self
      · rcases ih x hx with h | h
        · exact .inl (List.mem_cons_of_mem _ h)
        · exact .inr h

/-- The entries that a timeout leaves are old, or for the request that is sent again. -/
theorem keys_rreqTimeout {d d' : DeviceVar ι} {target : ι} {routeFound : Bool}
    (h : rreqTimeout d target routeFound = some d') :
    ∀ x ∈ keys d'.rreqTable, x ∈ keys d.rreqTable ∨
      isRetried d target routeFound = true ∧ x = nextKey d target := by
  intro x hx
  unfold rreqTimeout at h
  split at h
  · obtain rfl := Option.some.inj h
    exact .inl hx
  · rename_i hroute
    split at h
    · simp at h
    · rename_i table hfind
      obtain rfl := Option.some.inj h
      by_cases hcount : table.nCount < dsrMaxRequestRexmt
      · rw [if_pos hcount] at hx
        have hretried : isRetried d target routeFound = true := by
          simp [isRetried, hroute, hfind, hcount]
        have hnew : ∀ e : RreqTable ι, e.target = target →
            ({ e with
              initiator := d.address
              nCount := e.nCount + 1
              nIdentification := (d.nRreqIdentification + 1).toUInt16
              nTTL := dsrDiscoveryHopLimit } : RreqTable ι).key = e.key ∨
            ({ e with
              initiator := d.address
              nCount := e.nCount + 1
              nIdentification := (d.nRreqIdentification + 1).toUInt16
              nTTL := dsrDiscoveryHopLimit } : RreqTable ι).key = nextKey d target := by
          intro e he
          right
          simp [RreqTable.key, nextKey, he]
        rcases keys_updatePending hnew d.rreqTable x hx with h1 | h1
        · exact .inl h1
        · exact .inr ⟨hretried, h1⟩
      · rw [if_neg hcount] at hx
        have hsub : (deleteRreqTable d target).rreqTable.Sublist d.rreqTable := List.eraseP_sublist
        exact .inl ((hsub.map _).subset hx)

/-- Changes that do not touch what entries are for. -/
theorem keys_updatePending_same {target : ι} {f : RreqTable ι → RreqTable ι} (hf : ∀ e, (f e).key = e.key)
    (l : List (RreqTable ι)) : keys (updatePending target f l) = keys l := by
  induction l with
  | nil => rfl
  | cons e l ih =>
    unfold updatePending
    split
    · exact congrArg (· :: keys l) (hf e)
    · exact congrArg (e.key :: ·) ih

theorem keys_processRrep (d : DeviceVar ι) (address : List ι) (time : ℚ) :
    keys (processRrep d address time).rreqTable = keys d.rreqTable := by
  have hflag : ∀ (target : ι) (l : List (RreqTable ι)),
      keys (updatePending target (fun e => { e with flag := true }) l) = keys l := by
    intro target l
    apply keys_updatePending_same
    intro e
    rfl
  unfold processRrep
  dsimp only
  split
  · split
    · exact hflag _ _
    · rfl
  · rfl

theorem generateRrep_rreqTable (d : DeviceVar ι) (rreq : RreqOption ι) (time : ℚ) :
    (generateRrepUsingRouteCache d rreq time).2.rreqTable = d.rreqTable := by
  unfold generateRrepUsingRouteCache
  dsimp only
  split
  · rfl
  · split <;> rfl

omit [DecidableEq ι] in
theorem keys_addRreqTable (d : DeviceVar ι) (rreq : RreqOption ι) (n : ℕ) :
    keys (addRreqTable d rreq n).rreqTable = keys d.rreqTable ++ [rreq.key] := by
  unfold keys addRreqTable
  rw [List.map_append]
  rfl

/-- The entries after a request are the old ones and, unless it has been seen, one or two for the request. -/
theorem keys_processRreq (d : DeviceVar ι) (rreq : RreqOption ι) (time : ℚ) :
    ∀ x ∈ keys (processRreq d rreq time).1.rreqTable, x ∈ keys d.rreqTable ∨ x = rreq.key := by
  intro x hx
  unfold processRreq at hx
  split at hx
  · exact .inl hx
  · dsimp only at hx
    have hone : x ∈ keys (addRreqTable d rreq 1).rreqTable → x ∈ keys d.rreqTable ∨ x = rreq.key := by
      intro h
      rw [keys_addRreqTable, List.mem_append, List.mem_singleton] at h
      exact h
    have htwo : x ∈ keys (addRreqTable (addRreqTable d rreq 1) rreq 0).rreqTable →
        x ∈ keys d.rreqTable ∨ x = rreq.key := by
      intro h
      rw [keys_addRreqTable, List.mem_append, List.mem_singleton] at h
      rcases h with h | h
      · exact hone h
      · exact .inr h
    split at hx
    · exact hone hx
    · split at hx
      · exact hone hx
      · split at hx
        · rw [generateRrep_rreqTable] at hx
          exact htwo hx
        · exact htwo hx

omit [DecidableEq ι] in
theorem keys_initRouteRequest (d : DeviceVar ι) (target : ι) :
    keys (initRouteRequest d target).rreqTable = keys d.rreqTable ++ [nextKey d target] := by
  unfold keys initRouteRequest
  rw [List.map_append]
  rfl

/-! ### What stays in the table -/

theorem mem_keys_updatePending {target : ι} {f : RreqTable ι → RreqTable ι} {k : Key ι} (ht : k.2.2 ≠ target)
    {l : List (RreqTable ι)} (hk : k ∈ keys l) : k ∈ keys (updatePending target f l) := by
  induction l with
  | nil => exact hk
  | cons e l ih =>
    unfold updatePending
    split
    · rename_i hp
      rcases List.mem_cons.1 hk with rfl | hk
      · simp only [isPending, Bool.and_eq_true, decide_eq_true_eq] at hp
        exact absurd hp.1 ht
      · exact List.mem_cons_of_mem _ hk
    · rcases List.mem_cons.1 hk with rfl | hk
      · exact List.mem_cons_self
      · exact List.mem_cons_of_mem _ (ih hk)

theorem mem_keys_rreqTimeout {d d' : DeviceVar ι} {target : ι} {routeFound : Bool}
    (h : rreqTimeout d target routeFound = some d') {k : Key ι} (hk : k ∈ keys d.rreqTable)
    (ht : routeFound = false → k.2.2 ≠ target) : k ∈ keys d'.rreqTable := by
  unfold rreqTimeout at h
  split at h
  · obtain rfl := Option.some.inj h
    exact hk
  · rename_i hroute
    have hne := ht (Bool.eq_false_iff.2 hroute)
    split at h
    · cases h
    · obtain rfl := Option.some.inj h
      split
      · exact mem_keys_updatePending hne hk
      · obtain ⟨e, he, rfl⟩ := mem_keys.1 hk
        exact mem_keys.2 ⟨e, (List.mem_eraseP_of_neg (by simpa [RreqTable.key] using hne)).2 he, rfl⟩

theorem mem_keys_processRreq {d : DeviceVar ι} (rreq : RreqOption ι) (time : ℚ) {k : Key ι}
    (hk : k ∈ keys d.rreqTable) : k ∈ keys (processRreq d rreq time).1.rreqTable := by
  have hone : k ∈ keys (addRreqTable d rreq 1).rreqTable := by
    rw [keys_addRreqTable]
    exact List.mem_append_left _ hk
  have htwo : k ∈ keys (addRreqTable (addRreqTable d rreq 1) rreq 0).rreqTable := by
    rw [keys_addRreqTable]
    exact List.mem_append_left _ hone
  unfold processRreq
  split
  · exact hk
  · dsimp only
    split
    · exact hone
    · split
      · exact hone
      · split
        · rw [generateRrep_rreqTable]
          exact htwo
        · exact htwo

/-- **An entry stays** unless a timeout sends a request for its target again or gives it up. -/
theorem mem_keys_step {s s' : State ι} {e : Event ι} (h : step s e = some s') {k : Key ι}
    (hk : k ∈ keys s.device.rreqTable) (htouch : e ≠ .rreqTimeout k.2.2 false) : k ∈ keys s'.device.rreqTable := by
  cases e with
  | initRouteRequest target =>
    obtain rfl := Option.some.inj h
    dsimp only
    rw [keys_initRouteRequest]
    exact List.mem_append_left _ hk
  | rreqTimeout target routeFound =>
    obtain ⟨d, hd, rfl⟩ := Option.map_eq_some_iff.1 h
    exact mem_keys_rreqTimeout hd hk fun hroute ht => htouch (by rw [hroute, ht])
  | processRrep address time =>
    obtain rfl := Option.some.inj h
    dsimp only
    rwa [keys_processRrep]
  | processRreq rreq time =>
    obtain rfl := Option.some.inj h
    exact mem_keys_processRreq rreq time hk

theorem mem_keys_exec {k : Key ι} {s' : State ι} (es : List (Event ι)) {s : State ι}
    (h : (machine ι).exec s es = some s') (hk : k ∈ keys s.device.rreqTable)
    (htouch : .rreqTimeout k.2.2 false ∉ es) : k ∈ keys s'.device.rreqTable := by
  induction es generalizing s with
  | nil =>
    obtain rfl := Option.some.inj h
    exact hk
  | cons e es ih =>
    obtain ⟨s₁, hs, h⟩ := Option.bind_eq_some_iff.1 h
    rw [List.mem_cons, not_or] at htouch
    exact ih h (mem_keys_step hs hk (Ne.symm htouch.1)) htouch.2

/-! ### Runs -/

/-- Every entry is for a request in the history, and all requests so far have been decided as they should. -/
structure Recorded (s : State ι) : Prop where
  keys : ∀ k ∈ keys s.device.rreqTable, k ∈ s.history
  exact : s.exact = true

/-- No entry of another initiator has the identification and the target of the request; the entry of a request that has
been seen is still there, neither written over nor deleted; and no request for the node itself lists it. -/
def Undisturbed (s : State ι) : Event ι → Prop
  | .processRreq rreq _ =>
    (∀ e ∈ s.device.rreqTable, e.nIdentification = rreq.nIdentification → e.target = rreq.targetAddress →
      e.initiator = rreq.initiator) ∧
    (rreq.key ∈ s.history → rreq.key ∈ keys s.device.rreqTable) ∧
    (rreq.targetAddress = s.device.address → s.device.address ∉ rreq.address)
  | _ => True

instance (s : State ι) : (e : Event ι) → Decidable (Undisturbed s e)
  | .processRreq rreq _ => inferInstanceAs (Decidable
      ((∀ e ∈ s.device.rreqTable, e.nIdentification = rreq.nIdentification → e.target = rreq.targetAddress →
        e.initiator = rreq.initiator) ∧
      (rreq.key ∈ s.history → rreq.key ∈ keys s.device.rreqTable) ∧
      (rreq.targetAddress = s.device.address → s.device.address ∉ rreq.address)))
  | .initRouteRequest _ => inferInstanceAs (Decidable True)
  | .rreqTimeout _ _ => inferInstanceAs (Decidable True)
  | .processRrep _ _ => inferInstanceAs (Decidable True)

/-- An undisturbed request is discarded as it should. -/
theorem discard_of_undisturbed {s : State ι} (hr : Recorded s) {rreq : RreqOption ι} {time : ℚ}
    (h : Undisturbed s (.processRreq rreq time)) :
    (processRreq s.device rreq time).2 = .discard ↔ ShouldDiscard s rreq := by
  obtain ⟨hother, hlost, hself⟩ := h
  rw [processRreq_discard_iff, checkEntry_iff]
  constructor
  · rintro (⟨e, he, hid, ht⟩ | ⟨-, hown⟩)
    · left
      have hk : e.key = rreq.key := by
        unfold RreqTable.key RreqOption.key
        rw [hother e he hid ht, hid, ht]
      exact hr.keys _ (mem_keys.2 ⟨e, he, hk⟩)
    · exact .inr hown
  · rintro (hin | hown)
    · obtain ⟨e, he, hk⟩ := mem_keys.1 (hlost hin)
      have hid : e.nIdentification = rreq.nIdentification := congrArg (fun k => k.2.1) hk
      have ht : e.target = rreq.targetAddress := congrArg (fun k => k.2.2) hk
      exact .inl ⟨e, he, hid, ht⟩
    · exact .inr ⟨fun ht => hself ht hown, hown⟩

theorem recorded_step {s s' : State ι} {e : Event ι} (hr : Recorded s) (hok : Undisturbed s e)
    (h : step s e = some s') : Recorded s' := by
  cases e with
  | initRouteRequest target =>
    obtain rfl := Option.some.inj h
    refine ⟨?_, hr.exact⟩
    intro k hk
    dsimp only at hk ⊢
    rw [keys_initRouteRequest, List.mem_append] at hk
    exact List.mem_append.2 (hk.imp_left (hr.keys k))
  | rreqTimeout target routeFound =>
    obtain ⟨d, hd, rfl⟩ := Option.map_eq_some_iff.1 h
    refine ⟨?_, hr.exact⟩
    intro k hk
    dsimp only at hk ⊢
    rcases keys_rreqTimeout hd k hk with hold | ⟨hretried, rfl⟩
    · split
      · exact List.mem_append_left _ (hr.keys k hold)
      · exact hr.keys k hold
    · rw [if_pos hretried]
      exact List.mem_append_right _ (List.mem_singleton_self _)
  | processRrep address time =>
    obtain rfl := Option.some.inj h
    refine ⟨?_, hr.exact⟩
    intro k hk
    dsimp only at hk ⊢
    rw [keys_processRrep] at hk
    exact hr.keys k hk
  | processRreq rreq time =>
    obtain rfl := Option.some.inj h
    refine ⟨?_, ?_⟩
    · intro k hk
      dsimp only at hk ⊢
      rcases keys_processRreq _ _ _ k hk with hold | rfl
      · split
        · exact hr.keys k hold
        · exact List.mem_append_left _ (hr.keys k hold)
      · split
        · rename_i hin
          exact hin
        · exact List.mem_append_right _ (List.mem_singleton_self _)
    · dsimp only
      rw [hr.exact, Bool.true_and, decide_eq_true_eq]
      exact discard_of_undisturbed hr hok

/-- **Where no entry of another initiator is in the way**, and none of the request itself has been written over, a node
discards the requests that it has seen or that have come by, and no others. -/
theorem duplicates_exact (s : State ι) (h : (machine ι).ReachOn Undisturbed s) : s.exact = true := by
  have hr : Recorded s := by
    refine h.inv (I := Recorded) ?_ ?_
    · rintro s ⟨ht, -, hx⟩
      refine ⟨?_, hx⟩
      rw [ht]
      intro k hk
      exact absurd hk List.not_mem_nil
    · intro s e s' hI hok hs
      exact recorded_step hI hok hs
  exact hr.exact

/-! ### Samples -/

/-- Node `5`. -/
def sampleState : State ℕ := ⟨⟨5, 0, [], []⟩, [], true⟩

/-- A request for node `9`. -/
def sampleRreq (initiator : ℕ) (nIdentification : UInt16) : RreqOption ℕ :=
  ⟨initiator, nIdentification, 9, [], by decide⟩

/-- Requests of two initiators with different identifications, a duplicate, and one of the node itself. -/
theorem duplicates_exact_sample :
    ∃ s : State ℕ, ((machine ℕ).ReachOn Undisturbed s ∧ s.history.length = 3) ∧ s.exact = true := by
  obtain ⟨s, hr, hp⟩ := Machine.ReachOn.exists_of_execOn Undisturbed (M := machine ℕ)
    (P := fun s => s.history.length = 3)
    [.processRreq (sampleRreq 1 1) 0, .processRreq (sampleRreq 2 2) 1, .processRreq (sampleRreq 1 1) 2,
      .initRouteRequest 8, .processRreq (sampleRreq 2 2) 3]
    (.init ⟨rfl, rfl, rfl⟩ : (machine ℕ).ReachOn _ sampleState) (by decide)
  exact ⟨s, ⟨hr, hp⟩, duplicates_exact s hr⟩

/-- **Two initiators whose counters agree**: the request of the second is discarded as that of the first. -/
theorem duplicates_wrong : ¬ ∀ s : State ℕ, (machine ℕ).Reach s → s.exact = true := by
  intro hall
  obtain ⟨s, hr, hp⟩ := Machine.Reach.exists_of_exec (M := machine ℕ) (P := fun s => s.exact = false)
    [.processRreq (sampleRreq 1 1) 0, .processRreq (sampleRreq 2 1) 1]
    (.init ⟨rfl, rfl, rfl⟩ : (machine ℕ).Reach sampleState) (by decide)
  rw [hall s hr] at hp
  exact absurd hp (by decide)

end NetSim.Dsr
