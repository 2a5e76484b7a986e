import NetSim.Lib.Budget
import NetSim.Spec.Prb
import NetSim.Proof.BwpPartition

/-!
# One call of the PRB allocation

The ranks decide about the order of the UEs only (`order_plain`, `updateRank_plain`). In that
order, what the UEs of the slice get is what `Budget.serve` makes of their needs, with the
switch to another carrier as fallback (`allocateLoop_spec`).
-/

namespace NetSim.Prb

open Word Bwp

/-! ## Ranks -/

/-- A UE without what the ranks are made of. -/
def UeSchedulerInfo.plain (ue : UeSchedulerInfo) : UeSchedulerInfo :=
  { ue with initRank := 0, rank := 0, var2 := 0, averageThroughput := 0 }

/-- A UE without its ranks and its allocation. -/
def UeSchedulerInfo.bare (ue : UeSchedulerInfo) : UeSchedulerInfo :=
  { ue.plain with allocatedPRBCount := 0 }

theorem map_plain_map (list : List UeSchedulerInfo) {f : UeSchedulerInfo → UeSchedulerInfo}
    (hf : ∀ ue, (f ue).plain = ue.plain) :
    (list.map f).map (·.plain) = list.map (·.plain) := by
  rw [List.map_map]
  apply List.map_congr_left
  intro ue _
  exact hf ue

theorem setRank_plain (type : SchedulingType) (list : List UeSchedulerInfo) :
    (setRank type list).map (·.plain) = list.map (·.plain) := by
  cases type with
  | roundRobin => exact map_plain_map list fun _ => rfl
  | proportionalFair => exact map_plain_map list fun _ => rfl
  | maxThroughput => rfl
  | fairScheduling =>
    unfold setRank
    dsimp only
    rw [map_plain_map]
    · by_cases h : list.foldl (fun (sum : Binary64) ue => sum + ue.bitsPerPRB) 0 ≠ 0
      · rw [if_pos h]
        exact map_plain_map list fun _ => rfl
      · rw [if_neg h]
    · intro ue
      split <;> rfl

theorem updateRankRoundRobin_plain (init : Binary64) (list : List UeSchedulerInfo) :
    (updateRankRoundRobin init list).map (·.plain) = list.map (·.plain) := by
  unfold updateRankRoundRobin
  dsimp only
  split
  · refine (map_plain_map _ ?_).trans (map_plain_map list fun _ => rfl)
    intro ue
    rfl
  · exact map_plain_map list fun _ => rfl

theorem updateRankFair_plain (init : Binary64) (list : List UeSchedulerInfo) :
    (updateRankFair init list).map (·.plain) = list.map (·.plain) := by
  unfold updateRankFair
  dsimp only
  split
  · refine (map_plain_map _ ?_).trans (map_plain_map list fun _ => rfl)
    intro ue
    rfl
  · exact map_plain_map list fun _ => rfl

theorem updateRank_plain (si : SchedulerInfo) (nws : NwSlicing) (list : List UeSchedulerInfo) :
    (updateRank si nws list).2.map (·.plain) = list.map (·.plain) := by
  unfold updateRank
  cases si.schedulingType with
  | roundRobin => exact updateRankRoundRobin_plain _ list
  | proportionalFair => exact map_plain_map list fun _ => rfl
  | maxThroughput => rfl
  | fairScheduling => exact updateRankFair_plain _ list

theorem insertMiddle_perm (ue : UeSchedulerInfo) (list : List UeSchedulerInfo) :
    (insertMiddle ue list).Perm (ue :: list) := by
  induction list with
  | nil => exact .refl _
  | cons info rest ih =>
    cases rest with
    | nil => exact .swap _ _ _
    | cons next rest =>
      unfold insertMiddle
      by_cases h : next.rank < ue.rank
      · rw [if_pos h]
        exact .swap _ _ _
      · rw [if_neg h]
        exact (ih.cons info).trans (.swap _ _ _)

theorem sortInsert_perm (sorted : List UeSchedulerInfo) (ue : UeSchedulerInfo) :
    (sortInsert sorted ue).Perm (ue :: sorted) := by
  cases sorted with
  | nil => exact .refl _
  | cons head rest =>
    unfold sortInsert
    dsimp only
    split
    · exact .refl _
    · split
      · exact List.perm_append_singleton _ _
      · exact insertMiddle_perm _ _

theorem sortingOfRank_perm (list : List UeSchedulerInfo) : (sortingOfRank list).Perm list := by
  have hfold : ∀ (list sorted : List UeSchedulerInfo),
      (list.foldl sortInsert sorted).Perm (list ++ sorted) := by
    intro list
    induction list with
    | nil => exact fun _ => .refl _
    | cons ue list ih =>
      intro sorted
      exact (ih _).trans (((sortInsert_perm sorted ue).append_left list).trans List.perm_middle)
  have h := hfold list []
  rw [List.append_nil] at h
  exact h

theorem firstRanks_list_plain (si : SchedulerInfo) :
    si.firstRanks.list.map (·.plain) = si.list.map (·.plain) := by
  unfold SchedulerInfo.firstRanks
  by_cases h : si.isPRBRankInit = true
  · rw [if_pos h]
  · rw [if_neg h]
    unfold SchedulerInfo.list
    cases si.slotType with
    | uplink => exact setRank_plain _ _
    | downlink => exact setRank_plain _ _

/-- The ranks decide about the order only. -/
theorem order_plain (si : SchedulerInfo) (nws : NwSlicing) :
    ((si.order nws).map (·.plain)).Perm (si.list.map (·.plain)) := by
  unfold SchedulerInfo.order
  refine ((sortingOfRank_perm _).map _).trans ?_
  cases si.schedulingType with
  | roundRobin => exact .refl _
  | proportionalFair => exact .of_eq (map_plain_map si.list fun _ => rfl)
  | maxThroughput => exact .of_eq (map_plain_map si.list fun _ => rfl)
  | fairScheduling => exact .refl _

/-! ## The fallback -/

/-- What a carrier offers to the switch. -/
def profile (cas : List Ca) : List (ℕ × Bool) := cas.map fun ca => (ca.prbCount, ca.isBwpEnabled)

/-- The PRBs that a switch reports for a need, if it is active. -/
def fallback (caId : ℕ) (cas : List Ca) (d : ℕ) : Option ℕ :=
  let s := (switchTarget caId d cas).2
  if s.bwpActive then some s.prbCount else none

theorem bwpSwitch_fst (caId : ℕ) (curr : UeRef) (d : ℕ) (cas : List Ca) :
    (bwpSwitch caId curr d cas).1 = (switchTarget caId d cas).2 := by
  unfold bwpSwitch
  rcases switchTarget caId d cas with ⟨_ | i, s⟩ <;> rfl

theorem profile_modify (cas : List Ca) (i : ℕ) (f : List UeRef → List UeRef) :
    profile (cas.modify i fun ca => { ca with ueList := f ca.ueList }) = profile cas := by
  unfold profile
  induction cas generalizing i with
  | nil => simp
  | cons ca cas ih =>
    cases i with
    | zero => simp
    | succ i => simp [ih]

/-- A switch moves UEs only. -/
theorem profile_bwpSwitch (caId : ℕ) (curr : UeRef) (d : ℕ) (cas : List Ca) :
    profile (bwpSwitch caId curr d cas).2 = profile cas := by
  unfold bwpSwitch
  rcases switchTarget caId d cas with ⟨_ | i, s⟩
  · rfl
  · dsimp only
    rw [activeUeInfoAdd, profile_modify _ _ (· ++ [curr]), activeUeInfoRemove,
      profile_modify _ _ (·.erase curr)]

theorem scanCarriers_congr (caId d : ℕ) {cas cas' : List Ca} (h : profile cas = profile cas')
    (k max caMax : ℕ) (caNew : Bool) :
    scanCarriers caId d k max caMax caNew cas = scanCarriers caId d k max caMax caNew cas' := by
  induction cas generalizing cas' k max caMax caNew with
  | nil =>
    cases cas' with
    | nil => rfl
    | cons ca' cas' => cases h
  | cons ca cas ih =>
    cases cas' with
    | nil => cases h
    | cons ca' cas' =>
      obtain ⟨hca, hrest⟩ := List.cons.inj h
      obtain ⟨hprb, -⟩ := Prod.mk.inj hca
      unfold scanCarriers
      simp only [hprb, ih hrest]

theorem fallback_congr (caId : ℕ) {cas cas' : List Ca} (h : profile cas = profile cas') :
    fallback caId cas = fallback caId cas' := by
  have hany : (cas[caId]?.any (·.isBwpEnabled)) = (cas'[caId]?.any (·.isBwpEnabled)) := by
    have hget := congrArg (fun l => (l[caId]?).map Prod.snd) h
    simp only [profile, List.getElem?_map, Option.map_map] at hget
    cases hc : cas[caId]? <;> cases hc' : cas'[caId]? <;> simp_all
  funext d
  unfold fallback switchTarget
  rw [hany, scanCarriers_congr caId d h]

theorem fallback_cases (caId d : ℕ) (cas : List Ca) :
    fallback caId cas d = none ∨ fallback caId cas d = some 0 ∨
      ∃ j ca, j < caId ∧ cas[j]? = some ca ∧ d ≤ ca.prbCount ∧
        fallback caId cas d = some ca.prbCount := by
  unfold fallback
  dsimp only
  rcases hswitch : switchTarget caId d cas with ⟨_ | i, s⟩
  · obtain ⟨hact, -⟩ := switchTarget_none hswitch
    left
    simp [hact]
  · by_cases hca : caId < cas.length
    · obtain ⟨ca, hget, hact, hzero | ⟨hlt, hprb, hle⟩⟩ := switchTarget_some hca hswitch
      · right
        left
        simp [hact, hzero]
      · right
        right
        exact ⟨i, ca, hlt, hget, hle, by simp [hact, hprb]⟩
    · -- there is no such carrier
      unfold switchTarget at hswitch
      rw [List.getElem?_eq_none (Nat.le_of_not_lt hca)] at hswitch
      cases hswitch

theorem fallback_covers (caId : ℕ) (cas : List Ca) (d p : ℕ) (h : fallback caId cas d = some p) :
    p = 0 ∨ d ≤ p := by
  rcases fallback_cases caId d cas with hnone | hzero | ⟨j, ca, -, -, hle, hsome⟩
  · rw [hnone] at h
    cases h
  · rw [hzero] at h
    exact .inl (Option.some.inj h).symm
  · rw [hsome] at h
    exact .inr (Option.some.inj h ▸ hle)

theorem fallback_lt (caId : ℕ) (cas : List Ca) (d p : ℕ) (h : fallback caId cas d = some p) :
    p < 4294967296 := by
  rcases fallback_cases caId d cas with hnone | hzero | ⟨j, ca, -, -, -, hsome⟩
  · rw [hnone] at h
    cases h
  · rw [hzero] at h
    rw [← Option.some.inj h]
    decide
  · rw [hsome] at h
    rw [← Option.some.inj h]
    exact ca.prbCount_lt

/-- Without bandwidth parts on the carrier there is no fallback. -/
theorem fallback_of_disabled {caId : ℕ} {cas : List Ca}
    (h : (cas[caId]?.any (·.isBwpEnabled)) = false) (d : ℕ) : fallback caId cas d = none := by
  unfold fallback switchTarget
  rw [h]
  rfl

/-! ## The loop over the UEs -/

/-- The UE is served in a call for the slice. -/
def Served (nws : NwSlicing) (sliceId : ℕ) (ue : UeSchedulerInfo) : Prop :=
  (nws.rsrcSharingTechnique = .static → nws.ueSliceId ue.ueId = sliceId) ∧ 0 < ue.bitsPerPRB

instance (nws : NwSlicing) (sliceId : ℕ) (ue : UeSchedulerInfo) : Decidable (Served nws sliceId ue) :=
  inferInstanceAs (Decidable (_ ∧ _))

/-- What the UEs of a slice need, in the order of a list. -/
def needs (nws : NwSlicing) (sliceId : ℕ) (list : List UeSchedulerInfo) : List ℕ :=
  (list.filter fun ue => Served nws sliceId ue).map (·.prbAllocation)

/-- The PRBs that are allocated to a list. -/
def allocated (list : List UeSchedulerInfo) : ℕ := (list.map (·.allocatedPRBCount)).sum

theorem allocated_cons (ue : UeSchedulerInfo) (list : List UeSchedulerInfo) :
    allocated (ue :: list) = ue.allocatedPRBCount + allocated list := List.sum_cons

theorem needs_cons_of_served {nws : NwSlicing} {sliceId : ℕ} {ue : UeSchedulerInfo}
    (h : Served nws sliceId ue) (list : List UeSchedulerInfo) :
    needs nws sliceId (ue :: list) = ue.prbAllocation :: needs nws sliceId list := by
  simp [needs, h]

theorem needs_cons_of_not_served {nws : NwSlicing} {sliceId : ℕ} {ue : UeSchedulerInfo}
    (h : ¬ Served nws sliceId ue) (list : List UeSchedulerInfo) :
    needs nws sliceId (ue :: list) = needs nws sliceId list := by
  simp [needs, h]

theorem prbAllocation_lt (ue : UeSchedulerInfo) : ue.prbAllocation < 4294967296 :=
  Nat.mod_lt _ (by decide)

theorem allocateUe_not_served {nws : NwSlicing} {sliceId caId : ℕ} {current1 : UeRef} {p : Pass}
    {ue : UeSchedulerInfo} (h : ¬ Served nws sliceId ue) :
    allocateUe nws sliceId caId current1 p ue = (p, ue) := by
  unfold allocateUe
  by_cases hslice : nws.rsrcSharingTechnique = .static ∧ nws.ueSliceId ue.ueId ≠ sliceId
  · rw [if_pos hslice]
  · rw [if_neg hslice, if_neg]
    intro hbits
    apply h
    refine ⟨?_, hbits⟩
    intro hstatic
    by_contra hne
    exact hslice ⟨hstatic, hne⟩

/-- What a served UE gets: its need, or what the fallback makes of it. -/
theorem allocateUe_served {nws : NwSlicing} {sliceId : ℕ} (caId : ℕ) (current1 : UeRef) {p : Pass}
    {ue : UeSchedulerInfo} (h : Served nws sliceId ue) (hzero : ue.allocatedPRBCount = 0)
    (hlt : p.totalPRBAvailable < 4294967296) (ds : List ℕ) :
    let r := allocateUe nws sliceId caId current1 p ue
    (0 < p.totalPRBAvailable →
      (Budget.serve (fallback caId p.cas) p.totalPRBAvailable (ue.prbAllocation :: ds)).sum =
        r.2.allocatedPRBCount + (Budget.serve (fallback caId p.cas) r.1.totalPRBAvailable ds).sum) ∧
      r.2.bare = ue.bare ∧ r.1.wrapped = p.wrapped ∧ profile r.1.cas = profile p.cas ∧
      r.1.totalPRBAvailable < 4294967296 := by
  have hneed := prbAllocation_lt ue
  unfold allocateUe
  rw [if_neg (fun hn => hn.2 (h.1 hn.1)), if_pos h.2, hzero, Nat.zero_add, u32_of_lt hneed]
  by_cases hfit : ue.prbAllocation < p.totalPRBAvailable
  · -- the need is below the PRBs left
    rw [if_pos hfit]
    dsimp only
    rw [sub32_of_le (Nat.le_of_lt hfit) hlt]
    refine ⟨?_, rfl, ?_, rfl, by omega⟩
    · intro _
      rw [Budget.serve_cons_of_lt hfit, List.sum_cons]
    · have hnot : ¬ p.totalPRBAvailable < ue.prbAllocation := by omega
      simp [hnot]
  · rw [if_neg hfit]
    dsimp only
    rw [bwpSwitch_fst]
    have hf : fallback caId p.cas ue.prbAllocation =
        if (switchTarget caId ue.prbAllocation p.cas).2.bwpActive = true then
          some (switchTarget caId ue.prbAllocation p.cas).2.prbCount else none := rfl
    have hprb := fallback_lt caId p.cas ue.prbAllocation
    by_cases hact : (switchTarget caId ue.prbAllocation p.cas).2.bwpActive = true
    · -- from here on the PRBs are those of the switch
      rw [if_pos hact] at hf ⊢
      have hprblt := hprb _ hf
      unfold BwpSwitch.grant
      dsimp only
      refine ⟨?_, rfl, rfl, profile_bwpSwitch _ _ _ _, ?_⟩
      · intro hpos
        rw [Budget.sum_serve_cons_of_le hpos (Nat.le_of_not_lt hfit), hf]
        dsimp only
        split
        · simp
        · rfl
      · split <;> omega
    · rw [if_neg hact] at hf ⊢
      refine ⟨?_, rfl, rfl, rfl, Nat.lt_of_le_of_lt (Nat.zero_le _) hlt⟩
      intro hpos
      rw [Budget.sum_serve_cons_of_le hpos (Nat.le_of_not_lt hfit), hf]
      simp

/-- **What the loop does**: the UEs of the slice get what `Budget.serve` makes of their needs. -/
theorem allocateLoop_spec (nws : NwSlicing) (sliceId caId : ℕ) (current1 : UeRef)
    (list : List UeSchedulerInfo) (p : Pass) (hlt : p.totalPRBAvailable < 4294967296)
    (hzero : ∀ ue ∈ list, Served nws sliceId ue → ue.allocatedPRBCount = 0) :
    let r := allocateLoop nws sliceId caId current1 p list
    r.2.map (·.bare) = list.map (·.bare) ∧
      allocated r.2 = allocated list +
        (Budget.serve (fallback caId p.cas) p.totalPRBAvailable (needs nws sliceId list)).sum ∧
      r.1.wrapped = p.wrapped ∧ profile r.1.cas = profile p.cas ∧
      ∀ ue ∈ r.2, ue ∈ list ∨ Served nws sliceId ue := by
  induction list generalizing p with
  | nil =>
    refine ⟨rfl, ?_, rfl, rfl, fun ue hue => .inl hue⟩
    simp [allocateLoop, allocated, needs, Budget.serve]
  | cons ue list ih =>
    unfold allocateLoop
    by_cases hpos : 0 < p.totalPRBAvailable
    · rw [if_pos hpos]
      dsimp only
      by_cases hs : Served nws sliceId ue
      · have hz := hzero ue List.mem_cons_self hs
        obtain ⟨hsum, hbare, hwrapped, hcas, hlt'⟩ := allocateUe_served caId current1 hs
          hz hlt (needs nws sliceId list)
        generalize allocateUe nws sliceId caId current1 p ue = r at hsum hbare hwrapped hcas hlt'
        obtain ⟨ihbare, ihsum, ihwrapped, ihcas, ihmem⟩ :=
          ih r.1 hlt' fun x hx => hzero x (List.mem_cons_of_mem _ hx)
        -- a switch does not change what the carriers offer
        rw [fallback_congr caId hcas] at ihsum
        refine ⟨?_, ?_, ihwrapped.trans hwrapped, ihcas.trans hcas, ?_⟩
        · rw [List.map_cons, List.map_cons, hbare, ihbare]
        · rw [allocated_cons, allocated_cons, ihsum, hz, needs_cons_of_served hs, hsum hpos]
          omega
        · intro x hx
          rcases List.mem_cons.1 hx with rfl | hx
          · -- being served does not depend on what is allocated
            right
            have hserved : ∀ y : UeSchedulerInfo, Served nws sliceId y ↔ Served nws sliceId y.bare :=
              fun _ => Iff.rfl
            rw [hserved, hbare, ← hserved]
            exact hs
          · rcases ihmem x hx with hx | hx
            · exact .inl (List.mem_cons_of_mem _ hx)
            · exact .inr hx
      · rw [allocateUe_not_served hs, needs_cons_of_not_served hs]
        dsimp only
        obtain ⟨ihbare, ihsum, ihwrapped, ihcas, ihmem⟩ :=
          ih p hlt fun x hx => hzero x (List.mem_cons_of_mem _ hx)
        refine ⟨?_, ?_, ihwrapped, ihcas, ?_⟩
        · rw [List.map_cons, List.map_cons, ihbare]
        · rw [allocated_cons, allocated_cons, ihsum]
          omega
        · intro x hx
          rcases List.mem_cons.1 hx with rfl | hx
          · exact .inl List.mem_cons_self
          · rcases ihmem x hx with hx | hx
            · exact .inl (List.mem_cons_of_mem _ hx)
            · exact .inr hx
    · -- the PRBs are used up
      rw [if_neg hpos]
      have hp : p.totalPRBAvailable = 0 := by omega
      refine ⟨rfl, ?_, rfl, rfl, fun x hx => .inl hx⟩
      rw [hp, Budget.sum_serve_zero]
      rfl

/-! ## One call -/

/-- What a call reads of the network slicing. The call may change the rest (`nu`, throughputs). -/
def NwSlicing.sharing (nws : NwSlicing) : SharingTechnique × (ℕ → ℕ) :=
  (nws.rsrcSharingTechnique, nws.ueSliceId)

theorem served_congr {nws nws' : NwSlicing} (h : nws'.sharing = nws.sharing) (sliceId : ℕ)
    (ue : UeSchedulerInfo) : Served nws' sliceId ue ↔ Served nws sliceId ue := by
  obtain ⟨htech, hslice⟩ := Prod.mk.inj h
  unfold Served
  rw [htech, hslice]

theorem needs_congr {nws nws' : NwSlicing} (h : nws'.sharing = nws.sharing) (sliceId : ℕ)
    (list : List UeSchedulerInfo) : needs nws' sliceId list = needs nws sliceId list := by
  unfold needs
  simp only [served_congr h]

/-- The needs do not depend on the ranks and on what is allocated. -/
theorem needs_bare (nws : NwSlicing) (sliceId : ℕ) (list : List UeSchedulerInfo) :
    needs nws sliceId (list.map (·.bare)) = needs nws sliceId list := by
  unfold needs
  rw [List.filter_map, List.map_map]
  rfl

theorem needs_perm {nws : NwSlicing} {sliceId : ℕ} {list list' : List UeSchedulerInfo}
    (h : (list.map (·.bare)).Perm (list'.map (·.bare))) :
    (needs nws sliceId list).Perm (needs nws sliceId list') := by
  rw [← needs_bare nws sliceId list, ← needs_bare nws sliceId list']
  exact (h.filter _).map _

theorem allocated_plain (list : List UeSchedulerInfo) :
    allocated (list.map (·.plain)) = allocated list := by
  unfold allocated
  rw [List.map_map]
  rfl

theorem map_bare_plain (list : List UeSchedulerInfo) :
    (list.map (·.plain)).map (·.bare) = list.map (·.bare) := by
  rw [List.map_map]
  rfl

theorem updateRank_sharing (si : SchedulerInfo) (nws : NwSlicing) (list : List UeSchedulerInfo) :
    (updateRank si nws list).1.sharing = nws.sharing := by
  unfold updateRank
  cases si.schedulingType with
  | roundRobin => rfl
  | maxThroughput => rfl
  | fairScheduling => rfl
  | proportionalFair =>
    unfold updateRankProportionalFair
    dsimp only
    split <;> rfl

@[simp]
theorem setList_list (si : SchedulerInfo) (list : List UeSchedulerInfo) :
    (si.setList list).list = list := by
  unfold SchedulerInfo.setList SchedulerInfo.list
  cases si.slotType <;> simp

@[simp]
theorem setList_completed (si : SchedulerInfo) (list : List UeSchedulerInfo) :
    (si.setList list).isUERRCSetUpCompleted = si.isUERRCSetUpCompleted := by
  unfold SchedulerInfo.setList
  cases si.slotType <;> rfl

/-- What a call leaves as it is. -/
structure SameSlot (s s' : SlotState) : Prop where
  completed : s'.si.isUERRCSetUpCompleted = s.si.isUERRCSetUpCompleted
  sharing : s'.nws.sharing = s.nws.sharing
  profile : profile s'.cas = profile s.cas
  wrapped : s'.wrapped = s.wrapped
  bare : (s'.si.list.map (·.bare)).Perm (s.si.list.map (·.bare))

theorem SameSlot.refl (s : SlotState) : SameSlot s s := ⟨rfl, rfl, rfl, rfl, .refl _⟩

theorem SameSlot.trans {s s' s'' : SlotState} (h : SameSlot s s') (h' : SameSlot s' s'') :
    SameSlot s s'' :=
  ⟨h'.completed.trans h.completed, h'.sharing.trans h.sharing, h'.profile.trans h.profile,
    h'.wrapped.trans h.wrapped, h'.bare.trans h.bare⟩

theorem firstRanks_completed (si : SchedulerInfo) :
    si.firstRanks.isUERRCSetUpCompleted = si.isUERRCSetUpCompleted := by
  unfold SchedulerInfo.firstRanks
  split <;> rfl

/-- The list in the order of the ranks has the same UEs. -/
theorem firstRanks_order_plain (si : SchedulerInfo) (nws : NwSlicing) :
    ((si.firstRanks.order nws).map (·.plain)).Perm (si.list.map (·.plain)) :=
  (order_plain _ _).trans (.of_eq (firstRanks_list_plain si))

theorem firstRanks_order_bare (si : SchedulerInfo) (nws : NwSlicing) :
    ((si.firstRanks.order nws).map (·.bare)).Perm (si.list.map (·.bare)) := by
  rw [← map_bare_plain, ← map_bare_plain si.list]
  exact (firstRanks_order_plain si nws).map _

/-- **One call**: the UEs of the slice get, in the order of the ranks, what `Budget.serve` makes of
their needs. -/
theorem allocatePrb_spec (caId total sliceId : ℕ) (s : SlotState)
    (hrrc : s.si.isUERRCSetUpCompleted = true) (hlt : total < 4294967296)
    (hzero : ∀ ue ∈ s.si.list, Served s.nws sliceId ue → ue.allocatedPRBCount = 0) :
    SameSlot s (allocatePrb caId total sliceId s) ∧
      allocated (allocatePrb caId total sliceId s).si.list = allocated s.si.list +
        (Budget.serve (fallback caId s.cas) total
          (needs s.nws sliceId (s.si.firstRanks.order s.nws))).sum ∧
      ∀ ue ∈ (allocatePrb caId total sliceId s).si.list, ¬ Served s.nws sliceId ue →
        ∃ old ∈ s.si.list, old.bare = ue.bare ∧ old.allocatedPRBCount = ue.allocatedPRBCount := by
  -- the ranks before: the same UEs in another order
  have horder := firstRanks_order_plain s.si s.nws
  have hplain : ∀ ue ∈ s.si.firstRanks.order s.nws, ∃ old ∈ s.si.list, old.plain = ue.plain := by
    intro ue hue
    exact List.mem_map.1 (horder.subset (List.mem_map_of_mem hue))
  have hallocated : allocated (s.si.firstRanks.order s.nws) = allocated s.si.list := by
    rw [← allocated_plain, ← allocated_plain s.si.list]
    exact (horder.map _).sum_eq
  have hzero' : ∀ ue ∈ s.si.firstRanks.order s.nws, Served s.nws sliceId ue →
      ue.allocatedPRBCount = 0 := by
    intro ue hue hs
    obtain ⟨old, hold, heq⟩ := hplain ue hue
    have hserved : Served s.nws sliceId old.plain := heq ▸ hs
    have hz := hzero old hold hserved
    have halloc : old.plain.allocatedPRBCount = ue.plain.allocatedPRBCount := by rw [heq]
    exact halloc.symm.trans hz
  unfold allocatePrb
  rw [if_neg (by simp [hrrc])]
  dsimp only
  generalize (((s.si.firstRanks.order s.nws).head?.map (·.ref)).getD ⟨0, 0⟩) = current1
  obtain ⟨hlbare, hlsum, hlwrapped, hlcas, hlmem⟩ := allocateLoop_spec s.nws sliceId caId current1
    (s.si.firstRanks.order s.nws) ⟨total, s.cas, s.wrapped⟩ hlt hzero'
  generalize allocateLoop s.nws sliceId caId current1 ⟨total, s.cas, s.wrapped⟩
    (s.si.firstRanks.order s.nws) = r at hlbare hlsum hlwrapped hlcas hlmem ⊢
  -- the ranks after: the same UEs
  have hrank := updateRank_plain s.si.firstRanks s.nws r.2
  refine ⟨⟨?_, updateRank_sharing _ _ _, hlcas, hlwrapped, ?_⟩, ?_, ?_⟩
  · rw [setList_completed]
    exact firstRanks_completed s.si
  · rw [setList_list, ← map_bare_plain, hrank, map_bare_plain, hlbare]
    exact firstRanks_order_bare s.si s.nws
  · rw [setList_list, ← allocated_plain, hrank, allocated_plain, hlsum, hallocated]
  · rw [setList_list]
    intro ue hue hns
    have hmem : ue.plain ∈ r.2.map (·.plain) := hrank ▸ List.mem_map_of_mem hue
    obtain ⟨x, hx, hxplain⟩ := List.mem_map.1 hmem
    have hnsx : ¬ Served s.nws sliceId x := by
      intro hsx
      have hsx' : Served s.nws sliceId x.plain := hsx
      rw [hxplain] at hsx'
      exact hns hsx'
    have hxold : x ∈ s.si.firstRanks.order s.nws := (hlmem x hx).resolve_right hnsx
    obtain ⟨old, hold, heq⟩ := hplain x hxold
    have hue' : old.plain = ue.plain := heq.trans hxplain
    refine ⟨old, hold, ?_, ?_⟩
    · exact congrArg (fun y : UeSchedulerInfo => { y with allocatedPRBCount := 0 }) hue'
    · have halloc : old.plain.allocatedPRBCount = ue.plain.allocatedPRBCount := by rw [hue']
      exact halloc

end NetSim.Prb
