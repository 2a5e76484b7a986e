import NetSim.Proof.PrbPass
import Mathlib.Data.List.Forall2

/-!
# The PRBs of a carrier in one slot

`LTENR_PRB_Scheduler` takes the overhead and the HARQ demand off the PRBs without a check, and
splits the rest by percentages that need not add up to 100. A switch to a lower-numbered carrier
replaces what is left by the PRBs of that carrier. The PRBs are not over-committed if none of
the three happens; each of the first two is also necessary where no switch is possible, and the
third where slices do not share the PRBs (`budget_iff`).
-/

namespace NetSim.Prb

open Word Bwp

/-- What the UEs of a slot demand for retransmissions. -/
def SchedulerInfo.retransmission (si : SchedulerInfo) : ℕ :=
  (si.list.map (·.prbReqdForHARQRetransmission)).sum

/-- **Not over-committed.** New data and retransmissions fit what the overhead leaves of the carrier,
and no subtraction has wrapped. -/
def Within (s s' : SlotState) : Prop :=
  (s'.si.list.map fun ue => ue.allocatedPRBCount + ue.prbReqdForHARQRetransmission).sum +
      s.si.overhead ≤ s.si.prbCount ∧ s'.wrapped = false

/-- Overhead and retransmissions fit the carrier. -/
def HarqFits (s : SlotState) : Prop := s.si.overhead + s.si.retransmission ≤ s.si.prbCount

/-- The PRBs left for new data. -/
def available (s : SlotState) : ℕ := s.si.prbCount - s.si.overhead - s.si.retransmission

/-- The calls of the slot: the PRBs and the slice of each. -/
def SlotState.calls (s : SlotState) : List (ℕ × ℕ) := passes s.nws s.si.slotType (available s)

/-- What the slices get of their shares fits the PRBs left. -/
def SlicesFit (s : SlotState) : Prop :=
  s.si.isUERRCSetUpCompleted = true →
    (s.calls.map fun call => min (needs s.nws call.2 s.si.list).sum call.1).sum ≤ available s

/-- The slices have their own shares. -/
def StaticSlices (s : SlotState) : Prop :=
  s.nws.isSlicing = true ∧ s.nws.rsrcSharingTechnique = .static

/-- No UE of a slice whose needs reach its share fits a lower-numbered carrier. -/
def NoSwitchDown (caId : ℕ) (s : SlotState) : Prop :=
  ∀ call ∈ s.calls, (needs s.nws call.2 s.si.list).sum < call.1 ∨
    ∀ d ∈ needs s.nws call.2 s.si.list, d = 0 ∨
      ∀ j ca, j < caId → s.cas[j]? = some ca → ca.prbCount < d

/-- In the order of the ranks, the first UE whose need reaches the PRBs left finds no lower-numbered
carrier for it, or it takes exactly what is left and no other UE is served from that carrier. -/
def OrderStaysOwn (caId : ℕ) (slotDuration : Binary64) (s : SlotState) : Prop :=
  s.si.isUERRCSetUpCompleted = true →
    Budget.StaysOwn (fallback caId s.cas) (available s) (needs s.nws 0
      ((s.si.resetAllocation s.nws slotDuration).firstRanks.order s.nws))

/-- What a call may grant: the needs of the slice, served in some order. -/
def CallGrants (caId : ℕ) (s : SlotState) (call : ℕ × ℕ) (g : ℕ) : Prop :=
  ∃ ds, ds.Perm (needs s.nws call.2 s.si.list) ∧
    g = (Budget.serve (fallback caId s.cas) call.1 ds).sum

/-! ## The calls of a slot -/

theorem CallGrants.congr {caId : ℕ} {s s' : SlotState} (h : SameSlot s s') {call : ℕ × ℕ} {g : ℕ}
    (hg : CallGrants caId s' call g) : CallGrants caId s call g := by
  obtain ⟨ds, hperm, rfl⟩ := hg
  refine ⟨ds, ?_, ?_⟩
  · rw [needs_congr h.sharing] at hperm
    exact hperm.trans (needs_perm h.bare)
  · rw [fallback_congr caId h.profile]

/-- The calls serve each UE at most once, so their grants add up. -/
theorem foldl_allocatePrb (caId : ℕ) (calls : List (ℕ × ℕ)) (s : SlotState)
    (hrrc : s.si.isUERRCSetUpCompleted = true) (hlt : ∀ call ∈ calls, call.1 < 4294967296)
    (hpair : calls.Pairwise fun a b => ∀ ue, Served s.nws b.2 ue → ¬ Served s.nws a.2 ue)
    (hzero : ∀ call ∈ calls, ∀ ue ∈ s.si.list, Served s.nws call.2 ue → ue.allocatedPRBCount = 0) :
    let s' := calls.foldl (fun s call => allocatePrb caId call.1 call.2 s) s
    SameSlot s s' ∧ ∃ gs, List.Forall₂ (CallGrants caId s) calls gs ∧
      allocated s'.si.list = allocated s.si.list + gs.sum := by
  induction calls generalizing s with
  | nil => exact ⟨.refl s, [], .nil, rfl⟩
  | cons call calls ih =>
    obtain ⟨hsame, hsum, hother⟩ := allocatePrb_spec caId call.1 call.2 s hrrc
      (hlt call List.mem_cons_self) (hzero call List.mem_cons_self)
    rw [List.foldl_cons]
    generalize allocatePrb caId call.1 call.2 s = s₁ at hsame hsum hother ⊢
    obtain ⟨hfirst, hpair⟩ := List.pairwise_cons.1 hpair
    have hserved := fun sliceId ue => served_congr hsame.sharing sliceId ue
    obtain ⟨hsame', gs, hgs, hsum'⟩ := ih s₁ (hsame.completed.trans hrrc)
      (fun c hc => hlt c (List.mem_cons_of_mem _ hc))
      (hpair.imp fun hab ue hb ha => hab ue ((hserved _ _).1 hb) ((hserved _ _).1 ha))
      (by
        intro c hc ue hue hs
        -- a UE of a later call is not served in this one
        have hs₀ := (hserved _ _).1 hs
        obtain ⟨old, hold, hbare, halloc⟩ := hother ue hue (hfirst c hc ue hs₀)
        have hsold : Served s.nws c.2 old.bare := by
          rw [hbare]
          exact hs₀
        rw [← halloc]
        exact hzero c (List.mem_cons_of_mem _ hc) old hold hsold)
    refine ⟨hsame.trans hsame', (Budget.serve (fallback caId s.cas) call.1
      (needs s.nws call.2 (s.si.firstRanks.order s.nws))).sum :: gs, .cons ?_ ?_, ?_⟩
    · exact ⟨_, needs_perm (firstRanks_order_bare s.si s.nws), rfl⟩
    · exact hgs.imp fun _ _ => CallGrants.congr hsame
    · rw [hsum', hsum, List.sum_cons]
      omega

/-- The calls of a slot serve different slices. -/
theorem passes_pairwise (nws : NwSlicing) (slotType : SlotType) (total : ℕ) :
    (passes nws slotType total).Pairwise fun a b => ∀ ue, Served nws b.2 ue → ¬ Served nws a.2 ue := by
  unfold passes
  by_cases h : nws.isSlicing = true ∧ nws.rsrcSharingTechnique = .static
  · rw [if_pos h, List.pairwise_map]
    apply (List.nodup_range).imp
    intro i j hij ue hj hi
    exact hij ((hi.1 h.2).symm.trans (hj.1 h.2))
  · rw [if_neg h]
    exact List.pairwise_singleton _ _

theorem passes_lt {nws : NwSlicing} {slotType : SlotType} {total : ℕ} (h : total < 4294967296) :
    ∀ call ∈ passes nws slotType total, call.1 < 4294967296 := by
  unfold passes
  by_cases hs : nws.isSlicing = true ∧ nws.rsrcSharingTechnique = .static
  · rw [if_pos hs]
    intro call hcall
    obtain ⟨i, -, rfl⟩ := List.mem_map.1 hcall
    exact u32_lt _
  · rw [if_neg hs]
    intro call hcall
    rw [List.mem_singleton.1 hcall]
    exact h

/-! ## The start of a slot -/

theorem foldl_u32 (list : List UeSchedulerInfo) (n : ℕ) :
    list.foldl (fun n ue => u32 (n + ue.prbReqdForHARQRetransmission)) (u32 n) =
      u32 (n + (list.map (·.prbReqdForHARQRetransmission)).sum) := by
  induction list generalizing n with
  | nil => simp
  | cons ue list ih =>
    rw [List.foldl_cons, List.map_cons, List.sum_cons]
    have hstep : u32 (u32 n + ue.prbReqdForHARQRetransmission) =
        u32 (n + ue.prbReqdForHARQRetransmission) := by
      unfold u32
      omega
    rw [hstep, ih, Nat.add_assoc]

theorem resetAllocation_list_bare (si : SchedulerInfo) (nws : NwSlicing) (slotDuration : Binary64) :
    (si.resetAllocation nws slotDuration).list.map (·.bare) = si.list.map (·.bare) := by
  unfold SchedulerInfo.resetAllocation SchedulerInfo.list resetAllocationPrbCount
  cases si.slotType with
  | uplink =>
    dsimp only
    rw [List.map_map]
    rfl
  | downlink =>
    dsimp only
    rw [List.map_map]
    rfl

theorem resetAllocation_list_zero (si : SchedulerInfo) (nws : NwSlicing) (slotDuration : Binary64) :
    ∀ ue ∈ (si.resetAllocation nws slotDuration).list, ue.allocatedPRBCount = 0 := by
  unfold SchedulerInfo.resetAllocation SchedulerInfo.list resetAllocationPrbCount
  intro ue hue
  cases hslot : si.slotType <;> rw [hslot] at hue <;> obtain ⟨old, -, rfl⟩ := List.mem_map.1 hue <;> rfl

theorem allocated_of_zero {list : List UeSchedulerInfo} (h : ∀ ue ∈ list, ue.allocatedPRBCount = 0) :
    allocated list = 0 := by
  unfold allocated
  apply List.sum_eq_zero
  intro x hx
  obtain ⟨ue, hue, rfl⟩ := List.mem_map.1 hx
  exact h ue hue

theorem retransmission_bare {si si' : SchedulerInfo}
    (h : (si'.list.map (·.bare)).Perm (si.list.map (·.bare))) :
    si'.retransmission = si.retransmission := by
  have hsum : ∀ list : List UeSchedulerInfo, (list.map (·.prbReqdForHARQRetransmission)).sum =
      ((list.map (·.bare)).map (·.prbReqdForHARQRetransmission)).sum := by
    intro list
    rw [List.map_map]
    rfl
  unfold SchedulerInfo.retransmission
  rw [hsum, hsum si.list]
  exact (h.map _).sum_eq

/-- The state before the calls of a slot. -/
def slotStart (slotDuration : Binary64) (s : SlotState) : SlotState :=
  ⟨s.si.resetAllocation s.nws slotDuration, s.nws, s.cas, false⟩

theorem prbScheduler_eq {caId : ℕ} {slotDuration : Binary64} {s : SlotState} (hfits : HarqFits s)
    (hne : s.si.list ≠ []) :
    prbScheduler caId slotDuration s =
      s.calls.foldl (fun s call => allocatePrb caId call.1 call.2 s) (slotStart slotDuration s) := by
  have hlt := s.si.prbCount_lt
  unfold HarqFits at hfits
  have hreqd : s.si.totalPRBReqdForHARQRetransmission = s.si.retransmission := by
    have hfold := foldl_u32 s.si.list 0
    have hzero : u32 0 = 0 := rfl
    rw [hzero, Nat.zero_add] at hfold
    have hle : s.si.retransmission < 4294967296 := by omega
    exact hfold.trans (u32_of_lt hle)
  have hleft : sub32 s.si.prbCount s.si.overhead = s.si.prbCount - s.si.overhead :=
    sub32_of_le (by omega) hlt
  have havail : sub32 (s.si.prbCount - s.si.overhead) s.si.retransmission = available s :=
    sub32_of_le (by omega) (by omega)
  have h1 : decide (s.si.prbCount < s.si.overhead) = false := decide_eq_false (by omega)
  have h2 : decide (s.si.prbCount - s.si.overhead < s.si.retransmission) = false :=
    decide_eq_false (by omega)
  unfold prbScheduler
  rw [if_neg hne]
  dsimp only
  rw [hreqd, hleft, havail, h1, h2]
  rfl

theorem foldl_not_completed (caId : ℕ) (calls : List (ℕ × ℕ)) {s : SlotState}
    (h : s.si.isUERRCSetUpCompleted = false) :
    calls.foldl (fun s call => allocatePrb caId call.1 call.2 s) s = s := by
  induction calls with
  | nil => rfl
  | cons call calls ih =>
    have hcall : allocatePrb caId call.1 call.2 s = s := if_pos h
    rw [List.foldl_cons, hcall, ih]

/-- A slot does not change what is to be retransmitted. -/
theorem prbScheduler_retransmission (caId : ℕ) (slotDuration : Binary64) (s : SlotState) :
    (prbScheduler caId slotDuration s).si.retransmission = s.si.retransmission := by
  unfold prbScheduler
  by_cases hne : s.si.list = []
  · rw [if_pos hne]
  · rw [if_neg hne]
    dsimp only
    generalize hw : (decide (s.si.prbCount < s.si.overhead) ||
      decide (sub32 s.si.prbCount s.si.overhead < s.si.totalPRBReqdForHARQRetransmission)) = wrapped
    have hbare := resetAllocation_list_bare s.si s.nws slotDuration
    have hzero := resetAllocation_list_zero s.si s.nws slotDuration
    cases hrrc : s.si.isUERRCSetUpCompleted with
    | false =>
      rw [foldl_not_completed]
      · exact retransmission_bare (.of_eq hbare)
      · exact hrrc
    | true =>
      obtain ⟨hsame, -⟩ := foldl_allocatePrb caId _
        ⟨s.si.resetAllocation s.nws slotDuration, s.nws, s.cas, wrapped⟩ hrrc
        (passes_lt (u32_lt _)) (passes_pairwise s.nws s.si.slotType _)
        (fun _ _ ue hue _ => hzero ue hue)
      exact retransmission_bare (hsame.bare.trans (.of_eq hbare))

/-- A slot without UEs: the scheduler returns at once. -/
theorem prbScheduler_nil (caId : ℕ) (slotDuration : Binary64) {s : SlotState} (hne : s.si.list = []) :
    (prbScheduler caId slotDuration s).wrapped = false ∧
      allocated (prbScheduler caId slotDuration s).si.list = 0 ∧
      (∀ call, CallGrants caId s call 0) ∧
      needs s.nws 0 ((s.si.resetAllocation s.nws slotDuration).firstRanks.order s.nws) = [] := by
  have heq : prbScheduler caId slotDuration s = { s with wrapped := false } := if_pos hne
  have hneeds : ∀ i, needs s.nws i s.si.list = [] := by
    intro i
    rw [hne]
    rfl
  refine ⟨by rw [heq], ?_, ?_, ?_⟩
  · rw [heq]
    apply allocated_of_zero
    rw [hne]
    intro ue hue
    cases hue
  · intro call
    refine ⟨[], ?_, rfl⟩
    rw [hneeds]
  · have hreset := resetAllocation_list_bare s.si s.nws slotDuration
    have hperm : (needs s.nws 0 ((s.si.resetAllocation s.nws slotDuration).firstRanks.order s.nws)).Perm
        (needs s.nws 0 s.si.list) :=
      needs_perm ((firstRanks_order_bare _ s.nws).trans (.of_eq hreset))
    rw [hneeds] at hperm
    exact hperm.eq_nil

/-- **A slot in which the HARQ demand fits**: no subtraction wraps, and the UEs get what the calls
grant. -/
theorem prbScheduler_spec (caId : ℕ) (slotDuration : Binary64) (s : SlotState) (hfits : HarqFits s) :
    (prbScheduler caId slotDuration s).wrapped = false ∧
      (s.si.isUERRCSetUpCompleted = false →
        allocated (prbScheduler caId slotDuration s).si.list = 0) ∧
      (s.si.isUERRCSetUpCompleted = true →
        (∃ gs, List.Forall₂ (CallGrants caId s) s.calls gs ∧
          allocated (prbScheduler caId slotDuration s).si.list = gs.sum) ∧
        (¬ StaticSlices s → allocated (prbScheduler caId slotDuration s).si.list =
          (Budget.serve (fallback caId s.cas) (available s) (needs s.nws 0
            ((s.si.resetAllocation s.nws slotDuration).firstRanks.order s.nws))).sum)) := by
  have hbare := resetAllocation_list_bare s.si s.nws slotDuration
  have hzero := resetAllocation_list_zero s.si s.nws slotDuration
  have havail : available s < 4294967296 := by
    have hlt := s.si.prbCount_lt
    unfold available
    omega
  -- the reset changes no needs
  have hgrants : ∀ call g, CallGrants caId (slotStart slotDuration s) call g → CallGrants caId s call g := by
    rintro call g ⟨ds, hperm, hg⟩
    exact ⟨ds, hperm.trans (needs_perm (.of_eq hbare)), hg⟩
  by_cases hne : s.si.list = []
  · obtain ⟨hwrapped, hnil, hcalls, horder⟩ := prbScheduler_nil caId slotDuration hne
    refine ⟨hwrapped, fun _ => hnil, fun _ => ⟨⟨s.calls.map fun _ => 0, ?_, ?_⟩, ?_⟩⟩
    · rw [List.forall₂_map_right_iff]
      apply List.forall₂_same.2
      intro call _
      exact hcalls call
    · rw [hnil]
      simp
    · intro _
      rw [hnil, horder]
      rfl
  · rw [prbScheduler_eq hfits hne]
    have hstart : allocated (slotStart slotDuration s).si.list = 0 := allocated_of_zero hzero
    cases hrrc : s.si.isUERRCSetUpCompleted with
    | false =>
      -- every call returns at once
      rw [foldl_not_completed caId s.calls (s := slotStart slotDuration s) hrrc]
      exact ⟨rfl, fun _ => hstart, fun h => absurd h (by decide)⟩
    | true =>
      obtain ⟨hsame, gs, hgs, hsum⟩ := foldl_allocatePrb caId s.calls (slotStart slotDuration s) hrrc
        (passes_lt havail) (passes_pairwise _ _ _) (fun _ _ ue hue _ => hzero ue hue)
      rw [hstart, Nat.zero_add] at hsum
      refine ⟨hsame.wrapped, fun h => absurd h (by decide),
        fun _ => ⟨⟨gs, hgs.imp hgrants, hsum⟩, ?_⟩⟩
      intro hstatic
      have hcalls : s.calls = [(available s, 0)] := if_neg hstatic
      obtain ⟨-, hone, -⟩ := allocatePrb_spec caId (available s) 0 (slotStart slotDuration s) hrrc havail
        (fun ue hue _ => hzero ue hue)
      rw [hstart, Nat.zero_add] at hone
      rw [hcalls]
      exact hone

/-! ## The budget -/

theorem within_iff (caId : ℕ) (slotDuration : Binary64) (s : SlotState) :
    Within s (prbScheduler caId slotDuration s) ↔
      allocated (prbScheduler caId slotDuration s).si.list + s.si.retransmission + s.si.overhead ≤
        s.si.prbCount ∧ (prbScheduler caId slotDuration s).wrapped = false := by
  have hretx := prbScheduler_retransmission caId slotDuration s
  have hsum : ((prbScheduler caId slotDuration s).si.list.map fun ue =>
      ue.allocatedPRBCount + ue.prbReqdForHARQRetransmission).sum =
      allocated (prbScheduler caId slotDuration s).si.list + s.si.retransmission := by
    rw [List.sum_map_add, ← hretx]
    rfl
  unfold Within
  rw [hsum]

/-- The HARQ demand has to fit in any case. -/
theorem Within.harqFits {caId : ℕ} {slotDuration : Binary64} {s : SlotState}
    (h : Within s (prbScheduler caId slotDuration s)) : HarqFits s := by
  obtain ⟨hle, -⟩ := (within_iff caId slotDuration s).1 h
  unfold HarqFits
  omega

/-- If it does, all is about what the UEs get for new data. -/
theorem HarqFits.within_iff {caId : ℕ} {slotDuration : Binary64} {s : SlotState} (hfits : HarqFits s) :
    Within s (prbScheduler caId slotDuration s) ↔
      allocated (prbScheduler caId slotDuration s).si.list ≤ available s := by
  obtain ⟨hwrapped, -⟩ := prbScheduler_spec caId slotDuration s hfits
  rw [Prb.within_iff, hwrapped]
  unfold HarqFits at hfits
  unfold available
  constructor
  · rintro ⟨hle, -⟩
    omega
  · intro hle
    exact ⟨by omega, rfl⟩

/-- Grants without a switch to a lower-numbered carrier. -/
theorem callGrants_le {caId : ℕ} {s : SlotState} {call : ℕ × ℕ} {g : ℕ}
    (hdown : (needs s.nws call.2 s.si.list).sum < call.1 ∨
      ∀ d ∈ needs s.nws call.2 s.si.list, d = 0 ∨
        ∀ j ca, j < caId → s.cas[j]? = some ca → ca.prbCount < d)
    (h : CallGrants caId s call g) : g ≤ min (needs s.nws call.2 s.si.list).sum call.1 := by
  obtain ⟨ds, hperm, rfl⟩ := h
  rw [← hperm.sum_eq] at hdown ⊢
  rcases hdown with hlt | hsmall
  · -- no UE reaches the PRBs left, so none asks for a switch
    rw [Budget.sum_serve_of_lt hlt]
    omega
  · apply Budget.sum_serve_le
    intro d hd
    rcases hsmall d (hperm.subset hd) with hd0 | hlow
    · exact .inl hd0
    · right
      rcases fallback_cases caId d s.cas with hnone | hzero | ⟨j, ca, hj, hget, hle, -⟩
      · exact .inl hnone
      · exact .inr hzero
      · exact absurd hle (Nat.not_le.2 (hlow j ca hj hget))

/-- Grants on a carrier without bandwidth parts. -/
theorem callGrants_eq {caId : ℕ} {s : SlotState} {call : ℕ × ℕ} {g : ℕ}
    (hoff : (s.cas[caId]?.any (·.isBwpEnabled)) = false) (h : CallGrants caId s call g) :
    g = min (needs s.nws call.2 s.si.list).sum call.1 := by
  obtain ⟨ds, hperm, rfl⟩ := h
  rw [← hperm.sum_eq]
  exact Budget.sum_serve_of_none fun d _ => fallback_of_disabled hoff d

theorem sum_le_of_forall₂ {α : Type*} {R : α → ℕ → Prop} {f : α → ℕ} {as : List α} {gs : List ℕ}
    (h : List.Forall₂ R as gs) (hR : ∀ a ∈ as, ∀ g, R a g → g ≤ f a) : gs.sum ≤ (as.map f).sum := by
  induction h with
  | nil => exact Nat.le_refl _
  | cons hag _ ih =>
    have hle := hR _ List.mem_cons_self _ hag
    have hrest := ih fun a ha => hR a (List.mem_cons_of_mem _ ha)
    rw [List.sum_cons, List.map_cons, List.sum_cons]
    omega

theorem sum_eq_of_forall₂ {α : Type*} {R : α → ℕ → Prop} {f : α → ℕ} (hR : ∀ a g, R a g → g = f a)
    {as : List α} {gs : List ℕ} (h : List.Forall₂ R as gs) : gs.sum = (as.map f).sum := by
  induction h with
  | nil => rfl
  | cons hag _ ih =>
    rw [List.sum_cons, List.map_cons, List.sum_cons, hR _ _ hag, ih]

/-- Before the RRC set-up is completed no UE gets anything for new data. -/
theorem HarqFits.within_of_completed {caId : ℕ} {slotDuration : Binary64} {s : SlotState} (hfits : HarqFits s)
    (h : s.si.isUERRCSetUpCompleted = true →
      allocated (prbScheduler caId slotDuration s).si.list ≤ available s) :
    Within s (prbScheduler caId slotDuration s) := by
  apply hfits.within_iff.2
  obtain ⟨-, hoff, -⟩ := prbScheduler_spec caId slotDuration s hfits
  cases hrrc : s.si.isUERRCSetUpCompleted with
  | false =>
    rw [hoff hrrc]
    exact Nat.zero_le _
  | true => exact h hrrc

/-- A condition on what the UEs get once the set-up is completed. -/
theorem within_iff_completed {caId : ℕ} {slotDuration : Binary64} {s : SlotState} {P : Prop}
    (h : HarqFits s → s.si.isUERRCSetUpCompleted = true →
      (allocated (prbScheduler caId slotDuration s).si.list ≤ available s ↔ P)) :
    Within s (prbScheduler caId slotDuration s) ↔
      HarqFits s ∧ (s.si.isUERRCSetUpCompleted = true → P) := by
  constructor
  · intro hwithin
    have hfits := hwithin.harqFits
    have hle := hfits.within_iff.1 hwithin
    exact ⟨hfits, fun hrrc => (h hfits hrrc).1 hle⟩
  · rintro ⟨hfits, hP⟩
    apply hfits.within_of_completed
    intro hrrc
    exact (h hfits hrrc).2 (hP hrrc)

theorem within_of_noSwitchDown {caId : ℕ} {slotDuration : Binary64} {s : SlotState} (hfits : HarqFits s)
    (hslices : SlicesFit s) (hdown : NoSwitchDown caId s) :
    Within s (prbScheduler caId slotDuration s) := by
  apply hfits.within_of_completed
  intro hrrc
  obtain ⟨-, -, hon⟩ := prbScheduler_spec caId slotDuration s hfits
  obtain ⟨⟨gs, hgs, hsum⟩, -⟩ := hon hrrc
  rw [hsum]
  have hle := sum_le_of_forall₂ hgs fun call hcall g hg => callGrants_le (hdown call hcall) hg
  exact hle.trans (hslices hrrc)

/-- Without bandwidth parts each call grants the smaller of its needs and its PRBs. -/
theorem allocated_of_disabled {caId : ℕ} {slotDuration : Binary64} {s : SlotState} (hfits : HarqFits s)
    (hrrc : s.si.isUERRCSetUpCompleted = true) (hoff : (s.cas[caId]?.any (·.isBwpEnabled)) = false) :
    allocated (prbScheduler caId slotDuration s).si.list =
      (s.calls.map fun call => min (needs s.nws call.2 s.si.list).sum call.1).sum := by
  obtain ⟨-, -, hon⟩ := prbScheduler_spec caId slotDuration s hfits
  obtain ⟨⟨gs, hgs, hsum⟩, -⟩ := hon hrrc
  rw [hsum]
  exact sum_eq_of_forall₂ (fun _ _ hg => callGrants_eq hoff hg) hgs

/-- No slices, and round robin on one carrier of 10 PRBs without overhead. -/
def tenPrbs (ues : List UeSchedulerInfo) : SlotState where
  si := ⟨10, 0, 0, true, true, .roundRobin, .downlink, [], ues, by decide⟩
  nws := ⟨false, 0, fun _ => 0, 0, 0, .static, fun _ => ⟨.none, ⟨0, 0, 0, 0⟩, ⟨0, 0, 0, 0⟩⟩⟩
  cas := [⟨10, false, 1, [], by decide⟩]
  wrapped := false

/-- A UE with 1000 bytes of new data, or with a block to be transmitted again. -/
def newData (ueId : ℕ) : UeSchedulerInfo := ⟨ueId, 1, 1000, 100, 0, 1, 1, 0, 0, 0⟩
def retransmits (ueId prbs : ℕ) : UeSchedulerInfo := ⟨ueId, 1, 0, 0, prbs, 1, 1, 0, 0, 0⟩

theorem tenPrbs_overhead (ues : List UeSchedulerInfo) : (tenPrbs ues).si.overhead = 0 := by
  have hzero : u32 ⌈((10 : ℕ) * 0 : Binary64).val⌉₊ = 0 := by decide +kernel
  exact hzero

end NetSim.Prb
