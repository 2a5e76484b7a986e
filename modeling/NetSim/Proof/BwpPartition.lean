import NetSim.Lib.Machine
import NetSim.Spec.Carrier
import Mathlib.Algebra.BigOperators.Group.List.Basic
import Mathlib.Algebra.Ring.Nat
import Mathlib.Data.List.Nodup

/-!
# The active lists of the carriers

A switch takes a UE from the list of the scheduled carrier and appends it to that of the
target. It keeps the lists a partition of the UEs exactly if the UE is on the list of the
scheduled carrier, and moves the right UE exactly if the first UE in the order of ranks is
the one that asks: that is the one the scheduler passes on. What is granted is at most the
PRBs of the target in every case (`BwpRun.kept_iff`).
-/

namespace NetSim.Bwp

/-- What the gNB starts with. -/
structure BwpConfig where
  associated : List UeRef
  firstActiveBwpId : UeRef → ℕ
  cas : List Ca
  nodup : associated.Nodup
  empty : ∀ ca ∈ cas, ca.ueList = []

/-- The scheduler of a carrier asks for a switch for the UE `current`, and passes the first UE of
its list. -/
structure Request where
  caId : ℕ
  current1 : UeRef
  current : UeRef
  prbNeeded : ℕ
deriving DecidableEq, Repr

/-- A switch that was made. -/
structure Move where
  requested : UeRef
  moved : UeRef
  carrierPrbCount : ℕ
  granted : ℕ
deriving DecidableEq, Repr

/-- The carriers, with the switches made so far. -/
structure BwpRun where
  cas : List Ca
  moves : List Move

/-- How often a UE is on the active lists. -/
def occurrences (ue : UeRef) (cas : List Ca) : ℕ := (cas.map fun ca => ca.ueList.count ue).sum

/-- The first BWP of each UE is that of exactly one carrier with BWPs. -/
def BwpConfig.UniqueFirstBwp (c : BwpConfig) : Prop :=
  ∀ ue ∈ c.associated, (c.cas.countP fun ca => ca.isBwpEnabled ∧ ca.bwpId = c.firstActiveBwpId ue) = 1

instance (c : BwpConfig) : Decidable c.UniqueFirstBwp :=
  inferInstanceAs (Decidable (∀ ue ∈ c.associated, _ = 1))

namespace BwpRun

def initial (c : BwpConfig) : BwpRun := ⟨gnbPhyInit c.associated c.firstActiveBwpId c.cas, []⟩

/-- The switch that a request leads to. -/
def moveOf (cas : List Ca) (r : Request) : Option Move :=
  (switchTarget r.caId r.prbNeeded cas).1.bind fun i => (cas[i]?).map fun ca =>
    ⟨r.current, r.current1, ca.prbCount,
      ((bwpSwitch r.caId r.current1 r.prbNeeded cas).1.grant r.prbNeeded).1⟩

def step (c : BwpConfig) (s : BwpRun) (r : Request) : Option BwpRun :=
  if r.caId < s.cas.length ∧ r.current1 ∈ c.associated ∧ r.current ∈ c.associated then
    some ⟨(bwpSwitch r.caId r.current1 r.prbNeeded s.cas).2, s.moves ++ (moveOf s.cas r).toList⟩
  else none

def machine (c : BwpConfig) : Machine BwpRun Request := ⟨(· = initial c), step c⟩

/-- **What bandwidth-part switching is to keep.** -/
structure Kept (c : BwpConfig) (s : BwpRun) : Prop where
  partition : ∀ ue ∈ c.associated, occurrences ue s.cas = 1
  right : ∀ m ∈ s.moves, m.moved = m.requested
  bounded : ∀ m ∈ s.moves, m.granted ≤ m.carrierPrbCount

/-- The request leads to no switch, or asks for the first UE of the list and this UE is active on
the carrier. -/
def GoodRequest (s : BwpRun) (r : Request) : Prop :=
  (switchTarget r.caId r.prbNeeded s.cas).1 = none ∨
    (r.current1 = r.current ∧ (s.cas[r.caId]?.any fun ca => r.current1 ∈ ca.ueList) = true)

instance (s : BwpRun) (r : Request) : Decidable (GoodRequest s r) :=
  inferInstanceAs (Decidable (_ ∨ _))

end BwpRun

/-! ## The lists -/

theorem sum_map_modify {α : Type*} (f : α → α) (g : α → ℕ) (l : List α) {i : ℕ} {a : α}
    (h : l[i]? = some a) : ((l.modify i f).map g).sum + g a = (l.map g).sum + g (f a) := by
  induction l generalizing i with
  | nil => cases h
  | cons b l ih =>
    cases i with
    | zero =>
      obtain rfl := Option.some.inj h
      simp only [List.modify_zero_cons, List.map_cons, List.sum_cons]
      omega
    | succ i =>
      have hrest := ih h
      simp only [List.modify_succ_cons, List.map_cons, List.sum_cons]
      omega

variable {cas : List Ca} {caId i : ℕ} {ca : Ca}

theorem occurrences_add (ue curr : UeRef) (h : cas[i]? = some ca) :
    occurrences ue (activeUeInfoAdd curr i cas) = occurrences ue cas + if curr = ue then 1 else 0 := by
  have hsum := sum_map_modify (fun ca => { ca with ueList := ca.ueList ++ [curr] })
    (fun ca => ca.ueList.count ue) cas h
  simp only [List.count_append, List.count_singleton, beq_iff_eq] at hsum
  unfold occurrences activeUeInfoAdd
  omega

theorem occurrences_remove (ue curr : UeRef) (h : cas[i]? = some ca) :
    occurrences ue (activeUeInfoRemove curr i cas) + (if curr = ue ∧ curr ∈ ca.ueList then 1 else 0) =
      occurrences ue cas := by
  have hsum := sum_map_modify (fun ca => { ca with ueList := ca.ueList.erase curr })
    (fun ca => ca.ueList.count ue) cas h
  unfold occurrences activeUeInfoRemove
  by_cases hue : curr = ue
  · subst hue
    by_cases hmem : curr ∈ ca.ueList
    · have hpos : 0 < ca.ueList.count curr := List.count_pos_iff.2 hmem
      simp only [List.count_erase_self] at hsum
      rw [if_pos ⟨rfl, hmem⟩]
      omega
    · rw [if_neg (fun h => hmem h.2)]
      simp only [List.erase_of_not_mem hmem] at hsum
      omega
  · rw [if_neg (fun h => hue h.1)]
    simp only [List.count_erase_of_ne (Ne.symm hue)] at hsum
    omega

/-- A switch takes a UE off the scheduled carrier's list, if it is there, and puts it on the
target's. -/
theorem occurrences_switch (ue curr : UeRef) (hfrom : cas[caId]? = some ca) (hto : i < cas.length) :
    occurrences ue (activeUeInfoAdd curr i (activeUeInfoRemove curr caId cas)) +
        (if curr = ue ∧ curr ∈ ca.ueList then 1 else 0) =
      occurrences ue cas + if curr = ue then 1 else 0 := by
  have hlen : (activeUeInfoRemove curr caId cas).length = cas.length := List.length_modify ..
  have hget : (activeUeInfoRemove curr caId cas)[i]? =
      some (activeUeInfoRemove curr caId cas)[i] := List.getElem?_eq_getElem (hlen ▸ hto)
  have hadd := occurrences_add ue curr hget
  have hremove := occurrences_remove ue curr hfrom
  omega

/-! ## The target -/

/-- A carrier is found. Only a lower-numbered one reports its PRBs, and they do for the need. -/
theorem scanCarriers_found {prbNeeded k max caMax : ℕ} {caNew : Bool} {s : BwpSwitch}
    (h : scanCarriers caId prbNeeded k max caMax caNew cas = .found i s) :
    ∃ j ca, i = k + j ∧ cas[j]? = some ca ∧ s.bwpActive = true ∧
      (s.prbCount = 0 ∨ (i < caId ∧ s.prbCount = ca.prbCount ∧ prbNeeded ≤ ca.prbCount)) := by
  induction cas generalizing k max caMax caNew with
  | nil => cases h
  | cons ca cas ih =>
    unfold scanCarriers at h
    dsimp only at h
    by_cases hfit : prbNeeded ≤ ca.prbCount
    · -- the PRBs are reported only if the scan has not passed the scheduled carrier
      rw [if_pos hfit] at h
      obtain ⟨rfl, rfl⟩ := Scan.found.inj h
      refine ⟨0, ca, rfl, rfl, rfl, ?_⟩
      dsimp only
      by_cases hle : caId ≤ k
      · rw [if_pos hle]
        exact .inl rfl
      · rw [if_neg hle]
        exact .inr ⟨Nat.lt_of_not_le hle, rfl, hfit⟩
    · rw [if_neg hfit] at h
      by_cases hmax : max < ca.prbCount
      · rw [if_pos hmax] at h
        obtain ⟨j, ca', rfl, hget, hrest⟩ := ih h
        exact ⟨j + 1, ca', by omega, hget, hrest⟩
      · rw [if_neg hmax] at h
        obtain ⟨j, ca', rfl, hget, hrest⟩ := ih h
        exact ⟨j + 1, ca', by omega, hget, hrest⟩

theorem scanCarriers_largest {prbNeeded k max caMax m : ℕ} {caNew : Bool} {s : BwpSwitch}
    (h : scanCarriers caId prbNeeded k max caMax caNew cas = .largest m s) :
    s.prbCount = 0 ∧ s.bwpActive = false ∧ (m = caMax ∨ m < k + cas.length) := by
  induction cas generalizing k max caMax caNew with
  | nil =>
    obtain ⟨rfl, rfl⟩ := Scan.largest.inj h
    exact ⟨rfl, rfl, .inl rfl⟩
  | cons ca cas ih =>
    unfold scanCarriers at h
    dsimp only at h
    rw [List.length_cons]
    by_cases hfit : prbNeeded ≤ ca.prbCount
    · rw [if_pos hfit] at h
      cases h
    · rw [if_neg hfit] at h
      by_cases hmax : max < ca.prbCount
      · rw [if_pos hmax] at h
        obtain ⟨hprb, hact, hm⟩ := ih h
        exact ⟨hprb, hact, .inr (by omega)⟩
      · rw [if_neg hmax] at h
        obtain ⟨hprb, hact, hm⟩ := ih h
        exact ⟨hprb, hact, by omega⟩

/-- The target is a carrier of the gNB. A switch that reports PRBs goes to a lower-numbered carrier
that has the PRBs needed. -/
theorem switchTarget_some {prbNeeded : ℕ} {s : BwpSwitch} (hca : caId < cas.length)
    (h : switchTarget caId prbNeeded cas = (some i, s)) :
    ∃ ca, cas[i]? = some ca ∧ s.bwpActive = true ∧
      (s.prbCount = 0 ∨ (i < caId ∧ s.prbCount = ca.prbCount ∧ prbNeeded ≤ ca.prbCount)) := by
  unfold switchTarget at h
  by_cases hen : (cas[caId]?.any (·.isBwpEnabled)) = true
  · rw [if_pos hen] at h
    cases hscan : scanCarriers caId prbNeeded 0 0 0 false cas with
    | found j sw =>
      rw [hscan] at h
      obtain ⟨hi, rfl⟩ := Prod.mk.inj h
      obtain rfl := Option.some.inj hi
      obtain ⟨k, ca, rfl, hget, hrest⟩ := scanCarriers_found hscan
      rw [Nat.zero_add] at hrest ⊢
      exact ⟨ca, hget, hrest⟩
    | largest m sw =>
      rw [hscan] at h
      dsimp only at h
      obtain ⟨hprb, -, hm⟩ := scanCarriers_largest hscan
      by_cases hne : m ≠ caId
      · -- the largest carrier, without PRBs reported
        rw [if_pos hne] at h
        obtain ⟨hi, rfl⟩ := Prod.mk.inj h
        obtain rfl := Option.some.inj hi
        have hlt : m < cas.length := by omega
        exact ⟨cas[m], List.getElem?_eq_getElem hlt, rfl, .inl hprb⟩
      · rw [if_neg hne] at h
        cases h
  · rw [if_neg hen] at h
    cases h

/-- No switch: nothing is active and nothing is reported. -/
theorem switchTarget_none {prbNeeded : ℕ} {s : BwpSwitch}
    (h : switchTarget caId prbNeeded cas = (none, s)) : s.bwpActive = false ∧ s.prbCount = 0 := by
  unfold switchTarget at h
  by_cases hen : (cas[caId]?.any (·.isBwpEnabled)) = true
  · rw [if_pos hen] at h
    cases hscan : scanCarriers caId prbNeeded 0 0 0 false cas with
    | found j sw =>
      rw [hscan] at h
      cases h
    | largest m sw =>
      rw [hscan] at h
      dsimp only at h
      obtain ⟨hprb, hact, -⟩ := scanCarriers_largest hscan
      by_cases hne : m ≠ caId
      · rw [if_pos hne] at h
        cases h
      · rw [if_neg hne] at h
        obtain ⟨-, rfl⟩ := Prod.mk.inj h
        exact ⟨hact, hprb⟩
  · rw [if_neg hen] at h
    obtain ⟨-, rfl⟩ := Prod.mk.inj h
    exact ⟨rfl, rfl⟩

theorem grant_le (s : BwpSwitch) (prbAllocation : ℕ) : (s.grant prbAllocation).1 ≤ s.prbCount := by
  by_cases h : s.prbCount < prbAllocation
  · have hgrant : s.grant prbAllocation = (s.prbCount, 0) := if_pos h
    exact Nat.le_of_eq (congrArg Prod.fst hgrant)
  · have hgrant : s.grant prbAllocation = (prbAllocation, s.prbCount - prbAllocation) := if_neg h
    have hle : prbAllocation ≤ s.prbCount := Nat.le_of_not_lt h
    rw [hgrant]
    exact hle

namespace BwpRun

variable {c : BwpConfig} {s s' : BwpRun} {r : Request}

/-- What a request does: nothing, or one move to a carrier of the gNB. -/
theorem step_cases (h : step c s r = some s') :
    r.current1 ∈ c.associated ∧ (∃ ca : Ca, s.cas[r.caId]? = some ca) ∧
      (((switchTarget r.caId r.prbNeeded s.cas).1 = none ∧ s' = s) ∨
        ∃ (i : ℕ) (ca : Ca) (granted : ℕ), i < s.cas.length ∧ (switchTarget r.caId r.prbNeeded s.cas).1 ≠ none ∧
          granted ≤ ca.prbCount ∧
          s'.cas = activeUeInfoAdd r.current1 i (activeUeInfoRemove r.current1 r.caId s.cas) ∧
          s'.moves = s.moves ++ [⟨r.current, r.current1, ca.prbCount, granted⟩]) := by
  unfold step at h
  by_cases hguard : r.caId < s.cas.length ∧ r.current1 ∈ c.associated ∧ r.current ∈ c.associated
  · rw [if_pos hguard] at h
    obtain ⟨hca, hfirst, -⟩ := hguard
    rw [← Option.some.inj h]
    refine ⟨hfirst, ⟨_, List.getElem?_eq_getElem hca⟩, ?_⟩
    unfold moveOf bwpSwitch
    rcases hswitch : switchTarget r.caId r.prbNeeded s.cas with ⟨target, sw⟩
    cases target with
    | none =>
      left
      exact ⟨rfl, by simp⟩
    | some i =>
      right
      obtain ⟨ca, hget, -, hprb⟩ := switchTarget_some hca hswitch
      have hle : sw.prbCount ≤ ca.prbCount := by omega
      have hlt : i < s.cas.length := (List.getElem?_eq_some_iff.1 hget).1
      refine ⟨i, ca, (sw.grant r.prbNeeded).1, hlt, by simp, Nat.le_trans (grant_le _ _) hle, rfl, ?_⟩
      simp [hget]
  · rw [if_neg hguard] at h
    cases h

/-- Every grant after a switch fits the carrier. -/
theorem step_bounded (h : step c s r = some s')
    (hb : ∀ m ∈ s.moves, m.granted ≤ m.carrierPrbCount) :
    ∀ m ∈ s'.moves, m.granted ≤ m.carrierPrbCount := by
  obtain ⟨-, -, ⟨-, rfl⟩ | ⟨i, ca, granted, -, -, hle, -, hmoves⟩⟩ := step_cases h
  · exact hb
  · rw [hmoves]
    intro m hm
    rcases List.mem_append.1 hm with hm | hm
    · exact hb m hm
    · obtain rfl := List.mem_singleton.1 hm
      exact hle

/-- **A request keeps the lists exactly if it is a good one.** -/
theorem step_kept_iff (h : step c s r = some s') (hk : Kept c s) : Kept c s' ↔ GoodRequest s r := by
  have hbounded := step_bounded h hk.bounded
  obtain ⟨hfirst, ⟨ca, hca⟩, ⟨hnone, rfl⟩ | ⟨i, ca', granted, hi, hsome, -, hcas, hmoves⟩⟩ := step_cases h
  · exact ⟨fun _ => .inl hnone, fun _ => hk⟩
  · have hocc := fun ue => occurrences_switch ue r.current1 hca hi
    rw [← hcas] at hocc
    have hon : (s.cas[r.caId]?.any fun ca => r.current1 ∈ ca.ueList) = true ↔
        r.current1 ∈ ca.ueList := by
      rw [hca]
      simp
    unfold GoodRequest
    rw [hon]
    constructor
    · intro hk'
      right
      have hlast := hk'.right ⟨r.current, r.current1, ca'.prbCount, granted⟩ (by simp [hmoves])
      refine ⟨hlast, ?_⟩
      by_contra hmem
      -- the UE would be on two lists
      have hold := hk.partition _ hfirst
      have hnew := hk'.partition _ hfirst
      have hcount := hocc r.current1
      rw [if_neg (fun h => hmem h.2), if_pos rfl] at hcount
      omega
    · rintro (hnone | ⟨heq, hmem⟩)
      · exact absurd hnone hsome
      · refine ⟨?_, ?_, hbounded⟩
        · intro ue hue
          have hold := hk.partition ue hue
          have hcount := hocc ue
          by_cases hcurr : r.current1 = ue
          · rw [if_pos ⟨hcurr, hmem⟩, if_pos hcurr] at hcount
            omega
          · rw [if_neg (fun h => hcurr h.1), if_neg hcurr] at hcount
            omega
        · rw [hmoves]
          intro m hm
          rcases List.mem_append.1 hm with hm | hm
          · exact hk.right m hm
          · obtain rfl := List.mem_singleton.1 hm
            exact heq

/-- `LTENR_form_active_ue_list` puts a UE on the empty list of a carrier with BWPs once if its first BWP
is that of the carrier. -/
theorem count_formActiveUeList (c : BwpConfig) {ue : UeRef} (hue : ue ∈ c.associated) {ca : Ca}
    (hnil : ca.ueList = []) :
    (if ca.isBwpEnabled = true then
      formActiveUeList c.associated c.firstActiveBwpId ca else ca).ueList.count ue =
      if ca.isBwpEnabled = true ∧ ca.bwpId = c.firstActiveBwpId ue then 1 else 0 := by
  by_cases hen : ca.isBwpEnabled = true
  · rw [if_pos hen]
    unfold formActiveUeList
    dsimp only
    rw [hnil, List.nil_append]
    by_cases hid : c.firstActiveBwpId ue = ca.bwpId
    · rw [if_pos ⟨hen, hid.symm⟩, List.count_filter (by simpa using hid)]
      exact List.count_eq_one_of_mem c.nodup hue
    · rw [if_neg (fun h => hid h.2.symm)]
      apply List.count_eq_zero_of_not_mem
      intro hmem
      exact hid (by simpa using (List.mem_filter.1 hmem).2)
  · rw [if_neg hen, if_neg (fun h => hen h.1), hnil, List.count_nil]

/-- At first a UE is on the lists of the carriers with BWPs that have its first BWP. -/
theorem occurrences_initial (c : BwpConfig) {ue : UeRef} (hue : ue ∈ c.associated) :
    occurrences ue (initial c).cas =
      c.cas.countP fun ca => ca.isBwpEnabled ∧ ca.bwpId = c.firstActiveBwpId ue := by
  have hempty := c.empty
  unfold occurrences initial gnbPhyInit
  dsimp only
  generalize c.cas = cas at hempty
  induction cas with
  | nil => rfl
  | cons ca cas ih =>
    have hrest := ih fun ca hca => hempty ca (List.mem_cons_of_mem _ hca)
    have hcount := count_formActiveUeList c hue (hempty ca List.mem_cons_self)
    rw [List.map_cons, List.map_cons, List.sum_cons, hrest, List.countP_cons, hcount]
    simp only [decide_eq_true_eq]
    omega

theorem kept_initial_iff (c : BwpConfig) : Kept c (initial c) ↔ c.UniqueFirstBwp := by
  constructor
  · intro hk ue hue
    rw [← occurrences_initial c hue]
    exact hk.partition ue hue
  · intro hfirst
    refine ⟨?_, ?_, ?_⟩
    · intro ue hue
      rw [occurrences_initial c hue]
      exact hfirst ue hue
    · intro m hm
      cases hm
    · intro m hm
      cases hm

/-- **When bandwidth-part switching keeps the lists and moves the right UE**: at the start exactly
if the first BWPs are unique; then in every run of good requests; and a state that is kept is left
by exactly the other requests. -/
theorem kept_iff (c : BwpConfig) :
    (Kept c (initial c) ↔ c.UniqueFirstBwp) ∧
      (c.UniqueFirstBwp → ∀ s, (machine c).ReachOn GoodRequest s → Kept c s) ∧
      ∀ s r s', Kept c s → (machine c).step s r = some s' → (Kept c s' ↔ GoodRequest s r) := by
  refine ⟨kept_initial_iff c, ?_, ?_⟩
  · intro hfirst s h
    apply h.inv
    · rintro _ rfl
      exact (kept_initial_iff c).2 hfirst
    · intro s r s' hk hgood hs
      exact (step_kept_iff hs hk).2 hgood
  · intro s r s' hk hs
    exact step_kept_iff hs hk

/-- Two carriers with BWPs of 50 and 100 PRBs, and two UEs on the first. -/
def twoCarriers : BwpConfig :=
  ⟨[⟨1, 1⟩, ⟨2, 1⟩], fun _ => 1, [⟨50, true, 1, [], by decide⟩, ⟨100, true, 2, [], by decide⟩], by decide, by decide⟩

/-- The UE at the head of the list asks. -/
def headAsks : Request := ⟨0, ⟨1, 1⟩, ⟨1, 1⟩, 60⟩

theorem kept_iff_headAsks : ∃ s, (machine twoCarriers).ReachOn GoodRequest s ∧
    s.moves.length = 1 ∧ Kept twoCarriers s := by
  obtain ⟨s, hs, hlen⟩ := Machine.ReachOn.exists_of_execOn GoodRequest
    (P := fun s : BwpRun => s.moves.length = 1) [headAsks]
    (Machine.ReachOn.init rfl : (machine twoCarriers).ReachOn GoodRequest (initial twoCarriers))
    (by decide)
  exact ⟨s, hs, hlen, (kept_iff twoCarriers).2.1 (by decide) s hs⟩

/-- The second UE asks, and the first is moved. -/
theorem wrong_ue_moved : ¬ ∀ (c : BwpConfig) (s : BwpRun), c.UniqueFirstBwp → (machine c).Reach s →
    Kept c s := by
  intro hall
  obtain ⟨s, hs, m, hm, hne⟩ := Machine.Reach.exists_of_exec
    (P := fun s : BwpRun => ∃ m ∈ s.moves, m.moved ≠ m.requested) [⟨0, ⟨1, 1⟩, ⟨2, 1⟩, 60⟩]
    (Machine.ReachOn.init rfl : (machine twoCarriers).Reach (initial twoCarriers)) (by decide)
  exact hne ((hall twoCarriers s (by decide) hs).right m hm)

end BwpRun

end NetSim.Bwp
