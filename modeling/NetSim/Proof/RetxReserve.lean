import Mathlib.Algebra.BigOperators.Group.List.Basic
import Mathlib.Order.MinMax
import NetSim.Spec.Harq

/-!
# The PRBs reserved for a retransmission

`CalculatePendingData` divides the bits that a layer has to send again by its bits per PRB and forgets the remainder. The
PRBs that it reserves are those of the layer that requires most.

* `le_pendingLayers_iff`: what the largest layer requires.
* `retx_suffices_iff`: when the PRBs suffice for each layer.
-/

namespace NetSim.Harq.HarqProcess

open Word

variable {amcInfo : List AmcInfo} {l : List HarqBuffer} {r : List HarqBuffer × ℕ}

/-- The bits that a layer has to send again: all code blocks of its failed groups. -/
def failedBits (amc : AmcInfo) (b : HarqBuffer) : ℕ :=
  ((b.cbgList.filter fun g => g.isErrored = .error).map fun g => g.cbErrorStatus.length * amc.cbs_).sum

/-- The PRBs that a layer by itself makes `CalculatePendingData` reserve. -/
def quotient (amc : AmcInfo) (b : HarqBuffer) : ℕ := u32 (failedBits amc b) / b.bitsPerPRB

/-- **The PRBs suffice**: they are computed, and on each layer they have room for the bits to send again. -/
def Suffices (amcInfo : List AmcInfo) (p : HarqProcess) : Prop :=
  ∃ p', p.calculatePendingData amcInfo = some p' ∧
    ∀ x ∈ amcInfo.zip p.transmissionBuffer, failedBits x.1 x.2 ≤ p'.prbReqdForRetx * x.2.bitsPerPRB

/-- No layer is cut short: its bits make whole PRBs and fit their counter, or some layer makes up for the PRB it lacks. -/
def NothingCut (amcInfo : List AmcInfo) (p : HarqProcess) : Prop :=
  ∀ x ∈ amcInfo.zip p.transmissionBuffer,
    x.2.bitsPerPRB ∣ failedBits x.1 x.2 ∧ failedBits x.1 x.2 < 4294967296 ∨
      ∃ y ∈ amcInfo.zip p.transmissionBuffer,
        (failedBits x.1 x.2 + x.2.bitsPerPRB - 1) / x.2.bitsPerPRB ≤ quotient y.1 y.2

/-- `PendingSize` is the failed bits, in 32 bits. -/
theorem pendingSizeOf_eq (amc : AmcInfo) (b : HarqBuffer) : pendingSizeOf amc b = u32 (failedBits amc b) := by
  have hfold : ∀ (groups : List Cbg) (n : ℕ), groups.foldl (fun size g =>
      if g.isErrored = .error then u32 (size + g.cbErrorStatus.length * amc.cbs_) else size) (u32 n) =
      u32 (n + ((groups.filter fun g => g.isErrored = .error).map fun g => g.cbErrorStatus.length * amc.cbs_).sum) := by
    intro groups
    induction groups with
    | nil => exact fun n => rfl
    | cons g groups ih =>
      intro n
      rw [List.foldl_cons]
      by_cases herr : g.isErrored = .error
      · have hsum : u32 (u32 n + g.cbErrorStatus.length * amc.cbs_) = u32 (n + g.cbErrorStatus.length * amc.cbs_) := by
          unfold u32
          rw [Nat.mod_add_mod]
        have hfilter : (g :: groups).filter (fun g => g.isErrored = .error) =
            g :: groups.filter fun g => g.isErrored = .error := List.filter_cons_of_pos (decide_eq_true herr)
        rw [if_pos herr, hsum, ih, hfilter, List.map_cons, List.sum_cons, Nat.add_assoc]
      · have hfilter : (g :: groups).filter (fun g => g.isErrored = .error) =
            groups.filter fun g => g.isErrored = .error := List.filter_cons_of_neg (by simpa using herr)
        rw [if_neg herr, ih, hfilter]
  have h := hfold b.cbgList 0
  rw [Nat.zero_add] at h
  exact h

/-- The division is by no zero. -/
theorem pendingLayers_isSome (hlen : l.length ≤ amcInfo.length) (hpos : ∀ b ∈ l, 0 < b.bitsPerPRB) :
    ∃ r, pendingLayers amcInfo l = some r := by
  induction l generalizing amcInfo with
  | nil => cases amcInfo <;> exact ⟨_, rfl⟩
  | cons b l ih =>
    obtain ⟨hb, hl⟩ := List.forall_mem_cons.1 hpos
    cases amcInfo with
    | nil => exact absurd hlen (by simp)
    | cons amc amcs =>
      obtain ⟨r, hr⟩ := ih (Nat.le_of_succ_le_succ hlen) hl
      unfold pendingLayers
      rw [if_neg (by omega), hr]
      exact ⟨_, rfl⟩

/-- **The largest layer** decides. -/
theorem le_pendingLayers_iff (h : pendingLayers amcInfo l = some r) (k : ℕ) :
    k ≤ r.2 ↔ k = 0 ∨ ∃ x ∈ amcInfo.zip l, k ≤ quotient x.1 x.2 := by
  induction l generalizing amcInfo r with
  | nil =>
    have hr : some ([], 0) = some r := by
      cases amcInfo <;> exact h
    rw [← Option.some.inj hr, List.zip_nil_right]
    simp
  | cons b l ih =>
    cases amcInfo with
    | nil => cases h
    | cons amc amcs =>
      unfold pendingLayers at h
      dsimp only at h
      split at h
      · cases h
      · obtain ⟨r', hr', rfl⟩ := Option.map_eq_some_iff.1 h
        have hq : pendingSizeOf amc b / b.bitsPerPRB = quotient amc b := by
          unfold quotient
          rw [pendingSizeOf_eq]
        dsimp only
        rw [hq, le_max_iff, ih hr', List.zip_cons_cons, List.exists_mem_cons_iff]
        exact or_left_comm

/-- **The PRBs reserved for a retransmission suffice if and only if nothing is cut.** -/
theorem retx_suffices_iff (amcInfo : List AmcInfo) (p : HarqProcess)
    (hlen : p.transmissionBuffer.length ≤ amcInfo.length) (hpos : ∀ b ∈ p.transmissionBuffer, 0 < b.bitsPerPRB) :
    Suffices amcInfo p ↔ NothingCut amcInfo p := by
  obtain ⟨r, hr⟩ := pendingLayers_isSome hlen hpos
  have hcalc : p.calculatePendingData amcInfo = some { p with transmissionBuffer := r.1, prbReqdForRetx := r.2 } := by
    unfold calculatePendingData
    rw [hr]
    rfl
  -- the PRBs suffice for a layer if there are as many as its bits take, rounded up
  have hlayer : ∀ x ∈ amcInfo.zip p.transmissionBuffer,
      (failedBits x.1 x.2 ≤ r.2 * x.2.bitsPerPRB ↔
        (failedBits x.1 x.2 + x.2.bitsPerPRB - 1) / x.2.bitsPerPRB ≤ r.2) := by
    intro x hx
    have hb := hpos x.2 (List.of_mem_zip hx).2
    rw [Nat.div_le_iff_le_mul_add_pred hb, Nat.mul_comm]
    omega
  have hmax := le_pendingLayers_iff hr
  constructor
  · rintro ⟨p', hp', hall⟩ x hx
    obtain rfl := Option.some.inj (hcalc.symm.trans hp')
    have hroom := (hlayer x hx).1 (hall x hx)
    rcases (hmax _).1 hroom with hzero | ⟨y, hy, hle⟩
    · exact .inr ⟨x, hx, by rw [hzero]; exact Nat.zero_le _⟩
    · exact .inr ⟨y, hy, hle⟩
  · intro hcut
    refine ⟨_, hcalc, fun x hx => ?_⟩
    have hb := hpos x.2 (List.of_mem_zip hx).2
    rcases hcut x hx with ⟨hdvd, hlt⟩ | ⟨y, hy, hle⟩
    · have hq : failedBits x.1 x.2 / x.2.bitsPerPRB ≤ r.2 := by
        apply (hmax _).2
        refine .inr ⟨x, hx, ?_⟩
        unfold quotient
        rw [u32_of_lt hlt]
      calc failedBits x.1 x.2 = failedBits x.1 x.2 / x.2.bitsPerPRB * x.2.bitsPerPRB := (Nat.div_mul_cancel hdvd).symm
        _ ≤ r.2 * x.2.bitsPerPRB := Nat.mul_le_mul_right _ hq
    · exact (hlayer x hx).2 ((hmax _).2 (.inr ⟨y, hy, hle⟩))

/-- A code block of 100 bits. -/
def blockOf100 : AmcInfo := ⟨1, 100, Nat.one_pos⟩

/-- A process with one layer, whose only code block has failed. -/
def oneFailed (bitsPerPRB : ℕ) : HarqProcess :=
  { HarqProcess.init with transmissionBuffer := [⟨bitsPerPRB, .error, 0, [⟨[.error], .error⟩]⟩] }

theorem retx_suffices_sample : Suffices [blockOf100] (oneFailed 50) ↔ NothingCut [blockOf100] (oneFailed 50) :=
  retx_suffices_iff [blockOf100] (oneFailed 50) (by decide) (by decide)

/-- **Cut short.** For 100 bits to send again at 60 bits per PRB, one PRB is reserved. -/
theorem retx_cut :
    ((oneFailed 60).calculatePendingData [blockOf100]).map (·.prbReqdForRetx) = some 1 ∧
      ¬ Suffices [blockOf100] (oneFailed 60) := by
  have hone : ((oneFailed 60).calculatePendingData [blockOf100]).map (·.prbReqdForRetx) = some 1 := by decide
  refine ⟨hone, ?_⟩
  rintro ⟨p', hp', hall⟩
  rw [hp'] at hone
  have hprb : p'.prbReqdForRetx = 1 := Option.some.inj hone
  have hle := hall _ List.mem_cons_self
  rw [hprb] at hle
  exact absurd hle (by decide)

end NetSim.Harq.HarqProcess
