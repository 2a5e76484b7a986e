import Mathlib.Tactic.Linarith
import NetSim.Spec.Measurement

/-!
# When a measurement report leads to a handover

A handover is due when some neighbour has been better than the serving cell by the margin
for the time-to-trigger. The report handler never names a target, so it initiates none, and
its verdict is right exactly when none is due (`right_iff`).
-/

namespace NetSim.Rrc

/-- The SINR that some reports give for a cell. -/
def sinrOf (reports : List MeasurementReport) (cell : ℕ) : Option ℚ :=
  (reports.find? fun r => r.cellID = cell).map (·.sinr)

/-- A neighbour is better than the serving cell by the margin. -/
def MarginMet (rrc : GnbRrc) (reports : List MeasurementReport) (cell : ℕ) : Prop :=
  cell ≠ rrc.d ∧ ∃ sinr, sinrOf reports cell = some sinr ∧
    sinr - servingSinr rrc.d reports > rrc.handoverMargin

/-- **A neighbour qualifies** at the measurement `m` after `history`: it has met the margin in
every measurement from some `start` on, which came a time-to-trigger ago. -/
def Qualifies (rrc : GnbRrc) (history : List Measurement) (m : Measurement) (cell : ℕ) : Prop :=
  ∃ pre start post, history ++ [m] = pre ++ start :: post ∧
    (∀ x ∈ start :: post, MarginMet rrc x.reports cell) ∧
    rrc.ttt * millisecond ≤ m.time - start.time

/-- The verdict at `m` is right: a handover is initiated exactly if some neighbour qualifies, and
the target is one with the highest SINR. -/
structure Right (rrc : GnbRrc) (history : List Measurement) (m : Measurement) (target : Option ℕ) :
    Prop where
  isSome_iff : target.isSome = true ↔ ∃ cell, Qualifies rrc history m cell
  best : ∀ cell, target = some cell → Qualifies rrc history m cell ∧
    ∀ other, Qualifies rrc history m other → ∀ sinr sinr', sinrOf m.reports cell = some sinr →
      sinrOf m.reports other = some sinr' → sinr' ≤ sinr

/-- The verdict of the report handler at `m`. -/
def GnbRrc.verdict (rrc : GnbRrc) (ue : ℕ) (history : List Measurement) (m : Measurement) : Option ℕ :=
  (ueMeasurementRecv (rrc.after ue history) ue m.time m.reports).2

theorem ueMeasurementRecv_none (rrc : GnbRrc) (ue : ℕ) (now : ℚ) (reports : List MeasurementReport) :
    (ueMeasurementRecv rrc ue now reports).2 = none := by
  unfold ueMeasurementRecv
  dsimp only
  rw [if_neg]
  rintro ⟨-, hpos, -⟩
  exact absurd hpos (Nat.lt_irrefl 0)

/-- **The verdict is right exactly when no neighbour qualifies.** -/
theorem right_iff (rrc : GnbRrc) (ue : ℕ) (history : List Measurement) (m : Measurement) :
    Right rrc history m (rrc.verdict ue history m) ↔ ¬ ∃ cell, Qualifies rrc history m cell := by
  have hnone : rrc.verdict ue history m = none := ueMeasurementRecv_none _ _ _ _
  rw [hnone]
  constructor
  · intro h hex
    have hsome := h.isSome_iff.2 hex
    cases hsome
  · intro hnot
    constructor
    · constructor
      · intro hsome
        cases hsome
      · intro hex
        exact absurd hex hnot
    · intro cell hcell
      cases hcell

/-- Cell 1 serves, with a margin of 3 dB and a time-to-trigger of 320 ms. -/
def twoCells : GnbRrc := (⟨1, 3, 320, []⟩ : GnbRrc).conditionalHoTttMatrixAdd 7 1 [1, 2]

/-- Cell 2 is 10 dB better. -/
def cell2Better : List MeasurementReport := [⟨1, 5⟩, ⟨2, 15⟩]

/-- It has been better for 360 ms when the next measurement comes. -/
def betterFor360ms : List Measurement := [⟨0, cell2Better⟩, ⟨120000, cell2Better⟩, ⟨240000, cell2Better⟩]

theorem qualifies_betterFor360ms : Qualifies twoCells betterFor360ms ⟨360000, cell2Better⟩ 2 := by
  refine ⟨[], ⟨0, cell2Better⟩,
    [⟨120000, cell2Better⟩, ⟨240000, cell2Better⟩, ⟨360000, cell2Better⟩], rfl, ?_, by decide +kernel⟩
  have hmet : MarginMet twoCells cell2Better 2 := ⟨by decide, 15, rfl, by decide +kernel⟩
  intro x hx
  simp only [List.mem_cons, List.not_mem_nil, or_false] at hx
  rcases hx with rfl | rfl | rfl | rfl <;> exact hmet

/-- No handover is initiated, though cell 2 qualifies. -/
theorem handover_missed : ¬ ∀ (rrc : GnbRrc) (ue : ℕ) (history : List Measurement) (m : Measurement),
    Right rrc history m (rrc.verdict ue history m) := by
  intro hall
  have hright := hall twoCells 7 betterFor360ms ⟨360000, cell2Better⟩
  have hsome := hright.isSome_iff.2 ⟨2, qualifies_betterFor360ms⟩
  have hnone : twoCells.verdict 7 betterFor360ms ⟨360000, cell2Better⟩ = none :=
    ueMeasurementRecv_none _ _ _ _
  rw [hnone] at hsome
  cases hsome

end NetSim.Rrc

/-!
## The entries of the matrix

An update changes the entry that it is for, in the rows that have it, and no other.
-/

namespace NetSim.Rrc

variable {ue : ℕ}

theorem rowSet_eq_none_iff {target : ℕ} {value : ℚ} {row : List HoTrigger} :
    rowSet target value row = none ↔ rowFind target row = none := by
  induction row with
  | nil => simp [rowSet, rowFind]
  | cons g gs ih =>
    unfold rowSet rowFind
    by_cases h : g.gnbID = target
    · simp [h]
    · simp [h, ih]

theorem rowFind_rowSet {target : ℕ} {value : ℚ} {row row' : List HoTrigger}
    (h : rowSet target value row = some row') (c : ℕ) :
    rowFind c row' = if c = target then some value else rowFind c row := by
  induction row generalizing row' with
  | nil => cases h
  | cons g gs ih =>
    unfold rowSet at h
    by_cases hg : g.gnbID = target
    · rw [if_pos hg] at h
      obtain rfl := Option.some.inj h
      unfold rowFind
      dsimp only
      rw [hg]
      by_cases hc : c = target
      · rw [if_pos hc.symm, if_pos hc]
      · rw [if_neg (Ne.symm hc), if_neg hc, if_neg (Ne.symm hc)]
    · rw [if_neg hg] at h
      obtain ⟨gs', hgs, rfl⟩ := Option.map_eq_some_iff.1 h
      unfold rowFind
      rw [ih hgs]
      by_cases hc : g.gnbID = c
      · rw [if_pos hc, if_pos hc, if_neg]
        exact fun heq => hg (hc.trans heq)
      · rw [if_neg hc, if_neg hc]

/-- Setting an entry changes no other. -/
theorem matrixFind_set_ne {target c : ℕ} (hc : c ≠ target) (value : ℚ) (matrix : List TttRow) :
    matrixFind ue c (conditionalHoTttMatrixSet ue target value matrix) = matrixFind ue c matrix := by
  induction matrix with
  | nil => rfl
  | cons row rows ih =>
    unfold conditionalHoTttMatrixSet
    by_cases hrow : row.ueID = ue
    · rw [if_pos hrow]
      cases hset : rowSet target value row.gnbHoTrigger with
      | none =>
        dsimp only
        simp only [matrixFind, ih]
      | some triggers =>
        have hfind := rowFind_rowSet hset c
        rw [if_neg hc] at hfind
        dsimp only
        simp only [matrixFind, hfind]
    · rw [if_neg hrow]
      simp only [matrixFind, ih]

theorem matrixFind_set_self {target : ℕ} (value : ℚ) {matrix : List TttRow}
    (h : (matrixFind ue target matrix).isSome = true) :
    matrixFind ue target (conditionalHoTttMatrixSet ue target value matrix) = some value := by
  induction matrix with
  | nil => cases h
  | cons row rows ih =>
    unfold conditionalHoTttMatrixSet
    by_cases hrow : row.ueID = ue
    · rw [if_pos hrow]
      cases hset : rowSet target value row.gnbHoTrigger with
      | none =>
        -- the row of the UE does not have the cell
        have hnone := rowSet_eq_none_iff.1 hset
        simp only [matrixFind, if_pos hrow, hnone] at h ⊢
        exact ih h
      | some triggers =>
        have hfind := rowFind_rowSet hset target
        rw [if_pos rfl] at hfind
        simp only [matrixFind, if_pos hrow, hfind]
    · rw [if_neg hrow]
      simp only [matrixFind, if_neg hrow] at h ⊢
      exact ih h

end NetSim.Rrc
