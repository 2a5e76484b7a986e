import Mathlib.Data.List.Nodup
import Mathlib.Logic.Function.Basic
import NetSim.Lib.Machine
import NetSim.Proof.TriggerMatrix

/-!
# The time-to-trigger matrix as a finite map

A gNB's matrix beside the finite map that it stands for, from each UE that has been added to its trigger times. A removal
walks to the row of the UE and makes what is behind that row the whole matrix, so all rows before it are lost too, and all
rows if the UE has none. The matrix stands for the map as long as only the UE of the first row is removed.

* `StandsFor.add`, `StandsFor.set`, `StandsFor.remove`: one step each.
* `matrix_is_map`: in all runs whose steps are allowed.
* `removal_drops_others`: a removal of the second UE.
-/

namespace NetSim.Rrc

/-- What happens to the matrix of a gNB. -/
inductive MatrixEvent
  /-- `LTENR_PHY_associateUE`. -/
  | add (ue ueIf : ℕ)
  /-- `LTENR_PHY_deassociateUE`. -/
  | remove (ue ueIf : ℕ)
  | set (ue target : ℕ) (value : ℚ)

/-- A gNB, and the trigger times of the UEs added: not set at first, and then as last set. -/
structure MatrixRun where
  rrc : GnbRrc
  map : ℕ → Option (ℕ → ℚ)

namespace MatrixRun

/-- One event, for a gNB whose list of cells is `cells`. -/
def step (cells : List ℕ) (s : MatrixRun) : MatrixEvent → MatrixRun
  | .add ue ueIf => ⟨s.rrc.conditionalHoTttMatrixAdd ue ueIf cells, Function.update s.map ue (some fun _ => tttNotSet)⟩
  | .remove ue ueIf => ⟨s.rrc.conditionalHoTttMatrixRemove ue ueIf, Function.update s.map ue none⟩
  | .set ue target value =>
    ⟨{ s.rrc with conditionalHoTttMatrix := conditionalHoTttMatrixSet ue target value s.rrc.conditionalHoTttMatrix },
      Function.update s.map ue ((s.map ue).map fun times => Function.update times target value)⟩

def machine (cells : List ℕ) : Machine MatrixRun MatrixEvent :=
  ⟨fun s => s.rrc.conditionalHoTttMatrix = [] ∧ s.map = fun _ => none, fun s e => some (s.step cells e)⟩

/-- The UE has an entry. -/
def Has (s : MatrixRun) (ue : ℕ) : Prop := ue ∈ s.rrc.conditionalHoTttMatrix.map (·.ueID)

instance Has.decidable (s : MatrixRun) (ue : ℕ) : Decidable (s.Has ue) :=
  inferInstanceAs (Decidable (ue ∈ s.rrc.conditionalHoTttMatrix.map (·.ueID)))

/-- The steps that do no harm. A UE is added that has no entry, a trigger time of a listed cell is set, and the UE that is
removed is that of the first row, unless the matrix is empty. -/
def Allowed (cells : List ℕ) (s : MatrixRun) : MatrixEvent → Prop
  | .add ue _ => ¬ s.Has ue
  | .remove ue ueIf => ∀ row ∈ s.rrc.conditionalHoTttMatrix.head?, row.ueID = ue ∧ row.ueIF = ueIf
  | .set ue target value => s.Has ue → target ∈ cells ∧ target ≠ s.rrc.d ∨ value = tttNotSet

/-- **The matrix is the map**: a lookup finds what the map has, and no UE has two entries. -/
structure IsMap (s : MatrixRun) : Prop where
  lookup : ∀ ue target, conditionalHoTttMatrixFind s.rrc.conditionalHoTttMatrix ue target =
    ((s.map ue).map fun times => times target).getD tttNotSet
  oneEntry : (s.rrc.conditionalHoTttMatrix.map (·.ueID)).Nodup

/-- **A removal is one**: it takes out the entry of that UE, if there is one, and leaves all others as they are. -/
def Removes (s : MatrixRun) (ue ueIf : ℕ) : Prop :=
  (s.rrc.conditionalHoTttMatrixRemove ue ueIf).conditionalHoTttMatrix =
    s.rrc.conditionalHoTttMatrix.filter fun row => row.ueID ≠ ue

end MatrixRun

/-! ## Lookups -/

variable {ue ue' ueIf target : ℕ} {value : ℚ} {row : TttRow} {m rows : List TttRow} {cells : List ℕ} {s : MatrixRun}

theorem rowFind_isSome_iff {triggers : List HoTrigger} :
    (rowFind target triggers).isSome = true ↔ target ∈ triggers.map (·.gnbID) := by
  induction triggers with
  | nil => simp [rowFind]
  | cons g gs ih =>
    unfold rowFind
    by_cases h : g.gnbID = target
    · simp [h]
    · simp [h, ih, Ne.symm h]

/-- In a new row every cell is not set. -/
theorem rowFind_notSet (target : ℕ) (cells : List ℕ) :
    (rowFind target (cells.map fun c => ⟨c, tttNotSet⟩)).getD (-1) = tttNotSet := by
  induction cells with
  | nil => rfl
  | cons c cells ih =>
    rw [List.map_cons]
    unfold rowFind
    split_ifs
    · rfl
    · exact ih

theorem matrixFind_cons_of_ne (h : row.ueID ≠ ue) : matrixFind ue target (row :: rows) = matrixFind ue target rows :=
  if_neg h

theorem matrixFind_of_not_mem (h : ue ∉ m.map (·.ueID)) : matrixFind ue target m = none := by
  induction m with
  | nil => rfl
  | cons row rows ih =>
    rw [List.map_cons, List.mem_cons, not_or] at h
    rw [matrixFind_cons_of_ne (Ne.symm h.1), ih h.2]

/-- The only row of a UE is where it is looked up. -/
theorem matrixFind_of_mem (hnodup : (m.map (·.ueID)).Nodup) (hrow : row ∈ m) :
    matrixFind row.ueID target m = rowFind target row.gnbHoTrigger := by
  induction m with
  | nil => cases hrow
  | cons first rows ih =>
    rw [List.map_cons, List.nodup_cons] at hnodup
    rcases List.mem_cons.1 hrow with rfl | hrow
    · unfold matrixFind
      rw [if_pos rfl]
      cases rowFind target row.gnbHoTrigger with
      | some t => rfl
      | none => exact matrixFind_of_not_mem hnodup.1
    · have hne : first.ueID ≠ row.ueID := by
        intro heq
        apply hnodup.1
        rw [heq]
        exact List.mem_map_of_mem hrow
      rw [matrixFind_cons_of_ne hne]
      exact ih hnodup.2 hrow

theorem matrixFind_concat_of_ne (h : row.ueID ≠ ue) : matrixFind ue target (m ++ [row]) = matrixFind ue target m := by
  induction m with
  | nil => exact matrixFind_cons_of_ne h
  | cons first rows ih =>
    rw [List.cons_append]
    unfold matrixFind
    rw [ih]

theorem matrixFind_concat_self (hrow : row.ueID = ue) (h : ue ∉ m.map (·.ueID)) :
    matrixFind ue target (m ++ [row]) = rowFind target row.gnbHoTrigger := by
  induction m with
  | nil =>
    rw [← hrow]
    exact matrixFind_of_mem (List.nodup_singleton _) (List.mem_singleton_self row)
  | cons first rows ih =>
    rw [List.map_cons, List.mem_cons, not_or] at h
    rw [List.cons_append, matrixFind_cons_of_ne (Ne.symm h.1)]
    exact ih h.2

/-- Without the rows of one UE, the others are found as before. -/
theorem matrixFind_filter (h : ue' ≠ ue) :
    matrixFind ue' target (m.filter fun row => row.ueID ≠ ue) = matrixFind ue' target m := by
  induction m with
  | nil => rfl
  | cons row rows ih =>
    by_cases hrow : row.ueID = ue
    · rw [List.filter_cons_of_neg (by simp [hrow]), ih, matrixFind_cons_of_ne]
      exact fun heq => h (heq.symm.trans hrow)
    · rw [List.filter_cons_of_pos (by simp [hrow])]
      unfold matrixFind
      rw [ih]

theorem mem_map_filter (h : ue' ≠ ue) :
    ue' ∈ (m.filter fun row => row.ueID ≠ ue).map (·.ueID) ↔ ue' ∈ m.map (·.ueID) := by
  simp only [List.mem_map, List.mem_filter, decide_eq_true_eq]
  constructor
  · rintro ⟨row, ⟨hrow, -⟩, heq⟩
    exact ⟨row, hrow, heq⟩
  · rintro ⟨row, hrow, rfl⟩
    exact ⟨row, ⟨hrow, h⟩, rfl⟩

/-! ## Updates -/

/-- What is not found is not set. -/
theorem conditionalHoTttMatrixSet_eq_self (h : matrixFind ue target m = none) :
    conditionalHoTttMatrixSet ue target value m = m := by
  induction m with
  | nil => rfl
  | cons row rows ih =>
    unfold conditionalHoTttMatrixSet
    by_cases hrow : row.ueID = ue
    · unfold matrixFind at h
      rw [if_pos hrow] at h ⊢
      cases hfind : rowFind target row.gnbHoTrigger with
      | some t => simp [hfind] at h
      | none =>
        rw [hfind] at h
        rw [rowSet_eq_none_iff.2 hfind]
        dsimp only at h ⊢
        rw [ih h]
    · rw [matrixFind_cons_of_ne hrow] at h
      rw [if_neg hrow, ih h]

theorem matrixFind_set_other (h : ue' ≠ ue) (target' : ℕ) :
    matrixFind ue' target' (conditionalHoTttMatrixSet ue target value m) = matrixFind ue' target' m := by
  induction m with
  | nil => rfl
  | cons row rows ih =>
    unfold conditionalHoTttMatrixSet
    by_cases hrow : row.ueID = ue
    · have hne : row.ueID ≠ ue' := fun heq => h (heq.symm.trans hrow)
      rw [if_pos hrow]
      cases rowSet target value row.gnbHoTrigger with
      | none =>
        dsimp only
        rw [matrixFind_cons_of_ne hne, matrixFind_cons_of_ne hne, ih]
      | some triggers =>
        dsimp only
        rw [matrixFind_cons_of_ne hne]
        exact matrixFind_cons_of_ne hne
    · rw [if_neg hrow]
      unfold matrixFind
      rw [ih]

theorem rowSet_map_gnbID {triggers triggers' : List HoTrigger} (h : rowSet target value triggers = some triggers') :
    triggers'.map (·.gnbID) = triggers.map (·.gnbID) := by
  induction triggers generalizing triggers' with
  | nil => cases h
  | cons g gs ih =>
    unfold rowSet at h
    by_cases hg : g.gnbID = target
    · rw [if_pos hg] at h
      obtain rfl := Option.some.inj h
      rfl
    · rw [if_neg hg] at h
      obtain ⟨gs', hgs, rfl⟩ := Option.map_eq_some_iff.1 h
      rw [List.map_cons, List.map_cons, ih hgs]

/-- An update keeps the UEs and the cells of the rows. -/
theorem set_map_keys (ue target : ℕ) (value : ℚ) (m : List TttRow) :
    (conditionalHoTttMatrixSet ue target value m).map (fun row => (row.ueID, row.gnbHoTrigger.map (·.gnbID))) =
      m.map fun row => (row.ueID, row.gnbHoTrigger.map (·.gnbID)) := by
  induction m with
  | nil => rfl
  | cons row rows ih =>
    unfold conditionalHoTttMatrixSet
    by_cases hrow : row.ueID = ue
    · rw [if_pos hrow]
      cases hset : rowSet target value row.gnbHoTrigger with
      | none =>
        dsimp only
        rw [List.map_cons, List.map_cons, ih]
      | some triggers =>
        dsimp only
        rw [List.map_cons, List.map_cons, rowSet_map_gnbID hset]
    · rw [if_neg hrow, List.map_cons, List.map_cons, ih]

/-! ## The steps -/

namespace MatrixRun

/-- The matrix is the map, with a row of all other cells for each UE that the map has. -/
structure StandsFor (cells : List ℕ) (s : MatrixRun) : Prop extends IsMap s where
  present : ∀ ue, s.Has ue ↔ (s.map ue).isSome = true
  listed : ∀ row ∈ s.rrc.conditionalHoTttMatrix, row.gnbHoTrigger.map (·.gnbID) = cells.filter fun c => c ≠ s.rrc.d

theorem StandsFor.init (hempty : s.rrc.conditionalHoTttMatrix = []) (hmap : s.map = fun _ => none) :
    StandsFor cells s where
  lookup := by
    intro ue target
    rw [hempty, hmap]
    rfl
  oneEntry := by
    rw [hempty]
    exact List.nodup_nil
  present := by
    intro ue
    unfold Has
    rw [hempty, hmap]
    simp
  listed := by
    intro row hrow
    rw [hempty] at hrow
    cases hrow

theorem StandsFor.add (h : StandsFor cells s) (hue : ¬ s.Has ue) (ueIf : ℕ) :
    StandsFor cells (s.step cells (.add ue ueIf)) where
  lookup := by
    intro ue' target
    have hold := h.lookup ue' target
    unfold conditionalHoTttMatrixFind at hold ⊢
    dsimp only [step, GnbRrc.conditionalHoTttMatrixAdd]
    by_cases heq : ue' = ue
    · -- no other row of the UE, and all its times are not set
      subst heq
      generalize hnew : (cells.filter fun c => c ≠ s.rrc.d) = others
      have hself : matrixFind ue' target (s.rrc.conditionalHoTttMatrix ++ [⟨ue', ueIf, others.map fun c => ⟨c, tttNotSet⟩⟩]) =
          rowFind target (others.map fun c => ⟨c, tttNotSet⟩) := matrixFind_concat_self rfl hue
      rw [hself, Function.update_self]
      exact rowFind_notSet target others
    · rw [matrixFind_concat_of_ne (Ne.symm heq), Function.update_of_ne heq]
      exact hold
  oneEntry := by
    dsimp only [step, GnbRrc.conditionalHoTttMatrixAdd]
    rw [List.map_append, List.map_singleton, List.nodup_append]
    refine ⟨h.oneEntry, List.nodup_singleton _, ?_⟩
    rintro x hx y hy rfl
    rw [List.mem_singleton.1 hy] at hx
    exact hue hx
  present := by
    intro ue'
    have hold := h.present ue'
    unfold Has at hold ⊢
    dsimp only [step, GnbRrc.conditionalHoTttMatrixAdd]
    rw [List.map_append, List.mem_append, hold]
    by_cases heq : ue' = ue
    · subst heq
      simp
    · simp [heq]
  listed := by
    intro row hrow
    rcases List.mem_append.1 hrow with hrow | hrow
    · exact h.listed row hrow
    · rw [List.mem_singleton.1 hrow]
      dsimp only [step, GnbRrc.conditionalHoTttMatrixAdd]
      rw [List.map_map]
      exact List.map_id' _

/-- A UE and a listed cell are found. -/
theorem StandsFor.found (h : StandsFor cells s) (hue : s.Has ue) (hcell : target ∈ cells) (hd : target ≠ s.rrc.d) :
    (matrixFind ue target s.rrc.conditionalHoTttMatrix).isSome = true := by
  obtain ⟨row, hrow, rfl⟩ := List.mem_map.1 hue
  rw [matrixFind_of_mem h.oneEntry hrow, rowFind_isSome_iff, h.listed row hrow]
  exact List.mem_filter.2 ⟨hcell, by simpa using hd⟩

theorem StandsFor.set (h : StandsFor cells s)
    (hallowed : s.Has ue → target ∈ cells ∧ target ≠ s.rrc.d ∨ value = tttNotSet) :
    StandsFor cells (s.step cells (.set ue target value)) := by
  have hold := h.lookup ue target
  unfold conditionalHoTttMatrixFind at hold
  cases hfind : matrixFind ue target s.rrc.conditionalHoTttMatrix with
  | none =>
    -- nothing is set, and the map does not change either
    have hsame : Function.update s.map ue ((s.map ue).map fun times => Function.update times target value) = s.map := by
      cases hmap : s.map ue with
      | none =>
        rw [Option.map_none, ← hmap]
        exact Function.update_eq_self ue s.map
      | some times =>
        have hue : s.Has ue := (h.present ue).2 (by rw [hmap]; rfl)
        have hvalue : value = tttNotSet := by
          rcases hallowed hue with ⟨hcell, hd⟩ | hvalue
          · have hfound := h.found hue hcell hd
            rw [hfind] at hfound
            cases hfound
          · exact hvalue
        have htimes : times target = tttNotSet := by
          rw [hfind, hmap] at hold
          exact hold.symm
        have hupdate : Function.update times target value = times := by
          rw [hvalue, ← htimes]
          exact Function.update_eq_self target times
        rw [Option.map_some, hupdate, ← hmap]
        exact Function.update_eq_self ue s.map
    have hstep : s.step cells (.set ue target value) = s := by
      dsimp only [step]
      rw [conditionalHoTttMatrixSet_eq_self hfind, hsame]
    rw [hstep]
    exact h
  | some t =>
    have hkeys := set_map_keys ue target value s.rrc.conditionalHoTttMatrix
    have hues : (conditionalHoTttMatrixSet ue target value s.rrc.conditionalHoTttMatrix).map (·.ueID) =
        s.rrc.conditionalHoTttMatrix.map (·.ueID) := by
      have hfst := congrArg (List.map Prod.fst) hkeys
      rwa [List.map_map, List.map_map] at hfst
    have hcells : (conditionalHoTttMatrixSet ue target value s.rrc.conditionalHoTttMatrix).map
        (fun row => row.gnbHoTrigger.map (·.gnbID)) =
        s.rrc.conditionalHoTttMatrix.map fun row => row.gnbHoTrigger.map (·.gnbID) := by
      have hsnd := congrArg (List.map Prod.snd) hkeys
      rwa [List.map_map, List.map_map] at hsnd
    have hue : s.Has ue := by
      by_contra hnot
      rw [matrixFind_of_not_mem hnot] at hfind
      cases hfind
    obtain ⟨times, hmap⟩ := Option.isSome_iff_exists.1 ((h.present ue).1 hue)
    refine ⟨⟨?_, ?_⟩, ?_, ?_⟩
    · intro ue' target'
      unfold conditionalHoTttMatrixFind
      dsimp only [step]
      by_cases heq : ue' = ue
      · subst heq
        rw [Function.update_self, hmap]
        by_cases hcell : target' = target
        · subst hcell
          rw [matrixFind_set_self value (by rw [hfind]; rfl)]
          simp
        · have hother := h.lookup ue' target'
          unfold conditionalHoTttMatrixFind at hother
          rw [matrixFind_set_ne hcell, hother, hmap]
          simp [hcell]
      · rw [matrixFind_set_other heq, Function.update_of_ne heq]
        exact h.lookup ue' target'
    · dsimp only [step]
      rw [hues]
      exact h.oneEntry
    · intro ue'
      have hpresent := h.present ue'
      unfold Has at hpresent ⊢
      dsimp only [step]
      rw [hues, hpresent]
      by_cases heq : ue' = ue
      · subst heq
        simp
      · simp [heq]
    · intro row hrow
      dsimp only [step] at hrow ⊢
      have hmem := List.mem_map_of_mem (f := fun row : TttRow => row.gnbHoTrigger.map (·.gnbID)) hrow
      rw [hcells] at hmem
      obtain ⟨row', hrow', heq⟩ := List.mem_map.1 hmem
      rw [← heq]
      exact h.listed row' hrow'

/-- A removal of the UE of the first row takes out this row only. -/
theorem StandsFor.removes (h : StandsFor cells s)
    (hfirst : ∀ row ∈ s.rrc.conditionalHoTttMatrix.head?, row.ueID = ue ∧ row.ueIF = ueIf) : s.Removes ue ueIf := by
  have hnodup := h.oneEntry
  unfold Removes GnbRrc.conditionalHoTttMatrixRemove
  dsimp only
  cases hm : s.rrc.conditionalHoTttMatrix with
  | nil => rfl
  | cons row rows =>
    rw [hm] at hfirst hnodup
    obtain ⟨hue, hif⟩ := hfirst row rfl
    rw [List.map_cons, List.nodup_cons, hue] at hnodup
    have hrest : rows.filter (fun row => row.ueID ≠ ue) = rows := by
      apply List.filter_eq_self.2
      intro x hx
      have hne : x.ueID ≠ ue := fun heq => hnodup.1 (heq ▸ List.mem_map_of_mem hx)
      exact decide_eq_true hne
    have hbehind : rowsBehind ue ueIf (row :: rows) = rows := if_pos ⟨hue, hif⟩
    rw [hbehind, List.filter_cons_of_neg (by simp [hue]), hrest]

theorem StandsFor.remove (h : StandsFor cells s)
    (hfirst : ∀ row ∈ s.rrc.conditionalHoTttMatrix.head?, row.ueID = ue ∧ row.ueIF = ueIf) :
    StandsFor cells (s.step cells (.remove ue ueIf)) := by
  have hremoves := h.removes hfirst
  unfold Removes at hremoves
  have hnot : ue ∉ ((s.rrc.conditionalHoTttMatrix.filter fun row => row.ueID ≠ ue).map (·.ueID)) := by
    intro hmem
    obtain ⟨row, hrow, heq⟩ := List.mem_map.1 hmem
    have hne := (List.mem_filter.1 hrow).2
    simp [heq] at hne
  refine ⟨⟨?_, ?_⟩, ?_, ?_⟩
  · intro ue' target
    unfold conditionalHoTttMatrixFind
    dsimp only [step]
    rw [hremoves]
    by_cases heq : ue' = ue
    · subst heq
      rw [Function.update_self, matrixFind_of_not_mem hnot]
      rfl
    · rw [matrixFind_filter heq, Function.update_of_ne heq]
      exact h.lookup ue' target
  · dsimp only [step]
    rw [hremoves]
    exact h.oneEntry.sublist (List.filter_sublist.map _)
  · intro ue'
    have hpresent := h.present ue'
    unfold Has at hpresent ⊢
    dsimp only [step]
    rw [hremoves]
    by_cases heq : ue' = ue
    · subst heq
      simp
    · rw [Function.update_of_ne heq, ← hpresent]
      exact mem_map_filter heq
  · intro row hrow
    dsimp only [step] at hrow ⊢
    rw [hremoves] at hrow
    exact h.listed row (List.mem_of_mem_filter hrow)

theorem standsFor_of_reach (h : (machine cells).ReachOn (Allowed cells) s) : StandsFor cells s := by
  refine h.inv (I := StandsFor cells) ?_ ?_
  · rintro s ⟨hempty, hmap⟩
    exact .init hempty hmap
  · intro s e s' hs hallowed hstep
    obtain rfl : s.step cells e = s' := Option.some.inj hstep
    cases e with
    | add ue ueIf => exact hs.add hallowed ueIf
    | remove ue ueIf => exact hs.remove hallowed
    | set ue target value => exact hs.set hallowed

/-- **The matrix is a finite map** in every run whose steps are allowed, and an allowed removal takes out one entry. -/
theorem matrix_is_map (cells : List ℕ) (s : MatrixRun) (h : (machine cells).ReachOn (Allowed cells) s) :
    s.IsMap ∧ ∀ ue ueIf, Allowed cells s (.remove ue ueIf) → s.Removes ue ueIf := by
  have hs := standsFor_of_reach h
  refine ⟨hs.toIsMap, ?_⟩
  intro ue ueIf hallowed
  exact hs.removes hallowed

/-- Cell 1 before any UE is associated. -/
def start : MatrixRun := ⟨⟨1, 3, 320, []⟩, fun _ => none⟩

/-- UE 7 and UE 8 are associated, and UE 7 meets the margin for cell 2 at the time 100. -/
def twoUes : MatrixRun := ((start.step [1, 2] (.add 7 1)).step [1, 2] (.add 8 1)).step [1, 2] (.set 7 2 100)

theorem twoUes_reached : (machine [1, 2]).ReachOn (Allowed [1, 2]) twoUes := by
  have hseven : Allowed [1, 2] start (.add 7 1) := (by decide : ¬ start.Has 7)
  have height : Allowed [1, 2] (start.step [1, 2] (.add 7 1)) (.add 8 1) :=
    (by decide : ¬ (start.step [1, 2] (.add 7 1)).Has 8)
  have hset : Allowed [1, 2] ((start.step [1, 2] (.add 7 1)).step [1, 2] (.add 8 1)) (.set 7 2 100) :=
    fun _ => .inl ⟨by decide, by decide⟩
  have hstart : (machine [1, 2]).ReachOn (Allowed [1, 2]) start := .init ⟨rfl, rfl⟩
  exact ((hstart.step hseven rfl).step height rfl).step hset rfl

theorem matrix_is_map_sample : twoUes.IsMap ∧ ∀ ue ueIf, Allowed [1, 2] twoUes (.remove ue ueIf) → twoUes.Removes ue ueIf :=
  matrix_is_map [1, 2] twoUes twoUes_reached

/-- Removing UE 8 also loses the trigger time of UE 7, and so does removing a UE that has no entry. -/
theorem removal_drops_others :
    (machine [1, 2]).Reach (twoUes.step [1, 2] (.remove 8 1)) ∧ ¬ (twoUes.step [1, 2] (.remove 8 1)).IsMap ∧
      ¬ (twoUes.step [1, 2] (.remove 9 1)).IsMap := by
  have hreach : (machine [1, 2]).Reach twoUes := twoUes_reached.mono fun _ _ _ => trivial
  refine ⟨.step hreach trivial rfl, ?_, ?_⟩
  · intro h
    exact absurd (h.lookup 7 2) (by decide)
  · intro h
    exact absurd (h.lookup 7 2) (by decide)

end MatrixRun

end NetSim.Rrc
