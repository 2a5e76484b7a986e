import Mathlib.Data.List.Basic
import Mathlib.Logic.Function.Basic
import Mathlib.Tactic.Common

/-!
# Linked lists in memory

A memory gives each cell the cell that its `next` names, if any. `Seg next p l q` says that from `p` the cells of `l` follow
one another and the last one names `q`, so `Seg next p l none` is a whole list.

* `Seg.nodup`: the cells of a whole list differ.
* `Seg.update_other`: a write to another cell keeps a segment.
* `Seg.insert_after`: a cell is linked in behind another one.
* `Ended`: a whole list with a pointer to its last cell; a list is put behind it, and a cell is taken out of it.
-/

namespace Chain

variable {P : Type*}

/-- From `p`, the cells `l` are linked, up to `q`. -/
def Seg (next : P → Option P) : Option P → List P → Option P → Prop
  | p, [], q => p = q
  | p, a :: l, q => p = some a ∧ Seg next (next a) l q

variable {next : P → Option P} {p q m : Option P} {l l₁ l₂ : List P} {a u : P}

theorem seg_append : Seg next p (l₁ ++ l₂) q ↔ ∃ m, Seg next p l₁ m ∧ Seg next m l₂ q := by
  induction l₁ generalizing p with
  | nil => simp [Seg]
  | cons a l₁ ih => simp only [List.cons_append, Seg, ih, and_assoc, exists_and_left]

/-- There is one list from each cell. -/
theorem Seg.unique (h₁ : Seg next p l₁ none) (h₂ : Seg next p l₂ none) : l₁ = l₂ := by
  induction l₁ generalizing p l₂ with
  | nil =>
    cases l₂ with
    | nil => rfl
    | cons b l₂ => exact absurd (h₁.symm.trans h₂.1) (by simp)
  | cons a l₁ ih =>
    cases l₂ with
    | nil => exact absurd (h₁.1.symm.trans h₂) (by simp)
    | cons b l₂ =>
      obtain rfl : a = b := Option.some.inj (h₁.1.symm.trans h₂.1)
      rw [ih h₁.2 h₂.2]

theorem Seg.nodup (h : Seg next p l none) : l.Nodup := by
  induction l generalizing p with
  | nil => exact List.nodup_nil
  | cons a l ih =>
    refine List.nodup_cons.2 ⟨?_, ih h.2⟩
    intro hmem
    -- the list from `a` would be its own proper part
    obtain ⟨l₁, l₂, rfl⟩ := List.append_of_mem hmem
    obtain ⟨m, -, hm⟩ := seg_append.1 h.2
    have hwhole : Seg next (some a) (a :: (l₁ ++ a :: l₂)) none := ⟨rfl, h.2⟩
    have hpart : Seg next (some a) (a :: l₂) none := ⟨rfl, hm.2⟩
    have hsame := hwhole.unique hpart
    have hlen := congrArg List.length hsame
    simp only [List.length_cons, List.length_append] at hlen
    omega

/-- Only the links of its own cells matter. -/
theorem Seg.congr {next' : P → Option P} (h : Seg next p l q) (heq : ∀ x ∈ l, next' x = next x) : Seg next' p l q := by
  induction l generalizing p with
  | nil => exact h
  | cons a l ih =>
    refine ⟨h.1, ?_⟩
    rw [heq a List.mem_cons_self]
    exact ih h.2 fun x hx => heq x (List.mem_cons_of_mem a hx)

variable [DecidableEq P]

/-- A write to a cell that is not linked. -/
theorem Seg.update_other (h : Seg next p l q) (ha : a ∉ l) (v : Option P) : Seg (Function.update next a v) p l q := by
  apply h.congr
  intro x hx
  have hne : x ≠ a := fun heq => ha (heq ▸ hx)
  exact Function.update_of_ne hne v next

/-- A write to the last cell of a segment. -/
theorem Seg.update_last (h : Seg next p (l ++ [a]) q) (ha : a ∉ l) (v : Option P) :
    Seg (Function.update next a v) p (l ++ [a]) v := by
  obtain ⟨m, hm, heq, -⟩ := seg_append.1 h
  refine seg_append.2 ⟨m, hm.update_other ha v, heq, ?_⟩
  exact Function.update_self a v next

/-- The cell `u` is linked in behind `a`. -/
theorem Seg.insert_after (h₁ : Seg next p (l₁ ++ [a]) m) (h₂ : Seg next m l₂ q) (hu : u ∉ l₁ ++ [a] ++ l₂)
    (ha : a ∉ l₁ ++ l₂) : Seg (Function.update (Function.update next u m) a (some u)) p (l₁ ++ a :: u :: l₂) q := by
  simp only [List.mem_append, List.mem_singleton, not_or] at hu ha
  obtain ⟨⟨hu₁, hua⟩, hu₂⟩ := hu
  have hbefore : Seg (Function.update next u m) p (l₁ ++ [a]) m := by
    apply h₁.update_other
    simp only [List.mem_append, List.mem_singleton, not_or]
    exact ⟨hu₁, hua⟩
  have hbehind : Seg (Function.update (Function.update next u m) a (some u)) m l₂ q :=
    (h₂.update_other hu₂ m).update_other ha.2 (some u)
  have hfront := hbefore.update_last ha.1 (some u)
  have hsplit : l₁ ++ a :: u :: l₂ = (l₁ ++ [a]) ++ u :: l₂ := by simp
  rw [hsplit]
  refine seg_append.2 ⟨some u, hfront, rfl, ?_⟩
  rw [Function.update_of_ne hua, Function.update_self]
  exact hbehind

/-! ## Lists with a pointer to the last cell -/

omit [DecidableEq P] in
/-- A whole list begins at its first cell. -/
theorem Seg.head_eq (h : Seg next p l none) : p = l.head? := by
  cases l with
  | nil => exact h
  | cons a l => exact h.1

omit [DecidableEq P] in
/-- A cell of a whole list names the next one. -/
theorem Seg.next_eq (h : Seg next p (l₁ ++ a :: l₂) none) : next a = l₂.head? := by
  obtain ⟨m, -, hm⟩ := seg_append.1 h
  exact hm.2.head_eq

/-- A whole list, with a pointer to its last cell. -/
structure Ended (next : P → Option P) (head last : Option P) (l : List P) : Prop where
  seg : Seg next head l none
  last : last = l.getLast?

variable {head last : Option P} {prev z : P} {chain : List P}

theorem Ended.update_other (h : Ended next head last l) (ha : a ∉ l) (v : Option P) :
    Ended (Function.update next a v) head last l := ⟨h.seg.update_other ha v, h.last⟩

/-- A chain is linked behind the last cell. -/
theorem Ended.append (h : Ended next head (some z) l) (hchain : Seg next p chain none) (hne : chain ≠ [])
    (hnew : ∀ x ∈ chain, x ∉ l) : Ended (Function.update next z p) head chain.getLast? (l ++ chain) := by
  obtain ⟨front, rfl⟩ := List.getLast?_eq_some_iff.1 h.last.symm
  have hnodup := h.seg.nodup
  have hz : z ∉ front := by
    rw [List.nodup_append] at hnodup
    exact fun hmem => hnodup.2.2 z hmem z (List.mem_singleton.2 rfl) rfl
  have hzchain : z ∉ chain := fun hmem => hnew z hmem (List.mem_append_right _ (List.mem_singleton.2 rfl))
  refine ⟨seg_append.2 ⟨p, h.seg.update_last hz p, hchain.update_other hzchain p⟩, ?_⟩
  rw [List.getLast?_append_of_ne_nil _ hne]

omit [DecidableEq P] in
/-- The last cell is the one that names none. -/
theorem Ended.last_iff (h : Ended next head last (l₁ ++ a :: l₂)) : some a = last ↔ next a = none := by
  have hnodup := h.seg.nodup
  rw [h.seg.next_eq, h.last, List.getLast?_append_of_ne_nil _ (List.cons_ne_nil a l₂)]
  cases l₂ with
  | nil => exact ⟨fun _ => rfl, fun _ => rfl⟩
  | cons b l =>
    constructor
    · intro heq
      have ha : a ∉ b :: l := (List.nodup_cons.1 (List.nodup_append.1 hnodup).2.1).1
      rw [List.getLast?_cons_cons] at heq
      exact absurd (List.mem_of_getLast? heq.symm) ha
    · exact fun hnone => absurd hnone (Option.some_ne_none b)

omit [DecidableEq P] in
/-- The first cell is taken out. -/
theorem Ended.remove_head (h : Ended next head last (a :: l)) :
    Ended next (next a) (if next a = none then none else last) l := by
  refine ⟨h.seg.2, ?_⟩
  have hnext : next a = l.head? := h.seg.2.head_eq
  cases l with
  | nil => exact if_pos hnext
  | cons b l =>
    rw [if_neg (by rw [hnext]; exact Option.some_ne_none b), h.last, List.getLast?_cons_cons]

/-- A cell behind another one is taken out. -/
theorem Ended.remove (h : Ended next head last (l₁ ++ prev :: a :: l₂)) :
    Ended (Function.update next prev (next a)) head (if next a = none then some prev else last) (l₁ ++ prev :: l₂) := by
  have hnodup := h.seg.nodup
  have hsplit : l₁ ++ prev :: a :: l₂ = (l₁ ++ [prev]) ++ a :: l₂ := List.append_cons l₁ prev (a :: l₂)
  have hprev : prev ∉ l₁ ∧ prev ∉ l₂ := by
    rw [List.nodup_append, List.nodup_cons, List.mem_cons, not_or] at hnodup
    exact ⟨fun hmem => hnodup.2.2 prev hmem prev List.mem_cons_self rfl, hnodup.2.1.1.2⟩
  have hseg := h.seg
  have hlast := h.last
  have hnext : next a = l₂.head? := by
    rw [hsplit] at hseg
    exact hseg.next_eq
  rw [hsplit] at hseg hlast
  obtain ⟨m, hfront, -, hbehind⟩ := seg_append.1 hseg
  refine ⟨?_, ?_⟩
  · rw [List.append_cons]
    exact seg_append.2 ⟨next a, hfront.update_last hprev.1 (next a), hbehind.update_other hprev.2 (next a)⟩
  · cases l₂ with
    | nil => rw [if_pos (show next a = none from hnext), List.getLast?_concat]
    | cons b l =>
      rw [if_neg (by rw [hnext]; exact Option.some_ne_none b), hlast, List.getLast?_append_of_ne_nil _ (List.cons_ne_nil a _),
        List.getLast?_cons_cons, List.getLast?_append_of_ne_nil _ (List.cons_ne_nil prev _), List.getLast?_cons_cons]

end Chain
