import Mathlib.Data.List.Sort
import Mathlib.Order.Basic
import Mathlib.Tactic.Common

/-!
# Lists kept in the order of a rank

A list to which elements are added one by one, so that no element stands behind one of a greater rank. How
the addition chooses among elements of one rank is left open.

* `head_least`: the first element has the least rank.
* `exists_adds`: every element of the least rank is the first one for some addition.
-/

namespace Ranked

variable {α β : Type*} [LinearOrder β]

/-- An addition that keeps the order of `rank`. -/
structure Adds (rank : α → β) (add : List α → α → List α) : Prop where
  perm : ∀ l x, (add l x).Perm (x :: l)
  sorted : ∀ l x, l.Pairwise (fun a b => rank a ≤ rank b) → (add l x).Pairwise fun a b => rank a ≤ rank b

variable {rank : α → β} {add : List α → α → List α} {l : List α} {x m : α}

theorem Adds.foldl_perm (h : Adds rank add) (acc l : List α) : (l.foldl add acc).Perm (acc ++ l) := by
  induction l generalizing acc with
  | nil => rw [List.append_nil]; exact List.Perm.refl acc
  | cons x l ih =>
    have hadd : (add acc x ++ l).Perm (x :: acc ++ l) := (h.perm acc x).append_right l
    exact ((ih (add acc x)).trans hadd).trans List.perm_middle.symm

theorem Adds.foldl_sorted (h : Adds rank add) {acc : List α} (hacc : acc.Pairwise fun a b => rank a ≤ rank b)
    (l : List α) : (l.foldl add acc).Pairwise fun a b => rank a ≤ rank b := by
  induction l generalizing acc with
  | nil => exact hacc
  | cons x l ih => exact ih (h.sorted acc x hacc)

/-- **The first element** is one of the elements added, of the least rank. -/
theorem Adds.head_least (h : Adds rank add) (hm : (l.foldl add []).head? = some m) :
    m ∈ l ∧ ∀ x ∈ l, rank m ≤ rank x := by
  have hperm := h.foldl_perm [] l
  rw [List.nil_append] at hperm
  have hsorted := h.foldl_sorted List.Pairwise.nil l
  cases hl : l.foldl add [] with
  | nil => rw [hl] at hm; cases hm
  | cons a rest =>
    rw [hl] at hm hperm hsorted
    obtain rfl := Option.some.inj hm
    refine ⟨hperm.mem_iff.1 List.mem_cons_self, fun x hx => ?_⟩
    rcases List.mem_cons.1 (hperm.mem_iff.2 hx) with rfl | hx
    · exact le_refl _
    · exact (List.pairwise_cons.1 hsorted).1 x hx

/-- There is a first element unless nothing was added. -/
theorem Adds.head_eq_none (h : Adds rank add) : (l.foldl add []).head? = none ↔ l = [] := by
  have hperm := h.foldl_perm [] l
  rw [List.nil_append] at hperm
  rw [List.head?_eq_none_iff]
  constructor
  · intro hnil
    rw [hnil] at hperm
    exact hperm.nil_eq.symm
  · rintro rfl
    rfl

/-! ## An addition that prefers one element -/

section Prefer

variable [DecidableEq α]

/-- Before the first element of a greater rank; `m` also before those of its own rank. -/
def insertBefore (rank : α → β) (m : α) (l : List α) (x : α) : List α :=
  match l with
  | [] => [x]
  | a :: l => if rank x < rank a ∨ rank x = rank a ∧ x = m then x :: a :: l else a :: insertBefore rank m l x

theorem insertBefore_perm (rank : α → β) (m : α) (l : List α) (x : α) :
    (insertBefore rank m l x).Perm (x :: l) := by
  induction l with
  | nil => exact List.Perm.refl _
  | cons a l ih =>
    unfold insertBefore
    split
    · exact List.Perm.refl _
    · exact (ih.cons a).trans (List.Perm.swap x a l)

theorem insertBefore_sorted (h : l.Pairwise fun a b => rank a ≤ rank b) :
    (insertBefore rank m l x).Pairwise fun a b => rank a ≤ rank b := by
  induction l with
  | nil => exact List.pairwise_singleton _ _
  | cons a l ih =>
    obtain ⟨ha, hl⟩ := List.pairwise_cons.1 h
    unfold insertBefore
    split
    · rename_i hbefore
      have hle : rank x ≤ rank a := by
        rcases hbefore with hlt | ⟨heq, -⟩
        · exact le_of_lt hlt
        · exact le_of_eq heq
      refine List.pairwise_cons.2 ⟨fun b hb => ?_, h⟩
      rcases List.mem_cons.1 hb with rfl | hb
      · exact hle
      · exact le_trans hle (ha b hb)
    · rename_i hafter
      have hle : rank a ≤ rank x := not_lt.1 fun hlt => hafter (.inl hlt)
      refine List.pairwise_cons.2 ⟨fun b hb => ?_, ih hl⟩
      rcases List.mem_cons.1 ((insertBefore_perm rank m l x).mem_iff.1 hb) with rfl | hb
      · exact hle
      · exact ha b hb

theorem adds_insertBefore (rank : α → β) (m : α) : Adds rank (insertBefore rank m) :=
  ⟨insertBefore_perm rank m, fun _ _ h => insertBefore_sorted h⟩

/-- An element of the least rank stays in front once it is there. -/
theorem head_insertBefore {acc : List α} (hacc : acc.head? = some m) (hx : rank m ≤ rank x) :
    (insertBefore rank m acc x).head? = some m := by
  cases acc with
  | nil => cases hacc
  | cons a acc =>
    obtain rfl := Option.some.inj hacc
    unfold insertBefore
    split
    · rename_i hbefore
      rcases hbefore with hlt | ⟨-, rfl⟩
      · exact absurd hlt (not_lt.2 hx)
      · rfl
    · rfl

/-- It comes to the front when it is added. -/
theorem head_insertBefore_self {acc : List α} (hacc : ∀ x ∈ acc, rank m ≤ rank x) :
    (insertBefore rank m acc m).head? = some m := by
  cases acc with
  | nil => rfl
  | cons a acc =>
    have hbefore : rank m < rank a ∨ rank m = rank a ∧ m = m := by
      rcases lt_or_eq_of_le (hacc a List.mem_cons_self) with hlt | heq
      · exact .inl hlt
      · exact .inr ⟨heq, rfl⟩
    unfold insertBefore
    rw [if_pos hbefore]
    rfl

/-- **Any element of the least rank is the first one for some addition.** -/
theorem exists_adds (hm : m ∈ l) (hleast : ∀ x ∈ l, rank m ≤ rank x) :
    ∃ add, Adds rank add ∧ (l.foldl add []).head? = some m := by
  refine ⟨insertBefore rank m, adds_insertBefore rank m, ?_⟩
  have hkeep : ∀ (l acc : List α), (∀ x ∈ l, rank m ≤ rank x) → acc.head? = some m →
      (l.foldl (insertBefore rank m) acc).head? = some m := by
    intro l
    induction l with
    | nil => exact fun acc _ hacc => hacc
    | cons x l ih =>
      intro acc hl hacc
      exact ih _ (fun y hy => hl y (List.mem_cons_of_mem x hy)) (head_insertBefore hacc (hl x List.mem_cons_self))
  -- the list up to the element, and after it
  obtain ⟨l₁, l₂, rfl⟩ := List.append_of_mem hm
  rw [List.foldl_append, List.foldl_cons]
  have hperm := (adds_insertBefore rank m).foldl_perm [] l₁
  rw [List.nil_append] at hperm
  refine hkeep l₂ _ ?_ (head_insertBefore_self ?_)
  · exact fun x hx => hleast x (List.mem_append_right l₁ (List.mem_cons_of_mem m hx))
  · exact fun x hx => hleast x (List.mem_append_left _ (hperm.mem_iff.1 hx))

end Prefer

end Ranked
