import Mathlib.Algebra.Order.Group.Defs
import Mathlib.Algebra.Order.Sub.Basic
import Mathlib.Data.List.Basic
import Mathlib.Data.List.Induction
import Mathlib.Order.Basic
import Mathlib.Tactic.Common

/-!
# The recent ones of a sequence of times

A sequence of times is a list with the newest time first, so it does not increase. `recent` keeps those within a span before
the newest.

* `recent_cons`: it is computed from what was recent before.
* `two_le_length_recent_iff`: when more than the newest is recent.
-/

namespace Recent

variable {α : Type*} [AddCommGroup α] [LinearOrder α] [IsOrderedAddMonoid α]

/-- The times within `span` before the newest. -/
def recent (span : α) : List α → List α
  | [] => []
  | now :: times => (now :: times).filter fun t => now - span ≤ t

variable {span now t t' : α} {times l : List α}

omit [AddCommGroup α] [IsOrderedAddMonoid α] in
theorem filter_le_cons_of_le {cutoff : α} (h : cutoff ≤ t) (l : List α) :
    (t :: l).filter (fun s => cutoff ≤ s) = t :: l.filter fun s => cutoff ≤ s :=
  List.filter_cons_of_pos (p := fun s => decide (cutoff ≤ s)) (decide_eq_true h)

omit [AddCommGroup α] [IsOrderedAddMonoid α] in
/-- In times that do not decrease, dropping the early ones at the front drops all of them. -/
theorem dropWhile_eq_filter (hl : l.Pairwise (· ≤ ·)) (cutoff : α) :
    l.dropWhile (fun t => t < cutoff) = l.filter fun t => cutoff ≤ t := by
  induction l with
  | nil => rfl
  | cons t l ih =>
    obtain ⟨hle, hl⟩ := List.pairwise_cons.1 hl
    by_cases hlt : t < cutoff
    · have hge : ¬ cutoff ≤ t := not_le.2 hlt
      simp only [List.dropWhile_cons, List.filter_cons, hlt, hge, decide_true, decide_false, if_true, ih hl]
      simp
    · have hall : (t :: l).filter (fun t => cutoff ≤ t) = t :: l := by
        apply List.filter_eq_self.2
        intro s hs
        have hts : t ≤ s := by
          rcases List.mem_cons.1 hs with rfl | hs
          · exact le_refl s
          · exact hle s hs
        exact decide_eq_true (le_trans (not_lt.1 hlt) hts)
      rw [hall]
      simp only [List.dropWhile_cons, hlt, decide_false]
      simp

omit [IsOrderedAddMonoid α] in
theorem recent_sublist (times : List α) : (recent span times).Sublist times := by
  cases times with
  | nil => exact List.Sublist.refl []
  | cons now times => exact List.filter_sublist

omit [IsOrderedAddMonoid α] in
theorem not_two_le_length_recent_singleton (now : α) : ¬ 2 ≤ (recent span [now]).length := by
  have hsub : (recent span [now]).Sublist [now] := recent_sublist [now]
  have hle := hsub.length_le
  rw [List.length_singleton] at hle
  omega

theorem recent_eq_cons (hspan : 0 ≤ span) (now : α) (times : List α) :
    recent span (now :: times) = now :: times.filter fun t => now - span ≤ t :=
  filter_le_cons_of_le (sub_le_self now hspan) times

/-- What is no longer recent is not recent later. -/
theorem recent_cons (hspan : 0 ≤ span) (hord : (now :: times).Pairwise (fun a b => b ≤ a)) :
    recent span (now :: times) = (now :: recent span times).filter fun t => now - span ≤ t := by
  cases times with
  | nil => rfl
  | cons t times =>
    have hle : t ≤ now := (List.pairwise_cons.1 hord).1 t List.mem_cons_self
    have hsame : (recent span (t :: times)).filter (fun s => now - span ≤ s) =
        (t :: times).filter fun s => now - span ≤ s := by
      unfold recent
      rw [List.filter_filter]
      apply List.filter_congr
      intro s _
      by_cases hs : now - span ≤ s
      · have ht : t - span ≤ s := le_trans (sub_le_sub_right hle span) hs
        simp [hs, ht]
      · simp [hs]
    rw [recent_eq_cons hspan, filter_le_cons_of_le (sub_le_self now hspan), hsame]

/-- More than the newest time is recent exactly if the one before it is. -/
theorem two_le_length_recent_iff (hspan : 0 ≤ span) (hord : (now :: t :: times).Pairwise (fun a b => b ≤ a)) :
    2 ≤ (recent span (now :: t :: times)).length ↔ now - t ≤ span := by
  rw [recent_eq_cons hspan, List.length_cons]
  by_cases ht : now - span ≤ t
  · have hclose : now - t ≤ span := sub_le_comm.1 ht
    rw [filter_le_cons_of_le ht, List.length_cons]
    simp only [hclose, iff_true]
    omega
  · -- the one before is too early, and so are all others
    have hnone : (t :: times).filter (fun s => now - span ≤ s) = [] := by
      apply List.filter_eq_nil_iff.2
      intro s hs
      have hle : s ≤ t := by
        rcases List.mem_cons.1 hs with rfl | hs
        · exact le_refl s
        · exact (List.pairwise_cons.1 (List.pairwise_cons.1 hord).2).1 s hs
      have hearly : ¬ now - span ≤ s := fun hs => ht (le_trans hs hle)
      rw [decide_eq_true_eq]
      exact hearly
    have hfar : ¬ now - t ≤ span := fun hclose => ht (sub_le_comm.1 hclose)
    rw [hnone]
    simp [hfar]

end Recent
