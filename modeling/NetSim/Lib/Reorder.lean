import Mathlib.Data.List.Range
import Mathlib.Data.List.Sort
import Mathlib.Order.Basic
import Mathlib.Tactic.Common

/-!
# In-order delivery with a reorder buffer

Items are numbered from zero and arrive in any order, any number of times. The receiver keeps the
number it waits for and, sorted, the numbers above it that have arrived.

* `InOrder.accept`: what one arrival preserves.
* `InOrder.run`: after any arrivals, the delivered numbers are those below the first missing one, in
  order and each once, and the pending ones are the others that have arrived.
-/

/-- The number waited for, those that are kept, and those that have been delivered. -/
structure Reorder where
  next : ℕ
  pending : List ℕ
  delivered : List ℕ
deriving DecidableEq, Repr

namespace Reorder

/-- One pass over the kept numbers, which moves on behind each number waited for. -/
def advance (next : ℕ) (pending : List ℕ) : ℕ :=
  pending.foldl (fun nxt j => if j = nxt then nxt + 1 else nxt) next

/-- An arrival. -/
def accept (b : Reorder) (i : ℕ) : Reorder :=
  if i = b.next then
    let n := advance (i + 1) b.pending
    { next := n
      pending := b.pending.dropWhile (· < n)
      delivered := b.delivered ++ i :: b.pending.takeWhile (· < n) }
  else if i < b.next ∨ i ∈ b.pending then b
  else { b with pending := b.pending.orderedInsert (· ≤ ·) i }

/-- The receiver at the start. -/
def start : Reorder := ⟨0, [], []⟩

/-- **Delivery in order**: everything below `next` has arrived and been delivered once and in order,
`next` has not arrived, and what has arrived above it is kept. -/
structure InOrder (received : List ℕ) (b : Reorder) : Prop where
  below : ∀ i < b.next, i ∈ received
  missing : b.next ∉ received
  delivered : b.delivered = List.range b.next
  sorted : b.pending.Pairwise (· < ·)
  pending : ∀ j, j ∈ b.pending ↔ j ∈ received ∧ b.next < j

theorem inOrder_start : InOrder [] start :=
  ⟨fun _ h => absurd h (Nat.not_lt_zero _), List.not_mem_nil, rfl, .nil, fun j => by simp [start]⟩

/-! ## The pass over the kept numbers -/

theorem advance_of_lt {next : ℕ} {pending : List ℕ} (h : ∀ j ∈ pending, next < j) :
    advance next pending = next := by
  induction pending with
  | nil => rfl
  | cons j pending ih =>
    have hj : j ≠ next := (h j List.mem_cons_self).ne'
    unfold advance
    rw [List.foldl_cons, if_neg hj]
    exact ih fun i hi => h i (List.mem_cons_of_mem _ hi)

/-- The pass goes over the numbers that follow each other without a gap. -/
theorem advance_spec {next : ℕ} {pending : List ℕ} (hsorted : pending.Pairwise (· < ·))
    (hge : ∀ j ∈ pending, next ≤ j) : ∃ m rest, pending = List.range' next m ++ rest ∧
      advance next pending = next + m ∧ ∀ j ∈ rest, next + m < j := by
  induction pending generalizing next with
  | nil => exact ⟨0, [], rfl, rfl, fun _ h => absurd h List.not_mem_nil⟩
  | cons j pending ih =>
    obtain ⟨hhead, htail⟩ := List.pairwise_cons.1 hsorted
    by_cases hj : j = next
    · subst hj
      obtain ⟨m, rest, hpending, hadvance, hrest⟩ := ih htail fun i hi => hhead i hi
      refine ⟨m + 1, rest, ?_, ?_, ?_⟩
      · rw [hpending, List.range'_succ, List.cons_append]
      · unfold advance at hadvance ⊢
        rw [List.foldl_cons, if_pos rfl, hadvance]
        omega
      · intro i hi
        have hlt := hrest i hi
        omega
    · -- a gap in front of the first number
      have hlt : next < j := lt_of_le_of_ne (hge j List.mem_cons_self) (Ne.symm hj)
      have hall : ∀ i ∈ j :: pending, next < i := by
        intro i hi
        rcases List.mem_cons.1 hi with rfl | hi
        · exact hlt
        · exact hlt.trans (hhead i hi)
      exact ⟨0, j :: pending, rfl, advance_of_lt hall, hall⟩

theorem takeWhile_range'_append {next m : ℕ} {rest : List ℕ} (h : ∀ j ∈ rest, next + m < j) :
    (List.range' next m ++ rest).takeWhile (· < next + m) = List.range' next m := by
  have hrest : rest.takeWhile (· < next + m) = [] := by
    cases rest with
    | nil => rfl
    | cons j rest =>
      have hj := h j List.mem_cons_self
      rw [List.takeWhile_cons_of_neg (by simp; omega)]
  rw [List.takeWhile_append_of_pos, hrest, List.append_nil]
  intro i hi
  have hi := List.mem_range'_1.1 hi
  simp only [decide_eq_true_eq]
  omega

theorem dropWhile_range'_append {next m : ℕ} {rest : List ℕ} (h : ∀ j ∈ rest, next + m < j) :
    (List.range' next m ++ rest).dropWhile (· < next + m) = rest := by
  have happend := List.takeWhile_append_dropWhile (p := fun j => decide (j < next + m))
    (l := List.range' next m ++ rest)
  rw [takeWhile_range'_append h] at happend
  exact List.append_cancel_left happend

/-! ## Arrivals -/

variable {received : List ℕ} {b : Reorder} {i : ℕ}

/-- The number waited for arrives: it is delivered with the kept ones that follow it. -/
theorem InOrder.accept_next (h : InOrder received b) :
    InOrder (b.next :: received) (b.accept b.next) := by
  have hgt : ∀ j ∈ b.pending, b.next + 1 ≤ j := fun j hj => ((h.pending j).1 hj).2
  obtain ⟨m, rest, hpending, hadvance, hrest⟩ := advance_spec h.sorted hgt
  have hmem : ∀ j, j ∈ b.pending ↔ (b.next + 1 ≤ j ∧ j < b.next + 1 + m) ∨ j ∈ rest := by
    intro j
    rw [hpending, List.mem_append, List.mem_range'_1]
  unfold Reorder.accept
  rw [if_pos rfl]
  dsimp only
  rw [hadvance]
  refine ⟨fun j hj => ?_, fun hin => ?_, ?_, h.sorted.sublist (List.dropWhile_sublist _), fun j => ?_⟩
  · dsimp only at hj
    rcases Nat.lt_trichotomy j b.next with hlt | rfl | hgt
    · exact List.mem_cons_of_mem _ (h.below j hlt)
    · exact List.mem_cons_self
    · exact List.mem_cons_of_mem _ ((h.pending j).1 ((hmem j).2 (.inl ⟨hgt, hj⟩))).1
  · -- the first number behind the gap has not arrived
    dsimp only at hin
    rcases List.mem_cons.1 hin with heq | hin
    · omega
    · rcases (hmem _).1 ((h.pending _).2 ⟨hin, by omega⟩) with hlt | hin
      · exact absurd hlt.2 (lt_irrefl _)
      · exact lt_irrefl _ (hrest _ hin)
  · have hrange : List.range' 0 b.next ++ List.range' b.next (m + 1) =
        List.range' 0 (b.next + (m + 1)) := by
      have happend := @List.range'_append_1 0 b.next (m + 1)
      rwa [Nat.zero_add] at happend
    dsimp only
    rw [hpending, takeWhile_range'_append hrest, h.delivered, ← List.range'_succ,
      List.range_eq_range', List.range_eq_range', hrange]
    congr 1
    omega
  · dsimp only
    rw [hpending, dropWhile_range'_append hrest, List.mem_cons]
    constructor
    · intro hj
      exact ⟨.inr ((h.pending j).1 ((hmem j).2 (.inr hj))).1, hrest j hj⟩
    · rintro ⟨hj, hlt⟩
      have hin : j ∈ received := hj.resolve_left (by omega)
      exact ((hmem j).1 ((h.pending j).2 ⟨hin, by omega⟩)).resolve_left (by omega)

/-- A number that has arrived before changes nothing. -/
theorem InOrder.accept_duplicate (h : InOrder received b) (hi : i ≠ b.next)
    (hold : i < b.next ∨ i ∈ b.pending) : InOrder (i :: received) (b.accept i) := by
  have hin : i ∈ received := hold.elim (h.below i) fun hp => ((h.pending i).1 hp).1
  have hmem : ∀ j, j ∈ i :: received ↔ j ∈ received := by
    intro j
    rw [List.mem_cons, or_iff_right_of_imp]
    rintro rfl
    exact hin
  unfold Reorder.accept
  rw [if_neg hi, if_pos hold]
  refine ⟨fun j hj => (hmem j).2 (h.below j hj), fun hj => h.missing ((hmem _).1 hj), h.delivered,
    h.sorted, fun j => ?_⟩
  rw [hmem, h.pending]

/-- A new number above the one waited for is kept. -/
theorem InOrder.accept_ahead (h : InOrder received b) (hlt : b.next < i) (hnew : i ∉ b.pending) :
    InOrder (i :: received) (b.accept i) := by
  have hold : ¬ (i < b.next ∨ i ∈ b.pending) := not_or.2 ⟨hlt.not_gt, hnew⟩
  unfold Reorder.accept
  rw [if_neg hlt.ne', if_neg hold]
  refine ⟨fun j hj => List.mem_cons_of_mem _ (h.below j hj), fun hj => ?_, h.delivered, ?_,
    fun j => ?_⟩
  · exact (List.mem_cons.1 hj).elim (fun heq => hlt.ne heq) h.missing
  · have hle : (b.pending.orderedInsert (· ≤ ·) i).Pairwise (· ≤ ·) :=
      (h.sorted.imp le_of_lt).orderedInsert i _
    have hnodup : (b.pending.orderedInsert (· ≤ ·) i).Nodup := by
      rw [(List.perm_orderedInsert _ i b.pending).nodup_iff, List.nodup_cons]
      exact ⟨hnew, h.sorted.imp ne_of_lt⟩
    exact (hle.and hnodup).imp fun hab => lt_of_le_of_ne hab.1 hab.2
  · dsimp only
    rw [List.mem_orderedInsert, h.pending, List.mem_cons]
    constructor
    · rintro (rfl | hj)
      · exact ⟨.inl rfl, hlt⟩
      · exact ⟨.inr hj.1, hj.2⟩
    · rintro ⟨rfl | hj, hjlt⟩
      · exact .inl rfl
      · exact .inr ⟨hj, hjlt⟩

theorem InOrder.accept (h : InOrder received b) (i : ℕ) : InOrder (i :: received) (b.accept i) := by
  by_cases hi : i = b.next
  · subst hi
    exact h.accept_next
  · by_cases hold : i < b.next ∨ i ∈ b.pending
    · exact h.accept_duplicate hi hold
    · obtain ⟨hnlt, hnew⟩ := not_or.1 hold
      exact h.accept_ahead (by omega) hnew

/-- **Any order of arrivals, with any repetitions.** -/
theorem InOrder.run (h : InOrder received b) (l : List ℕ) :
    InOrder (l.reverse ++ received) (l.foldl Reorder.accept b) := by
  induction l generalizing received b with
  | nil => exact h
  | cons i l ih =>
    rw [List.reverse_cons, List.append_assoc]
    exact ih (h.accept i)

end Reorder
