import Mathlib.Algebra.BigOperators.Intervals
import Mathlib.Algebra.Order.BigOperators.Group.Finset
import Mathlib.Tactic.Common

/-!
# Sums over a grid

A sum over `k` blocks of `n` places, where every place of a block has the weight of its first place
(`sum_range_mul_div`), and sums of which one is below the other everywhere (`sum_eq_iff_of_le`).
-/

namespace Grid

/-- The number of blocks of `n` places that cover `m` places. -/
def blocks (m n : ℕ) : ℕ := (m + n - 1) / n

theorem lt_blocks_iff {m n k : ℕ} (hn : 0 < n) : k < blocks m n ↔ k * n < m := by
  unfold blocks
  rw [← Nat.add_one_le_iff, Nat.le_div_iff_mul_le hn, Nat.add_one_mul]
  omega

theorem le_blocks_mul {m n : ℕ} (hn : 0 < n) : m ≤ blocks m n * n := by
  by_contra hlt
  exact absurd ((lt_blocks_iff hn).2 (Nat.not_le.1 hlt)) (Nat.lt_irrefl _)

theorem sum_range_mul_div (f : ℕ → ℕ) {n : ℕ} (hn : 0 < n) (k : ℕ) :
    ∑ i ∈ Finset.range (k * n), f (i / n) = ∑ j ∈ Finset.range k, n * f j := by
  induction k with
  | zero => simp
  | succ k ih =>
    have hblock : ∀ i ∈ Finset.range n, f ((k * n + i) / n) = f k := by
      intro i hi
      rw [Nat.add_comm, Nat.add_mul_div_right _ _ hn, Nat.div_eq_of_lt (Finset.mem_range.1 hi),
        Nat.zero_add]
    rw [Nat.add_one_mul, Finset.sum_range_add, ih, Finset.sum_const_nat hblock, Finset.card_range,
      Finset.sum_range_succ]

theorem blocks_zero (n : ℕ) : blocks 0 n = 0 := by
  unfold blocks
  rw [Nat.div_eq_zero_iff]
  omega

/-- Two sums of which one is below the other at every place are equal if and only if they are equal everywhere. -/
theorem sum_eq_iff_of_le {f g : ℕ → ℕ} {m : ℕ} (hle : ∀ i < m, f i ≤ g i) :
    ∑ i ∈ Finset.range m, f i = ∑ i ∈ Finset.range m, g i ↔ ∀ i < m, f i = g i := by
  rw [Finset.sum_eq_sum_iff_of_le fun i hi => hle i (Finset.mem_range.1 hi)]
  simp only [Finset.mem_range]

end Grid
