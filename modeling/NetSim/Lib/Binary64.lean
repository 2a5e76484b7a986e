import Mathlib.Data.Int.Log
import NetSim.Lib.Decimal

/-!
# Doubles

The finite numbers of the binary64 format, with the arithmetic that rounds every result to the nearest of them, ties to even.
Numbers below the normal range keep fewer digits. Results are taken to stay below the largest double.

* `Binary64.round_scaled`: what is a double already is not changed by rounding.
* `Binary64.round_close`, `Binary64.round_close_rel`, `Binary64.round_close_unit`: how far rounding moves a number.
-/

open PyText

namespace Binary64

/-- The distance of neighbouring doubles at the size of a number. -/
def ulp (q : ℚ) : ℚ := 2 ^ max (Int.log 2 |q| - 52) (-1074)

/-- The double nearest to a number. -/
def round (q : ℚ) : ℚ :=
  let n : ℚ := roundEven (|q| / ulp q)
  if q < 0 then -(n * ulp q) else n * ulp q

variable {q : ℚ}

theorem ulp_pos (q : ℚ) : 0 < ulp q := zpow_pos (by norm_num) _

theorem ulp_neg (q : ℚ) : ulp (-q) = ulp q := by
  unfold ulp
  rw [abs_neg]

theorem round_of_nonneg (hq : 0 ≤ q) : round q = (roundEven (q / ulp q) : ℚ) * ulp q := by
  unfold round
  rw [abs_of_nonneg hq]
  exact if_neg (not_lt.2 hq)

theorem round_neg_of_pos (hq : 0 < q) : round (-q) = -round q := by
  rw [round_of_nonneg hq.le]
  unfold round
  rw [abs_neg, abs_of_pos hq, ulp_neg]
  exact if_pos (neg_neg_of_pos hq)

theorem round_zero : round 0 = 0 := by
  rw [round_of_nonneg le_rfl, zero_div, ← Nat.cast_zero, roundEven_natCast, Nat.cast_zero, zero_mul]

/-! ## Sizes -/

theorem log_lt {x : ℤ} (hq : 0 < q) : Int.log 2 q < x ↔ q < 2 ^ x := by
  have h := Int.lt_zpow_iff_log_lt (R := ℚ) one_lt_two (x := x) hq
  rw [Nat.cast_ofNat] at h
  exact h.symm

/-- A number that is not negative has at most 53 digits above its `ulp`. -/
theorem div_ulp_lt (hq : 0 ≤ q) : q / ulp q < 2 ^ 53 := by
  rcases hq.eq_or_lt with rfl | hpos
  · rw [zero_div]
    norm_num
  · rw [div_lt_iff₀ (ulp_pos q)]
    have hsum : (2 : ℚ) ^ 53 * ulp q = 2 ^ (53 + max (Int.log 2 q - 52) (-1074)) := by
      rw [zpow_add₀ two_ne_zero, ulp, abs_of_pos hpos]
      norm_num
    rw [hsum, ← log_lt hpos]
    omega

theorem ulp_le {x : ℤ} (hpos : 0 < q) (hlt : q < 2 ^ (x + 53)) (hx : -1074 ≤ x) : ulp q ≤ 2 ^ x := by
  have hlog := (log_lt hpos).2 hlt
  unfold ulp
  rw [abs_of_pos hpos]
  exact zpow_le_zpow_right₀ one_le_two (by omega)

/-- In the normal range, the `ulp` is small against the number. -/
theorem ulp_le_rel (hq : (2 : ℚ) ^ (-1022 : ℤ) ≤ q) : ulp q ≤ q / 2 ^ 52 := by
  have hpos : 0 < q := lt_of_lt_of_le (zpow_pos two_pos _) hq
  have hself : (2 : ℚ) ^ Int.log 2 q ≤ q := by
    have h := Int.zpow_log_le_self (R := ℚ) one_lt_two hpos
    rw [Nat.cast_ofNat] at h
    exact h
  have hlog : -1022 ≤ Int.log 2 q := by
    by_contra hlow
    have hlt := (log_lt hpos).1 (not_le.1 hlow)
    exact absurd hq (not_le.2 hlt)
  have hmax : max (Int.log 2 q - 52) (-1074) = Int.log 2 q - 52 := by omega
  rw [ulp, abs_of_pos hpos, hmax, zpow_sub₀ two_ne_zero]
  norm_cast
  exact div_le_div_of_nonneg_right hself (by positivity)

/-! ## Rounding -/

theorem round_nonneg (hq : 0 ≤ q) : 0 ≤ round q := by
  rw [round_of_nonneg hq]
  exact mul_nonneg (Nat.cast_nonneg _) (ulp_pos q).le

/-- **Whole multiples of a power of two** are doubles, as long as they have 53 digits. -/
theorem round_scaled {n : ℕ} {x : ℤ} (hn : n ≤ 2 ^ 53) (hx : -1074 ≤ x) : round (n * 2 ^ x) = n * 2 ^ x := by
  have hpow : (0 : ℚ) < 2 ^ x := zpow_pos two_pos x
  rcases Nat.eq_zero_or_pos n with rfl | hpos
  · rw [Nat.cast_zero, zero_mul, round_zero]
  · have hq : (0 : ℚ) < n * 2 ^ x := mul_pos (Nat.cast_pos.2 hpos) hpow
    -- the number of `ulp`s is whole
    have hwhole : ∃ m : ℕ, (n : ℚ) * 2 ^ x / ulp (n * 2 ^ x) = m := by
      rcases Nat.lt_or_eq_of_le hn with hlt | rfl
      · have hle : ulp ((n : ℚ) * 2 ^ x) ≤ 2 ^ x := by
          refine ulp_le hq ?_ hx
          rw [zpow_add₀ two_ne_zero, mul_comm]
          refine mul_lt_mul_of_pos_left ?_ hpow
          exact_mod_cast hlt
        unfold ulp at hle ⊢
        have hexp := (zpow_le_zpow_iff_right₀ (one_lt_two (α := ℚ))).1 hle
        refine ⟨n * 2 ^ (x - max (Int.log 2 |(n : ℚ) * 2 ^ x| - 52) (-1074)).toNat, ?_⟩
        push_cast
        rw [mul_div_assoc, ← zpow_sub₀ two_ne_zero, ← zpow_natCast, Int.toNat_of_nonneg (by omega)]
      · -- `2 ^ 53` is the first number of its size
        refine ⟨2 ^ 52, ?_⟩
        have hlog : Int.log 2 |((2 ^ 53 : ℕ) : ℚ) * 2 ^ x| = 53 + x := by
          rw [abs_of_pos hq, Nat.cast_pow, Nat.cast_ofNat, ← zpow_natCast, Nat.cast_ofNat, ← zpow_add₀ two_ne_zero]
          have h := Int.log_zpow (R := ℚ) one_lt_two (53 + x)
          rw [Nat.cast_ofNat] at h
          exact h
        have hmax : max (53 + x - 52) (-1074) = x + 1 := by omega
        rw [ulp, hlog, hmax, zpow_add_one₀ two_ne_zero]
        push_cast
        field_simp
        norm_num
    obtain ⟨m, hm⟩ := hwhole
    rw [round_of_nonneg hq.le, hm, roundEven_natCast, ← hm]
    exact div_mul_cancel₀ _ (ulp_pos _).ne'

theorem round_natCast {n : ℕ} (hn : n ≤ 2 ^ 53) : round n = n := by
  have h := round_scaled hn (x := 0) (by norm_num)
  rw [zpow_zero, mul_one] at h
  exact h

/-- A rounded number that is not negative is such a multiple. -/
theorem round_eq_scaled (hq : 0 ≤ q) :
    ∃ n : ℕ, n ≤ 2 ^ 53 ∧ round q = n * 2 ^ max (Int.log 2 |q| - 52) (-1074) := by
  refine ⟨roundEven (q / ulp q), ?_, round_of_nonneg hq⟩
  have hclose := (abs_le.1 (roundEven_close (div_nonneg hq (ulp_pos q).le))).2
  have hlt := div_ulp_lt hq
  have hsucc : (roundEven (q / ulp q) : ℚ) < ((2 ^ 53 + 1 : ℕ) : ℚ) := by
    push_cast
    linarith
  exact Nat.lt_succ_iff.1 (Nat.cast_lt.1 hsucc)

theorem round_round (q : ℚ) : round (round q) = round q := by
  rcases le_or_gt 0 q with hq | hq
  · obtain ⟨n, hn, heq⟩ := round_eq_scaled hq
    rw [heq]
    exact round_scaled hn (by omega)
  · have hpos : 0 < -q := neg_pos.2 hq
    have hneg : round q = -round (-q) := by
      have h := round_neg_of_pos hpos
      rw [neg_neg] at h
      exact h
    obtain ⟨n, hn, heq⟩ := round_eq_scaled hpos.le
    have hfix : round (round (-q)) = round (-q) := by
      rw [heq]
      exact round_scaled hn (by omega)
    rw [hneg]
    rcases (round_nonneg hpos.le).eq_or_lt with hzero | hlt
    · rw [← hzero, neg_zero, round_zero]
    · rw [round_neg_of_pos hlt, hfix]

/-- Rounding moves a number by half an `ulp` at most. -/
theorem round_close (hq : 0 ≤ q) : |round q - q| ≤ ulp q / 2 := by
  have hclose := roundEven_close (div_nonneg hq (ulp_pos q).le)
  have hmul : round q - q = (roundEven (q / ulp q) - q / ulp q) * ulp q := by
    rw [round_of_nonneg hq, sub_mul, div_mul_cancel₀ _ (ulp_pos q).ne']
  rw [hmul, abs_mul, abs_of_pos (ulp_pos q)]
  calc |(roundEven (q / ulp q) : ℚ) - q / ulp q| * ulp q
      ≤ 1 / 2 * ulp q := mul_le_mul_of_nonneg_right hclose (ulp_pos q).le
    _ = ulp q / 2 := by ring

/-- In the normal range that is one part in `2^53`. -/
theorem round_close_rel (hq : (2 : ℚ) ^ (-1022 : ℤ) ≤ q) : |round q - q| ≤ q / 2 ^ 53 := by
  have hpos : 0 < q := lt_of_lt_of_le (zpow_pos two_pos _) hq
  have hclose := round_close hpos.le
  have hulp := ulp_le_rel hq
  calc |round q - q| ≤ ulp q / 2 := hclose
    _ ≤ q / 2 ^ 52 / 2 := by linarith
    _ = q / 2 ^ 53 := by ring

/-- Up to one it is `1 / 2^54`. -/
theorem round_close_unit (hq : 0 ≤ q) (h1 : q ≤ 1) : |round q - q| ≤ 1 / 2 ^ 54 := by
  rcases hq.eq_or_lt with rfl | hpos
  · rw [round_zero, sub_zero, abs_zero]
    positivity
  · rcases h1.eq_or_lt with rfl | hlt
    · have hone := round_natCast (n := 1) (by norm_num)
      rw [Nat.cast_one] at hone
      rw [hone, sub_self, abs_zero]
      positivity
    · have hulp : ulp q ≤ 2 ^ (-53 : ℤ) := ulp_le hpos (by norm_num; exact hlt) (by norm_num)
      calc |round q - q| ≤ ulp q / 2 := round_close hq
        _ ≤ 2 ^ (-53 : ℤ) / 2 := div_le_div_of_nonneg_right hulp two_pos.le
        _ = 1 / 2 ^ 54 := by norm_num

end Binary64

/-! ## Arithmetic -/

/-- A double. -/
structure Binary64 where
  val : ℚ
  round_val : Binary64.round val = val
  deriving DecidableEq, Repr

namespace Binary64

def ofRat (q : ℚ) : Binary64 := ⟨round q, round_round q⟩

instance : NatCast Binary64 := ⟨fun n => ofRat n⟩
instance : Zero Binary64 := ⟨ofRat 0⟩
instance : One Binary64 := ⟨ofRat 1⟩
instance : Add Binary64 := ⟨fun a b => ofRat (a.val + b.val)⟩
instance : Sub Binary64 := ⟨fun a b => ofRat (a.val - b.val)⟩
instance : Mul Binary64 := ⟨fun a b => ofRat (a.val * b.val)⟩
instance : Div Binary64 := ⟨fun a b => ofRat (a.val / b.val)⟩

theorem val_injective : Function.Injective val := by
  rintro ⟨a, ha⟩ ⟨b, hb⟩ h
  cases h
  rfl

instance : LinearOrder Binary64 := LinearOrder.lift' val val_injective

theorem val_div (a b : Binary64) : (a / b).val = round (a.val / b.val) := rfl

theorem val_natCast {n : ℕ} (hn : n ≤ 2 ^ 53) : (n : Binary64).val = n := round_natCast hn

-- the product is a little more than 14, the quotient a little less than 0.29
example : ⌈((100 : ℕ) * ofRat (14 / 100)).val⌉₊ = 15 := by decide +kernel
example : ⌊((29 : ℕ) / (100 : ℕ) * (100 : ℕ) : Binary64).val⌋₊ = 28 := by decide +kernel

end Binary64
