import Mathlib.Algebra.Order.Floor.Ring
import Mathlib.Algebra.Order.Round
import Mathlib.Data.List.TakeWhile
import Mathlib.Data.Rat.Floor
import Mathlib.Tactic.FieldSimp
import Mathlib.Tactic.Linarith
import Mathlib.Tactic.NormNum
import Mathlib.Tactic.Positivity
import Mathlib.Tactic.Ring
import NetSim.Lib.PyText

/-!
# Numbers as decimal texts

`%.kf` and `%d` of `printf`, on exact numbers, and what `float` reads back.

* `parseFloat_fixed`: `float` reads the number that `%.kf` has rounded to.
* `fixedValue_close`, `fixedValue_eq_iff`: how far that is from the number printed, and when it is that
  number.
-/

namespace PyText

/-! ## Rounding -/

/-- The nearest integer of a number that is not negative, ties to even. -/
def roundEven (x : ℚ) : ℕ :=
  let n := ⌊x⌋₊
  if x - n < 1 / 2 then n
  else if x - n = 1 / 2 ∧ n % 2 = 0 then n
  else n + 1

theorem roundEven_natCast (n : ℕ) : roundEven n = n := by
  unfold roundEven
  dsimp only
  rw [Nat.floor_natCast, sub_self, if_pos (by norm_num)]

theorem roundEven_close {x : ℚ} (hx : 0 ≤ x) : |(roundEven x : ℚ) - x| ≤ 1 / 2 := by
  have hle := Nat.floor_le hx
  have hlt := Nat.lt_floor_add_one x
  unfold roundEven
  dsimp only
  generalize ⌊x⌋₊ = n at hle hlt ⊢
  rw [abs_le]
  split_ifs with hbelow htie
  · constructor <;> linarith
  · constructor <;> linarith [htie.1]
  · push_cast
    constructor <;> linarith [not_lt.1 hbelow]

/-! ## Printing -/

/-- The last `k` digits. -/
def lastDigits : ℕ → ℕ → Str
  | 0, _ => []
  | k + 1, n => lastDigits k (n / 10) ++ [Nat.digitChar (n % 10)]

/-- `%.kf`, for a positive `k`. -/
def fixed (k : ℕ) (x : ℚ) : Str :=
  let n := roundEven (|x| * 10 ^ k)
  (if x < 0 then ['-'] else []) ++ (Nat.toDigits 10 (n / 10 ^ k) ++ '.' :: lastDigits k n)

/-- The number that `%.kf` prints. -/
def fixedValue (k : ℕ) (x : ℚ) : ℚ :=
  let q : ℚ := (roundEven (|x| * 10 ^ k) : ℚ) / 10 ^ k
  if x < 0 then -q else q

/-- `%d`. -/
def decimal (i : ℤ) : Str := (if i < 0 then ['-'] else []) ++ Nat.toDigits 10 i.natAbs

theorem fixedValue_close (k : ℕ) (x : ℚ) : |fixedValue k x - x| ≤ 1 / 2 / 10 ^ k := by
  have hpow : (0 : ℚ) < 10 ^ k := by positivity
  have hclose := roundEven_close (mul_nonneg (abs_nonneg x) hpow.le)
  have habs : |(roundEven (|x| * 10 ^ k) : ℚ) / 10 ^ k - abs x| ≤ 1 / 2 / 10 ^ k := by
    have hdiv : (roundEven (|x| * 10 ^ k) : ℚ) / 10 ^ k - abs x =
        ((roundEven (|x| * 10 ^ k) : ℚ) - |x| * 10 ^ k) / 10 ^ k := by
      field_simp
    rw [hdiv, abs_div, abs_of_pos hpow]
    exact div_le_div_of_nonneg_right hclose hpow.le
  unfold fixedValue
  dsimp only
  split_ifs with hneg
  · rw [abs_of_neg hneg] at habs ⊢
    rw [← abs_neg]
    have hsymm : -(-((roundEven (-x * 10 ^ k) : ℚ) / 10 ^ k) - x) =
        (roundEven (-x * 10 ^ k) : ℚ) / 10 ^ k - -x := by ring
    rw [hsymm]
    exact habs
  · rw [abs_of_nonneg (not_lt.1 hneg)] at habs ⊢
    exact habs

theorem fixedValue_eq_iff (k : ℕ) (x : ℚ) : fixedValue k x = x ↔ ∃ i : ℤ, x * 10 ^ k = i := by
  have hpow : (0 : ℚ) < 10 ^ k := by positivity
  constructor
  · intro heq
    rw [← heq]
    unfold fixedValue
    dsimp only
    split_ifs
    · refine ⟨-(roundEven (|x| * 10 ^ k) : ℤ), ?_⟩
      push_cast
      field_simp
    · refine ⟨(roundEven (|x| * 10 ^ k) : ℤ), ?_⟩
      push_cast
      field_simp
  · rintro ⟨i, hi⟩
    have habs : |x| * 10 ^ k = (i.natAbs : ℚ) := by
      rw [Nat.cast_natAbs, Int.cast_abs, ← hi, abs_mul, abs_of_pos hpow]
    unfold fixedValue
    dsimp only
    rw [habs, roundEven_natCast, ← habs, mul_div_assoc, div_self hpow.ne', mul_one]
    split_ifs with hneg
    · rw [abs_of_neg hneg, neg_neg]
    · exact abs_of_nonneg (not_lt.1 hneg)

/-! ## The characters of a number -/

/-- A character of `%.kf` or `%d`. -/
def isNumberChar (c : Char) : Prop := c.isDigit = true ∨ c = '-' ∨ c = '.'

theorem isDigit_bounds {c : Char} (h : c.isDigit = true) : 0x30 ≤ c.toNat ∧ c.toNat ≤ 0x39 :=
  Char.isDigit_iff_toNat.1 h

theorem isNumberChar_bounds {c : Char} (h : isNumberChar c) : 0x2D ≤ c.toNat ∧ c.toNat ≤ 0x39 := by
  rcases h with hdigit | rfl | rfl
  · have hbounds := isDigit_bounds hdigit
    omega
  · decide
  · decide

theorem isSpace_number {c : Char} (h : isNumberChar c) : isSpace c = false := by
  have hbounds := isNumberChar_bounds h
  unfold isSpace
  rw [decide_eq_false_iff_not]
  omega

theorem noBlankEnds_number {s : Str} (h : ∀ c ∈ s, isNumberChar c) : NoBlankEnds s :=
  ⟨fun c hc => isSpace_number (h c (List.mem_of_mem_head? hc)),
    fun c hc => isSpace_number (h c (List.mem_of_getLast? hc))⟩

theorem not_mem_number {s : Str} (h : ∀ c ∈ s, isNumberChar c) {c : Char} (hc : c.toNat < 0x2D ∨ 0x39 < c.toNat) :
    c ∉ s := by
  intro hmem
  have hbounds := isNumberChar_bounds (h c hmem)
  omega

theorem lastDigits_isDigit (k n : ℕ) : ∀ c ∈ lastDigits k n, c.isDigit = true := by
  induction k generalizing n with
  | zero => exact nofun
  | succ k ih =>
    intro c hc
    rcases List.mem_append.1 hc with hlater | hlast
    · exact ih _ c hlater
    · obtain rfl := List.mem_singleton.1 hlast
      rw [Nat.isDigit_digitChar]
      exact decide_eq_true (Nat.mod_lt _ (by decide))

theorem toDigits_isDigit (n : ℕ) : ∀ c ∈ Nat.toDigits 10 n, c.isDigit = true := fun _ hc =>
  Nat.isDigit_of_mem_toDigits (by decide) (by decide) hc

theorem sign_number (isNegative : Prop) [Decidable isNegative] :
    ∀ c ∈ (if isNegative then ['-'] else [] : Str), isNumberChar c := by
  split
  · intro c hc
    exact .inr (.inl (List.mem_singleton.1 hc))
  · exact nofun

theorem fixed_number (k : ℕ) (x : ℚ) : ∀ c ∈ fixed k x, isNumberChar c := by
  intro c hc
  rcases List.mem_append.1 hc with hsign | hrest
  · exact sign_number _ c hsign
  · rcases List.mem_append.1 hrest with hwhole | hfraction
    · exact .inl (toDigits_isDigit _ c hwhole)
    · rcases List.mem_cons.1 hfraction with rfl | hdigit
      · exact .inr (.inr rfl)
      · exact .inl (lastDigits_isDigit _ _ c hdigit)

theorem decimal_number (i : ℤ) : ∀ c ∈ decimal i, isNumberChar c := by
  intro c hc
  rcases List.mem_append.1 hc with hsign | hdigit
  · exact sign_number _ c hsign
  · exact .inl (toDigits_isDigit _ c hdigit)

/-- No letter is in the upper case of a number. -/
theorem upper_number {s : Str} (h : ∀ c ∈ s, isNumberChar c) : upper s = s := by
  have hchar : ∀ c ∈ s, upperChar c = [c] := by
    intro c hc
    have hbounds := isNumberChar_bounds (h c hc)
    have hne : ∀ c' : Char, 0x39 < c'.toNat → c ≠ c' := by
      rintro c' hc' rfl
      omega
    have hlower : ¬ ('a' ≤ c ∧ c ≤ 'z') := by
      rintro ⟨hle, -⟩
      have hnat : 'a'.toNat ≤ c.toNat := hle
      have ha : 'a'.toNat = 0x61 := rfl
      omega
    unfold upperChar
    rw [if_neg hlower, if_neg (hne _ (by decide)), if_neg (hne _ (by decide)), if_neg (hne _ (by decide)),
      if_neg (hne _ (by decide)), if_neg (hne _ (by decide)), if_neg (hne _ (by decide)),
      if_neg (hne _ (by decide)), if_neg (hne _ (by decide)),
      if_neg (not_or.2 ⟨hne _ (by decide), hne _ (by decide)⟩)]
  unfold upper
  rw [List.flatMap_congr hchar, List.flatMap_singleton']

/-! ## Reading -/

theorem digitsValue_eq (s : Str) : digitsValue s = Nat.ofDigitChars 10 s 0 := rfl

theorem digitsValue_lastDigits (k n : ℕ) :
    digitsValue (Nat.toDigits 10 (n / 10 ^ k) ++ lastDigits k n) = n := by
  rw [digitsValue_eq]
  induction k generalizing n with
  | zero =>
    rw [lastDigits, List.append_nil, Nat.ofDigitChars_ten_toDigits]
    exact Nat.div_one n
  | succ k ih =>
    have hdiv : n / 10 ^ (k + 1) = n / 10 / 10 ^ k := by
      rw [Nat.div_div_eq_div_mul, Nat.pow_succ']
    rw [hdiv, lastDigits, ← List.append_assoc, Nat.ofDigitChars_append, ih,
      Nat.ofDigitChars_cons_digitChar_of_lt_ten (Nat.mod_lt _ (by decide)), Nat.ofDigitChars_nil]
    omega

theorem lastDigits_length (k n : ℕ) : (lastDigits k n).length = k := by
  induction k generalizing n with
  | zero => rfl
  | succ k ih => rw [lastDigits, List.length_append, ih, List.length_singleton]

theorem dropUnderscores_of_not_mem {s : Str} (h : '_' ∉ s) (isDigit : Bool) :
    dropUnderscores isDigit s = some s := by
  induction s generalizing isDigit with
  | nil => cases isDigit <;> rfl
  | cons c rest ih =>
    obtain ⟨hc, hrest⟩ := not_or.1 (mt List.mem_cons.2 h)
    unfold dropUnderscores
    split
    · rename_i heq
      cases heq
    · rename_i heq
      exact absurd (List.cons.inj heq).1.symm hc
    · rename_i heq
      exact absurd (List.cons.inj heq).1.symm hc
    · rename_i c' rest' _ _ heq
      obtain ⟨rfl, rfl⟩ := List.cons.inj heq
      rw [ih hrest]
      rfl

/-- Digits, a point and digits. -/
theorem parseDecimal_digits {w f : Str} (hw : ∀ c ∈ w, c.isDigit = true) (hne : w ≠ [])
    (hf : ∀ c ∈ f, c.isDigit = true) :
    parseDecimal (w ++ '.' :: f) = some ((digitsValue (w ++ f) : ℚ) / 10 ^ f.length) := by
  have htake : (w ++ '.' :: f).takeWhile Char.isDigit = w := by
    rw [List.takeWhile_append_of_pos hw]
    exact List.append_nil w
  have hdrop : (w ++ '.' :: f).dropWhile Char.isDigit = '.' :: f := by
    rw [List.dropWhile_append_of_pos hw]
    rfl
  have htake' : f.takeWhile Char.isDigit = f := List.takeWhile_eq_self_iff.2 hf
  have hdrop' : f.dropWhile Char.isDigit = [] := List.dropWhile_eq_nil_iff.2 hf
  unfold parseDecimal
  rw [htake, hdrop]
  change (if w = [] ∧ f.takeWhile Char.isDigit = [] then none
    else (parseExponent (f.dropWhile Char.isDigit)).map fun e =>
      (digitsValue (w ++ f.takeWhile Char.isDigit) : ℚ) * 10 ^ (e - ((f.takeWhile Char.isDigit).length : ℤ))) = _
  rw [htake', hdrop', if_neg (fun h => hne h.1), parseExponent, Option.map_some, zero_sub, zpow_neg,
    zpow_natCast]
  rfl

/-- Digits, a point and digits, to `float`. -/
theorem parseUnsigned_digits {w f : Str} (hw : ∀ c ∈ w, c.isDigit = true) (hne : w ≠ [])
    (hf : ∀ c ∈ f, c.isDigit = true) :
    parseUnsigned (w ++ '.' :: f) = some (.finite ((digitsValue (w ++ f) : ℚ) / 10 ^ f.length)) := by
  -- The names begin with letters.
  have hname : ∀ name : Str, (∃ c, name.head? = some c ∧ c.isDigit = false) →
      (w ++ '.' :: f).map Char.toLower ≠ name := by
    rintro name ⟨c, hhead, hc⟩ rfl
    cases w with
    | nil => exact hne rfl
    | cons d w =>
      have hd := hw d List.mem_cons_self
      have hlower : d.toLower = d := by
        refine dif_neg fun h => ?_
        have hbounds := isDigit_bounds hd
        have hle : 'A'.toNat ≤ d.toNat := h.1
        have ha : 'A'.toNat = 0x41 := rfl
        omega
      obtain rfl : d = c := hlower.symm.trans (Option.some.inj hhead)
      rw [hd] at hc
      exact absurd hc.symm Bool.false_ne_true
  unfold parseUnsigned
  dsimp only
  rw [if_neg (not_or.2 ⟨hname _ ⟨'i', by decide, by decide⟩, hname _ ⟨'i', by decide, by decide⟩⟩),
    if_neg (hname _ ⟨'n', by decide, by decide⟩), parseDecimal_digits hw hne hf]
  rfl

/-- A digit is not a sign. -/
theorem takeSign_digit {w : Str} (hw : ∀ c ∈ w, c.isDigit = true) (hne : w ≠ []) (rest : Str) :
    takeSign (w ++ rest) = (false, w ++ rest) := by
  cases w with
  | nil => exact absurd rfl hne
  | cons c w =>
    have hdigit := hw c List.mem_cons_self
    rw [List.cons_append]
    unfold takeSign
    split
    · rename_i heq
      rw [(List.cons.inj heq).1] at hdigit
      exact absurd hdigit (by decide)
    · rename_i heq
      rw [(List.cons.inj heq).1] at hdigit
      exact absurd hdigit (by decide)
    · rfl

/-- **`float` reads the number that `%.kf` has rounded to.** -/
theorem parseFloat_fixed (k : ℕ) (x : ℚ) : parseFloat (fixed k x) = some (.finite (fixedValue k x)) := by
  have hnumber := fixed_number k x
  have hunderscore : '_' ∉ fixed k x := not_mem_number hnumber (.inr (by decide))
  unfold parseFloat
  rw [strip_of_ends (noBlankEnds_number hnumber), dropUnderscores_of_not_mem hunderscore]
  unfold fixed fixedValue
  dsimp only
  generalize roundEven (|x| * 10 ^ k) = n
  have hread : parseUnsigned (Nat.toDigits 10 (n / 10 ^ k) ++ '.' :: lastDigits k n) =
      some (.finite ((n : ℚ) / 10 ^ k)) := by
    rw [parseUnsigned_digits (toDigits_isDigit _) Nat.toDigits_ne_nil (lastDigits_isDigit k n),
      digitsValue_lastDigits, lastDigits_length]
  split_ifs with hneg
  · have hsign : takeSign (['-'] ++ (Nat.toDigits 10 (n / 10 ^ k) ++ '.' :: lastDigits k n)) =
        (true, Nat.toDigits 10 (n / 10 ^ k) ++ '.' :: lastDigits k n) := rfl
    rw [Option.bind_eq_bind, Option.bind_some, hsign, hread]
    rfl
  · have hsign := takeSign_digit (toDigits_isDigit (n / 10 ^ k)) Nat.toDigits_ne_nil ('.' :: lastDigits k n)
    rw [Option.bind_eq_bind, Option.bind_some, List.nil_append, hsign, hread]
    rfl

end PyText
