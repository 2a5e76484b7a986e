import Mathlib.Algebra.Group.Nat.Defs
import Mathlib.Algebra.GroupWithZero.Nat
import Mathlib.Data.Int.Order.Basic
import Mathlib.Data.List.Basic
import Mathlib.Tactic.Common

/-!
# Machine words and sequence numbers
-/

/-!
## Machine words as natural numbers

An unsigned word is the natural number it holds. Arithmetic on natural numbers is
followed by the reduction that storing the result performs (`u8`, `u16`, `u32`),
so overflow stays visible. `u32_of_lt` removes the reduction where the value fits.
-/

namespace Word

/-- The value kept when `n` is stored in an 8-bit unsigned word. -/
def u8 (n : ℕ) : ℕ := n % 256

/-- The value kept when `n` is stored in a 16-bit unsigned word. -/
def u16 (n : ℕ) : ℕ := n % 65536

/-- The value kept when `n` is stored in a 32-bit unsigned word. -/
def u32 (n : ℕ) : ℕ := n % 4294967296

/-- The value kept when `n` is stored in a 64-bit unsigned word. -/
def u64 (n : ℕ) : ℕ := n % 18446744073709551616

/-- Unsigned 32-bit subtraction. -/
def sub32 (a b : ℕ) : ℕ := u32 (a + (4294967296 - u32 b))

/-- The signed reading of a 32-bit word. -/
def int32 (n : ℕ) : ℤ := if n < 2147483648 then n else (n : ℤ) - 4294967296

/-- An integral value converted to a 32-bit unsigned word. -/
def ofInt32 (z : ℤ) : ℕ := (z % 4294967296).toNat

theorem u8_of_lt {n : ℕ} (h : n < 256) : u8 n = n := Nat.mod_eq_of_lt h

theorem u16_of_lt {n : ℕ} (h : n < 65536) : u16 n = n := Nat.mod_eq_of_lt h

theorem u32_of_lt {n : ℕ} (h : n < 4294967296) : u32 n = n := Nat.mod_eq_of_lt h

theorem u64_of_lt {n : ℕ} (h : n < 18446744073709551616) : u64 n = n := Nat.mod_eq_of_lt h

theorem u32_lt (n : ℕ) : u32 n < 4294967296 := Nat.mod_lt _ (by decide)

theorem sub32_of_le {a b : ℕ} (hb : b ≤ a) (ha : a < 4294967296) : sub32 a b = a - b := by
  unfold sub32 u32
  omega

theorem ofInt32_lt (z : ℤ) : ofInt32 z < 4294967296 := by
  unfold ofInt32
  omega

theorem ofInt32_natCast {n : ℕ} (h : n < 4294967296) : ofInt32 n = n := by
  unfold ofInt32
  omega

theorem ofInt32_sub {z : ℤ} {n : ℕ} (h : n ≤ ofInt32 z) : ofInt32 (z - n) = ofInt32 z - n := by
  unfold ofInt32 at *
  omega

end Word

/-!
## Plain comparisons of wrapping numbers

Sequence numbers are 32-bit words that wrap. A plain comparison of two of them survives the addition
of an offset exactly if both wrap or neither does (`add_le_add_iff`); a plain test for a window does
exactly if the window stays in one piece (`plain_window_iff`). Windows of one turn that follow each other
are disjoint (`not_inWindow_of_le`).
-/

namespace SeqSpace

/-- The two numbers are equal, or both wrap when the offset is added, or neither does. -/
def SameSide (d a b : UInt32) : Prop := a = b ∨ (a + d < a ↔ b + d < b)

instance (d a b : UInt32) : Decidable (SameSide d a b) := inferInstanceAs (Decidable (_ ∨ _))

theorem add_le_add_iff (d a b : UInt32) : (a + d ≤ b + d ↔ a ≤ b) ↔ SameSide d a b := by
  unfold SameSide
  have ha := a.toNat_lt
  have hb := b.toNat_lt
  have hd := d.toNat_lt
  simp only [UInt32.le_iff_toNat_le, UInt32.lt_iff_toNat_lt, UInt32.toNat_add, ← UInt32.toNat_inj]
  omega

theorem add_lt_add_iff (d a b : UInt32) : (a + d < b + d ↔ a < b) ↔ SameSide d a b := by
  unfold SameSide
  have ha := a.toNat_lt
  have hb := b.toNat_lt
  have hd := d.toNat_lt
  simp only [UInt32.lt_iff_toNat_lt, UInt32.toNat_add, ← UInt32.toNat_inj]
  omega

/-- The numbers from `nxt` on, `wnd` of them, with wrapping. -/
def InWindow (nxt wnd x : UInt32) : Prop := x - nxt < wnd

theorem inWindow_add (nxt wnd x d : UInt32) : InWindow (nxt + d) wnd (x + d) ↔ InWindow nxt wnd x := by
  unfold InWindow
  rw [show x + d - (nxt + d) = x - nxt by
    rw [← UInt32.toNat_inj]
    have hx := x.toNat_lt
    have hnxt := nxt.toNat_lt
    have hd := d.toNat_lt
    simp only [UInt32.toNat_sub, UInt32.toNat_add]
    omega]

theorem plain_window_iff (nxt wnd x : UInt32) :
    (nxt ≤ x ∧ x < nxt + wnd) ↔ InWindow nxt wnd x ∧ nxt ≤ nxt + wnd := by
  unfold InWindow
  have hx := x.toNat_lt
  have hnxt := nxt.toNat_lt
  have hwnd := wnd.toNat_lt
  simp only [UInt32.le_iff_toNat_le, UInt32.lt_iff_toNat_lt, UInt32.toNat_sub, UInt32.toNat_add]
  omega

/-- A number up to `stop` lies in the window in front, or behind it. -/
theorem inWindow_split {start stop x : UInt32} (len : UInt32) (h : InWindow start (stop - start) x) :
    InWindow start len x ∨ InWindow (start + len) (stop - (start + len)) x := by
  unfold InWindow at h ⊢
  have hstart := start.toNat_lt
  have hstop := stop.toNat_lt
  have hx := x.toNat_lt
  have hlen := len.toNat_lt
  simp only [UInt32.lt_iff_toNat_lt, UInt32.toNat_sub, UInt32.toNat_add] at h ⊢
  omega

/-- Two windows that lie in one turn, one behind the other, have no number in common. -/
theorem not_inWindow_of_le {nxt wnd nxt' wnd' x : UInt32} (hle : nxt.toNat + wnd.toNat ≤ nxt'.toNat)
    (hturn : nxt'.toNat + wnd'.toNat ≤ nxt.toNat + 4294967296) (h : InWindow nxt wnd x) :
    ¬ InWindow nxt' wnd' x := by
  unfold InWindow at h ⊢
  have hnxt := nxt.toNat_lt
  have hnxt' := nxt'.toNat_lt
  have hx := x.toNat_lt
  simp only [UInt32.lt_iff_toNat_lt, UInt32.toNat_sub] at h ⊢
  omega

end SeqSpace
