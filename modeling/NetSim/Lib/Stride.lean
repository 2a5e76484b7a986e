import Mathlib.Data.Nat.Find
import Mathlib.Tactic.Common
import Mathlib.Tactic.Ring

/-!
# A counter that meets a mark

A counter starts at `a` and goes up by `i` modulo `N`. It is safe if it meets a mark before it is at or
past a limit (`MarkFirst`). Without wrapping that means that the stride divides the distance to the mark
(`markFirst_iff_dvd`).
-/

namespace Stride

variable {N i limit a : ℕ} {mark : ℕ → Prop}

/-- Each time the counter is at or past the limit it has met a mark before. -/
def MarkFirst (N i : ℕ) (mark : ℕ → Prop) (limit a : ℕ) : Prop :=
  ∀ n, limit ≤ (a + n * i) % N → ∃ m, 0 < m ∧ m < n ∧ mark ((a + m * i) % N)

theorem MarkFirst.next_lt (h : MarkFirst N i mark limit a) : (a + i) % N < limit := by
  by_contra hle
  obtain ⟨m, hpos, hlt, -⟩ := h 1 (by rw [one_mul]; omega)
  omega

theorem MarkFirst.lt (h : MarkFirst N i mark limit a) (ha : a < N) : a < limit := by
  by_contra hle
  obtain ⟨m, -, hlt, -⟩ := h 0 (by rw [zero_mul, add_zero, Nat.mod_eq_of_lt ha]; omega)
  omega

theorem mod_step (N i a n : ℕ) : ((a + i) % N + n * i) % N = (a + (n + 1) * i) % N := by
  rw [Nat.mod_add_mod]
  congr 1
  ring

/-- A step that does not meet a mark keeps the counter safe. -/
theorem MarkFirst.step (h : MarkFirst N i mark limit a) (hmark : ¬ mark ((a + i) % N)) :
    MarkFirst N i mark limit ((a + i) % N) := by
  intro n hn
  rw [mod_step] at hn
  obtain ⟨m, hpos, hlt, hm⟩ := h (n + 1) hn
  have hne : m ≠ 1 := by
    rintro rfl
    rw [one_mul] at hm
    exact hmark hm
  refine ⟨m - 1, by omega, by omega, ?_⟩
  rw [mod_step]
  have heq : m - 1 + 1 = m := by omega
  rw [heq]
  exact hm

/-- A counter that is not safe is at or past the limit at some time, and neither that nor marked at any
time in between. -/
theorem exists_of_not_markFirst (h : ¬ MarkFirst N i mark limit a) :
    ∃ n, limit ≤ (a + n * i) % N ∧
      ∀ m, 0 < m → m < n → (a + m * i) % N < limit ∧ ¬ mark ((a + m * i) % N) := by
  classical
  unfold MarkFirst at h
  push Not at h
  have hex : ∃ n, limit ≤ (a + n * i) % N ∧ ∀ m, 0 < m → m < n → ¬ mark ((a + m * i) % N) := h
  refine ⟨Nat.find hex, (Nat.find_spec hex).1, ?_⟩
  intro m hpos hlt
  have hmark := (Nat.find_spec hex).2
  refine ⟨?_, hmark m hpos hlt⟩
  by_contra hle
  exact Nat.find_min hex hlt ⟨by omega, fun m' hpos' hlt' => hmark m' hpos' (by omega)⟩

/-- If the counter cannot wrap below the limit, it is safe if it stands still or its stride leads to the
mark. -/
theorem markFirst_iff_dvd {R : ℕ} (hR : R < limit) (ha : a < limit) (hN : limit + i ≤ N) :
    MarkFirst N i (fun x => x = R) limit a ↔ i = 0 ∨ a < R ∧ i ∣ R - a := by
  constructor
  · intro h
    rcases Nat.eq_zero_or_pos i with hi | hi
    · exact Or.inl hi
    have hex : ∃ n, limit ≤ a + n * i := by
      have hle : limit * 1 ≤ limit * i := Nat.mul_le_mul_left limit hi
      exact ⟨limit, by omega⟩
    have hbefore : ∀ m, m < Nat.find hex → a + m * i < limit := fun m hm =>
      Nat.lt_of_not_le (Nat.find_min hex hm)
    obtain ⟨p, hp⟩ : ∃ p, Nat.find hex = p + 1 := by
      have hne : Nat.find hex ≠ 0 := by
        intro h0
        have hspec := Nat.find_spec hex
        rw [h0] at hspec
        omega
      exact ⟨Nat.find hex - 1, by omega⟩
    have hlast := hbefore p (by omega)
    have hspec := Nat.find_spec hex
    have hval : a + Nat.find hex * i = a + p * i + i := by rw [hp]; ring
    obtain ⟨m, hpos, hlt, hm⟩ := h (Nat.find hex) (by rw [Nat.mod_eq_of_lt (by omega)]; exact hspec)
    have hmlt := hbefore m hlt
    rw [Nat.mod_eq_of_lt (by omega)] at hm
    have hmi : 0 < m * i := Nat.mul_pos hpos hi
    exact Or.inr ⟨by omega, ⟨m, by rw [mul_comm]; omega⟩⟩
  · rintro (rfl | ⟨hlt, q, hq⟩) n hn
    · rw [mul_zero, add_zero, Nat.mod_eq_of_lt (by omega)] at hn
      omega
    · have hRa : a + q * i = R := by rw [mul_comm]; omega
      have hq0 : 0 < q := by
        rcases Nat.eq_zero_or_pos q with rfl | h
        · rw [zero_mul] at hRa
          omega
        · exact h
      have hqn : q < n := by
        by_contra hle
        have hni : n * i ≤ q * i := Nat.mul_le_mul_right i (by omega)
        rw [Nat.mod_eq_of_lt (by omega)] at hn
        omega
      exact ⟨q, hq0, hqn, by rw [hRa, Nat.mod_eq_of_lt (by omega)]⟩

end Stride
