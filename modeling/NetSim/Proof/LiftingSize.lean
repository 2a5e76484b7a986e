import Mathlib.Order.Bounds.Basic
import Mathlib.Tactic.Ring
import NetSim.Lib.FirstMatch
import NetSim.Spec.Carrier

/-!
# The size of the code blocks

The table of lifting sizes is searched for the first size whose columns hold more bits than a code block has. A size that
holds just these bits is passed over, and the next one is taken. Only the largest size is taken when it is filled, since it
is the default.

* `lift_isLeast_iff`: when the lifting size is the least that has room.
* `codeBlockSize_sound_iff`: when the whole result is sound.
-/

namespace NetSim.Multiplexer

open Word

variable {ldpcg tbs k c k_ z : ℕ}

/-- **A sound segmentation**: the code blocks are no larger than allowed, have room for the transport block and the CRC
that each of several code blocks has, fit the LDPC code, and its lifting size is the least possible. -/
structure Sound (ldpcg tbs : ℕ) (r : CodeBlockSize) : Prop where
  fits : r.cbs_ ≤ kcb ldpcg
  covers : tbs + (if kcb ldpcg < tbs then 24 * r.c else 0) ≤ r.c * r.cbs_
  room : r.cbs_ ≤ r.cbs
  least : IsLeast {z | z ∈ ldpcLiftingSizeTable ∧ r.cbs_ ≤ kb ldpcg tbs * z} r.zc

/-- The transport block and the CRCs of its code blocks fit in 32 bits. -/
def Counted (ldpcg tbs : ℕ) : Prop :=
  tbs ≤ kcb ldpcg ∨ tbs + 24 * (tbs ⌈/⌉ (kcb ldpcg - 24)) < 4294967296

/-- The share of each of `n` code blocks in `bits`, in whole bytes. -/
def share (bits n : ℕ) : ℕ := 8 * (bits ⌈/⌉ (8 * n))

/-- No lifting size but the largest is filled by a code block. -/
def Unfilled (ldpcg tbs : ℕ) : Prop :=
  ∀ z ∈ ldpcLiftingSizeTable, z < 384 → kb ldpcg tbs * z ≠
    if tbs ≤ kcb ldpcg then share tbs 1
    else share (tbs + 24 * (tbs ⌈/⌉ (kcb ldpcg - 24))) (tbs ⌈/⌉ (kcb ldpcg - 24))

instance Unfilled.decidable (ldpcg tbs : ℕ) : Decidable (Unfilled ldpcg tbs) :=
  inferInstanceAs (Decidable (∀ z ∈ ldpcLiftingSizeTable, z < 384 → kb ldpcg tbs * z ≠
    if tbs ≤ kcb ldpcg then share tbs 1
    else share (tbs + 24 * (tbs ⌈/⌉ (kcb ldpcg - 24))) (tbs ⌈/⌉ (kcb ldpcg - 24))))

theorem table_sorted : ldpcLiftingSizeTable.Pairwise (· < ·) := by decide

theorem le_384_of_mem (hz : z ∈ ldpcLiftingSizeTable) : z ≤ 384 := by
  have hall : ∀ z ∈ ldpcLiftingSizeTable, z ≤ 384 := by decide
  exact hall z hz

theorem largest_mem : 384 ∈ ldpcLiftingSizeTable := by decide

theorem kb_pos (ldpcg tbs : ℕ) : 0 < kb ldpcg tbs := by
  unfold kb
  split_ifs <;> omega

/-- The search finds the least lifting size with room to spare, or there is none. -/
theorem lift_zc_cases (ldpcg k c k_ : ℕ) :
    (∀ z ∈ ldpcLiftingSizeTable, k * z ≤ k_) ∧ (CodeBlockSize.lift ldpcg k c k_).zc = 384 ∨
      (CodeBlockSize.lift ldpcg k c k_).zc ∈ ldpcLiftingSizeTable ∧
        k_ < k * (CodeBlockSize.lift ldpcg k c k_).zc ∧
        ∀ z ∈ ldpcLiftingSizeTable, k_ < k * z → (CodeBlockSize.lift ldpcg k c k_).zc ≤ z := by
  have hzc : (CodeBlockSize.lift ldpcg k c k_).zc = (ldpcLiftingSizeTable.find? fun z => k_ < k * z).getD 384 := rfl
  rw [hzc]
  cases hfind : ldpcLiftingSizeTable.find? fun z => k_ < k * z with
  | none =>
    refine .inl ⟨?_, rfl⟩
    intro z hz
    have hno := List.find?_eq_none.1 hfind z hz
    simpa using hno
  | some w =>
    refine .inr ⟨List.mem_of_find?_eq_some hfind, by simpa using List.find?_some hfind, ?_⟩
    intro z hz hlt
    have hrel := FirstMatch.eq_or_rel_of_find? table_sorted hfind hz (decide_eq_true hlt)
    show w ≤ z
    omega

/-- The lifting size is the least that has room, unless a smaller one is just filled. -/
theorem lift_isLeast_iff (hk : 0 < k) (hle : k_ ≤ k * 384) :
    IsLeast {z | z ∈ ldpcLiftingSizeTable ∧ k_ ≤ k * z} (CodeBlockSize.lift ldpcg k c k_).zc ↔
      ∀ z ∈ ldpcLiftingSizeTable, z < 384 → k * z ≠ k_ := by
  rcases lift_zc_cases ldpcg k c k_ with ⟨hfull, hzc⟩ | ⟨hmem, hroom, hleast⟩
  · -- the largest lifting size is filled, and the default gives just that size
    have heq : k_ = k * 384 := Nat.le_antisymm hle (hfull 384 largest_mem)
    rw [hzc]
    constructor
    · intro _ z _ hlt hk_
      have hmul := Nat.mul_lt_mul_of_pos_left hlt hk
      omega
    · intro _
      refine ⟨⟨largest_mem, hle⟩, ?_⟩
      rintro z ⟨_, hz⟩
      rw [heq] at hz
      exact Nat.le_of_mul_le_mul_left hz hk
  · generalize (CodeBlockSize.lift ldpcg k c k_).zc = w at hmem hroom hleast
    constructor
    · rintro ⟨_, hlow⟩ z hz _ hk_
      have hwz : w ≤ z := hlow ⟨hz, Nat.le_of_eq hk_.symm⟩
      have hmul := Nat.mul_le_mul_left k hwz
      omega
    · intro hne
      refine ⟨⟨hmem, Nat.le_of_lt hroom⟩, ?_⟩
      rintro z ⟨hz, hk_⟩
      rcases Nat.lt_or_eq_of_le hk_ with hlt | heq
      · exact hleast z hz hlt
      · -- a size that is filled is the largest, and nothing has more room than that
        have hmax : ¬ z < 384 := fun hlt => hne z hz hlt heq.symm
        have hw := le_384_of_mem hmem
        omega

theorem room_of_lift (ldpcg tbs c : ℕ) (hle : k_ ≤ kcb ldpcg) :
    k_ ≤ (CodeBlockSize.lift ldpcg (kb ldpcg tbs) c k_).cbs := by
  have hcbs : (CodeBlockSize.lift ldpcg (kb ldpcg tbs) c k_).cbs = if ldpcg = 1
      then 22 * (CodeBlockSize.lift ldpcg (kb ldpcg tbs) c k_).zc
      else 10 * (CodeBlockSize.lift ldpcg (kb ldpcg tbs) c k_).zc := rfl
  rw [hcbs]
  rcases lift_zc_cases ldpcg (kb ldpcg tbs) c k_ with ⟨-, hzc⟩ | ⟨-, hroom, -⟩
  · rw [hzc]
    unfold kcb at hle
    split_ifs at * <;> omega
  · generalize (CodeBlockSize.lift ldpcg (kb ldpcg tbs) c k_).zc = w at hroom
    have hkb : kb ldpcg tbs ≤ if ldpcg = 1 then 22 else 10 := by
      unfold kb
      split_ifs <;> omega
    have hmul := Nat.mul_le_mul_right w hkb
    split_ifs at * <;> omega

theorem le_mul_ceilDiv (n : ℕ) {d : ℕ} (hd : 0 < d) : n ≤ d * (n ⌈/⌉ d) := by
  have hle := le_smul_ceilDiv (b := n) hd
  rwa [smul_eq_mul] at hle

theorem mul_ceilDiv_lt (n : ℕ) {d : ℕ} (hd : 0 < d) : d * (n ⌈/⌉ d) < n + d := by
  have hle := Nat.mul_div_le (n + d - 1) d
  rw [← Nat.ceilDiv_eq_add_pred_div] at hle
  omega

theorem kcb_eq (ldpcg : ℕ) : kcb ldpcg = 8 * 1056 ∨ kcb ldpcg = 8 * 480 := by
  unfold kcb
  split_ifs <;> simp

/-- A share is within the bound that all shares together are within. -/
theorem share_le {bits n m : ℕ} (hn : 0 < n) (hle : bits ≤ n * (8 * m)) : share bits n ≤ 8 * m := by
  have hceil : bits ⌈/⌉ (8 * n) ≤ m := by
    rw [ceilDiv_le_iff_le_mul (by omega)]
    calc bits ≤ n * (8 * m) := hle
      _ = 8 * n * m := by ring
  unfold share
  omega

theorem le_mul_share (bits : ℕ) {n : ℕ} (hn : 0 < n) : bits ≤ n * share bits n := by
  have hle := le_mul_ceilDiv bits (show 0 < 8 * n by omega)
  calc bits ≤ 8 * n * (bits ⌈/⌉ (8 * n)) := hle
    _ = n * share bits n := by unfold share; ring

theorem mul_share_lt (bits : ℕ) {n : ℕ} (hn : 0 < n) : n * share bits n < bits + 8 * n := by
  have hlt := mul_ceilDiv_lt bits (show 0 < 8 * n by omega)
  calc n * share bits n = 8 * n * (bits ⌈/⌉ (8 * n)) := by unfold share; ring
    _ < bits + 8 * n := hlt

/-- The columns of the largest lifting size hold every code block. -/
theorem le_kb_mul (h : k_ ≤ kcb ldpcg) (hsmall : tbs ≤ 640 → k_ ≤ 640) : k_ ≤ kb ldpcg tbs * 384 := by
  unfold kb
  unfold kcb at h
  split_ifs at * <;> omega

/-- With a given number of code blocks and their size, all but the lifting size is a matter of the bits covered. -/
theorem sound_lift_iff (hfits : k_ ≤ kcb ldpcg) (hsmall : tbs ≤ 640 → k_ ≤ 640) (c : ℕ) :
    Sound ldpcg tbs (.lift ldpcg (kb ldpcg tbs) c k_) ↔
      tbs + (if kcb ldpcg < tbs then 24 * c else 0) ≤ c * k_ ∧
        ∀ z ∈ ldpcLiftingSizeTable, z < 384 → kb ldpcg tbs * z ≠ k_ := by
  have hleast : IsLeast {z | z ∈ ldpcLiftingSizeTable ∧ k_ ≤ kb ldpcg tbs * z}
      (CodeBlockSize.lift ldpcg (kb ldpcg tbs) c k_).zc ↔
        ∀ z ∈ ldpcLiftingSizeTable, z < 384 → kb ldpcg tbs * z ≠ k_ :=
    lift_isLeast_iff (kb_pos ldpcg tbs) (le_kb_mul hfits hsmall)
  constructor
  · intro h
    exact ⟨h.covers, hleast.1 h.least⟩
  · rintro ⟨hcovers, hne⟩
    exact ⟨hfits, hcovers, room_of_lift ldpcg tbs c hfits, hleast.2 hne⟩

/-- The counted bits cover everything exactly if they have not wrapped. -/
theorem covers_iff {n bits : ℕ} (hn : 0 < n) (h8 : 8 * n ≤ 4294967296) (hbits : bits < 2 * 4294967296) :
    bits ≤ n * share (u32 bits) n ↔ bits < 4294967296 := by
  constructor
  · intro hle
    by_contra hge
    have hlt := mul_share_lt (u32 bits) hn
    unfold u32 at *
    omega
  · intro hlt
    rw [u32_of_lt hlt]
    exact le_mul_share bits hn

/-- **The segmentation is sound exactly if** the bits do not wrap and no code block just fills a smaller lifting size. -/
theorem codeBlockSize_sound_iff (ldpcg tbs : ℕ) (htbs : tbs < 4294967296) :
    Sound ldpcg tbs (computeCodeBlockSize ldpcg tbs) ↔ Counted ldpcg tbs ∧ Unfilled ldpcg tbs := by
  have hkcb := kcb_eq ldpcg
  unfold Counted Unfilled
  by_cases hlarge : kcb ldpcg < tbs
  · have hcomp : computeCodeBlockSize ldpcg tbs = .lift ldpcg (kb ldpcg tbs) (tbs ⌈/⌉ (kcb ldpcg - 24))
        (share (u32 (tbs + 24 * (tbs ⌈/⌉ (kcb ldpcg - 24)))) (tbs ⌈/⌉ (kcb ldpcg - 24))) := by
      unfold computeCodeBlockSize share
      rw [if_pos hlarge]
      simp only [Nat.mul_comm]
    -- the code blocks have room for all bits, and are not many
    have hpos : 0 < kcb ldpcg - 24 := by omega
    have hroom := le_mul_ceilDiv tbs hpos
    have hfew := mul_ceilDiv_lt tbs hpos
    rw [hcomp]
    generalize hc : tbs ⌈/⌉ (kcb ldpcg - 24) = c at *
    have hc0 : 0 < c := by
      rcases Nat.eq_zero_or_pos c with rfl | hc0
      · omega
      · exact hc0
    have hall : tbs + 24 * c ≤ c * kcb ldpcg := by
      rcases hkcb with h | h <;> rw [h] at hroom ⊢ <;> omega
    have h8 : 8 * c ≤ 4294967296 := by
      rcases hkcb with h | h <;> rw [h] at hfew <;> omega
    have hbits : tbs + 24 * c < 2 * 4294967296 := by
      rcases hkcb with h | h <;> rw [h] at hfew <;> omega
    have hfits : share (u32 (tbs + 24 * c)) c ≤ kcb ldpcg := by
      have hle : u32 (tbs + 24 * c) ≤ c * kcb ldpcg := Nat.le_trans (Nat.mod_le _ _) hall
      rcases hkcb with h | h <;> rw [h] at hle ⊢ <;> exact share_le hc0 hle
    rw [sound_lift_iff hfits (by omega), if_pos hlarge, if_neg (by omega), covers_iff hc0 h8 hbits]
    have hlarge' : ¬ tbs ≤ kcb ldpcg := by omega
    constructor
    · rintro ⟨hlt, hne⟩
      rw [u32_of_lt hlt] at hne
      exact ⟨.inr hlt, hne⟩
    · rintro ⟨hle | hlt, hne⟩
      · exact absurd hle hlarge'
      · rw [u32_of_lt hlt]
        exact ⟨hlt, hne⟩
  · have hcomp : computeCodeBlockSize ldpcg tbs = .lift ldpcg (kb ldpcg tbs) 1 (share tbs 1) := by
      unfold computeCodeBlockSize share
      rw [if_neg hlarge, Nat.mul_one, Nat.mul_comm 8]
    have hfits : share tbs 1 ≤ kcb ldpcg := by
      rcases hkcb with h | h <;> rw [h] at hlarge ⊢ <;> exact share_le Nat.one_pos (by omega)
    have hsmall : tbs ≤ 640 → share tbs 1 ≤ 640 := by
      intro hle
      exact share_le (m := 80) Nat.one_pos (by omega)
    have hcovers := le_mul_share tbs Nat.one_pos
    rw [hcomp, sound_lift_iff hfits hsmall, if_neg hlarge, if_pos (by omega)]
    constructor
    · rintro ⟨-, hne⟩
      exact ⟨.inl (by omega), hne⟩
    · rintro ⟨-, hne⟩
      exact ⟨hcovers, hne⟩

theorem codeBlockSize_sound_sample : Counted 1 3880 ∧ Unfilled 1 3880 ∧ Sound 1 3880 (computeCodeBlockSize 1 3880) := by
  have hcounted : Counted 1 3880 := .inl (by decide)
  have hunfilled : Unfilled 1 3880 := by decide
  exact ⟨hcounted, hunfilled, (codeBlockSize_sound_iff 1 3880 (by decide)).2 ⟨hcounted, hunfilled⟩⟩

/-- A code block of 3872 bits fills the lifting size 176 on 22 columns, and 192 is chosen. -/
theorem lifting_size_passed_over : (computeCodeBlockSize 1 3872).zc = 192 ∧ 3872 ≤ kb 1 3872 * 176 ∧
    ¬ Sound 1 3872 (computeCodeBlockSize 1 3872) := by
  have hzc : (computeCodeBlockSize 1 3872).zc = 192 := by decide
  have hroom : (computeCodeBlockSize 1 3872).cbs_ ≤ kb 1 3872 * 176 := by decide
  refine ⟨hzc, by decide, ?_⟩
  intro h
  have hle := h.least.2 ⟨show 176 ∈ ldpcLiftingSizeTable by decide, hroom⟩
  rw [hzc] at hle
  omega

end NetSim.Multiplexer
