import Mathlib.Algebra.Order.Field.Rat
import Mathlib.Data.List.Induction
import Mathlib.Tactic.Linarith
import NetSim.Spec.Carrier

/-!
# How a mixed carrier splits its slots

Each slot goes to the direction that is behind, so the downlink slots stay within one slot of their ratio of all slots. The
first slot is an uplink slot, since no ratio can be formed before it. The ratio so far is a rounded quotient. While the
counters are small the rounding does not matter; later it can hide that a slot is due.

* `le_of_round_lt`, `sub_le_of_le_round`: what a comparison with the rounded quotient says about the counters.
* `Split.resetSlot`: one slot.
* `downlink_near_ratio`: the split up to `2^27` slots, and up to `2^53`.
* `downlink_starves`: after `2^27 + 16386` slots more than one downlink slot is missing.
-/

namespace NetSim.Phy

open Word

/-- The types of the slots that begin at the given times. -/
def slotTypes (s : Carrier) : List ℚ → List SlotType
  | [] => []
  | now :: times => (s.resetSlot now).info.slotType :: slotTypes (s.resetSlot now) times

/-- The number of downlink slots among those that begin at the given times. -/
def downlinkSlots (s : Carrier) (times : List ℚ) : ℕ := (slotTypes s times).count .downlink

/-- A mixed carrier before its first slot. -/
structure Fresh (r : ℚ) (s : Carrier) : Prop where
  mixed : s.ca.configSlotType = .mixed
  ratio : s.ca.dlSlotRatio = r
  noDl : s.ca.dlSlotCount = 0
  noTotal : s.ca.totalSlotCount = 0

/-- The counters after `n` slots, `d` of them downlink slots. -/
structure Split (r : ℚ) (n d : ℕ) (s : Carrier) : Prop where
  mixed : s.ca.configSlotType = .mixed
  ratio : s.ca.dlSlotRatio = r
  dl : s.ca.dlSlotCount = d
  total : s.ca.totalSlotCount = n
  behind : d + 1 ≤ n ∨ n = 0 ∧ d = 0
  low : r * n - 1 - n / 2 ^ 54 ≤ d
  lowSmall : n ≤ 2 ^ 27 → r * n - 1 ≤ d
  high : (d : ℚ) ≤ r * n + 1

variable {r : ℚ} {n d : ℕ} {s : Carrier}

/-! ## The rounded quotient -/

/-- If the quotient is below the ratio, too few slots were downlink slots for one more slot. -/
theorem le_of_round_lt (hn : n + 1 ≤ 2 ^ 53) (hd : d ≤ n) (hpos : 0 < n) (h0 : 0 ≤ r)
    (hlt : Binary64.round (d / n) < r) : (d : ℚ) ≤ r * (n + 1) := by
  have hnq : (0 : ℚ) < n := Nat.cast_pos.2 hpos
  rcases Nat.eq_zero_or_pos d with rfl | hdpos
  · rw [Nat.cast_zero]
    positivity
  · have hn53 : ((n + 1 : ℕ) : ℚ) ≤ 2 ^ 53 := by exact_mod_cast hn
    have hd1 : (1 : ℚ) ≤ d := by exact_mod_cast hdpos
    push_cast at hn53
    have hnormal : (2 : ℚ) ^ (-1022 : ℤ) ≤ d / n := by
      calc (2 : ℚ) ^ (-1022 : ℤ) ≤ 2 ^ (-53 : ℤ) := zpow_le_zpow_right₀ one_le_two (by norm_num)
        _ = 1 / 2 ^ 53 := by norm_num
        _ ≤ d / n := div_le_div₀ (by linarith) hd1 hnq (by linarith)
    have hclose := (abs_le.1 (Binary64.round_close_rel hnormal)).1
    -- the quotient itself is above the ratio by one part in `2 ^ 53` at most
    have hquot : (d : ℚ) / n * (1 - 1 / 2 ^ 53) ≤ r := by linarith
    have hself : (d : ℚ) = d / n * n := (div_mul_cancel₀ _ hnq.ne').symm
    have hquot0 : (0 : ℚ) ≤ d / n := by positivity
    calc (d : ℚ) = d / n * n := hself
      _ ≤ d / n * ((1 - 1 / 2 ^ 53) * (n + 1)) := mul_le_mul_of_nonneg_left (by linarith) hquot0
      _ = d / n * (1 - 1 / 2 ^ 53) * (n + 1) := by ring
      _ ≤ r * (n + 1) := mul_le_mul_of_nonneg_right hquot (by linarith)

/-- If it is not, hardly any slot is missing. -/
theorem sub_le_of_le_round (hd : d ≤ n) (hpos : 0 < n) (hle : r ≤ Binary64.round (d / n)) :
    r * n - n / 2 ^ 54 ≤ d := by
  have hnq : (0 : ℚ) < n := Nat.cast_pos.2 hpos
  have hunit : (d : ℚ) / n ≤ 1 := (div_le_one hnq).2 (Nat.cast_le.2 hd)
  have hclose := (abs_le.1 (Binary64.round_close_unit (by positivity) hunit)).2
  have hquot : r - 1 / 2 ^ 54 ≤ d / n := by linarith
  have hmul := (le_div_iff₀ hnq).1 hquot
  linarith

/-- Of few slots, none is missing that the next one would make up for. -/
theorem le_of_le_round (hd : d ≤ n) (hpos : 0 < n) (hn : n + 1 ≤ 2 ^ 27) (h1 : r ≤ 1)
    (hle : r ≤ Binary64.round (d / n)) : r * (n + 1) - 1 ≤ d := by
  have hnear := sub_le_of_le_round hd hpos hle
  by_cases hmany : r * n ≤ d
  · linarith
  · -- fewer than all, so the ratio is below one by almost `1 / n`
    have hnq : (0 : ℚ) < n := Nat.cast_pos.2 hpos
    have hrn : r * n ≤ n := mul_le_of_le_one_left hnq.le h1
    have hdn : (d : ℚ) < n := by linarith
    have hsucc : (d : ℚ) + 1 ≤ n := by exact_mod_cast Nat.succ_le_of_lt (Nat.cast_lt.1 hdn)
    have hn27 : (n : ℚ) + 1 ≤ 2 ^ 27 := by exact_mod_cast hn
    have hsquare : (n : ℚ) * (n + 1) ≤ 2 ^ 54 := by
      calc (n : ℚ) * (n + 1) ≤ 2 ^ 27 * 2 ^ 27 := mul_le_mul (by linarith) hn27 (by linarith) (by norm_num)
        _ = 2 ^ 54 := by norm_num
    have hr : r * n ≤ n - 1 + n / 2 ^ 54 := by linarith
    have hscaled := mul_le_mul_of_nonneg_right hnear hnq.le
    have hmul : (r * (n + 1) - 1 - d) * n ≤ 0 := by
      calc (r * (n + 1) - 1 - d) * n = r * n * n - d * n + r * n - n := by ring
        _ ≤ n / 2 ^ 54 * n + (n - 1 + n / 2 ^ 54) - n := by linarith
        _ = n * (n + 1) / 2 ^ 54 - 1 := by ring
        _ ≤ 0 := by linarith
    by_contra hfew
    have hprod := mul_pos (sub_pos.2 (not_le.1 hfew)) hnq
    linarith

/-! ## One slot -/

theorem Fresh.split (h : Fresh r s) : Split r 0 0 s where
  mixed := h.mixed
  ratio := h.ratio
  dl := h.noDl
  total := h.noTotal
  behind := .inr ⟨rfl, rfl⟩
  low := by norm_num
  lowSmall _ := by norm_num
  high := by norm_num

theorem resetSlot_of_mixed (hmixed : s.ca.configSlotType = .mixed) (now : ℚ) :
    (s.resetSlot now).ca = s.ca.chooseSlot.1 ∧ (s.resetSlot now).info.slotType = s.ca.chooseSlot.2 := by
  unfold Carrier.resetSlot
  simp only [hmixed, if_true]
  trivial

/-- The test of the next slot, on the numbers of slots. -/
def Due (r : ℚ) (n d : ℕ) : Prop := n ≠ 0 ∧ Binary64.round (d / n) < r

theorem Split.due_iff (h : Split r n d s) (hn : n ≤ 2 ^ 53) :
    (s.ca.totalSlotCount ≠ 0 ∧ (s.ca.dlSlotCount / s.ca.totalSlotCount : Binary64).val < s.ca.dlSlotRatio) ↔ Due r n d := by
  have hd : d ≤ n := by
    have hbehind := h.behind
    omega
  rw [h.dl, h.total, h.ratio, Binary64.val_div, Binary64.val_natCast hn, Binary64.val_natCast (hd.trans hn)]
  rfl

theorem Split.slotType (h : Split r n d s) (hn : n ≤ 2 ^ 53) (now : ℚ) :
    (Due r n d → (s.resetSlot now).info.slotType = .downlink) ∧
      (¬ Due r n d → (s.resetSlot now).info.slotType = .uplink) := by
  rw [(resetSlot_of_mixed h.mixed now).2, ← h.due_iff hn]
  unfold Ca.chooseSlot
  constructor
  · intro hdue
    rw [if_pos hdue]
  · intro hdue
    rw [if_neg hdue]

/-- A slot that is due keeps the counts near the ratio. -/
theorem Split.downlink (h : Split r n d s) (h0 : 0 ≤ r) (h1 : r ≤ 1) (hn : n + 1 ≤ 2 ^ 53) (hdue : Due r n d)
    (now : ℚ) : Split r (n + 1) (d + 1) (s.resetSlot now) := by
  have hchoose : s.ca.chooseSlot =
      ({ s.ca with dlSlotCount := u64 (s.ca.dlSlotCount + 1), totalSlotCount := u64 (s.ca.totalSlotCount + 1) },
        .downlink) := if_pos ((h.due_iff (by omega)).2 hdue)
  obtain ⟨hca, -⟩ := resetSlot_of_mixed h.mixed now
  rw [hchoose] at hca
  have hbehind := h.behind
  have hd : d + 1 ≤ n := by
    have hne := hdue.1
    omega
  have hfew := le_of_round_lt hn (by omega) (by omega) h0 hdue.2
  have hlow := h.low
  have hcast : ((n + 1 : ℕ) : ℚ) = n + 1 := Nat.cast_succ n
  refine ⟨by rw [hca]; exact h.mixed, by rw [hca]; exact h.ratio, ?_, ?_, by omega, ?_, ?_, ?_⟩
  · rw [hca, h.dl]
    exact u64_of_lt (by omega)
  · rw [hca, h.total]
    exact u64_of_lt (by omega)
  · rw [hcast, Nat.cast_succ]
    linarith
  · intro hsmall
    have hlowSmall := h.lowSmall (by omega)
    rw [hcast, Nat.cast_succ]
    linarith
  · rw [hcast, Nat.cast_succ]
    linarith

/-- So does an uplink slot. -/
theorem Split.uplink (h : Split r n d s) (h0 : 0 ≤ r) (h1 : r ≤ 1) (hn : n + 1 ≤ 2 ^ 53) (hdue : ¬ Due r n d)
    (now : ℚ) : Split r (n + 1) d (s.resetSlot now) := by
  have hchoose : s.ca.chooseSlot = ({ s.ca with totalSlotCount := u64 (s.ca.totalSlotCount + 1) }, .uplink) :=
    if_neg fun htest => hdue ((h.due_iff (by omega)).1 htest)
  obtain ⟨hca, -⟩ := resetSlot_of_mixed h.mixed now
  rw [hchoose] at hca
  have hbehind := h.behind
  have hhigh := h.high
  have hd0 : (0 : ℚ) ≤ d := Nat.cast_nonneg d
  have hn0 : (0 : ℚ) ≤ n := Nat.cast_nonneg n
  have hle : n ≠ 0 → r ≤ Binary64.round (d / n) := by
    intro hne
    by_contra hlt
    exact hdue ⟨hne, not_le.1 hlt⟩
  have hcast : ((n + 1 : ℕ) : ℚ) = n + 1 := Nat.cast_succ n
  refine ⟨by rw [hca]; exact h.mixed, by rw [hca]; exact h.ratio, by rw [hca]; exact h.dl, ?_, by omega, ?_, ?_, ?_⟩
  · rw [hca, h.total]
    exact u64_of_lt (by omega)
  · rw [hcast]
    rcases Nat.eq_zero_or_pos n with rfl | hpos
    · rw [Nat.cast_zero]
      linarith
    · have hnear := sub_le_of_le_round (by omega) hpos (hle (by omega))
      linarith
  · intro hsmall
    rw [hcast]
    rcases Nat.eq_zero_or_pos n with rfl | hpos
    · rw [Nat.cast_zero]
      linarith
    · exact le_of_le_round (by omega) hpos hsmall h1 (hle (by omega))
  · rw [hcast]
    linarith

/-- **One slot** keeps the counts near the ratio. -/
theorem Split.resetSlot (h : Split r n d s) (h0 : 0 ≤ r) (h1 : r ≤ 1) (hn : n + 1 ≤ 2 ^ 53) (now : ℚ) :
    (s.resetSlot now).info.slotType = .downlink ∧ Split r (n + 1) (d + 1) (s.resetSlot now) ∨
      (s.resetSlot now).info.slotType = .uplink ∧ Split r (n + 1) d (s.resetSlot now) := by
  obtain ⟨hdown, hup⟩ := h.slotType (by omega) now
  by_cases hdue : Due r n d
  · exact .inl ⟨hdown hdue, h.downlink h0 h1 hn hdue now⟩
  · exact .inr ⟨hup hdue, h.uplink h0 h1 hn hdue now⟩

/-! ## Any number of slots -/

/-- The carrier after slots at the given times. -/
def after (s : Carrier) (times : List ℚ) : Carrier := times.foldl Carrier.resetSlot s

/-- The counts stay near the ratio as long as doubles hold the number of slots. -/
theorem Split.after (h0 : 0 ≤ r) (h1 : r ≤ 1) (times : List ℚ) (h : Split r n d s)
    (hlen : n + times.length ≤ 2 ^ 53) :
    Split r (n + times.length) (d + downlinkSlots s times) (Phy.after s times) := by
  induction times generalizing n d s with
  | nil => exact h
  | cons now times ih =>
    rw [List.length_cons] at hlen ⊢
    have hdown : downlinkSlots s (now :: times) = downlinkSlots (s.resetSlot now) times +
        if (s.resetSlot now).info.slotType = .downlink then 1 else 0 := by
      simp [downlinkSlots, slotTypes, List.count_cons]
    have hn : n + (times.length + 1) = n + 1 + times.length := by omega
    rcases h.resetSlot h0 h1 (by omega) now with ⟨htype, h'⟩ | ⟨htype, h'⟩
    · have hd : d + downlinkSlots s (now :: times) = d + 1 + downlinkSlots (s.resetSlot now) times := by
        simp only [hdown, htype, if_true]
        omega
      rw [hn, hd]
      exact ih h' (by omega)
    · have hd : d + downlinkSlots s (now :: times) = d + downlinkSlots (s.resetSlot now) times := by
        rw [hdown, htype]
        rfl
      rw [hn, hd]
      exact ih h' (by omega)

/-- **The split is near its ratio**: within one slot up to `2^27` slots, and hardly further away as long as doubles hold the
number of slots. -/
theorem downlink_near_ratio (r : ℚ) (h0 : 0 ≤ r) (h1 : r ≤ 1) (s : Carrier) (hs : Fresh r s) (times : List ℚ)
    (hlen : times.length ≤ 2 ^ 53) :
    (times.length ≤ 2 ^ 27 → |(downlinkSlots s times : ℚ) - r * times.length| ≤ 1) ∧
      |(downlinkSlots s times : ℚ) - r * times.length| ≤ 1 + times.length / 2 ^ 54 := by
  have h := hs.split.after h0 h1 times (by omega)
  rw [Nat.zero_add, Nat.zero_add] at h
  have hlow := h.low
  have hhigh := h.high
  have hnonneg : (0 : ℚ) ≤ times.length / 2 ^ 54 := by positivity
  constructor
  · intro hsmall
    have hlowSmall := h.lowSmall hsmall
    rw [abs_le]
    constructor <;> linarith
  · rw [abs_le]
    constructor <;> linarith

/-- A mixed carrier of slots of 500 microseconds. -/
def mixedCarrier (r : ℚ) : Carrier := ⟨⟨500, .mixed, r, 0, 0⟩, ⟨0, 0, 0, .uplink⟩⟩

theorem mixedCarrier_fresh (r : ℚ) : Fresh r (mixedCarrier r) := ⟨rfl, rfl, rfl, rfl⟩

theorem downlink_near_ratio_sample :
    downlinkSlots (mixedCarrier (3 / 4)) [0, 500, 1000, 1500, 2000, 2500] = 4 ∧
      |(downlinkSlots (mixedCarrier (3 / 4)) [0, 500, 1000, 1500, 2000, 2500] : ℚ) - 3 / 4 * 6| ≤ 1 :=
  ⟨by decide +kernel, (downlink_near_ratio (3 / 4) (by norm_num) (by norm_num) _ (mixedCarrier_fresh _)
    [0, 500, 1000, 1500, 2000, 2500] (by norm_num)).1 (by norm_num)⟩

/-! ## A slot that is missed -/

theorem downlinkSlots_append (s : Carrier) (times : List ℚ) (now : ℚ) :
    downlinkSlots s (times ++ [now]) = downlinkSlots s times +
      if ((after s times).resetSlot now).info.slotType = .downlink then 1 else 0 := by
  induction times generalizing s with
  | nil =>
    by_cases htype : (s.resetSlot now).info.slotType = .downlink <;>
      simp [downlinkSlots, slotTypes, after, htype]
  | cons t times ih =>
    have hrest := ih (s.resetSlot t)
    simp only [downlinkSlots, List.cons_append, slotTypes, List.count_cons] at hrest ⊢
    rw [hrest, after, after, List.foldl_cons]
    omega

/-- A double that is below one by 67100672 units of its last digit. -/
def nearlyOne : ℚ := 1 - 67100672 / 2 ^ 53

theorem nearlyOne_double : Binary64.round nearlyOne = nearlyOne := by decide +kernel

/-- With only the first slot an uplink slot, the next one is due for 134234112 slots. -/
theorem due_nearlyOne (hpos : 0 < n) (hn : n < 134234113) : Due nearlyOne n (n - 1) := by
  refine ⟨by omega, ?_⟩
  have hnq : (0 : ℚ) < n := Nat.cast_pos.2 hpos
  have hquot : ((n - 1 : ℕ) : ℚ) / n = 1 - 1 / n := by
    rw [Nat.cast_pred hpos, sub_div, div_self hnq.ne']
  have hn' : (n : ℚ) ≤ 134234112 := by exact_mod_cast Nat.lt_succ_iff.1 hn
  have hinv : (1 : ℚ) / 134234112 ≤ 1 / n := one_div_le_one_div_of_le hnq hn'
  have hle : (1 : ℚ) / n ≤ 1 := (div_le_one hnq).2 (by exact_mod_cast hpos)
  have hpos' : (0 : ℚ) < 1 / n := one_div_pos.2 hnq
  have hclose := (abs_le.1 (Binary64.round_close_unit (q := 1 - 1 / n) (by linarith) (by linarith))).2
  rw [hquot]
  unfold nearlyOne
  linarith

theorem not_due_nearlyOne : ¬ Due nearlyOne 134234113 134234112 := by
  have hround : ¬ Binary64.round (134234112 / 134234113) < nearlyOne := by decide +kernel
  rintro ⟨-, hlt⟩
  push_cast at hlt
  exact hround hlt

theorem nearlyOne_split (times : List ℚ) (hlen : times.length ≤ 134234114) :
    Split nearlyOne times.length (downlinkSlots (mixedCarrier nearlyOne) times) (after (mixedCarrier nearlyOne) times) := by
  have h := (mixedCarrier_fresh nearlyOne).split.after (by unfold nearlyOne; norm_num) (by unfold nearlyOne; norm_num) times
    (by omega)
  rw [Nat.zero_add, Nat.zero_add] at h
  exact h

/-- Up to then all slots but the first are downlink slots. -/
theorem downlinkSlots_nearlyOne (times : List ℚ) (hlen : times.length ≤ 134234113) :
    downlinkSlots (mixedCarrier nearlyOne) times = times.length - 1 := by
  induction times using List.reverseRecOn with
  | nil => rfl
  | append_singleton times now ih =>
    rw [List.length_append, List.length_singleton] at hlen ⊢
    have hsplit := nearlyOne_split times (by omega)
    have hcount := ih (by omega)
    obtain ⟨hdown, hup⟩ := hsplit.slotType (by omega) now
    rw [hcount] at hdown hup
    rw [downlinkSlots_append, hcount]
    rcases Nat.eq_zero_or_pos times.length with hzero | hpos
    · rw [hup fun hdue => hdue.1 hzero, hzero]
      rfl
    · rw [hdown (due_nearlyOne hpos (by omega)), if_pos rfl]
      omega

/-- Then one slot is not given to the downlink, although it is due by the exact quotient: more than one is missing. -/
theorem downlink_starves : ¬ ∀ (r : ℚ) (s : Carrier) (times : List ℚ), Binary64.round r = r → 0 ≤ r → r ≤ 1 →
    Fresh r s → |(downlinkSlots s times : ℚ) - r * times.length| ≤ 1 := by
  intro hall
  obtain ⟨times, hlen⟩ : ∃ times : List ℚ, times.length = 134234113 := ⟨.replicate _ 0, List.length_replicate⟩
  have hcount := downlinkSlots_nearlyOne times (by omega)
  obtain ⟨-, hup⟩ := (nearlyOne_split times (by omega)).slotType (by omega) 0
  rw [hcount, hlen] at hup
  have hnear := hall nearlyOne (mixedCarrier nearlyOne) (times ++ [0]) nearlyOne_double (by unfold nearlyOne; norm_num)
    (by unfold nearlyOne; norm_num) (mixedCarrier_fresh nearlyOne)
  rw [downlinkSlots_append, hup not_due_nearlyOne, hcount, List.length_append, hlen, if_neg (by decide)] at hnear
  have hlow := (abs_le.1 hnear).1
  unfold nearlyOne at hlow
  norm_num at hlow

end NetSim.Phy
