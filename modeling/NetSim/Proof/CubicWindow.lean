import NetSim.Lib.Machine
import NetSim.Spec.Cubic
import Mathlib.Data.Nat.Digits.Lemmas

/-!
# The window function of CUBIC

`count_bit` gives the place of the first one, which is 0 for every word, so the cube root is a reading of the
table at its argument. `cube_factor` does not fit its word and is 0, and with it `bic_K`.

* `cubic_window` — where the cube root is right, `bic_K` at the start of an epoch, and the target before it.
-/

namespace NetSim.Tcp.Cubic

variable {a : UInt64} {g : Scales} {ca ca' : CubicVar} {cwnd acked now bicScale : UInt32} {beta : ℤ}

/-! ## The cube root -/

/-- A word differs from the cube root of `a` by at most one. -/
def CubeRootWithin (r : UInt32) (a : ℕ) : Prop := (r.toNat - 1) ^ 3 ≤ a ∧ a ≤ (r.toNat + 1) ^ 3

instance (r : UInt32) (a : ℕ) : Decidable (CubeRootWithin r a) := inferInstanceAs (Decidable (_ ∧ _))

/-- The first digit of a word other than 0 is a one. -/
theorem head_i64toa (h : a ≠ 0) : ∃ rest, i64toa a = '1' :: rest := by
  have hne : a.toNat ≠ 0 := fun hzero => h (UInt64.toNat_inj.1 hzero)
  have hdigits : Nat.digits 2 a.toNat ≠ [] := Nat.digits_ne_nil_iff_ne_zero.2 hne
  have hlast := Nat.getLast_digit_ne_zero 2 hne
  have hlt := Nat.digits_lt_base (by decide : 1 < 2) (List.getLast_mem hdigits)
  have hone : (Nat.digits 2 a.toNat).getLast hdigits = 1 := by omega
  have hsplit := List.dropLast_concat_getLast hdigits
  unfold i64toa
  rw [if_neg h, ← hsplit, hone, List.reverse_append]
  exact ⟨_, rfl⟩

/-- **The number of bits is always 0.** -/
theorem countBit_eq_zero (a : UInt64) : countBit a = 0 := by
  by_cases h : a = 0
  · rw [h]
    decide
  · obtain ⟨rest, hrest⟩ := head_i64toa h
    have hfind : (i64toa a).findIdx? (fun c => c == '1') = some 0 := by
      rw [hrest, List.findIdx?_cons]
      rfl
    unfold countBit
    rw [hfind]
    rfl

theorem cubicRoot_eq (a : UInt64) :
    cubicRoot a = (entryOf a.toUInt32).map fun entry : UInt32 => (entry + 35) >>> 6 := by
  have hlt : (0 : UInt32) < 7 := by decide
  unfold cubicRoot
  dsimp only
  rw [countBit_eq_zero, if_pos hlt]

/-- Inside the table the reading is right. -/
theorem entry_within : ∀ i : Fin 64, ∃ r ∈ v[i.val]?.map fun entry : UInt8 => (entry.toUInt32 + 35) >>> 6,
    r ≤ 4 ∧ CubeRootWithin r i := by
  decide

theorem entryOf_map (i : UInt32) : ((entryOf i).map fun entry : UInt32 => (entry + 35) >>> 6) =
    v[i.toNat]?.map fun entry : UInt8 => (entry.toUInt32 + 35) >>> 6 := by
  unfold entryOf
  rw [Option.map_map]
  rfl

/-- **The cube root is right exactly below 64**, where the table ends. -/
theorem cubicRoot_iff (a : UInt64) :
    (∃ r, cubicRoot a = some r ∧ CubeRootWithin r a.toNat) ↔ a.toNat < 64 := by
  have hlow : a.toUInt32.toNat = a.toNat % 2 ^ 32 := UInt64.toNat_toUInt32 a
  rw [cubicRoot_eq, entryOf_map]
  constructor
  · rintro ⟨r, hr, -, hle⟩
    have hindex : a.toUInt32.toNat < 64 := by
      by_contra hout
      have hnone : v[a.toUInt32.toNat]? = none := List.getElem?_eq_none (Nat.le_of_not_lt hout)
      rw [hnone] at hr
      cases hr
    obtain ⟨r', hr', hsmall, -⟩ := entry_within ⟨_, hindex⟩
    obtain rfl := Option.some.inj (hr'.symm.trans hr)
    -- the root is at most 4
    have hfour : r'.toNat ≤ 4 := UInt32.le_iff_toNat_le.1 hsmall
    have hcube : (r'.toNat + 1) ^ 3 ≤ 5 ^ 3 := Nat.pow_le_pow_left (by omega) 3
    omega
  · intro hlt
    have hindex : a.toUInt32.toNat < 64 := by omega
    have hsame : a.toUInt32.toNat = a.toNat := by omega
    obtain ⟨r, hr, -, hwithin⟩ := entry_within ⟨_, hindex⟩
    rw [← hsame]
    exact ⟨r, hr, hwithin⟩

/-! ## Epochs -/

/-- 2^40 does not fit in 32 bits. -/
theorem cubeFactor_eq_zero (h : initScales beta bicScale = some g) : g.cubeFactor = 0 := by
  unfold initScales at h
  split at h
  · cases h
  · obtain rfl := Option.some.inj h
    have hzero : ((1 : UInt64) <<< (10 + 3 * 10)).toUInt32 = 0 := by decide
    dsimp only
    rw [hzero]
    exact UInt32.zero_div

/-- An epoch starts with `bic_K` 0. -/
theorem beginEpoch_bicK (hg : g.cubeFactor = 0) (h : beginEpoch g cwnd acked now ca = some ca') :
    ca'.bicK = 0 ∨ ca.epochStart ≠ 0 ∧ ca' = ca := by
  unfold beginEpoch at h
  split at h
  · left
    dsimp only at h
    split at h
    · obtain rfl := Option.some.inj h
      rfl
    · have harg : (0 : UInt32).toUInt64 * (ca.lastMaxCwnd - cwnd).toUInt64 = 0 := UInt64.zero_mul
      have hroot : cubicRoot 0 = some 0 := by
        rw [cubicRoot_eq]
        decide
      rw [hg, harg, hroot] at h
      obtain rfl := Option.some.inj h
      rfl
  · rename_i hstart
    obtain rfl := Option.some.inj h
    exact .inr ⟨hstart, rfl⟩

/-- With a factor of `2 ^ 40` the argument of the cube root is at least 25. -/
theorem argument_ge (h : initScales beta bicScale = some g) (hbelow : cwnd < ca.lastMaxCwnd) :
    25 ≤ 2 ^ 40 / (10 * bicScale.toNat) * (ca.lastMaxCwnd - cwnd).toNat := by
  have hpos : 0 < bicScale.toNat := by
    rw [Nat.pos_iff_ne_zero]
    intro hzero
    have hscale : bicScale = 0 := UInt32.toNat_inj.1 hzero
    unfold initScales at h
    rw [hscale, if_pos (.inr (by decide))] at h
    cases h
  have hfactor : 25 ≤ 2 ^ 40 / (10 * bicScale.toNat) := by
    have hlt := bicScale.toNat_lt
    rw [Nat.le_div_iff_mul_le (by omega)]
    omega
  have hnat := UInt32.lt_iff_toNat_lt.1 hbelow
  have hdiff : (ca.lastMaxCwnd - cwnd).toNat = ca.lastMaxCwnd.toNat - cwnd.toNat :=
    UInt32.toNat_sub_of_le _ _ (UInt32.le_iff_toNat_le.2 (Nat.le_of_lt hnat))
  have hone : 1 ≤ (ca.lastMaxCwnd - cwnd).toNat := by omega
  calc 25 = 25 * 1 := rfl
    _ ≤ 2 ^ 40 / (10 * bicScale.toNat) * (ca.lastMaxCwnd - cwnd).toNat := Nat.mul_le_mul hfactor hone

/-! ## Runs -/

/-- The scales, which every socket sets at its start, and the variables of one socket. -/
structure CubicState where
  g : Scales
  ca : CubicVar

inductive CubicEvent where
  | init (beta : ℤ) (bicScale : UInt32)
  | initOther (beta : ℤ) (bicScale : UInt32)
  | update (cwnd acked now : UInt32)
  | recalcSsthresh (segCwnd : UInt32)

/-- A socket with CUBIC. -/
def cubicMachine : Machine CubicState CubicEvent where
  init s := ∃ beta bicScale g, initScales beta bicScale = some g ∧ s = ⟨g, reset beta⟩
  step s
    | .init beta bicScale => (initScales beta bicScale).map fun g => ⟨g, reset beta⟩
    | .initOther beta bicScale => (initScales beta bicScale).map fun g => { s with g := g }
    | .update cwnd acked now => (update s.g cwnd acked now s.ca).map fun ca => { s with ca := ca }
    | .recalcSsthresh segCwnd => some { s with ca := (recalcSsthresh segCwnd s.ca).1 }

theorem friendlyLoop_bicK (delta : UInt32) (ca : CubicVar) : (friendlyLoop delta ca).bicK = ca.bicK := by
  fun_induction friendlyLoop delta ca with
  | case1 ca h ih => exact ih
  | case2 ca h => rfl

theorem friendliness_bicK (g : Scales) (cwnd : UInt32) (ca : CubicVar) :
    (friendliness g cwnd ca).bicK = ca.bicK := by
  have hloop := friendlyLoop_bicK ((cwnd * g.betaScale) >>> 3) ca
  unfold friendliness
  dsimp only
  split
  · split
    · exact hloop
    · exact hloop
  · exact hloop

/-- An update keeps `bic_K` 0. -/
theorem update_bicK (hg : g.cubeFactor = 0) (hK : ca.bicK = 0) (h : update g cwnd acked now ca = some ca') :
    ca'.bicK = 0 := by
  unfold update at h
  dsimp only at h
  split at h
  · obtain rfl := Option.some.inj h
    exact hK
  · split at h
    · obtain rfl := Option.some.inj h
      exact (friendliness_bicK g cwnd _).trans hK
    · simp only [Option.bind_eq_bind, Option.bind_eq_some_iff, Option.pure_def] at h
      obtain ⟨ca₁, hbegin, hend⟩ := h
      obtain rfl := Option.some.inj hend
      refine (friendliness_bicK g cwnd _).trans ?_
      rcases beginEpoch_bicK hg hbegin with hzero | ⟨-, rfl⟩
      · exact hzero
      · exact hK

theorem recalcSsthresh_bicK (segCwnd : UInt32) (ca : CubicVar) :
    (recalcSsthresh segCwnd ca).1.bicK = ca.bicK := by
  unfold recalcSsthresh
  dsimp only
  split
  · rfl
  · rfl

/-- **In every run `cube_factor` and `bic_K` are 0.** -/
theorem reach_bicK {s : CubicState} (h : cubicMachine.Reach s) : s.g.cubeFactor = 0 ∧ s.ca.bicK = 0 := by
  refine Machine.ReachOn.inv (I := fun s : CubicState => s.g.cubeFactor = 0 ∧ s.ca.bicK = 0) ?_ ?_ h
  · rintro s ⟨beta, bicScale, g, hg, rfl⟩
    exact ⟨cubeFactor_eq_zero hg, rfl⟩
  · intro s e s' hs _ hstep
    cases e with
    | init beta bicScale =>
      obtain ⟨g, hg, rfl⟩ := Option.map_eq_some_iff.1 hstep
      exact ⟨cubeFactor_eq_zero hg, rfl⟩
    | initOther beta bicScale =>
      obtain ⟨g, hg, rfl⟩ := Option.map_eq_some_iff.1 hstep
      exact ⟨cubeFactor_eq_zero hg, hs.2⟩
    | update cwnd acked now =>
      obtain ⟨ca, hca, rfl⟩ := Option.map_eq_some_iff.1 hstep
      exact ⟨hs.1, update_bicK hs.1 hs.2 hca⟩
    | recalcSsthresh segCwnd =>
      obtain rfl := Option.some.inj hstep
      exact ⟨hs.1, (recalcSsthresh_bicK segCwnd s.ca).trans hs.2⟩

/-- **The window function of CUBIC.** The cube root is read inside its table and right by one exactly for
arguments below 64. At the start of an epoch below the last maximum `bic_K` never is the cube root of
`2^40 / (10 * bic_scale) * (last_max_cwnd - cwnd)`. In every run the target before `bic_K` neither wraps nor
exceeds the last maximum. -/
theorem cubic_window (a : UInt64) :
    ((∃ r, cubicRoot a = some r ∧ CubeRootWithin r a.toNat) ↔ a.toNat < 64) ∧
    (∀ beta bicScale g ca cwnd acked now ca', initScales beta bicScale = some g → ca.epochStart = 0 →
      cwnd < ca.lastMaxCwnd → beginEpoch g cwnd acked now ca = some ca' →
        ¬ CubeRootWithin ca'.bicK (2 ^ 40 / (10 * bicScale.toNat) * (ca.lastMaxCwnd - cwnd).toNat)) ∧
    ∀ s, cubicMachine.Reach s → ∀ cwnd acked now ca, beginEpoch s.g cwnd acked now s.ca = some ca →
      epochTime now ca < ca.bicK.toUInt64 →
        windowDelta s.g now ca ≤ ca.bicOriginPoint ∧ bicTarget s.g now ca ≤ ca.lastMaxCwnd := by
  refine ⟨cubicRoot_iff a, ?_, ?_⟩
  · intro beta bicScale g ca cwnd acked now ca' hg hstart hbelow hbegin hwithin
    have hK : ca'.bicK = 0 := by
      rcases beginEpoch_bicK (cubeFactor_eq_zero hg) hbegin with hzero | ⟨hne, -⟩
      · exact hzero
      · exact absurd hstart hne
    have harg := argument_ge hg hbelow
    have hle := hwithin.2
    rw [hK] at hle
    have hone : ((0 : UInt32).toNat + 1) ^ 3 = 1 := rfl
    omega
  · intro s hs cwnd acked now ca hbegin hbefore
    obtain ⟨hg, hzero⟩ := reach_bicK hs
    have hK : ca.bicK = 0 := by
      rcases beginEpoch_bicK hg hbegin with h | ⟨-, rfl⟩
      · exact h
      · exact hzero
    rw [hK, UInt64.lt_iff_toNat_lt] at hbefore
    exact absurd hbefore (Nat.not_lt_zero _)

theorem cubic_window_27 : ∃ r, cubicRoot 27 = some r ∧ CubeRootWithin r (27 : UInt64).toNat :=
  (cubic_window 27).1.2 (by decide)

/-- The window 10 below the last maximum 100, with the scale 41: `bic_K` is 0, and the cube root of
2^40 / 410 * 90 is above 6200. The cube root of 64 is read outside the table. -/
theorem cubic_window_zero : cubicRoot 64 = none ∧
    ∃ g ca, initScales 717 41 = some g ∧
      beginEpoch g 10 1 5 { reset 717 with lastMaxCwnd := 100 } = some ca ∧ ca.bicK = 0 ∧
      6200 ^ 3 < 2 ^ 40 / (10 * 41) * 90 := by
  refine ⟨?_, ⟨410, 15, 0⟩, { reset 717 with
    lastMaxCwnd := 100
    epochStart := 5
    ackCnt := 1
    tcpCwnd := 10
    bicOriginPoint := 100 }, by decide, ?_, rfl, by norm_num⟩
  · rw [cubicRoot_eq]
    decide
  · have hroot : cubicRoot 0 = some 0 := by
      rw [cubicRoot_eq]
      decide
    have harg : (0 : UInt32).toUInt64 * ((100 : UInt32) - 10).toUInt64 = 0 := by decide
    unfold beginEpoch reset
    dsimp only
    rw [harg, hroot]
    rfl

end NetSim.Tcp.Cubic
