import NetSim.Proof.PartialAck
import NetSim.Spec.Congestion

/-!
# The growth of the BIC window

What an acknowledgement of new data does to a BIC sender: the divisions have to be defined, the counter of the
acknowledged segments must not wrap, the window must not shrink, and `bictcp_update` has to see the estimate that
`bictcp_acked` computes. The window never shrinks. The rest holds exactly under `Steady` (`bicGrows_iff`): the estimate is
computed into a copy, so it is seen only if it does not change.
-/

namespace NetSim.Tcp

variable {now : ℚ} {t : Tcb} {ca : Bic} {cwnd : UInt32}

/-! ## Divisions -/

theorem divide_of_ne {a b : UInt32} (h : b ≠ 0) : divide a b = some (a / b) := if_neg h

theorem divide_isSome (a b : UInt32) : (divide a b).isSome ↔ b ≠ 0 := by
  unfold divide
  split
  · rename_i h
    simp [h]
  · rename_i h
    simp [h]

/-- The window is four segments or more away from the last maximum. -/
def FarFromMax (ca : Bic) (cwnd : UInt32) : Prop :=
  cwnd.toNat + 4 ≤ ca.lastMaxCwnd.toNat ∨ ca.lastMaxCwnd.toNat + 4 ≤ cwnd.toNat

instance (ca : Bic) (cwnd : UInt32) : Decidable (FarFromMax ca cwnd) :=
  inferInstanceAs (Decidable (_ ∨ _))

/-- **The regimes divide by `max_increment`** when the window is far from the last maximum, or by a number that is not
zero. -/
theorem bictcpRegime_isSome (hcwnd : cwnd.toNat < 4294967292) :
    (bictcpRegime ca cwnd).isSome ↔ (FarFromMax ca cwnd → ca.maxIncrement ≠ 0) := by
  have hfour : bictcpB.toNat = 4 := rfl
  have hone : (1 : UInt32).toNat = 1 := rfl
  have hzero : ca.maxIncrement ≠ 0 ↔ ca.maxIncrement.toNat ≠ 0 := by
    rw [Ne, Ne, ← UInt32.toNat_inj]
    rfl
  have hmax := ca.lastMaxCwnd.toNat_lt
  unfold bictcpRegime FarFromMax
  split
  · rename_i hbelow
    rw [UInt32.lt_iff_toNat_lt] at hbelow
    have hdist : ((ca.lastMaxCwnd - cwnd) / bictcpB).toNat =
        (ca.lastMaxCwnd.toNat - cwnd.toNat) / 4 := by
      rw [UInt32.toNat_div, UInt32.toNat_sub, hfour]
      omega
    dsimp only
    split
    · rename_i hlinear
      rw [gt_iff_lt, UInt32.lt_iff_toNat_lt, hdist] at hlinear
      rw [divide_isSome, hzero]
      omega
    split
    · rename_i hnear hsmooth
      rw [gt_iff_lt, UInt32.lt_iff_toNat_lt, hdist] at hnear
      rw [hzero]
      refine iff_of_true rfl ?_
      omega
    · rename_i hnear hsearch
      rw [gt_iff_lt, UInt32.lt_iff_toNat_lt, hdist] at hnear
      rw [UInt32.le_iff_toNat_le, hdist, hone] at hsearch
      have hne : (ca.lastMaxCwnd - cwnd) / bictcpB ≠ 0 := by
        intro h
        rw [h] at hdist
        have h0 : (0 : UInt32).toNat = 0 := rfl
        omega
      rw [divide_isSome, hzero]
      refine iff_of_true hne ?_
      omega
  · rename_i habove
    rw [UInt32.lt_iff_toNat_lt] at habove
    have hsum : (ca.lastMaxCwnd + bictcpB).toNat = ca.lastMaxCwnd.toNat + 4 := by
      rw [UInt32.toNat_add, hfour]
      omega
    split
    · rename_i hslow
      rw [UInt32.lt_iff_toNat_lt, hsum] at hslow
      refine iff_of_true rfl ?_
      omega
    rename_i hbeyond
    rw [UInt32.lt_iff_toNat_lt, hsum] at hbeyond
    split
    · rename_i hslow
      have hne : cwnd - ca.lastMaxCwnd ≠ 0 := by
        intro h
        have hdiff : (cwnd - ca.lastMaxCwnd).toNat = cwnd.toNat - ca.lastMaxCwnd.toNat := by
          rw [UInt32.toNat_sub]
          omega
        rw [h] at hdiff
        have h0 : (0 : UInt32).toNat = 0 := rfl
        omega
      rw [divide_isSome]
      refine iff_of_true hne fun _ hnone => ?_
      -- without an increment the bound of this regime is the last maximum
      rw [hnone, UInt32.zero_mul, UInt32.add_zero, UInt32.lt_iff_toNat_lt] at hslow
      exact habove hslow
    · rw [divide_isSome, hzero]
      omega

/-- The low window needs no division; above it `delayed_ack` is divided by too. -/
theorem checkedBictcpCnt_isSome (hcwnd : cwnd.toNat < 4294967292) :
    (checkedBictcpCnt ca cwnd).isSome ↔ (ca.lowWindow < cwnd →
      (FarFromMax ca cwnd → ca.maxIncrement ≠ 0) ∧ ca.delayedAck ≠ 0) := by
  have hregime : (bictcpRegime ca cwnd).isSome ↔ _ := bictcpRegime_isSome hcwnd
  unfold checkedBictcpCnt
  split
  · rename_i hlow
    exact iff_of_true rfl fun hlt => absurd hlow (UInt32.not_le.2 hlt)
  · rename_i hlow
    rw [imp_iff_right (UInt32.not_le.1 hlow), ← hregime]
    cases hcnt : bictcpRegime ca cwnd with
    | none =>
      rw [Option.bind_none, Option.isSome_none]
      simp only [Bool.false_eq_true, false_and]
    | some cnt =>
      rw [Option.bind_some]
      dsimp only
      rw [Option.isSome_map, divide_isSome, Option.isSome_some]
      exact (and_iff_right rfl).symm

theorem divide_eq_of_some {a b c : UInt32} (h : divide a b = some c) : c = a / b := by
  unfold divide at h
  split at h
  · cases h
  · exact (Option.some.inj h).symm

/-- **What the checked function computes is what the other one does.** -/
theorem checkedBictcpCnt_eq {cnt : UInt32} (h : checkedBictcpCnt ca cwnd = some cnt) :
    cnt = if cwnd ≤ ca.lowWindow then cwnd else Tcb.bictcpCnt ca cwnd := by
  unfold checkedBictcpCnt at h
  split at h
  · rename_i hlow
    rw [if_pos hlow]
    exact (Option.some.inj h).symm
  · rename_i hlow
    rw [if_neg hlow]
    obtain ⟨c, hregime, h⟩ := Option.bind_eq_some_iff.1 h
    obtain ⟨c', hdivide, rfl⟩ := Option.map_eq_some_iff.1 h
    obtain rfl := divide_eq_of_some hdivide
    have hc : (if cwnd < ca.lastMaxCwnd then
        if (ca.lastMaxCwnd - cwnd) / bictcpB > ca.maxIncrement then cwnd / ca.maxIncrement
        else if (ca.lastMaxCwnd - cwnd) / bictcpB ≤ 1 then cwnd * ca.smoothPart / bictcpB
        else cwnd / ((ca.lastMaxCwnd - cwnd) / bictcpB)
      else if cwnd < ca.lastMaxCwnd + bictcpB then cwnd * ca.smoothPart / bictcpB
      else if cwnd < ca.lastMaxCwnd + ca.maxIncrement * (bictcpB - 1) then
        cwnd * (bictcpB - 1) / (cwnd - ca.lastMaxCwnd)
      else cwnd / ca.maxIncrement) = c := by
      unfold bictcpRegime at hregime
      dsimp only at hregime
      split at hregime <;> split at hregime
      · rename_i hbelow hlinear
        rw [if_pos hbelow, if_pos hlinear, divide_eq_of_some hregime]
      · rename_i hbelow hnear
        rw [if_pos hbelow, if_neg hnear]
        split at hregime
        · rename_i hsmooth
          rw [if_pos hsmooth, Option.some.inj hregime]
        · rename_i hsearch
          rw [if_neg hsearch, divide_eq_of_some hregime]
      · rename_i habove hslow
        rw [if_neg habove, if_pos hslow, Option.some.inj hregime]
      · rename_i habove hbeyond
        rw [if_neg habove, if_neg hbeyond]
        split at hregime
        · rename_i hslow
          rw [if_pos hslow, divide_eq_of_some hregime]
        · rename_i hlinear
          rw [if_neg hlinear, divide_eq_of_some hregime]
    unfold Tcb.bictcpCnt
    dsimp only
    rw [hc]

/-! ## The functions -/

namespace Tcb

/-- `get_cwnd`, in segments. -/
def segCwnd (t : Tcb) : UInt32 := t.getCwnd / t.getMss.toUInt32

theorem mss_ne (hmss : t.congestion.smss ≠ 0) : t.getMss.toUInt32 ≠ 0 := by
  intro h
  apply hmss
  rw [← UInt16.toNat_inj, ← UInt16.toNat_toUInt32]
  exact congrArg UInt32.toNat h

theorem segCwnd_lt (hshift : t.windShift ≤ 14) : t.segCwnd.toNat < 4294967292 := by
  have hunit := unit_le hshift
  have hword := t.congestion.cwnd.toNat_lt
  have hprod := Nat.mul_le_mul (Nat.le_of_lt_succ hword) hunit
  have hdiv := Nat.div_le_self t.getCwnd.toNat t.getMss.toUInt32.toNat
  unfold segCwnd
  rw [UInt32.toNat_div]
  rw [getCwnd_toNat hshift] at hdiv ⊢
  omega

theorem checkedBictcpUpdate_isSome (now : ℚ) (hmss : t.congestion.smss ≠ 0) (hshift : t.windShift ≤ 14) :
    (t.checkedBictcpUpdate now).isSome ↔ (t.congestion.bic.lowWindow < t.segCwnd →
      (FarFromMax t.congestion.bic t.segCwnd → t.congestion.bic.maxIncrement ≠ 0) ∧
        t.congestion.bic.delayedAck ≠ 0) := by
  unfold checkedBictcpUpdate
  rw [divide_of_ne (mss_ne hmss), Option.bind_some]
  dsimp only
  rw [Option.isSome_map]
  exact checkedBictcpCnt_isSome (segCwnd_lt hshift)

theorem checkedBictcpUpdate_eq {t' : Tcb} (h : t.checkedBictcpUpdate now = some t') :
    t' = t.bictcpUpdate now := by
  unfold checkedBictcpUpdate at h
  obtain ⟨cwnd, hdivide, h⟩ := Option.bind_eq_some_iff.1 h
  obtain rfl := divide_eq_of_some hdivide
  obtain ⟨cnt, hcnt, rfl⟩ := Option.map_eq_some_iff.1 h
  rw [checkedBictcpCnt_eq hcnt]
  rfl

theorem checkedBictcpCongAvoid_eq {t' : Tcb} {segmentAcked : UInt32}
    (h : t.checkedBictcpCongAvoid now segmentAcked = some t') :
    t' = t.bictcpCongAvoid now segmentAcked := by
  unfold checkedBictcpCongAvoid at h
  unfold bictcpCongAvoid
  generalize (if t.inSlowStart then (t.slowStart, segmentAcked - 1) else (t, segmentAcked)) = r at h ⊢
  dsimp only at h ⊢
  split at h
  · rename_i hupdate
    obtain ⟨t₁, ht₁, rfl⟩ := Option.map_eq_some_iff.1 h
    obtain rfl := checkedBictcpUpdate_eq ht₁
    rw [if_pos hupdate]
  · rename_i hnone
    rw [if_neg hnone]
    exact (Option.some.inj h).symm

/-! ## The window -/

theorem getCwnd_le_increaseCwnd (hshift : t.windShift ≤ 14) (n : UInt16) :
    t.getCwnd.toNat ≤ (t.increaseCwnd n).getCwnd.toNat := by
  have hle := le_opened hshift n.toNat
  have hcwnd := increaseCwnd_toNat hshift n
  have hget : (t.increaseCwnd n).getCwnd.toNat = (t.increaseCwnd n).congestion.cwnd.toNat * t.unit :=
    word_toNat hshift (t.increaseCwnd n).congestion.cwnd
  rw [hget, hcwnd]
  exact hle

/-- **BIC never makes the window smaller.** -/
theorem getCwnd_le_bictcpCongAvoid (hshift : t.windShift ≤ 14) (segmentAcked : UInt32) :
    t.getCwnd.toNat ≤ (t.bictcpCongAvoid now segmentAcked).getCwnd.toNat := by
  have hafter (t₁ : Tcb) (hshift₁ : t₁.windShift ≤ 14) (n : UInt32) (hle : t.getCwnd.toNat ≤ t₁.getCwnd.toNat) :
      t.getCwnd.toNat ≤ (if ¬ t₁.inSlowStart ∧ n > 0 then
        let t := { t₁ with congestion.bic.cwndcnt := t₁.congestion.bic.cwndcnt + n }
        let t := t.bictcpUpdate now
        if t.congestion.bic.cwndcnt > t.congestion.bic.cnt then
          let t := t.increaseCwnd t.congestion.smss
          { t with congestion.bic.cwndcnt := 0 }
        else t
      else t₁).getCwnd.toNat := by
    split
    · dsimp only
      split
      · have hgrown := getCwnd_le_increaseCwnd (t := Tcb.bictcpUpdate
          { t₁ with congestion.bic.cwndcnt := t₁.congestion.bic.cwndcnt + n } now) hshift₁ t₁.congestion.smss
        exact hle.trans hgrown
      · exact hle
    · exact hle
  unfold bictcpCongAvoid
  by_cases hslow : t.inSlowStart
  · rw [if_pos hslow]
    exact hafter t.slowStart hshift _ (getCwnd_le_increaseCwnd hshift _)
  · rw [if_neg hslow]
    exact hafter t hshift _ le_rfl

/-! ## An acknowledgement of new data -/

/-- The whole segments that are acknowledged. -/
def segmentAcked (t : Tcb) : UInt32 := (t.seg.ack - t.snd.una) / t.getMss.toUInt32

theorem bicOpenWindow_of_ne (hmss : t.congestion.smss ≠ 0) :
    t.bicOpenWindow now = t.checkedBictcpCongAvoid now t.segmentAcked := by
  unfold bicOpenWindow bictcpAcked
  dsimp only
  rw [divide_of_ne (mss_ne hmss), Option.bind_some, Option.map_some, Option.bind_some]
  rfl

/-- The checked functions are those of the handler. -/
theorem bicOpenWindow_eq {t' : Tcb} (h : t.bicOpenWindow now = some t') :
    t' = t.bictcpCongAvoid now t.segmentAcked := by
  unfold bicOpenWindow at h
  obtain ⟨segmentAcked, hdivide, h⟩ := Option.bind_eq_some_iff.1 h
  obtain rfl := divide_eq_of_some hdivide
  obtain ⟨acked, hacked, h⟩ := Option.bind_eq_some_iff.1 h
  obtain ⟨pktsAcked, -, rfl⟩ := Option.map_eq_some_iff.1 hacked
  exact checkedBictcpCongAvoid_eq h

/-- The control block and the counter behind the slow start of `bictcp_cong_avoid`. -/
def afterSlowStart (t : Tcb) : Tcb × UInt32 :=
  if t.inSlowStart then (t.slowStart, t.segmentAcked - 1) else (t, t.segmentAcked)

/-- `bictcp_update` is reached. -/
def Updates (t : Tcb) : Prop := ¬ t.afterSlowStart.1.inSlowStart ∧ t.afterSlowStart.2 > 0

instance (t : Tcb) : Decidable t.Updates := inferInstanceAs (Decidable (_ ∧ _))

theorem checkedBictcpCongAvoid_isSome (hmss : t.congestion.smss ≠ 0) (hshift : t.windShift ≤ 14) :
    (t.checkedBictcpCongAvoid now t.segmentAcked).isSome ↔ (t.Updates →
      t.congestion.bic.lowWindow < t.afterSlowStart.1.segCwnd →
        (FarFromMax t.congestion.bic t.afterSlowStart.1.segCwnd → t.congestion.bic.maxIncrement ≠ 0) ∧
          t.congestion.bic.delayedAck ≠ 0) := by
  have hsame : t.afterSlowStart.1.congestion.bic = t.congestion.bic ∧
      t.afterSlowStart.1.congestion.smss = t.congestion.smss ∧
      t.afterSlowStart.1.windShift = t.windShift := by
    unfold afterSlowStart
    split <;> exact ⟨rfl, rfl, rfl⟩
  have hcall : t.checkedBictcpCongAvoid now t.segmentAcked =
      if ¬ t.afterSlowStart.1.inSlowStart ∧ t.afterSlowStart.2 > 0 then
        let t₁ := { t.afterSlowStart.1 with
          congestion.bic.cwndcnt := t.afterSlowStart.1.congestion.bic.cwndcnt + t.afterSlowStart.2 }
        (t₁.checkedBictcpUpdate now).map fun t =>
          if t.congestion.bic.cwndcnt > t.congestion.bic.cnt then
            let t := t.increaseCwnd t.congestion.smss
            { t with congestion.bic.cwndcnt := 0 }
          else t
      else some t.afterSlowStart.1 := rfl
  rw [hcall]
  split
  · rename_i hupdates
    have hupdate := checkedBictcpUpdate_isSome now (t := { t.afterSlowStart.1 with
      congestion.bic.cwndcnt := t.afterSlowStart.1.congestion.bic.cwndcnt + t.afterSlowStart.2 })
      (hsame.2.1 ▸ hmss) (hsame.2.2 ▸ hshift)
    dsimp only at hupdate ⊢
    rw [Option.isSome_map, hupdate, imp_iff_right (show t.Updates from hupdates), hsame.1]
    rfl
  · rename_i hnone
    exact iff_of_true rfl fun hupdates => absurd hupdates hnone

end Tcb

/-- **What an acknowledgement does to a BIC sender is well defined**: no division fails, the counter does not wrap, the
window does not shrink, and the estimate is seen by what follows. -/
structure BicGrows (now : ℚ) (t : Tcb) : Prop where
  divides : (t.bicOpenWindow now).isSome
  counts : t.inSlowStart → t.segmentAcked - 1 < t.segmentAcked
  grows : ∀ t', t.bicOpenWindow now = some t' → t.getCwnd ≤ t'.getCwnd
  visible : ∀ ca t', t.bictcpAcked = some (ca, t') → t'.congestion.bic.delayedAck = ca.delayedAck

/-- The estimate does not change, slow start gets a whole segment, and there is an increment where it is divided by. -/
structure Steady (t : Tcb) : Prop where
  mss : t.congestion.smss ≠ 0
  estimate : t.segmentAcked = t.congestion.bic.delayedAck >>> ackRatioShift
  counted : t.inSlowStart → t.segmentAcked ≠ 0
  increment : t.Updates → t.congestion.bic.lowWindow < t.afterSlowStart.1.segCwnd →
    FarFromMax t.congestion.bic t.afterSlowStart.1.segCwnd → t.congestion.bic.maxIncrement ≠ 0

/-- A counter wraps exactly if it is decremented at zero. -/
theorem sub_one_lt_iff (n : UInt32) : n - 1 < n ↔ n ≠ 0 := by
  have hn := n.toNat_lt
  have hone : (1 : UInt32).toNat = 1 := rfl
  have hzero : (0 : UInt32).toNat = 0 := rfl
  rw [UInt32.lt_iff_toNat_lt, UInt32.toNat_sub, Ne, ← UInt32.toNat_inj]
  omega

/-- The estimate is seen exactly if it does not change. -/
theorem visible_iff (hmss : t.congestion.smss ≠ 0) :
    (∀ ca t', t.bictcpAcked = some (ca, t') → t'.congestion.bic.delayedAck = ca.delayedAck) ↔
      t.segmentAcked = t.congestion.bic.delayedAck >>> ackRatioShift := by
  have hacked : t.bictcpAcked = some ({ t.congestion.bic with delayedAck := t.congestion.bic.delayedAck +
      (t.segmentAcked - t.congestion.bic.delayedAck >>> ackRatioShift) }, t) := by
    unfold Tcb.bictcpAcked
    dsimp only
    rw [divide_of_ne (Tcb.mss_ne hmss), Option.map_some]
    rfl
  have hcancel (d n k : UInt32) : d = d + (n - k) ↔ n = k := by
    have hd := d.toNat_lt
    have hn := n.toNat_lt
    have hk := k.toNat_lt
    rw [← UInt32.toNat_inj, ← UInt32.toNat_inj, UInt32.toNat_add, UInt32.toNat_sub]
    omega
  rw [hacked]
  constructor
  · intro h
    exact (hcancel _ _ _).1 (h _ _ rfl)
  · intro h ca t' heq
    obtain ⟨rfl, rfl⟩ := Prod.mk.inj (Option.some.inj heq)
    exact (hcancel _ _ _).2 h

/-- **It is exactly if the sender is steady.** -/
theorem bicGrows_iff (now : ℚ) (t : Tcb) (hshift : t.windShift ≤ 14) : BicGrows now t ↔ Steady t := by
  constructor
  · intro h
    have hmss : t.congestion.smss ≠ 0 := by
      intro hzero
      have hdivides := h.divides
      have hnone : t.bicOpenWindow now = none := by
        unfold Tcb.bicOpenWindow divide Tcb.getMss
        rw [hzero]
        rfl
      rw [hnone] at hdivides
      exact absurd hdivides (by decide)
    have hdivides := h.divides
    rw [Tcb.bicOpenWindow_of_ne hmss, Tcb.checkedBictcpCongAvoid_isSome hmss hshift] at hdivides
    refine ⟨hmss, (visible_iff hmss).1 h.visible, ?_, ?_⟩
    · intro hslow
      exact (sub_one_lt_iff _).1 (h.counts hslow)
    · intro hupdates hlow
      exact (hdivides hupdates hlow).1
  · intro h
    have hmss := h.mss
    constructor
    · rw [Tcb.bicOpenWindow_of_ne hmss, Tcb.checkedBictcpCongAvoid_isSome hmss hshift]
      intro hupdates hlow
      refine ⟨h.increment hupdates hlow, ?_⟩
      -- a segment is acknowledged, so the estimate is not zero
      intro hzero
      have hestimate : t.segmentAcked = 0 := by
        rw [h.estimate, hzero]
        rfl
      obtain ⟨hcong, hpos⟩ := hupdates
      unfold Tcb.afterSlowStart at hpos
      split at hpos
      · rename_i hslow
        exact h.counted hslow hestimate
      · dsimp only at hpos
        rw [hestimate] at hpos
        exact absurd hpos (by decide)
    · intro hslow
      exact (sub_one_lt_iff _).2 (h.counted hslow)
    · intro t' ht'
      rw [UInt32.le_iff_toNat_le, Tcb.bicOpenWindow_eq ht']
      exact Tcb.getCwnd_le_bictcpCongAvoid hshift _
    · exact (visible_iff hmss).2 h.estimate

/-- A BIC sender in slow start with segments of 1000 octets, of which half a one is acknowledged. -/
def halfSegment : Tcb :=
  { Tcb.calloc .bic with
    snd := ⟨1000, 9000, 65535, 0, 0⟩
    seg := ⟨1, 1500, 0, 65535⟩
    congestion.smss := 1000
    congestion.cwnd := 10000
    congestion.ssthresh := 60000
    congestion.bic := ⟨14, 16, true, 4 / 5, 20, 0, 0, 0, 0, 0, 0, 32, 0⟩ }

theorem bicGrows_iff_half : BicGrows 0 halfSegment ↔ Steady halfSegment :=
  bicGrows_iff 0 halfSegment (by decide)

/-- The counter wraps. -/
theorem half_segment_wraps : ¬ ∀ (now : ℚ) (t : Tcb), t.windShift ≤ 14 → BicGrows now t := by
  intro hall
  have hcounts := (hall 0 halfSegment (by decide)).counts (by decide)
  exact absurd hcounts (by decide)

end NetSim.Tcp
