import NetSim.Proof.CongestionWords

/-!
# Partial acknowledgements in NewReno

A partial acknowledgement is to deflate the window by what it acknowledges and to give back one segment at most. The
code calls `increase_cwnd` with `SEG.ACK - recover` instead, a negative difference that is cast to 16 bits, so the window
grows by the `excess`. The bounds hold only if this happens to be small enough (`deflates_iff`).
-/

namespace NetSim.Tcp

variable {σ : Type} {lib : SocketLib σ} {now : ℚ} {t : Tcb} {s : Socket σ}

/-- **The window is deflated** by the octets acknowledged, less what is given back, which is a segment at most; it stays
one segment at least. -/
def Deflated (old new acked mss : ℕ) : Prop :=
  (∃ d ≤ mss, (new : ℤ) = max (mss : ℤ) (old - acked + d)) ∧ mss ≤ new ∧ new ≤ old + mss

theorem deflated_iff {old new acked mss : ℕ} : Deflated old new acked mss ↔
    mss ≤ new ∧ old ≤ new + acked ∧ (new = mss ∨ new + acked ≤ old + mss) := by
  constructor
  · rintro ⟨⟨d, hd, hnew⟩, hmss, -⟩
    refine ⟨hmss, by omega, ?_⟩
    by_cases hfloor : new = mss
    · exact .inl hfloor
    · exact .inr (by omega)
  · rintro ⟨hmss, hold, hnew⟩
    refine ⟨?_, hmss, by omega⟩
    rcases hnew with rfl | hle
    · exact ⟨0, Nat.zero_le _, by omega⟩
    · exact ⟨new + acked - old, by omega, by omega⟩

namespace Tcb

/-- `SEG.ACK - recover`, which is no positive number, as `increase_cwnd` gets it. -/
def excess (t : Tcb) : ℕ := (t.seg.ack - t.congestion.recover).toNat % 65536

/-- What the window gains if it is increased by the excess. -/
def gain (t : Tcb) : ℕ := t.opened t.excess * t.unit - t.getCwnd.toNat

/-- The window that is set for a number of octets: whole units, and one at least if the window is scaled. -/
def asWindow (t : Tcb) (n : ℕ) : ℕ := max (n / t.unit) (if t.isWindowScaling then 1 else 0) * t.unit

/-- The threshold that a full acknowledgement reads. -/
def fullAckThreshold (t : Tcb) : ℕ := t.getSsthres.toNat % 65536

/-- The flight size, of a segment at least, and one segment more. -/
def fullAckFlight (t : Tcb) : ℕ := max (t.inFlight % 65536) t.congestion.smss.toNat + t.congestion.smss.toNat

theorem asWindow_mono (t : Tcb) : Monotone t.asWindow := fun _ _ h =>
  Nat.mul_le_mul_right _ (max_le_max_right _ (Nat.div_le_div_right h))

theorem le_asWindow (t : Tcb) {mss n : ℕ} (h : 2 * mss ≤ n) : mss ≤ t.asWindow n := by
  unfold asWindow
  by_cases hle : t.unit ≤ mss
  · have hmod := Nat.mod_lt n t.unit_pos
    have hdiv := Nat.div_add_mod' n t.unit
    have hmul := Nat.mul_le_mul_right t.unit (le_max_left (n / t.unit) (if t.isWindowScaling then 1 else 0))
    omega
  · by_cases hscale : t.isWindowScaling = true
    · rw [if_pos hscale]
      have hmul := Nat.mul_le_mul_right t.unit (le_max_right (n / t.unit) 1)
      omega
    · have hone : t.unit = 1 := if_neg hscale
      omega

theorem getCwnd_toNat (hshift : t.windShift ≤ 14) : t.getCwnd.toNat = t.congestion.cwnd.toNat * t.unit :=
  word_toNat hshift t.congestion.cwnd

/-- `increase_cwnd` never makes the window smaller. -/
theorem le_opened (hshift : t.windShift ≤ 14) (n : ℕ) : t.getCwnd.toNat ≤ t.opened n * t.unit := by
  have hbase : t.getCwnd.toNat ≤ t.windowScaleGetCwnd.toNat := by
    unfold getCwnd windowScaleGetCwnd
    by_cases hscale : t.isWindowScaling = true
    · rw [if_pos hscale, if_pos hscale, UInt32.max_def]
      split
      · rename_i hle
        exact UInt32.le_iff_toNat_le.1 hle
      · exact le_rfl
    · rw [if_neg hscale, if_neg hscale]
      exact le_rfl
  have hword := t.congestion.cwnd.toNat_lt
  rw [getCwnd_toNat hshift] at hbase ⊢
  have hunits : t.congestion.cwnd.toNat ≤ (t.windowScaleGetCwnd.toNat + n) / t.unit :=
    (Nat.le_div_iff_mul_le t.unit_pos).2 (hbase.trans (Nat.le_add_right _ _))
  exact Nat.mul_le_mul_right _ (Nat.le_min.2 ⟨Nat.le_of_lt_succ hword, hunits⟩)

end Tcb

/-! ## The two branches -/

theorem resendSegmentWithoutTimeout_getCwnd (s : Socket σ) (seq : UInt32) :
    (s.resendSegmentWithoutTimeout seq).tcb.getCwnd = s.tcb.getCwnd := by
  unfold Socket.resendSegmentWithoutTimeout
  split
  · rfl
  · split <;> rfl

theorem newRenoFastRecovery_below (hshift : s.tcb.windShift ≤ 14)
    (hbelow : s.tcb.seg.ack < s.tcb.congestion.recover) :
    s.newRenoFastRecovery.tcb.getCwnd.toNat = s.tcb.opened s.tcb.excess * s.tcb.unit := by
  have hnot : ({ s.tcb with congestion.dupAckCount := 0 } : Tcb).isFullAck = false := by
    refine decide_eq_false fun hge => ?_
    exact absurd hbelow (UInt32.not_lt.2 hge)
  unfold Socket.newRenoFastRecovery
  dsimp only
  rw [hnot, if_neg Bool.false_ne_true, resendSegmentWithoutTimeout_getCwnd]
  rw [Tcb.getCwnd_toNat (by exact hshift)]
  have hincrease := Tcb.increaseCwnd_toNat (t := { s.tcb with congestion.dupAckCount := 0 }) hshift
    (s.tcb.seg.ack - s.tcb.congestion.recover).toUInt16
  rw [UInt32.toNat_toUInt16] at hincrease
  exact congrArg (· * s.tcb.unit) hincrease

theorem fullAckCount_toNat (t : Tcb) :
    (min t.getSsthres.toUInt16.toUInt32
      ((max t.flightSize t.congestion.smss).toUInt32 + t.congestion.smss.toUInt32)).toNat = min t.fullAckThreshold t.fullAckFlight := by
  have hflight : t.flightSize.toNat = t.inFlight % 65536 := UInt32.toNat_toUInt16 _
  have hmss := t.congestion.smss.toNat_lt
  have hmax : (max t.flightSize t.congestion.smss).toNat =
      max (t.inFlight % 65536) t.congestion.smss.toNat := by
    rw [← hflight, UInt16.max_def]
    split
    · rename_i hle
      exact (Nat.max_eq_right (UInt16.le_iff_toNat_le.1 hle)).symm
    · rename_i hgt
      rw [UInt16.le_iff_toNat_le] at hgt
      exact (Nat.max_eq_left (by omega)).symm
  have hsum : ((max t.flightSize t.congestion.smss).toUInt32 + t.congestion.smss.toUInt32).toNat =
      max (t.inFlight % 65536) t.congestion.smss.toNat + t.congestion.smss.toNat := by
    rw [UInt32.toNat_add, UInt16.toNat_toUInt32, UInt16.toNat_toUInt32, hmax]
    omega
  have hleft : t.getSsthres.toUInt16.toUInt32.toNat = t.getSsthres.toNat % 65536 := by
    rw [UInt16.toNat_toUInt32, UInt32.toNat_toUInt16]
  unfold Tcb.fullAckThreshold Tcb.fullAckFlight
  rw [← hleft, ← hsum, UInt32.min_def]
  split
  · rename_i hle
    exact (Nat.min_eq_left (UInt32.le_iff_toNat_le.1 hle)).symm
  · rename_i hgt
    rw [UInt32.le_iff_toNat_le] at hgt
    exact (Nat.min_eq_right (by omega)).symm

theorem newRenoFastRecovery_full (hshift : s.tcb.windShift ≤ 14)
    (hfull : s.tcb.seg.ack = s.tcb.congestion.recover) :
    s.newRenoFastRecovery.tcb.getCwnd.toNat =
      min (s.tcb.asWindow s.tcb.fullAckThreshold) (s.tcb.asWindow s.tcb.fullAckFlight) := by
  have hack : ({ s.tcb with congestion.dupAckCount := 0 } : Tcb).isFullAck = true :=
    decide_eq_true (UInt32.le_of_eq hfull.symm)
  have hcount := fullAckCount_toNat s.tcb
  have hfits : min s.tcb.fullAckThreshold s.tcb.fullAckFlight / s.tcb.unit < 65536 := by
    have hdiv := Nat.div_le_self (min s.tcb.fullAckThreshold s.tcb.fullAckFlight) s.tcb.unit
    have hlt : s.tcb.fullAckThreshold < 65536 := Nat.mod_lt _ (by omega)
    omega
  rw [← hcount] at hfits
  have hset := Tcb.getCwnd_setCwnd (t := { s.tcb with congestion.dupAckCount := 0 }) hshift hfits
  unfold Socket.newRenoFastRecovery
  dsimp only
  rw [hack, if_pos rfl, ← s.tcb.asWindow_mono.map_min, ← hcount]
  exact hset

/-! ## The bounds -/

/-- **An acknowledgement in fast recovery that is not above `recover` deflates the window.** -/
def Deflates (lib : SocketLib σ) (now : ℚ) (s : Socket σ) : Prop :=
  ∀ rounds, ∃ s', s.ackReceived lib now rounds = some (s', false) ∧
    Deflated s.tcb.getCwnd.toNat s'.tcb.getCwnd.toNat s.tcb.acked s.tcb.congestion.smss.toNat

theorem deflated_min_iff {old x y acked mss : ℕ} (hy : mss ≤ y) : Deflated old (min x y) acked mss ↔
    mss ≤ x ∧ (old ≤ x + acked ∧ old ≤ y + acked) ∧
      (x = mss ∨ x + acked ≤ old + mss ∨ y = mss ∨ y + acked ≤ old + mss) := by
  rw [deflated_iff]
  omega

/-- Below `recover`, what the window gains and what is acknowledged are one segment at most together, and the window is
no smaller than a segment; or it becomes just a segment.

At `recover`, which the code takes to acknowledge all, the threshold has room for a segment; it and the flight size with
one segment more are no less than the window without what is acknowledged; and one of the two is a segment, or exceeds that
by a segment at most. -/
structure GainsLittle (t : Tcb) : Prop where
  below : t.seg.ack < t.congestion.recover →
    t.getCwnd.toNat + t.gain = t.congestion.smss.toNat ∨
      t.congestion.smss.toNat ≤ t.getCwnd.toNat + t.gain ∧ t.gain + t.acked ≤ t.congestion.smss.toNat
  full : t.seg.ack = t.congestion.recover →
    t.congestion.smss.toNat ≤ t.asWindow t.fullAckThreshold ∧
      (t.getCwnd.toNat ≤ t.asWindow t.fullAckThreshold + t.acked ∧
        t.getCwnd.toNat ≤ t.asWindow t.fullAckFlight + t.acked) ∧
      (t.asWindow t.fullAckThreshold = t.congestion.smss.toNat ∨
        t.asWindow t.fullAckThreshold + t.acked ≤ t.getCwnd.toNat + t.congestion.smss.toNat ∨
        t.asWindow t.fullAckFlight = t.congestion.smss.toNat ∨
        t.asWindow t.fullAckFlight + t.acked ≤ t.getCwnd.toNat + t.congestion.smss.toNat)

theorem ackReceived_newReno (hvariant : s.tcb.variant = .newReno)
    (hrecovery : s.tcb.congestion.isFastRecovery = true) (hnew : s.tcb.snd.una < s.tcb.seg.ack) (rounds : ℕ) :
    s.ackReceived lib now rounds = some (s.newRenoFastRecovery, false) := by
  have hnot : s.tcb.isDupAck = false := decide_eq_false (UInt32.not_le.2 hnew)
  unfold Socket.ackReceived
  rw [hvariant]
  dsimp only
  unfold Socket.newrenoAckReceived
  rw [hnot, hrecovery, if_neg Bool.false_ne_true, if_pos rfl]

/-- **The window is deflated exactly if it gains little.** -/
theorem deflates_iff (lib : SocketLib σ) (now : ℚ) (s : Socket σ) (hvariant : s.tcb.variant = .newReno)
    (hrecovery : s.tcb.congestion.isFastRecovery = true) (hnew : s.tcb.snd.una < s.tcb.seg.ack)
    (hbelow : s.tcb.seg.ack ≤ s.tcb.congestion.recover) (hshift : s.tcb.windShift ≤ 14) :
    Deflates lib now s ↔ GainsLittle s.tcb := by
  have hresult (rounds : ℕ) : s.ackReceived lib now rounds = some (s.newRenoFastRecovery, false) :=
    ackReceived_newReno hvariant hrecovery hnew rounds
  have hdeflates : Deflates lib now s ↔ Deflated s.tcb.getCwnd.toNat
      s.newRenoFastRecovery.tcb.getCwnd.toNat s.tcb.acked s.tcb.congestion.smss.toNat := by
    constructor
    · intro h
      obtain ⟨s', hs', hdeflated⟩ := h 0
      rw [hresult] at hs'
      obtain rfl := (Prod.mk.inj (Option.some.inj hs')).1
      exact hdeflated
    · intro h rounds
      exact ⟨s.newRenoFastRecovery, hresult rounds, h⟩
  rw [hdeflates]
  rcases UInt32.lt_or_eq_of_le hbelow with hlt | hfull
  · -- the window grows by the gain
    have hgrown := newRenoFastRecovery_below hshift hlt
    have hle := Tcb.le_opened hshift s.tcb.excess
    have hgain : s.newRenoFastRecovery.tcb.getCwnd.toNat = s.tcb.getCwnd.toNat + s.tcb.gain := by
      unfold Tcb.gain
      omega
    have hne : s.tcb.seg.ack ≠ s.tcb.congestion.recover := UInt32.ne_of_lt hlt
    rw [hgain, deflated_iff]
    constructor
    · rintro ⟨hmss, -, hbound⟩
      refine ⟨fun _ => ?_, fun h => absurd h hne⟩
      rcases hbound with heq | hbound
      · exact .inl heq
      · exact .inr ⟨hmss, by omega⟩
    · intro h
      rcases h.below hlt with heq | ⟨hmss, hbound⟩
      · exact ⟨by omega, by omega, .inl heq⟩
      · exact ⟨hmss, by omega, .inr (by omega)⟩
  · have hnot : ¬ s.tcb.seg.ack < s.tcb.congestion.recover := by
      rw [hfull]
      exact UInt32.lt_irrefl _
    have hflight : 2 * s.tcb.congestion.smss.toNat ≤ s.tcb.fullAckFlight := by
      unfold Tcb.fullAckFlight
      omega
    rw [newRenoFastRecovery_full hshift hfull, deflated_min_iff (s.tcb.le_asWindow hflight)]
    constructor
    · intro h
      exact ⟨fun hlt => absurd hlt hnot, fun _ => h⟩
    · intro h
      exact h.full hfull

/-- A sender in fast recovery with a window of 10000 octets; 1000 of the 5000 octets in flight are
acknowledged. -/
def recoveringNewReno : Socket (List AppPacket) :=
  { tcb := { Tcb.calloc .newReno with
      tcpState := .established
      snd := ⟨1000, 6000, 65535, 0, 0⟩
      seg := ⟨1, 2000, 0, 65535⟩
      congestion.smss := 1000
      congestion.cwnd := 10000
      congestion.isFastRecovery := true
      congestion.recover := 6000 }
    sId := []
    waitFromApp := false
    isAppClose := false
    network := []
    application := [] }

theorem deflates_iff_sender : Deflates SocketLib.list 0 recoveringNewReno ↔ GainsLittle recoveringNewReno.tcb :=
  deflates_iff SocketLib.list 0 recoveringNewReno rfl rfl (by decide) (by decide) (by decide)

/-- The window becomes 65535 octets. -/
theorem ack_inflates : ¬ ∀ (s : Socket (List AppPacket)) (now : ℚ), s.tcb.variant = .newReno →
    s.tcb.congestion.isFastRecovery = true → s.tcb.snd.una < s.tcb.seg.ack →
    s.tcb.seg.ack ≤ s.tcb.congestion.recover → s.tcb.windShift ≤ 14 → Deflates SocketLib.list now s := by
  intro hall
  obtain ⟨s', hs', hdeflated⟩ := hall recoveringNewReno 0 rfl rfl (by decide) (by decide) (by decide) 0
  have hgrown : s'.tcb.getCwnd.toNat = 65535 := by
    rw [ackReceived_newReno rfl rfl (by decide)] at hs'
    obtain rfl := (Prod.mk.inj (Option.some.inj hs')).1
    decide
  have hle := hdeflated.2.2
  rw [hgrown] at hle
  exact absurd hle (by decide)

end NetSim.Tcp
