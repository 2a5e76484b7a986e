import NetSim.Proof.SendWindow
import NetSim.Spec.Congestion

/-!
# Congestion control in 16-bit words

The windows are kept in 16 bits, in units of the window scale, but the flight size and the acknowledged octets
have 32. `FastRetransmit`, `congestion_rto_timeout`, `slowStart` and `CongestionAvoidance` cast them to 16 bits first.

* `set_exact_iff`: what `set_ssthres` and `get_ssthres` keep of a threshold that was computed so.
* `opened_iff`: what a window gains if the acknowledged octets are cast.
* `exactWords_iff_fitWords`: the updates are exact exactly if the counts fit.
-/

namespace NetSim.Tcp

variable {σ : Type} {lib : SocketLib σ} {now : ℚ} {t : Tcb}

/-! ## Arithmetic -/

/-- A value survives being cut to `u`-fold multiples and to 16 bits of them. -/
theorem cut_eq_iff {u h : ℕ} (hu : 0 < u) : h / u % 65536 * u = h ↔ u ∣ h ∧ h < 65536 * u := by
  constructor
  · intro heq
    refine ⟨⟨h / u % 65536, by rw [Nat.mul_comm]; exact heq.symm⟩, ?_⟩
    have hmod : h / u % 65536 < 65536 := Nat.mod_lt _ (by omega)
    have hlt := (Nat.mul_lt_mul_right hu).2 hmod
    omega
  · rintro ⟨⟨k, rfl⟩, hlt⟩
    have hk : k < 65536 := by
      rw [Nat.mul_comm 65536 u] at hlt
      exact Nat.lt_of_mul_lt_mul_left hlt
    rw [Nat.mul_div_cancel_left k hu, Nat.mod_eq_of_lt hk, Nat.mul_comm]

/-- The threshold for a flight size that is cast to 16 bits, stored in units of `u`. -/
theorem set_exact_iff {flight mss u : ℕ} (hu : 0 < u) :
    max (flight % 65536 / 2) (2 * mss) / u % 65536 * u = max (flight / 2) (2 * mss) ↔
      (flight < 65536 ∨ flight / 2 ≤ 2 * mss) ∧ u ∣ max (flight / 2) (2 * mss) ∧
        max (flight / 2) (2 * mss) < 65536 * u := by
  constructor
  · intro heq
    have hle : max (flight / 2) (2 * mss) ≤ max (flight % 65536 / 2) (2 * mss) := by
      have hmod := Nat.mul_le_mul_right u (Nat.mod_le (max (flight % 65536 / 2) (2 * mss) / u) 65536)
      have hdiv := Nat.div_mul_le_self (max (flight % 65536 / 2) (2 * mss)) u
      omega
    have hfits : flight < 65536 ∨ flight / 2 ≤ 2 * mss := by omega
    have hsame : max (flight % 65536 / 2) (2 * mss) = max (flight / 2) (2 * mss) := by omega
    rw [hsame] at heq
    exact ⟨hfits, (cut_eq_iff hu).1 heq⟩
  · rintro ⟨hfits, hcut⟩
    have hsame : max (flight % 65536 / 2) (2 * mss) = max (flight / 2) (2 * mss) := by omega
    rw [hsame]
    exact (cut_eq_iff hu).2 hcut

/-- A window of `b` octets in units of `u` gains the same if the acknowledged octets are cast to 16 bits. -/
theorem opened_iff {b acked mss u : ℕ} (hmss : mss < 65536) :
    min 65535 ((b + min (acked % 65536) mss) / u) = min 65535 ((b + min acked mss) / u) ↔
      acked < 65536 ∨ mss ≤ acked % 65536 ∨ (b + acked % 65536) / u = (b + mss) / u ∨
        65535 ≤ (b + acked % 65536) / u := by
  by_cases hsmall : acked < 65536
  · rw [Nat.mod_eq_of_lt hsmall]
    exact iff_of_true rfl (.inl hsmall)
  have hexact : min acked mss = mss := by omega
  by_cases henough : mss ≤ acked % 65536
  · rw [hexact, Nat.min_eq_right henough]
    exact iff_of_true rfl (.inr (.inl henough))
  · -- the cast count is too small, and is seen to be unless it vanishes in the unit or the window is full
    have hcast : min (acked % 65536) mss = acked % 65536 := by omega
    have hle : (b + acked % 65536) / u ≤ (b + mss) / u := Nat.div_le_div_right (by omega)
    rw [hexact, hcast]
    omega

/-! ## The words -/

namespace Tcb

/-- The octets that a unit of the windows stands for. -/
def unit (t : Tcb) : ℕ := if t.isWindowScaling then 2 ^ t.windShift.toNat else 1

theorem unit_pos (t : Tcb) : 0 < t.unit := by
  unfold unit
  split
  · exact Nat.two_pow_pos _
  · exact Nat.one_pos

theorem shift_toNat (hshift : t.windShift ≤ 14) : t.windShift.toUInt32.toNat % 32 = t.windShift.toNat := by
  have hle := UInt8.le_iff_toNat_le.1 hshift
  have h14 : (14 : UInt8).toNat = 14 := rfl
  rw [UInt8.toNat_toUInt32]
  omega

theorem unit_le (hshift : t.windShift ≤ 14) : t.unit ≤ 16384 := by
  have hle := UInt8.le_iff_toNat_le.1 hshift
  have h14 : (14 : UInt8).toNat = 14 := rfl
  unfold unit
  split
  · have hpow : 2 ^ t.windShift.toNat ≤ 2 ^ 14 := Nat.pow_le_pow_right (by omega) (by omega)
    omega
  · omega

/-- A word in units of the window, in octets. -/
theorem word_toNat (hshift : t.windShift ≤ 14) (w : UInt16) :
    (if t.isWindowScaling then w.toUInt32 <<< t.windShift.toUInt32 else w.toUInt32).toNat =
      w.toNat * t.unit := by
  have hunit := unit_le hshift
  have hw := w.toNat_lt
  have hprod := Nat.mul_le_mul (Nat.le_of_lt_succ hw) hunit
  unfold unit at hprod ⊢
  split at hprod
  · rename_i hscale
    rw [if_pos hscale, if_pos hscale, UInt32.toNat_shiftLeft, shift_toNat hshift, Nat.shiftLeft_eq,
      UInt16.toNat_toUInt32]
    exact Nat.mod_eq_of_lt (by omega)
  · rename_i hscale
    rw [if_neg hscale, if_neg hscale, UInt16.toNat_toUInt32, Nat.mul_one]

/-- An octet count in units of the window. -/
theorem units_toNat (hshift : t.windShift ≤ 14) (x : UInt32) :
    (if t.isWindowScaling then (x >>> t.windShift.toUInt32).toUInt16 else x.toUInt16).toNat =
      x.toNat / t.unit % 65536 := by
  unfold unit
  split
  · rw [UInt32.toNat_toUInt16, UInt32.toNat_shiftRight, shift_toNat hshift, Nat.shiftRight_eq_div_pow]
  · rw [UInt32.toNat_toUInt16, Nat.div_one]

theorem getSsthres_setSsthres (hshift : t.windShift ≤ 14) (x : UInt32) :
    (t.setSsthres x).getSsthres.toNat = x.toNat / t.unit % 65536 * t.unit := by
  have hword := word_toNat hshift (t.setSsthres x).congestion.ssthresh
  have hunits := units_toNat hshift x
  calc (t.setSsthres x).getSsthres.toNat
      = (t.setSsthres x).congestion.ssthresh.toNat * t.unit := hword
    _ = x.toNat / t.unit % 65536 * t.unit := congrArg (· * t.unit) hunits

/-- `set_cwnd` keeps the units of the count, and at least one unit if the window is scaled. -/
theorem getCwnd_setCwnd (hshift : t.windShift ≤ 14) {x : UInt32} (hx : x.toNat / t.unit < 65536) :
    (t.setCwnd x).getCwnd.toNat =
      max (x.toNat / t.unit) (if t.isWindowScaling then 1 else 0) * t.unit := by
  have hword : (t.setCwnd x).getCwnd.toNat = (t.setCwnd x).congestion.cwnd.toNat * t.unit :=
    word_toNat hshift (t.setCwnd x).congestion.cwnd
  have hunits := units_toNat hshift x
  rw [hword]
  congr 1
  rw [Nat.mod_eq_of_lt hx] at hunits
  unfold setCwnd
  dsimp only
  by_cases hscale : t.isWindowScaling = true
  · rw [if_pos hscale] at hunits ⊢
    rw [if_pos hscale, ← hunits]
    split
    · rename_i hzero
      rw [hzero]
      rfl
    · rename_i hne
      have hpos : (x >>> t.windShift.toUInt32).toUInt16.toNat ≠ 0 := fun h => hne (UInt16.toNat_inj.1 h)
      omega
  · rw [if_neg hscale] at hunits ⊢
    rw [if_neg hscale, ← hunits]
    omega

/-- The octets from which `increase_cwnd` starts are few enough. -/
theorem windowScaleGetCwnd_le (hshift : t.windShift ≤ 14) :
    t.windowScaleGetCwnd.toNat ≤ 65535 * 16384 := by
  have hword := word_toNat hshift t.getWnd
  have hunit := unit_le hshift
  have hwnd := t.getWnd.toNat_lt
  have hmss := t.getMss.toNat_lt
  have hprod := Nat.mul_le_mul (Nat.le_of_lt_succ hwnd) hunit
  unfold windowScaleGetCwnd
  by_cases hscale : t.isWindowScaling = true
  · rw [if_pos hscale] at hword ⊢
    rw [UInt32.max_def]
    split
    · rw [UInt16.toNat_toUInt32]
      omega
    · omega
  · rw [if_neg hscale, UInt16.toNat_toUInt32]
    omega

/-- **What `increase_cwnd` leaves**, in units of the window. -/
theorem increaseCwnd_toNat (hshift : t.windShift ≤ 14) (n : UInt16) :
    (t.increaseCwnd n).congestion.cwnd.toNat =
      min 65535 ((t.windowScaleGetCwnd.toNat + n.toNat) / t.unit) := by
  have hle := windowScaleGetCwnd_le hshift
  have hn := n.toNat_lt
  have hsum : (t.windowScaleGetCwnd + n.toUInt32).toNat = t.windowScaleGetCwnd.toNat + n.toNat := by
    rw [UInt32.toNat_add, UInt16.toNat_toUInt32]
    omega
  have hunits : (if t.isWindowScaling then (t.windowScaleGetCwnd + n.toUInt32) >>> t.windShift.toUInt32
      else t.congestion.cwnd.toUInt32 + n.toUInt32).toNat =
        (t.windowScaleGetCwnd.toNat + n.toNat) / t.unit := by
    unfold unit
    split
    · rw [UInt32.toNat_shiftRight, shift_toNat hshift, Nat.shiftRight_eq_div_pow, hsum]
    · rename_i hscale
      have hbase : t.windowScaleGetCwnd = t.congestion.cwnd.toUInt32 := if_neg hscale
      rw [← hbase, hsum, Nat.div_one]
  have hfull : (65535 : UInt32).toNat = 65535 := rfl
  unfold increaseCwnd
  dsimp only
  rw [← hunits]
  generalize (if t.isWindowScaling then (t.windowScaleGetCwnd + n.toUInt32) >>> t.windShift.toUInt32
      else t.congestion.cwnd.toUInt32 + n.toUInt32) = cwnd
  split
  · rename_i hge
    rw [ge_iff_le, UInt32.le_iff_toNat_le, hfull] at hge
    exact (Nat.min_eq_left hge).symm
  · rename_i hlt
    rw [ge_iff_le, UInt32.le_iff_toNat_le, hfull] at hlt
    rw [UInt32.toNat_toUInt16]
    omega

/-- The octets that the acknowledgement in work takes from the flight. -/
def acked (t : Tcb) : ℕ := (t.seg.ack - t.snd.una).toNat

/-- The window that is opened by a number of octets, in its units; it stops at the largest word. -/
def opened (t : Tcb) (n : ℕ) : ℕ := min 65535 ((t.windowScaleGetCwnd.toNat + n) / t.unit)

theorem increase_acked (hshift : t.windShift ≤ 14) :
    (t.increaseCwnd (min (t.seg.ack - t.snd.una).toUInt16 t.congestion.smss)).congestion.cwnd.toNat =
      t.opened (min (t.acked % 65536) t.congestion.smss.toNat) := by
  have hmin : (min (t.seg.ack - t.snd.una).toUInt16 t.congestion.smss).toNat =
      min (t.acked % 65536) t.congestion.smss.toNat := by
    have hcast : (t.seg.ack - t.snd.una).toUInt16.toNat = t.acked % 65536 := UInt32.toNat_toUInt16 _
    rw [← hcast, UInt16.min_def]
    split
    · rename_i hle
      rw [UInt16.le_iff_toNat_le] at hle
      exact (Nat.min_eq_left hle).symm
    · rename_i hgt
      rw [UInt16.le_iff_toNat_le] at hgt
      exact (Nat.min_eq_right (by omega)).symm
  rw [increaseCwnd_toNat hshift, hmin]
  rfl

/-- The threshold that is to be set: half the flight size, and at least two segments. -/
def threshold (t : Tcb) : ℕ := max (t.inFlight / 2) (2 * t.congestion.smss.toNat)

/-- The threshold that the code sets, as it is read afterwards. -/
theorem getSsthres_halfFlight (hshift : t.windShift ≤ 14) :
    (t.setSsthres t.halfFlight).getSsthres.toNat =
      max (t.inFlight % 65536 / 2) (2 * t.congestion.smss.toNat) / t.unit % 65536 * t.unit := by
  have hmss := t.congestion.smss.toNat_lt
  have hflight : t.flightSize.toNat = t.inFlight % 65536 := UInt32.toNat_toUInt16 _
  have htwo : (2 : UInt32).toNat = 2 := rfl
  have hhalf : t.halfFlight.toNat = max (t.inFlight % 65536 / 2) (2 * t.congestion.smss.toNat) := by
    have hleft : (t.flightSize.toUInt32 / 2).toNat = t.inFlight % 65536 / 2 := by
      rw [UInt32.toNat_div, UInt16.toNat_toUInt32, hflight, htwo]
    have hright : (2 * t.congestion.smss.toUInt32).toNat = 2 * t.congestion.smss.toNat := by
      rw [UInt32.toNat_mul, UInt16.toNat_toUInt32, htwo]
      omega
    unfold halfFlight
    rw [← hleft, ← hright, UInt32.max_def]
    split
    · rename_i hle
      exact (Nat.max_eq_right (UInt32.le_iff_toNat_le.1 hle)).symm
    · rename_i hgt
      rw [UInt32.le_iff_toNat_le] at hgt
      exact (Nat.max_eq_left (by omega)).symm
  rw [getSsthres_setSsthres hshift, hhalf]

/-! ## The updates -/

/-- The threshold and the scale are the same in both. -/
structure SameThreshold (t t' : Tcb) : Prop where
  ssthresh : t'.congestion.ssthresh = t.congestion.ssthresh
  scaling : t'.isWindowScaling = t.isWindowScaling
  shift : t'.windShift = t.windShift

theorem SameThreshold.trans {t₀ t₁ t₂ : Tcb} (h : SameThreshold t₀ t₁) (h' : SameThreshold t₁ t₂) :
    SameThreshold t₀ t₂ :=
  ⟨h'.ssthresh.trans h.ssthresh, h'.scaling.trans h.scaling, h'.shift.trans h.shift⟩

theorem SameThreshold.getSsthres {t t' : Tcb} (h : SameThreshold t t') : t'.getSsthres = t.getSsthres := by
  unfold Tcb.getSsthres
  rw [h.ssthresh, h.scaling, h.shift]

end Tcb

theorem resendSegmentWithoutTimeout_threshold (s : Socket σ) (seq : UInt32) :
    s.tcb.SameThreshold (s.resendSegmentWithoutTimeout seq).tcb := by
  unfold Socket.resendSegmentWithoutTimeout
  split
  · exact ⟨rfl, rfl, rfl⟩
  · split <;> exact ⟨rfl, rfl, rfl⟩

theorem sackFastRetransmit_threshold {rounds : ℕ} {s s' : Socket σ}
    (h : s.sackFastRetransmit rounds = some s') : s.tcb.SameThreshold s'.tcb := by
  unfold Socket.sackFastRetransmit at h
  split at h
  · obtain ⟨t, ht, h⟩ := Option.bind_eq_some_iff.1 h
    obtain rfl := Option.some.inj h
    obtain ⟨pipe, -, rfl⟩ := Option.map_eq_some_iff.1 ht
    exact ⟨rfl, rfl, rfl⟩
  · obtain rfl := Option.some.inj h
    exact ⟨rfl, rfl, rfl⟩

/-- **Fast retransmit leaves the threshold that it has set first.** -/
theorem fastRetransmit_threshold {rounds : ℕ} {s s' : Socket σ} {isEntered : Bool}
    (hthird : s.tcb.congestion.dupAckCount = tcpDupThresh)
    (h : s.fastRetransmit lib now rounds = some (s', isEntered)) :
    s'.tcb.getSsthres = (s.tcb.setSsthres s.tcb.halfFlight).getSsthres := by
  have henter : (s.tcb.setSsthres s.tcb.halfFlight).SameThreshold
      (s.enterFastRetransmit fun t => (t, t.halfFlight)).tcb := by
    have hresend (t : Tcb) := resendSegmentWithoutTimeout_threshold { s with tcb := t } t.seg.ack
    unfold Socket.enterFastRetransmit
    exact ⟨(hresend _).ssthresh, (hresend _).scaling, (hresend _).shift⟩
  refine Tcb.SameThreshold.getSsthres ?_
  unfold Socket.fastRetransmit Socket.fastRetransmitWith at h
  dsimp only at h
  rw [if_pos hthird] at h
  split at h
  · obtain ⟨s₁, hs₁, h⟩ := Option.bind_eq_some_iff.1 h
    obtain rfl := (Prod.mk.inj (Option.some.inj h)).1
    have hsack := henter.trans (sackFastRetransmit_threshold hs₁)
    exact ⟨hsack.ssthresh, hsack.scaling, hsack.shift⟩
  · obtain rfl := (Prod.mk.inj (Option.some.inj h)).1
    exact henter

theorem rtoTimeout_threshold (t : Tcb) :
    t.rtoTimeout.getSsthres = (t.setSsthres t.halfFlight).getSsthres := by
  unfold Tcb.rtoTimeout
  dsimp only
  split <;> rfl

/-- **The updates of congestion control are exact**: the thresholds that a timeout and the third duplicate set, the
windows that slow start and congestion avoidance open, and what is set of any count that the window scale admits, in its
units. -/
structure ExactWords (lib : SocketLib σ) (now : ℚ) (s : Socket σ) : Prop where
  timeout : s.tcb.rtoTimeout.getSsthres.toNat = s.tcb.threshold
  third : ∀ rounds s' isEntered, s.tcb.congestion.dupAckCount = tcpDupThresh →
    s.fastRetransmit lib now rounds = some (s', isEntered) → s'.tcb.getSsthres.toNat = s.tcb.threshold
  slowStart : s.tcb.slowStart.congestion.cwnd.toNat =
    s.tcb.opened (min s.tcb.acked s.tcb.congestion.smss.toNat)
  avoidance : s.tcb.congestion.lastWinUpdateTime + s.tcb.retransmissionQueue.getRtt now s.tcb.seg.ack < now →
    (s.tcb.congestionAvoidance now).congestion.cwnd.toNat =
      s.tcb.opened (min s.tcb.acked s.tcb.congestion.smss.toNat)
  setSsthres : ∀ x : UInt32, x.toNat / s.tcb.unit < 65536 →
    (s.tcb.setSsthres x).getSsthres.toNat = x.toNat / s.tcb.unit * s.tcb.unit
  setCwnd : ∀ x : UInt32, x.toNat / s.tcb.unit < 65536 → (s.tcb.setCwnd x).getCwnd.toNat =
    max (x.toNat / s.tcb.unit) (if s.tcb.isWindowScaling then 1 else 0) * s.tcb.unit

/-- The flight size fits 16 bits, or half of it is no more than two segments; the threshold is a number of whole units
that fits 16 bits; and so do the acknowledged octets, or what is left of them opens the window as far as a segment
would. -/
structure FitWords (t : Tcb) : Prop where
  flight : t.inFlight < 65536 ∨ t.inFlight / 2 ≤ 2 * t.congestion.smss.toNat
  whole : t.unit ∣ t.threshold
  room : t.threshold < 65536 * t.unit
  acked : t.acked < 65536 ∨ t.congestion.smss.toNat ≤ t.acked % 65536 ∨
    (t.windowScaleGetCwnd.toNat + t.acked % 65536) / t.unit =
      (t.windowScaleGetCwnd.toNat + t.congestion.smss.toNat) / t.unit ∨
    65535 ≤ (t.windowScaleGetCwnd.toNat + t.acked % 65536) / t.unit

theorem congestionAvoidance_cwnd (hshift : t.windShift ≤ 14)
    (hdue : t.congestion.lastWinUpdateTime + t.retransmissionQueue.getRtt now t.seg.ack < now) :
    (t.congestionAvoidance now).congestion.cwnd.toNat =
      t.opened (min (t.acked % 65536) t.congestion.smss.toNat) := by
  unfold Tcb.congestionAvoidance
  dsimp only
  rw [if_pos hdue]
  exact Tcb.increase_acked (t := { t with congestion.lastWinUpdateTime := now }) hshift

/-- **The updates are exact exactly if the counts fit.** -/
theorem exactWords_iff_fitWords (lib : SocketLib σ) (now : ℚ) (s : Socket σ) (hshift : s.tcb.windShift ≤ 14) :
    ExactWords lib now s ↔ FitWords s.tcb := by
  have hset : (s.tcb.setSsthres s.tcb.halfFlight).getSsthres.toNat = s.tcb.threshold ↔
      (s.tcb.inFlight < 65536 ∨ s.tcb.inFlight / 2 ≤ 2 * s.tcb.congestion.smss.toNat) ∧
        s.tcb.unit ∣ s.tcb.threshold ∧ s.tcb.threshold < 65536 * s.tcb.unit := by
    rw [Tcb.getSsthres_halfFlight hshift]
    exact set_exact_iff s.tcb.unit_pos
  have hopened : s.tcb.opened (min (s.tcb.acked % 65536) s.tcb.congestion.smss.toNat) =
      s.tcb.opened (min s.tcb.acked s.tcb.congestion.smss.toNat) ↔ _ :=
    opened_iff s.tcb.congestion.smss.toNat_lt
  have hslow := Tcb.increase_acked hshift
  constructor
  · intro h
    have htimeout := h.timeout
    rw [rtoTimeout_threshold] at htimeout
    obtain ⟨hflight, hwhole, hroom⟩ := hset.1 htimeout
    have hacked := hopened.1 (hslow.symm.trans h.slowStart)
    exact ⟨hflight, hwhole, hroom, hacked⟩
  · intro h
    have hthreshold : (s.tcb.setSsthres s.tcb.halfFlight).getSsthres.toNat = s.tcb.threshold :=
      hset.2 ⟨h.flight, h.whole, h.room⟩
    have hexact := hopened.2 h.acked
    constructor
    · rw [rtoTimeout_threshold]
      exact hthreshold
    · intro rounds s' isEntered hthird hfast
      rw [fastRetransmit_threshold hthird hfast]
      exact hthreshold
    · exact hslow.trans hexact
    · intro hdue
      exact (congestionAvoidance_cwnd hshift hdue).trans hexact
    · intro x hx
      rw [Tcb.getSsthres_setSsthres hshift, Nat.mod_eq_of_lt hx]
    · intro x hx
      exact Tcb.getCwnd_setCwnd hshift hx

/-- A sender on a long path: the window scale is 7, and 102400 octets are in flight. -/
def longPath : Socket (List AppPacket) :=
  { tcb := { Tcb.calloc .reno with
      tcpState := .established
      snd := ⟨1000, 103400, 65535, 0, 0⟩
      seg := ⟨1, 2000, 0, 65535⟩
      congestion.smss := 1024
      congestion.cwnd := 1000
      isWindowScaling := true
      windShift := 7 }
    sId := []
    waitFromApp := false
    isAppClose := false
    network := []
    application := [] }

theorem exactWords_iff_fitWords_long : ExactWords SocketLib.list 0 longPath ↔ FitWords longPath.tcb :=
  exactWords_iff_fitWords SocketLib.list 0 longPath (by decide)

/-- Half of the flight size is 51200, and the threshold becomes 18432. -/
theorem long_path_not_exact : ¬ ∀ (s : Socket (List AppPacket)) (now : ℚ), s.tcb.windShift ≤ 14 →
    ExactWords SocketLib.list now s := by
  intro hall
  have htimeout := (hall longPath 0 (by decide)).timeout
  exact absurd htimeout (by decide +kernel)

end NetSim.Tcp
