import NetSim.Lib.Machine
import NetSim.Spec.TcpIncoming

/-!
# Fast retransmit and the count of duplicates

Reno, NewReno and BIC enter fast retransmit when `dupAckCount` becomes three. Outside fast recovery
they do not reset it for an acknowledgement of new data, so duplicates of different `SND.UNA` are
counted together. `entered_third` holds for the runs in which that makes no difference.

* `SameCount`: what the sending functions leave alone.
* `AckResult`: what a handler does to the counter.
-/

namespace NetSim.Tcp

variable {σ : Type} (lib : SocketLib σ) (now : ℚ) {rounds : ℕ}

/-! ## What the sending functions leave alone -/

/-- The counter of duplicates, and what it is about, are the same. -/
structure SameCount (t t' : Tcb) : Prop where
  variant : t'.variant = t.variant
  una : t'.snd.una = t.snd.una
  seg : t'.seg = t.seg
  dupAckCount : t'.congestion.dupAckCount = t.congestion.dupAckCount

namespace SameCount

variable {t t' t'' : Tcb} {s s' : Socket σ}

theorem refl (t : Tcb) : SameCount t t := ⟨rfl, rfl, rfl, rfl⟩

theorem trans (h : SameCount t t') (h' : SameCount t' t'') : SameCount t t'' :=
  ⟨h'.variant.trans h.variant, h'.una.trans h.una, h'.seg.trans h.seg,
    h'.dupAckCount.trans h.dupAckCount⟩

/-! ### Windows -/

theorem increaseCwnd (t : Tcb) (increase : UInt16) : SameCount t (t.increaseCwnd increase) :=
  ⟨rfl, rfl, rfl, rfl⟩

theorem setSsthres (t : Tcb) (n : UInt32) : SameCount t (t.setSsthres n) := ⟨rfl, rfl, rfl, rfl⟩

theorem setCwnd (t : Tcb) (n : UInt32) : SameCount t (t.setCwnd n) := ⟨rfl, rfl, rfl, rfl⟩

theorem congestionAvoidance (t : Tcb) (now : ℚ) : SameCount t (t.congestionAvoidance now) := by
  unfold Tcb.congestionAvoidance
  dsimp only
  split
  · exact ⟨rfl, rfl, rfl, rfl⟩
  · exact refl t

theorem openWindow (t : Tcb) (now : ℚ) : SameCount t (t.openWindow now) := by
  unfold Tcb.openWindow
  split
  · exact ⟨rfl, rfl, rfl, rfl⟩
  · exact congestionAvoidance t now

theorem bictcpRecalcSsthresh (t : Tcb) : SameCount t t.bictcpRecalcSsthresh.1 := by
  unfold Tcb.bictcpRecalcSsthresh
  dsimp only
  split <;> exact ⟨rfl, rfl, rfl, rfl⟩

theorem bictcpCongAvoid (t : Tcb) (now : ℚ) (n : UInt32) : SameCount t (t.bictcpCongAvoid now n) := by
  unfold Tcb.bictcpCongAvoid
  by_cases hslow : t.inSlowStart
  · simp only [hslow, if_true]
    have hstart : SameCount t t.slowStart := ⟨rfl, rfl, rfl, rfl⟩
    refine hstart.trans ?_
    generalize t.slowStart = t'
    split
    · split <;> exact ⟨rfl, rfl, rfl, rfl⟩
    · exact refl t'
  · simp only [hslow, if_false]
    split
    · split <;> exact ⟨rfl, rfl, rfl, rfl⟩
    · exact refl t

theorem rtoTimeout (t : Tcb) : SameCount t t.rtoTimeout := by
  unfold Tcb.rtoTimeout
  dsimp only
  split <;> exact ⟨rfl, rfl, rfl, rfl⟩

theorem changeState (t : Tcb) (state : TcpConnectionState) : SameCount t (t.changeState state) := by
  unfold Tcb.changeState
  split
  · exact refl t
  · exact ⟨rfl, rfl, rfl, rfl⟩

/-! ### Sending -/

theorem tcpClose (s : Socket σ) : SameCount s.tcb s.tcpClose.tcb := by
  unfold Socket.tcpClose
  split
  · exact refl _
  · exact changeState ..

theorem sendNext (s : Socket σ) (l : UInt32) : SameCount s.tcb (s.sendNext lib now l).tcb := by
  unfold Socket.sendNext
  split <;> exact ⟨rfl, rfl, rfl, rfl⟩

theorem sendLoop (n : ℕ) (s : Socket σ) : SameCount s.tcb (s.sendLoop lib now n).tcb := by
  induction n generalizing s with
  | zero => exact refl _
  | succ n ih =>
    unfold Socket.sendLoop
    split
    · exact refl _
    · split
      · exact (sendNext lib now s _).trans (ih _)
      · exact refl _

theorem sendSegment (s : Socket σ) : SameCount s.tcb (s.sendSegment lib now).tcb := by
  have hopen : SameCount s.tcb (s.openSendWindow lib).tcb := ⟨rfl, rfl, rfl, rfl⟩
  have hloop := hopen.trans (sendLoop lib now (lib.waiting s.sId).length _)
  unfold Socket.sendSegment
  dsimp only
  split
  · exact hloop.trans (tcpClose _)
  · exact hloop

theorem resendSegment (s : Socket σ) (seq : UInt32) : SameCount s.tcb (s.resendSegment now seq).tcb := by
  unfold Socket.resendSegment
  split <;> exact ⟨rfl, rfl, rfl, rfl⟩

theorem resendSegmentWithoutTimeout (s : Socket σ) (seq : UInt32) :
    SameCount s.tcb (s.resendSegmentWithoutTimeout seq).tcb := by
  unfold Socket.resendSegmentWithoutTimeout
  split
  · exact refl _
  · split <;> exact ⟨rfl, rfl, rfl, rfl⟩

/-- A segment is resent after a change of the control block. -/
theorem resend {t₀ : Tcb} (s : Socket σ) (h : SameCount t₀ t) (seq : UInt32) :
    SameCount t₀ ({ s with tcb := t }.resendSegmentWithoutTimeout seq).tcb :=
  h.trans (resendSegmentWithoutTimeout { s with tcb := t } seq)

theorem handleRtoTimer (s : Socket σ) : SameCount s.tcb (s.handleRtoTimer now).tcb := by
  unfold Socket.handleRtoTimer
  split
  · split
    · exact refl _
    · exact (rtoTimeout s.tcb).trans (resendSegment now { s with tcb := s.tcb.rtoTimeout } _)
  · exact refl _

/-! ### SACK -/

theorem setPipe (h : t.setPipe rounds = some t') : SameCount t t' := by
  obtain ⟨pipe, -, rfl⟩ := Option.map_eq_some_iff.1 h
  exact ⟨rfl, rfl, rfl, rfl⟩

theorem nextSeg (s : Socket σ) : SameCount s.tcb (s.nextSeg lib).2.tcb := by
  unfold Socket.nextSeg
  dsimp only
  split
  · exact refl _
  · split
    · exact ⟨rfl, rfl, rfl, rfl⟩
    · split <;> exact ⟨rfl, rfl, rfl, rfl⟩

theorem resendLost (s : Socket σ) (seq : UInt32) : SameCount s.tcb (s.resendLost seq).tcb :=
  (resendSegmentWithoutTimeout s seq).trans ⟨rfl, rfl, rfl, rfl⟩

theorem sendNew (s : Socket σ) : SameCount s.tcb (s.sendNew lib now).1.tcb :=
  (sendSegment lib now s).trans ⟨rfl, rfl, rfl, rfl⟩

/-- The socket that a round of the recovery phase leaves, whether it goes on or not. -/
theorem recoveryRound (wnd mss : UInt32) (r : Socket σ × UInt32) :
    (∀ r', Socket.recoveryRound lib now wnd mss r = .inl r' → SameCount r.1.tcb r'.1.tcb) ∧
      ∀ s', Socket.recoveryRound lib now wnd mss r = .inr s' → SameCount r.1.tcb s'.tcb := by
  have hnext := nextSeg lib r.1
  have hresend := hnext.trans (resendLost (r.1.nextSeg lib).2 (r.1.nextSeg lib).1)
  have hnew := hnext.trans (sendNew lib now (r.1.nextSeg lib).2)
  unfold Socket.recoveryRound
  dsimp only
  split
  · split
    · refine ⟨fun r' hr => absurd hr Sum.inr_ne_inl, fun s' hr => ?_⟩
      obtain rfl := Sum.inr.inj hr
      exact hnext
    · split
      · refine ⟨fun r' hr => ?_, fun s' hr => absurd hr Sum.inl_ne_inr⟩
        obtain rfl := Sum.inl.inj hr
        exact hresend
      · refine ⟨fun r' hr => ?_, fun s' hr => absurd hr Sum.inl_ne_inr⟩
        obtain rfl := Sum.inl.inj hr
        exact hnew
  · refine ⟨fun r' hr => absurd hr Sum.inr_ne_inl, fun s' hr => ?_⟩
    obtain rfl := Sum.inr.inj hr
    exact refl _

theorem lossRecoveryPhase {phase : Bool}
    (h : s.lossRecoveryPhase lib now rounds = some (phase, s')) : SameCount s.tcb s'.tcb := by
  unfold Socket.lossRecoveryPhase at h
  split at h
  · obtain rfl := (Prod.mk.inj (Option.some.inj h)).2
    exact refl _
  · obtain ⟨t, ht, h⟩ := Option.bind_eq_some_iff.1 h
    obtain ⟨s₁, hs₁, h⟩ := Option.bind_eq_some_iff.1 h
    obtain rfl := (Prod.mk.inj (Option.some.inj h)).2
    exact Loop.run_inv (Q := fun s' : Socket σ => SameCount s.tcb s'.tcb)
      (fun r r' (hr : SameCount s.tcb r.1.tcb) hround =>
        hr.trans ((recoveryRound lib now _ _ r).1 r' hround))
      (fun r s' hr hround => hr.trans ((recoveryRound lib now _ _ r).2 s' hround))
      (setPipe ht) hs₁

theorem sackFastRetransmit (h : s.sackFastRetransmit rounds = some s') : SameCount s.tcb s'.tcb := by
  unfold Socket.sackFastRetransmit at h
  split at h
  · obtain ⟨t, ht, h⟩ := Option.bind_eq_some_iff.1 h
    obtain rfl := Option.some.inj h
    have hpipe := setPipe ht
    exact ⟨hpipe.variant, hpipe.una, hpipe.seg, hpipe.dupAckCount⟩
  · obtain rfl := Option.some.inj h
    exact refl _

end SameCount

/-! ## The handlers -/

section Handlers

variable {t t' : Tcb} {s s' : Socket σ} {isEntered : Bool}

/-- A function that leaves the counter alone and enters fast retransmit at the third duplicate only. -/
def EntersAtThird (f : Socket σ → Option (Socket σ × Bool)) : Prop :=
  ∀ s s' isEntered, f s = some (s', isEntered) →
    SameCount s.tcb s'.tcb ∧ (isEntered = true → s.tcb.congestion.dupAckCount = tcpDupThresh)

theorem enterFastRetransmit_sameCount {ssthresh : Tcb → Tcb × UInt32}
    (hss : ∀ t, SameCount t (ssthresh t).1) (s : Socket σ) :
    SameCount s.tcb (s.enterFastRetransmit ssthresh).tcb := by
  have hwindow (n m : UInt32) : SameCount s.tcb (((ssthresh s.tcb).1.setSsthres n).setCwnd m) :=
    (hss s.tcb).trans ⟨rfl, rfl, rfl, rfl⟩
  exact ((hwindow _ _).resend s _).trans ⟨rfl, rfl, rfl, rfl⟩

theorem fastRetransmitWith_entersAtThird {ssthresh : Tcb → Tcb × UInt32}
    (hss : ∀ t, SameCount t (ssthresh t).1) :
    EntersAtThird (Socket.fastRetransmitWith lib now rounds ssthresh) := by
  intro s s' isEntered h
  unfold Socket.fastRetransmitWith at h
  dsimp only at h
  split at h
  · rename_i hthird
    have henter := enterFastRetransmit_sameCount hss s
    refine ⟨?_, fun _ => hthird⟩
    split at h
    · obtain ⟨s₁, hs₁, h⟩ := Option.bind_eq_some_iff.1 h
      obtain rfl := (Prod.mk.inj (Option.some.inj h)).1
      exact henter.trans ((SameCount.sackFastRetransmit hs₁).trans ⟨rfl, rfl, rfl, rfl⟩)
    · obtain rfl := (Prod.mk.inj (Option.some.inj h)).1
      exact henter
  · have hincrease := SameCount.increaseCwnd s.tcb s.tcb.congestion.smss
    split at h
    · obtain ⟨⟨phase, s₁⟩, hs₁, h⟩ := Option.bind_eq_some_iff.1 h
      obtain ⟨rfl, rfl⟩ := Prod.mk.inj (Option.some.inj h)
      have hphase := hincrease.trans (SameCount.lossRecoveryPhase lib now hs₁)
      exact ⟨hphase.trans ⟨rfl, rfl, rfl, rfl⟩, nofun⟩
    · obtain ⟨rfl, rfl⟩ := Prod.mk.inj (Option.some.inj h)
      exact ⟨hincrease, nofun⟩

theorem fastRetransmit_entersAtThird : EntersAtThird (Socket.fastRetransmit lib now rounds) :=
  fastRetransmitWith_entersAtThird lib now SameCount.refl

theorem bictcpFastretransmit_entersAtThird :
    EntersAtThird (Socket.bictcpFastretransmit lib now rounds) :=
  fastRetransmitWith_entersAtThird lib now SameCount.bictcpRecalcSsthresh

/-- What NewReno does from the third duplicate on. -/
theorem newReno_third_entersAtThird : EntersAtThird fun s : Socket σ =>
    if s.tcb.congestion.recover < s.tcb.seg.ack - 1 then
      Socket.fastRetransmit lib now rounds
        { s with tcb := { s.tcb with congestion.recover := s.tcb.snd.nxt } }
    else some (s, false) := by
  intro s s' isEntered h
  dsimp only at h
  split at h
  · have hset : SameCount s.tcb { s.tcb with congestion.recover := s.tcb.snd.nxt } :=
      ⟨rfl, rfl, rfl, rfl⟩
    have hfast := fastRetransmit_entersAtThird lib now _ _ _ h
    exact ⟨hset.trans hfast.1, hfast.2⟩
  · obtain ⟨rfl, rfl⟩ := Prod.mk.inj (Option.some.inj h)
    exact ⟨.refl _, nofun⟩

/-- The control block with another count. -/
def Tcb.withDups (t : Tcb) (n : UInt32) : Tcb := { t with congestion.dupAckCount := n }

/-- A duplicate is counted. -/
theorem dupAckReceived_spec {retransmit third : Socket σ → Option (Socket σ × Bool)}
    (hretransmit : EntersAtThird retransmit) (hthird : EntersAtThird third)
    (h : s.dupAckReceived retransmit third = some (s', isEntered)) :
    SameCount (s.tcb.withDups (s.tcb.congestion.dupAckCount + 1)) s'.tcb ∧
      (isEntered = true → s.tcb.congestion.dupAckCount + 1 = tcpDupThresh) := by
  unfold Socket.dupAckReceived at h
  dsimp only at h
  split at h
  · split at h
    · exact hretransmit _ _ _ h
    · obtain ⟨rfl, rfl⟩ := Prod.mk.inj (Option.some.inj h)
      exact ⟨.refl _, nofun⟩
  · exact hthird _ _ _ h

/-- **What a handler does**: a duplicate is counted, and fast retransmit needs the count to be three;
any other acknowledgement clears the count in fast recovery only. -/
structure AckResult (t t' : Tcb) (isEntered : Bool) : Prop where
  dup : t.isDupAck = true →
    SameCount (t.withDups (t.congestion.dupAckCount + 1)) t' ∧
      (isEntered = true → t.congestion.dupAckCount + 1 = tcpDupThresh)
  other : t.isDupAck = false → isEntered = false ∧ t'.snd = t.snd ∧
    SameCount (t.withDups (if t.congestion.isFastRecovery then 0 else t.congestion.dupAckCount)) t'

theorem openWindow_snd (t : Tcb) : (t.openWindow now).snd = t.snd := by
  unfold Tcb.openWindow Tcb.congestionAvoidance
  dsimp only
  split
  · rfl
  · split <;> rfl

theorem bictcpCongAvoid_snd (t : Tcb) (n : UInt32) : (t.bictcpCongAvoid now n).snd = t.snd := by
  unfold Tcb.bictcpCongAvoid
  by_cases hslow : t.inSlowStart
  · simp only [hslow, if_true]
    have hstart : t.slowStart.snd = t.snd := rfl
    rw [← hstart]
    generalize t.slowStart = t'
    split
    · split <;> rfl
    · rfl
  · simp only [hslow, if_false]
    split
    · split <;> rfl
    · rfl

theorem resendSegmentWithoutTimeout_snd (s : Socket σ) (seq : UInt32) :
    (s.resendSegmentWithoutTimeout seq).tcb.snd = s.tcb.snd := by
  unfold Socket.resendSegmentWithoutTimeout
  split
  · rfl
  · split <;> rfl

/-- A full or a partial acknowledgement clears the count. -/
theorem newRenoFastRecovery_spec (s : Socket σ) :
    s.newRenoFastRecovery.tcb.snd = s.tcb.snd ∧
      SameCount (s.tcb.withDups 0) s.newRenoFastRecovery.tcb := by
  unfold Socket.newRenoFastRecovery
  dsimp only
  split
  · exact ⟨rfl, rfl, rfl, rfl, rfl⟩
  · refine ⟨(resendSegmentWithoutTimeout_snd ..).trans rfl, ?_⟩
    exact (SameCount.increaseCwnd (s.tcb.withDups 0) _).resend s _

/-- A handler whose duplicates enter at the third one, and which otherwise clears the count in fast
recovery only. -/
theorem ackResult_of {dupResult recovered opened : Option (Socket σ × Bool)}
    (hdup : dupResult = some (s', isEntered) →
      SameCount (s.tcb.withDups (s.tcb.congestion.dupAckCount + 1)) s'.tcb ∧
        (isEntered = true → s.tcb.congestion.dupAckCount + 1 = tcpDupThresh))
    (hrecovered : recovered = some (s', isEntered) → isEntered = false ∧ s'.tcb.snd = s.tcb.snd ∧
      SameCount (s.tcb.withDups 0) s'.tcb)
    (hopened : opened = some (s', isEntered) → isEntered = false ∧ s'.tcb.snd = s.tcb.snd ∧
      SameCount s.tcb s'.tcb)
    (h : (if s.tcb.isDupAck then dupResult
      else if s.tcb.congestion.isFastRecovery then recovered else opened) = some (s', isEntered)) :
    AckResult s.tcb s'.tcb isEntered := by
  refine ⟨fun hd => ?_, fun hd => ?_⟩
  · rw [hd, if_pos rfl] at h
    exact hdup h
  · rw [hd, if_neg Bool.false_ne_true] at h
    cases hrecovery : s.tcb.congestion.isFastRecovery with
    | true =>
      rw [hrecovery, if_pos rfl] at h
      exact hrecovered h
    | false =>
      rw [hrecovery, if_neg Bool.false_ne_true] at h
      exact hopened h

/-- The three variants with fast recovery. -/
theorem ackReceived_spec (hvariant : s.tcb.variant.isFastRecovery = true)
    (h : s.ackReceived lib now rounds = some (s', isEntered)) : AckResult s.tcb s'.tcb isEntered := by
  have hfast : EntersAtThird (Socket.fastRetransmit lib now rounds) :=
    fastRetransmit_entersAtThird lib now
  have hbic : EntersAtThird (Socket.bictcpFastretransmit lib now rounds) :=
    bictcpFastretransmit_entersAtThird lib now
  have hset : ∀ {t : Tcb}, some ({ s with tcb := t }, false) = some (s', isEntered) →
      isEntered = false ∧ s'.tcb = t := by
    intro t ht
    obtain ⟨rfl, rfl⟩ := Prod.mk.inj (Option.some.inj ht)
    exact ⟨rfl, rfl⟩
  have hrecovery : some ({ s with tcb := s.tcb.fastRecovery }, false) = some (s', isEntered) →
      isEntered = false ∧ s'.tcb.snd = s.tcb.snd ∧ SameCount (s.tcb.withDups 0) s'.tcb := by
    intro ht
    obtain ⟨he, ht⟩ := hset ht
    rw [ht]
    exact ⟨he, rfl, rfl, rfl, rfl, rfl⟩
  have hopen : some ({ s with tcb := s.tcb.openWindow now }, false) = some (s', isEntered) →
      isEntered = false ∧ s'.tcb.snd = s.tcb.snd ∧ SameCount s.tcb s'.tcb := by
    intro ht
    obtain ⟨he, ht⟩ := hset ht
    rw [ht]
    exact ⟨he, openWindow_snd now s.tcb, .openWindow s.tcb now⟩
  unfold Socket.ackReceived at h
  cases hv : s.tcb.variant with
  | oldTahoe | tahoe =>
    rw [hv] at hvariant
    cases hvariant
  | reno =>
    rw [hv] at h
    exact ackResult_of (dupAckReceived_spec hfast hfast) hrecovery hopen h
  | newReno =>
    rw [hv] at h
    refine ackResult_of (dupAckReceived_spec hfast (newReno_third_entersAtThird lib now)) ?_ hopen h
    intro ht
    obtain ⟨rfl, rfl⟩ := Prod.mk.inj (Option.some.inj ht)
    exact ⟨rfl, newRenoFastRecovery_spec s⟩
  | bic =>
    rw [hv] at h
    refine ackResult_of (dupAckReceived_spec hbic hbic) hrecovery ?_ h
    intro ht
    obtain ⟨he, ht⟩ := hset ht
    rw [ht]
    exact ⟨he, bictcpCongAvoid_snd now s.tcb _, .bictcpCongAvoid s.tcb now _⟩

end Handlers

/-! ## An acknowledgement that arrives -/

section Arrival

variable {t t' : Tcb} {s s' : Socket σ} {p : Packet} {isEntered : Bool}

/-- The send variables and those of congestion control are the same. -/
structure SameSender (t t' : Tcb) : Prop where
  variant : t'.variant = t.variant
  snd : t'.snd = t.snd
  seg : t'.seg = t.seg
  congestion : t'.congestion = t.congestion

theorem SameSender.trans {t'' : Tcb} (h : SameSender t t') (h' : SameSender t' t'') :
    SameSender t t'' :=
  ⟨h'.variant.trans h.variant, h'.snd.trans h.snd, h'.seg.trans h.seg,
    h'.congestion.trans h.congestion⟩

theorem updateScoreboard_sameSender (t : Tcb) (left right : UInt32) (i : ℕ) :
    SameSender t (t.updateScoreboard left right i) := by
  unfold Tcb.updateScoreboard
  dsimp only
  split <;> exact ⟨rfl, rfl, rfl, rfl⟩

theorem receiveBlocks_sameSender (blocks : List SackData) (t : Tcb) (i : ℕ) :
    SameSender t (t.receiveBlocks blocks i) := by
  induction blocks generalizing t i with
  | nil => exact ⟨rfl, rfl, rfl, rfl⟩
  | cons b blocks ih =>
    have hflag : SameSender t (t.updateSackFlag b.leftEdge b.rightEdge) := ⟨rfl, rfl, rfl, rfl⟩
    exact (hflag.trans (updateScoreboard_sameSender ..)).trans (ih _ _)

theorem clearScoreboard_sameSender (t : Tcb) (i : ℕ) : SameSender t (t.clearScoreboard i) := by
  have hfold : ∀ (l : List ℕ) (t : Tcb),
      SameSender t (l.foldl (fun t i => t.updateScoreboard 0 0 i) t) := by
    intro l
    induction l with
    | nil => exact fun t => ⟨rfl, rfl, rfl, rfl⟩
    | cons i l ih => exact fun t => (updateScoreboard_sameSender t 0 0 i).trans (ih _)
  exact hfold _ t

/-- `receive_sack_option` leaves them alone. -/
theorem receiveSackOption_sameSender (t : Tcb) (hdr : SegmentHdr) :
    SameSender t (t.receiveSackOption hdr) := by
  unfold Tcb.receiveSackOption
  dsimp only
  split
  · exact ⟨rfl, rfl, rfl, rfl⟩
  · split
    · exact ⟨rfl, rfl, rfl, rfl⟩
    · exact ⟨rfl, rfl, rfl, rfl⟩
    · have hset : SameSender t { t with isSackOption := true } := ⟨rfl, rfl, rfl, rfl⟩
      exact (hset.trans (receiveBlocks_sameSender ..)).trans (clearScoreboard_sameSender ..)

/-- **What an accepted acknowledgement does** to the count and to `SND.UNA`; `t` is the control block
when it has arrived. -/
structure AckEffect (t t' : Tcb) (isEntered : Bool) : Prop where
  variant : t'.variant = t.variant
  dup : t.isDupAck = true → t'.snd.una = t.snd.una ∧
    t'.congestion.dupAckCount = t.congestion.dupAckCount + 1 ∧
    (isEntered = true → t.congestion.dupAckCount + 1 = tcpDupThresh)
  other : t.isDupAck = false → isEntered = false ∧
    t'.congestion.dupAckCount = (if t.congestion.isFastRecovery then 0 else t.congestion.dupAckCount) ∧
    t'.snd.una = if t.seg.ack ≤ t.snd.nxt then t.seg.ack else t.snd.una

theorem AckEffect.trans {t'' : Tcb} (h : AckEffect t t' isEntered) (h' : SameCount t' t'') :
    AckEffect t t'' isEntered where
  variant := h'.variant.trans h.variant
  dup hd := ⟨h'.una.trans (h.dup hd).1, h'.dupAckCount.trans (h.dup hd).2.1, (h.dup hd).2.2⟩
  other hd := ⟨(h.other hd).1, h'.dupAckCount.trans (h.other hd).2.1, h'.una.trans (h.other hd).2.2⟩

/-- The comparisons behind the handler only move `SND.UNA`. -/
theorem AckResult.acknowledge (h : AckResult t t' isEntered) :
    AckEffect t t'.acknowledge isEntered := by
  have hcount : t'.acknowledge.variant = t'.variant ∧
      t'.acknowledge.congestion = t'.congestion := by
    unfold Tcb.acknowledge
    split <;> exact ⟨rfl, rfl⟩
  cases hd : t.isDupAck with
  | true =>
    obtain ⟨hsame, hthird⟩ := h.dup hd
    have hold : t'.seg.ack ≤ t'.snd.una := by
      rw [hsame.seg, hsame.una]
      exact of_decide_eq_true hd
    have hbranch : t'.ackBranch = .duplicate := by
      unfold Tcb.ackBranch
      rw [if_neg fun hnew => UInt32.not_le.2 hnew.1 hold, if_pos hold]
    have hack : t'.acknowledge = t' := by
      unfold Tcb.acknowledge
      rw [hbranch]
    rw [hack]
    exact ⟨hsame.variant, fun _ => ⟨hsame.una, hsame.dupAckCount, hthird⟩,
      fun hd' => absurd (hd.symm.trans hd') Bool.noConfusion⟩
  | false =>
    obtain ⟨hnone, hsnd, hsame⟩ := h.other hd
    have hseg : t'.seg = t.seg := hsame.seg
    have hnew : t'.snd.una < t'.seg.ack := by
      rw [hsnd, hseg]
      exact UInt32.not_le.1 (of_decide_eq_false hd)
    refine ⟨hcount.1.trans hsame.variant, fun hd' => absurd (hd.symm.trans hd') Bool.noConfusion,
      fun _ => ⟨hnone, (congrArg (·.dupAckCount) hcount.2).trans hsame.dupAckCount, ?_⟩⟩
    rw [← hseg, ← hsnd]
    unfold Tcb.acknowledge Tcb.ackBranch
    by_cases hsent : t'.seg.ack ≤ t'.snd.nxt
    · rw [if_pos ⟨hnew, hsent⟩, if_pos hsent]
      dsimp only
      unfold Tcb.ackSnd
      split <;> rfl
    · rw [if_neg fun hboth => hsent hboth.2, if_neg (UInt32.not_le.2 hnew), if_neg hsent]

/-- The effect depends on the send variables and those of congestion control only. -/
theorem AckEffect.of_sameSender {t₁ : Tcb} (h : AckEffect t₁ t' isEntered) (hsame : SameSender t t₁) :
    AckEffect t t' isEntered := by
  have hdup : t₁.isDupAck = t.isDupAck := by
    unfold Tcb.isDupAck
    rw [hsame.seg, hsame.snd]
  obtain ⟨hvariant, hold, hother⟩ := h
  rw [hdup, hsame.snd, hsame.congestion] at hold
  rw [hdup, hsame.snd, hsame.congestion, hsame.seg] at hother
  exact ⟨hvariant.trans hsame.variant, hold, hother⟩

theorem processAck_effect {goesOn : Bool} {hdr : SegmentHdr}
    (hvariant : s.tcb.variant.isFastRecovery = true)
    (h : s.processAckInEstablishedState lib now rounds hdr = some (s', isEntered, goesOn)) :
    AckEffect s.tcb s'.tcb isEntered := by
  have hsame := receiveSackOption_sameSender s.tcb hdr
  unfold Socket.processAckInEstablishedState at h
  obtain ⟨⟨s₁, e⟩, hack, h⟩ := Option.bind_eq_some_iff.1 h
  have hhandled : ({ s with tcb := s.tcb.receiveSackOption hdr } : Socket σ).tcb.variant.isFastRecovery =
      true := by
    rw [← hvariant]
    exact congrArg _ hsame.variant
  have heffect := (ackReceived_spec lib now hhandled hack).acknowledge.of_sameSender hsame
  dsimp only at h
  -- the branches differ in what is sent and in whether the processing goes on
  split at h <;> obtain ⟨rfl, rfl, -⟩ := by simpa only [Option.pure_def, Option.some.injEq, Prod.mk.injEq] using h
  all_goals exact heffect

theorem processAckPacket_effect {hdr : SegmentHdr} (hvariant : s.tcb.variant.isFastRecovery = true)
    (h : s.processAckPacket lib now rounds hdr = some (s', isEntered)) :
    AckEffect s.tcb s'.tcb isEntered := by
  unfold Socket.processAckPacket at h
  obtain ⟨⟨s₁, e, goesOn⟩, hack, h⟩ := Option.bind_eq_some_iff.1 h
  obtain ⟨rfl, rfl⟩ := Prod.mk.inj (Option.some.inj h)
  have heffect := processAck_effect lib now hvariant hack
  have hsend : SameCount s₁.tcb (if goesOn then s₁.sendSegment lib now else s₁).tcb := by
    split
    · exact .sendSegment lib now s₁
    · exact .refl _
  have hstate : ∀ t : Tcb, SameCount t (if hdr.fin ∧ s.tcb.tcpState = .finWait1 then
      t.changeState .finWait2
    else if hdr.fin ∧ s.tcb.tcpState = .closing then t.changeState .timeWait else t) := by
    intro t
    split
    · exact .changeState ..
    · split
      · exact .changeState ..
      · exact .refl t
  exact heffect.trans (hsend.trans (hstate _))

end Arrival

/-! ## Runs -/

/-- A sender, with the duplicates that have arrived since `SND.UNA` was last advanced, and whether the
last event was an acknowledgement that entered fast retransmit. -/
structure SenderRun (σ : Type) where
  socket : Socket σ
  dups : ℕ
  isEntered : Bool

/-- What happens to a sender: an acknowledgement arrives, the retransmission timer expires, or the
application puts packets into the interface. The loops of an acknowledgement get a number of
rounds. -/
inductive SenderEvent (σ : Type)
  | ack (p : Packet) (now : ℚ) (rounds : ℕ)
  | timeout (now : ℚ)
  | app (sId : σ) (now : ℚ)

namespace SenderRun

/-- A synchronised connection that still takes acknowledgements. -/
def takesAcks : TcpConnectionState → Bool
  | .established | .finWait1 | .finWait2 | .closeWait | .closing => true
  | .closed | .listen | .synSent | .synReceived | .lastAck | .timeWait => false

/-- The control block when an acknowledgement has arrived. -/
def arrived (s : SenderRun σ) (p : Packet) : Tcb := s.socket.tcb.updateSeqNumOnReceiving p

/-- The number of duplicates after an acknowledgement that leaves the given `SND.UNA`. -/
def countDups (s : SenderRun σ) (p : Packet) (una : UInt32) : ℕ :=
  if una ≠ s.socket.tcb.snd.una then 0
  else if (s.arrived p).validateSegment && (s.arrived p).isDupAck then s.dups + 1
  else s.dups

/-- An acknowledgement whose loops need more rounds has no result. -/
def step (lib : SocketLib σ) (s : SenderRun σ) : SenderEvent σ → Option (SenderRun σ)
  | .ack p now rounds =>
    if takesAcks s.socket.tcb.tcpState then
      (s.socket.ackArrives lib now rounds p).map fun r =>
        ⟨r.1, s.countDups p r.1.tcb.snd.una, r.2⟩
    else none
  | .timeout now => some ⟨s.socket.handleRtoTimer now, s.dups, false⟩
  | .app sId now =>
    some ⟨{ s.socket with sId := sId }.packetArriveFromApplicationLayer lib now, s.dups, false⟩

/-- A sender with fast recovery that has not seen a duplicate. -/
def Initial (s : SenderRun σ) : Prop :=
  s.socket.tcb.variant.isFastRecovery = true ∧ s.socket.tcb.congestion.dupAckCount = 0 ∧
    s.socket.tcb.congestion.isFastRecovery = false ∧ s.dups = 0 ∧ s.isEntered = false

def machine (lib : SocketLib σ) : Machine (SenderRun σ) (SenderEvent σ) := ⟨Initial, step lib⟩

/-- The count of duplicates does not wrap; new data is acknowledged in fast recovery, or else before any
duplicate; and in fast recovery nothing is acknowledged that has not been sent, or else before any
duplicate. -/
def Proper (s : SenderRun σ) : SenderEvent σ → Prop
  | .ack p _ _ => (s.arrived p).validateSegment = true →
      if (s.arrived p).isDupAck then s.socket.tcb.congestion.dupAckCount ≠ 4294967295
      else if p.hdr.ackNum ≤ s.socket.tcb.snd.nxt then
        s.socket.tcb.congestion.isFastRecovery = true ∨ s.socket.tcb.congestion.dupAckCount = 0
      else s.socket.tcb.congestion.isFastRecovery = false ∨ s.socket.tcb.congestion.dupAckCount = 0
  | .timeout _ | .app _ _ => True

instance (s : SenderRun σ) (e : SenderEvent σ) : Decidable (Proper s e) :=
  match e with
  | .ack _ _ _ => by
    unfold Proper
    infer_instance
  | .timeout _ | .app _ _ => inferInstanceAs (Decidable True)

/-- The code counts the duplicates of the current `SND.UNA`. -/
structure Counted (s : SenderRun σ) : Prop where
  variant : s.socket.tcb.variant.isFastRecovery = true
  dups : s.socket.tcb.congestion.dupAckCount.toNat = s.dups
  third : s.isEntered = true → s.dups = 3

/-- A step that leaves the count alone. -/
theorem Counted.of_sameCount {s : SenderRun σ} (h : s.Counted) {socket : Socket σ}
    (hsame : SameCount s.socket.tcb socket.tcb) : Counted ⟨socket, s.dups, false⟩ where
  variant := (congrArg _ hsame.variant).trans h.variant
  dups := (congrArg _ hsame.dupAckCount).trans h.dups
  third := nofun

section Ack

variable {s : SenderRun σ} {p : Packet} {socket : Socket σ} {isEntered : Bool}

/-- A duplicate is counted by both. -/
theorem Counted.duplicate (h : s.Counted) (heffect : AckEffect (s.arrived p) socket.tcb isEntered)
    (hd : (s.arrived p).isDupAck = true)
    (hne : s.socket.tcb.congestion.dupAckCount ≠ 4294967295) :
    socket.tcb.snd.una = s.socket.tcb.snd.una ∧ Counted ⟨socket, s.dups + 1, isEntered⟩ := by
  obtain ⟨huna, hdups, hthird⟩ := heffect.dup hd
  have hcount : socket.tcb.congestion.dupAckCount.toNat = s.dups + 1 := by
    have hlt := s.socket.tcb.congestion.dupAckCount.toNat_lt
    have hmax : s.socket.tcb.congestion.dupAckCount.toNat ≠ 4294967295 :=
      fun heq => hne (UInt32.toNat_inj.1 heq)
    have hsum : socket.tcb.congestion.dupAckCount = s.socket.tcb.congestion.dupAckCount + 1 := hdups
    have hone : (1 : UInt32).toNat = 1 := rfl
    rw [hsum, ← h.dups, UInt32.toNat_add, hone]
    exact Nat.mod_eq_of_lt (by omega)
  refine ⟨huna, (congrArg _ heffect.variant).trans h.variant, hcount, fun he => ?_⟩
  have heq : socket.tcb.congestion.dupAckCount = tcpDupThresh := hdups.trans (hthird he)
  rw [heq] at hcount
  exact hcount.symm

/-- Any other acknowledgement: the count is cleared in fast recovery, and `SND.UNA` advances if the data
has been sent. -/
theorem Counted.other (h : s.Counted) (heffect : AckEffect (s.arrived p) socket.tcb isEntered)
    (hd : (s.arrived p).isDupAck = false) {n : ℕ}
    (hn : (if s.socket.tcb.congestion.isFastRecovery then 0
      else s.socket.tcb.congestion.dupAckCount).toNat = n) : Counted ⟨socket, n, isEntered⟩ := by
  obtain ⟨hnone, hdups, -⟩ := heffect.other hd
  exact ⟨(congrArg _ heffect.variant).trans h.variant, (congrArg _ hdups).trans hn,
    fun he => absurd (hnone.symm.trans he) Bool.false_ne_true⟩

theorem Counted.ack (h : s.Counted) {rounds : ℕ} (hok : s.Proper (.ack p now rounds))
    (hack : s.socket.ackArrives lib now rounds p = some (socket, isEntered)) :
    Counted ⟨socket, s.countDups p socket.tcb.snd.una, isEntered⟩ := by
  have hcases : (if (s.arrived p).validateSegment then
      { s.socket with tcb := s.arrived p }.processAckPacket lib now rounds p.hdr
    else some ({ s.socket with tcb := s.arrived p }.sendAck s.socket.tcb.snd.nxt s.socket.tcb.rcv.nxt,
      false)) = some (socket, isEntered) := hack
  unfold countDups
  cases hvalid : (s.arrived p).validateSegment with
  | false =>
    -- the segment is not acceptable
    rw [hvalid, if_neg Bool.false_ne_true] at hcases
    obtain ⟨rfl, rfl⟩ := Prod.mk.inj (Option.some.inj hcases)
    have huna : ({ s.socket with tcb := s.arrived p } : Socket σ).tcb.snd.una = s.socket.tcb.snd.una :=
      rfl
    have hcount : (if s.socket.tcb.snd.una ≠ s.socket.tcb.snd.una then 0
        else if (false && (s.arrived p).isDupAck) = true then s.dups + 1 else s.dups) = s.dups := by
      rw [if_neg (not_not.2 rfl), Bool.false_and, if_neg Bool.false_ne_true]
    exact ⟨h.variant, h.dups.trans hcount.symm, nofun⟩
  | true =>
    rw [hvalid, if_pos rfl] at hcases
    have heffect : AckEffect (s.arrived p) socket.tcb isEntered :=
      processAckPacket_effect (s := { s.socket with tcb := s.arrived p }) lib now h.variant hcases
    have hproper := hok hvalid
    cases hd : (s.arrived p).isDupAck with
    | true =>
      rw [hd, if_pos rfl] at hproper
      obtain ⟨huna, hcounted⟩ := h.duplicate heffect hd hproper
      rw [if_neg (not_not.2 huna), Bool.true_and, if_pos rfl]
      exact hcounted
    | false =>
      have huna : socket.tcb.snd.una =
        if p.hdr.ackNum ≤ s.socket.tcb.snd.nxt then p.hdr.ackNum else s.socket.tcb.snd.una :=
        (heffect.other hd).2.2
      have hgt : s.socket.tcb.snd.una ≠ p.hdr.ackNum :=
        UInt32.ne_of_lt (UInt32.not_le.1 (of_decide_eq_false hd))
      rw [hd, if_neg Bool.false_ne_true] at hproper
      by_cases hsent : p.hdr.ackNum ≤ s.socket.tcb.snd.nxt
      · -- `SND.UNA` advances
        rw [if_pos hsent] at hproper huna
        rw [if_pos (huna ▸ hgt.symm)]
        refine h.other heffect hd ?_
        rcases hproper with hrecovery | hzero
        · rw [hrecovery, if_pos rfl]
          rfl
        · rw [hzero, ite_self]
          rfl
      · rw [if_neg hsent] at hproper huna
        rw [if_neg (not_not.2 huna), Bool.and_false, if_neg Bool.false_ne_true]
        refine h.other heffect hd ?_
        rw [← h.dups]
        rcases hproper with hrecovery | hzero
        · rw [hrecovery, if_neg Bool.false_ne_true]
        · rw [hzero, ite_self]

end Ack

theorem step_counted {s s' : SenderRun σ} {e : SenderEvent σ} (h : s.Counted) (hok : Proper s e)
    (hs : step lib s e = some s') : s'.Counted := by
  cases e with
  | ack p now rounds =>
    unfold step at hs
    dsimp only at hs
    split at hs
    · obtain ⟨⟨socket, isEntered⟩, hack, rfl⟩ := Option.map_eq_some_iff.1 hs
      exact h.ack lib now hok hack
    · cases hs
  | timeout now =>
    obtain rfl := Option.some.inj hs
    exact h.of_sameCount (.handleRtoTimer now s.socket)
  | app sId now =>
    obtain rfl := Option.some.inj hs
    refine h.of_sameCount ?_
    unfold Socket.packetArriveFromApplicationLayer
    split
    · exact .sendSegment lib now { s.socket with sId := sId }
    · exact .refl _

/-- **Fast retransmit is entered by the third duplicate** for the current `SND.UNA`, in every run of a
sender with Reno, NewReno or BIC whose acknowledgements of new data outside fast recovery find no
duplicate counted. -/
theorem entered_third (lib : SocketLib σ) {s : SenderRun σ} (h : (machine lib).ReachOn Proper s) :
    s.isEntered = true → s.dups = 3 := by
  have hcounted : s.Counted := by
    refine h.inv ?_ fun s e s' hi hok hs => step_counted lib hi hok hs
    rintro s ⟨hvariant, hzero, -, hdups, hnone⟩
    refine ⟨hvariant, ?_, fun he => absurd (hnone.symm.trans he) Bool.false_ne_true⟩
    rw [hzero, hdups]
    rfl
  exact hcounted.third

/-! ### A Reno sender -/

/-- An established Reno sender with two segments of 100 octets in flight, from 1 and from 101 on. -/
def reno : SenderRun (List AppPacket) where
  socket :=
    { tcb := { Tcb.calloc .reno with
        tcpState := .established
        snd := ⟨1, 201, 65535, 0, 0⟩
        rcv := ⟨1, 65535⟩
        congestion.smss := 100
        congestion.cwnd := 1000
        congestion.ssthresh := 65535 }
      sId := []
      waitFromApp := false
      isAppClose := false
      network := []
      application := [] }
  dups := 0
  isEntered := false

theorem reno_init : (machine SocketLib.list).init reno := ⟨rfl, rfl, rfl, rfl, rfl⟩

/-- An acknowledgement with the given number arrives. -/
def renoAck (ackNum : UInt32) : SenderEvent (List AppPacket) :=
  .ack ⟨⟨1, ackNum, 20, false, false, false, true, 65535, none⟩, 0, 20, none⟩ 0 8

/-- Three duplicates of the first `SND.UNA`. -/
theorem entered_third_run :
    ∃ s, (machine SocketLib.list).ReachOn Proper s ∧ s.isEntered = true ∧ s.dups = 3 := by
  obtain ⟨s, hs, hentered⟩ := Machine.ReachOn.exists_of_execOn (P := fun s => s.isEntered = true)
    Proper [renoAck 1, renoAck 1, renoAck 1] (.init reno_init) (by decide)
  exact ⟨s, hs, hentered, entered_third SocketLib.list hs hentered⟩

/-- Two duplicates, an acknowledgement of the first segment, and one duplicate of it. -/
theorem entered_at_first : ¬ ∀ s, (machine SocketLib.list).Reach s → s.isEntered = true → s.dups = 3 := by
  intro hall
  obtain ⟨s, hs, hentered, hdups⟩ :=
    Machine.Reach.exists_of_exec (P := fun s => s.isEntered = true ∧ s.dups = 1)
      [renoAck 1, renoAck 1, renoAck 101, renoAck 101] (.init reno_init) (by decide)
  exact absurd ((hall s hs hentered).symm.trans hdups) (by decide)

end SenderRun

end NetSim.Tcp
