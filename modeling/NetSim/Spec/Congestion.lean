import NetSim.Spec.Sack

/-!
# Congestion control

`Congestion.c`: what the algorithms do with an acknowledgement, and with a timeout. A handler has
no result if the SACK loops that it calls need more rounds than given. Besides the socket, it tells
whether fast retransmit was entered, that is whether the branch of the third duplicate was taken.
-/

namespace NetSim.Tcp

variable {σ : Type}

/-- `BICTCP_B`. -/
def bictcpB : UInt32 := 4

/-- `ACK_RATIO_SHIFT`. -/
def ackRatioShift : UInt32 := 4

/-- A double converted to an unsigned word. -/
def truncate (x : ℚ) : UInt32 := UInt32.ofNat x.floor.toNat

/-- `isFastRecovery`, of the variant. -/
def TcpVariant.isFastRecovery : TcpVariant → Bool
  | .reno | .newReno | .bic => true
  | .oldTahoe | .tahoe => false

namespace Tcb

/-- `set_ssthres`. -/
def setSsthres (t : Tcb) (newssthres : UInt32) : Tcb :=
  { t with congestion.ssthresh :=
      if t.isWindowScaling then (newssthres >>> t.windShift.toUInt32).toUInt16
      else newssthres.toUInt16 }

/-- `get_ssthres`. -/
def getSsthres (t : Tcb) : UInt32 :=
  if t.isWindowScaling then t.congestion.ssthresh.toUInt32 <<< t.windShift.toUInt32
  else t.congestion.ssthresh.toUInt32

/-- `set_cwnd`. -/
def setCwnd (t : Tcb) (newcwnd : UInt32) : Tcb :=
  { t with congestion.cwnd :=
      if t.isWindowScaling then
        let cwnd := (newcwnd >>> t.windShift.toUInt32).toUInt16
        if cwnd = 0 then 1 else cwnd
      else newcwnd.toUInt16 }

/-- `get_cwnd`. -/
def getCwnd (t : Tcb) : UInt32 :=
  if t.isWindowScaling then t.congestion.cwnd.toUInt32 <<< t.windShift.toUInt32
  else t.congestion.cwnd.toUInt32

/-- `tcp_in_slow_start`. -/
def inSlowStart (t : Tcb) : Prop := t.getCwnd ≤ t.getSsthres

instance (t : Tcb) : Decidable t.inSlowStart := inferInstanceAs (Decidable (_ ≤ _))

/-- `increase_cwnd`. -/
def increaseCwnd (t : Tcb) (increase : UInt16) : Tcb :=
  let cwnd :=
    if t.isWindowScaling then (t.windowScaleGetCwnd + increase.toUInt32) >>> t.windShift.toUInt32
    else t.congestion.cwnd.toUInt32 + increase.toUInt32
  { t with congestion.cwnd := if cwnd ≥ 65535 then 65535 else cwnd.toUInt16 }

/-- `isDupAck`. -/
def isDupAck (t : Tcb) : Bool := t.seg.ack ≤ t.snd.una

/-- `isFullAck`. -/
def isFullAck (t : Tcb) : Bool := t.seg.ack ≥ t.congestion.recover

/-- The flight size, as a 16-bit word. -/
def flightSize (t : Tcb) : UInt16 := (t.snd.nxt - t.snd.una).toUInt16

/-- `slowStart`. -/
def slowStart (t : Tcb) : Tcb :=
  let n := (t.seg.ack - t.snd.una).toUInt16
  t.increaseCwnd (min n t.congestion.smss)

/-- `CongestionAvoidance`. -/
def congestionAvoidance (t : Tcb) (now : ℚ) : Tcb :=
  let rtt := t.retransmissionQueue.getRtt now t.seg.ack
  if t.congestion.lastWinUpdateTime + rtt < now then
    let t := { t with congestion.lastWinUpdateTime := now }
    let n := (t.seg.ack - t.snd.una).toUInt16
    t.increaseCwnd (min n t.congestion.smss)
  else t

/-- The window is opened by one of the two modes. -/
def openWindow (t : Tcb) (now : ℚ) : Tcb :=
  if t.getCwnd ≤ t.getSsthres then t.slowStart else t.congestionAvoidance now

/-- `FastRecovery`. -/
def fastRecovery (t : Tcb) : Tcb :=
  let t := { t with congestion.isFastRecovery := false, congestion.dupAckCount := 0 }
  t.setCwnd t.getSsthres

/-- The threshold that `FastRetransmit` sets, and `congestion_rto_timeout`. -/
def halfFlight (t : Tcb) : UInt32 :=
  max (t.flightSize.toUInt32 / 2) (2 * t.congestion.smss.toUInt32)

/-- `congestion_rto_timeout`. -/
def rtoTimeout (t : Tcb) : Tcb :=
  let t := (t.setSsthres t.halfFlight).setCwnd t.congestion.lw.toUInt32
  if t.variant = .newReno then
    { t with congestion.recover := t.snd.nxt, congestion.isFastRecovery := false }
  else t

/-! ## BIC -/

/-- `bictcp_recalc_ssthresh`. -/
def bictcpRecalcSsthresh (t : Tcb) : Tcb × UInt32 :=
  let ca := t.congestion.bic
  let segCwnd := t.getCwnd / t.getMss.toUInt32
  let lastMaxCwnd :=
    if segCwnd < ca.lastMaxCwnd ∧ ca.fastConvergence then truncate (segCwnd.toNat * ca.beta)
    else segCwnd
  let t := { t with congestion.bic :=
    { ca with epochStart := 0, lastMaxCwnd := lastMaxCwnd, lossCwnd := segCwnd } }
  if segCwnd ≤ ca.lowWindow then (t, max (2 * t.getMss.toUInt32) (t.flightSize.toUInt32 / 2))
  else (t, truncate (max (segCwnd.toNat * ca.beta) 2 * t.getMss.toNat))

/-- The counter `cnt` that `bictcp_update` computes above the low window. -/
def bictcpCnt (ca : Bic) (cwnd : UInt32) : UInt32 :=
  let cnt :=
    if cwnd < ca.lastMaxCwnd then
      let dist := (ca.lastMaxCwnd - cwnd) / bictcpB
      if dist > ca.maxIncrement then cwnd / ca.maxIncrement
      else if dist ≤ 1 then cwnd * ca.smoothPart / bictcpB
      else cwnd / dist
    else if cwnd < ca.lastMaxCwnd + bictcpB then cwnd * ca.smoothPart / bictcpB
    else if cwnd < ca.lastMaxCwnd + ca.maxIncrement * (bictcpB - 1) then
      cwnd * (bictcpB - 1) / (cwnd - ca.lastMaxCwnd)
    else cwnd / ca.maxIncrement
  let cnt := if ca.lastMaxCwnd = 0 ∧ cnt > 20 then 20 else cnt
  let cnt := (cnt <<< ackRatioShift) / ca.delayedAck
  if cnt = 0 then 1 else cnt

/-- `bictcp_update`. -/
def bictcpUpdate (t : Tcb) (now : ℚ) : Tcb :=
  let cwnd := t.getCwnd / t.getMss.toUInt32
  let ca := t.congestion.bic
  let epochStart := if ca.epochStart = 0 then truncate now else ca.epochStart
  let ca := { ca with lastCwnd := cwnd, lastTime := truncate now, epochStart := epochStart }
  let cnt := if cwnd ≤ ca.lowWindow then cwnd else bictcpCnt ca cwnd
  { t with congestion.bic := { ca with cnt := cnt } }

/-- `bictcp_cong_avoid`. `bictcp_acked`, which is called in front of it, changes a copy of the BIC
variables only. -/
def bictcpCongAvoid (t : Tcb) (now : ℚ) (segmentAcked : UInt32) : Tcb :=
  let (t, segmentAcked) :=
    if t.inSlowStart then (t.slowStart, segmentAcked - 1) else (t, segmentAcked)
  if ¬ t.inSlowStart ∧ segmentAcked > 0 then
    let t := { t with congestion.bic.cwndcnt := t.congestion.bic.cwndcnt + segmentAcked }
    let t := t.bictcpUpdate now
    if t.congestion.bic.cwndcnt > t.congestion.bic.cnt then
      let t := t.increaseCwnd t.congestion.smss
      { t with congestion.bic.cwndcnt := 0 }
    else t
  else t

end Tcb

namespace Socket

/-- What the third duplicate does first: the threshold and the window are set and the lost segment is
resent. -/
def enterFastRetransmit (ssthresh : Tcb → Tcb × UInt32) (s : Socket σ) : Socket σ :=
  let t := (ssthresh s.tcb).1.setSsthres (ssthresh s.tcb).2
  let t := t.setCwnd (t.getSsthres + tcpDupThresh * t.congestion.smss.toUInt32)
  let s := { s with tcb := t }.resendSegmentWithoutTimeout t.seg.ack
  { s with tcb := { s.tcb with congestion.isFastRecovery := s.tcb.variant.isFastRecovery } }

/-- The body that `FastRetransmit` and `bictcp_fastretransmit` share, given the threshold that is
set. -/
def fastRetransmitWith (lib : SocketLib σ) (now : ℚ) (rounds : ℕ) (ssthresh : Tcb → Tcb × UInt32)
    (s : Socket σ) : Option (Socket σ × Bool) :=
  if s.tcb.congestion.dupAckCount = tcpDupThresh then
    let s := s.enterFastRetransmit ssthresh
    if s.tcb.isSackOption then do
      let s ← s.sackFastRetransmit rounds
      return ({ s with tcb := { s.tcb with congestion.isLossRecoveryPhase := true } }, true)
    else some (s, true)
  else
    let s := { s with tcb := s.tcb.increaseCwnd s.tcb.congestion.smss }
    if s.tcb.isSackOption && s.tcb.congestion.isLossRecoveryPhase then do
      let (phase, s) ← s.lossRecoveryPhase lib now rounds
      return ({ s with tcb := { s.tcb with congestion.isLossRecoveryPhase := phase } }, false)
    else some (s, false)

/-- `FastRetransmit`. -/
def fastRetransmit (lib : SocketLib σ) (now : ℚ) (rounds : ℕ) :
    Socket σ → Option (Socket σ × Bool) :=
  fastRetransmitWith lib now rounds fun t => (t, t.halfFlight)

/-- `bictcp_fastretransmit`. -/
def bictcpFastretransmit (lib : SocketLib σ) (now : ℚ) (rounds : ℕ) :
    Socket σ → Option (Socket σ × Bool) :=
  fastRetransmitWith lib now rounds fun t =>
    (t.bictcpRecalcSsthresh.1, t.bictcpRecalcSsthresh.2.toUInt16.toUInt32)

/-- `newReno_FastRecovery`. -/
def newRenoFastRecovery (s : Socket σ) : Socket σ :=
  let t := { s.tcb with congestion.dupAckCount := 0 }
  if t.isFullAck then
    let t := t.setCwnd (min t.getSsthres.toUInt16.toUInt32
      ((max t.flightSize t.congestion.smss).toUInt32 + t.congestion.smss.toUInt32))
    { s with tcb := { t with congestion.isFastRecovery := false } }
  else
    let t := t.increaseCwnd (t.seg.ack - t.congestion.recover).toUInt16
    { s with tcb := t }.resendSegmentWithoutTimeout t.seg.ack

/-- What the handlers do with a duplicate: `retransmit` is what follows before the third one if SACK
says that a segment is lost, `third` what follows from the third one on. -/
def dupAckReceived (retransmit third : Socket σ → Option (Socket σ × Bool)) (s : Socket σ) :
    Option (Socket σ × Bool) :=
  let s := { s with
    tcb := { s.tcb with congestion.dupAckCount := s.tcb.congestion.dupAckCount + 1 } }
  if s.tcb.congestion.dupAckCount < tcpDupThresh then
    if s.tcb.isSackOption && s.tcb.isLost (s.tcb.snd.una + 1) then retransmit s else some (s, false)
  else third s

/-- `oldtahoe_ack_received`. -/
def oldtahoeAckReceived (now : ℚ) (s : Socket σ) : Option (Socket σ × Bool) :=
  some ({ s with tcb := s.tcb.openWindow now }, false)

/-- `tahoe_ack_received`. -/
def tahoeAckReceived (lib : SocketLib σ) (now : ℚ) (rounds : ℕ) (s : Socket σ) :
    Option (Socket σ × Bool) :=
  if s.tcb.isDupAck then
    s.dupAckReceived (fastRetransmit lib now rounds) (fastRetransmit lib now rounds)
  else if s.tcb.congestion.dupAckCount ≠ 0 then
    let t := { s.tcb with congestion.dupAckCount := 0 }
    some ({ s with tcb := t.setCwnd t.congestion.lw.toUInt32 }, false)
  else some ({ s with tcb := s.tcb.openWindow now }, false)

/-- `reno_ack_received`. -/
def renoAckReceived (lib : SocketLib σ) (now : ℚ) (rounds : ℕ) (s : Socket σ) :
    Option (Socket σ × Bool) :=
  if s.tcb.isDupAck then
    s.dupAckReceived (fastRetransmit lib now rounds) (fastRetransmit lib now rounds)
  else if s.tcb.congestion.isFastRecovery then some ({ s with tcb := s.tcb.fastRecovery }, false)
  else some ({ s with tcb := s.tcb.openWindow now }, false)

/-- `newreno_ack_received`. -/
def newrenoAckReceived (lib : SocketLib σ) (now : ℚ) (rounds : ℕ) (s : Socket σ) :
    Option (Socket σ × Bool) :=
  if s.tcb.isDupAck then
    s.dupAckReceived (fastRetransmit lib now rounds) fun s =>
      if s.tcb.congestion.recover < s.tcb.seg.ack - 1 then
        fastRetransmit lib now rounds
          { s with tcb := { s.tcb with congestion.recover := s.tcb.snd.nxt } }
      else some (s, false)
  else if s.tcb.congestion.isFastRecovery then some (s.newRenoFastRecovery, false)
  else some ({ s with tcb := s.tcb.openWindow now }, false)

/-- `bic_ack_received`. -/
def bicAckReceived (lib : SocketLib σ) (now : ℚ) (rounds : ℕ) (s : Socket σ) :
    Option (Socket σ × Bool) :=
  let segmentAcked := (s.tcb.seg.ack - s.tcb.snd.una) / s.tcb.getMss.toUInt32
  if s.tcb.isDupAck then
    s.dupAckReceived (bictcpFastretransmit lib now rounds) (bictcpFastretransmit lib now rounds)
  else if s.tcb.congestion.isFastRecovery then some ({ s with tcb := s.tcb.fastRecovery }, false)
  else some ({ s with tcb := s.tcb.bictcpCongAvoid now segmentAcked }, false)

/-- The handler that `congestion_setcallback` installs. -/
def ackReceived (lib : SocketLib σ) (now : ℚ) (rounds : ℕ) (s : Socket σ) :
    Option (Socket σ × Bool) :=
  match s.tcb.variant with
  | .oldTahoe => s.oldtahoeAckReceived now
  | .tahoe => s.tahoeAckReceived lib now rounds
  | .reno => s.renoAckReceived lib now rounds
  | .newReno => s.newrenoAckReceived lib now rounds
  | .bic => s.bicAckReceived lib now rounds

/-- `handle_rto_timer`, for a queue of data segments. -/
def handleRtoTimer (now : ℚ) (s : Socket σ) : Socket σ :=
  if s.tcb.retransmissionQueue.isAnySegmentInQueue then
    match s.tcb.retransmissionQueue.queue with
    | [] => s
    | info :: _ => { s with tcb := s.tcb.rtoTimeout }.resendSegment now info.seqNum
  else s

end Socket

end NetSim.Tcp

/-!
## BIC with checked divisions

`bictcp_update`, `bictcp_cong_avoid` and `bictcp_acked` of `Congestion.c` once more, with no result where the source
divides by zero.
-/

namespace NetSim.Tcp

/-- A division of the source. -/
def divide (a b : UInt32) : Option UInt32 := if b = 0 then none else some (a / b)

/-- The regimes of `bictcp_update` above the low window. -/
def bictcpRegime (ca : Bic) (cwnd : UInt32) : Option UInt32 :=
  if cwnd < ca.lastMaxCwnd then
    let dist := (ca.lastMaxCwnd - cwnd) / bictcpB
    -- linear increase, smoothed binary search increase, binary search increase
    if dist > ca.maxIncrement then divide cwnd ca.maxIncrement
    else if dist ≤ 1 then some (cwnd * ca.smoothPart / bictcpB)
    else divide cwnd dist
  -- slow start, twice, and linear increase
  else if cwnd < ca.lastMaxCwnd + bictcpB then some (cwnd * ca.smoothPart / bictcpB)
  else if cwnd < ca.lastMaxCwnd + ca.maxIncrement * (bictcpB - 1) then
    divide (cwnd * (bictcpB - 1)) (cwnd - ca.lastMaxCwnd)
  else divide cwnd ca.maxIncrement

/-- The counter that `bictcp_update` computes. -/
def checkedBictcpCnt (ca : Bic) (cwnd : UInt32) : Option UInt32 :=
  if cwnd ≤ ca.lowWindow then some cwnd
  else
    (bictcpRegime ca cwnd).bind fun cnt =>
      let cnt := if ca.lastMaxCwnd = 0 ∧ cnt > 20 then 20 else cnt
      (divide (cnt <<< ackRatioShift) ca.delayedAck).map fun cnt => if cnt = 0 then 1 else cnt

namespace Tcb

/-- `bictcp_update`. -/
def checkedBictcpUpdate (t : Tcb) (now : ℚ) : Option Tcb :=
  (divide t.getCwnd t.getMss.toUInt32).bind fun cwnd =>
    let ca := t.congestion.bic
    let epochStart := if ca.epochStart = 0 then truncate now else ca.epochStart
    let ca := { ca with lastCwnd := cwnd, lastTime := truncate now, epochStart := epochStart }
    (checkedBictcpCnt ca cwnd).map fun cnt => { t with congestion.bic := { ca with cnt := cnt } }

/-- `bictcp_cong_avoid`. -/
def checkedBictcpCongAvoid (t : Tcb) (now : ℚ) (segmentAcked : UInt32) : Option Tcb :=
  let (t, segmentAcked) :=
    if t.inSlowStart then (t.slowStart, segmentAcked - 1) else (t, segmentAcked)
  if ¬ t.inSlowStart ∧ segmentAcked > 0 then
    let t := { t with congestion.bic.cwndcnt := t.congestion.bic.cwndcnt + segmentAcked }
    (t.checkedBictcpUpdate now).map fun t =>
      if t.congestion.bic.cwndcnt > t.congestion.bic.cnt then
        let t := t.increaseCwnd t.congestion.smss
        { t with congestion.bic.cwndcnt := 0 }
      else t
  else some t

/-- `bictcp_acked`: the local copy of the BIC variables that it leaves, and the control block. -/
def bictcpAcked (t : Tcb) : Option (Bic × Tcb) :=
  let ca := t.congestion.bic
  (divide (t.seg.ack - t.snd.una) t.getMss.toUInt32).map fun pktsAcked =>
    ({ ca with delayedAck := ca.delayedAck + (pktsAcked - ca.delayedAck >>> ackRatioShift) }, t)

/-- What `bic_ack_received` does with an acknowledgement of new data outside fast recovery. -/
def bicOpenWindow (t : Tcb) (now : ℚ) : Option Tcb :=
  (divide (t.seg.ack - t.snd.una) t.getMss.toUInt32).bind fun segmentAcked =>
    t.bictcpAcked.bind fun acked => acked.2.checkedBictcpCongAvoid now segmentAcked

end Tcb

end NetSim.Tcp
