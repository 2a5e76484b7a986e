import NetSim.Spec.Congestion

/-!
# Segments that arrive

The part of `TCP_Incoming.c` that a synchronised connection goes through: the acceptance test, the
processing of an acknowledgement, and that of a data segment up to the application. The round-trip
times, the timers and the metrics are left out.
-/

namespace NetSim.Tcp

variable {σ : Type}

namespace Tcb

/-- `update_seq_num_on_receiving`. -/
def updateSeqNumOnReceiving (t : Tcb) (p : Packet) : Tcb :=
  { t with seg := ⟨p.hdr.seqNum, p.hdr.ackNum, p.segLen, p.hdr.window.toUInt32⟩ }

/-- `Validate_segment`. -/
def validateSegment (t : Tcb) : Bool :=
  if t.seg.len = 0 ∧ t.rcv.wnd = 0 then t.seg.seq = t.rcv.nxt
  else if t.seg.len = 0 ∧ t.rcv.wnd > 0 then
    t.rcv.nxt ≤ t.seg.seq ∧ t.seg.seq < t.rcv.nxt + t.rcv.wnd
  else if t.seg.len > 0 ∧ t.rcv.wnd = 0 then false
  else
    (t.rcv.nxt ≤ t.seg.seq ∧ t.seg.seq < t.rcv.nxt + t.rcv.wnd) ∨
      (t.rcv.nxt ≤ t.seg.seq + t.seg.len - 1 ∧
        t.seg.seq + t.seg.len - 1 < t.rcv.nxt + t.rcv.wnd)

end Tcb

/-! ## Acknowledgements -/

/-- The branches that `process_ack_in_establishedState` takes. -/
inductive AckBranch
  /-- New data is acknowledged; the flag says whether the send window is updated. -/
  | new (isWindowUpdated : Bool)
  | duplicate
  /-- Something that has not been sent yet is acknowledged. -/
  | notSent
deriving DecidableEq, Repr

namespace Tcb

/-- The test for an update of the send window. -/
def isWindowUpdated (t : Tcb) : Bool :=
  t.snd.wl1 < t.seg.seq ∨ (t.snd.wl1 = t.seg.seq ∧ t.snd.wl2 ≤ t.seg.ack)

/-- The comparisons of `SEG.ACK` with `SND.UNA` and `SND.NXT`. -/
def ackBranch (t : Tcb) : AckBranch :=
  if t.snd.una < t.seg.ack ∧ t.seg.ack ≤ t.snd.nxt then .new t.isWindowUpdated
  else if t.seg.ack ≤ t.snd.una then .duplicate
  else .notSent

/-- `SND` after an acknowledgement of new data. -/
def ackSnd (t : Tcb) : SendSeqVar :=
  if t.isWindowUpdated then
    { t.snd with una := t.seg.ack, wnd := t.seg.wnd, wl1 := t.seg.seq, wl2 := t.seg.ack }
  else { t.snd with una := t.seg.ack }

/-- What the comparisons leave of the control block. -/
def acknowledge (t : Tcb) : Tcb :=
  match t.ackBranch with
  | .new _ =>
    { t with
      snd := t.ackSnd
      retransmissionQueue := t.retransmissionQueue.deleteSegmentFromQueue t.seg.ack }
  | .duplicate | .notSent => t

end Tcb

/-- `create_ack`. -/
def createAck (t : Tcb) (seqno ackno : UInt32) : Packet :=
  let hdrLength := tcpHdrSize + if t.isTsOpt then timestampOptionLen else 0
  let hdr := setSackOption t ⟨seqno, ackno, hdrLength, false, false, false, true, t.getWnd, none⟩
  let hdr := { hdr with hdrLength := paddedHdrLength hdr.hdrLength }
  { hdr := hdr, payload := 0, packetSize := hdr.hdrLength, appData := none }

namespace Socket

/-- `send_ack`. -/
def sendAck (s : Socket σ) (seqNo ackNo : UInt32) : Socket σ :=
  s.sendToNetwork (createAck s.tcb seqNo ackNo)

/-- `process_ack_in_establishedState`, with whether fast retransmit was entered and whether the
processing goes on. -/
def processAckInEstablishedState (lib : SocketLib σ) (now : ℚ) (rounds : ℕ) (s : Socket σ)
    (hdr : SegmentHdr) : Option (Socket σ × Bool × Bool) := do
  let s := { s with tcb := s.tcb.receiveSackOption hdr }
  let (s, isEntered) ← s.ackReceived lib now rounds
  let s' := { s with tcb := s.tcb.acknowledge }
  match s.tcb.ackBranch with
  | .new _ => return (s', isEntered, true)
  | .duplicate =>
    let dupackcount := s.tcb.congestion.dupAckCount
    return (s', isEntered, dupackcount = 1 ∨ dupackcount = 2)
  | .notSent => return (s'.sendAck s.tcb.seg.seq s.tcb.seg.ack, isEntered, false)

/-- `process_ack_packet` in a state from `ESTABLISHED` to `CLOSING`; the timer of `TIME_WAIT` is left
out. -/
def processAckPacket (lib : SocketLib σ) (now : ℚ) (rounds : ℕ) (s : Socket σ) (hdr : SegmentHdr) :
    Option (Socket σ × Bool) := do
  let state := s.tcb.tcpState
  let (s, isEntered, isContinueProcessing) ← s.processAckInEstablishedState lib now rounds hdr
  let s := if isContinueProcessing then s.sendSegment lib now else s
  let t :=
    if hdr.fin ∧ state = .finWait1 then s.tcb.changeState .finWait2
    else if hdr.fin ∧ state = .closing then s.tcb.changeState .timeWait
    else s.tcb
  return ({ s with tcb := t }, isEntered)

/-- `packet_arrives_at_incoming_tcp`, with `update_seq_num_on_receiving` in front of it, for an
acknowledgement without the bits that are looked at first. -/
def ackArrives (lib : SocketLib σ) (now : ℚ) (rounds : ℕ) (s : Socket σ) (p : Packet) :
    Option (Socket σ × Bool) :=
  let s := { s with tcb := s.tcb.updateSeqNumOnReceiving p }
  if s.tcb.validateSegment then s.processAckPacket lib now rounds p.hdr
  else some (s.sendAck s.tcb.snd.nxt s.tcb.rcv.nxt, false)

/-! ## Data -/

/-- `send_ack_or_not`. -/
def sendAckOrNot (now : ℚ) (s : Socket σ) : Bool × Socket σ :=
  let t := s.tcb
  if !t.isAckDelayed then (true, s)
  else if t.lastAckSendTime + t.delayedAckTime ≤ now then
    (true, { s with tcb := { t with lastAckSendTime := now, isAckSentLastTime := true } })
  else if t.isAckSentLastTime then (false, { s with tcb := { t with isAckSentLastTime := false } })
  else (true, { s with tcb := { t with lastAckSendTime := now, isAckSentLastTime := true } })

/-- `check_segment`. -/
def checkSegment (now : ℚ) (s : Socket σ) (p : Packet) : Bool × Socket σ :=
  let t := s.tcb
  if t.rcv.nxt = p.hdr.seqNum then
    let nxt := t.outOfOrderSegment.checkSegmentInQueue (t.rcv.nxt + t.seg.len)
    (true, { s with tcb := { t with rcv := { t.rcv with nxt := nxt } } })
  else if t.rcv.nxt > p.hdr.seqNum then (false, s)
  else if t.outOfOrderSegment.isSegmentInQueue p then (false, s)
  else
    (false, { s with
      tcb := { t with outOfOrderSegment := t.outOfOrderSegment.addPacketToQueue p now } })

/-- A packet of the application layer is passed on. -/
def passOn (s : Socket σ) (p : Packet) : Socket σ :=
  if p.appData.isSome then { s with application := s.application ++ [p] } else s

/-- The loop of `send_to_application`, for at most the given number of segments. -/
def sendQueued : ℕ → Socket σ → Socket σ
  | 0, s => s
  | n + 1, s =>
    match s.tcb.outOfOrderSegment.checkForOtherSegmentToSendFromQueue s.tcb.rcv.nxt with
    | (none, _) => s
    | (some pr, q) => sendQueued n ({ s with tcb := { s.tcb with outOfOrderSegment := q } }.passOn pr)

/-- `send_to_application`. Each round takes a segment from the queue, so as many rounds as segments are
queued are enough. -/
def sendToApplication (s : Socket σ) (p : Packet) : Socket σ :=
  sendQueued s.tcb.outOfOrderSegment.queue.length (s.passOn p)

/-- `process_segment_text`: whether the processing goes on. -/
def processSegmentText (now : ℚ) (s : Socket σ) (p : Packet) : Bool × Socket σ :=
  match s.tcb.tcpState with
  | .established | .finWait1 | .finWait2 =>
    let (isinorder, s) := s.checkSegment now p
    let (isAckSent, s) := if isinorder then s.sendAckOrNot now else (true, s)
    let s := if isAckSent && !p.hdr.fin then s.sendAck s.tcb.snd.nxt s.tcb.rcv.nxt else s
    let s := if isinorder then s.sendToApplication p else s
    (true, s)
  | .closed | .listen | .synSent | .synReceived | .closeWait | .closing | .lastAck | .timeWait =>
    (p.hdr.fin, s)

/-- `packet_arrives_at_incoming_tcp`, with `update_seq_num_on_receiving` in front of it, for a packet
without control bits. -/
def dataArrives (now : ℚ) (s : Socket σ) (p : Packet) : Socket σ :=
  let s := { s with tcb := s.tcb.updateSeqNumOnReceiving p }
  if s.tcb.validateSegment then (s.processSegmentText now p).2
  else s.sendAck s.tcb.snd.nxt s.tcb.rcv.nxt

end Socket

end NetSim.Tcp

/-!
## The send window

The callers of `send_segment` in a connection that is established, for any congestion algorithm: what
`ack_received` and `rto_expired` do is a parameter. Besides the socket, the window that the peer has
advertised last is kept, in octets: the segments whose window `SND.WL1` and `SND.WL2` let through set it.
-/

namespace NetSim.Tcp

variable {σ : Type}

/-! ### The calls in the loss recovery phase -/

namespace Socket

/-- The socket with which a round of `tcp_sack_lossRecoveryPhase` calls `send_segment`. -/
def newDataCall (lib : SocketLib σ) (wnd mss : UInt32) (r : Socket σ × UInt32) : Option (Socket σ) :=
  if wnd ≥ mss + r.2 then
    let (nextSeg, s) := r.1.nextSeg lib
    if nextSeg = 0 then none
    else if nextSeg < s.tcb.snd.nxt then none
    else some s
  else none

/-- The sockets with which `tcp_sack_lossRecoveryPhase` calls it. -/
def recoveryCalls (lib : SocketLib σ) (now : ℚ) (rounds : ℕ) (s : Socket σ) : List (Socket σ) :=
  if s.tcb.seg.ack > s.tcb.recoveryPoint then []
  else
    match s.tcb.setPipe rounds with
    | none => []
    | some t =>
      (Loop.states (recoveryRound lib now t.getWnd.toUInt32 t.getMss.toUInt32) rounds
        ({ s with tcb := t }, t.pipe)).filterMap (newDataCall lib t.getWnd.toUInt32 t.getMss.toUInt32)

/-- The socket with which `FastRetransmit` and `bictcp_fastretransmit` enter the phase, if they do. -/
def recoveryEntry (s : Socket σ) : Option (Socket σ) :=
  if s.tcb.congestion.dupAckCount = tcpDupThresh then none
  else
    let s := { s with tcb := s.tcb.increaseCwnd s.tcb.congestion.smss }
    if s.tcb.isSackOption && s.tcb.congestion.isLossRecoveryPhase then some s else none

/-- The same from the third duplicate on, where NewReno looks at `recover` first. -/
def thirdEntry (s : Socket σ) : Option (Socket σ) :=
  if s.tcb.variant = .newReno then
    if s.tcb.congestion.recover < s.tcb.seg.ack - 1 then
      recoveryEntry { s with tcb := { s.tcb with congestion.recover := s.tcb.snd.nxt } }
    else none
  else s.recoveryEntry

/-- The socket with which the handler of the variant enters it, if it does: for a duplicate. -/
def ackRecoveryEntry (s : Socket σ) : Option (Socket σ) :=
  if s.tcb.variant = .oldTahoe ∨ ¬ s.tcb.isDupAck then none
  else
    let s := { s with
      tcb := { s.tcb with congestion.dupAckCount := s.tcb.congestion.dupAckCount + 1 } }
    if s.tcb.congestion.dupAckCount < tcpDupThresh then
      if s.tcb.isSackOption && s.tcb.isLost (s.tcb.snd.una + 1) then s.recoveryEntry else none
    else s.thirdEntry

/-- The calls of a phase that is entered or not. -/
def callsOf (lib : SocketLib σ) (now : ℚ) (rounds : ℕ) (entry : Option (Socket σ)) : List (Socket σ) :=
  (entry.map (recoveryCalls lib now rounds)).getD []

end Socket

/-- From `SND.NXT` on, the calls of `send_segment` follow one another up to `nxt'`. -/
def Chained (lib : SocketLib σ) (now : ℚ) : UInt32 → List (Socket σ) → UInt32 → Prop
  | nxt, [], nxt' => nxt' = nxt
  | nxt, s :: calls, nxt' =>
    s.tcb.snd.nxt = nxt ∧ Chained lib now (s.sendSegment lib now).tcb.snd.nxt calls nxt'

/-- The handlers `ack_received`, which has no result if it does not end, and `rto_expired`. The sockets
with which `ack_received` calls `send_segment` are recorded, and nothing else moves `SND.NXT`. -/
structure CongestionAlgorithm (lib : SocketLib σ) where
  ackReceived : ℚ → Socket σ → Option (Socket σ × List (Socket σ))
  rtoExpired : Tcb → Tcb
  chained : ∀ now s s' calls, ackReceived now s = some (s', calls) →
    Chained lib now s.tcb.snd.nxt calls s'.tcb.snd.nxt
  rtoExpired_nxt : ∀ t, (rtoExpired t).snd.nxt = t.snd.nxt

/-- The window that a segment advertises counts in units of `2 ^ Snd.Wind_Shift` octets. -/
def Tcb.advertisedWindow (t : Tcb) : ℕ :=
  t.seg.wnd.toNat * 2 ^ (if t.isWindowScaling then t.windShift.toNat else 0)

/-- A socket, and the window that was advertised last. -/
structure WindowState (σ : Type) where
  socket : Socket σ
  advertised : ℕ

/-- What an event does up to the call of `send_segment` that may end it: the state, whether the call
follows, and the calls that the congestion algorithm has made. -/
structure BeforeCall (σ : Type) where
  state : WindowState σ
  isCalled : Bool
  recovery : List (Socket σ)

/-- All calls of the event. Those of the congestion algorithm come before the window of the segment is
looked at. -/
def BeforeCall.calls (next : BeforeCall σ) (r : WindowState σ) : List (WindowState σ) :=
  next.recovery.map (⟨·, r.advertised⟩) ++ if next.isCalled then [next.state] else []

namespace WindowState

variable {lib : SocketLib σ}

/-- The state that `process_ack_in_establishedState` leaves, and whether `send_segment` is called then. -/
def processAck (alg : CongestionAlgorithm lib) (now : ℚ) (r : WindowState σ) (hdr : SegmentHdr) :
    Option (BeforeCall σ) := do
  let s := { r.socket with tcb := r.socket.tcb.receiveSackOption hdr }
  let (s, recovery) ← alg.ackReceived now s
  let s' := { s with tcb := s.tcb.acknowledge }
  match s.tcb.ackBranch with
  | .new isWindowUpdated =>
    return ⟨⟨s', if isWindowUpdated then s.tcb.advertisedWindow else r.advertised⟩, true, recovery⟩
  | .duplicate =>
    let dupackcount := s.tcb.congestion.dupAckCount
    return ⟨⟨s', r.advertised⟩, dupackcount = 1 ∨ dupackcount = 2, recovery⟩
  | .notSent => return ⟨⟨s'.sendAck s.tcb.seg.seq s.tcb.seg.ack, r.advertised⟩, false, recovery⟩

/-- What `process_ack_packet` does behind the call of `send_segment`. -/
def changeStateOnFin (state : TcpConnectionState) (hdr : SegmentHdr) (s : Socket σ) : Socket σ :=
  let t :=
    if hdr.fin ∧ state = .finWait1 then s.tcb.changeState .finWait2
    else if hdr.fin ∧ state = .closing then s.tcb.changeState .timeWait
    else s.tcb
  { s with tcb := t }

/-- `packet_arrives_at_incoming_tcp` for an acknowledgement, up to the call of `send_segment`. -/
def ackArrives (alg : CongestionAlgorithm lib) (now : ℚ) (r : WindowState σ) (p : Packet) :
    Option (BeforeCall σ) :=
  let s := { r.socket with tcb := r.socket.tcb.updateSeqNumOnReceiving p }
  if s.tcb.validateSegment then processAck alg now { r with socket := s } p.hdr
  else some ⟨{ r with socket := s.sendAck s.tcb.snd.nxt s.tcb.rcv.nxt }, false, []⟩

end WindowState

/-- What happens to a sender. -/
inductive WindowEvent (σ : Type)
  /-- The call of `send_segment` that follows the handshake. -/
  | established
  /-- Packets of the application reach the interface. -/
  | fromApplication (sId : σ)
  | ackArrives (p : Packet)
  | dataArrives (p : Packet)
  | timeout

namespace WindowState

variable {lib : SocketLib σ}

/-- The event up to the call of `send_segment` that may end it. -/
def beforeCall (alg : CongestionAlgorithm lib) (now : ℚ) (r : WindowState σ) :
    WindowEvent σ → Option (BeforeCall σ)
  | .established => some ⟨r, true, []⟩
  | .fromApplication sId =>
    some ⟨{ r with socket := { r.socket with sId := sId } }, r.socket.waitFromApp, []⟩
  | .ackArrives p => r.ackArrives alg now p
  | .dataArrives p => some ⟨{ r with socket := r.socket.dataArrives now p }, false, []⟩
  | .timeout =>
    match r.socket.tcb.retransmissionQueue.queue with
    | [] => some ⟨r, false, []⟩
    | info :: _ =>
      let s := { r.socket with tcb := alg.rtoExpired r.socket.tcb }.resendSegment now info.seqNum
      some ⟨{ r with socket := s }, false, []⟩

/-- What follows the call. -/
def afterCall (r : WindowState σ) (event : WindowEvent σ) (s : Socket σ) : Socket σ :=
  match event with
  | .fromApplication _ => { s with waitFromApp := false }
  | .ackArrives p =>
    if (r.socket.tcb.updateSeqNumOnReceiving p).validateSegment then
      changeStateOnFin r.socket.tcb.tcpState p.hdr s
    else s
  | .established | .dataArrives _ | .timeout => s

end WindowState

end NetSim.Tcp
