import NetSim.Spec.TcpIncoming

/-!
# The retransmission timer

`RTO.c`, with the SYNs and the acknowledgements that start, restart and stop the timer. Of the events
of the simulation the timeouts of this socket are kept, each with the packet that it carries. Times are
in microseconds and are taken exactly. The SACK flags and the congestion windows play no part, and what
the window lets pass is left open: the transmissions of data are steps of their own.
-/

namespace NetSim.Tcp

/-- `SECOND`. -/
def rtoSecond : ℚ := 1000000

/-- `G`, the least timeout. -/
def rtoG : ℚ := 1 / 2 * rtoSecond

/-- `K`. -/
def rtoK : ℚ := 4

/-- `alpha`. -/
def rtoAlpha : ℚ := 1 / 8

/-- `beta`. -/
def rtoBeta : ℚ := 1 / 4

/-- The bounds that `calculate_RTO` and `Backoff_RTO` put on a timeout. -/
def clampRto (rto : ℚ) : ℚ := min (max rto rtoG) (60 * rtoSecond)

/-- `calculate_RTO`: the timeout, `srtt` and `rtt_var`. -/
def calculateRto (r srtt rttVar : ℚ) : ℚ × ℚ × ℚ :=
  if r = 0 then (clampRto rtoSecond, srtt, rttVar)
  else if srtt = 0 then (clampRto (r + max rtoG (rtoK * (r / 2))), r, r / 2)
  else
    let rttVar := (1 - rtoBeta) * rttVar + rtoBeta * |srtt - r|
    let srtt := (1 - rtoAlpha) * srtt + rtoAlpha * r
    (clampRto (srtt + max rtoG (rtoK * rttVar)), srtt, rttVar)

/-- `Backoff_RTO`. -/
def backoffRto (rto : ℚ) : ℚ := clampRto (rto * 2)

/-! ## Control packets -/

/-- The lengths of the options of a SYN: `MSS_OPTION_LEN`, `SACKPERMITTED_OPTION_LEN`, and `TSOPT_LEN` and
`WSOPT_LEN` with the byte behind each. -/
def synOptionsLen (t : Tcb) : ℕ :=
  4 + (if t.isSackPermitted then 2 else 0) + (if t.isTsOpt then timestampOptionLen else 0) +
    (if t.isWindowScaling then 4 else 0)

/-- `create_syn`. -/
def createSyn (t : Tcb) : Packet :=
  let hdrLength := paddedHdrLength (tcpHdrSize + synOptionsLen t)
  { hdr := ⟨t.iss, 0, hdrLength, false, true, false, false, t.getWnd, none⟩
    payload := 0
    packetSize := hdrLength
    appData := none }

/-- `create_synAck`. -/
def createSynAck (t : Tcb) : Packet :=
  let hdrLength := paddedHdrLength (tcpHdrSize + synOptionsLen t)
  { hdr := ⟨t.iss, t.rcv.nxt, hdrLength, false, true, false, true, t.getWnd, none⟩
    payload := 0
    packetSize := hdrLength
    appData := none }

/-- `isTCPControl`: the packets that do not come from the application. -/
def Packet.isTCPControl (p : Packet) : Bool := p.appData.isNone

/-! ## The timer -/

/-- A pending event `TCP_RTO_TIMEOUT`. -/
structure TimeoutEvent where
  id : ℕ
  time : ℚ
  packet : Packet
deriving DecidableEq, Repr

/-- A socket with `TCP_TIMER`, and the events that are pending for it. `nextEventId` is what `fnpAddEvent`
returns next. -/
structure RtoSocket where
  tcb : Tcb
  rto : ℚ
  srtt : ℚ
  rttVar : ℚ
  isRTOTimerRunning : Bool
  rtoEventId : ℕ
  synRetries : ℕ
  events : List TimeoutEvent
  nextEventId : ℕ
deriving DecidableEq, Repr

namespace RtoSocket

/-- The timer part of `create_TCB`. -/
def create (tcb : Tcb) (nextEventId : ℕ) : RtoSocket where
  tcb := tcb
  rto := (calculateRto 0 0 0).1
  srtt := 0
  rttVar := 0
  isRTOTimerRunning := false
  rtoEventId := 0
  synRetries := 0
  events := []
  nextEventId := nextEventId

/-- The retransmission queue. -/
def queue (s : RtoSocket) : List QueueInfo := s.tcb.retransmissionQueue.queue

/-- The timer runs from now on, for a packet. -/
def startTimer (now : ℚ) (packet : Packet) (s : RtoSocket) : RtoSocket :=
  { s with
    isRTOTimerRunning := true
    rtoEventId := s.nextEventId
    events := s.events ++ [⟨s.nextEventId, now + s.rto, packet⟩]
    nextEventId := s.nextEventId + 1 }

/-- `add_timeout_event`. -/
def addTimeoutEvent (now : ℚ) (packet : Packet) (s : RtoSocket) : RtoSocket :=
  let s := { s with tcb := s.tcb.addTimeoutEvent packet now }
  if s.isRTOTimerRunning then s else s.startTimer now packet

/-- `restart_rto_timer`. -/
def restartRtoTimer (now : ℚ) (s : RtoSocket) : RtoSocket :=
  let s := { s with
    events := s.events.filter fun event => event.id ≠ s.rtoEventId
    isRTOTimerRunning := false }
  if s.tcb.retransmissionQueue.isAnySegmentInQueue then
    match s.queue with
    | [] => s
    | info :: _ => s.startTimer now info.packet
  else s

/-- `resend_segment`. -/
def resendSegment (now : ℚ) (seqNum : UInt32) (s : RtoSocket) : RtoSocket :=
  match s.tcb.retransmissionQueue.getSegmentFromQueue seqNum with
  | (some p, q) => { s with tcb := { s.tcb with retransmissionQueue := q } }.addTimeoutEvent now p
  | (none, _) => s

/-- `resend_segment_without_timeout`, for a segment that is not SACKed. -/
def resendSegmentWithoutTimeout (seq : UInt32) (s : RtoSocket) : RtoSocket :=
  match s.tcb.retransmissionQueue.getCopySegmentFromQueue seq with
  | some _ => { s with tcb := (s.tcb.setHighRxt seq).setRescueRxt seq }
  | none => s

/-! ## The handshake -/

/-- `SND` of a connection whose SYN is sent. -/
def synSnd (t : Tcb) : SendSeqVar := { t.snd with una := t.iss, nxt := t.iss + 1 }

/-- `send_syn`. -/
def sendSyn (now : ℚ) (s : RtoSocket) : RtoSocket :=
  { s with
    tcb := { s.tcb with snd := synSnd s.tcb }.changeState .synSent
    synRetries := s.synRetries + 1 }.addTimeoutEvent now (createSyn s.tcb)

/-- `rcv_SYN`, behind the reading of the options. -/
def rcvSyn (now : ℚ) (s : RtoSocket) : RtoSocket :=
  { s with
    tcb := { s.tcb with snd := synSnd s.tcb }.changeState .synReceived
    synRetries := s.synRetries + 1 }.addTimeoutEvent now (createSynAck s.tcb)

/-- `resend_syn`, for the sequence number of the packet of the event. There is no result where the
assertion fails, where no segment has the number, and where the socket is closed. -/
def resendSyn (maxSynRetries : ℕ) (now : ℚ) (seqNum : UInt32) (s : RtoSocket) : Option RtoSocket :=
  if s.tcb.tcpState ≠ .synSent ∧ s.tcb.tcpState ≠ .synReceived then none
  else
    match s.tcb.retransmissionQueue.getSegmentFromQueue seqNum with
    | (none, _) => none
    | (some syn, q) =>
      if s.synRetries < maxSynRetries then
        some ({ s with
          tcb := { s.tcb with retransmissionQueue := q, snd := synSnd s.tcb }
          synRetries := s.synRetries + 1 }.addTimeoutEvent now syn)
      else none

/-- `handle_rto_timer`, for the packet of the event. -/
def handleRtoTimer (maxSynRetries : ℕ) (now : ℚ) (packet : Packet) (s : RtoSocket) : Option RtoSocket :=
  let s := { s with isRTOTimerRunning := false }
  if s.tcb.retransmissionQueue.isAnySegmentInQueue then
    match s.queue with
    | [] => some s
    | segment :: _ =>
      let s := { s with rto := backoffRto s.rto }
      if segment.packet.isTCPControl then
        if packet.hdr.syn then s.resendSyn maxSynRetries now packet.hdr.seqNum else some s
      else some ({ s with tcb := s.tcb.rtoTimeout }.resendSegment now segment.seqNum)
  else some s

/-- What an acceptable SYN-ACK leaves of the control block. -/
def synAckAccepted (t : Tcb) : Tcb :=
  { t with
    rcv.nxt := t.seg.seq + 1
    snd.una := t.seg.ack
    retransmissionQueue := t.retransmissionQueue.deleteSegmentFromQueue t.seg.ack }

/-- `SND.WND`, `SND.WL1` and `SND.WL2` are taken from the segment. -/
def setSndWnd (t : Tcb) : Tcb :=
  { t with snd.wnd := t.seg.wnd, snd.wl1 := t.seg.seq, snd.wl2 := t.seg.ack }

/-- `packet_arrives_at_synsent_state`, with `update_seq_num_on_receiving` in front of it and without the
sending of data behind it. There is no result where the connection is reset. -/
def packetArrivesAtSynsentState (p : Packet) (s : RtoSocket) : Option RtoSocket :=
  let t := s.tcb.updateSeqNumOnReceiving p
  let s := { s with tcb := t }
  if p.hdr.ack && (t.seg.ack ≤ t.iss || t.seg.ack > t.snd.nxt) then some s
  else
    let isAckAcceptable := p.hdr.ack && (t.snd.una ≤ t.seg.ack && t.seg.ack ≤ t.snd.nxt)
    if p.hdr.rst then if isAckAcceptable then none else some s
    else if isAckAcceptable && p.hdr.syn then
      let t := synAckAccepted t
      if t.snd.una > t.iss then some { s with tcb := (setSndWnd t).changeState .established }
      else some { s with tcb := t }
    else some s

/-! ## Acknowledgements -/

/-- The comparisons of `process_ack_in_establishedState`, and whether new data is acknowledged. -/
def processAckInEstablishedState (now : ℚ) (s : RtoSocket) : RtoSocket × Bool :=
  match s.tcb.ackBranch with
  | .new _ =>
    let (rto, srtt, rttVar) :=
      calculateRto (s.tcb.retransmissionQueue.getRtt now s.tcb.seg.ack) s.srtt s.rttVar
    ({ s with tcb := s.tcb.acknowledge, rto := rto, srtt := srtt, rttVar := rttVar }.restartRtoTimer now, true)
  | .duplicate | .notSent => (s, false)

/-- `process_ack_packet` in `SYN_RECEIVED` and `ESTABLISHED`, behind the acceptance test. -/
def processAckPacket (now : ℚ) (s : RtoSocket) : RtoSocket × Bool :=
  let t := s.tcb
  if t.tcpState = .synReceived then
    if t.snd.una ≤ t.seg.ack ∧ t.seg.ack ≤ t.snd.nxt then
      { s with tcb := (setSndWnd t).changeState .established }.processAckInEstablishedState now
    else (s, false)
  else if t.tcpState = .established then s.processAckInEstablishedState now
  else (s, false)

/-- `packet_arrives_at_incoming_tcp`, with `update_seq_num_on_receiving` in front of it, for an
acknowledgement. -/
def ackArrives (now : ℚ) (p : Packet) (s : RtoSocket) : RtoSocket × Bool :=
  let s := { s with tcb := s.tcb.updateSeqNumOnReceiving p }
  if s.tcb.validateSegment then s.processAckPacket now else (s, false)

/-- A packet of the application in a round of `send_segment`. -/
def sendPacket (now : ℚ) (p : AppPacket) (s : RtoSocket) : RtoSocket :=
  { s with tcb := { s.tcb with
    snd.nxt := s.tcb.snd.nxt + UInt32.ofNat p.packetSize } }.addTimeoutEvent now (addTcpHdr s.tcb p)

end RtoSocket

end NetSim.Tcp
