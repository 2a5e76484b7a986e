import Mathlib.Algebra.Order.Ring.Rat
import NetSim.Spec.TcpQueue

/-!
# The transmission control block

The fields of `TCB`, `CONGESTIONVAR` and `NETSIM_SOCKET` that the segment processing, SACK and
the congestion algorithms read, with the words that the source gives them. Event times are in
microseconds and are taken exactly. What leaves a socket is kept in two logs: the packets for the
network, and those for the application.
-/

namespace NetSim.Tcp

/-- `TCP_CONNECTION_STATE`. -/
inductive TcpConnectionState
  | closed
  | listen
  | synSent
  | synReceived
  | established
  | finWait1
  | finWait2
  | closeWait
  | closing
  | lastAck
  | timeWait
deriving DecidableEq, Repr

/-- `TCPVARIANT`, without CUBIC, which has its own acknowledgement handler. -/
inductive TcpVariant
  | oldTahoe
  | tahoe
  | reno
  | newReno
  | bic
deriving DecidableEq, Repr

/-- `SND`. -/
structure SendSeqVar where
  una : UInt32
  nxt : UInt32
  wnd : UInt32
  wl1 : UInt32
  wl2 : UInt32
deriving DecidableEq, Repr

/-- `RCV`. -/
structure RecvSeqVar where
  nxt : UInt32
  wnd : UInt32
deriving DecidableEq, Repr

/-- `SEG`. -/
structure CurrSegVar where
  seq : UInt32
  ack : UInt32
  len : UInt32
  wnd : UInt32
deriving DecidableEq, Repr

/-- `BIC`. -/
structure Bic where
  lowWindow : UInt32
  maxIncrement : UInt32
  fastConvergence : Bool
  beta : ℚ
  smoothPart : UInt32
  cnt : UInt32
  lastMaxCwnd : UInt32
  lossCwnd : UInt32
  lastCwnd : UInt32
  lastTime : UInt32
  epochStart : UInt32
  delayedAck : UInt32
  cwndcnt : UInt32
deriving DecidableEq, Repr

/-- `CONGESTIONVAR`. -/
structure CongestionVar where
  smss : UInt16
  lw : UInt16
  ssthresh : UInt16
  cwnd : UInt16
  lastWinUpdateTime : ℚ
  dupAckCount : UInt32
  isFastRecovery : Bool
  recover : UInt32
  isLossRecoveryPhase : Bool
  bic : Bic
deriving DecidableEq, Repr

/-- `TCB`. The `scoreboard` has four entries. -/
structure Tcb where
  tcpState : TcpConnectionState
  tcpPrevState : TcpConnectionState
  variant : TcpVariant
  snd : SendSeqVar
  rcv : RecvSeqVar
  seg : CurrSegVar
  iss : UInt32
  retransmissionQueue : TcpQueue
  outOfOrderSegment : TcpQueue
  congestion : CongestionVar
  isAckDelayed : Bool
  delayedAckTime : ℚ
  lastAckSendTime : ℚ
  isAckSentLastTime : Bool
  isSackPermitted : Bool
  scoreboard : List SackData
  prevScoreboard : List SackData
  pipe : UInt32
  highRxt : UInt32
  rescueRxt : UInt32
  isSackOption : Bool
  recoveryPoint : UInt32
  isWindowScaling : Bool
  /-- `Snd.Wind_Shift`. -/
  windShift : UInt8
  isTsOpt : Bool
deriving DecidableEq, Repr

/-- The block that `create_TCB` starts from: all fields zero. -/
def Tcb.calloc (variant : TcpVariant) : Tcb where
  tcpState := .closed
  tcpPrevState := .closed
  variant := variant
  snd := ⟨0, 0, 0, 0, 0⟩
  rcv := ⟨0, 0⟩
  seg := ⟨0, 0, 0, 0⟩
  iss := 0
  retransmissionQueue := .empty
  outOfOrderSegment := .empty
  congestion := ⟨0, 0, 0, 0, 0, 0, false, 0, false, ⟨0, 0, false, 0, 0, 0, 0, 0, 0, 0, 0, 0, 0⟩⟩
  isAckDelayed := false
  delayedAckTime := 0
  lastAckSendTime := 0
  isAckSentLastTime := false
  isSackPermitted := false
  scoreboard := List.replicate 4 ⟨0, 0⟩
  prevScoreboard := List.replicate 4 ⟨0, 0⟩
  pipe := 0
  highRxt := 0
  rescueRxt := 0
  isSackOption := false
  recoveryPoint := 0
  isWindowScaling := false
  windShift := 0
  isTsOpt := false

/-- `dPacketSize` and `nAppEndFlag` of a packet that the application has passed to its socket
interface. -/
structure AppPacket where
  packetSize : ℕ
  appEndFlag : Bool
deriving DecidableEq, Repr

/-- `fn_NetSim_Socket_GetPacketFromInterface` of the network stack: without the move flag it returns
the first packet that waits, with it the packet is taken out. -/
structure SocketLib (σ : Type) where
  getPacketFromInterface : σ → Bool → Option AppPacket × σ
  waiting : σ → List AppPacket
  peek : ∀ i, getPacketFromInterface i false = ((waiting i).head?, i)
  move_fst : ∀ i, (getPacketFromInterface i true).1 = (waiting i).head?
  move_waiting : ∀ i, waiting (getPacketFromInterface i true).2 = (waiting i).tail

/-- An interface that is the list of the packets. -/
def SocketLib.list : SocketLib (List AppPacket) where
  getPacketFromInterface l move := (l.head?, if move then l.tail else l)
  waiting l := l
  peek _ := rfl
  move_fst _ := rfl
  move_waiting _ := rfl

/-- `NETSIM_SOCKET`. -/
structure Socket (σ : Type) where
  tcb : Tcb
  sId : σ
  waitFromApp : Bool
  isAppClose : Bool
  /-- What `send_to_network` got. -/
  network : List Packet
  /-- What `send_to_application` passed on. -/
  application : List Packet

/-! ## The window -/

namespace Tcb

/-- `congestion_get_MSS`. -/
def getMss (t : Tcb) : UInt16 := t.congestion.smss

/-- `congestion_get_WND`. -/
def getWnd (t : Tcb) : UInt16 := t.congestion.cwnd

/-- `window_scale_get_cwnd`. -/
def windowScaleGetCwnd (t : Tcb) : UInt32 :=
  if t.isWindowScaling then max (t.getWnd.toUInt32 <<< t.windShift.toUInt32) t.getMss.toUInt32
  else t.getWnd.toUInt32

/-- `window_scale_get_wnd`. -/
def windowScaleGetWnd (t : Tcb) : UInt16 :=
  if t.isWindowScaling then (t.snd.wnd >>> t.windShift.toUInt32).toUInt16 else t.snd.wnd.toUInt16

/-- `tcp_change_state`. -/
def changeState (t : Tcb) (state : TcpConnectionState) : Tcb :=
  if t.tcpState = state then t else { t with tcpPrevState := t.tcpState, tcpState := state }

end Tcb

/-! ## Packets -/

/-- `TCP_HDR_SIZE`. -/
def tcpHdrSize : ℕ := 20

/-- `MAX_TCP_HDR_SIZE`. -/
def maxTcpHdrSize : ℕ := 60

/-- The header length that `set_tcp_packet_size` leaves, which pads it to a multiple of four bytes. -/
def paddedHdrLength (hdrLength : ℕ) : ℕ :=
  if hdrLength % 4 = 0 then hdrLength else hdrLength + (4 - hdrLength % 4)

/-- `TSOPT_LEN`, with the byte that is put behind the option. -/
def timestampOptionLen : ℕ := 11

/-- `add_tcp_hdr`, for a packet of the application. -/
def addTcpHdr (t : Tcb) (p : AppPacket) : Packet :=
  let hdrLength := paddedHdrLength (tcpHdrSize + if t.isTsOpt then timestampOptionLen else 0)
  { hdr := ⟨t.snd.nxt, 0, hdrLength, false, false, false, false, t.windowScaleGetWnd, none⟩
    payload := p.packetSize
    packetSize := p.packetSize + hdrLength
    appData := some (p.packetSize, p.appEndFlag) }

/-- `create_fin`. -/
def createFin (t : Tcb) : Packet :=
  { hdr := ⟨if t.iss + 1 = t.snd.nxt then t.snd.nxt + 1 else t.snd.nxt, 0, tcpHdrSize,
      true, false, false, false, t.windowScaleGetWnd, none⟩
    payload := 0
    packetSize := tcpHdrSize
    appData := none }

end NetSim.Tcp

/-!
## Sending segments

`TCP_Outgoing.c`, with what it calls to hand a packet to the network and to the retransmission
queue, and the closing of a connection. The timers are left out.
-/

namespace NetSim.Tcp

variable {σ : Type}

namespace Tcb

/-- `set_highRxt`. -/
def setHighRxt (t : Tcb) (seq : UInt32) : Tcb := { t with highRxt := max t.highRxt seq }

/-- `set_rescueRxt`. -/
def setRescueRxt (t : Tcb) (seq : UInt32) : Tcb := { t with rescueRxt := max t.rescueRxt seq }

/-- The queueing of a packet by `add_timeout_event`. -/
def addTimeoutEvent (t : Tcb) (packet : Packet) (now : ℚ) : Tcb :=
  { t with retransmissionQueue := t.retransmissionQueue.addPacketToQueue packet now }

end Tcb

namespace Socket

/-- `send_to_network`. -/
def sendToNetwork (s : Socket σ) (packet : Packet) : Socket σ :=
  { s with network := s.network ++ [packet] }

/-- `send_fin`. -/
def sendFin (s : Socket σ) : Socket σ := s.sendToNetwork (createFin s.tcb)

/-- `tcp_close`. -/
def tcpClose (s : Socket σ) : Socket σ :=
  if s.tcb.retransmissionQueue.isAnySegmentInQueue then s
  else
    let s := s.sendFin
    { s with tcb := s.tcb.changeState .finWait1 }

/-- The first packet that waits in the interface. -/
def peek (lib : SocketLib σ) (s : Socket σ) : Option AppPacket :=
  (lib.getPacketFromInterface s.sId false).1

/-- Whether a packet of the length fits the window, by the test of `send_segment`. The local
variable `seq` of the source always equals `SND.NXT`. -/
def fits (s : Socket σ) (l : UInt32) : Prop := s.tcb.snd.nxt + l ≤ s.tcb.snd.wnd + s.tcb.snd.una

instance (s : Socket σ) (l : UInt32) : Decidable (s.fits l) := inferInstanceAs (Decidable (_ ≤ _))

/-- A packet that fits is taken from the interface and sent. -/
def sendNext (lib : SocketLib σ) (now : ℚ) (s : Socket σ) (l : UInt32) : Socket σ :=
  match lib.getPacketFromInterface s.sId true with
  | (none, sId) => { s with sId := sId }
  | (some pt, sId) =>
    let packet := addTcpHdr s.tcb pt
    let t := { s.tcb with snd := { s.tcb.snd with nxt := s.tcb.snd.nxt + l } }
    sendToNetwork
      { s with
        sId := sId
        isAppClose := s.isAppClose || pt.appEndFlag
        tcb := t.addTimeoutEvent packet now }
      packet

/-- The loop of `send_segment`, for at most the given number of packets. -/
def sendLoop (lib : SocketLib σ) (now : ℚ) : ℕ → Socket σ → Socket σ
  | 0, s => s
  | n + 1, s =>
    match s.peek lib with
    | none => s
    | some p =>
      if s.fits (UInt32.ofNat p.packetSize) then
        sendLoop lib now n (s.sendNext lib now (UInt32.ofNat p.packetSize))
      else s

/-- What `send_segment` does before its loop: the application is waited for if no packet waits, and the
send window becomes the congestion window. -/
def openSendWindow (lib : SocketLib σ) (s : Socket σ) : Socket σ :=
  { s with
    waitFromApp := s.waitFromApp || (s.peek lib).isNone
    tcb := { s.tcb with snd := { s.tcb.snd with wnd := s.tcb.windowScaleGetCwnd } } }

/-- `send_segment`. Each round takes a packet from the interface, so as many rounds as packets wait
there are enough. -/
def sendSegment (lib : SocketLib σ) (now : ℚ) (s : Socket σ) : Socket σ :=
  let s := sendLoop lib now (lib.waiting s.sId).length (s.openSendWindow lib)
  if s.isAppClose then s.tcpClose else s

/-- `packet_arrive_from_application_layer`, for a socket that exists: the packets wait in its
interface. -/
def packetArriveFromApplicationLayer (lib : SocketLib σ) (now : ℚ) (s : Socket σ) : Socket σ :=
  if s.waitFromApp then { s.sendSegment lib now with waitFromApp := false } else s

/-- `resend_segment`, for the sequence number of the packet whose timer has expired. -/
def resendSegment (now : ℚ) (s : Socket σ) (seqNum : UInt32) : Socket σ :=
  match s.tcb.retransmissionQueue.getSegmentFromQueue seqNum with
  | (some p, q) =>
    let t := { s.tcb with retransmissionQueue := q }
    sendToNetwork { s with tcb := t.addTimeoutEvent p now } p
  | (none, _) => s

/-- `resend_segment_without_timeout`. -/
def resendSegmentWithoutTimeout (s : Socket σ) (seq : UInt32) : Socket σ :=
  match s.tcb.retransmissionQueue.getCopySegmentFromQueue seq with
  | none => s
  | some (p, isSacked) =>
    if s.tcb.isSackPermitted && isSacked then s
    else sendToNetwork { s with tcb := (s.tcb.setHighRxt seq).setRescueRxt seq } p

end Socket

end NetSim.Tcp
