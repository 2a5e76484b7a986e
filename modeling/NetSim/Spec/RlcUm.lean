import NetSim.Lib.Machine
import NetSim.Spec.Rlc

/-!
# RLC UM entities

The transmitting side numbers the segments of an SDU with `TX_Next`; the receiving side
collects the segments of one SN and reassembles them. `UmPair` puts the two together
over a channel that may lose, repeat and reorder.
-/

namespace NetSim.Rlc

open Word

/-- `UM_Window_Size`. -/
def umWindowSize : ℕ := 0x20

/-- `LTENR_RLCMSG_UMDHDR_SIZE`. -/
def umdHdrSize : SI → ℕ
  | .all => 1
  | .first => 1
  | _ => 3

/-! ## The transmitting side -/

structure UmTx where
  txNext : ℕ
  transmissionBuffer : List BufferData
  bufferStatus : BufferStatus

/-- A UMD PDU as MAC gets it, with the SDU that it is part of. -/
structure UmdPdu where
  sdu : ℕ
  hdr : UmdHdr
  mac : MacData
deriving DecidableEq, Repr

namespace UmTx

def init : UmTx := ⟨0, [], .empty⟩

/-- `LTENR_RLC_UM_HandlePDUFromUpperLayer`. -/
def handlePduFromUpperLayer (um : UmTx) (p : Packet) (ch : LogicalChannel) : UmTx :=
  { um with
    transmissionBuffer := addPacket um.transmissionBuffer p 0 0 ch
    bufferStatus := um.bufferStatus.add ch (ofInt32 p.mac.payload) }

/-- `LTENR_RLCMSG_UMDHDR_REMOVE`, on the sizes. -/
def umdHdrRemove (H : HdrLib) (p : Packet) : MacData :=
  match p.umdHdr with
  | none => p.mac
  | some hdr => H.freeFromPacket p.mac (umdHdrSize hdr.si)

/-- `LTENR_RLCMSG_UMHDR_ADD`. -/
def umdHdrAdd (H : HdrLib) (p : Packet) (m : MacData) (hdr : UmdHdr) : Packet :=
  { p with mac := H.addToPacket m (umdHdrSize hdr.si), umdHdr := some hdr }

/-- The PDU that a packet with header `hdr` makes. -/
def umdPdu (p : Packet) (hdr : UmdHdr) : UmdPdu := ⟨p.sdu, hdr, p.mac⟩

/-- `LTENR_RLC_UM_FRAGMENT_PACKET`: the segment of `size` bytes, and the packet left. -/
def fragmentPacket (H : HdrLib) (p : Packet) (size sn : ℕ) : UmdPdu × Packet :=
  let so := match p.umdHdr with
    | some hdr => hdr.so
    | none => 0
  let si := match p.umdHdr with
    | some _ => SI.middle
    | none => SI.first
  let m := umdHdrRemove H p
  let ret := umdHdrAdd H p ⟨size, m.overhead, size + m.overhead⟩ ⟨si, sn, so⟩
  let left := umdHdrAdd H p ⟨m.payload - size, m.overhead, m.packetSize - size⟩ ⟨.middle, sn, u16 (so + 1)⟩
  (umdPdu ret ⟨si, sn, so⟩, left)

/-- `LTENR_RLC_UM_ADD_HDR`: the packet, its PDU, and the SN as an `int`, or -1 for an SDU that
was never cut. -/
def addHdr (H : HdrLib) (p : Packet) : Packet × UmdPdu × ℤ :=
  let hdr : UmdHdr := match p.umdHdr with
    | some hdr => ⟨.last, hdr.sn, hdr.so⟩
    | none => ⟨.all, 0, 0⟩
  let ret := match p.umdHdr with
    | some hdr => int32 hdr.sn
    | none => -1
  let q := umdHdrAdd H p (umdHdrRemove H p) hdr
  (q, umdPdu q hdr, ret)

/-- Takes the payload of a PDU that goes out off the buffer status. -/
def account (um : UmTx) (ch : LogicalChannel) (pdu : UmdPdu) : UmTx :=
  { um with bufferStatus := um.bufferStatus.sub ch (ofInt32 pdu.mac.payload) }

/-- The loop of `LTENR_RLC_UM_SEND_PDU`. The buffer is `done`, the entries passed, followed by
the entries still to visit. A cut uses up the whole grant, and the source then leaves the
loop with `left = 0`. -/
def sendLoop (H : HdrLib) (ch : LogicalChannel) (done : List BufferData) :
    List BufferData → UmTx → ℕ → UmTx × List UmdPdu
  | [], um, _ => ({ um with transmissionBuffer := done }, [])
  | b :: rest, um, left =>
    if b.channel ≠ ch then sendLoop H ch (done ++ [b]) rest um left
    else if left < minRlcPduSize then ({ um with transmissionBuffer := done ++ b :: rest }, [])
    else if b.packet.isUplane ∧ b.packet.mac.packetSize > left then
      let r := fragmentPacket H b.packet left um.txNext
      ({ um.account ch r.1 with
          transmissionBuffer := done ++ { b with packet := r.2 } :: rest }, [r.1])
    else
      let r := addHdr H b.packet
      let um := if r.2.2 ≠ -1 then { um with txNext := u32 (um.txNext + 1) } else um
      let b := { b with packet := r.1, isMarkedForRemoval := true }
      let s := sendLoop H ch (done ++ [b]) rest (um.account ch r.2.1)
        (sub32 left (ofInt32 r.2.1.mac.payload))
      (s.1, r.2.1 :: s.2)

/-- `LTENR_RLC_UM_SEND_PDU`. -/
def sendPdu (H : HdrLib) (um : UmTx) (size : ℕ) (ch : LogicalChannel) : UmTx × List UmdPdu :=
  let r := sendLoop H ch [] um.transmissionBuffer um size
  ({ r.1 with transmissionBuffer := updateBuffer r.1.transmissionBuffer }, r.2)

inductive Event
  | enqueue (p : Packet) (ch : LogicalChannel)
  | grant (size : ℕ) (ch : LogicalChannel)

/-- One event, for the channel that the mode lets pass. What comes from the upper layer has
no UMD header. -/
def step (H : HdrLib) (um : UmTx) : Event → Option UmTx
  | .enqueue p ch => some (if ch.isForUm then um.handlePduFromUpperLayer { p with umdHdr := none } ch else um)
  | .grant size ch => some (if ch.isForUm then (um.sendPdu H size ch).1 else um)

def machine (H : HdrLib) : Machine UmTx Event := ⟨(· = init), step H⟩

end UmTx

/-! ## The receiving side -/

/-- `LTENR_RLC_RECEPTIONBUFFER` in UM mode. -/
structure UmReceptionBuffer where
  sn : ℕ
  lastSduSo : ℕ
  isLastSduReceived : Bool
  packets : List UmdPdu
deriving DecidableEq, Repr

structure UmRx where
  rxTimerTrigger : ℕ
  rxNextReassembly : ℕ
  rxNextHighest : ℕ
  receptionBuffer : List UmReceptionBuffer
  isReassemblyTimerStarted : Bool
deriving DecidableEq, Repr

namespace UmReceptionBuffer

/-- `LTENR_RLC_UM_AddToReceptionBuffer`. -/
def add (buf : UmReceptionBuffer) (pdu : UmdPdu) : UmReceptionBuffer :=
  let buf := { buf with packets := buf.packets ++ [pdu] }
  if pdu.hdr.si = .last then { buf with isLastSduReceived := true, lastSduSo := pdu.hdr.so } else buf

/-- `LTENR_RLC_UM_isAllByteSegmentReceived`. It asserts that no SO is beyond the last. -/
def isAllByteSegmentReceived (buf : UmReceptionBuffer) : Option Bool :=
  if ¬ buf.isLastSduReceived then some false
  else if buf.packets.any fun p => p.hdr.so > buf.lastSduSo then none
  else some ((List.range buf.lastSduSo).all fun i => buf.packets.any fun p => p.hdr.so = i)

end UmReceptionBuffer

/-- Puts `pdu` into the buffer of its SN, which is created at the end if there is none. The
buffer that got it comes first. -/
def umPlaceIn (pdu : UmdPdu) : List UmReceptionBuffer → UmReceptionBuffer × List UmReceptionBuffer
  | [] =>
    let buf := (⟨pdu.hdr.sn, 0, false, []⟩ : UmReceptionBuffer).add pdu
    (buf, [buf])
  | b :: bs =>
    if b.sn = pdu.hdr.sn then (b.add pdu, b.add pdu :: bs)
    else
      let r := umPlaceIn pdu bs
      (r.1, b :: r.2)

namespace UmRx

def init : UmRx := ⟨0, 0, 0, [], false⟩

/-- `LTENR_RLC_UM_IsSNFallsInReassemblyWindows`. -/
def isSnInReassemblyWindow (rx : UmRx) (sn : ℕ) : Bool :=
  sub32 rx.rxNextHighest umWindowSize ≤ sn ∧ sn < rx.rxNextHighest

/-- `LTENR_RLC_UM_isAllBytesReceivedForSN`. -/
def isAllBytesReceivedForSn (rx : UmRx) (sn : ℕ) : Option Bool :=
  match rx.receptionBuffer.find? fun b => b.sn = sn with
  | none => some true
  | some b => b.isAllByteSegmentReceived

/-- `LTENR_RLC_UM_NextRXReassembly`. The loop does not advance: it only ends at the first
buffer, or when there is none. -/
def nextRxReassembly (rx : UmRx) : Option ℕ :=
  match rx.receptionBuffer with
  | [] => some 0
  | b :: _ => if b.sn ≥ sub32 rx.rxNextHighest umWindowSize then some b.sn else none

/-- `LTENR_RLC_UM_UpdateRXNextReassembly`. -/
def updateRxNextReassembly (rx : UmRx) : UmRx :=
  match rx.receptionBuffer.find? fun b => b.sn > rx.rxNextReassembly with
  | none => rx
  | some b => { rx with rxNextReassembly := b.sn }

/-- `LTENR_RLC_UM_PLACE_UMDPDU_IN_RECEPTIONBUFFER`, with the segments that
`LTENR_RLC_UM_ReassembleAllBytes` joins. -/
def placeUmdPduInReceptionBuffer (rx : UmRx) (pdu : UmdPdu) : Option (UmRx × List (List UmdPdu)) := do
  let r := umPlaceIn pdu rx.receptionBuffer
  let all ← r.1.isAllByteSegmentReceived
  if all then
    let rx := { rx with receptionBuffer := r.2.eraseP fun b => b.sn = pdu.hdr.sn }
    return (if pdu.hdr.sn = rx.rxNextReassembly then rx.updateRxNextReassembly else rx, [r.1.packets])
  else return ({ rx with receptionBuffer := r.2 }, [])

/-- Whether something below `RX_Next_Highest` is still missing. -/
def isReassemblyPending (rx : UmRx) : Option Bool :=
  if rx.rxNextHighest > u32 (rx.rxNextReassembly + 1) then some true
  else if rx.rxNextHighest = u32 (rx.rxNextReassembly + 1) then
    (rx.isAllBytesReceivedForSn rx.rxNextReassembly).map fun all => !all
  else some false

/-- `LTENR_RLC_UM_Start_t_ReassemblyTimer`, with the trigger that each caller sets. -/
def startReassemblyTimer (rx : UmRx) : UmRx :=
  { rx with isReassemblyTimerStarted := true, rxTimerTrigger := rx.rxNextHighest }

/-- Drops a PDU whose SN is in the reassembly window, which the source takes for outside of
it, and places any other. -/
def dropOrPlace (rx : UmRx) (pdu : UmdPdu) : Option (UmRx × List (List UmdPdu)) :=
  if rx.isSnInReassemblyWindow pdu.hdr.sn then
    let rx := { rx with rxNextHighest := u32 (pdu.hdr.sn + 1) }
    if rx.isSnInReassemblyWindow rx.rxNextReassembly then
      rx.nextRxReassembly.map fun next => ({ rx with rxNextReassembly := next }, [])
    else some (rx, [])
  else rx.placeUmdPduInReceptionBuffer pdu

/-- Starts the reassembly timer if it is needed. A running timer is at most restarted. -/
def updateReassemblyTimer (rx : UmRx) : Option UmRx :=
  if rx.isReassemblyTimerStarted then some rx
  else rx.isReassemblyPending.map fun pending => if pending then rx.startReassemblyTimer else rx

/-- `LTENR_RLC_UM_RECEIVE_PDU_WITH_SN`. -/
def receivePduWithSn (rx : UmRx) (pdu : UmdPdu) : Option (UmRx × List (List UmdPdu)) := do
  let r ← rx.dropOrPlace pdu
  let rx ← r.1.updateReassemblyTimer
  return (rx, r.2)

/-- `LTENR_RLC_UM_RECEIVE_PDU`: what is handed to PDCP is a list of joined segments. -/
def receivePdu (rx : UmRx) (pdu : UmdPdu) : Option (UmRx × List (List UmdPdu)) :=
  if pdu.hdr.si = .all then some (rx, [[pdu]]) else rx.receivePduWithSn pdu

/-- `LTENR_RLC_UM_Handle_t_reassemblyTimer`, which leaves the timer flag set. -/
def handleReassemblyTimer (rx : UmRx) : Option UmRx :=
  if rx.isReassemblyTimerStarted then do
    -- `LTENR_RLC_UM_ReceptionBuffer_FindSN`
    let next := match rx.receptionBuffer.find? fun b => b.sn ≥ rx.rxTimerTrigger with
      | none => 0
      | some b => b.sn
    let rx := { rx with
      rxNextReassembly := next
      receptionBuffer := rx.receptionBuffer.filter fun b => ¬ b.sn < next }
    let pending ← rx.isReassemblyPending
    return if pending then rx.startReassemblyTimer else rx
  else none

end UmRx

/-! ## A pair of entities -/

/-- A transmitting entity and its peer, the number of SDUs enqueued, the PDUs sent, and what
the peer handed to PDCP. -/
structure UmPair where
  tx : UmTx
  rx : UmRx
  enqueued : ℕ
  sent : List UmdPdu
  delivered : List (List UmdPdu)

inductive UmEvent
  | enqueue (isUplane : Bool) (mac : MacData) (ch : LogicalChannel)
  | grant (size : ℕ) (ch : LogicalChannel)
  /-- The `i`-th PDU sent arrives. -/
  | arrives (i : ℕ)
  | reassembly

namespace UmPair

def init : UmPair := ⟨.init, .init, 0, [], []⟩

/-- The PDUs that a grant sends. -/
def granted (H : HdrLib) (s : UmPair) (size : ℕ) (ch : LogicalChannel) : List UmdPdu :=
  if ch.isForUm then (s.tx.sendPdu H size ch).2 else []

/-- One event. The SDUs are numbered as they are enqueued. -/
def step (H : HdrLib) (s : UmPair) : UmEvent → Option UmPair
  | .enqueue isUplane mac ch => (s.tx.step H (.enqueue ⟨s.enqueued, isUplane, mac, none⟩ ch)).map fun tx =>
      { s with tx := tx, enqueued := s.enqueued + 1 }
  | .grant size ch => (s.tx.step H (.grant size ch)).map fun tx =>
      { s with tx := tx, sent := s.sent ++ s.granted H size ch }
  | .arrives i => do
    let pdu ← s.sent[i]?
    let r ← s.rx.receivePdu pdu
    return { s with rx := r.1, delivered := s.delivered ++ r.2 }
  | .reassembly => s.rx.handleReassemblyTimer.map fun rx => { s with rx := rx }

def machine (H : HdrLib) : Machine UmPair UmEvent := ⟨(· = init), step H⟩

end UmPair

end NetSim.Rlc
