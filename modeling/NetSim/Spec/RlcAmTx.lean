import NetSim.Spec.Rlc

/-!
# The transmitting side of an RLC AM entity

Enqueueing, segmentation, the two send loops of a grant with the poll decision, the
poll-retransmit expiry, and the processing of a STATUS PDU.

The AMD header of an entry repeats its `si`, `SN` and `SO`, and its poll bit is only
ever set on the copy that is sent, so an entry carries no header of its own.
-/

namespace NetSim.Rlc

open Word

/-- `AM_Window_Size`. -/
def amWindowSize : ℕ := 0x800

/-- `LTENR_RLCMSG_AMDHDR_SIZE_NOSO` and `LTENR_RLCMSG_AMDHDR_SIZE_WITHSO`. -/
def amdHdrSizeNoSo : ℕ := 2
def amdHdrSizeWithSo : ℕ := 4

/-- `LTENR_RLCMSG_AMDHDR_SIZE`. -/
def amdHdrSize : SI → ℕ
  | .all => amdHdrSizeNoSo
  | _ => amdHdrSizeWithSo

/-- The configuration parameters of an entity. -/
structure AmConfig where
  maxRetxThreshold : ℕ
  pollPdu : ℕ
  pollByte : ℕ
deriving DecidableEq, Repr

/-- The parameters of the shipped configuration: `t1`, `p4` and `kB25`. -/
def AmConfig.shipped : AmConfig := ⟨1, 4, 25000⟩

/-- An AMD PDU as MAC gets it: the header fields and the sizes. -/
structure AmdPdu where
  p : Bool
  si : SI
  sn : ℕ
  so : ℕ
  mac : MacData
deriving DecidableEq, Repr

/-- An element of the NACK list of a STATUS PDU. -/
structure Nack where
  nackSn : ℕ
  e2 : Bool
  e3 : Bool
  soStart : ℕ
  soEnd : ℕ
  nackRange : ℕ
deriving DecidableEq, Repr

/-- `LTENR_RLCMSG_STATUSPDU`. -/
structure StatusPdu where
  ackSn : ℕ
  nacks : List Nack
deriving DecidableEq, Repr

/-- The transmitting side of `LTENR_RLCENTITY` in AM mode. -/
structure AmTx where
  txNextAck : ℕ
  txNext : ℕ
  pollSn : ℕ
  txHighestSn : ℕ
  pduWithoutPoll : ℕ
  byteWithoutPoll : ℕ
  isPollRetransmitTimerStarted : Bool
  transmissionBuffer : List BufferData
  transmittedBuffer : List BufferData
  retransmissionBuffer : List BufferData
  bufferStatus : BufferStatus

namespace AmTx

def init : AmTx := ⟨0, 0, 0, 0, 0, 0, false, [], [], [], .empty⟩

/-- `LTENR_RLCAM_Start_t_PollRetransmitTimer` and `LTENR_RLCAM_Stop_t_PollRetransmitTimer`. -/
def startPollRetransmitTimer (tx : AmTx) : AmTx := { tx with isPollRetransmitTimerStarted := true }
def stopPollRetransmitTimer (tx : AmTx) : AmTx := { tx with isPollRetransmitTimerStarted := false }

/-- `LTENR_RLCAM_IsSNFallsInTransmittingWindow`. -/
def isSnInTransmittingWindow (tx : AmTx) (sn : ℕ) : Bool :=
  tx.txNextAck ≤ sn ∧ sn < u32 (tx.txNextAck + amWindowSize)

/-- `LTENR_RLCAM_HandlePDUFromUpperLayer`. -/
def handlePduFromUpperLayer (tx : AmTx) (p : Packet) (ch : LogicalChannel) : AmTx :=
  { tx with
    transmissionBuffer := addPacket tx.transmissionBuffer p tx.txNext 0 ch
    txNext := u32 (tx.txNext + 1)
    bufferStatus := tx.bufferStatus.add ch (ofInt32 p.mac.packetSize) }

/-! ## Segmentation -/

/-- What `LTENR_RLC_AM_FRAGMENT_PACKET` takes from an entry: nothing, the whole of it, or a
segment, with the entry that is left. -/
inductive Fragment
  | none
  | whole (ret : BufferData)
  | cut (ret left : BufferData)
deriving DecidableEq, Repr

/-- `LTENR_RLC_AM_FRAGMENT_PACKET`. -/
def fragmentPacket (b : BufferData) (size : ℕ) : Fragment :=
  let m := b.packet.mac
  if size ≤ m.overhead + amdHdrSizeWithSo then .none
  else
    let size := size - (m.overhead + amdHdrSizeWithSo)
    if size < b.payload then
      let left : BufferData :=
        { b with
          si := .last
          so := if b.isFragmented then u16 (b.so + 1) else 1
          isFragmented := true
          packet := { b.packet with mac := ⟨m.payload - size, m.overhead, m.packetSize - size⟩ } }
      let ret : BufferData :=
        { si := if b.isFragmented then .middle else .first
          sn := b.sn
          so := if b.isFragmented then b.so else 0
          retxCount := 0
          channel := b.channel
          packet := { b.packet with mac := ⟨size, m.overhead, size + m.overhead⟩ }
          isMarkedForRemoval := false
          isFragmented := true }
      .cut ret left
    else .whole { b with si := if b.isFragmented then .last else .all }

/-! ## Sending -/

/-- The AMD PDU of an entry, without a poll. -/
def amdPdu (b : BufferData) : AmdPdu := ⟨false, b.si, b.sn, b.so, b.packet.mac⟩

/-- `LTENR_RLCMSG_AMHDR_ADD`. -/
def amHdrAdd (H : HdrLib) (b : BufferData) : BufferData :=
  { b with packet := { b.packet with mac := H.addToPacket b.packet.mac (amdHdrSize b.si) } }

/-- Whether the poll bit goes out with a PDU. The source also tests the two buffer
pointers for null, which they never are. -/
def isPollIncluded (cfg : AmConfig) (tx : AmTx) (pdu : AmdPdu) : Bool :=
  pdu.si.endsSdu && (u32 (tx.pduWithoutPoll + 1) ≥ cfg.pollPdu ||
    u32 (tx.byteWithoutPoll + ofInt32 pdu.mac.packetSize) ≥ cfg.pollByte)

/-- `LTENR_RLCAM_SendPDUToMac`: the entity, and the PDU as it is sent. -/
def sendPduToMac (cfg : AmConfig) (tx : AmTx) (pdu : AmdPdu) : AmTx × AmdPdu :=
  let poll := isPollIncluded cfg tx pdu
  let tx := { tx with
    txHighestSn := max tx.txHighestSn pdu.sn
    byteWithoutPoll := u32 (tx.byteWithoutPoll + ofInt32 pdu.mac.packetSize)
    pduWithoutPoll := if pdu.si.endsSdu then u32 (tx.pduWithoutPoll + 1) else tx.pduWithoutPoll }
  if poll then
    let tx := { tx with byteWithoutPoll := 0, pduWithoutPoll := 0, pollSn := tx.txHighestSn }
    let tx := if tx.isPollRetransmitTimerStarted then tx.stopPollRetransmitTimer else tx
    (tx.startPollRetransmitTimer, { pdu with p := true })
  else (tx, pdu)

/-- One call of `LTENR_RLCAM_SendPDUToMac`: the entity at the call, the PDU, and whether the
retransmission buffer still holds it. -/
structure MacCall where
  entity : AmTx
  pdu : AmdPdu
  isRetransmission : Bool

/-- The PDU that a call hands to MAC. -/
def MacCall.sent (cfg : AmConfig) (c : MacCall) : AmdPdu := (sendPduToMac cfg c.entity c.pdu).2

/-- The result of a send loop: the entity, the bytes left of the grant, and the calls made. -/
structure SendResult where
  tx : AmTx
  left : ℕ
  calls : List MacCall

/-- Sends an entry of the retransmission buffer, which becomes `buffer`. -/
def sendRetransmission (cfg : AmConfig) (ch : LogicalChannel) (tx : AmTx) (buffer : List BufferData)
    (b : BufferData) : AmTx × MacCall :=
  let tx := { tx with bufferStatus := tx.bufferStatus.subOrZero ch b.size }
  let call : MacCall := ⟨tx, amdPdu b, true⟩
  let tx := (sendPduToMac cfg tx (amdPdu b)).1
  ({ tx with
      retransmissionBuffer := buffer
      transmittedBuffer := tx.transmittedBuffer ++ [b] }, call)

/-- Sends what was taken from the transmission buffer, which becomes `buffer`. -/
def sendTransmission (H : HdrLib) (cfg : AmConfig) (ch : LogicalChannel) (tx : AmTx)
    (buffer : List BufferData) (ret : BufferData) : AmTx × MacCall :=
  let tx := { tx with
    transmissionBuffer := buffer
    bufferStatus := tx.bufferStatus.sub ch ret.payload }
  let ret := amHdrAdd H ret
  let call : MacCall := ⟨tx, amdPdu ret, false⟩
  let tx := (sendPduToMac cfg tx (amdPdu ret)).1
  ({ tx with transmittedBuffer := tx.transmittedBuffer ++ [ret] }, call)

/-- The loop of `LTENR_RLCAM_SendPDUFromRetransmissionBuffer`. The buffer is `kept`, the
entries passed over, followed by the entries still to visit. -/
def retransmissionLoop (cfg : AmConfig) (ch : LogicalChannel) (kept : List BufferData) :
    List BufferData → AmTx → ℕ → SendResult
  | [], tx, left => ⟨tx, left, []⟩
  | b :: rest, tx, left =>
    if b.channel ≠ ch then retransmissionLoop cfg ch (kept ++ [b]) rest tx left
    else if left < minRlcPduSize then ⟨tx, left, []⟩
    else if ¬ tx.isSnInTransmittingWindow b.sn then
      retransmissionLoop cfg ch (kept ++ [b]) rest tx left
    else if b.packet.mac.packetSize > left then
      retransmissionLoop cfg ch (kept ++ [b]) rest tx left
    else
      let t := sendRetransmission cfg ch tx (kept ++ rest) b
      let r := retransmissionLoop cfg ch kept rest t.1 (if left < b.size then 0 else left - b.size)
      ⟨r.tx, r.left, t.2 :: r.calls⟩

/-- The loop of `LTENR_RLCAM_SendPDUFromTransmissionBuffer`. After a segment is cut the source
visits the entry again with `left = dOverhead + 4`, for which nothing is cut
(`fragmentPacket_left`), and leaves the loop. -/
def transmissionLoop (H : HdrLib) (cfg : AmConfig) (ch : LogicalChannel) (kept : List BufferData) :
    List BufferData → AmTx → ℕ → SendResult
  | [], tx, left => ⟨tx, left, []⟩
  | b :: rest, tx, left =>
    if b.channel ≠ ch then transmissionLoop H cfg ch (kept ++ [b]) rest tx left
    else if left < minRlcPduSize then ⟨tx, left, []⟩
    else if ¬ tx.isSnInTransmittingWindow b.sn then
      transmissionLoop H cfg ch (kept ++ [b]) rest tx left
    else
      match fragmentPacket b left with
      | .none => ⟨tx, left, []⟩
      | .whole ret =>
        let t := sendTransmission H cfg ch tx (kept ++ rest) ret
        let r := transmissionLoop H cfg ch kept rest t.1 (sub32 left ret.payload)
        ⟨r.tx, r.left, t.2 :: r.calls⟩
      | .cut ret b =>
        let t := sendTransmission H cfg ch tx (kept ++ b :: rest) ret
        ⟨t.1, sub32 left ret.payload, [t.2]⟩

/-- `LTENR_RLCAM_SEND_PDU`, for a grant of `size` bytes. -/
def sendPdu (H : HdrLib) (cfg : AmConfig) (tx : AmTx) (size : ℕ) (ch : LogicalChannel) :
    AmTx × List MacCall :=
  let r := retransmissionLoop cfg ch [] tx.retransmissionBuffer tx size
  let sent := sub32 size r.left
  let t := transmissionLoop H cfg ch [] r.tx.transmissionBuffer r.tx (sub32 size sent)
  (t.tx, r.calls ++ t.calls)

/-- The return value of `LTENR_RLCAM_SEND_PDU`. -/
def sendPduReturn (H : HdrLib) (cfg : AmConfig) (tx : AmTx) (size : ℕ) (ch : LogicalChannel) : ℕ :=
  let r := retransmissionLoop cfg ch [] tx.retransmissionBuffer tx size
  let sent := sub32 size r.left
  let t := transmissionLoop H cfg ch [] r.tx.transmissionBuffer r.tx (sub32 size sent)
  u32 (sent + sub32 (sub32 size sent) t.left)

/-! ## Poll-retransmit expiry -/

/-- An entry whose retransmission count went up. -/
def countRetx (b : BufferData) : BufferData := { b with retxCount := u32 (b.retxCount + 1) }

/-- The entries that an expiry moves to the retransmission buffer. -/
def pollMoved (cfg : AmConfig) (tx : AmTx) : List BufferData :=
  ((tx.transmittedBuffer.filter fun b => b.sn ≤ tx.pollSn).map countRetx).filter
    fun b => ¬ b.retxCount > cfg.maxRetxThreshold

/-- `LTENR_RLCAM_Handle_t_PollRetransmitTimer`, an event that only a running timer has. -/
def handlePollRetransmitTimer (cfg : AmConfig) (tx : AmTx) : Option AmTx :=
  if tx.isPollRetransmitTimerStarted then
    let tx := tx.stopPollRetransmitTimer
    some { tx with
      transmittedBuffer := tx.transmittedBuffer.filter fun b => ¬ b.sn ≤ tx.pollSn
      retransmissionBuffer := tx.retransmissionBuffer ++ tx.pollMoved cfg
      bufferStatus := (tx.pollMoved cfg).foldl (fun s b => s.add b.channel b.size) tx.bufferStatus }
  else none

/-! ## STATUS PDUs -/

/-- `LTENR_RLCAM_STATUSPDU_FindSN`. -/
def statusPduFindSn (pdu : StatusPdu) (sn : ℕ) : Bool := pdu.nacks.any fun n => n.nackSn = sn

/-- `LTENR_RLCAM_MovePacketFromTransmittedBuffer`. -/
def movePacketFromTransmittedBuffer (cfg : AmConfig) (tx : AmTx) (b : BufferData) : AmTx :=
  if b.retxCount = cfg.maxRetxThreshold then tx
  else { tx with
    retransmissionBuffer := tx.retransmissionBuffer ++ [countRetx b]
    bufferStatus := tx.bufferStatus.add b.channel b.payload }

/-- The entries found by a loop of removals, and the others. -/
def findAndRemoveAll (find : List BufferData → ℕ → List BufferData × List BufferData) :
    List ℕ → List BufferData → List BufferData × List BufferData
  | [], buffer => ([], buffer)
  | k :: ks, buffer =>
    let r := find buffer k
    let s := findAndRemoveAll find ks r.2
    (r.1 ++ s.1, s.2)

/-- The entries that one NACK takes out of the transmitted buffer, and the others:
`LTENR_RLCAM_UpdateBufferBasedOnNACK2`, `..NACK1` and `..NACK0`. The loop counters are 32 and
16 bits wide, so a loop up to the largest value does not end. -/
def nackFind (n : Nack) (buffer : List BufferData) : Option (List BufferData × List BufferData) :=
  if n.e3 then
    let last := u32 (n.nackSn + n.nackRange)
    if last = 4294967295 then none
    else some (findAndRemoveAll findAndRemoveAllBySN (List.range' n.nackSn (last + 1 - n.nackSn)) buffer)
  else if n.e2 then
    if n.soEnd = 65535 then none
    else some (findAndRemoveAll (fun l so => findAndRemoveBySNSO l n.nackSn so)
      (List.range' n.soStart (n.soEnd + 1 - n.soStart)) buffer)
  else some (findAndRemoveAllBySN buffer n.nackSn)

/-- What the NACKs of a list take out of the transmitted buffer, one after the other. -/
def nackFindAll : List Nack → List BufferData → Option (List BufferData × List BufferData)
  | [], buffer => some ([], buffer)
  | n :: ns, buffer => do
    let r ← nackFind n buffer
    let s ← nackFindAll ns r.2
    return (r.1 ++ s.1, s.2)

/-- `LTENR_RLCAM_ReceiveStatusPDU`. -/
def receiveStatusPdu (cfg : AmConfig) (tx : AmTx) (pdu : StatusPdu) : Option AmTx := do
  let tx :=
    if statusPduFindSn pdu tx.pollSn && tx.isPollRetransmitTimerStarted then
      tx.stopPollRetransmitTimer.startPollRetransmitTimer
    else tx
  let r ← nackFindAll pdu.nacks tx.transmittedBuffer
  let tx := r.1.foldl (movePacketFromTransmittedBuffer cfg) { tx with transmittedBuffer := r.2 }
  -- `LTENR_RLCAM_ClearTransmittedBuffer`
  let tx := { tx with transmittedBuffer := tx.transmittedBuffer.filter fun b => ¬ b.sn < pdu.ackSn }
  let tx := { tx with
    txNextAck :=
      match tx.transmissionBuffer with
      | b :: _ => b.sn
      | [] => tx.txNext }
  return if tx.pollSn < pdu.ackSn then tx.stopPollRetransmitTimer else tx

/-- The entries that a STATUS PDU clears as acknowledged. -/
def cleared (tx : AmTx) (pdu : StatusPdu) : Option (List BufferData) :=
  (nackFindAll pdu.nacks tx.transmittedBuffer).map fun r => r.2.filter fun b => b.sn < pdu.ackSn

/-! ## Events -/

inductive Event
  | enqueue (p : Packet) (ch : LogicalChannel)
  | grant (size : ℕ) (ch : LogicalChannel)
  | pollRetransmit
  | status (pdu : StatusPdu)

/-- The calls of `LTENR_RLCAM_SendPDUToMac` that a grant makes. -/
def grantCalls (H : HdrLib) (cfg : AmConfig) (tx : AmTx) (size : ℕ) (ch : LogicalChannel) :
    List MacCall :=
  if ch.isForAm then (tx.sendPdu H cfg size ch).2 else []

/-- One event of a transmitting entity. `LTENR_RLC_VALIDATE_PDU` and
`fn_NetSim_LTENR_RLC_TransmissionStatusNotification` let only the channels of the mode pass. -/
def step (H : HdrLib) (cfg : AmConfig) (tx : AmTx) : Event → Option AmTx
  | .enqueue p ch => some (if ch.isForAm then tx.handlePduFromUpperLayer p ch else tx)
  | .grant size ch => some (if ch.isForAm then (tx.sendPdu H cfg size ch).1 else tx)
  | .pollRetransmit => tx.handlePollRetransmitTimer cfg
  | .status pdu => tx.receiveStatusPdu cfg pdu

end AmTx

end NetSim.Rlc
