import Mathlib.Data.Rat.Defs
import Mathlib.Data.List.Basic
import Mathlib.Tactic.Common

/-!
# TCP segments and queues

`NetSim_PACKET` as far as TCP reads it, and the queue helpers of the transmission control
block. Sequence numbers and sizes have the 32 bits that the source gives them. The sizes of a
packet are doubles that hold integers; they are natural numbers here.
-/

namespace NetSim.Tcp

/-- `SACKDATA`: the left edge belongs to the block, the right edge does not. -/
structure SackData where
  leftEdge : UInt32
  rightEdge : UInt32
deriving DecidableEq, Repr

/-- `TCP_SEGMENT_HDR`, with the blocks of its SACK option if it has one. -/
structure SegmentHdr where
  seqNum : UInt32
  ackNum : UInt32
  hdrLength : ℕ
  fin : Bool
  syn : Bool
  rst : Bool
  ack : Bool
  window : UInt16
  sack : Option (List SackData)
deriving DecidableEq, Repr

/-- The fields of a packet that TCP reads. -/
structure Packet where
  hdr : SegmentHdr
  /-- `dPayload` and `dPacketSize` of `pstruTransportData`. -/
  payload : ℕ
  packetSize : ℕ
  /-- `dPacketSize` and `nAppEndFlag` of `pstruAppData`. -/
  appData : Option (ℕ × Bool)
deriving DecidableEq, Repr

/-- `get_seg_len`. -/
def Packet.segLen (p : Packet) : UInt32 := if p.hdr.syn then 1 else UInt32.ofNat p.payload

/-- `Queueinfo`. -/
structure QueueInfo where
  packet : Packet
  time : ℚ
  isSacked : Bool
deriving DecidableEq, Repr

namespace QueueInfo

def seqNum (info : QueueInfo) : UInt32 := info.packet.hdr.seqNum

def segLen (info : QueueInfo) : UInt32 := info.packet.segLen

/-- `(UINT)packet->pstruTransportData->dPacketSize`. -/
def packetSize (info : QueueInfo) : UInt32 := UInt32.ofNat info.packet.packetSize

end QueueInfo

/-- `TCP_QUEUE`. If `isFreed`, the nodes have been freed and `queue` still points to the first of
them. -/
structure TcpQueue where
  size : UInt32
  queue : List QueueInfo
  isFreed : Bool
deriving DecidableEq, Repr

namespace TcpQueue

/-- The queue of a new control block. -/
def empty : TcpQueue := ⟨0, [], false⟩

/-- The place of a new node: in front of the first one whose sequence number is not smaller. -/
def insertNode (ninfo : QueueInfo) : List QueueInfo → List QueueInfo
  | [] => [ninfo]
  | info :: rest =>
    if info.seqNum < ninfo.seqNum then info :: insertNode ninfo rest else ninfo :: info :: rest

/-- `add_packet_to_queue`. -/
def addPacketToQueue (q : TcpQueue) (packet : Packet) (time : ℚ) : TcpQueue :=
  let ninfo : QueueInfo := ⟨packet, time, false⟩
  { q with queue := insertNode ninfo q.queue, size := q.size + ninfo.packetSize }

/-- `isSegmentInQueue`. -/
def isSegmentInQueue (q : TcpQueue) (packet : Packet) : Bool :=
  q.queue.any fun info => packet.hdr.seqNum = info.seqNum

/-- `get_segment_from_queue`: the first segment with the number is taken out. -/
def getSegmentFromQueue (q : TcpQueue) (seqNo : UInt32) : Option Packet × TcpQueue :=
  match q.queue.find? fun info => info.seqNum = seqNo with
  | some info =>
    (some info.packet,
      { q with size := q.size - info.packetSize, queue := q.queue.eraseP fun info => info.seqNum = seqNo })
  | none => (none, q)

/-- `get_earliest_segment_from_queue`. -/
def getEarliestSegmentFromQueue (q : TcpQueue) : Option Packet × TcpQueue :=
  match q.queue with
  | info :: rest => (some info.packet, { q with size := q.size - info.packetSize, queue := rest })
  | [] => (none, q)

/-- `get_copy_segment_from_queue`, with the SACK flag of the segment. -/
def getCopySegmentFromQueue (q : TcpQueue) (seqNo : UInt32) : Option (Packet × Bool) :=
  (q.queue.find? fun info => info.seqNum = seqNo).map fun info => (info.packet, info.isSacked)

/-- `delete_segment_from_queue`. -/
def deleteSegmentFromQueue (q : TcpQueue) (ackNo : UInt32) : TcpQueue :=
  let acked (info : QueueInfo) : Bool := info.seqNum + info.segLen ≤ ackNo
  { q with
    size := (q.queue.filter acked).foldl (fun size info => size - info.packetSize) q.size
    queue := q.queue.filter fun info => !acked info }

/-- `isAnySegmentInQueue`. -/
def isAnySegmentInQueue (q : TcpQueue) : Bool := q.size > 0

/-- `delete_all_segment_from_queue`, that is `free_queue`: the nodes are freed; the head and the size
are left as they are. -/
def deleteAllSegmentFromQueue (q : TcpQueue) : TcpQueue :=
  { q with isFreed := q.isFreed || !q.queue.isEmpty }

/-- `check_for_other_segment_to_send_from_queue`, with `RCV.NXT`. -/
def checkForOtherSegmentToSendFromQueue (q : TcpQueue) (rcvNxt : UInt32) : Option Packet × TcpQueue :=
  match q.queue with
  | info :: rest =>
    if info.seqNum < rcvNxt then
      (some info.packet, { q with size := q.size - info.packetSize, queue := rest })
    else (none, q)
  | [] => (none, q)

/-- `check_segment_in_queue`: `RCV.NXT` after one pass over the queue. -/
def checkSegmentInQueue (q : TcpQueue) (rcvNxt : UInt32) : UInt32 :=
  q.queue.foldl (fun nxt info => if info.seqNum = nxt then nxt + info.segLen else nxt) rcvNxt

/-- `get_RTT`, at the time of an event. -/
def getRtt (q : TcpQueue) (now : ℚ) (ackNo : UInt32) : ℚ :=
  match q.queue.find? fun info => info.seqNum + info.segLen = ackNo with
  | some info => now - info.time
  | none => 0

end TcpQueue

end NetSim.Tcp
