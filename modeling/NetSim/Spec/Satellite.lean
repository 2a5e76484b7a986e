import Mathlib.Algebra.Order.Field.Rat
import Mathlib.Data.Rat.Floor

/-!
# The buffers of a satellite link and the slots of a frame

`Satellite_buffer.c`. A linked list of packets is the list of its packets, an array of pointers the list of what they
point to, and a size in bytes a rational number. What is only printed is left out.
-/

namespace NetSim.Satellite

/-- What the scheduler reads of a packet, and its number. -/
structure Packet where
  packetId : ℕ
  payload : ℚ
deriving DecidableEq, Repr

/-- The terminal and the gateway of a buffer. There is one buffer for each pair. -/
structure Key where
  utId : ℕ
  utIf : ℕ
  gwId : ℕ
  gwIf : ℕ
deriving DecidableEq, Repr

/-- `SATELLITE_BUFFER`. -/
structure SatelliteBuffer where
  key : Key
  maxSizeInBytes : ℚ
  maxUnitSizeInBytes : ℚ
  sizeInBytes : ℚ
  count : ℕ
  packets : List Packet
  rank : ℚ
  slotReqd : UInt32
  allocatedSlotCount : UInt32
deriving DecidableEq, Repr

/-- `satellite_buffer_init`. -/
def satelliteBufferInit (key : Key) (sizeInBytes maxUnitSizeInBytes : ℚ) : SatelliteBuffer where
  key := key
  maxSizeInBytes := sizeInBytes
  maxUnitSizeInBytes := maxUnitSizeInBytes
  sizeInBytes := 0
  count := 0
  packets := []
  rank := 0
  slotReqd := 0
  allocatedSlotCount := 0

/-- `satellite_buffer_add_packet`, which frees a packet it does not take. -/
def satelliteBufferAddPacket (buffer : SatelliteBuffer) (packet : Packet) : SatelliteBuffer × Bool :=
  if buffer.maxUnitSizeInBytes < packet.payload then (buffer, false)
  else if buffer.sizeInBytes + packet.payload > buffer.maxSizeInBytes then (buffer, false)
  else
    ({ buffer with
        packets := buffer.packets ++ [packet]
        count := buffer.count + 1
        sizeInBytes := buffer.sizeInBytes + packet.payload }, true)

/-- The buffer without its first packet. -/
def dropHead (buffer : SatelliteBuffer) (head : Packet) (rest : List Packet) : SatelliteBuffer :=
  { buffer with packets := rest, sizeInBytes := buffer.sizeInBytes - head.payload, count := buffer.count - 1 }

/-- `satellite_buffer_remove_packet`. -/
def satelliteBufferRemovePacket (buffer : SatelliteBuffer) : Option Packet × SatelliteBuffer :=
  match buffer.packets with
  | [] => (none, buffer)
  | packet :: rest => (some packet, dropHead buffer packet rest)

/-- The buffers of a superframe, the bits of a slot and the slots of a frame. -/
structure Superframe where
  buffers : List SatelliteBuffer
  bitsPerSlot : UInt32
  slotCountInFrame : UInt32
deriving DecidableEq, Repr

/-- The packets of a frame. -/
structure Frame where
  packets : List Packet
deriving DecidableEq, Repr

/-- The cast of a `double` to `UINT`. -/
def castUint (x : ℚ) : UInt32 := UInt32.ofNat ⌊x⌋.toNat

/-- `calculate_slot_reqd_per_buffer`. The product is one of `UINT`. -/
def calculateSlotReqdPerBuffer (bitsPerSlot : UInt32) (buf : SatelliteBuffer) : SatelliteBuffer :=
  let bufbits : UInt32 := castUint buf.sizeInBytes * 8
  { buf with slotReqd := castUint ⌈(bufbits.toNat : ℚ) / bitsPerSlot.toNat⌉ }

/-- `calculate_slot_reqd`. -/
def calculateSlotReqd (sf : Superframe) : Superframe :=
  { sf with buffers := sf.buffers.map (calculateSlotReqdPerBuffer sf.bitsPerSlot) }

/-- The inner loop of `sort_buffer`: what is at its place after the exchanges, and what is behind it. -/
def sortPass (buffer : SatelliteBuffer) : List SatelliteBuffer → SatelliteBuffer × List SatelliteBuffer
  | [] => (buffer, [])
  | other :: l =>
    if other.rank > buffer.rank then
      let pass := sortPass other l
      (pass.1, buffer :: pass.2)
    else
      let pass := sortPass buffer l
      (pass.1, other :: pass.2)

/-- `sort_buffer`. -/
def sortBuffer : ℕ → List SatelliteBuffer → List SatelliteBuffer
  | 0, l => l
  | _ + 1, [] => []
  | count + 1, buffer :: l =>
    let pass := sortPass buffer l
    pass.1 :: sortBuffer count pass.2

/-- `init_buffer_rank`. -/
def initBufferRank (sf : Superframe) : Superframe :=
  { sf with
    buffers := sf.buffers.map fun buf =>
      { buf with rank := if buf.slotReqd ≠ 0 then buf.rank + 1 else buf.rank, allocatedSlotCount := 0 } }

/-- The loop of `allocate_slot_count`. -/
def allocateSlots : UInt32 → List SatelliteBuffer → List SatelliteBuffer
  | _, [] => []
  | slotCount, buf :: l =>
    let allocated := if buf.slotReqd < slotCount then buf.slotReqd else slotCount
    let slotCount := slotCount - allocated
    { buf with allocatedSlotCount := allocated } :: if slotCount = 0 then l else allocateSlots slotCount l

/-- `allocate_slot_count`. -/
def allocateSlotCount (sf : Superframe) : Superframe :=
  { sf with buffers := allocateSlots sf.slotCountInFrame sf.buffers }

/-- `calculate_slot_reqd_for_packet`. -/
def calculateSlotReqdForPacket (size : ℚ) (bitsPerSlot : UInt32) : UInt32 :=
  castUint ⌈size * 8 / bitsPerSlot.toNat⌉

/-- The inner loop of `schedule_packet`, with the slots that are left and at most so many packets. -/
def scheduleBuffer (bitsPerSlot : UInt32) : ℕ → UInt32 → SatelliteBuffer → Frame → SatelliteBuffer × Frame
  | 0, _, buf, fr => (buf, fr)
  | n + 1, slcount, buf, fr =>
    match buf.packets with
    | [] => (buf, fr)
    | h :: rest =>
      if slcount = 0 then (buf, fr)
      else
        let slreqd := calculateSlotReqdForPacket h.payload bitsPerSlot
        if slreqd > slcount then (buf, fr)
        else
          scheduleBuffer bitsPerSlot n (slcount - slreqd) (dropHead buf h rest) { fr with packets := fr.packets ++ [h] }

/-- The outer loop of `schedule_packet`. It ends at the first buffer without slots. -/
def scheduleBuffers (bitsPerSlot : UInt32) : List SatelliteBuffer → Frame → List SatelliteBuffer × Frame
  | [], fr => ([], fr)
  | buf :: l, fr =>
    if buf.allocatedSlotCount = 0 then (buf :: l, fr)
    else
      let served := scheduleBuffer bitsPerSlot buf.packets.length buf.allocatedSlotCount buf fr
      let others := scheduleBuffers bitsPerSlot l served.2
      (served.1 :: others.1, others.2)

/-- `schedule_packet`. -/
def schedulePacket (sf : Superframe) (fr : Frame) : Superframe × Frame :=
  let scheduled := scheduleBuffers sf.bitsPerSlot sf.buffers fr
  ({ sf with buffers := scheduled.1 }, scheduled.2)

/-- `update_rank`. -/
def updateRank (sf : Superframe) : Superframe :=
  { sf with
    buffers := sf.buffers.map fun buf =>
      { buf with rank := buf.rank - buf.allocatedSlotCount.toNat * 1 / sf.slotCountInFrame.toNat } }

/-- The superframe before its slots are allocated: `calculate_slot_reqd`, `init_buffer_rank` and `sort_buffer`. -/
def rankBuffers (sf : Superframe) : Superframe :=
  let sf := initBufferRank (calculateSlotReqd sf)
  { sf with buffers := sortBuffer sf.buffers.length sf.buffers }

/-- `satellite_allocate_slot`. -/
def satelliteAllocateSlot (sf : Superframe) (fr : Frame) : Superframe × Frame :=
  let scheduled := schedulePacket (allocateSlotCount (rankBuffers sf)) fr
  (updateRank scheduled.1, scheduled.2)

end NetSim.Satellite
