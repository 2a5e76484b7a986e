import Mathlib.Logic.Function.Basic
import Mathlib.Data.Finset.Insert
import Mathlib.Data.Fintype.Defs
import NetSim.Lib.Word

/-!
# RLC packets, buffers and the buffer status

What the three RLC modes share: logical channels, the sizes of a packet, the linked
list `LTENR_RLCBUFFER` as a list, and the array `bufferStatus`. Packet sizes are
doubles that hold integers; they are integers here, and a cast to `UINT` is `ofInt32`.
-/

namespace NetSim.Rlc

open Word

/-- `LTENR_LOGICALCHANNEL`. -/
inductive LogicalChannel
  | pcch
  | bcch
  | ccch
  | dcch
  | dtch
deriving DecidableEq, Repr

instance : Fintype LogicalChannel where
  elems := {.pcch, .bcch, .ccch, .dcch, .dtch}
  complete ch := by cases ch <;> decide

def LogicalChannel.isForTm : LogicalChannel → Bool
  | .bcch | .ccch | .pcch => true
  | _ => false

def LogicalChannel.isForUm : LogicalChannel → Bool
  | .dtch => true
  | _ => false

def LogicalChannel.isForAm : LogicalChannel → Bool
  | .dcch | .dtch => true
  | _ => false

/-- The segmentation information of a PDU. -/
inductive SI
  | all
  | first
  | last
  | middle
deriving DecidableEq, Repr

/-- Whether a PDU ends its SDU. -/
def SI.endsSdu : SI → Bool
  | .all | .last => true
  | _ => false

/-- `MIN_RLC_PDU_SIZE`, in bytes. -/
def minRlcPduSize : ℕ := 10

/-- The sizes in `pstruMacData`: `dPayload`, `dOverhead`, `dPacketSize`. -/
structure MacData where
  payload : ℤ
  overhead : ℕ
  packetSize : ℤ
deriving DecidableEq, Repr

/-- `LTENR_HDR_ADD_TO_PACKET` and `LTENR_HDR_FREE_FROM_PACKET` of the header library, with
the size of the header: they leave the payload as it is. -/
structure HdrLib where
  addToPacket : MacData → ℕ → MacData
  freeFromPacket : MacData → ℕ → MacData
  payload_add : ∀ m n, (addToPacket m n).payload = m.payload
  payload_free : ∀ m n, (freeFromPacket m n).payload = m.payload

/-- A header counts as overhead. -/
def HdrLib.overhead : HdrLib where
  addToPacket m n := ⟨m.payload, m.overhead + n, m.packetSize + n⟩
  freeFromPacket m n := ⟨m.payload, m.overhead - n, m.packetSize - n⟩
  payload_add _ _ := rfl
  payload_free _ _ := rfl

/-- `LTENR_RLCMSG_UMDHDR`. -/
structure UmdHdr where
  si : SI
  sn : ℕ
  so : ℕ
deriving DecidableEq, Repr

/-- The fields of a packet that RLC reads, and an identity of its SDU. -/
structure Packet where
  sdu : ℕ
  /-- `LTENR_IS_UPLANE_MSG`. -/
  isUplane : Bool
  mac : MacData
  umdHdr : Option UmdHdr
deriving DecidableEq, Repr

/-- An SDU of 100 bytes of user data. -/
def userSdu (n : ℕ) : Packet := ⟨n, true, ⟨100, 0, 100⟩, none⟩

/-- `LTENR_RLCBUFFER_DATA`. -/
structure BufferData where
  si : SI
  sn : ℕ
  so : ℕ
  retxCount : ℕ
  channel : LogicalChannel
  packet : Packet
  isMarkedForRemoval : Bool
  isFragmented : Bool
deriving DecidableEq, Repr

/-- `(UINT)packet->pstruMacData->dPacketSize` and `(UINT)packet->pstruMacData->dPayload`. -/
def BufferData.size (b : BufferData) : ℕ := ofInt32 b.packet.mac.packetSize
def BufferData.payload (b : BufferData) : ℕ := ofInt32 b.packet.mac.payload

/-- `LTENR_RLCBuffer_AddPacket`. -/
def addPacket (buffer : List BufferData) (p : Packet) (sn so : ℕ) (ch : LogicalChannel) :
    List BufferData :=
  buffer ++ [⟨.all, sn, so, 0, ch, p, false, false⟩]

/-- `LTENR_RLCBuffer_UpdateBuffer`: removes the marked entries in front of the first
unmarked one. -/
def updateBuffer (buffer : List BufferData) : List BufferData :=
  buffer.dropWhile (·.isMarkedForRemoval)

/-- `LTENR_RLCBUFFER_FindAndRemoveAllBySN`: the entries found, and the others. -/
def findAndRemoveAllBySN (buffer : List BufferData) (sn : ℕ) : List BufferData × List BufferData :=
  buffer.partition fun b => b.sn = sn

/-- `LTENR_RLCBUFFER_FindAndRemoveBySNSO`: the first entry found, and the others. -/
def findAndRemoveBySNSO (buffer : List BufferData) (sn so : ℕ) : List BufferData × List BufferData :=
  ((buffer.find? fun b => b.sn = sn ∧ b.so = so).toList,
    buffer.eraseP fun b => b.sn = sn ∧ b.so = so)

/-! ## Buffer status -/

/-- `bufferStatus`. `wrapped` is not in the source: it records that some subtraction took
more than was there. -/
structure BufferStatus where
  bytes : LogicalChannel → ℕ
  wrapped : Bool

namespace BufferStatus

def empty : BufferStatus := ⟨fun _ => 0, false⟩

/-- `bufferStatus[ch] += n`. -/
def add (s : BufferStatus) (ch : LogicalChannel) (n : ℕ) : BufferStatus :=
  ⟨Function.update s.bytes ch (u32 (s.bytes ch + n)), s.wrapped⟩

/-- `bufferStatus[ch] -= n`. -/
def sub (s : BufferStatus) (ch : LogicalChannel) (n : ℕ) : BufferStatus :=
  ⟨Function.update s.bytes ch (sub32 (s.bytes ch) n), s.wrapped || decide (s.bytes ch < n)⟩

/-- The guarded subtraction: 0 where `n` is more than is there. -/
def subOrZero (s : BufferStatus) (ch : LogicalChannel) (n : ℕ) : BufferStatus :=
  ⟨Function.update s.bytes ch (if s.bytes ch < n then 0 else s.bytes ch - n), s.wrapped⟩

end BufferStatus

end NetSim.Rlc
