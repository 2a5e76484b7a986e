import NetSim.Lib.Machine
import NetSim.Spec.Rlc

/-!
# The transmitting side of an RLC TM entity

SDUs of the three common channels wait in one buffer. A grant sends or drops every SDU
of its channel.
-/

namespace NetSim.Rlc

open Word

structure TmTx where
  transmissionBuffer : List BufferData
  bufferStatus : BufferStatus

namespace TmTx

def init : TmTx := ⟨[], .empty⟩

/-- `LTENR_RLC_TM_HandlePDUFromUpperLayer`. -/
def handlePduFromUpperLayer (tm : TmTx) (p : Packet) (ch : LogicalChannel) : TmTx :=
  { transmissionBuffer := addPacket tm.transmissionBuffer p 0 0 ch
    bufferStatus := tm.bufferStatus.add ch (ofInt32 p.mac.packetSize) }

/-- The loop of `LTENR_RLC_TM_SEND_PDU`: the buffer with its new marks, the bytes left, and
the PDUs sent. A user-plane SDU larger than what is left is marked without being sent. -/
def sendLoop (ch : LogicalChannel) : List BufferData → ℕ → List BufferData × ℕ × List Packet
  | [], left => ([], left, [])
  | b :: rest, left =>
    if b.channel ≠ ch then
      let r := sendLoop ch rest left
      (b :: r.1, r.2)
    else if b.packet.isUplane ∧ b.packet.mac.packetSize > left then
      let r := sendLoop ch rest left
      ({ b with isMarkedForRemoval := true } :: r.1, r.2)
    else
      let r := sendLoop ch rest (sub32 left b.size)
      ({ b with isMarkedForRemoval := true } :: r.1, r.2.1, b.packet :: r.2.2)

/-- `LTENR_RLC_TM_SEND_PDU`: the buffer status stays as it is. -/
def sendPdu (tm : TmTx) (size : ℕ) (ch : LogicalChannel) : TmTx × List Packet :=
  let r := sendLoop ch tm.transmissionBuffer size
  ({ tm with transmissionBuffer := updateBuffer r.1 }, r.2.2)

inductive Event
  | enqueue (p : Packet) (ch : LogicalChannel)
  | grant (size : ℕ) (ch : LogicalChannel)

/-- One event, for the channels that the mode lets pass. -/
def step (tm : TmTx) : Event → Option TmTx
  | .enqueue p ch => some (if ch.isForTm then tm.handlePduFromUpperLayer p ch else tm)
  | .grant size ch => some (if ch.isForTm then (tm.sendPdu size ch).1 else tm)

def machine : Machine TmTx Event := ⟨(· = init), step⟩

end TmTx

end NetSim.Rlc
