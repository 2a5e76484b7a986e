import Mathlib.Logic.Function.Basic
import NetSim.Spec.Rlc

/-!
# The transfer of a UE's entities at a handover

`generateHandoverCommandHandle` establishes the PDCP and RLC entities between the UE and the
target, moves the buffers of the entities between the UE and the source over to them, and
removes the latter. The entities of all gNBs and UEs are kept in two maps; the timers that run
are a list of events, each with the entity it will be handed to.

The content of a packet is a parameter, its transmitter and its receiver are what the transfer
changes. A buffer pointer that was set to null is an empty buffer.
-/

namespace NetSim.Transfer

open Rlc (SI LogicalChannel)

/-- `LTENR_RLCMODE`. -/
inductive RlcMode
  | tm
  | um
  | am
deriving DecidableEq, Repr

/-- The device whose stack an entity is part of. -/
inductive Side
  | gnb
  | ue
deriving DecidableEq, Repr

/-- A PDCP entity, as `LTENR_PDCP_FindEntity` looks it up in the list of a gNB or of a UE. -/
structure PdcpKey where
  side : Side
  enbId : ℕ
  enbIf : ℕ
  ueId : ℕ
  ueIf : ℕ
  rlcMode : RlcMode
deriving DecidableEq, Repr

/-- An RLC entity, as `LTENR_RLC_FINDENTITY` looks it up. -/
structure RlcKey where
  d : ℕ
  dIf : ℕ
  peerId : ℕ
  peerIf : ℕ
  rlcMode : RlcMode
  isTransmitting : Bool
  isReceiving : Bool
deriving DecidableEq, Repr

variable {α : Type*}

/-- `NetSim_PACKET`, with the two devices of its current hop. -/
structure Packet (α : Type*) where
  content : α
  nTransmitterId : ℕ
  nReceiverId : ℕ
deriving DecidableEq, Repr

namespace Packet

def setTransmitter (id : ℕ) (p : Packet α) : Packet α := { p with nTransmitterId := id }
def setReceiver (id : ℕ) (p : Packet α) : Packet α := { p with nReceiverId := id }

@[simp] theorem content_setTransmitter (id : ℕ) (p : Packet α) :
    (p.setTransmitter id).content = p.content := rfl
@[simp] theorem content_setReceiver (id : ℕ) (p : Packet α) :
    (p.setReceiver id).content = p.content := rfl
@[simp] theorem nTransmitterId_setTransmitter (id : ℕ) (p : Packet α) :
    (p.setTransmitter id).nTransmitterId = id := rfl
@[simp] theorem nReceiverId_setTransmitter (id : ℕ) (p : Packet α) :
    (p.setTransmitter id).nReceiverId = p.nReceiverId := rfl
@[simp] theorem nTransmitterId_setReceiver (id : ℕ) (p : Packet α) :
    (p.setReceiver id).nTransmitterId = p.nTransmitterId := rfl
@[simp] theorem nReceiverId_setReceiver (id : ℕ) (p : Packet α) :
    (p.setReceiver id).nReceiverId = id := rfl

end Packet

/-- `LTENR_BUFFEREDPACKET`, with the packets chained to it and the COUNT in `optionalInfo`. -/
structure BufferedPacket (α : Type*) where
  packets : List (Packet α)
  count : Option ℕ
deriving DecidableEq, Repr

/-- A timer of an entity: the id of its event and the flag that it was started. -/
structure TimerVar where
  id : ℕ
  isStarted : Bool
deriving DecidableEq, Repr

/-- `calloc`. -/
def TimerVar.zero : TimerVar := ⟨0, false⟩

/-- `LTENR_PDCPENTITY`. -/
structure PdcpEntity (α : Type*) where
  transmissionBuffer : List (BufferedPacket α)
  receiveBuffer : List (BufferedPacket α)
  txNext : ℕ
  lastRecvCount : ℕ
  rxDeliv : ℕ
  rxNext : ℕ
  rxReord : ℕ
  discardTimer : TimerVar
  tReordering : TimerVar
deriving DecidableEq, Repr

/-- `LTENR_PDCP_CreateNewEntity`. -/
def PdcpEntity.new : PdcpEntity α := ⟨[], [], 0, 0, 0, 0, 0, .zero, .zero⟩

/-- `LTENR_RLCBUFFER_DATA`. -/
structure BufferData (α : Type*) where
  si : SI
  sn : ℕ
  so : ℕ
  retxCount : ℕ
  channel : LogicalChannel
  packet : Packet α
  isMarkedForRemoval : Bool
  isFragmented : Bool
deriving DecidableEq, Repr

/-- `LTENR_RLC_RECEPTIONBUFFER`: the PDUs received of one SN. -/
structure ReceptionBuffer (α : Type*) where
  reassembleCount : ℕ
  sn : ℕ
  lastSduSo : ℕ
  isLastSduReceived : Bool
  packets : List (Packet α)
deriving DecidableEq, Repr

/-- `LTENR_RLCAM_StateVariables_Constants`. -/
structure AmVars (α : Type*) where
  txNextAck : ℕ
  txNext : ℕ
  pollSn : ℕ
  txHighestSn : ℕ
  pduWithoutPoll : ℕ
  byteWithoutPoll : ℕ
  rxNext : ℕ
  rxNextStatusTrigger : ℕ
  rxHighestStatus : ℕ
  rxNextHighest : ℕ
  receptionBuffer : List (ReceptionBuffer α)
  isStatusReportDelayed : Bool
  isConstructStatusReortDelayed : Bool
  recvdInfo : List (SI × ℕ × ℕ)
deriving DecidableEq, Repr

/-- `LTENR_RLCUM_StateVariables_Constants`. -/
structure UmVars (α : Type*) where
  txNext : ℕ
  rxTimerTrigger : ℕ
  rxNextReassembly : ℕ
  rxNextHighest : ℕ
  receptionBuffer : List (ReceptionBuffer α)
deriving DecidableEq, Repr

/-- `LTENR_RLCENTITY`. -/
structure RlcEntity (α : Type*) where
  am : AmVars α
  um : UmVars α
  transmissionBuffer : List (BufferData α)
  transmittedBuffer : List (BufferData α)
  retransmissionBuffer : List (BufferData α)
  bufferStatus : LogicalChannel → ℕ
  pollRetransmit : TimerVar
  reassembly : TimerVar
  statusProhibit : TimerVar

/-- The entity that `LTENR_RLC_ESTABLISHENTITY` allocates. -/
def RlcEntity.new : RlcEntity α where
  am := ⟨0, 0, 0, 0, 0, 0, 0, 0, 0, 0, [], false, false, []⟩
  um := ⟨0, 0, 0, 0, []⟩
  transmissionBuffer := []
  transmittedBuffer := []
  retransmissionBuffer := []
  bufferStatus := fun _ => 0
  pollRetransmit := .zero
  reassembly := .zero
  statusProhibit := .zero

/-! ## Timers -/

/-- The timer events of PDCP and RLC. -/
inductive Timer
  | pdcpDiscard
  | pdcpTReordering
  | rlcTReassembly
  | rlcTPollRetransmit
  | rlcTStatusProhibit
deriving DecidableEq, Repr

/-- `szOtherDetails` of a timer event. -/
inductive EntityRef
  | pdcp (k : PdcpKey)
  | rlc (k : RlcKey)
deriving DecidableEq, Repr

structure TimerEvent where
  id : ℕ
  timer : Timer
  entity : EntityRef
deriving DecidableEq, Repr

/-- The entities of all devices, and the events that are scheduled. -/
structure Network (α : Type*) where
  pdcp : PdcpKey → Option (PdcpEntity α)
  rlc : RlcKey → Option (RlcEntity α)
  events : List TimerEvent
  nextEventId : ℕ

namespace Network

/-- `fnpAddEvent`. -/
def addEvent (timer : Timer) (entity : EntityRef) (s : Network α) : Network α :=
  { s with events := s.events ++ [⟨s.nextEventId, timer, entity⟩], nextEventId := s.nextEventId + 1 }

/-- `fnDeleteEvent`. -/
def deleteEvent (id : ℕ) (s : Network α) : Network α :=
  { s with events := s.events.filter fun e => e.id ≠ id }

/-- Writes to an entity that is there. -/
def modifyPdcp (k : PdcpKey) (f : PdcpEntity α → PdcpEntity α) (s : Network α) : Network α :=
  { s with pdcp := Function.update s.pdcp k ((s.pdcp k).map f) }

def modifyRlc (k : RlcKey) (f : RlcEntity α → RlcEntity α) (s : Network α) : Network α :=
  { s with rlc := Function.update s.rlc k ((s.rlc k).map f) }

section

variable (s : Network α)

@[simp] theorem addEvent_pdcp (timer : Timer) (x : EntityRef) : (s.addEvent timer x).pdcp = s.pdcp := rfl
@[simp] theorem addEvent_rlc (timer : Timer) (x : EntityRef) : (s.addEvent timer x).rlc = s.rlc := rfl
@[simp] theorem deleteEvent_pdcp (id : ℕ) : (s.deleteEvent id).pdcp = s.pdcp := rfl
@[simp] theorem deleteEvent_rlc (id : ℕ) : (s.deleteEvent id).rlc = s.rlc := rfl

@[simp] theorem mem_addEvent {timer : Timer} {x : EntityRef} {e : TimerEvent} :
    e ∈ (s.addEvent timer x).events ↔ e ∈ s.events ∨ e = ⟨s.nextEventId, timer, x⟩ := by
  simp [addEvent]

@[simp] theorem mem_deleteEvent {id : ℕ} {e : TimerEvent} :
    e ∈ (s.deleteEvent id).events ↔ e ∈ s.events ∧ e.id ≠ id := by
  simp [deleteEvent]

variable (k : RlcKey) (f : RlcEntity α → RlcEntity α)

@[simp] theorem modifyRlc_pdcp : (s.modifyRlc k f).pdcp = s.pdcp := rfl
@[simp] theorem modifyRlc_events : (s.modifyRlc k f).events = s.events := rfl
@[simp] theorem modifyRlc_self : (s.modifyRlc k f).rlc k = (s.rlc k).map f := Function.update_self ..
@[simp] theorem modifyRlc_of_ne {k' : RlcKey} (h : k' ≠ k) : (s.modifyRlc k f).rlc k' = s.rlc k' :=
  Function.update_of_ne h ..

variable (p : PdcpKey) (g : PdcpEntity α → PdcpEntity α)

@[simp] theorem modifyPdcp_rlc : (s.modifyPdcp p g).rlc = s.rlc := rfl
@[simp] theorem modifyPdcp_events : (s.modifyPdcp p g).events = s.events := rfl
@[simp] theorem modifyPdcp_self : (s.modifyPdcp p g).pdcp p = (s.pdcp p).map g := Function.update_self ..
@[simp] theorem modifyPdcp_of_ne {p' : PdcpKey} (h : p' ≠ p) : (s.modifyPdcp p g).pdcp p' = s.pdcp p' :=
  Function.update_of_ne h ..

end

/-- `LTENR_RLCAM_Start_t_PollRetransmitTimer`. -/
def startPollRetransmitTimer (k : RlcKey) (s : Network α) : Network α :=
  (s.addEvent .rlcTPollRetransmit (.rlc k)).modifyRlc k fun e =>
    { e with pollRetransmit := ⟨s.nextEventId, true⟩ }

/-- `LTENR_RLCAM_Stop_t_PollRetransmitTimer`. -/
def stopPollRetransmitTimer (k : RlcKey) (s : Network α) : Network α :=
  match s.rlc k with
  | some e =>
    if e.pollRetransmit.isStarted then
      (s.deleteEvent e.pollRetransmit.id).modifyRlc k fun e =>
        { e with pollRetransmit := { e.pollRetransmit with isStarted := false } }
    else s
  | none => s

/-- `LTENR_RLCAM_Start_t_ReassemblyTimer`. -/
def startReassemblyTimer (k : RlcKey) (s : Network α) : Network α :=
  (s.addEvent .rlcTReassembly (.rlc k)).modifyRlc k fun e =>
    { e with reassembly := ⟨s.nextEventId, true⟩ }

/-! ## Association -/

/-- Creates a PDCP entity where there is none. -/
def createPdcpEntity (s : Network α) (k : PdcpKey) : Network α :=
  { s with pdcp := Function.update s.pdcp k (some ((s.pdcp k).getD .new)) }

/-- `LTENR_PDCP_RemoveEntity`, of the entity found if there is one. -/
def removePdcpEntity (s : Network α) (k : PdcpKey) : Network α :=
  match s.pdcp k with
  | some e =>
    let s := (s.deleteEvent e.discardTimer.id).deleteEvent e.tReordering.id
    { s with pdcp := Function.update s.pdcp k none }
  | none => s

/-- `LTENR_RLC_ESTABLISHENTITY`. -/
def establishRlcEntity (s : Network α) (k : RlcKey) : Network α :=
  { s with rlc := Function.update s.rlc k (some ((s.rlc k).getD .new)) }

/-- `LTENR_RLC_UNESTABLISHENTITY`. -/
def unestablishRlcEntity (s : Network α) (k : RlcKey) : Network α :=
  { s with rlc := Function.update s.rlc k none }

section

variable (s : Network α) (p : PdcpKey) (k : RlcKey)

@[simp] theorem createPdcpEntity_rlc : (s.createPdcpEntity p).rlc = s.rlc := rfl
@[simp] theorem createPdcpEntity_events : (s.createPdcpEntity p).events = s.events := rfl
@[simp] theorem establishRlcEntity_pdcp : (s.establishRlcEntity k).pdcp = s.pdcp := rfl
@[simp] theorem establishRlcEntity_events : (s.establishRlcEntity k).events = s.events := rfl
@[simp] theorem unestablishRlcEntity_pdcp : (s.unestablishRlcEntity k).pdcp = s.pdcp := rfl
@[simp] theorem unestablishRlcEntity_events : (s.unestablishRlcEntity k).events = s.events := rfl

end

end Network

/-- The PDCP entities between a gNB and a UE, at both, in the order `LTENR_PDCP_ASSOCIATION`
takes them. -/
def pdcpEntities (gnbId gnbIf ueId ueIf : ℕ) : List PdcpKey :=
  [RlcMode.tm, .um, .am].flatMap fun mode =>
    [⟨.gnb, gnbId, gnbIf, ueId, ueIf, mode⟩, ⟨.ue, gnbId, gnbIf, ueId, ueIf, mode⟩]

/-- The mode and the two directions of each RLC entity between two devices. -/
def rlcKinds : List (RlcMode × Bool × Bool) :=
  [(.tm, true, false), (.tm, false, true), (.um, true, false), (.um, false, true), (.am, true, true)]

/-- The entities of `LTENR_RLC_ESTABLISHENTITYALL`. -/
def rlcEntities (d dIf peerId peerIf : ℕ) : List RlcKey :=
  rlcKinds.map fun kind => ⟨d, dIf, peerId, peerIf, kind.1, kind.2.1, kind.2.2⟩

namespace Network

/-- `LTENR_PDCP_ASSOCIATION`. -/
def pdcpAssociation (gnbId gnbIf ueId ueIf : ℕ) (isAssociated : Bool) (s : Network α) : Network α :=
  if isAssociated then (pdcpEntities gnbId gnbIf ueId ueIf).foldl createPdcpEntity s
  else (pdcpEntities gnbId gnbIf ueId ueIf).foldl removePdcpEntity s

/-- `LTENR_RLC_ASSOCIATION`. -/
def rlcAssociation (gnbId gnbIf ueId ueIf : ℕ) (isAssociated : Bool) (s : Network α) : Network α :=
  let keys := rlcEntities gnbId gnbIf ueId ueIf ++ rlcEntities ueId ueIf gnbId gnbIf
  if isAssociated then keys.foldl establishRlcEntity s else keys.foldl unestablishRlcEntity s

end Network

/-! ## Buffer transfer -/

/-- The relabelling of `fn_NetSim_LTENR_NAS_PDCP_BUFFER_TRANSFER`. -/
def BufferedPacket.relabel (flag enbId : ℕ) (b : BufferedPacket α) : BufferedPacket α :=
  let f := if flag = 0 then Packet.setTransmitter enbId else Packet.setReceiver enbId
  { b with packets := b.packets.map f }

/-- The target of `fn_NetSim_LTENR_NAS_PDCP_BUFFER_TRANSFER`. -/
def PdcpEntity.takeOver (enbId flag : ℕ) (ser tar : PdcpEntity α) : PdcpEntity α :=
  { tar with
    transmissionBuffer := ser.transmissionBuffer.map (BufferedPacket.relabel flag enbId)
    receiveBuffer := ser.receiveBuffer
    txNext := ser.txNext
    lastRecvCount := ser.lastRecvCount
    rxDeliv := ser.rxDeliv
    rxNext := ser.rxNext
    rxReord := ser.rxReord }

/-- The relabelling of a reception buffer in `fn_NetSim_LTENR_NAS_RLC_BUFFER_TRANSFER`. -/
def ReceptionBuffer.relabel (flag : ℕ) (tar : RlcKey) (b : ReceptionBuffer α) : ReceptionBuffer α :=
  let f := if flag = 0 then Packet.setReceiver tar.d else Packet.setTransmitter tar.peerId
  { b with packets := b.packets.map f }

/-- The target of `fn_NetSim_LTENR_NAS_RLC_BUFFER_TRANSFER`, before its timers are started. -/
def RlcEntity.takeOver (k : RlcKey) (flag : ℕ) (ser : RlcEntity α) : RlcEntity α :=
  { ser with
    am := { ser.am with receptionBuffer := ser.am.receptionBuffer.map (ReceptionBuffer.relabel flag k) }
    um := { ser.um with receptionBuffer := ser.um.receptionBuffer.map (ReceptionBuffer.relabel flag k) } }

/-- The source of `fn_NetSim_LTENR_NAS_RLC_BUFFER_TRANSFER`, its buffers taken away. -/
def RlcEntity.giveAway (ser : RlcEntity α) : RlcEntity α :=
  { ser with
    am := { ser.am with receptionBuffer := [] }
    um := { ser.um with receptionBuffer := [] }
    transmissionBuffer := []
    retransmissionBuffer := []
    transmittedBuffer := [] }

/-- Relabels what an entity has in its transmission and its retransmission buffer. -/
def RlcEntity.relabelUnsent (f : Packet α → Packet α) (e : RlcEntity α) : RlcEntity α :=
  { e with
    transmissionBuffer := e.transmissionBuffer.map fun b => { b with packet := f b.packet }
    retransmissionBuffer := e.retransmissionBuffer.map fun b => { b with packet := f b.packet } }

/-- One source entity, one target entity and the flag of a transfer. -/
structure Move (κ : Type*) where
  ser : κ
  tar : κ
  flag : ℕ

namespace Network

/-- `fn_NetSim_LTENR_NAS_PDCP_BUFFER_TRANSFER`. -/
def pdcpBufferTransfer (s : Network α) (m : Move PdcpKey) : Network α :=
  match s.pdcp m.ser, s.pdcp m.tar with
  | some ser, some _ =>
    (s.modifyPdcp m.tar (PdcpEntity.takeOver m.tar.enbId m.flag ser)).modifyPdcp m.ser fun e =>
      { e with transmissionBuffer := [], receiveBuffer := [] }
  | _, _ => s

/-- `fn_NetSim_LTENR_NAS_RLC_BUFFER_TRANSFER`. -/
def rlcBufferTransfer (s : Network α) (m : Move RlcKey) : Network α :=
  match s.rlc m.ser, s.rlc m.tar with
  | some ser, some _ =>
    let s := (s.modifyRlc m.tar fun _ => ser.takeOver m.tar m.flag).modifyRlc m.ser RlcEntity.giveAway
    let s := if ser.pollRetransmit.isStarted then
        startPollRetransmitTimer m.tar (s.stopPollRetransmitTimer m.ser) else s
    if ser.reassembly.isStarted then startReassemblyTimer m.tar (s.deleteEvent ser.reassembly.id) else s
  | _, _ => s

/-- `fn_NetSim_LTENR_NAS_RLC_BUFFER_TRANSFER_CHANGE_TRANSMISSION_ID`. -/
def changeTransmissionId (k : RlcKey) (t : ℕ) (s : Network α) : Network α :=
  s.modifyRlc k (RlcEntity.relabelUnsent (Packet.setTransmitter t))

/-- `fn_NetSim_LTENR_NAS_RLC_BUFFER_TRANSFER_CHANGE_RECEIVER_ID`. -/
def changeReceiverId (k : RlcKey) (t : ℕ) (s : Network α) : Network α :=
  s.modifyRlc k (RlcEntity.relabelUnsent (Packet.setReceiver t))

end Network

/-! ## The handover command -/

/-- `LTENR_HANDOVER_Hdr`, what the command uses of it. A handover is requested only for a target
other than the serving cell, and a UE is not a gNB. -/
structure CommandHdr where
  serveringCellId : ℕ
  serveringCellIf : ℕ
  ueId : ℕ
  ueIf : ℕ
  targetCellId : ℕ
  targetCellIf : ℕ
  serving_ne_target : serveringCellId ≠ targetCellId
  ue_ne_serving : ueId ≠ serveringCellId
  ue_ne_target : ueId ≠ targetCellId

namespace CommandHdr

variable (hdr : CommandHdr)

/-- The PDCP entities of the handover, at a device and in a mode. -/
def pdcpMove (side : Side) (mode : RlcMode) : Move PdcpKey where
  ser := ⟨side, hdr.serveringCellId, hdr.serveringCellIf, hdr.ueId, hdr.ueIf, mode⟩
  tar := ⟨side, hdr.targetCellId, hdr.targetCellIf, hdr.ueId, hdr.ueIf, mode⟩
  flag := match side with
    | .gnb => 0
    | .ue => 1

/-- The RLC entities of the handover, at a device and of a kind. -/
def rlcMove : Side → RlcMode × Bool × Bool → Move RlcKey
  | .gnb, (mode, tx, rx) =>
    ⟨⟨hdr.serveringCellId, hdr.serveringCellIf, hdr.ueId, hdr.ueIf, mode, tx, rx⟩,
      ⟨hdr.targetCellId, hdr.targetCellIf, hdr.ueId, hdr.ueIf, mode, tx, rx⟩, 0⟩
  | .ue, (mode, tx, rx) =>
    ⟨⟨hdr.ueId, hdr.ueIf, hdr.serveringCellId, hdr.serveringCellIf, mode, tx, rx⟩,
      ⟨hdr.ueId, hdr.ueIf, hdr.targetCellId, hdr.targetCellIf, mode, tx, rx⟩, 1⟩

end CommandHdr

namespace Network

/-- One block of `fn_NetSim_LTENR_NAS_RLC_GNB_BUFFER_TRANSFER`. -/
def rlcGnbMove (t : ℕ) (s : Network α) (m : Move RlcKey) : Network α :=
  changeTransmissionId m.tar t (s.rlcBufferTransfer m)

/-- One block of `fn_NetSim_LTENR_NAS_RLC_UE_BUFFER_TRANSFER`. -/
def rlcUeMove (t : ℕ) (s : Network α) (m : Move RlcKey) : Network α :=
  changeReceiverId m.tar t (s.rlcBufferTransfer m)

/-- `fn_NetSim_LTENR_NAS_RLC_GNB_BUFFER_TRANSFER`. -/
def rlcGnbBufferTransfer (hdr : CommandHdr) (s : Network α) : Network α :=
  (rlcKinds.map (hdr.rlcMove .gnb)).foldl (rlcGnbMove hdr.targetCellId) s

/-- `fn_NetSim_LTENR_NAS_RLC_UE_BUFFER_TRANSFER`. -/
def rlcUeBufferTransfer (hdr : CommandHdr) (s : Network α) : Network α :=
  (rlcKinds.map (hdr.rlcMove .ue)).foldl (rlcUeMove hdr.targetCellId) s

/-- The two PDCP regions of the command: the gNB's entities, and the UE's. -/
def pdcpTransfer (hdr : CommandHdr) (s : Network α) : Network α :=
  ([RlcMode.tm, .um, .am].map (hdr.pdcpMove .gnb) ++ [RlcMode.tm, .um, .am].map (hdr.pdcpMove .ue)).foldl
    pdcpBufferTransfer s

/-- `fn_NetSim_LTENR_NAS_GENERATE_HANDOVER_COMMAND_HANDLE`. -/
def generateHandoverCommandHandle (hdr : CommandHdr) (s : Network α) : Network α :=
  let s := s.pdcpAssociation hdr.targetCellId hdr.targetCellIf hdr.ueId hdr.ueIf true
  let s := s.rlcAssociation hdr.targetCellId hdr.targetCellIf hdr.ueId hdr.ueIf true
  let s := s.pdcpTransfer hdr
  let s := s.rlcGnbBufferTransfer hdr
  let s := s.rlcUeBufferTransfer hdr
  let s := s.pdcpAssociation hdr.serveringCellId hdr.serveringCellIf hdr.ueId hdr.ueIf false
  s.rlcAssociation hdr.serveringCellId hdr.serveringCellIf hdr.ueId hdr.ueIf false

end Network

end NetSim.Transfer
