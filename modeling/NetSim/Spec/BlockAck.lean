import NetSim.Spec.Csmaca

/-!
# Block acks

Stations that exchange A-MPDUs. The frames of an A-MPDU reach the receiver one by one or are lost, and so do the block
acks; the frames of several stations may be interleaved. The ACK timer of a station is longer than an exchange: it does
not run out while frames of the station or the block ack for it are on their way.
-/

namespace NetSim.Wlan

/-- The stations, each with the frames of it that are in the air, and with the block ack that is on its way to it. For
each station there are also its A-MPDU and the indices of the frames of it that were received, and for the run whether
every block ack had the bits of these frames, and whether every block ack that was processed has left the others. -/
structure AmpduNet where
  mac : ℕ → Mac
  air : ℕ → List Mpdu
  blockAcks : ℕ → Option BlockAck
  ampdu : ℕ → List Packet
  received : ℕ → List ℕ
  exactBits : Bool
  keptFrames : Bool

/-- What happens: an event of a station, other than that it receives data or a block ack; the next frame of a station
reaches its receiver or is lost; the block ack for a station reaches it or is lost. -/
inductive NetEvent
  | station (d : ℕ) (e : Event) (env : Env)
  | arrive (d : ℕ)
  | lose (d : ℕ)
  | blockAck (d : ℕ) (env : Env)
  | blockAckLost (d : ℕ)
deriving DecidableEq, Repr

/-- An event that does not come with a frame of data or an acknowledgement. -/
def Event.isLocal : Event → Bool
  | .macIn _ | .ack | .blockAck _ => false
  | _ => true

/-- Whether the PHY is given frames of data, and not an RTS. -/
def Out.hasData (out : Out) : Bool := out.physicalOut.head?.any fun m => !m.packet.isCtrlPacket

/-- An event of a station: its frames are the next A-MPDU. -/
def AmpduNet.handOver (d : ℕ) (r : Mac × Out) (s : AmpduNet) : AmpduNet :=
  { s with
    mac := Function.update s.mac d r.1
    air := if r.2.hasData then Function.update s.air d r.2.physicalOut else s.air
    ampdu := if r.2.hasData then Function.update s.ampdu d (r.2.physicalOut.map Mpdu.packet) else s.ampdu
    received := if r.2.hasData then Function.update s.received d [] else s.received }

/-- A block ack for the station `d` with the bits of what was received. -/
def BlockAck.isExact (d : ℕ) (received : List ℕ) (back : BlockAck) : Bool :=
  back.nReceiverId == d && (List.range 64).all fun i => back.bitMap.getLsbD i == received.contains i

/-- The frames of an A-MPDU whose bit is clear. -/
def clearFrames (bitMap : BitVec 64) (list : List Packet) : List Packet :=
  (list.zipIdx.filter fun q => !bitMap.getLsbD q.2).map Prod.fst

/-- Whether exactly the frames whose bit is clear are the next ones: they are in process, and the next frames of the
queue are only if there are none. -/
def isKept (bitMap : BitVec 64) (list qosList frames : List Packet) : Bool :=
  if clearFrames bitMap list = [] then frames.all fun p => decide (p ∈ qosList)
  else frames = clearFrames bitMap list

/-- The receiver of an A-MPDU. -/
def receiverOf (list : List Packet) : ℕ := list.head?.elim 0 Packet.nReceiverId

/-- What happens with the next frame of `d` when it reaches its receiver. -/
def AmpduNet.arrive (cfgs : ℕ → MacConfig) (d : ℕ) (m : Mpdu) (rest : List Mpdu) (s : AmpduNet) : AmpduNet :=
  let r := macIn (cfgs m.packet.nReceiverId) m (s.mac m.packet.nReceiverId)
  let received := (m.sequenceNumber - 1) :: s.received d
  { s with
    mac := Function.update s.mac m.packet.nReceiverId r.1
    air := Function.update s.air d rest
    received := Function.update s.received d received
    blockAcks := r.2.blockAck.elim s.blockAcks fun b => Function.update s.blockAcks b.nReceiverId (some b)
    exactBits := s.exactBits && r.2.blockAck.all (BlockAck.isExact d received) }

/-- The stations of a network. -/
def ampduMachine (cfgs : ℕ → MacConfig) : Machine AmpduNet NetEvent where
  init s := s = ⟨fun _ => Mac.start, fun _ => [], fun _ => none, fun _ => [], fun _ => [], true, true⟩
  step s
    | .station d e env =>
      if e.isPending (s.mac d) && e.isLocal && (e ≠ .ackTimeOut || ((s.air d).isEmpty && (s.blockAcks d).isNone)) then
        some (s.handOver d (handle (cfgs d) env e (s.mac d)))
      else none
    | .arrive d =>
      match s.air d with
      | [] => none
      | m :: rest => some (s.arrive cfgs d m rest)
    | .lose d =>
      match s.air d with
      | [] => none
      | _ :: rest => some { s with air := Function.update s.air d rest }
    | .blockAck d env =>
      match s.blockAcks d with
      | none => none
      | some b =>
        if (Event.blockAck b).isPending (s.mac d) then
          let r := handle (cfgs d) env (.blockAck b) (s.mac d)
          let s := { s with
            blockAcks := Function.update s.blockAcks d none
            keptFrames := s.keptFrames && isKept b.bitMap (s.ampdu d) (s.mac d).qosList r.1.frames }
          some (s.handOver d r)
        else none
    | .blockAckLost d =>
      if (s.blockAcks d).isSome then some { s with blockAcks := Function.update s.blockAcks d none } else none

/-- The condition on a step: what a station queues is for one receiver each; data and RTS do not come while the MAC waits
for an event of its own; a frame reaches a receiver only when the receiver has no record, or the record of the A-MPDU of
the frame; the last frame of an A-MPDU is not lost when another one of it was received; and a TXOP goes on with frames of
the queue only if no bit is clear. -/
def AmpduNet.isOrderly (cfgs : ℕ → MacConfig) (s : AmpduNet) : NetEvent → Bool
  | .station d e _ =>
    e.isTimely (s.mac d) &&
      match e with
      | .macOut packets => packets.all fun p => !p.isGroup && p.nReceiverId != 0
      | _ => true
  | .arrive d =>
    (s.air d).head?.all fun m =>
      (Event.macIn m).isTimely (s.mac m.packet.nReceiverId) &&
        ((s.mac m.packet.nReceiverId).blockAckPacket.isNone || !(s.received d).isEmpty)
  | .lose d => (s.air d).head?.all fun m => m.moreFragment || (s.received d).isEmpty
  | .blockAck d env =>
    (s.blockAcks d).all fun b =>
      (clearFrames b.bitMap (s.ampdu d)).isEmpty || !edcafIsTxopTimerSet (cfgs d) env.now (s.mac d) ||
        (getFromQueue (cfgs d) env.now (s.mac d).qosList).1.isEmpty
  | .blockAckLost _ => true

/-- The devices of a network: each has its own id, and aggregates at most 64 frames. -/
structure AreStations (cfgs : ℕ → MacConfig) : Prop where
  deviceId : ∀ d, (cfgs d).deviceId = d
  macAggregationStatus : ∀ d, (cfgs d).macAggregationStatus = true
  aggregated : ∀ d, (cfgs d).nNumberOfAggregatedPackets ≤ 64

end NetSim.Wlan
