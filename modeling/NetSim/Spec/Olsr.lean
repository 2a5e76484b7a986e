import Mathlib.Data.Rat.Defs
import NetSim.Lib.FirstMatch
import NetSim.Lib.Loop
import NetSim.Lib.Machine

/-!
# The sets of an OLSR node

The lists of `NODE_OLSR` that the selection of multipoint relays reads, and `fn_NetSim_OLSR_PopulateMPRSet`.
`IP_COMPARE` is equality of addresses, and the addresses are any type that has it. Times are taken exactly.
A result is missing where the source reads through a NULL pointer, and where a loop needs more rounds than
given.
-/

namespace NetSim.Olsr

/-- `WILLINGNESS`. -/
inductive Willingness
  | never
  | low
  | default
  | high
  | always
deriving DecidableEq, Repr

/-- The value of a willingness. -/
def Willingness.value : Willingness → ℕ
  | .never => 0
  | .low => 1
  | .default => 3
  | .high => 6
  | .always => 7

/-- `OLSR_NEIGHBOR_TYPES`. -/
inductive NeighborType
  | notNeigh
  | symNeigh
  | mprNeigh
deriving DecidableEq, Repr

variable {α : Type}

/-- `OLSR_NEIGHBOR_SET`. -/
structure NeighborTuple (α : Type) where
  neighborMainAddr : α
  status : NeighborType
  willingness : Willingness
deriving DecidableEq, Repr

/-- `OLSR_2HOP_NEIGHBOR_SET`. -/
structure TwoHopTuple (α : Type) where
  neighborMainAddr : α
  twoHopAddr : α
  time : ℚ
deriving DecidableEq, Repr

/-- `OLSR_LINK_SET`. -/
structure LinkTuple (α : Type) where
  localIfaceAddr : α
  neighborIfaceAddr : α
  symTime : ℚ
  asymTime : ℚ
  time : ℚ
deriving DecidableEq, Repr

/-- The lists of `NODE_OLSR` that the relays are computed from. -/
structure NodeOlsr (α : Type) where
  neighborSet : List (NeighborTuple α)
  twoHopNeighborSet : List (TwoHopTuple α)
  linkSet : List (LinkTuple α)
  mprSet : List α
  isRoutingTableUpdate : Bool
deriving DecidableEq, Repr

variable [DecidableEq α]

/-- `olsrFindNeighborSet`. -/
def findNeighborSet (neighborSet : List (NeighborTuple α)) (ip : α) : Option (NeighborTuple α) :=
  neighborSet.find? fun set => set.neighborMainAddr = ip

/-- `olsrFindLinkSet`. -/
def findLinkSet (linkSet : List (LinkTuple α)) (ip : α) : Option (LinkTuple α) :=
  linkSet.find? fun link => link.neighborIfaceAddr = ip

/-- `olsrFillNeighbor`. -/
def fillNeighbor (olsr : NodeOlsr α) : List (NeighborTuple α) :=
  olsr.neighborSet.filter fun neighbor => neighbor.willingness ≠ .never

/-- Whether a two-hop tuple is copied by `olsrFill2HopNeighbor`. -/
def isFilled (now : ℚ) (olsr : NodeOlsr α) (twoHop : TwoHopTuple α) : Option Bool := do
  let neighbor ← findNeighborSet olsr.neighborSet twoHop.neighborMainAddr
  if neighbor.willingness = .never then return false
  else if (findNeighborSet olsr.neighborSet twoHop.twoHopAddr).isSome then return false
  else return !(findLinkSet olsr.linkSet twoHop.twoHopAddr).any fun link => now ≤ link.symTime

/-- `olsrFill2HopNeighbor`. -/
def fill2HopNeighbor (now : ℚ) (olsr : NodeOlsr α) : Option (List (TwoHopTuple α)) :=
  olsr.twoHopNeighborSet.filterM (isFilled now olsr)

/-- `fnCalculateDegree`. -/
def calculateDegree (n : List (NeighborTuple α)) (n2 : List (TwoHopTuple α)) :
    List (NeighborTuple α × ℕ) :=
  n.map fun i => (i, n2.countP fun j => i.neighborMainAddr = j.neighborMainAddr)

/-- `getD`. -/
def getD (d : List (NeighborTuple α × ℕ)) (y : NeighborTuple α) : ℕ :=
  ((d.find? fun entry => entry.1 = y).map Prod.snd).getD 0

/-- `fnFlushN2`. -/
def flushN2 (n2 : List (TwoHopTuple α)) (twoHopIp : α) : List (TwoHopTuple α) :=
  n2.filter fun i => i.twoHopAddr ≠ twoHopIp

/-- The rounds of `fnFlush2HopSetBasedonMPR` for one relay: each takes tuples from the list, so as many
rounds as there are tuples are enough. -/
def flushRelay (neighborAddress : α) : ℕ → List (TwoHopTuple α) → List (TwoHopTuple α)
  | 0, n2 => n2
  | rounds + 1, n2 =>
    match n2.find? fun i => neighborAddress = i.neighborMainAddr with
    | none => n2
    | some i => flushRelay neighborAddress rounds (flushN2 n2 i.twoHopAddr)

/-- `fnFlush2HopSetBasedonMPR`. -/
def flush2HopSetBasedOnMpr (n2 : List (TwoHopTuple α)) (mprSet : List α) : List (TwoHopTuple α) :=
  mprSet.foldl (fun n2 neighborAddress => flushRelay neighborAddress n2.length n2) n2

/-- `olsrAddtoMPRSet`. -/
def addToMprSet (mpr : List α) (n : List (NeighborTuple α)) (i : TwoHopTuple α) : List α :=
  match findNeighborSet n i.neighborMainAddr with
  | none => mpr
  | some neighbor => mpr ++ [neighbor.neighborMainAddr]

/-- `olsrMarkMPR`. -/
def markMpr (olsr : NodeOlsr α) : NodeOlsr α :=
  { olsr with neighborSet := olsr.mprSet.foldl (fun neighborSet address =>
      FirstMatch.updateFirst (fun neighbor => neighbor.neighborMainAddr = address)
        (fun neighbor => { neighbor with status := .mprNeigh }) 1 neighborSet) olsr.neighborSet }

/-- The local variables of `fn_NetSim_OLSR_PopulateMPRSet`: the list `N2`, the place of `i` in it, and the
relays that are chosen. -/
structure MprState (α : Type) where
  n2 : List (TwoHopTuple α)
  pos : ℕ
  mprSet : List α
  isRoutingTableUpdate : Bool
deriving DecidableEq, Repr

/-- The relay of a two-hop tuple is chosen, and the loop starts again. -/
def MprState.add (n : List (NeighborTuple α)) (s : MprState α) (i : TwoHopTuple α) : MprState α :=
  let mprSet := addToMprSet s.mprSet n i
  ⟨flush2HopSetBasedOnMpr s.n2 mprSet, 0, mprSet, true⟩

/-- A round of the first loop, which chooses the relays that are the only ones for a two-hop neighbour. -/
def soleRound (n : List (NeighborTuple α)) (s : MprState α) : MprState α ⊕ MprState α :=
  match s.n2[s.pos]? with
  | none => .inr s
  | some i =>
    if (s.n2.eraseIdx s.pos).all fun j => i.twoHopAddr ≠ j.twoHopAddr then .inl (s.add n i)
    else .inl { s with pos := s.pos + 1 }

/-- Whether the neighbour of another tuple replaces the variable `current`. -/
def considerCurrent (n : List (NeighborTuple α)) (d : List (NeighborTuple α × ℕ))
    (current : NeighborTuple α) (j : TwoHopTuple α) : Option (NeighborTuple α) := do
  let temp ← findNeighborSet n j.neighborMainAddr
  if temp.willingness.value > current.willingness.value then return temp
  else if temp.willingness = current.willingness then
    if getD d temp > getD d current then return temp else return current
  else return current

/-- The variable `current` behind the inner loop of the second one, which nothing reads. -/
def selectCurrent (n : List (NeighborTuple α)) (d : List (NeighborTuple α × ℕ)) (i : TwoHopTuple α)
    (n2 : List (TwoHopTuple α)) : Option (NeighborTuple α) := do
  let current ← findNeighborSet n i.neighborMainAddr
  (n2.filter fun j => i.twoHopAddr = j.twoHopAddr).foldlM (considerCurrent n d) current

/-- A round of the second loop, which runs until every two-hop neighbour is covered. -/
def restRound (n : List (NeighborTuple α)) (d : List (NeighborTuple α × ℕ)) (s : MprState α) :
    MprState α ⊕ Option (MprState α) :=
  match s.n2 with
  | [] => .inr (some s)
  | i :: rest =>
    match selectCurrent n d i rest with
    | none => .inr none
    | some _ => .inl (s.add n i)

/-- `fn_NetSim_OLSR_PopulateMPRSet`. -/
def populateMprSet (rounds : ℕ) (now : ℚ) (olsr : NodeOlsr α) : Option (NodeOlsr α) := do
  let n := fillNeighbor olsr
  let n2 ← fill2HopNeighbor now olsr
  let d := calculateDegree n n2
  let s ← Loop.run (soleRound n) rounds ⟨n2, 0, [], olsr.isRoutingTableUpdate⟩
  let s ← (Loop.run (restRound n d) rounds s).join
  return markMpr { olsr with mprSet := s.mprSet, isRoutingTableUpdate := s.isRoutingTableUpdate }

end NetSim.Olsr

/-!
## Flooding in OLSR

What an OLSR node does with a copy of a TC message, from `fn_NetSim_OLSR_PacketProcessing` to
`fn_NetSim_OLSR_PacketForwarding`, and with the neighbour types of a HELLO. The neighbour set may take any
value between two packets. Two logs are kept beside the node: the neighbours whose HELLO has named it as
relay, and the packets that it has sent on.
-/

namespace NetSim.Olsr

variable {α : Type}

/-- `SECOND`. -/
def second : ℚ := 1000000

/-- `DUP_HOLD_TIME`. -/
def dupHoldTime : ℚ := 30 * second

/-- `OLSR_MPR_SELECTION_SET`. -/
structure MprSelectionTuple (α : Type) where
  mainAddr : α
  time : ℚ
deriving DecidableEq, Repr

/-- `OLSR_TOPOLOGY_INFORMATION_BASE`. -/
structure TopologyTuple (α : Type) where
  destAddr : α
  lastAddr : α
  seq : ℕ
  time : ℚ
deriving DecidableEq, Repr

/-- `OLSR_DUPLICATE_SET`. -/
structure DuplicateTuple (α : Type) where
  addr : α
  seqNum : UInt16
  retransmitted : Bool
  ifaceList : α
  time : ℚ
deriving DecidableEq, Repr

/-- `OLSR_HELLO_LINK`. -/
structure HelloLink (α : Type) where
  neighTypes : NeighborType
  neighborInterfaceAddress : α
deriving DecidableEq, Repr

/-- `OLSR_TC_MESSAGE`. -/
structure TcMessage (α : Type) where
  ansn : UInt16
  advertisedNeighborMainAddress : List α
deriving DecidableEq, Repr

/-- The packet of a TC message: `OLSR_HEADER_MESSAGE`, with the address of the sender and the TTL of the
network layer. -/
structure FloodPacket (α : Type) where
  originatorAddress : α
  messageSequenceNumber : UInt16
  timeToLive : UInt8
  hopCount : UInt8
  /-- The validity time that `olsrConvertMEToDouble` reads from `Vtime`. -/
  validityTime : ℚ
  message : Option (TcMessage α)
  szGatewayIp : α
  nTtl : ℤ
deriving DecidableEq, Repr

/-- The lists of `NODE_OLSR` that flooding reads, and the two logs. -/
structure Flooder (α : Type) where
  mainAddress : α
  neighborSet : List (NeighborTuple α)
  mprSelectionSet : List (MprSelectionTuple α)
  topologyInfoBase : List (TopologyTuple α)
  duplicateSet : List (DuplicateTuple α)
  /-- The neighbours that have named this node as relay in a HELLO. -/
  selections : List α
  sent : List (FloodPacket α)
deriving DecidableEq, Repr

variable [DecidableEq α]

/-- `olsrFindMPRSelectorSet`. -/
def findMprSelectorSet (set : List (MprSelectionTuple α)) (ip : α) : Option (MprSelectionTuple α) :=
  set.find? fun tuple => tuple.mainAddr = ip

/-- `olsrFindDuplicateSet`. -/
def findDuplicateSet (duplicateSet : List (DuplicateTuple α)) (ip : α) (seqNo : UInt16) :
    Option (DuplicateTuple α) :=
  duplicateSet.find? fun duplicate => duplicate.addr = ip ∧ duplicate.seqNum = seqNo

/-- The body of the loop of `fn_NetSim_OLSR_PopulateMPRSelectorSet`. -/
def addSelector (now validityTime : ℚ) (originator : α) (set : List (MprSelectionTuple α))
    (linkInfo : HelloLink α) : List (MprSelectionTuple α) :=
  if linkInfo.neighTypes = .mprNeigh then
    if (findMprSelectorSet set originator).isSome then
      FirstMatch.updateFirst (fun tuple => tuple.mainAddr = originator)
        (fun tuple => { tuple with time := now + validityTime }) 1 set
    else set ++ [⟨originator, now + validityTime⟩]
  else set

namespace Flooder

/-- `fn_NetSim_OLSR_PopulateMPRSelectorSet`, for a HELLO of the originator. -/
def populateMprSelectorSet (now validityTime : ℚ) (originator : α) (links : List (HelloLink α))
    (s : Flooder α) : Flooder α :=
  { s with
    mprSelectionSet := links.foldl (addSelector now validityTime originator) s.mprSelectionSet
    selections :=
      if ⟨.mprNeigh, s.mainAddress⟩ ∈ links then s.selections ++ [originator] else s.selections }

/-- The packet that `fn_NetSim_OLSR_PacketForwarding` hands to the network layer. -/
def retransmitted (forwardFlag : Bool) (p : FloodPacket α) (s : Flooder α) : FloodPacket α :=
  if forwardFlag then
    { p with
      nTtl := p.nTtl - 1
      timeToLive := p.timeToLive - 1
      hopCount := p.hopCount + 1
      szGatewayIp := s.mainAddress }
  else { p with szGatewayIp := s.mainAddress }

/-- The flag that condition 4 of `fn_NetSim_OLSR_PacketForwarding` sets. -/
def forwardFlag (p : FloodPacket α) (s : Flooder α) : Bool :=
  (findMprSelectorSet s.mprSelectionSet p.szGatewayIp).isSome && decide (p.timeToLive > 1)

/-- Condition 5: the tuple of a message that is known. -/
def updateDuplicate (now : ℚ) (p : FloodPacket α) (s : Flooder α) : List (DuplicateTuple α) :=
  FirstMatch.updateFirst
    (fun duplicate => duplicate.addr = p.originatorAddress ∧ duplicate.seqNum = p.messageSequenceNumber)
    (fun duplicate => { duplicate with
      time := now + dupHoldTime
      ifaceList := s.mainAddress
      retransmitted := duplicate.retransmitted || s.forwardFlag p }) 1 s.duplicateSet

/-- Condition 5: the tuple of a new message. -/
def newDuplicate (now : ℚ) (p : FloodPacket α) (s : Flooder α) : DuplicateTuple α where
  addr := p.originatorAddress
  seqNum := p.messageSequenceNumber
  retransmitted := s.forwardFlag p
  ifaceList := s.mainAddress
  time := now + dupHoldTime

/-- Conditions 1, 2 and 3 of `fn_NetSim_OLSR_PacketForwarding`. -/
def isStopped (p : FloodPacket α) (s : Flooder α) : Bool :=
  (findNeighborSet s.neighborSet p.szGatewayIp).any (fun neighbor => neighbor.status = .notNeigh) ||
    (findDuplicateSet s.duplicateSet p.originatorAddress p.messageSequenceNumber).any
      fun duplicate => duplicate.retransmitted || s.mainAddress = duplicate.ifaceList

/-- `fn_NetSim_OLSR_PacketForwarding`. -/
def packetForwarding (now : ℚ) (p : FloodPacket α) (s : Flooder α) : Flooder α :=
  if s.isStopped p then s
  else
    let duplicateSet :=
      if (findDuplicateSet s.duplicateSet p.originatorAddress p.messageSequenceNumber).isSome then
        s.updateDuplicate now p
      else s.duplicateSet ++ [s.newDuplicate now p]
    { s with duplicateSet := duplicateSet, sent := s.sent ++ [s.retransmitted (s.forwardFlag p) p] }

/-- The body of the loop of `olsrUpdateTopologySet`. -/
def addTopology (now : ℚ) (p : FloodPacket α) (ansn : UInt16) (topology : List (TopologyTuple α)) (dest : α) :
    List (TopologyTuple α) :=
  let time := p.validityTime * second + now
  if (topology.find? fun info => info.lastAddr = p.originatorAddress ∧ info.destAddr = dest).isSome then
    FirstMatch.updateFirst (fun info => info.lastAddr = p.originatorAddress ∧ info.destAddr = dest)
      (fun info => { info with time := time }) 1 topology
  else topology ++ [⟨dest, p.originatorAddress, ansn.toNat, time⟩]

/-- `olsrUpdateTopologySet`. -/
def updateTopologySet (now : ℚ) (p : FloodPacket α) (tc : TcMessage α) (s : Flooder α) : Flooder α :=
  { s with
    topologyInfoBase := tc.advertisedNeighborMainAddress.foldl (addTopology now p tc.ansn) s.topologyInfoBase }

/-- Whether conditions 1 and 2 of `fn_NetSim_OLSR_ReceiveTC` let a message through. -/
def isTcAccepted (p : FloodPacket α) (tc : TcMessage α) (s : Flooder α) : Bool :=
  !(decide (p.originatorAddress ≠ p.szGatewayIp) &&
      (findNeighborSet s.neighborSet p.szGatewayIp).any fun neighbor => neighbor.status = .symNeigh) &&
    !s.topologyInfoBase.any fun info => info.lastAddr = p.originatorAddress ∧ info.seq > tc.ansn.toNat

/-- `fn_NetSim_OLSR_ReceiveTC`. -/
def receiveTc (now : ℚ) (p : FloodPacket α) (tc : TcMessage α) (s : Flooder α) : Flooder α :=
  if s.isTcAccepted p tc then packetForwarding now p (s.updateTopologySet now p tc) else s

/-- Whether the conditions of `fn_NetSim_OLSR_PacketProcessing` let a message through. -/
def isProcessed (p : FloodPacket α) (s : Flooder α) : Bool :=
  decide (p.timeToLive ≠ 0) && decide (p.originatorAddress ≠ s.mainAddress) &&
    (findDuplicateSet s.duplicateSet p.originatorAddress p.messageSequenceNumber).isNone

/-- `fn_NetSim_OLSR_PacketProcessing`. -/
def packetProcessing (now : ℚ) (p : FloodPacket α) (s : Flooder α) : Flooder α :=
  match p.message with
  | none => s
  | some tc => if s.isProcessed p then s.receiveTc now p tc else s

end Flooder

/-- What happens to a node. -/
inductive FloodEvent (α : Type)
  | hello (now validityTime : ℚ) (originator : α) (links : List (HelloLink α))
  | neighbors (neighborSet : List (NeighborTuple α))
  | packet (now : ℚ) (p : FloodPacket α)
deriving DecidableEq, Repr

namespace Flooder

/-- One step of a node. -/
def step (s : Flooder α) : FloodEvent α → Flooder α
  | .hello now validityTime originator links => s.populateMprSelectorSet now validityTime originator links
  | .neighbors neighborSet => { s with neighborSet := neighborSet }
  | .packet now p => s.packetProcessing now p

/-- The state that a node starts in. -/
def start (mainAddress : α) : Flooder α := ⟨mainAddress, [], [], [], [], [], []⟩

/-- The runs of a node. -/
def machine (α : Type) [DecidableEq α] : Machine (Flooder α) (FloodEvent α) where
  init s := ∃ mainAddress, s = start mainAddress
  step s e := some (s.step e)

end Flooder

end NetSim.Olsr
