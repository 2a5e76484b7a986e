import NetSim.Lib.FirstMatch
import NetSim.Lib.Machine
import Mathlib.Data.Rat.Floor
import Mathlib.Logic.Function.Basic

/-!
# A network of AODV nodes

The route table of a node, and what it does with RREQs, RREPs, HELLOs and RERRs. A node is named by its address,
and `IP_COMPARE` is equality. The packets that are on their way are kept in a list: any of them may be delivered
next to a node that it is meant for, once or again, or be lost; the expiry of a TTL is one kind of loss. Links
may break and routes may expire at any time. `fnFindSequenceNumber` is not in the sources, so it is a parameter.

Two things are recorded for each route beside what the source keeps: from which neighbour the sequence number
and the hop count of an entry came, and what a node has ever put into its table.
-/

namespace NetSim.Aodv

/-- `MILLISECOND`. -/
def millisecond : ℚ := 1000

/-- `AODV_ACTIVE_ROUTE_TIMEOUT`. -/
def activeRouteTimeout : ℚ := 3000 * millisecond

/-- `AODV_HELLO_INTERVAL`. -/
def helloInterval : ℚ := 1000 * millisecond

/-- `AODV_DELETE_PERIOD`. -/
def deletePeriod : ℚ := 5 * max activeRouteTimeout helloInterval

/-- `AODV_MY_ROUTE_TIMEOUT`. -/
def myRouteTimeout : ℚ := 2 * activeRouteTimeout

/-- `AODV_NODE_TRAVERSAL_TIME`. -/
def nodeTraversalTime : ℚ := 40 * millisecond

/-- `AODV_NET_TRAVERSAL_TIME`. -/
def netTraversalTime : ℚ := 2 * nodeTraversalTime * 35

/-- `AODV_ALLOWED_HELLO_LOSS`. -/
def allowedHelloLoss : ℚ := 2

/-- `AODV_RoutingFlag`, as far as it is ever set. -/
inductive RoutingFlag
  | valid
  | invalid
deriving DecidableEq, Repr

/-- `AODV_ROUTETABLE`. -/
structure RouteEntry (ν : Type) where
  destinationIPAddress : ν
  destinationSequenceNumber : ℕ
  validDestinationSequenceNumberFlag : Bool
  routingFlags : RoutingFlag
  hopCount : ℕ
  nextHop : ν
  lifetime : ℚ
  /-- The neighbour from which the sequence number and the hop count came. -/
  learntFrom : ν
deriving DecidableEq, Repr

/-- A sequence number and a hop count that a node has put into its table. -/
structure Stored (ν : Type) where
  destination : ν
  seq : ℕ
  hop : ℕ
deriving DecidableEq, Repr

/-- `AODV_DEVICE_VAR`. -/
structure Device (ν : Type) where
  nSequenceNumber : ℕ
  routeTable : List (RouteEntry ν)
  rreqSeenTable : List (ν × ℕ)
  /-- All that was ever put into the table. -/
  stored : List (Stored ν)
deriving DecidableEq, Repr

/-- `AODV_RREQ`. The flag is the destination only flag `JRGDU[3]`. -/
structure Rreq (ν : Type) where
  hopCount : UInt8
  rreqId : ℕ
  destinationIPAddress : ν
  destinationSequenceNumber : ℕ
  originatorIPAddress : ν
  originatorSequenceNumber : ℕ
  lastAddress : ν
  destinationOnly : Bool
deriving DecidableEq, Repr

/-- `AODV_RREP`. -/
structure Rrep (ν : Type) where
  hopCount : UInt8
  destinationIPaddress : ν
  destinationSequenceNumber : ℕ
  originatorIPaddress : ν
  lifetime : ℚ
  lastAddress : ν
deriving DecidableEq, Repr

/-- `AODV_RERR`, with the source address of the packet. -/
structure Rerr (ν : Type) where
  sourceIP : ν
  unreachable : List (ν × ℕ)
deriving DecidableEq, Repr

/-- The packets of AODV. -/
inductive Body (ν : Type)
  | rreq (rreq : Rreq ν)
  | rrep (rrep : Rrep ν)
  | rerr (rerr : Rerr ν)
deriving DecidableEq, Repr

/-- A packet on its way; one without a receiver is broadcast. -/
structure Packet (ν : Type) where
  receiver : Option ν
  body : Body ν
deriving DecidableEq, Repr

variable {ν : Type} [DecidableEq ν]

/-! ## The route table -/

/-- The entry at which the search of `fn_NetSim_AODV_InsertInRouteTable` stops. -/
def findValid (table : List (RouteEntry ν)) (ip : ν) : Option (RouteEntry ν) :=
  table.find? fun entry => entry.destinationIPAddress = ip ∧ entry.routingFlags = .valid

/-- Whether an entry that was found gives way to what is inserted. -/
def RouteEntry.isOutdated (entry : RouteEntry ν) (seqNumber hopCount : ℕ) : Bool :=
  if entry.validDestinationSequenceNumberFlag = false then true
  else if entry.destinationSequenceNumber < seqNumber then true
  else if entry.destinationSequenceNumber > seqNumber then false
  else hopCount + 1 < entry.hopCount

/-- What `fn_NetSim_AODV_InsertInRouteTable` writes into an entry that exists. -/
def RouteEntry.insert (entry : RouteEntry ν) (seqNumber hopCount : ℕ) (sender : ν) (lifeTime : ℚ) :
    RouteEntry ν :=
  { entry with
    destinationSequenceNumber := seqNumber
    hopCount := hopCount
    lifetime := max entry.lifetime lifeTime
    routingFlags := .valid
    validDestinationSequenceNumberFlag := entry.validDestinationSequenceNumberFlag || seqNumber ≠ 0
    learntFrom := sender }

/-- The entry that `fn_NetSim_AODV_InsertInRouteTable` creates. -/
def newEntry (now : ℚ) (ip : ν) (seqNumber hopCount : ℕ) (nextHop : ν) (lifeTime : ℚ) : RouteEntry ν where
  destinationIPAddress := ip
  destinationSequenceNumber := seqNumber
  validDestinationSequenceNumberFlag := seqNumber ≠ 0
  routingFlags := .valid
  hopCount := hopCount
  nextHop := nextHop
  lifetime := max (now + activeRouteTimeout) lifeTime
  learntFrom := nextHop

namespace Device

/-- `fn_NetSim_AODV_InsertInRouteTable`. -/
def insertInRouteTable (now : ℚ) (ip : ν) (seqNumber hopCount : ℕ) (nextHop : ν) (lifeTime : ℚ)
    (dev : Device ν) : Device ν :=
  match findValid dev.routeTable ip with
  | none =>
    { dev with
      routeTable := dev.routeTable ++ [newEntry now ip seqNumber hopCount nextHop lifeTime]
      stored := dev.stored ++ [⟨ip, seqNumber, hopCount⟩] }
  | some entry =>
    if entry.isOutdated seqNumber hopCount then
      { dev with
        routeTable := FirstMatch.replaceFirst
          (fun entry => entry.destinationIPAddress = ip ∧ entry.routingFlags = .valid)
          (entry.insert seqNumber hopCount nextHop lifeTime) dev.routeTable
        stored := dev.stored ++ [⟨ip, seqNumber, hopCount⟩] }
    else dev

/-- `fn_NetSim_AODV_FindNextHop`. -/
def findNextHop (dest : ν) (dev : Device ν) : Option ν :=
  (findValid dev.routeTable dest).map RouteEntry.nextHop

/-- `fnFindRouteTable`. -/
def findRouteTable (dest : ν) (dev : Device ν) : Option (RouteEntry ν) :=
  dev.routeTable.find? fun entry => entry.destinationIPAddress = dest

/-- `fn_NetSim_AODV_CheckRouteFound`. -/
def checkRouteFound (now : ℚ) (ip : ν) (dev : Device ν) : Bool :=
  dev.routeTable.any fun entry =>
    entry.destinationIPAddress = ip ∧ now < entry.lifetime ∧ entry.routingFlags ≠ .invalid

/-- `fn_NetSim_AODV_UpdateRouteTable`. -/
def updateRouteTable (ip : ν) (lifetime : ℚ) (dev : Device ν) : Device ν :=
  { dev with routeTable := dev.routeTable.map fun entry =>
      if entry.nextHop = ip ∨ entry.destinationIPAddress = ip then
        { entry with lifetime := max entry.lifetime lifetime }
      else entry }

/-- The loop of `fn_NetSim_AODV_ActiveRouteTimeout`. An entry of the destination that stays is the time of the
next event, with which later entries are compared. -/
def dropExpired (dest : ν) : ℚ → List (RouteEntry ν) → List (RouteEntry ν)
  | _, [] => []
  | now, entry :: rest =>
    if entry.destinationIPAddress = dest then
      if entry.lifetime ≤ now then dropExpired dest now rest else entry :: dropExpired dest entry.lifetime rest
    else entry :: dropExpired dest now rest

/-- `fn_NetSim_AODV_ActiveRouteTimeout`. -/
def activeRouteTimeoutEvent (now : ℚ) (dest : ν) (dev : Device ν) : Device ν :=
  { dev with routeTable := dropExpired dest now dev.routeTable }

/-- `fn_NetSim_AODV_InsertInRREQSeenTable`. -/
def insertInRreqSeenTable (originator : ν) (rreqId : ℕ) (dev : Device ν) : Device ν :=
  { dev with rreqSeenTable := dev.rreqSeenTable ++ [(originator, rreqId)] }

end Device

/-- The entry is made invalid. -/
def RouteEntry.invalidate (now : ℚ) (entry : RouteEntry ν) : RouteEntry ν :=
  { entry with routingFlags := .invalid, lifetime := now + deletePeriod }

/-- What the loops of the route errors do with an entry. -/
def RouteEntry.breakIf (now : ℚ) (hit : RouteEntry ν → Bool) (entry : RouteEntry ν) : RouteEntry ν :=
  if hit entry then entry.invalidate now else entry

/-- The loops of the route errors: the entries that are hit are made invalid. -/
def Device.breakRoutes (now : ℚ) (hit : RouteEntry ν → Bool) (dev : Device ν) : Device ν :=
  { dev with routeTable := dev.routeTable.map (RouteEntry.breakIf now hit) }

/-- What changes the route table of a node. -/
inductive TableEvent (ν : Type)
  | insert (now : ℚ) (ip : ν) (seqNumber hopCount : ℕ) (nextHop : ν) (lifeTime : ℚ)
  | invalidate (now : ℚ) (hit : RouteEntry ν → Bool)
  | update (ip : ν) (lifetime : ℚ)
  | timeout (now : ℚ) (dest : ν)

/-- The table after an event. -/
def Device.handle (dev : Device ν) : TableEvent ν → Device ν
  | .insert now ip seqNumber hopCount nextHop lifeTime =>
    dev.insertInRouteTable now ip seqNumber hopCount nextHop lifeTime
  | .invalidate now hit => dev.breakRoutes now hit
  | .update ip lifetime => dev.updateRouteTable ip lifetime
  | .timeout now dest => dev.activeRouteTimeoutEvent now dest

/-- The table after some events, from an empty one. -/
def Device.after (events : List (TableEvent ν)) : Device ν := events.foldl Device.handle ⟨0, [], [], []⟩

/-! ## The nodes -/

/-- The devices, the counter `nRREQId`, which they share, and the packets on their way. -/
structure Net (ν : Type) where
  dev : ν → Device ν
  nRREQId : ℕ
  network : List (Packet ν)

namespace Net

/-- The variables of one device are changed. -/
def setDev (u : ν) (dev : Device ν) (s : Net ν) : Net ν := { s with dev := Function.update s.dev u dev }

/-- A packet is handed to the network. -/
def send (receiver : Option ν) (body : Body ν) (s : Net ν) : Net ν :=
  { s with network := s.network ++ [⟨receiver, body⟩] }

variable (findSequenceNumber : Device ν → ν → ℕ)

/-- What `fn_NetSim_AODV_GenerateRREQ` and `fn_NetSim_AODV_RetryRREQ` do for a destination. -/
def generateRreq (u dest : ν) (s : Net ν) : Net ν :=
  let dev := s.dev u
  let nDestSeq := findSequenceNumber dev dest
  let dev := { dev with nSequenceNumber := dev.nSequenceNumber + 1 }
  let rreqId := s.nRREQId + 1
  let rreq := ⟨0, rreqId, dest, nDestSeq, u, dev.nSequenceNumber, u, false⟩
  ({ s with nRREQId := rreqId }.setDev u (dev.insertInRreqSeenTable u rreqId)).send none (.rreq rreq)

/-- `fn_NetSim_AODV_TransmitHelloMessage`, where the HELLO is due. -/
def transmitHello (now : ℚ) (u : ν) (s : Net ν) : Net ν :=
  if (s.dev u).routeTable = [] then s
  else s.send none (.rrep ⟨0, u, (s.dev u).nSequenceNumber, u, now + allowedHelloLoss * helloInterval, u⟩)

/-- `fn_NetSim_AODV_ForwardRREQ`. -/
def forwardRreq (u : ν) (rreq : Rreq ν) (s : Net ν) : Net ν :=
  let nSeq := findSequenceNumber (s.dev u) rreq.destinationIPAddress
  s.send none (.rreq { rreq with
    hopCount := rreq.hopCount + 1
    destinationSequenceNumber := max nSeq rreq.destinationSequenceNumber
    lastAddress := u })

/-- `fn_NetSim_AODV_GenerateRREP`. -/
def generateRrep (u : ν) (rreq : Rreq ν) (s : Net ν) : Net ν :=
  let dev := { s.dev u with nSequenceNumber := (s.dev u).nSequenceNumber + 1 }
  (s.setDev u dev).send (some rreq.lastAddress)
    (.rrep ⟨1, rreq.destinationIPAddress, dev.nSequenceNumber, rreq.originatorIPAddress, myRouteTimeout, u⟩)

/-- The RREP of `fn_NetSim_AODV_GenerateRREPByIntermediate` for an entry. -/
def intermediateRrep (now : ℚ) (u : ν) (rreq : Rreq ν) (table : RouteEntry ν) (s : Net ν) : Rrep ν where
  hopCount := UInt8.ofNat table.hopCount
  destinationIPaddress := rreq.destinationIPAddress
  destinationSequenceNumber := findSequenceNumber (s.dev u) rreq.destinationIPAddress
  originatorIPaddress := rreq.originatorIPAddress
  lifetime := (table.lifetime - now).floor
  lastAddress := u

/-- `fn_NetSim_AODV_GenerateRREPByIntermediate`. -/
def generateRrepByIntermediate (now : ℚ) (u : ν) (rreq : Rreq ν) (s : Net ν) : Net ν :=
  match (s.dev u).findRouteTable rreq.destinationIPAddress with
  | none => s
  | some table =>
    if table.nextHop = rreq.lastAddress then s.forwardRreq findSequenceNumber u rreq
    else s.send (some rreq.lastAddress) (.rrep (s.intermediateRrep findSequenceNumber now u rreq table))

/-- The reverse route that `fn_NetSim_AODV_ProcessRREQ` inserts, behind the check for a duplicate. -/
def insertReverse (now : ℚ) (u : ν) (rreq : Rreq ν) (s : Net ν) : Net ν :=
  s.setDev u (((s.dev u).insertInRreqSeenTable rreq.originatorIPAddress rreq.rreqId).insertInRouteTable now
    rreq.originatorIPAddress rreq.originatorSequenceNumber rreq.hopCount.toNat rreq.lastAddress
    (now + 2 * netTraversalTime - 2 * rreq.hopCount.toNat * nodeTraversalTime))

/-- `fn_NetSim_AODV_ProcessRREQ`. -/
def processRreq (now : ℚ) (u : ν) (rreq : Rreq ν) (s : Net ν) : Net ν :=
  if (rreq.originatorIPAddress, rreq.rreqId) ∈ (s.dev u).rreqSeenTable then s
  else
    let s := s.insertReverse now u rreq
    if u = rreq.destinationIPAddress then s.generateRrep u rreq
    else if (s.dev u).checkRouteFound now rreq.destinationIPAddress && !rreq.destinationOnly then
      s.generateRrepByIntermediate findSequenceNumber now u rreq
    else s.forwardRreq findSequenceNumber u rreq

/-- `fn_NetSim_AODV_ForwardRREP`. -/
def forwardRrep (now : ℚ) (u : ν) (receiver : Option ν) (rrep : Rrep ν) (s : Net ν) : Net ν :=
  if (s.dev u).checkRouteFound now rrep.originatorIPaddress && receiver.isSome then
    s.send ((s.dev u).findNextHop rrep.originatorIPaddress)
      (.rrep { rrep with hopCount := rrep.hopCount + 1, lastAddress := u })
  else s

/-- The route that `fn_NetSim_AODV_ProcessRREP` inserts. The test in front of it compares pointers to different
copies, so it never succeeds. -/
def insertForward (now : ℚ) (u : ν) (rrep : Rrep ν) (s : Net ν) : Net ν :=
  s.setDev u (((s.dev u).insertInRouteTable now rrep.destinationIPaddress rrep.destinationSequenceNumber
    rrep.hopCount.toNat rrep.lastAddress (now + activeRouteTimeout)).updateRouteTable rrep.lastAddress rrep.lifetime)

/-- `fn_NetSim_AODV_ProcessRREP`. -/
def processRrep (now : ℚ) (u : ν) (receiver : Option ν) (rrep : Rrep ν) (s : Net ν) : Net ν :=
  let s := s.insertForward now u rrep
  if u = rrep.originatorIPaddress then s else s.forwardRrep now u receiver rrep

/-- `fn_NetSim_AODV_GenerateRERR`, for a neighbour that is not reached. `DestCount` has 8 bits. -/
def generateRerr (now : ℚ) (u unreachableIP : ν) (s : Net ν) : Net ν :=
  let broken := (s.dev u).routeTable.filter fun entry => entry.nextHop = unreachableIP
  let list := broken.map fun entry => (entry.destinationIPAddress, entry.destinationSequenceNumber)
  let s := s.setDev u ((s.dev u).breakRoutes now fun entry => entry.nextHop = unreachableIP)
  if list = [] then s else s.send none (.rerr ⟨u, list.take (list.length % 256)⟩)

/-- Whether `fn_NetSim_AODV_ProcessRERR` makes an entry invalid. -/
def isHit (rerr : Rerr ν) (entry : RouteEntry ν) : Bool :=
  rerr.unreachable.any fun destination =>
    destination.1 = entry.destinationIPAddress ∧ rerr.sourceIP = entry.nextHop

/-- `fn_NetSim_AODV_ProcessRERR`. -/
def processRerr (now : ℚ) (u : ν) (rerr : Rerr ν) (s : Net ν) : Net ν :=
  let flag := (s.dev u).routeTable.any (isHit rerr)
  let s := s.setDev u ((s.dev u).breakRoutes now (isHit rerr))
  if flag then s.send none (.rerr { rerr with sourceIP := u }) else s

/-- The processing of a packet, by its type. -/
def process (now : ℚ) (u : ν) (packet : Packet ν) (s : Net ν) : Net ν :=
  match packet.body with
  | .rreq rreq => s.processRreq findSequenceNumber now u rreq
  | .rrep rrep => s.processRrep now u packet.receiver rrep
  | .rerr rerr => s.processRerr now u rerr

end Net

/-- What happens in the network. A packet is named by its place in the list; it stays there if it will be
delivered again. -/
inductive Event (ν : Type)
  | discover (u dest : ν)
  | hello (now : ℚ) (u : ν)
  | deliver (now : ℚ) (u : ν) (place : ℕ) (again : Bool)
  | lose (place : ℕ)
  | linkBreak (now : ℚ) (u unreachableIP : ν)
  | routeTimeout (now : ℚ) (u dest : ν)
  | routeUsed (u ip : ν) (lifetime : ℚ)
deriving DecidableEq, Repr

namespace Net

variable (findSequenceNumber : Device ν → ν → ℕ)

/-- The network without a packet. -/
def take (place : ℕ) (s : Net ν) : Net ν := { s with network := s.network.eraseIdx place }

/-- One step of the network. -/
def step (s : Net ν) : Event ν → Option (Net ν)
  | .discover u dest => some (s.generateRreq findSequenceNumber u dest)
  | .hello now u => some (s.transmitHello now u)
  | .deliver now u place again => do
    let packet ← s.network[place]?
    if packet.receiver.all (fun v => v = u) then
      return (if again then s else s.take place).process findSequenceNumber now u packet
    else none
  | .lose place => some (s.take place)
  | .linkBreak now u unreachableIP => some (s.generateRerr now u unreachableIP)
  | .routeTimeout now u dest => some (s.setDev u ((s.dev u).activeRouteTimeoutEvent now dest))
  | .routeUsed u ip lifetime => some (s.setDev u ((s.dev u).updateRouteTable ip lifetime))

/-- The state in which no node has a route. -/
def start : Net ν := ⟨fun _ => ⟨0, [], [], []⟩, 0, []⟩

/-- The runs of the network. -/
def machine : Machine (Net ν) (Event ν) where
  init s := s = start
  step s e := s.step findSequenceNumber e

end Net

end NetSim.Aodv
