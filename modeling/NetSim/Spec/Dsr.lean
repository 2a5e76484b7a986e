import Mathlib.Data.Rat.Defs
import Mathlib.Logic.Function.Basic
import NetSim.Lib.Machine

/-!
# Route discovery of a DSR node

The table of route requests, the route cache, and what a node makes of a route request. A device is its address.

A request lists at most 62 addresses, since `nOptDataLen` has 8 bits. Retransmission and jitter times, metrics and the
send buffer play no part here; whether the cache has a route when a request times out is said by the event.
-/

namespace NetSim.Dsr

/-- `DSR_MAX_REQUEST_REXMT`. -/
def dsrMaxRequestRexmt : ℕ := 16

/-- `DSR_DISCOVERY_HOP_LIMIT`. -/
def dsrDiscoveryHopLimit : ℕ := 255

/-- `ROUTE_CACHE_TIMEOUT`, in microseconds. -/
def routeCacheTimeout : ℚ := 300000000

/-- A received `DSR_RREQ_OPTION`, with the address of the node that has sent the packet first. -/
structure RreqOption (ι : Type*) where
  initiator : ι
  nIdentification : UInt16
  targetAddress : ι
  address : List ι
  length_le : address.length ≤ 62

/-- `DSR_RREP_OPTION`, with the node that the packet goes to. -/
structure RrepOption (ι : Type*) where
  nOptDataLen : ℕ
  address : List ι
  nextHop : ι
deriving DecidableEq

/-- The addresses that a receiver reads: `DSR_RREP_LEN` of them. -/
def RrepOption.route {ι : Type*} (rrep : RrepOption ι) : List ι := rrep.address.take ((rrep.nOptDataLen - 3) / 4 + 1)

/-- `DSR_RREQ_TABLE`. The source has no `initiator`: it says of which node the request is that the entry has been made
for last. -/
structure RreqTable (ι : Type*) where
  initiator : ι
  target : ι
  nIdentification : UInt16
  nCount : ℕ
  nTTL : ℕ
  flag : Bool
deriving DecidableEq

/-- `DSR_ROUTE_CACHE`. -/
structure RouteCache (ι : Type*) where
  dTimeOutTime : ℚ
  address : List ι
deriving DecidableEq

/-- `DSR_DEVICE_VAR` of the node with an address. -/
structure DeviceVar (ι : Type*) where
  address : ι
  nRreqIdentification : UInt32
  rreqTable : List (RreqTable ι)
  routeCache : List (RouteCache ι)
deriving DecidableEq

variable {ι : Type*} [DecidableEq ι]

/-! ### The table of route requests -/

/-- `fn_NetSim_DSR_CheckEntryInRREQTable`. -/
def checkEntryInRreqTable (rreq : RreqOption ι) (table : List (RreqTable ι)) : Bool :=
  table.any fun e => e.nIdentification = rreq.nIdentification && e.target = rreq.targetAddress

/-- `fn_NetSim_DSR_CheckIPinIPList`. -/
def checkIpInIpList (ipList : List ι) (ip : ι) : Bool := ipList.any fun a => a = ip

/-- `fn_NetSim_DSR_InitRouteRequest`: the entry of a request of the node itself. -/
def initRouteRequest (d : DeviceVar ι) (target : ι) : DeviceVar ι :=
  let nIdentification := d.nRreqIdentification + 1
  { d with
    nRreqIdentification := nIdentification
    rreqTable := d.rreqTable ++ [⟨d.address, target, nIdentification.toUInt16, 1, 1, false⟩] }

/-- What `getRREQTable` looks for: an entry for the target without a reply. -/
def isPending (target : ι) (e : RreqTable ι) : Bool := e.target = target && e.flag = false

/-- Changes the first entry that `getRREQTable` finds. -/
def updatePending (target : ι) (f : RreqTable ι → RreqTable ι) : List (RreqTable ι) → List (RreqTable ι)
  | [] => []
  | e :: l => if isPending target e then f e :: l else e :: updatePending target f l

/-- `fn_NetSim_DSR_RetryRREQ`. -/
def retryRreq (d : DeviceVar ι) (target : ι) : DeviceVar ι :=
  let nIdentification := d.nRreqIdentification + 1
  { d with
    nRreqIdentification := nIdentification
    rreqTable := updatePending target (fun e =>
      { e with
        initiator := d.address
        nCount := e.nCount + 1
        nIdentification := nIdentification.toUInt16
        nTTL := dsrDiscoveryHopLimit }) d.rreqTable }

/-- `fn_NetSim_DSR_DeleteRREQTable`. -/
def deleteRreqTable (d : DeviceVar ι) (target : ι) : DeviceVar ι :=
  { d with rreqTable := d.rreqTable.eraseP fun e => e.target = target }

/-- `fn_NetSim_DSR_RREQTimeout`. `none` is the access to an entry that is not there. -/
def rreqTimeout (d : DeviceVar ι) (target : ι) (routeFound : Bool) : Option (DeviceVar ι) :=
  if routeFound then some d
  else
    match d.rreqTable.find? (isPending target) with
    | none => none
    | some table => some (if table.nCount < dsrMaxRequestRexmt then retryRreq d target else deleteRreqTable d target)

/-! ### The route cache -/

/-- `fn_NetSim_DSR_UpdateRouteCache`: the part of a route from the node on. -/
def updateRouteCache (d : DeviceVar ι) (address : List ι) (time : ℚ) : DeviceVar ι :=
  { d with routeCache := d.routeCache ++ [⟨time + routeCacheTimeout, address.dropWhile fun a => a ≠ d.address⟩] }

/-- `fn_NetSim_DSR_FindCache`: the route, and the cache without the routes that have expired before it. -/
def findCache : List (RouteCache ι) → ι → ℚ → Option (RouteCache ι) × List (RouteCache ι)
  | [], _, _ => (none, [])
  | cache :: l, address, time =>
    if cache.dTimeOutTime ≤ time then findCache l address time
    else if checkIpInIpList cache.address address then
      let cache := { cache with dTimeOutTime := time + routeCacheTimeout }
      (some cache, cache :: l)
    else
      let r := findCache l address time
      (r.1, cache :: r.2)

/-- `fn_NetSim_DSR_ValidateRouteCache`. -/
def validateRouteCache (cache addList : List ι) : Bool := cache.all fun a => addList.all fun b => a ≠ b

/-! ### Route replies -/

/-- `nOptDataLen` of a reply with some addresses. -/
def rrepOptDataLen (addressCount : ℕ) : ℕ := ((addressCount - 1) * 4 + 3) % 256

/-- The last address before the initiator's, when the reply is sent: where the packet goes first. -/
def RreqOption.lastHop (rreq : RreqOption ι) : ι := (rreq.initiator :: rreq.address).getLast (List.cons_ne_nil _ _)

/-- `fn_NetSim_DSR_GenerateRREP`. -/
def generateRrep (d : DeviceVar ι) (rreq : RreqOption ι) : RrepOption ι where
  nOptDataLen := rrepOptDataLen (rreq.address.length + 2)
  address := rreq.initiator :: rreq.address ++ [d.address]
  nextHop := rreq.lastHop

/-- `determine_position`, from position `i` on. -/
def determinePosition (myIp dest : ι) : ℤ → ℤ → ℤ → List ι → ℤ × ℤ
  | _, my, de, [] => (my, de)
  | i, my, de, a :: l =>
    let my := if a = myIp then i + 1 else my
    if a = dest then (my, i + 1) else determinePosition myIp dest (i + 1) my de l

/-- The addresses that `fn_NetSim_DSR_GenerateRREPUsingRouteCache` takes from a cached route. -/
def cachePart (myIp dest : ι) (cache : List ι) : List ι :=
  let pos := determinePosition myIp dest 0 (-1) (-1) cache
  let len := if pos.1 = -1 then pos.2 else pos.2 - pos.1
  let n := if pos.1 = -1 then 0 else pos.1
  (cache.drop n.toNat).take len.toNat

/-- `fn_NetSim_DSR_GenerateRREPUsingRouteCache`. -/
def generateRrepUsingRouteCache (d : DeviceVar ι) (rreq : RreqOption ι) (time : ℚ) :
    Option (RrepOption ι) × DeviceVar ι :=
  let r := findCache d.routeCache rreq.targetAddress time
  let d := { d with routeCache := r.2 }
  match r.1 with
  | none => (none, d)
  | some cache =>
    if !validateRouteCache cache.address rreq.address then (none, d)
    else
      let part := cachePart rreq.initiator rreq.targetAddress cache.address
      (some {
        nOptDataLen := rrepOptDataLen (rreq.address.length + part.length + 1)
        address := rreq.initiator :: rreq.address ++ part
        nextHop := rreq.lastHop }, d)

/-! ### Route requests -/

/-- What becomes of a route request. `ignored` is one that is neither answered nor forwarded nor freed. -/
inductive Action (ι : Type*)
  | discard
  | reply (rrep : RrepOption ι)
  | replyFromCache (rrep : RrepOption ι)
  | ignored
  | forward (address : List ι) (nOptDataLen : ℕ)
deriving DecidableEq

/-- The entry for a received request; the second one of a request has neither count nor TTL. -/
def addRreqTable (d : DeviceVar ι) (rreq : RreqOption ι) (n : ℕ) : DeviceVar ι :=
  { d with rreqTable := d.rreqTable ++ [⟨rreq.initiator, rreq.targetAddress, rreq.nIdentification, n, n, false⟩] }

/-- `fn_NetSim_DSR_ProcessRREQ`. -/
def processRreq (d : DeviceVar ι) (rreq : RreqOption ι) (time : ℚ) : DeviceVar ι × Action ι :=
  if checkEntryInRreqTable rreq d.rreqTable then (d, .discard)
  else
    let d := addRreqTable d rreq 1
    if rreq.targetAddress = d.address then (d, .reply (generateRrep d rreq))
    else if checkIpInIpList rreq.address d.address then (d, .discard)
    else
      let d := addRreqTable d rreq 0
      let r := findCache d.routeCache rreq.targetAddress time
      let d := { d with routeCache := r.2 }
      match r.1 with
      | some _ =>
        let g := generateRrepUsingRouteCache d rreq time
        (g.2, match g.1 with
          | some rrep => .replyFromCache rrep
          | none => .ignored)
      | none => (d, .forward (rreq.address ++ [d.address]) ((4 * rreq.address.length + 6 + 4) % 256))

/-- `fn_NetSim_DSR_ProcessRREP` of the addresses of a reply: the node learns the route, and its request is answered when
it is the initiator. -/
def processRrep (d : DeviceVar ι) (address : List ι) (time : ℚ) : DeviceVar ι :=
  let d := updateRouteCache d address time
  match address.head?, address.getLast? with
  | some first, some last =>
    if first = d.address then
      { d with rreqTable := updatePending last (fun e => { e with flag := true }) d.rreqTable }
    else d
  | _, _ => d

/-! ### Runs -/

/-- A request: its initiator, its identification and its target. -/
abbrev Key (ι : Type*) := ι × UInt16 × ι

def RreqOption.key (rreq : RreqOption ι) : Key ι := (rreq.initiator, rreq.nIdentification, rreq.targetAddress)

/-- A node with the requests that it has initiated or processed, and whether it has discarded those, and only those,
that it should. -/
structure State (ι : Type*) where
  device : DeviceVar ι
  history : List (Key ι)
  exact : Bool
deriving DecidableEq

inductive Event (ι : Type*)
  | initRouteRequest (target : ι)
  | rreqTimeout (target : ι) (routeFound : Bool)
  | processRrep (address : List ι) (time : ℚ)
  | processRreq (rreq : RreqOption ι) (time : ℚ)

/-- Whether a received request is to be discarded: it has been initiated or processed before, or it has come by. -/
def ShouldDiscard (s : State ι) (rreq : RreqOption ι) : Prop :=
  rreq.key ∈ s.history ∨ s.device.address ∈ rreq.address

instance (s : State ι) (rreq : RreqOption ι) : Decidable (ShouldDiscard s rreq) := by
  unfold ShouldDiscard
  infer_instance

/-- The request that the node initiates next. -/
def nextKey (d : DeviceVar ι) (target : ι) : Key ι := (d.address, (d.nRreqIdentification + 1).toUInt16, target)

/-- Whether a request that times out is sent again. -/
def isRetried (d : DeviceVar ι) (target : ι) (routeFound : Bool) : Bool :=
  !routeFound && (d.rreqTable.find? (isPending target)).any fun e => e.nCount < dsrMaxRequestRexmt

/-- One event. -/
def step (s : State ι) : Event ι → Option (State ι)
  | .initRouteRequest target =>
    some { s with
      device := initRouteRequest s.device target
      history := s.history ++ [nextKey s.device target] }
  | .rreqTimeout target routeFound =>
    (rreqTimeout s.device target routeFound).map fun d =>
      { s with
        device := d
        history := if isRetried s.device target routeFound then s.history ++ [nextKey s.device target] else s.history }
  | .processRrep address time => some { s with device := processRrep s.device address time }
  | .processRreq rreq time =>
    let r := processRreq s.device rreq time
    some {
      device := r.1
      history := if rreq.key ∈ s.history then s.history else s.history ++ [rreq.key]
      exact := s.exact && decide (r.2 = .discard ↔ ShouldDiscard s rreq) }

/-- Nothing has been initiated or processed. -/
def Init (s : State ι) : Prop := s.device.rreqTable = [] ∧ s.history = [] ∧ s.exact = true

/-- A node. -/
def machine (ι : Type*) [DecidableEq ι] : Machine (State ι) (Event ι) where
  init := Init
  step := step

end NetSim.Dsr

/-!
## Route errors of DSR

A packet is sent with the source route of its first node. A node that cannot forward it makes a route error, takes it
in itself, and each node that it comes to forwards it to the next of the addresses that it carries.

`fn_NetSim_DSR_FillAddress` is not in the sources: what it fills in is a parameter. A route of a cache is the list of its
addresses, at least one, and a packet that is sent to a next hop gets there.
-/

namespace NetSim.Dsr

variable {ι : Type*} [DecidableEq ι]

/-- `DSR_SOURCE_ROUTE_OPTION`. `nOptDataLen` has 8 bits, and `nSegsLeft` 4. -/
structure SourceRouteOption (ι : Type*) where
  nOptDataLen : ℕ
  nSegsLeft : ℕ
  address : List ι
deriving DecidableEq

/-- A data packet with its source route. -/
structure DataPacket (ι : Type*) where
  szSourceIp : ι
  szDestIp : ι
  srcRouteOption : SourceRouteOption ι
deriving DecidableEq

/-- `DSR_RERR_OPTION` in its packet. -/
structure RerrPacket (ι : Type*) where
  szDestIp : ι
  szNextHopIp : ι
  errorSourceAddress : ι
  errorDestinationAddress : ι
  typeSpecificInformation : ι
  length : ℕ
  nSegsLeft : ℕ
  address : List ι
deriving DecidableEq

/-- `fn_NetSim_DSR_AddSourceRouteOption` of the first node; those behind it find the option already there. -/
def addSourceRouteOption (fillAddress : List ι → ι → ι → List ι) (cache : List ι) (src dest : ι) : DataPacket ι :=
  let address := fillAddress cache src dest
  { szSourceIp := src
    szDestIp := dest
    srcRouteOption := {
      nOptDataLen := (address.length * 4 + 2) % 256
      nSegsLeft := address.length % 16
      address := address } }

/-- `fnGetPrevHop`. -/
def getPrevHop (packet : DataPacket ι) : ι :=
  let srcRouteOption := packet.srcRouteOption
  let nlength := (srcRouteOption.nOptDataLen - 2) / 4
  if srcRouteOption.address = [] ∨ nlength = 1 ∨ srcRouteOption.nSegsLeft = nlength then packet.szSourceIp
  else srcRouteOption.address[srcRouteOption.nSegsLeft]?.getD packet.szSourceIp

/-- `fn_NetSim_DSR_GenerateRERR` at a node whose next hop does not answer. -/
def generateRerr (d nextHop : ι) (packet : DataPacket ι) : RerrPacket ι :=
  let srcRouteOption := packet.srcRouteOption
  let length := (srcRouteOption.nOptDataLen - 2) / 4 - srcRouteOption.nSegsLeft
  { szDestIp := packet.szSourceIp
    szNextHopIp := getPrevHop packet
    errorSourceAddress := d
    errorDestinationAddress := packet.szSourceIp
    typeSpecificInformation := nextHop
    length := length
    nSegsLeft := length
    address := (List.range length).map fun loop =>
      srcRouteOption.address[length - loop - 1]?.getD packet.szSourceIp }

/-- Whether a route goes from one node to the other in one hop. -/
def usesLink (ip1 ip2 : ι) : List ι → Bool
  | a :: b :: l => (a = ip1 && b = ip2) || usesLink ip1 ip2 (b :: l)
  | _ => false

/-- `fn_NetSim_DSR_DeleteEntryFromRouteCache`: after each removal the code starts from the head again. `none` is the read of
an empty route, for which the bound `nLength - 1` is the greatest `unsigned int`. -/
def deleteEntryFromRouteCache (ip1 ip2 : ι) : ℕ → List (List ι) → Option (List (List ι))
  | 0, l => some l
  | fuel + 1, l =>
    match l.find? fun r => r.isEmpty || usesLink ip1 ip2 r with
    | none => some l
    | some [] => none
    | some (_ :: _) => deleteEntryFromRouteCache ip1 ip2 fuel (l.eraseP (usesLink ip1 ip2))

/-- `fn_NetSim_DSR_ForwardRERR`: the next hop with the packet, if there is one. -/
def forwardRerr (rerr : RerrPacket ι) : Option (ι × RerrPacket ι) :=
  if rerr.nSegsLeft = 0 then none
  else
    let nSegsLeft := rerr.nSegsLeft - 1
    let nextHop := if nSegsLeft ≠ 0 then rerr.address[nSegsLeft]?.getD rerr.szDestIp else rerr.szDestIp
    some (nextHop, { rerr with nSegsLeft := nSegsLeft, szNextHopIp := nextHop })

/-- `fn_NetSim_DSR_ProcessRerr` at the node `d`, and at those that it is forwarded to: the nodes that it comes to, and
the caches after it. -/
def processRerr : ℕ → ι → RerrPacket ι → (ι → List (List ι)) → Option (List ι × (ι → List (List ι)))
  | 0, _, _, caches => some ([], caches)
  | fuel + 1, d, rerr, caches => do
    let cache ← deleteEntryFromRouteCache rerr.errorSourceAddress rerr.typeSpecificInformation
      (caches d).length (caches d)
    let caches := Function.update caches d cache
    match forwardRerr rerr with
    | none => return ([d], caches)
    | some (nextHop, rerr) =>
      let r ← processRerr fuel nextHop rerr caches
      return (d :: r.1, r.2)

/-- The source sends a packet along a route, and the node `d` on it cannot reach its next hop. -/
def reportError (fillAddress : List ι → ι → ι → List ι) (route : List ι) (src dest d nextHop : ι)
    (caches : ι → List (List ι)) : Option (List ι × (ι → List (List ι))) :=
  let rerr := generateRerr d nextHop (addSourceRouteOption fillAddress route src dest)
  processRerr (rerr.nSegsLeft + 1) d rerr caches

end NetSim.Dsr
