import NetSim.Spec.Olsr

/-!
# What an OLSR node learns from HELLO messages

`fn_NetSim_NDP_ReceiveHello` and the expiry of link tuples, over all the lists that they change. The events of sub event
`OLSR_LINK_TUPLE_Expire` that have been added and not handled yet are part of the node. `fn_NetSim_OLSR_2HopTupleExpire` is
never called, and what `fn_NetSim_OLSR_UpdateRoutingTable` computes is left out. `none` is a read or a write that goes wrong.
-/

namespace NetSim.Olsr

/-- `OLSR_LINK_TYPE`. -/
inductive LinkType
  | unspecLink
  | asymLink
  | symLink
  | lostLink
deriving DecidableEq, Repr

/-- `NEIGHB_HOLD_TIME`, for `OLSR_REFERESH_INTERVAL_DEFAULT`. -/
def neighbHoldTime : ℚ := 2 * 3 * second

variable {α : Type}

/-- `OLSR_HELLO_LINK`, with its link type. -/
structure LinkInfo (α : Type) extends HelloLink α where
  linkType : LinkType
deriving DecidableEq, Repr

/-- A HELLO: `OLSR_HELLO_PACKET` in its packet, with the time that `olsrConvertMEToDouble` reads from `Vtime`. -/
structure Hello (α : Type) where
  szSourceIp : α
  originatorAddress : α
  validityTime : ℚ
  willingness : Willingness
  link : List (LinkInfo α)
deriving DecidableEq, Repr

/-- `NODE_OLSR`, with the address of the first interface, and the pending expiry events of link tuples. -/
structure NdpNode (α : Type) where
  mainAddress : α
  nwAddress : α
  olsr : NodeOlsr α
  mprSelectionSet : List (MprSelectionTuple α)
  events : List (α × ℚ)
deriving DecidableEq, Repr

variable [DecidableEq α]

/-! ### The link set -/

/-- What a HELLO says about the link to its sender. -/
def updateLink (now : ℚ) (hello : Hello α) (nwAddress : α) (link : LinkTuple α) : LinkTuple α :=
  let vTime := hello.validityTime * second
  let asymTime := now + vTime
  let times : ℚ × ℚ :=
    match hello.link.find? fun linkInfo => linkInfo.neighborInterfaceAddress = nwAddress with
    | none => (link.symTime, link.time)
    | some linkInfo =>
      if linkInfo.linkType = .lostLink then (now - 1, link.time)
      else if linkInfo.linkType = .asymLink ∨ linkInfo.linkType = .symLink then (now + vTime, now + neighbHoldTime)
      else (link.symTime, link.time)
  { link with
    symTime := times.1
    asymTime := asymTime
    time := if asymTime ≤ times.2 then times.2 else asymTime }

/-- `fn_NetSim_OLSR_PopulateLinkSet`. A new link tuple gets its expiry event. -/
def populateLinkSet (now : ℚ) (hello : Hello α) (n : NdpNode α) : NdpNode α :=
  let src := hello.szSourceIp
  let update : List (LinkTuple α) → List (LinkTuple α) := FirstMatch.updateFirst (fun link => link.neighborIfaceAddr = src)
    (updateLink now hello n.nwAddress) 1
  if (findLinkSet n.olsr.linkSet src).isSome then
    { n with olsr := { n.olsr with linkSet := update n.olsr.linkSet } }
  else
    let link : LinkTuple α := updateLink now hello n.nwAddress ⟨n.nwAddress, src, now - 1, 0, now + hello.validityTime * second⟩
    { n with
      olsr := { n.olsr with linkSet := n.olsr.linkSet ++ [link], isRoutingTableUpdate := true }
      events := n.events ++ [(src, link.time)] }

/-! ### The neighbour set -/

/-- The body of the first loop of `fn_NetSim_OLSR_PopulateNeighborSet`. -/
def addNeighbor (now : ℚ) (s : NodeOlsr α) (link : LinkTuple α) : NodeOlsr α :=
  let found := (findNeighborSet s.neighborSet link.neighborIfaceAddr).isSome
  let neighborSet := if found then s.neighborSet else s.neighborSet ++ [⟨link.neighborIfaceAddr, .notNeigh, .default⟩]
  let status : NeighborType := if now ≤ link.symTime then .symNeigh else .notNeigh
  { s with
    neighborSet := FirstMatch.updateFirst (fun neighbor => neighbor.neighborMainAddr = link.neighborIfaceAddr)
      (fun neighbor => { neighbor with status := status }) 1 neighborSet
    isRoutingTableUpdate := s.isRoutingTableUpdate || !found || decide (now ≤ link.symTime) }

/-- The last loop: each neighbour that the HELLO lists gets the willingness of its sender. -/
def setWillingness (willingness : Willingness) (neighborSet : List (NeighborTuple α)) (linkInfo : LinkInfo α) :
    List (NeighborTuple α) :=
  FirstMatch.updateFirst (fun neighbor => neighbor.neighborMainAddr = linkInfo.neighborInterfaceAddress)
    (fun neighbor => { neighbor with willingness := willingness }) 1 neighborSet

/-- `fn_NetSim_OLSR_PopulateNeighborSet`. The second loop frees a neighbour without a link from the list that the first tuple
is, not from the set. -/
def populateNeighborSet (now : ℚ) (hello : Hello α) (s : NodeOlsr α) : Option (NodeOlsr α) :=
  let added := s.linkSet.foldl (addNeighbor now) s
  if added.neighborSet.all fun neighbor => (findLinkSet added.linkSet neighbor.neighborMainAddr).isSome then
    some { added with neighborSet := hello.link.foldl (setWillingness hello.willingness) added.neighborSet }
  else none

/-! ### The two-hop neighbour set -/

/-- What `olsrFind2HopNeighbor` looks for. -/
def isTwoHop (neighborAddress twoHopAddress : α) (tuple : TwoHopTuple α) : Bool :=
  tuple.neighborMainAddr = neighborAddress && tuple.twoHopAddr = twoHopAddress

/-- The body of the loop of `fn_NetSim_OLSR_Populate2HopNeighbor`. The addresses of a tuple that is found are written again. -/
def addTwoHop (time : ℚ) (originator mainAddress : α) (s : NodeOlsr α) (linkInfo : LinkInfo α) : NodeOlsr α :=
  let twoHop := linkInfo.neighborInterfaceAddress
  let isFound := isTwoHop originator twoHop
  if linkInfo.neighTypes = .notNeigh then { s with twoHopNeighborSet := s.twoHopNeighborSet.eraseP isFound }
  else if twoHop = mainAddress then s
  else if (s.twoHopNeighborSet.find? isFound).isSome then
    let update (tuple : TwoHopTuple α) : TwoHopTuple α := { tuple with time := time }
    { s with twoHopNeighborSet := FirstMatch.updateFirst isFound update 1 s.twoHopNeighborSet }
  else
    { s with
      twoHopNeighborSet := s.twoHopNeighborSet ++ [⟨originator, twoHop, time⟩]
      isRoutingTableUpdate := true }

/-- `fn_NetSim_OLSR_Populate2HopNeighbor`. -/
def populateTwoHopNeighbor (now : ℚ) (hello : Hello α) (mainAddress : α) (s : NodeOlsr α) : NodeOlsr α :=
  if (findLinkSet s.linkSet hello.originatorAddress).any fun link => now ≤ link.symTime then
    hello.link.foldl (addTwoHop (now + hello.validityTime * second) hello.originatorAddress mainAddress) s
  else s

/-! ### HELLO messages -/

/-- `fn_NetSim_NDP_ReceiveHello` up to the multipoint relays. -/
def populateSets (now : ℚ) (hello : Hello α) (n : NdpNode α) : Option (NdpNode α) :=
  let n := populateLinkSet now hello n
  (populateNeighborSet now hello n.olsr).map fun olsr =>
    { n with olsr := populateTwoHopNeighbor now hello n.mainAddress olsr }

/-- The rest of `fn_NetSim_NDP_ReceiveHello`. -/
def finishHello (now : ℚ) (hello : Hello α) (n : NdpNode α) (olsr : NodeOlsr α) : NdpNode α :=
  { n with
    olsr := { olsr with isRoutingTableUpdate := false }
    mprSelectionSet := (hello.link.map LinkInfo.toHelloLink).foldl
      (addSelector now hello.validityTime hello.originatorAddress) n.mprSelectionSet }

/-- `fn_NetSim_NDP_ReceiveHello`. -/
def receiveHello (now : ℚ) (hello : Hello α) (n : NdpNode α) (rounds : ℕ) : Option (NdpNode α) :=
  (populateSets now hello n).bind fun n => (populateMprSet rounds now n.olsr).map (finishHello now hello n)

/-! ### Expiry -/

/-- `fn_NetSim_OLSR_RemoveNeighbortuple`. Its loop, and that of `fn_NetSim_OLSR_Remove2HopTuple`, start from the head again
after each removal. -/
def removeNeighborTuple (s : NodeOlsr α) (address : α) : NodeOlsr α :=
  if 2 ≤ s.linkSet.countP fun link => link.neighborIfaceAddr = address then s
  else if (findNeighborSet s.neighborSet address).isSome then
    { s with
      neighborSet := s.neighborSet.filter fun neighbor => neighbor.neighborMainAddr ≠ address
      twoHopNeighborSet := s.twoHopNeighborSet.filter fun tuple => tuple.neighborMainAddr ≠ address
      isRoutingTableUpdate := true }
  else s

/-- `fn_NetSim_OLSR_LinkTupleExpire` of the link tuple with an address, whose event has been taken out. -/
def linkTupleExpire (now : ℚ) (address : α) (n : NdpNode α) : Option (NdpNode α) :=
  (findLinkSet n.olsr.linkSet address).map fun link =>
    if link.time ≤ now then
      let olsr := removeNeighborTuple n.olsr address
      { n with olsr := { olsr with
          linkSet := olsr.linkSet.eraseP fun link => link.neighborIfaceAddr = address
          isRoutingTableUpdate := false } }
    else { n with events := n.events ++ [(address, link.time)] }

/-! ### The HELLO of the node -/

/-- The body of the first loop of `fn_NetSim_Fill_Link_To_Hello`. -/
def helloLink (now : ℚ) (n : NdpNode α) (link : LinkTuple α) : LinkInfo α where
  neighTypes := ((findNeighborSet n.olsr.neighborSet link.neighborIfaceAddr).map NeighborTuple.status).getD .notNeigh
  neighborInterfaceAddress := link.neighborIfaceAddr
  linkType := if now ≤ link.symTime then .symLink else if now ≤ link.asymTime then .asymLink else .lostLink

/-- The body of the second loop, for the neighbours that `olsrFinkLinkInfoFromHello` does not find. -/
def addUnspecLink (hello : List (LinkInfo α)) (neighbor : NeighborTuple α) : List (LinkInfo α) :=
  if hello.any fun linkInfo => linkInfo.neighborInterfaceAddress = neighbor.neighborMainAddr then hello
  else hello ++ [⟨⟨neighbor.status, neighbor.neighborMainAddr⟩, .unspecLink⟩]

/-- `fn_NetSim_Fill_Link_To_Hello`. -/
def fillLinkToHello (now : ℚ) (n : NdpNode α) : List (LinkInfo α) :=
  n.olsr.neighborSet.foldl addUnspecLink
    ((n.olsr.linkSet.filter fun link => link.localIfaceAddr = n.mainAddress).map (helloLink now n))

/-! ### Runs -/

/-- A run of a node: HELLO messages of any senders with any contents, and expiry events. -/
inductive NdpRun (mainAddress nwAddress : α) : NdpNode α → Prop
  | start : NdpRun mainAddress nwAddress ⟨mainAddress, nwAddress, ⟨[], [], [], [], false⟩, [], []⟩
  | hello {n n' : NdpNode α} (now : ℚ) (hello : Hello α) (h : NdpRun mainAddress nwAddress n)
      (hresult : Loop.Gives (receiveHello now hello n) n') : NdpRun mainAddress nwAddress n'
  | expire {n n' : NdpNode α} {address : α} {now : ℚ} (h : NdpRun mainAddress nwAddress n) (hevent : (address, now) ∈ n.events)
      (hresult : linkTupleExpire now address { n with events := n.events.erase (address, now) } = some n') :
      NdpRun mainAddress nwAddress n'

end NetSim.Olsr
