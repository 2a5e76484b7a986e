import NetSim.Lib.FirstMatch
import NetSim.Lib.Loop
import NetSim.Lib.Word
import NetSim.Spec.OspfLsa

/-!
# Shortest path first

`OSPF_SPF.c` up to the shortest path list. The routing table is not read before that list is
complete, so what is written to it on the way is left to `OspfRoute`.
-/

namespace NetSim.Ospf

/-- `OSPFVERTEXTYPE`. -/
inductive VertexType
  | router
  | network
deriving DecidableEq, Repr

/-- `OSPFNEXTHOPLISTITEM`, with the place of its allocation. A next hop that is `NULL` stands for a
directly connected network. -/
structure NextHopListItem where
  ptr : ℕ
  outIntf : ℕ
  nextHop : Option Ip
deriving DecidableEq, Repr

/-- `OSPFVERTEX`. -/
structure Vertex where
  vertexId : Ip
  vertexType : VertexType
  lsa : LsaHdr
  nextHopList : List NextHopListItem
  distance : ℕ
deriving DecidableEq, Repr

/-- `OSPF_LS_INFINITY`. -/
def lsInfinity : ℕ := 0xffffff

/-- The test of `ospf_spf_isInShortestPathList` and `ospf_spf_findCandidate`. -/
def Vertex.is (vertexType : VertexType) (vertexId : Ip) (vertex : Vertex) : Bool :=
  vertex.vertexType == vertexType && vertex.vertexId.same vertexId

/-- `ospf_spf_isInShortestPathList`. -/
def isInShortestPathList (shortestPathList : List Vertex) (vertexType : VertexType) (vertexId : Ip) : Bool :=
  shortestPathList.any (Vertex.is vertexType vertexId)

/-- `ospf_spf_findCandidate`. -/
def findCandidate (candidateList : List Vertex) (vertexType : VertexType) (vertexId : Ip) : Option Vertex :=
  candidateList.find? (Vertex.is vertexType vertexId)

/-! ## Next hops -/

/-- `ospf_spf_getLinkDataForThisVertex`: the data of the first link of the parent that leads to the
vertex. -/
def getLinkDataForThisVertex (vertex parent : Vertex) : Option Ip :=
  (parent.lsa.lsaInfo.rlsaLink.find? fun link =>
    link.type != .stub && link.linkId.same vertex.vertexId).map RlsaLink.linkData

/-- `ospf_spf_haveLinkWithNetworkVertex`. -/
def haveLinkWithNetworkVertex (ospf : Pds) (stack : Stack) (vertex : Vertex) : Bool :=
  ospf.ospfIf.any fun thisInterface =>
    stack.isInSameNetwork vertex.vertexId thisInterface.ipIfAddr thisInterface.ipIfMask &&
      thisInterface.state != .down

/-- `calloc` returns a place that no item of the list has. -/
def freshPtr (nextHopList : List NextHopListItem) : ℕ := (nextHopList.map NextHopListItem.ptr).foldr max 0 + 1

/-- `ospf_spf_isPresentinNextHopList`: items are compared as pointers. -/
def isPresentinNextHopList (nextHopList : List NextHopListItem) (item : NextHopListItem) : Bool :=
  nextHopList.any fun i => i.ptr == item.ptr

/-- The end of each branch of `ospf_spf_setNextHopForThisVertex`: a new item is added unless it is
there already. -/
def addNextHop (nextHopList : List NextHopListItem) (outIntf : ℕ) (nextHop : Option Ip) :
    Bool × List NextHopListItem :=
  let nextHopItem : NextHopListItem := ⟨freshPtr nextHopList, outIntf, nextHop⟩
  if !isPresentinNextHopList nextHopList nextHopItem then (true, nextHopList ++ [nextHopItem])
  else (false, nextHopList)

/-- The loop that inherits the next hops of the parent. -/
def inheritNextHops (nextHopList parentList : List NextHopListItem) : Bool × List NextHopListItem :=
  parentList.foldl (fun (inserted, list) listItem =>
    let (added, list) := addNextHop list listItem.outIntf listItem.nextHop
    (inserted || added, list)) (false, nextHopList)

/-- `ospf_spf_setNextHopForThisVertex`: its result and the next hop list of the vertex after it. An
interface id without an interface, which the source would dereference, gives `false`. -/
def setNextHopForThisVertex (ospf : Pds) (stack : Stack) (vertex parent : Vertex) :
    Bool × List NextHopListItem :=
  if parent.vertexType == .router && parent.vertexId.same ospf.routerId then
    match getLinkDataForThisVertex vertex parent with
    | none => (false, vertex.nextHopList)
    | some linkData =>
      let interfaceId := stack.getInterfaceIdFromIP linkData
      match ifGet ospf interfaceId with
      | none => (false, vertex.nextHopList)
      | some thisInterface =>
        if thisInterface.state == .down then (false, vertex.nextHopList)
        else match vertex.vertexType with
        | .router =>
          match neighborFind thisInterface vertex.vertexId with
          | none => (false, vertex.nextHopList)
          | some neigh => addNextHop vertex.nextHopList interfaceId (some neigh.neighborIPAddr)
        | .network => addNextHop vertex.nextHopList interfaceId none
  else if parent.vertexType == .network && haveLinkWithNetworkVertex ospf stack parent then
    match getLinkDataForThisVertex vertex parent with
    | none => (false, vertex.nextHopList)
    | some linkData =>
      let interfaceId := stack.getInterfaceIdFromIP linkData
      if interfaceId == 0 then (false, vertex.nextHopList)
      else match ifGet ospf interfaceId with
      | none => (false, vertex.nextHopList)
      | some thisInterface =>
        if thisInterface.state == .down then (false, vertex.nextHopList)
        else addNextHop vertex.nextHopList interfaceId (some linkData)
  else inheritNextHops vertex.nextHopList parent.nextHopList

/-! ## Candidates -/

/-- The advertisement that a link of a router LSA leads to, and the type of its vertex. `none` for
the links that are not examined. -/
def linkTarget (area : AreaDs) (link : RlsaLink) : Option (Option LsaHdr × VertexType) :=
  match link.type with
  | .pointToPoint => some (lookupLsaList area.routerLSAList link.linkId link.linkId, .router)
  | .transit => some (lookupLsaListById area.nwLSAList link.linkId, .network)
  | _ => none

/-- One link of the loop of `ospf_spf_updateCandidateListUsingRouterLSA`. The check that the link
has a partner in the other direction is commented out in the source. -/
def examineLink (ospf : Pds) (stack : Stack) (area : AreaDs) (shortestPathList : List Vertex)
    (vertex : Vertex) (candidateList : List Vertex) (link : RlsaLink) : List Vertex :=
  match linkTarget area link with
  | none => candidateList
  | some (none, _) => candidateList
  | some (some wlsa, newVertexType) =>
    if hasMaxAge ospf wlsa || isInShortestPathList shortestPathList newVertexType link.linkId then
      candidateList
    else
      let newVertexId := wlsa.linkStateId
      let newVertexDistance := Word.u32 (vertex.distance + link.metric.toNat)
      match findCandidate candidateList newVertexType newVertexId with
      | none =>
        let item : Vertex := ⟨newVertexId, newVertexType, wlsa, [], newVertexDistance⟩
        let (set, nextHopList) := setNextHopForThisVertex ospf stack item vertex
        if set then candidateList ++ [{ item with nextHopList }] else candidateList
      | some item =>
        let update (item : Vertex) : List Vertex :=
          let nextHopList := (setNextHopForThisVertex ospf stack item vertex).2
          FirstMatch.replaceFirst (Vertex.is newVertexType newVertexId) { item with nextHopList } candidateList
        if item.distance > newVertexDistance then
          update { item with distance := newVertexDistance, nextHopList := [] }
        else if item.distance == newVertexDistance then update item
        else candidateList

/-- `ospf_spf_updateCandidateList`; for a network vertex nothing is implemented. -/
def updateCandidateList (ospf : Pds) (stack : Stack) (area : AreaDs) (shortestPathList : List Vertex)
    (vertex : Vertex) (candidateList : List Vertex) : List Vertex :=
  match vertex.vertexType with
  | .network => candidateList
  | .router =>
    vertex.lsa.lsaInfo.rlsaLink.foldl (examineLink ospf stack area shortestPathList vertex) candidateList

/-! ## The shortest path list -/

/-- The choice of `ospf_spf_updateShortestPathList`: the closest candidate below infinity, the first
one of a distance, a network before a router. -/
def closestCandidate (candidateList : List Vertex) : Option Vertex :=
  (candidateList.foldl (fun (lowestMetric, closest) candidateEntry =>
    if candidateEntry.distance < lowestMetric then (candidateEntry.distance, some candidateEntry)
    else match closest with
    | none => (lowestMetric, none)
    | some c =>
      if candidateEntry.distance == lowestMetric && c.vertexType == .router &&
          candidateEntry.vertexType == .network then (lowestMetric, some candidateEntry)
      else (lowestMetric, some c)) (lsInfinity, none)).2

/-- The two lists of the search. -/
structure SpfState where
  candidateList : List Vertex
  shortestPathList : List Vertex
deriving DecidableEq, Repr

/-- The loop of `ospf_spf_findShrotestPathForThisArea`. It ends when the candidate list is empty; if
there is no closest candidate, it ends as well, by a `NULL` that is dereferenced. -/
def spfRound (ospf : Pds) (stack : Stack) (area : AreaDs) (s : SpfState) : SpfState ⊕ SpfState :=
  if s.candidateList.isEmpty then .inr s
  else match closestCandidate s.candidateList with
  | none => .inr s
  | some tempV =>
    let shortestPathList := s.shortestPathList ++ [tempV]
    let candidateList := s.candidateList.erase tempV
    .inl ⟨updateCandidateList ospf stack area shortestPathList tempV candidateList, shortestPathList⟩

/-- The root, before the loop: `none` if the router's own LSA is missing or has the maximum age. -/
def spfStart (ospf : Pds) (stack : Stack) (area : AreaDs) : Option SpfState :=
  match lookupLsaList area.routerLSAList ospf.routerId ospf.routerId with
  | none => none
  | some lsa =>
    if hasMaxAge ospf lsa then none
    else
      let tempV : Vertex := ⟨ospf.routerId, .router, lsa, [], 0⟩
      some ⟨updateCandidateList ospf stack area [tempV] tempV [], [tempV]⟩

/-- The search of `ospf_spf_findShrotestPathForThisArea` ends with these lists. Without a root both
are empty. -/
def SpfEnds (ospf : Pds) (stack : Stack) (area : AreaDs) (s : SpfState) : Prop :=
  match spfStart ospf stack area with
  | none => s = ⟨[], []⟩
  | some s₀ => ∃ n, Loop.run (spfRound ospf stack area) n s₀ = some s

end NetSim.Ospf
