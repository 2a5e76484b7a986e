import NetSim.Spec.OspfSpf

/-!
# The routing table and stub routes

`OSPF_RoutingTable.c` and the end of `ospf_spf_findShrotestPathForThisArea`. A row is found by its
place in the table. What a row carries only for the IP table is left out. `none` stands for a `NULL`
next hop that is dereferenced.
-/

namespace NetSim.Ospf

/-- `OSPFDESTTYPE`. -/
inductive DestType
  | abr
  | asbr
  | abrAsbr
  | network
  | router
deriving DecidableEq, Repr

/-- `OSPFPATHTYPE`. -/
inductive PathType
  | intraArea
  | interArea
  | type1External
  | type2External
deriving DecidableEq, Repr

/-- `OSPFROUTEFLAG`. -/
inductive RouteFlag
  | invalid
  | changed
  | noChange
  | new
deriving DecidableEq, Repr

/-- `OSPFROUTINGTABLEROW`. -/
structure RouteRow where
  destType : DestType
  destAddr : Ip
  addrMask : Ip
  areaId : Ip
  pathType : PathType
  metric : ℕ
  nextHop : Option Ip
  outInterfaceId : ℕ
  advertisingRouter : Ip
  flag : RouteFlag
deriving DecidableEq, Repr

/-- `ospf_rtTable_compareDestType`. -/
def compareDestType (destType1 destType2 : DestType) : Bool :=
  destType1 == destType2 ||
    destType1 == .abrAsbr && (destType2 == .abr || destType2 == .asbr) ||
    destType2 == .abrAsbr && (destType1 == .abr || destType1 == .asbr)

/-! ## Lookups -/

/-- The rows with an address. -/
def RouteRow.isDest (destAddr : Ip) (row : RouteRow) : Bool := row.destAddr.same destAddr

/-- The rows whose network an address lies in. -/
def RouteRow.covers (destAddr : Ip) (row : RouteRow) : Bool :=
  row.destAddr.intIp &&& row.addrMask.intIp == destAddr.intIp &&& row.addrMask.intIp

/-- The loops that keep the row with the longest mask, the first one of a mask. -/
def longestMatch (p : RouteRow → Bool) (rows : List RouteRow) : Option ℕ :=
  (rows.zipIdx.foldl (fun longestMatchingEntry (row, i) =>
    if p row && longestMatchingEntry.all fun (entry, _) =>
        decide (row.addrMask.intIp > entry.addrMask.intIp) then some (row, i)
    else longestMatchingEntry) (none : Option (RouteRow × ℕ))).map Prod.snd

/-- `ospf_rtTable_getIntraAreaRoute`. -/
def getIntraAreaRoute (ospf : Pds) (rows : List RouteRow) (destAddr : Ip) (destType : DestType)
    (areaId : Ip) : Option ℕ :=
  longestMatch (fun row =>
    (if ospf.isAdvertSelfIntf then row.isDest destAddr else row.covers destAddr) &&
      compareDestType row.destType destType && row.pathType == .intraArea && row.areaId.same areaId) rows

/-- `ospf_rtTable_getRoute`. -/
def getRoute (ospf : Pds) (rows : List RouteRow) (destAddr : Ip) (destType : DestType) : Option ℕ :=
  if ospf.isAdvertSelfIntf then
    rows.findIdx? fun row => row.isDest destAddr && compareDestType row.destType destType
  else longestMatch (fun row => row.covers destAddr && compareDestType row.destType destType) rows

/-- `ospf_rtTable_getValidHostRoute`. -/
def getValidHostRoute (rows : List RouteRow) (destAddr : Ip) (destType : DestType) : Option ℕ :=
  rows.findIdx? fun row =>
    row.isDest destAddr && compareDestType row.destType destType && row.flag != .invalid

/-- `ospf_rtTable_getValidRoute`. -/
def getValidRoute (ospf : Pds) (rows : List RouteRow) (destAddr : Ip) (destType : DestType) : Option ℕ :=
  if ospf.isAdvertSelfIntf then
    rows.findIdx? fun row =>
      row.isDest destAddr && compareDestType row.destType destType && row.flag != .invalid
  else longestMatch (fun row =>
    row.covers destAddr && compareDestType row.destType destType && row.flag != .invalid) rows

/-! ## Changes -/

/-- `ospf_rtTable_isRouteMatch`. -/
def isRouteMatch (newRoute oldRoute : RouteRow) : Option Bool :=
  if newRoute.metric == oldRoute.metric then do
    let newHop ← newRoute.nextHop
    let oldHop ← oldRoute.nextHop
    return newHop.same oldHop
  else some false

/-- `ospf_rtTable_addRoute`. -/
def addRoute (ospf : Pds) (rows : List RouteRow) (newRoute : RouteRow) : Option (List RouteRow) :=
  let place := if newRoute.destType != .network then
      getIntraAreaRoute ospf rows newRoute.destAddr newRoute.destType newRoute.areaId
    else getRoute ospf rows newRoute.destAddr newRoute.destType
  match place.bind fun i => rows[i]?.map (i, ·) with
  | some (i, row) => (isRouteMatch newRoute row).map fun same =>
      rows.set i { newRoute with flag := if same then .noChange else .changed }
  | none => some (rows ++ [{ newRoute with flag := .new }])

/-- `ospf_rtTable_freeRoute`. -/
def freeRoute (rows : List RouteRow) (row : ℕ) : List RouteRow := rows.eraseIdx row

/-- `ospf_rtTable_freeAllInvalidRoute`. -/
def freeAllInvalidRoute (rows : List RouteRow) : List RouteRow := rows.filter fun row => row.flag != .invalid

/-- `ospf_spf_invalidateRoutingTable`. -/
def invalidateRoutingTable (rows : List RouteRow) : List RouteRow :=
  rows.map fun row => { row with flag := .invalid }

/-! ## Stub routes -/

/-- `ospf_neighbor_getInterfaceIdforThisNeighbor`: 0 if there is no such neighbour. -/
def getInterfaceIdforThisNeighbor (ospf : Pds) (neighIPaddr : Ip) : ℕ :=
  ((ospf.ospfIf.find? fun thisInterface => thisInterface.neighborRouterList.any fun neigh =>
    neigh.neighborIPAddr.same neighIPaddr).map OspfIf.id).getD 0

/-- The table, the router LSAs of the area and the vertices that are still to come. -/
structure StubState where
  rows : List RouteRow
  routerLSAList : List LsaHdr
  vertices : List Vertex
deriving DecidableEq, Repr

/-- The lookup for a stub link; host routes are looked up on their own. -/
def findStubRoute (ospf : Pds) (rows : List RouteRow) (link : RlsaLink) : Option (ℕ × RouteRow) :=
  let place := if link.linkData.intIp == anyDest then getValidHostRoute rows link.linkId .network
    else getValidRoute ospf rows link.linkId .network
  place.bind fun i => rows[i]?.map (i, ·)

/-- The new row of a stub link. -/
def stubRow (areaId : Ip) (vertex : Vertex) (link : RlsaLink) (distance outInterfaceId : ℕ)
    (nextHop : Option Ip) : RouteRow :=
  ⟨.network, link.linkId, link.linkData, areaId, .intraArea, distance, nextHop, outInterfaceId,
    vertex.lsa.advertisingRouter, .invalid⟩

/-- The interface of a stub link of the root; host routes are looked up on their own. -/
def stubInterface (ospf : Pds) (stack : Stack) (link : RlsaLink) : ℕ :=
  if link.linkData.intIp != anyDest then getInterfaceIdforThisNeighbor ospf link.linkId
  else stack.getInterfaceIdForNextHop link.linkId

/-- One stub link that is not an address of the router, in the loop of
`ospf_spf_addStubRouteToshortestPath`. What `ospf_spf_removeLSAFromShortestPathList` leaves of the list
depends on `OSPF_List.c`, which is not part of the repository. -/
def addStubLink (ospf : Pds) (stack : Stack) (removeLSA : LsaHdr → List Vertex → List Vertex)
    (areaId : Ip) (vertex : Vertex) (s : StubState) (link : RlsaLink) : Option StubState :=
  let distance := Word.u32 (link.metric.toNat + vertex.distance)
  let found := findStubRoute ospf s.rows link
  if found.any fun entry => decide (distance ≥ entry.2.metric) then some s
  else
    let rows := (found.map fun entry => freeRoute s.rows entry.1).getD s.rows
    if vertex.vertexId.same ospf.routerId then
      let intfId := stubInterface ospf stack link
      if intfId == 0 then
        match lookupLsaList s.routerLSAList link.linkId link.linkId with
        | some lsHeader =>
          let routerLSAList := if lsHeader.lsType == .routerLsa then
              s.routerLSAList.filter fun l => !l.sameId lsHeader
            else s.routerLSAList
          some ⟨rows, routerLSAList, removeLSA lsHeader s.vertices⟩
        | none => some { s with rows }
      else (addRoute ospf rows (stubRow areaId vertex link distance intfId none)).map fun rows => { s with rows }
    else match vertex.nextHopList with
    | [] => some { s with rows }
    | nextHopItem :: _ =>
      (addRoute ospf rows (stubRow areaId vertex link distance nextHopItem.outIntf nextHopItem.nextHop)).map
        fun rows => { s with rows }

/-- The stub links of a vertex that are processed. -/
def stubLinks (ospf : Pds) (stack : Stack) (vertex : Vertex) : List RlsaLink :=
  if vertex.vertexType != .router then []
  else if maskDoNotAge ospf vertex.lsa.lsAge ≥ ospf.lsaMaxAge then []
  else vertex.lsa.lsaInfo.rlsaLink.filter fun link => link.type == .stub && !stack.isMyAddr link.linkId

/-- The loop of `ospf_spf_addStubRouteToshortestPath`, over at most so many vertices. -/
def addStubVertices (ospf : Pds) (stack : Stack) (removeLSA : LsaHdr → List Vertex → List Vertex)
    (areaId : Ip) : ℕ → StubState → Option StubState
  | 0, s => some s
  | n + 1, s => match s.vertices with
    | [] => some s
    | tempV :: rest =>
      ((stubLinks ospf stack tempV).foldlM (addStubLink ospf stack removeLSA areaId tempV)
        { s with vertices := rest }).bind (addStubVertices ospf stack removeLSA areaId n)

/-- `ospf_spf_addStubRouteToshortestPath`: the table after it. -/
def addStubRouteToshortestPath (ospf : Pds) (stack : Stack)
    (removeLSA : LsaHdr → List Vertex → List Vertex) (area : AreaDs) (rows : List RouteRow)
    (shortestPathList : List Vertex) : Option (List RouteRow) :=
  (addStubVertices ospf stack removeLSA area.areaId shortestPathList.length
    ⟨rows, area.routerLSAList, shortestPathList⟩).map StubState.rows

end NetSim.Ospf
