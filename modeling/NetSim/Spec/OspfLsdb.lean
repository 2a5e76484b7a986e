import NetSim.Lib.FirstMatch
import NetSim.Spec.OspfFlood

/-!
# Updates of the link state database

`OSPF_LSDB.c`, the receipt of updates in `OSPF_LSUPDATE.c` and the origination of router LSAs in
`OSPF_RLSA.c`. Acknowledgements, the send list and the events that are only scheduled are left out.
`none` stands for a failed assertion or a read through a `NULL` pointer.
-/

namespace NetSim.Ospf

open FirstMatch

/-- A router with one of its areas. -/
structure Router where
  ospf : Pds
  area : AreaDs
deriving DecidableEq, Repr

/-! ## Installation -/

/-- `ospf_lsdb_install`: whether the database changes, its list and `maxAgeList`. -/
def lsdbInstall (ospf : Pds) (now : ℚ) (lsa : LsaHdr) (list maxAgeList : List LsaHdr) :
    Bool × List LsaHdr × List LsaHdr :=
  let newLSA := { lsa with time := now }
  let (ret, list) := match list.find? lsa.sameId with
    | some hdr =>
      if isContentChanged ospf lsa hdr then (true, replaceFirst lsa.sameId newLSA list) else (false, list)
    | none => (true, list ++ [newLSA])
  (ret, list, if hasMaxAge ospf lsa then addToMaxAgeLSAList ospf maxAgeList lsa else maxAgeList)

/-- The area with another list for a type. -/
def AreaDs.withList (area : AreaDs) (lsType : LsType) (list : List LsaHdr) : AreaDs :=
  match lsType with
  | .routerLsa => { area with routerLSAList := list }
  | .networkLsa => { area with nwLSAList := list }
  | .summaryLsaRouter => { area with routerSummaryLSAList := list }
  | .summaryLsaNetwork => { area with nwSummaryLSAList := list }
  | _ => area

/-- `ospf_lsdb_install` for an area. -/
def Router.install (s : Router) (now : ℚ) (lsa : LsaHdr) (list : List LsaHdr) : Bool × Router :=
  let (ret, list, maxAgeList) := lsdbInstall s.ospf now lsa list s.area.maxAgeList
  (ret, { s with area := { s.area.withList lsa.lsType list with maxAgeList := maxAgeList } })

/-! ## Updates -/

section

variable (stack : Stack) (now : ℚ) (inIf : ℕ) (srcAddr : Ip)

/-- Whether an LSA that is not the router's own arrives within `minLSInterval`. -/
def isWithinMinLSInterval (ospf : Pds) (lsa hdr : LsaHdr) : Bool :=
  !isSelfOriginated ospf stack lsa && decide (now - hdr.time < ospf.minLSInterval)

/-- `ospf_lsdb_updateLSAList`: its result, `none` for -1. -/
def lsdbUpdateLSAList (s : Router) (list : List LsaHdr) (lsa : LsaHdr) :
    Option (Option Bool × Router) :=
  let hdr := list.find? lsa.sameId
  if hdr.any fun hdr => hdr.time == 0 then none
  else if hdr.any (isWithinMinLSInterval stack now s.ospf lsa) then some (none, s)
  else do
    let (ospf, _) ← lsaFlood s.ospf s.area.areaId lsa (some srcAddr) inIf
    let (ret, s) := { s with ospf := ospf }.install now lsa list
    return (some ret, s)

/-- `isFlush` in `ospf_lsdb_update`. -/
def isFlush (ospf : Pds) (lsa : LsaHdr) : Option Bool :=
  match lsa.lsType with
  | .networkLsa =>
    if stack.getInterfaceIdFromIP lsa.linkStateId != 0 then
      (ifGet ospf (stack.getInterfaceIdFromIP lsa.linkStateId)).map fun myInterface =>
        myInterface.state != .dr && !lsa.advertisingRouter.same ospf.routerId
    else some false
  | _ => some false

/-- `ospf_lsdb_update` for an LSA of the router itself. -/
def lsdbUpdateSelfOriginated (s : Router) (lsa : LsaHdr) : Option Router := do
  if ← isFlush stack s.ospf lsa then
    let (ospf, maxAgeList, _) ← lsaFlush s.ospf s.area.areaId s.area.maxAgeList lsa
    return { s with ospf := ospf, area := { s.area with maxAgeList := maxAgeList } }
  else
    let list ← s.area.list? lsa.lsType
    let oldLSA ← list.find? lsa.sameId
    let oldLSA := { oldLSA with lsSequenceNumber := lsa.lsSequenceNumber + 1 }
    return { s with area := s.area.withList lsa.lsType (replaceFirst lsa.sameId oldLSA list) }

/-- The end of `ospf_lsdb_update`. -/
def lsdbUpdateEnd (s : Router) (lsa : LsaHdr) (ret : Option Bool) : Option (Router × Bool) :=
  match ret with
  | none => some (s, false)
  | some ret =>
    if isSelfOriginated s.ospf stack lsa then
      (lsdbUpdateSelfOriginated stack s lsa).map fun s => (s, ret)
    else some (s, ret)

/-- `ospf_lsdb_update`; a type without a list is an error that changes nothing. -/
def lsdbUpdate (s : Router) (lsa : LsaHdr) : Option (Router × Bool) :=
  match s.area.list? lsa.lsType with
  | some list => do
    let (ret, s) ← lsdbUpdateLSAList stack now inIf srcAddr s list lsa
    lsdbUpdateEnd stack s lsa ret
  | none => lsdbUpdateEnd stack s lsa (some false)

/-! ## Receipt of an update -/

/-- `ospf_lsupdate_validate_lsa`. -/
def validateLsa (lsa : LsaHdr) (area : AreaDs) : Bool :=
  !(lsa.lsType == .asExternalLsa && !area.extRoutingCapability)

/-- The implied acknowledgement: the entry that is removed is the first that is *not* as recent as the
LSA. -/
def impliedAck (ospf : Pds) (lsa : LsaHdr) (neigh : Neighbor) : Neighbor :=
  let isAcked := fun rxlsa => lsaCompare ospf rxlsa lsa != 0
  if neigh.neighLSRxtList.any isAcked then
    let neighLSRxtList := neigh.neighLSRxtList.eraseP isAcked
    if neighLSRxtList.isEmpty then
      { neigh with
        neighLSRxtList := neighLSRxtList
        lsRxtTimer := false
        lsRxtSeqNum := neigh.lsRxtSeqNum + 1 }
    else { neigh with neighLSRxtList := neighLSRxtList }
  else neigh

/-- The neighbour of the current interface that an update comes from. -/
def currentNeighbor (ospf : Pds) : Option Neighbor :=
  (ifGet ospf inIf).bind fun thisInterface => neighborFind thisInterface srcAddr

/-- The router with new values of that neighbour. -/
def withCurrentNeighbor (ospf : Pds) (neigh : Neighbor) : Pds :=
  match ifGet ospf inIf with
  | some thisInterface =>
    let isNeigh := fun n : Neighbor => n.neighborId.same srcAddr || n.neighborIPAddr.same srcAddr
    let neighborRouterList := replaceFirst isNeigh neigh thisInterface.neighborRouterList
    let thisInterface := { thisInterface with neighborRouterList := neighborRouterList }
    { ospf with ospfIf := replaceFirst (fun i => i.id == inIf) thisInterface ospf.ospfIf }
  | none => ospf

/-- The body of the loop of `ospf_handle_LSUPDATE`, with whether the loop goes on. An LSA that is older
than the database copy is treated as a more recent one, so the step for it is never reached. -/
def handleLsa (s : Router) (lsa : LsaHdr) : Option (Router × Bool) :=
  if !validateLsa lsa s.area then some (s, true)
  else
    let oldLsa := lsdbLookup s.area lsa.lsType lsa.advertisingRouter lsa.linkStateId
    if hasMaxAge s.ospf lsa && oldLsa.isNone && !isAnyNeighborInExchangeOrLoadingState s.ospf then
      some (s, true)
    else if isMoreRecent s.ospf lsa oldLsa != 0 then
      (lsdbUpdate stack now inIf srcAddr s lsa).map fun (s, _) => (s, true)
    else do
      let neigh ← currentNeighbor inIf srcAddr s.ospf
      if (lsReqSearchFromList neigh lsa).isSome then return (s, false)
      else return ({ s with
        ospf := withCurrentNeighbor inIf srcAddr s.ospf (impliedAck s.ospf lsa neigh) }, true)

/-- The loop of `ospf_handle_LSUPDATE`, with whether it ran to its end. -/
def handleLsas : Router → List LsaHdr → Option (Router × Bool)
  | s, [] => some (s, true)
  | s, lsa :: lsas => do
    let (s, goesOn) ← handleLsa stack now inIf srcAddr s lsa
    if goesOn then handleLsas s lsas else return (s, false)

/-- `ospf_handle_LSUPDATE`. The next request is left out. -/
def handleLsUpdate (s : Router) (lsas : List LsaHdr) : Option Router := do
  let neigh ← currentNeighbor inIf srcAddr s.ospf
  if neigh.state.val < NeighState.exchange.val then return s
  else
    let (s, ranToEnd) ← handleLsas stack now inIf srcAddr s lsas
    let neigh ← currentNeighbor inIf srcAddr s.ospf
    return if ranToEnd && neigh.neighLSReqList.isEmpty then
        { s with ospf := withCurrentNeighbor inIf srcAddr s.ospf (loadingDone neigh) }
      else s

end

end NetSim.Ospf
