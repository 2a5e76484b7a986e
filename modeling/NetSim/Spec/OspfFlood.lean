import NetSim.Spec.OspfLsa

/-!
# Flooding

`ospf_lsa_flood` and the functions of `OSPF_LSA.c` around it. The timers and events it schedules are
left out. The event `OSPF_LoadingDone` is called at once, also where the source calls it after the
loops: it changes one neighbour, which is not visited again. `none` stands for a read through a `NULL`
pointer.
-/

namespace NetSim.Ospf

/-! ## Request and retransmission lists -/

/-- `ospf_lsReq_searchFromList`. -/
def lsReqSearchFromList (neigh : Neighbor) (lsa : LsaHdr) : Option LsaHdr :=
  neigh.neighLSReqList.find? fun hdr => hdr.sameKey lsa

/-- `ospf_lsreq_removeFromReqList`. -/
def lsreqRemoveFromReqList (list : List LsaHdr) (lsa : LsaHdr) : List LsaHdr :=
  list.eraseP fun l => l.sameKey lsa

/-- The event `OSPF_LoadingDone`. -/
def loadingDone (neigh : Neighbor) : Neighbor :=
  if neigh.state != .loading then neigh else { neigh with state := .full }

/-- The body of the inner loop of `ospf_lsa_removeFromRxtList`. -/
def removeFromRxtListOf (lsa : LsaHdr) (neigh : Neighbor) : Neighbor :=
  let neighLSRxtList := neigh.neighLSRxtList.filter fun hdr => !lsa.sameKey hdr
  if neighLSRxtList.isEmpty && neigh.lsRxtTimer then
    { neigh with
      neighLSRxtList := neighLSRxtList
      lsRxtTimer := false
      lsRxtSeqNum := neigh.lsRxtSeqNum + 1 }
  else { neigh with neighLSRxtList := neighLSRxtList }

/-- `ospf_lsa_removeFromRxtList` on one interface. -/
def removeFromRxtListIf (area : Ip) (lsa : LsaHdr) (ospfIf : OspfIf) : OspfIf :=
  if !area.same ospfIf.areaId then ospfIf
  else { ospfIf with
    neighborRouterList := ospfIf.neighborRouterList.map (removeFromRxtListOf lsa) }

/-- `ospf_lsa_removeFromRxtList`. -/
def removeFromRxtList (ospf : Pds) (area : Ip) (lsa : LsaHdr) : Pds :=
  { ospf with ospfIf := ospf.ospfIf.map (removeFromRxtListIf area lsa) }

/-! ## One neighbour -/

/-- The part of `ospf_lsa_flood` for a neighbour that is not Full, with whether the loop goes on with
this neighbour. -/
def floodRequest (ospf : Pds) (lsa : LsaHdr) (neigh : Neighbor) : Neighbor × Bool :=
  match lsReqSearchFromList neigh lsa with
  | none => (neigh, true)
  | some lsHdr =>
    let isRecent := lsaCompare ospf lsHdr lsa
    if isRecent < 0 then (neigh, false)
    else
      let neigh := { neigh with neighLSReqList := lsreqRemoveFromReqList neigh.neighLSReqList lsHdr }
      if neigh.neighLSReqList.isEmpty && neigh.state == .loading then
        -- the same instance ends this neighbour's turn, but only here
        (loadingDone { neigh with lsRxtSeqNum := neigh.lsRxtSeqNum + 1 }, isRecent != 0)
      else (neigh, true)

/-- `!srcAddr || !IP_COMPARE(srcAddr, neigh->neighborIPAddr)`. -/
def isFloodSource (srcAddr : Option Ip) (neigh : Neighbor) : Bool :=
  srcAddr.all fun src => src.same neigh.neighborIPAddr

/-- The body of the inner loop of `ospf_lsa_flood`, with whether it adds to the retransmission list. -/
def floodNeighbor (ospf : Pds) (lsa : LsaHdr) (srcAddr : Option Ip) (neigh : Neighbor) :
    Neighbor × Bool :=
  if neigh.state.val < NeighState.exchange.val then (neigh, false)
  else
    let (neigh, goesOn) := if neigh.state != .full then floodRequest ospf lsa neigh else (neigh, true)
    if !goesOn || isFloodSource srcAddr neigh then (neigh, false)
    else ({ neigh with neighLSRxtList := neigh.neighLSRxtList ++ [lsa] }, true)

/-! ## One interface -/

/-- The condition of `ospf_lsa_queueToFlood`: it compares the ages where the types are meant. -/
def LsaHdr.sameQueued (lsa hdr : LsaHdr) : Bool :=
  hdr.lsAge == lsa.lsAge && hdr.linkStateId.same lsa.linkStateId &&
    hdr.advertisingRouter.same lsa.advertisingRouter

/-- `ospf_lsa_queueToFlood`: the new `updateLSAList`. -/
def queueToFlood (ospf : Pds) (updateLSAList : List LsaHdr) (lsa : LsaHdr) : List LsaHdr :=
  match updateLSAList.find? lsa.sameQueued with
  | some hdr =>
    if lsaCompare ospf hdr lsa > 0 then updateLSAList.eraseP lsa.sameQueued ++ [lsa] else updateLSAList
  | none => updateLSAList ++ [lsa]

/-- `IP_COMPARE(srcAddr, ANY_DEST) && ospf->id == in`. -/
def isReceivedOn (srcAddr : Ip) (inIf : ℕ) (thisInterface : OspfIf) : Bool :=
  srcAddr.intIp != anyDest && thisInterface.id == inIf

/-- Whether a broadcast interface leaves an LSA that it received to the DR and the BDR. -/
def isHeldBack (srcAddr : Ip) (inIf : ℕ) (thisInterface : OspfIf) : Option Bool :=
  if thisInterface.type == .broadcast && isReceivedOn srcAddr inIf thisInterface then do
    let fromDR ← sameAs thisInterface.designaterRouter srcAddr
    if fromDR then return true
    let fromBDR ← sameAs thisInterface.backupDesignaterRouter srcAddr
    return fromBDR || thisInterface.state == .backup
  else some false

/-- The end of the outer loop of `ospf_lsa_flood`, once an LSA is on a retransmission list; then there
is a source address. -/
def floodQueue (ospf : Pds) (lsa : LsaHdr) (srcAddr : Option Ip) (inIf : ℕ) (thisInterface : OspfIf) :
    Option (OspfIf × Bool) := do
  let srcAddr ← srcAddr
  let heldBack ← isHeldBack srcAddr inIf thisInterface
  return if heldBack then (thisInterface, false)
    else ({ thisInterface with updateLSAList := queueToFlood ospf thisInterface.updateLSAList lsa },
      isReceivedOn srcAddr inIf thisInterface)

/-- The body of the outer loop of `ospf_lsa_flood`, with `floodBack`. -/
def floodInterface (ospf : Pds) (area : Ip) (lsa : LsaHdr) (srcAddr : Option Ip) (inIf : ℕ)
    (thisInterface : OspfIf) : Option (OspfIf × Bool) :=
  if thisInterface.state == .down then some (thisInterface, false)
  else if !thisInterface.areaId.same area then some (thisInterface, false)
  else
    let neighs := thisInterface.neighborRouterList.map (floodNeighbor ospf lsa srcAddr)
    let thisInterface := { thisInterface with neighborRouterList := neighs.map Prod.fst }
    if !neighs.any Prod.snd then some (thisInterface, false)
    else floodQueue ospf lsa srcAddr inIf thisInterface

/-! ## The flooding procedure -/

/-- `ospf_lsa_flood`: the router after it, and `floodBack`. -/
def lsaFlood (ospf : Pds) (area : Ip) (lsa : LsaHdr) (srcAddr : Option Ip) (inIf : ℕ) :
    Option (Pds × Bool) := do
  let ospf := removeFromRxtList ospf area lsa
  let flooded ← ospf.ospfIf.mapM (floodInterface ospf area lsa srcAddr inIf)
  return ({ ospf with ospfIf := flooded.map Prod.fst }, flooded.any Prod.snd)

/-! ## Flushing -/

/-- `ospf_lsa_isPresentInMaxAgeList`. -/
def isPresentInMaxAgeList (ospf : Pds) (list : List LsaHdr) (lsa : LsaHdr) : Bool :=
  list.any fun hdr => hdr.sameKey lsa && lsaCompare ospf lsa hdr == 0

/-- `ospf_lsa_addToMaxAgeLSAList`: the new `maxAgeList`. -/
def addToMaxAgeLSAList (ospf : Pds) (maxAgeList : List LsaHdr) (lsa : LsaHdr) : List LsaHdr :=
  if isPresentInMaxAgeList ospf maxAgeList lsa then maxAgeList else maxAgeList ++ [lsa]

/-- The address `ANY_DEST`. -/
def anyDestAddr : Ip := ⟨0, anyDest⟩

/-- `ospf_lsa_flush`: the router, `maxAgeList` and the LSA after it. -/
def lsaFlush (ospf : Pds) (areaId : Ip) (maxAgeList : List LsaHdr) (lsa : LsaHdr) :
    Option (Pds × List LsaHdr × LsaHdr) :=
  if lsa.lsAge == ospf.lsaMaxAge then some (ospf, maxAgeList, lsa)
  else do
    let lsa := { lsa with lsAge := ospf.lsaMaxAge }
    let (ospf, _) ← lsaFlood ospf areaId lsa (some anyDestAddr) 0
    return (ospf, addToMaxAgeLSAList ospf maxAgeList lsa, lsa)

end NetSim.Ospf
