import NetSim.Spec.OspfLsdb

/-!
# Ageing, refreshing and originating

The event `OSPF_INCREMENTAGE` of `OSPF_LSDB.c`, for the lists of one area, and the origination of router
LSAs in `OSPF_RLSA.c`. Deleting entries of a list does not disturb a loop over it. The events that are
only scheduled and the send lists are left out.
-/

namespace NetSim.Ospf

/-! ## Refreshing -/

/-- `ospf_lsdb_refreshLSA`: the router, `maxAgeList` and the LSA after it. -/
def lsdbRefreshLSA (ospf : Pds) (now : ℚ) (areaId : Ip) (maxAgeList : List LsaHdr) (hdr : LsaHdr) :
    Option (Pds × List LsaHdr × LsaHdr) :=
  if hdr.lsSequenceNumber == maxSequenceNumber then lsaFlush ospf areaId maxAgeList hdr
  else do
    let hdr := { hdr with lsSequenceNumber := hdr.lsSequenceNumber + 1, lsAge := 0, time := now }
    let (ospf, _) ← lsaFlood ospf areaId hdr none 0
    return (ospf, maxAgeList, hdr)

/-! ## Ageing -/

/-- `(UINT16)(ospf->incrementTime / SECOND)`. -/
def ageIncrement (ospf : Pds) : UInt16 := UInt16.ofNat (ospf.incrementTime / second).floor.toNat

/-- `tempAge`. -/
def tempAge (ospf : Pds) (hdr : LsaHdr) : UInt16 :=
  let age := maskDoNotAge ospf hdr.lsAge
  let age := if checkForDoNotAge ospf hdr.lsAge then age else age + ageIncrement ospf
  if age > ospf.lsaMaxAge then ospf.lsaMaxAge else age

/-- The age of an LSA of the router itself reaches `LSRefreshTime`. -/
def isRefreshDue (ospf : Pds) (hdr : LsaHdr) : Bool :=
  hdr.advertisingRouter.same ospf.routerId &&
    ((maskDoNotAge ospf (tempAge ospf hdr)).toNat : ℚ) == ospf.lsRefreshTime / second

/-- The body of the loop of `ospf_LSDB_IncrementLSAgeInLSAList`. -/
def incrementLSAge (ospf : Pds) (now : ℚ) (areaId : Ip) (maxAgeList : List LsaHdr) (hdr : LsaHdr) :
    Option (Pds × List LsaHdr × LsaHdr) :=
  if hasMaxAge ospf hdr then some (ospf, maxAgeList, hdr)
  else
    let aged := { hdr with lsAge := assignNewLSAge ospf hdr.lsAge (tempAge ospf hdr) }
    if isRefreshDue ospf hdr then lsdbRefreshLSA ospf now areaId maxAgeList aged
    else if maskDoNotAge ospf (tempAge ospf hdr) == ospf.lsaMaxAge then do
      let (ospf, _) ← lsaFlood ospf areaId aged (some anyDestAddr) 0
      return (ospf, addToMaxAgeLSAList ospf maxAgeList aged, aged)
    else some (ospf, maxAgeList, aged)

/-- `ospf_LSDB_IncrementLSAgeInLSAList`. -/
def incrementLSAgeInLSAList (now : ℚ) (areaId : Ip) :
    Pds → List LsaHdr → List LsaHdr → Option (Pds × List LsaHdr × List LsaHdr)
  | ospf, maxAgeList, [] => some (ospf, maxAgeList, [])
  | ospf, maxAgeList, hdr :: list => do
    let (ospf, maxAgeList, hdr) ← incrementLSAge ospf now areaId maxAgeList hdr
    let (ospf, maxAgeList, list) ← incrementLSAgeInLSAList now areaId ospf maxAgeList list
    return (ospf, maxAgeList, hdr :: list)

/-- The loop over the list of a type. -/
def Router.incrementLSAge (now : ℚ) (s : Router) (lsType : LsType) : Option Router := do
  let list ← s.area.list? lsType
  let (ospf, maxAgeList, list) ← incrementLSAgeInLSAList now s.area.areaId s.ospf s.area.maxAgeList list
  return ⟨ospf, { s.area.withList lsType list with maxAgeList := maxAgeList }⟩

/-! ## Stale entries -/

/-- `ospf_lsdb_removeLSA`. -/
def lsdbRemoveLSA (area : AreaDs) (lsa : LsaHdr) : AreaDs :=
  match area.list? lsa.lsType with
  | some list => area.withList lsa.lsType (list.filter fun l => !l.sameId lsa)
  | none => area

/-- The body of a loop of `ospf_LSDB_removeStaleDoNotAgeLSA`: a time is compared with an age. -/
def removeStaleDoNotAge (now : ℚ) (s : Router) (hdr : LsaHdr) : Option Router :=
  if checkForDoNotAge s.ospf hdr.lsAge && decide (now - hdr.time ≥ s.ospf.lsaMaxAge.toNat) then do
    let (ospf, maxAgeList, hdr) ← lsaFlush s.ospf s.area.areaId s.area.maxAgeList hdr
    return ⟨ospf, lsdbRemoveLSA { s.area with maxAgeList := maxAgeList } hdr⟩
  else some s

/-- The loop of `ospf_LSDB_removeStaleDoNotAgeLSA` over the list of a type. -/
def removeStaleDoNotAgeLSA (now : ℚ) (s : Router) (lsType : LsType) : Option Router := do
  let list ← s.area.list? lsType
  list.foldlM (removeStaleDoNotAge now) s

/-- The types in the order of the loops over their lists. -/
def ageingOrder : List LsType := [.networkLsa, .routerLsa, .summaryLsaNetwork, .summaryLsaRouter]

/-- `ospf_LSDB_handle_IncrementAge_event`. -/
def handleIncrementAge (now : ℚ) (s : Router) : Option Router := do
  let s ← ageingOrder.foldlM (Router.incrementLSAge now) s
  if s.ospf.supportDC then ageingOrder.foldlM (removeStaleDoNotAgeLSA now) s else return s

/-! ## Origination -/

/-- `ospf_lsa_update_lsahdr`: the router, and the new LSA if there is one. -/
def updateLsaHdr (s : Router) (lsa : LsaHdr) (old : Option LsaHdr) (lsType : LsType) :
    Option (Router × Option LsaHdr) :=
  let lsa := { lsa with lsType := lsType, length := 20 }
  match old with
  | some old =>
    if old.lsSequenceNumber == maxSequenceNumber &&
        decide (maskDoNotAge s.ospf old.lsAge < s.ospf.lsaMaxAge) then do
      let (ospf, maxAgeList, flushed) ← lsaFlush s.ospf s.area.areaId s.area.maxAgeList old
      let list := FirstMatch.replaceFirst old.sameId flushed s.area.routerLSAList
      return (⟨ospf, { s.area with routerLSAList := list, maxAgeList := maxAgeList }⟩, none)
    else if maskDoNotAge s.ospf old.lsAge == s.ospf.lsaMaxAge then
      -- the LSA is still on a retransmission list
      some (s, none)
    else some (s, some { lsa with lsSequenceNumber := old.lsSequenceNumber + 1 })
  | none => some (s, some { lsa with lsSequenceNumber := initialSequenceNumber })

/-- What an origination of the router LSA depends on: the body that the interfaces give, its size, the
time and the interface and address of the device. -/
structure Origination where
  rlsa : Rlsa
  rlsaSize : UInt16
  isFlush : Bool
  now : ℚ
  inIf : ℕ
  myIp : Ip
deriving DecidableEq, Repr

/-- The new LSA of an origination, after `calloc` and `ospf_rlsa_add_foreach_interface`. -/
def Origination.blank (o : Origination) (routerId : Ip) : LsaHdr where
  lsAge := 0
  options := 0
  lsType := .routerLsa
  linkStateId := routerId
  advertisingRouter := routerId
  lsSequenceNumber := 0
  length := o.rlsaSize
  lsaInfo := o.rlsa
  time := 0

/-- The end of `ospf_rlsa_originateRouterLSA`. -/
def sendRouterLSA (s : Router) (o : Origination) (lsa : LsaHdr) : Option Router := do
  let (ospf, _) ← lsaFlood s.ospf s.area.areaId lsa (some o.myIp) o.inIf
  return ({ s with ospf := ospf }.install o.now lsa s.area.routerLSAList).2

/-- `ospf_rlsa_originateRouterLSA`: the router, and the LSA that is originated. -/
def originateRouterLSA (s : Router) (o : Origination) : Option (Router × Option LsaHdr) := do
  let old := findOldLsa s.area.routerLSAList s.ospf.routerId s.ospf.routerId
  let (s, lsa) ← updateLsaHdr s (o.blank s.ospf.routerId) old .routerLsa
  match lsa with
  | none => return (s, none)
  | some lsa =>
    let lsa := { lsa with
      lsAge := if o.isFlush then s.ospf.lsaMaxAge else lsa.lsAge
      length := 20 + o.rlsaSize }
    let s ← sendRouterLSA s o lsa
    return (s, some lsa)

end NetSim.Ospf
