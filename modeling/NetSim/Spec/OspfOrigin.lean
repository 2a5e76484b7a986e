import NetSim.Spec.OspfLsdb
import NetSim.Spec.OspfRoute

/-!
# The LSAs that routes come from

`LSOrigin` of a row of the routing table points to an LSA of a database. `ospf_lsdb_install` and `ospf_lsdb_removeLSA` of
`OSPF_LSDB.c` free LSAs, `ospf_lsa_assignNewLSAIntoLSOrigin` of `OSPF_LSA.c` moves the pointers, and `OSPF_RoutingTable.c`
copies and frees rows. An address is a number. The lists for LSAs of maximum age and for sending are left out.
-/

namespace NetSim.Ospf

open FirstMatch

/-- An LSA in memory. -/
structure LsaInstance where
  addr : ℕ
  hdr : LsaHdr
deriving DecidableEq, Repr

/-- A search for the same ids. -/
def LsaHdr.sameIdAs (lsa : LsaHdr) (stored : LsaInstance) : Bool := lsa.sameId stored.hdr

/-- `OSPFROUTINGTABLEROW` with `LSOrigin`. -/
structure OriginRow where
  row : RouteRow
  lsOrigin : ℕ
deriving DecidableEq, Repr

/-- The lists of the databases, by area and type, the addresses at which their LSAs have been allocated, and the rows of
the routing table. -/
structure OriginState where
  lsdb : UInt32 → LsType → List LsaInstance
  heap : List ℕ
  rows : List OriginRow

/-- `ospf_lsa_assignNewLSAIntoLSOrigin`. -/
def assignNewLSAIntoLSOrigin (lsa newLSA : ℕ) (rows : List OriginRow) : List OriginRow :=
  rows.map fun row => if row.lsOrigin = lsa then { row with lsOrigin := newLSA } else row

namespace OriginState

/-- The databases with another list of an area and a type. -/
def withList (s : OriginState) (areaId : UInt32) (lsType : LsType) (list : List LsaInstance) : OriginState :=
  { s with lsdb := Function.update s.lsdb areaId (Function.update (s.lsdb areaId) lsType list) }

/-- `ospf_lsdb_install` for the list of the type of an LSA; `OSPF_LSA_MSG_COPY` allocates `newLSA`. -/
def install (ospf : Pds) (now : ℚ) (newLSA : ℕ) (areaId : UInt32) (lsa : LsaInstance) (s : OriginState) :
    Bool × OriginState :=
  let list := s.lsdb areaId lsa.hdr.lsType
  let copy : LsaInstance := ⟨newLSA, { lsa.hdr with time := now }⟩
  match list.find? lsa.hdr.sameIdAs with
  | some hdr =>
    if isContentChanged ospf lsa.hdr hdr.hdr then
      let moves := lsa.hdr.lsType == .routerLsa || lsa.hdr.lsType == .networkLsa
      (true, { s.withList areaId lsa.hdr.lsType (replaceFirst lsa.hdr.sameIdAs copy list) with
        heap := newLSA :: s.heap.filter (· ≠ hdr.addr)
        rows := if moves then assignNewLSAIntoLSOrigin lsa.addr newLSA s.rows else s.rows })
    else (false, s)
  | none => (true, { s.withList areaId lsa.hdr.lsType (list ++ [copy]) with heap := newLSA :: s.heap })

/-- `ospf_lsdb_removeLSA`: the entries of the type with the same ids are deleted. -/
def removeLSA (areaId : UInt32) (lsa : LsaHdr) (s : OriginState) : OriginState :=
  let list := s.lsdb areaId lsa.lsType
  { s.withList areaId lsa.lsType (list.filter fun l => !lsa.sameIdAs l) with
    heap := s.heap.filter fun addr => !(list.any fun l => lsa.sameIdAs l && l.addr == addr) }

/-- `ospf_rtTable_addRoute`, with the place that the routes without `LSOrigin` give. -/
def addRoute (ospf : Pds) (rows : List OriginRow) (newRoute : OriginRow) : Option (List OriginRow) :=
  let routes := rows.map OriginRow.row
  let place := if newRoute.row.destType != .network then
      getIntraAreaRoute ospf routes newRoute.row.destAddr newRoute.row.destType newRoute.row.areaId
    else getRoute ospf routes newRoute.row.destAddr newRoute.row.destType
  match place.bind fun i => rows[i]?.map (i, ·) with
  | some (i, row) => (isRouteMatch newRoute.row row.row).map fun same =>
      rows.set i { newRoute with row := { newRoute.row with flag := if same then .noChange else .changed } }
  | none => some (rows ++ [{ newRoute with row := { newRoute.row with flag := .new } }])

end OriginState

end NetSim.Ospf
