import Mathlib.Data.Rat.Defs
import Mathlib.Data.List.Basic
import Mathlib.Tactic.Common

/-!
# OSPF data structures

Addresses, link state advertisements, neighbours, interfaces, areas and routers, as far as OSPF
reads them. Lists stand for the lists of `OSPF_List.h`, which keep the order of insertion. Times
are doubles in the source and rational numbers here.
-/

namespace NetSim.Ospf

/-- `SECOND` of `Stack.h`: times are in microseconds. -/
def second : ℚ := 1000000

/-- `NETSIM_IPAddress`: a pointer to an address of type 4, with the place in memory that `==` and
`>` compare and the value that `IP_COMPARE` compares. -/
structure Ip where
  ptr : ℕ
  intIp : UInt32
deriving DecidableEq, Repr

/-- `!IP_COMPARE(a, b)`, which is also `!OSPFID_COMPARE(a, b)`. -/
def Ip.same (a b : Ip) : Bool := a.intIp == b.intIp

@[simp] theorem Ip.same_iff (a b : Ip) : a.same b ↔ a.intIp = b.intIp := by
  unfold Ip.same
  exact beq_iff_eq

/-- `!OSPFID_COMPARE(a, b)`, where `a` may be `NULL`. -/
def sameAs (a : Option Ip) (b : Ip) : Option Bool := a.map fun a => a.same b

/-- `ANY_DEST` points to the broadcast address. -/
def anyDest : UInt32 := 0xffffffff

/-! ## Link state advertisements -/

/-- `OSPFLINKTYPE`. -/
inductive LinkType
  | pointToPoint
  | transit
  | stub
  | virtual
deriving DecidableEq, Repr

/-- `OSPFRLSALINK`. -/
structure RlsaLink where
  linkId : Ip
  linkData : Ip
  type : LinkType
  metric : UInt16
deriving DecidableEq, Repr

/-- `OSPFRLSA`; the list carries `linksCount`. -/
structure Rlsa where
  veb : UInt8
  rlsaLink : List RlsaLink
deriving DecidableEq, Repr

/-- `LSTYPE`. -/
inductive LsType
  | routerLsa
  | networkLsa
  | summaryLsaRouter
  | summaryLsaNetwork
  | asExternalLsa
  | undefined
deriving DecidableEq, Repr

/-- `OSPFLSAHDR`. Router LSAs are the only ones that have a body in the source. -/
structure LsaHdr where
  lsAge : UInt16
  options : UInt8
  lsType : LsType
  linkStateId : Ip
  advertisingRouter : Ip
  lsSequenceNumber : UInt32
  length : UInt16
  lsaInfo : Rlsa
  time : ℚ
deriving DecidableEq, Repr

/-- Same advertising router and link state id: the key within a list of the database. -/
def LsaHdr.sameId (a b : LsaHdr) : Bool :=
  a.advertisingRouter.same b.advertisingRouter && a.linkStateId.same b.linkStateId

/-- Same type, advertising router and link state id. -/
def LsaHdr.sameKey (a b : LsaHdr) : Bool := a.lsType == b.lsType && a.sameId b

/-! ## Neighbours and interfaces -/

/-- `OSPFNEIGHSTATE`, in the order of its values. -/
inductive NeighState
  | down
  | init
  | attempt
  | exStart
  | twoWay
  | exchange
  | full
  | loading
deriving DecidableEq, Repr

/-- The value of a state. -/
def NeighState.val : NeighState → ℕ
  | down => 0
  | init => 1
  | attempt => 2
  | exStart => 3
  | twoWay => 4
  | exchange => 5
  | full => 6
  | loading => 7

/-- `OSPF_NEIGHBOR`. -/
structure Neighbor where
  state : NeighState
  neighborId : Ip
  neighborPriority : UInt8
  neighborIPAddr : Ip
  neighborDesignateRouter : Option Ip
  neighborDesignateBackupRouter : Option Ip
  neighLSReqList : List LsaHdr
  neighLSRxtList : List LsaHdr
  linkStateSendList : List LsaHdr
  lsRxtTimer : Bool
  lsRxtSeqNum : UInt32
deriving DecidableEq, Repr

/-- `OSPFIFTYPE`. -/
inductive IfType
  | p2p
  | broadcast
  | nbma
  | p2mp
  | virtualLink
deriving DecidableEq, Repr

/-- `OSPFIFSTATE`, in the order of its values. -/
inductive IfState
  | down
  | loopback
  | waiting
  | p2p
  | drOther
  | backup
  | dr
deriving DecidableEq, Repr

/-- The value of a state. -/
def IfState.val : IfState → ℕ
  | down => 0
  | loopback => 1
  | waiting => 2
  | p2p => 3
  | drOther => 4
  | backup => 5
  | dr => 6

/-- `OSPF_IF`; a pointer that is `NULL` is `none`. -/
structure OspfIf where
  id : ℕ
  type : IfType
  state : IfState
  ipIfAddr : Ip
  ipIfMask : Ip
  areaId : Ip
  routerPriority : UInt8
  neighborRouterList : List Neighbor
  designaterRouter : Option Ip
  designaterRouterAddr : Option Ip
  backupDesignaterRouter : Option Ip
  backupDesignaterRouterAddr : Option Ip
  infTransDelay : ℚ
  rxmtInterval : ℚ
  updateLSAList : List LsaHdr
deriving DecidableEq, Repr

/-! ## Areas and routers -/

/-- `OSPFAREA_DS`. -/
structure AreaDs where
  areaId : Ip
  routerLSAList : List LsaHdr
  nwLSAList : List LsaHdr
  routerSummaryLSAList : List LsaHdr
  nwSummaryLSAList : List LsaHdr
  maxAgeList : List LsaHdr
  extRoutingCapability : Bool
deriving DecidableEq, Repr

/-- `OSPF_PDS`: a router. -/
structure Pds where
  routerId : Ip
  ospfIf : List OspfIf
  minLSInterval : ℚ
  supportDC : Bool
  isAdvertSelfIntf : Bool
  lsaMaxAge : UInt16
  lsRefreshTime : ℚ
  incrementTime : ℚ
deriving DecidableEq, Repr

/-- `OSPF_IF_GET`. -/
def ifGet (ospf : Pds) (ifId : ℕ) : Option OspfIf := ospf.ospfIf.find? fun thisInterface => thisInterface.id == ifId

/-- `OSPF_NEIGHBOR_FIND`: by router id or by address. -/
def neighborFind (thisInterface : OspfIf) (id : Ip) : Option Neighbor :=
  thisInterface.neighborRouterList.find? fun neigh =>
    neigh.neighborId.same id || neigh.neighborIPAddr.same id

/-- `OSPF_NEIGHBOR_FIND_BY_IP`. -/
def neighborFindByIp (thisInterface : OspfIf) (ip : Ip) : Option Neighbor :=
  thisInterface.neighborRouterList.find? fun neigh => neigh.neighborIPAddr.same ip

/-- `ospf_neighbor_isAnyNeighborInExchangeOrLoadingState`. -/
def isAnyNeighborInExchangeOrLoadingState (ospf : Pds) : Bool :=
  ospf.ospfIf.any fun thisInterface => thisInterface.neighborRouterList.any fun neigh =>
    neigh.state == .exchange || neigh.state == .loading

end NetSim.Ospf
