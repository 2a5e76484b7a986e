import NetSim.Lib.FirstMatch
import NetSim.Spec.OspfLsa

/-!
# Neighbours and their requests
-/

/-!
## Link state requests

The request list of a neighbour and the requests sent from it, of `OSPF_LSREQ.c` and the end of
`OSPF_LSUPDATE.c`. An entry carries the number of the request that it is in.
-/

namespace NetSim.Ospf

/-- `LSREQITEM`. -/
structure LsReqItem where
  seqNum : UInt32
  time : ℚ
  lsHdr : LsaHdr
deriving DecidableEq, Repr

/-- `OSPFLSREQOBJ`: what a request says of an LSA. -/
structure LsReqObj where
  lsType : LsType
  linkStateId : Ip
  advertisingRouter : Ip
deriving DecidableEq, Repr

def LsaHdr.lsReqObj (lsHdr : LsaHdr) : LsReqObj where
  lsType := lsHdr.lsType
  linkStateId := lsHdr.linkStateId
  advertisingRouter := lsHdr.advertisingRouter

/-- The fields of a neighbour that requests use: `neighLSReqList` and `LSReqTimerSequenceNumber`. -/
structure LsReqs where
  neighLSReqList : List LsReqItem
  lsReqTimerSequenceNumber : UInt32
deriving DecidableEq, Repr

/-! ## The list -/

/-- `ospf_lsreq_insertToList`. -/
def lsreqInsertToList (neigh : LsReqs) (lsHdr : LsaHdr) (time : ℚ) : LsReqs :=
  if neigh.neighLSReqList.any fun item => item.lsHdr.sameKey lsHdr then neigh
  else { neigh with
    neighLSReqList := neigh.neighLSReqList ++ [⟨neigh.lsReqTimerSequenceNumber, time, lsHdr⟩] }

/-- `ospf_lsreq_removeFromReqList`, on the items. -/
def lsreqRemoveItem (neigh : LsReqs) (lsa : LsaHdr) : LsReqs :=
  { neigh with neighLSReqList := neigh.neighLSReqList.eraseP fun item => item.lsHdr.sameKey lsa }

/-! ## Requests -/

/-- Whether `ospf_lsreq_createLSReqObject` takes an entry. -/
def LsReqItem.isNext (neigh : LsReqs) (retx : Bool) (item : LsReqItem) : Bool :=
  item.seqNum == neigh.lsReqTimerSequenceNumber || !retx && item.seqNum == 0

/-- An entry that is put in the next request. -/
def LsReqItem.taken (neigh : LsReqs) (item : LsReqItem) : LsReqItem :=
  { item with seqNum := neigh.lsReqTimerSequenceNumber + 1 }

/-- `ospf_lsreq_createLSReqObject`: the object, with the entry that it is from marked. -/
def createLSReqObject (neigh : LsReqs) (retx : Bool) : Option (LsReqObj × LsReqs) :=
  (neigh.neighLSReqList.find? (LsReqItem.isNext neigh retx)).map fun item =>
    (item.lsHdr.lsReqObj, { neigh with
      neighLSReqList := FirstMatch.replaceFirst (LsReqItem.isNext neigh retx) (item.taken neigh)
        neigh.neighLSReqList })

/-- `maxLSReqObject`. -/
def maxLSReqObject : ℕ := (1500 - 20 - 24) / 12

/-- The loop of `ospf_lsreq_send`, for at most as many objects. -/
def fillLSRequest (retx : Bool) : ℕ → LsReqs → List LsReqObj × LsReqs
  | 0, neigh => ([], neigh)
  | n + 1, neigh =>
    match createLSReqObject neigh retx with
    | none => ([], neigh)
    | some (obj, neigh) =>
      let (objs, neigh) := fillLSRequest retx n neigh
      (obj :: objs, neigh)

/-- `ospf_lsreq_send`: the request and the neighbour. A timer is started with the new number. -/
def lsreqSend (neigh : LsReqs) (retx : Bool) : List LsReqObj × LsReqs :=
  let (objs, neigh) := fillLSRequest retx maxLSReqObject neigh
  (objs, { neigh with lsReqTimerSequenceNumber := neigh.lsReqTimerSequenceNumber + 1 })

/-! ## Timers and updates -/

/-- `ospf_lsreq_retransmit`: the request, if one is sent. -/
def lsreqRetransmit (neigh : LsReqs) (seqNum : UInt32) : Option (List LsReqObj) × LsReqs :=
  if neigh.neighLSReqList.any fun item => item.seqNum == seqNum then
    let (objs, neigh) := lsreqSend neigh true
    (some objs, neigh)
  else (none, neigh)

/-- `ospf_lsupdate_rxmtTimer` for a link state request. -/
def lsreqRxmtTimer (neigh : LsReqs) (seqNum : UInt32) : Option (List LsReqObj) × LsReqs :=
  if neigh.lsReqTimerSequenceNumber != seqNum then (none, neigh)
  else if neigh.neighLSReqList.isEmpty then (none, neigh)
  else lsreqRetransmit neigh seqNum

/-- The end of `ospf_handle_LSUPDATE`. `ospf_lsreq_isRequestedLSAReceived` reads the head of the list as
an LSA header, past the end of the entry: its result is a parameter. -/
def updateEndRequests (neigh : LsReqs) (isRequestedLSAReceived : Bool) : Option (List LsReqObj) × LsReqs :=
  if !neigh.neighLSReqList.isEmpty then
    if isRequestedLSAReceived then
      let (objs, neigh) := lsreqSend neigh false
      (some objs, neigh)
    else (none, neigh)
  else (none, { neigh with lsReqTimerSequenceNumber := neigh.lsReqTimerSequenceNumber + 1 })

end NetSim.Ospf

/-!
## The neighbour state machine

The record of a neighbour with the lists that may be `NULL`, the database description packets and the
event handlers of `OSPF_Neighbor.c`. Events for router LSAs, the DR election and the retransmission timer
are left out. `none` stands for the use of a list that is `NULL`.
-/

namespace NetSim.Ospf

/-! ## Database description packets -/

/-- The bits of `IMMS`. -/
structure Imms where
  init : Bool
  more : Bool
  master : Bool
deriving DecidableEq, Repr

/-- `OSPFDD`, with the router id of its header. -/
structure DdPacket where
  routerId : Ip
  interfaceMTU : ℕ
  option : UInt8
  imms : Imms
  ddSequenceNumber : UInt32
  lsaHeader : List LsaHdr
deriving DecidableEq, Repr

/-! ## Neighbours -/

/-- `OSPF_NEIGHBOR`, with the lists that may be `NULL`. -/
structure NeighborDs where
  state : NeighState
  isInactivityTimerAdded : Bool
  isMaster : Bool
  ddSeqNo : UInt32
  lastrecvDDPacket : Option DdPacket
  lastSentDDPacket : Option DdPacket
  neighborId : Ip
  neighborOption : UInt8
  imms : Imms
  lastDDMsgSentTime : ℚ
  neighLSReqList : Option (List LsReqItem)
  neighDBSummaryList : Option (List LsaHdr)
  neighLSRxtList : Option (List LsaHdr)
  linkStateSendList : Option (List LsaHdr)
  lsReqTimerSequenceNumber : UInt32
  lastHelloRecvTime : ℚ
deriving DecidableEq, Repr

/-- `ospf_neighbor_new`. -/
def neighborNew (rid : Ip) : NeighborDs where
  state := .down
  isInactivityTimerAdded := false
  isMaster := false
  ddSeqNo := 0
  lastrecvDDPacket := none
  lastSentDDPacket := none
  neighborId := rid
  neighborOption := 0
  imms := ⟨false, false, false⟩
  lastDDMsgSentTime := 0
  neighLSReqList := some []
  neighDBSummaryList := some []
  neighLSRxtList := some []
  linkStateSendList := some []
  lsReqTimerSequenceNumber := 0
  lastHelloRecvTime := 0

/-! ## Sending -/

/-- `INTERFACE_MTU_DEFAULT`. -/
def interfaceMTUDefault : ℕ := 1500

/-- `dd->InterfaceMTU`. -/
def ddInterfaceMTU (thisInterface : OspfIf) : ℕ :=
  if thisInterface.type == .virtualLink then 0 else interfaceMTUDefault

/-- What `send_DD_msg` leaves in the neighbour. -/
def NeighborDs.sent (neigh : NeighborDs) (now : ℚ) (dd : DdPacket) : NeighborDs :=
  { neigh with lastSentDDPacket := some dd, lastDDMsgSentTime := now }

/-- `send_DD_msg` in ExStart. -/
def sendDDMsgInExstart (ospf : Pds) (thisInterface : OspfIf) (now : ℚ) (neigh : NeighborDs) :
    NeighborDs × DdPacket :=
  let dd : DdPacket :=
    { routerId := ospf.routerId
      interfaceMTU := ddInterfaceMTU thisInterface
      option := 0
      imms := ⟨true, true, true⟩
      ddSequenceNumber := neigh.ddSeqNo
      lsaHeader := [] }
  ({ neigh with imms := dd.imms }.sent now dd, dd)

/-- `start_sending_dd_msg`: the packet, if there is one. Its timer is left out. -/
def startSendingDDMsg (ospf : Pds) (thisInterface : OspfIf) (now : ℚ) (neigh : NeighborDs) :
    NeighborDs × Option DdPacket :=
  if neigh.state != .exStart then (neigh, none)
  else
    let (neigh, dd) := sendDDMsgInExstart ospf thisInterface now neigh
    (neigh, some dd)

/-! ## Events -/

/-- `(UINT)(pstruEventDetails->dEventTime / MILLISECOND)`. -/
def millisecondsAt (now : ℚ) : UInt32 := UInt32.ofNat (now / 1000).floor.toNat

/-- `ospf_neighbor_attempt_adjacency`. -/
def attemptAdjacency (ospf : Pds) (thisInterface : OspfIf) (now : ℚ) (neigh : NeighborDs) :
    NeighborDs × Option DdPacket :=
  if neigh.ddSeqNo != 0 then ({ neigh with ddSeqNo := neigh.ddSeqNo + 1 }, none)
  else startSendingDDMsg ospf thisInterface now { neigh with isMaster := true, ddSeqNo := millisecondsAt now }

/-- `ospf_neighbor_change_state`. -/
def changeState (ospf : Pds) (thisInterface : OspfIf) (now : ℚ) (neigh : NeighborDs) (state : NeighState) :
    NeighborDs × Option DdPacket :=
  let oldState := neigh.state
  let neigh := { neigh with state := state }
  if oldState != state && state == .exStart then attemptAdjacency ospf thisInterface now neigh else (neigh, none)

/-- `is_adjacency_should_established`. -/
def isAdjacencyShouldEstablished (thisInterface : OspfIf) (neigh : NeighborDs) : Option Bool :=
  if thisInterface.type == .p2p || thisInterface.type == .p2mp || thisInterface.type == .virtualLink ||
      thisInterface.state == .dr || thisInterface.state == .backup then some true
  else do
    let isDR ← sameAs thisInterface.designaterRouter neigh.neighborId
    if isDR then return true
    sameAs thisInterface.backupDesignaterRouter neigh.neighborId

/-- `ospf_neighbor_handle_1way_event`. -/
def handle1Way (neigh : NeighborDs) : NeighborDs :=
  if neigh.state == .twoWay then { neigh with state := .init } else neigh

/-- `ospf_neighbor_handle_2wayReceived_event`. -/
def handle2WayReceived (ospf : Pds) (thisInterface : OspfIf) (now : ℚ) (neigh : NeighborDs) :
    Option (NeighborDs × Option DdPacket) :=
  if neigh.state == .init then do
    let isAdjacency ← isAdjacencyShouldEstablished thisInterface neigh
    return changeState ospf thisInterface now neigh (if isAdjacency then .exStart else .twoWay)
  else some (neigh, none)

/-- `ospf_neighbor_handle_helloReceived_event`: the neighbour and whether an inactivity timer is started. -/
def handleHelloReceived (now : ℚ) (neigh : NeighborDs) : NeighborDs × Bool :=
  let neigh := if neigh.state == .down then { neigh with state := .init } else neigh
  let neigh := { neigh with lastHelloRecvTime := now }
  ({ neigh with isInactivityTimerAdded := true }, !neigh.isInactivityTimerAdded)

/-- `ospf_neighbor_addToRxtList` on the lists. -/
def NeighborDs.addToRxtList (now : ℚ) (neigh : NeighborDs) (lsa : LsaHdr) : Option NeighborDs := do
  let lsa := { lsa with time := now }
  let neighLSRxtList ← neigh.neighLSRxtList
  let linkStateSendList ← neigh.linkStateSendList
  return { neigh with
    neighLSRxtList := some (neighLSRxtList ++ [lsa])
    linkStateSendList := some (linkStateSendList ++ [lsa]) }

/-- The body of the loop of `ospf_neighbor_update_DBSummaryList`. -/
def updateDBSummary (ospf : Pds) (now : ℚ) (neigh : NeighborDs) (lsa : LsaHdr) : Option NeighborDs :=
  if hasMaxAge ospf lsa then neigh.addToRxtList now lsa
  else do
    let neighDBSummaryList ← neigh.neighDBSummaryList
    return { neigh with neighDBSummaryList := some (neighDBSummaryList ++ [lsa]) }

/-- `ospf_neighbor_create_DBSummaryList`. -/
def createDBSummaryList (ospf : Pds) (area : AreaDs) (now : ℚ) (neigh : NeighborDs) : Option NeighborDs :=
  (area.routerLSAList ++ area.nwLSAList ++ area.routerSummaryLSAList ++ area.nwSummaryLSAList).foldlM
    (updateDBSummary ospf now) neigh

/-- `ospf_neighbor_handle_negotiationDone_event`. -/
def handleNegotiationDone (ospf : Pds) (area : AreaDs) (now : ℚ) (neigh : NeighborDs) : Option NeighborDs :=
  if neigh.state != .exStart then some neigh
  else createDBSummaryList ospf area now { neigh with state := .exchange }

/-- `ospf_lsreq_insertToList` for a neighbour. -/
def NeighborDs.insertRequest (neigh : NeighborDs) (lsHdr : LsaHdr) (time : ℚ) : Option NeighborDs :=
  neigh.neighLSReqList.map fun list =>
    { neigh with
      neighLSReqList := some (lsreqInsertToList ⟨list, neigh.lsReqTimerSequenceNumber⟩ lsHdr time).neighLSReqList }

/-- `ospf_lsreq_removeFromReqList` for a neighbour. -/
def NeighborDs.removeRequest (neigh : NeighborDs) (lsa : LsaHdr) : Option NeighborDs :=
  neigh.neighLSReqList.map fun list =>
    { neigh with
      neighLSReqList := some (lsreqRemoveItem ⟨list, neigh.lsReqTimerSequenceNumber⟩ lsa).neighLSReqList }

/-- `ospf_neighbor_handle_exchangeDone_event`. -/
def handleExchangeDone (neigh : NeighborDs) : Option NeighborDs :=
  if neigh.state != .exchange then some neigh
  else neigh.neighLSReqList.map fun list =>
    if list.isEmpty then { neigh with state := .full }
    else
      let (_, reqs) := lsreqSend ⟨list, neigh.lsReqTimerSequenceNumber⟩ false
      { neigh with
        state := .loading
        neighLSReqList := some reqs.neighLSReqList
        lsReqTimerSequenceNumber := reqs.lsReqTimerSequenceNumber }

/-- `ospf_neighbor_handle_LoadingDoneEvent`. -/
def handleLoadingDone (neigh : NeighborDs) : NeighborDs :=
  if neigh.state != .loading then neigh else { neigh with state := .full }

/-- `ospf_neighbor_handle_inactivityTimer_event`: the neighbour, and whether the timer is started again.
Deleting the members of a list that is `NULL` is a fault. -/
def handleInactivityTimer (thisRouterDeadInterval : ℚ) (now : ℚ) (neigh : NeighborDs) :
    Option (NeighborDs × Bool) :=
  if neigh.lastHelloRecvTime + thisRouterDeadInterval * second ≤ now then do
    let _ ← neigh.neighLSReqList
    let _ ← neigh.neighDBSummaryList
    let _ ← neigh.neighLSRxtList
    let _ ← neigh.linkStateSendList
    return ({ neigh with
      state := .down
      neighLSReqList := none
      neighDBSummaryList := none
      neighLSRxtList := none
      linkStateSendList := none
      isInactivityTimerAdded := false
      lastrecvDDPacket := none
      lastSentDDPacket := none }, false)
  else some ({ neigh with isInactivityTimerAdded := true }, true)

end NetSim.Ospf
