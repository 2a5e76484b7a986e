import NetSim.Spec.OspfNeighbor

/-!
# The database description exchange

`OSPF_DD.c`: what `ospf_handle_DD` does to a neighbour. The event `OSPF_ExchangeDone` is scheduled, and
`OSPF_SeqNumberMismatch` has no handler: both are reported. `none` stands for the use of a list that is
`NULL`.
-/

namespace NetSim.Ospf

/-- What a database description packet leads to. -/
structure DdOut where
  neigh : NeighborDs
  sent : List DdPacket
  exchangeDone : Bool
  seqNumberMismatch : Bool
deriving DecidableEq, Repr

/-- Nothing is sent and nothing is scheduled. -/
def DdOut.quiet (neigh : NeighborDs) : DdOut := ⟨neigh, [], false, false⟩

/-- The event `OSPF_SeqNumberMismatch`. -/
def DdOut.mismatch (neigh : NeighborDs) : DdOut := ⟨neigh, [], false, true⟩

section

variable (ospf : Pds) (thisInterface : OspfIf) (area : AreaDs) (now : ℚ)

/-! ## Sending -/

/-- `OSPF_DD_MAX_LSA_COUNT`. -/
def ddMaxLsaCount : ℕ := (interfaceMTUDefault - 20 - 8 - 24) / 20

/-- `send_DD_msg` in Exchange. -/
def sendDDMsgInExchange (neigh : NeighborDs) : Option (NeighborDs × DdPacket) :=
  neigh.neighDBSummaryList.map fun list =>
    let rest := list.drop ddMaxLsaCount
    let dd : DdPacket :=
      { routerId := ospf.routerId
        interfaceMTU := ddInterfaceMTU thisInterface
        option := 0
        imms := ⟨false, !rest.isEmpty, neigh.isMaster⟩
        ddSequenceNumber := neigh.ddSeqNo
        lsaHeader := list.take ddMaxLsaCount }
    ({ neigh with neighDBSummaryList := some rest, imms := dd.imms }.sent now dd, dd)

/-- `resend_DD_msg`: a copy of the packet received last. -/
def resendDDMsg (neigh : NeighborDs) : Option (NeighborDs × DdPacket) :=
  neigh.lastrecvDDPacket.map fun old =>
    let dd := { old with routerId := ospf.routerId }
    (neigh.sent now dd, dd)

/-! ## Processing -/

/-- Whether an LSA is missing from the database or more recent than the stored one. -/
def isWanted (lsa : LsaHdr) : Bool :=
  (lsdbLookup area lsa.lsType lsa.advertisingRouter lsa.linkStateId).all fun oldLsa =>
    decide (lsaCompare ospf oldLsa lsa > 0)

/-- The loop of `ospf_process_DD`, with whether it meets no unknown type. -/
def processLSAHeaders : NeighborDs → List LsaHdr → Option (NeighborDs × Bool)
  | neigh, [] => some (neigh, true)
  | neigh, lsa :: list =>
    if lsa.lsType == .undefined then some (neigh, false)
    else if isWanted ospf area lsa then do
      let neigh ← neigh.insertRequest lsa now
      processLSAHeaders neigh list
    else processLSAHeaders neigh list

/-- The end of `ospf_process_DD` for a master. -/
def processAsMaster (neigh : NeighborDs) (dd : DdPacket) : Option DdOut :=
  let neigh := { neigh with ddSeqNo := neigh.ddSeqNo + 1 }
  if !neigh.imms.more && !dd.imms.more then some ⟨neigh, [], true, false⟩
  else do
    let (neigh, out) ← sendDDMsgInExchange ospf thisInterface now neigh
    return ⟨neigh, [out], false, false⟩

/-- The end of `ospf_process_DD` for a slave. -/
def processAsSlave (neigh : NeighborDs) (dd : DdPacket) : Option DdOut := do
  let neigh := { neigh with ddSeqNo := dd.ddSequenceNumber }
  let (neigh, out) ← sendDDMsgInExchange ospf thisInterface now neigh
  let rest ← neigh.neighDBSummaryList
  return ⟨neigh, [out], !dd.imms.more && rest.isEmpty, false⟩

/-- `ospf_process_DD`. It is called in Exchange. -/
def processDD (neigh : NeighborDs) (dd : DdPacket) : Option DdOut := do
  let (neigh, isKnown) ← processLSAHeaders ospf area now neigh dd.lsaHeader
  if !isKnown then return .mismatch neigh
  if neigh.isMaster then processAsMaster ospf thisInterface now neigh dd
  else processAsSlave ospf thisInterface now neigh dd

/-! ## States -/

/-- `validate_dd_msg`. -/
def validateDDMsg (neigh : NeighborDs) (dd : DdPacket) : Bool :=
  !decide (dd.interfaceMTU > interfaceMTUDefault) && neigh.state != .down && neigh.state != .attempt

/-- `ospf_dd_check_duplicate`. -/
def ddCheckDuplicate (neigh : NeighborDs) (n : DdPacket) : Bool :=
  neigh.lastrecvDDPacket.any fun o =>
    n.ddSequenceNumber == o.ddSequenceNumber && n.imms == o.imms && n.option == o.option

/-- The end of `ospf_process_dd_in_exstart_state`. -/
def startExchange (neigh : NeighborDs) (dd : DdPacket) : Option DdOut := do
  let neigh ← handleNegotiationDone ospf area now neigh
  processDD ospf thisInterface area now { neigh with neighborOption := dd.option } dd

/-- `ospf_process_dd_in_exstart_state`. -/
def processDDInExstart (neigh : NeighborDs) (dd : DdPacket) : Option DdOut :=
  if dd.imms.init && dd.imms.more && dd.imms.master && dd.lsaHeader.isEmpty &&
      decide (dd.routerId.intIp > ospf.routerId.intIp) then
    startExchange ospf thisInterface area now
      { neigh with ddSeqNo := dd.ddSequenceNumber, isMaster := false } dd
  else if !dd.imms.init && !dd.imms.master && dd.ddSequenceNumber == neigh.ddSeqNo &&
      decide (dd.routerId.intIp < ospf.routerId.intIp) then
    startExchange ospf thisInterface area now { neigh with isMaster := true } dd
  else some (.quiet neigh)

/-- The answer of a slave to a duplicate. -/
def resent (neigh : NeighborDs) : Option DdOut :=
  (resendDDMsg ospf now neigh).map fun out => ⟨out.1, [out.2], false, false⟩

/-- `ospf_process_dd_in_exchange_state`. -/
def processDDInExchange (neigh : NeighborDs) (dd : DdPacket) (isDuplicate : Bool) : Option DdOut :=
  if isDuplicate then
    if neigh.isMaster then some (.quiet neigh) else resent ospf now neigh
  else if dd.imms.master && neigh.isMaster || !dd.imms.master && !neigh.isMaster then some (.mismatch neigh)
  else if dd.imms.init then some (.mismatch neigh)
  else if dd.option != neigh.neighborOption then some (.mismatch neigh)
  else if neigh.isMaster && neigh.ddSeqNo != dd.ddSequenceNumber ||
      !neigh.isMaster && dd.ddSequenceNumber != neigh.ddSeqNo + 1 then some (.mismatch neigh)
  else processDD ospf thisInterface area now neigh dd

/-- `ospf_process_dd_in_loading_or_full_state`. -/
def processDDInLoadingOrFull (routerDeadInterval : ℚ) (neigh : NeighborDs) (isDuplicate : Bool) :
    Option DdOut :=
  if isDuplicate && neigh.isMaster then some (.quiet neigh)
  else if isDuplicate && decide (now - neigh.lastDDMsgSentTime < routerDeadInterval * second) then
    resent ospf now neigh
  else some (.mismatch neigh)

/-- `ospf_process_dd_in_init_state` and the case after it. -/
def processDDInInit (neigh : NeighborDs) (dd : DdPacket) : Option DdOut := do
  let (neigh, sent) ← handle2WayReceived ospf thisInterface now neigh
  if neigh.state != .exStart then return ⟨neigh, sent.toList, false, false⟩
  let out ← processDDInExstart ospf thisInterface area now neigh dd
  return { out with sent := sent.toList ++ out.sent }

/-- `ospf_handle_DD`. -/
def handleDD (routerDeadInterval : ℚ) (neigh : NeighborDs) (dd : DdPacket) : Option DdOut :=
  if !validateDDMsg neigh dd then some (.quiet neigh)
  else
    let isDuplicate := ddCheckDuplicate neigh dd
    let neigh := { neigh with lastrecvDDPacket := some dd }
    match neigh.state with
    | .down | .attempt | .twoWay => some (.quiet neigh)
    | .init => processDDInInit ospf thisInterface area now neigh dd
    | .exStart => processDDInExstart ospf thisInterface area now neigh dd
    | .exchange => processDDInExchange ospf thisInterface area now neigh dd isDuplicate
    | .loading | .full => processDDInLoadingOrFull ospf now routerDeadInterval neigh isDuplicate

end

end NetSim.Ospf
