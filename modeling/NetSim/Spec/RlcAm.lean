import NetSim.Lib.Machine
import NetSim.Spec.RlcAmTx

/-!
# RLC AM entities
-/

/-!
## The receiving side of an RLC AM entity

Placing a PDU in the reception buffer, reassembly, the state variables, the
reassembly timer, and the construction of a STATUS PDU from the received segments.
-/

namespace NetSim.Rlc

open Word

/-- `LTENR_RLC_RECEPTIONBUFFER`: the PDUs received of one SN. -/
structure ReceptionBuffer where
  reassembleCount : ℕ
  sn : ℕ
  lastSduSo : ℕ
  isLastSduReceived : Bool
  packets : List AmdPdu
deriving DecidableEq, Repr

/-- `LTENR_RLCAM_STATUS`: one received segment. -/
structure RecvdInfo where
  si : SI
  sn : ℕ
  so : ℕ
deriving DecidableEq, Repr

/-- A reassembled SDU on its way to PDCP. -/
structure Sdu where
  sn : ℕ
  payload : ℤ
  packetSize : ℤ
deriving DecidableEq, Repr

/-- The receiving side of `LTENR_RLCENTITY` in AM mode. -/
structure AmRx where
  rxNext : ℕ
  rxNextStatusTrigger : ℕ
  rxHighestStatus : ℕ
  rxNextHighest : ℕ
  receptionBuffer : List ReceptionBuffer
  recvdInfo : List RecvdInfo
  isStatusReportDelayed : Bool
  isConstructStatusReortDelayed : Bool
  isReassemblyTimerStarted : Bool
  isStatusProhibitTimerStarted : Bool
deriving DecidableEq, Repr

namespace ReceptionBuffer

/-- `LTENR_RLCAM_AddToReceptionBuffer`. -/
def add (buf : ReceptionBuffer) (pdu : AmdPdu) : ReceptionBuffer :=
  let buf := { buf with packets := buf.packets ++ [pdu] }
  if pdu.si.endsSdu then { buf with isLastSduReceived := true, lastSduSo := pdu.so } else buf

/-- `LTENR_RLCAM_isAllByteSegmentReceived`. -/
def isAllByteSegmentReceived (buf : ReceptionBuffer) : Bool :=
  buf.isLastSduReceived && (List.range buf.lastSduSo).all fun i => buf.packets.any fun p => p.so = i

/-- `LTENR_RLCAM_ReassembleAllBytes`: the sizes of the first PDU grow by the other payloads. -/
def reassembleAllBytes (buf : ReceptionBuffer) : Sdu :=
  match buf.packets with
  | [] => ⟨buf.sn, 0, 0⟩
  | p :: ps =>
    let rest := ps.foldl (fun size q => size + q.mac.payload) 0
    ⟨buf.sn, p.mac.payload + rest, p.mac.packetSize + rest⟩

end ReceptionBuffer

/-- Puts `pdu` into the buffer of its SN, which is created at the end if there is none:
`LTENR_RLCAM_FINDRECEPTIONBUFFER`, `LTENR_RLCAM_CREATERECEPTIONBUFFER` and
`LTENR_RLCAM_AddToReceptionBuffer`. The buffer that got it comes first. -/
def placeIn (pdu : AmdPdu) : List ReceptionBuffer → ReceptionBuffer × List ReceptionBuffer
  | [] =>
    let buf := (⟨0, pdu.sn, 0, false, []⟩ : ReceptionBuffer).add pdu
    (buf, [buf])
  | b :: bs =>
    if b.sn = pdu.sn then (b.add pdu, b.add pdu :: bs)
    else
      let r := placeIn pdu bs
      (r.1, b :: r.2)

namespace AmRx

def init : AmRx := ⟨0, 0, 0, 0, [], [], false, false, false, false⟩

/-- `LTENR_RLCAM_IsSNFallsInReceivingWindow`. -/
def isSnInReceivingWindow (rx : AmRx) (sn : ℕ) : Bool :=
  rx.rxNext ≤ sn ∧ sn < u32 (rx.rxNext + amWindowSize)

/-- `LTENR_RLCAM_FINDRECEPTIONBUFFER`. -/
def findReceptionBuffer (rx : AmRx) (sn : ℕ) : Option ReceptionBuffer :=
  rx.receptionBuffer.find? fun b => b.sn = sn

/-- `LTENR_RLCAM_IsPDUPresentInReceptionBuffer`. -/
def isPduPresentInReceptionBuffer (rx : AmRx) (sn so : ℕ) : Bool :=
  match rx.findReceptionBuffer sn with
  | none => false
  | some b => b.packets.any fun p => p.so = so

/-- `LTENR_RLCAM_isAllBytesReceivedForSN`. -/
def isAllBytesReceivedForSn (rx : AmRx) (sn : ℕ) : Bool :=
  match rx.findReceptionBuffer sn with
  | none => true
  | some b => b.isAllByteSegmentReceived

/-- `LTENR_RLCAM_UpdateRX_Highest_Status`. -/
def updateRxHighestStatus (rx : AmRx) : ℕ :=
  if rx.receptionBuffer.isEmpty then rx.rxNextHighest
  else rx.receptionBuffer.foldl (fun ret b => max ret b.sn) 0

/-- `LTENR_RLCAM_UpdateRxNext`. -/
def updateRxNext (rx : AmRx) : ℕ :=
  if rx.receptionBuffer.isEmpty then rx.rxNextHighest
  else rx.receptionBuffer.foldl (fun ret b => min ret b.sn) 4294967295

/-- `LTENR_RLCAM_Start_t_ReassemblyTimer` and `LTENR_RLCAM_Stop_t_ReassemblyTimer`. -/
def startReassemblyTimer (rx : AmRx) : AmRx := { rx with isReassemblyTimerStarted := true }
def stopReassemblyTimer (rx : AmRx) : AmRx := { rx with isReassemblyTimerStarted := false }

/-- The timer part of `LTENR_RLCAM_PLACE_AMDPDU_IN_RECEPTIONBUFFER`. -/
def updateReassemblyTimer (rx : AmRx) : AmRx :=
  let rx :=
    if rx.isReassemblyTimerStarted then
      if rx.rxNextStatusTrigger = rx.rxNext ∨
          rx.rxNextStatusTrigger = u32 (rx.rxNext + 1) ∧ rx.isAllBytesReceivedForSn rx.rxNext ∨
          ¬ rx.isSnInReceivingWindow rx.rxNextStatusTrigger ∧
            rx.rxNextStatusTrigger ≠ u32 (rx.rxNext + amWindowSize) then
        rx.stopReassemblyTimer
      else rx
    else rx
  if rx.isReassemblyTimerStarted then rx
  else if rx.rxNextHighest > u32 (rx.rxNext + 1) ∨
      rx.rxNextHighest = u32 (rx.rxNext + 1) ∧ ¬ rx.isAllBytesReceivedForSn rx.rxNext then
    { rx.startReassemblyTimer with rxNextStatusTrigger := rx.rxNextHighest }
  else rx

/-- `LTENR_RLCAM_PLACE_AMDPDU_IN_RECEPTIONBUFFER`, with the SDU handed to PDCP. -/
def placeAmdPduInReceptionBuffer (rx : AmRx) (pdu : AmdPdu) : AmRx × List Sdu :=
  let r := placeIn pdu rx.receptionBuffer
  let rx := { rx with
    receptionBuffer := r.2
    -- `LTENR_RLCAM_STATUS_ADD`
    recvdInfo := rx.recvdInfo ++ [(⟨pdu.si, pdu.sn, pdu.so⟩ : RecvdInfo)]
    rxNextHighest := if pdu.sn ≥ rx.rxNextHighest then u32 (pdu.sn + 1) else rx.rxNextHighest }
  if r.1.isAllByteSegmentReceived then
    let rx := { rx with receptionBuffer := rx.receptionBuffer.eraseP fun b => b.sn = pdu.sn }
    let rx := { rx with rxHighestStatus := rx.updateRxHighestStatus }
    let rx := { rx with rxNext := rx.updateRxNext }
    (rx.updateReassemblyTimer, [r.1.reassembleAllBytes])
  else (rx.updateReassemblyTimer, [])

/-! ## STATUS PDUs -/

/-- `LTENR_RLCAM_FindLastStatusInfo`: the first PDU received that ends the SDU, or else the
one with the highest SO. -/
def findLastStatusInfo (sn : ℕ) : List RecvdInfo → Option RecvdInfo → Option RecvdInfo
  | [], ret => ret
  | s :: ss, ret =>
    if s.sn = sn then
      if s.si.endsSdu then some s
      else
        match ret with
        | none => findLastStatusInfo sn ss (some s)
        | some r => findLastStatusInfo sn ss (if r.so < s.so then some s else some r)
    else findLastStatusInfo sn ss ret

/-- `LTENR_RLCAM_FindStatus`. -/
def findStatus (rx : AmRx) (sn so : ℕ) : Option RecvdInfo :=
  rx.recvdInfo.find? fun s => s.sn = sn ∧ s.so = so

/-- `LTENR_RLCAM_StatusPdu_NewNack`. -/
def newNack (si : SI) (sn so : ℕ) : Nack :=
  if si = .all then ⟨sn, false, false, 0, 0, 0⟩ else ⟨sn, true, false, so, so, 0⟩

/-- `LTENR_RLCAM_StatusPdu_UpdateNackTail`. -/
def updateNackTail (nack : Nack) (si : SI) (sn so : ℕ) : Option Nack :=
  if si = .all then
    if nack.e3 then
      if u32 (nack.nackSn + nack.nackRange) = sn then
        some { nack with nackRange := u8 (nack.nackRange + 1) }
      else none
    else if ¬ nack.e2 then
      if u32 (nack.nackSn + 1) = sn then some { nack with e3 := true, nackRange := 2 } else none
    else none
  else if nack.nackSn = sn ∧ nack.e2 then
    if nack.soEnd + 1 = so then some { nack with soEnd := so } else none
  else none

/-- `LTENR_RLCAM_STATUSPDU_AddNack`. The list is kept with its tail first. -/
def addNack (nacks : List Nack) (si : SI) (sn so : ℕ) : List Nack :=
  match nacks with
  | [] => [newNack si sn so]
  | tail :: front =>
    match updateNackTail tail si sn so with
    | some tail => tail :: front
    | none => newNack si sn so :: tail :: front

/-- The body of the loop over the SNs in `LTENR_RLCAM_UpdateStatus`. The counter of the inner
loop is 16 bits wide, so a loop up to the largest value does not end. -/
def updateStatusSn (rx : AmRx) (nacks : List Nack) (sn : ℕ) : Option (List Nack) :=
  match findLastStatusInfo sn rx.recvdInfo none with
  | none => some (addNack nacks .all sn 0)
  | some s =>
    if s.si = .all then some nacks
    else if s.so = 65535 then none
    else some ((List.range (s.so + 1)).foldl (fun nacks so =>
      if (rx.findStatus sn so).isNone then addNack nacks .middle sn so else nacks) nacks)

/-- `LTENR_RLCAM_UpdateStatus`: the NACKs. -/
def updateStatus (rx : AmRx) : Option (List Nack) :=
  (List.range' rx.rxNext (rx.rxNextHighest - rx.rxNext)).foldlM rx.updateStatusSn []

/-- `LTENR_RLCAM_ConstructStatusPDU`. -/
def constructStatusPdu (rx : AmRx) : Option (AmRx × StatusPdu) := do
  let nacks ← rx.updateStatus
  -- `LTENR_RLCAM_DeleteFromStatusInfo`
  let rx' := { rx with recvdInfo := rx.recvdInfo.filter fun s => ¬ s.sn < rx.rxNext }
  return (rx', ⟨rx.rxNextHighest, nacks.reverse⟩)

/-- `LTENR_RLCAM_TriggerStatusReport`. -/
def triggerStatusReport (rx : AmRx) : Option (AmRx × List StatusPdu) :=
  if rx.isStatusProhibitTimerStarted then some ({ rx with isConstructStatusReortDelayed := true }, [])
  else rx.constructStatusPdu.map fun r => (r.1, [r.2])

/-- `LTENR_RLCAM_InitiateToTriggerStatusReport`. -/
def initiateToTriggerStatusReport (rx : AmRx) (x : ℕ) : Option (AmRx × List StatusPdu) :=
  if x < rx.rxNextHighest ∨ x ≥ u32 (rx.rxNext + amWindowSize) then
    triggerStatusReport { rx with isStatusReportDelayed := false }
  else some ({ rx with isStatusReportDelayed := true }, [])

/-! ## Events -/

/-- What an event of the receiving side puts out. -/
structure Output where
  placed : List AmdPdu
  sdus : List Sdu
  statuses : List StatusPdu

/-- Whether `LTENR_RLC_AM_RECEIVE_PDU` discards a PDU. -/
def discards (rx : AmRx) (pdu : AmdPdu) : Bool :=
  ¬ rx.isSnInReceivingWindow pdu.sn ∨ rx.isPduPresentInReceptionBuffer pdu.sn pdu.so

/-- `LTENR_RLC_AM_RECEIVE_PDU`. -/
def receivePdu (rx : AmRx) (pdu : AmdPdu) : Option (AmRx × Output) :=
  if rx.discards pdu then some (rx, ⟨[], [], []⟩)
  else do
    let r := rx.placeAmdPduInReceptionBuffer pdu
    let rx := r.1
    if pdu.p || rx.isStatusReportDelayed then
      let t ← rx.initiateToTriggerStatusReport pdu.sn
      return (t.1, ⟨[pdu], r.2, t.2⟩)
    else return (rx, ⟨[pdu], r.2, []⟩)

/-- Whether an expiry gives up a reception buffer. -/
def isGivenUp (cfg : AmConfig) (b : ReceptionBuffer) : Bool := b.reassembleCount > cfg.maxRetxThreshold

/-- `LTENR_RLCAM_UpdateReceptionBuffer`, with `LTENR_RLCAM_ClearReceivedInfo` for each buffer
that goes. -/
def updateReceptionBuffer (cfg : AmConfig) (rx : AmRx) : AmRx :=
  let gone := (rx.receptionBuffer.filter (isGivenUp cfg)).map (·.sn)
  { rx with
    receptionBuffer := rx.receptionBuffer.filter fun b => ¬ isGivenUp cfg b
    recvdInfo := rx.recvdInfo.filter fun s => s.sn ∉ gone }

/-- `LTENR_RLCAM_IncreaseReassembleCount`. -/
def increaseReassembleCount (rx : AmRx) : AmRx :=
  { rx with
    receptionBuffer := rx.receptionBuffer.map fun b =>
      if b.sn ≤ rx.rxHighestStatus then { b with reassembleCount := u32 (b.reassembleCount + 1) } else b }

/-- What `LTENR_RLCAM_Handle_t_reassemblyTimer` does before it triggers a STATUS PDU. -/
def expireReassembly (cfg : AmConfig) (rx : AmRx) : AmRx :=
  let rx := rx.stopReassemblyTimer.updateReceptionBuffer cfg
  let rx := { rx with rxHighestStatus := rx.updateRxHighestStatus }
  let rx := { rx with rxNext := rx.updateRxNext }
  if rx.rxNextHighest > u32 (rx.rxHighestStatus + 1) ∨
      rx.rxNextHighest = u32 (rx.rxHighestStatus + 1) ∧
        ¬ rx.isAllBytesReceivedForSn rx.rxHighestStatus then
    { rx.startReassemblyTimer with rxNextStatusTrigger := rx.rxNextHighest }
  else rx

/-- `LTENR_RLCAM_Handle_t_reassemblyTimer`, an event that only a running timer has. -/
def handleReassemblyTimer (cfg : AmConfig) (rx : AmRx) : Option (AmRx × Output) :=
  if rx.isReassemblyTimerStarted then do
    let r ← (rx.expireReassembly cfg).triggerStatusReport
    return (r.1.increaseReassembleCount, ⟨[], [], r.2⟩)
  else none

/-- `LTENR_RLCAM_Handle_t_StatusProhibitTimer`, an event that only a running timer has. -/
def handleStatusProhibitTimer (rx : AmRx) : Option (AmRx × Output) :=
  if rx.isStatusProhibitTimerStarted then
    let rx := { rx with isStatusProhibitTimerStarted := false }
    if rx.isConstructStatusReortDelayed then
      (constructStatusPdu { rx with isConstructStatusReortDelayed := false }).map fun r =>
        (r.1, ⟨[], [], [r.2]⟩)
    else some (rx, ⟨[], [], []⟩)
  else none

end AmRx

end NetSim.Rlc

/-!
## A pair of RLC AM entities

One entity sends to its peer. Whatever it hands to MAC may arrive at any later time, in
any order, any number of times or never, and so may every STATUS PDU on the way back.
A pair also remembers what happened: the PDUs sent, those that the receiver placed, the
SDUs handed to PDCP, the STATUS PDUs, and the entries cleared as acknowledged.
-/

namespace NetSim.Rlc

open Word

/-- A STATUS PDU, with the PDUs that had been sent and placed when it was built. -/
structure StatusReport where
  pdu : StatusPdu
  sent : List AmdPdu
  placed : List AmdPdu

structure AmPair where
  tx : AmTx
  rx : AmRx
  sent : List AmdPdu
  placed : List AmdPdu
  delivered : List Sdu
  reports : List StatusReport
  cleared : List BufferData

inductive AmEvent
  | enqueue (p : Packet) (ch : LogicalChannel)
  | grant (size : ℕ) (ch : LogicalChannel)
  | pollRetransmit
  /-- The `i`-th STATUS PDU arrives. -/
  | statusArrives (i : ℕ)
  /-- The `i`-th PDU sent arrives. -/
  | pduArrives (i : ℕ)
  | reassembly
  | statusProhibit

namespace AmPair

def init : AmPair := ⟨.init, .init, [], [], [], [], []⟩

/-- Files what an event of the receiver put out. -/
def receive (s : AmPair) (r : AmRx × AmRx.Output) : AmPair :=
  let placed := s.placed ++ r.2.placed
  { s with
    rx := r.1
    placed := placed
    delivered := s.delivered ++ r.2.sdus
    reports := s.reports ++ r.2.statuses.map fun pdu => ⟨pdu, s.sent, placed⟩ }

def step (H : HdrLib) (cfg : AmConfig) (s : AmPair) : AmEvent → Option AmPair
  | .enqueue p ch => (s.tx.step H cfg (.enqueue p ch)).map fun tx => { s with tx := tx }
  | .grant size ch => (s.tx.step H cfg (.grant size ch)).map fun tx =>
      { s with tx := tx, sent := s.sent ++ (s.tx.grantCalls H cfg size ch).map (·.sent cfg) }
  | .pollRetransmit => (s.tx.step H cfg .pollRetransmit).map fun tx => { s with tx := tx }
  | .statusArrives i => do
    let r ← s.reports[i]?
    let gone ← s.tx.cleared r.pdu
    let tx ← s.tx.step H cfg (.status r.pdu)
    return { s with tx := tx, cleared := s.cleared ++ gone }
  | .pduArrives i => do
    let pdu ← s.sent[i]?
    let r ← s.rx.receivePdu pdu
    return s.receive r
  | .reassembly => (s.rx.handleReassemblyTimer cfg).map s.receive
  | .statusProhibit => s.rx.handleStatusProhibitTimer.map s.receive

def machine (H : HdrLib) (cfg : AmConfig) : Machine AmPair AmEvent := ⟨(· = init), step H cfg⟩

end AmPair

/-- A transmitting entity by itself, which may get any STATUS PDU. -/
def AmTx.machine (H : HdrLib) (cfg : AmConfig) : Machine AmTx AmTx.Event := ⟨(· = AmTx.init), AmTx.step H cfg⟩

end NetSim.Rlc
