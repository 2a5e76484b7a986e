import NetSim.Lib.Machine
import Mathlib.Algebra.GroupWithZero.Nat
import Mathlib.Data.Rat.Defs

/-!
# The MAC of an 802.11 station

One MAC of a station (`IEEE802_11_MAC_VAR`): DCF, or one access category of EDCA, with RTS/CTS, TXOP and frame
aggregation. The rate adaptation is the generic one: it chooses data rates only and plays no part here.

What the radio, the medium and the NAV say is given with each event, and times are taken exactly. An event comes with
what it makes the MAC take from its queue, hand to the PHY and answer (`Out`).
-/

namespace NetSim.Wlan

/-- `IEEE802_11_MAC_STATE`. -/
inductive MacState
  | macIdle
  | wfNav
  | waitDifs
  | waitAifs
  | backingOff
  | txingMpdu
  | txingBroadCast
  | txingAck
  | txingRts
  | txingCts
  | waitAck
  | waitCts
deriving DecidableEq, Repr

/-- `nControlDataType` of what the MAC can be processing. -/
inductive ControlDataType
  | data
  | wlanRts
deriving DecidableEq, Repr

/-- `NetSim_PACKET`. `isGroup` is what `isBroadcastPacket` or `isMulticastPacket` say of it, and `dEventTime` the time
at which it has entered the queue. -/
structure Packet where
  nPacketId : ℕ
  nControlDataType : ControlDataType
  nReceiverId : ℕ
  isGroup : Bool
  dPayload : ℕ
  dEventTime : ℚ
deriving DecidableEq, Repr

/-- `isIEEE802_11_CtrlPacket`. -/
def Packet.isCtrlPacket (p : Packet) : Bool := p.nControlDataType = .wlanRts

/-- A frame with the fields that `Add_MAC_Header` writes. -/
structure Mpdu where
  packet : Packet
  nTransmitterId : ℕ
  sequenceNumber : ℕ
  moreFragment : Bool
deriving DecidableEq, Repr

/-- A block ack: `nReceiverId` and `BitMap`. -/
structure BlockAck where
  nReceiverId : ℕ
  bitMap : BitVec 64
deriving DecidableEq, Repr

/-- `IEEE802_11_MEDIUM_ACCESS_PROTOCOL`. -/
inductive MediumAccessProtocol
  | dcf
  | edcaf
deriving DecidableEq, Repr

/-- What a run does not change: the configuration of the MAC, its entry of the EDCA table and the SIFS of its PHY.
`msduLifeTime` is in microseconds. -/
structure MacConfig where
  deviceId : ℕ
  dot11ShortRetryLimit : ℕ
  dot11LongRetryLimit : ℕ
  dot11RTSThreshold : ℕ
  mediumAccessProtocol : MediumAccessProtocol
  macAggregationStatus : Bool
  nNumberOfAggregatedPackets : ℕ
  cwMin : ℕ
  cwMax : ℕ
  txopLimit : ℚ
  msduLifeTime : ℚ
  aSIFSTime : ℚ
deriving DecidableEq, Repr

/-- `EVENTID`, as whether the event is pending, with the `SEND_MPDU` that a CTS has asked for. -/
structure EventId where
  backoff : Bool
  difsEnd : Bool
  aifsEnd : Bool
  ackTimeOut : Bool
  ctsTimeout : Bool
  sendMpdu : Bool
deriving DecidableEq, Repr

/-- No event of its own is pending. -/
def EventId.none : EventId := ⟨false, false, false, false, false, false⟩

/-- What a run changes in `IEEE802_11_MAC_VAR`. A list of packets linked by `pstruNextPacket` is a list, and `NULL` the
empty one. -/
structure Mac where
  currMacState : MacState
  nBackOffCounter : ℤ
  nRetryCount : ℕ
  nCWcurrent : ℕ
  txopTime : ℚ
  qosList : List Packet
  currentProcessingPacket : List Packet
  waitingforCTS : List Packet
  blockAckPacket : Option BlockAck
  eventId : EventId
deriving DecidableEq, Repr

/-- What an event makes the MAC do. -/
structure Out where
  /-- The packets that `get_from_queue` has returned. -/
  dequeued : List Packet := []
  /-- What is handed to the PHY by `fn_NetSim_IEEE802_11_SendToPhy`. -/
  physicalOut : List Mpdu := []
  /-- The block ack that is sent. -/
  blockAck : Option BlockAck := .none
deriving DecidableEq, Repr

/-! ## The queue -/

/-- `get_packet_from_qoslist`: the first packet, or the first one to a receiver. -/
def getPacketFromQoslist (recvId : ℕ) : List Packet → Option (Packet × List Packet)
  | [] => none
  | p :: list =>
    if recvId = 0 ∨ p.nReceiverId = recvId then some (p, list)
    else (getPacketFromQoslist recvId list).map fun r => (r.1, p :: r.2)

/-- Whether the lifetime of a packet is over. -/
def MacConfig.isExpired (cfg : MacConfig) (now : ℚ) (t : Packet) : Bool :=
  cfg.mediumAccessProtocol = .edcaf ∧ t.dEventTime + cfg.msduLifeTime < now

/-- The loop of `fn_NetSim_IEEE802_11e_GetPacketFromQueue`, with the packets that it has so far. Each turn takes a packet
from the queue, so `fuel` is the length of the queue. A packet whose lifetime is over does not count. -/
def getPackets (cfg : MacConfig) (now : ℚ) : ℕ → ℕ → List Packet → List Packet → List Packet × List Packet
  | 0, _, packets, list => (packets, list)
  | _ + 1, 0, packets, list => (packets, list)
  | fuel + 1, nPacketRequire + 1, packets, list =>
    match getPacketFromQoslist (packets.head?.elim 0 Packet.nReceiverId) list with
    | none => (packets, list)
    | some (t, list) =>
      if cfg.isExpired now t then getPackets cfg now fuel (nPacketRequire + 1) packets list
      else getPackets cfg now fuel nPacketRequire (packets ++ [t]) list

/-- `get_from_queue`: the packets, and what stays in the queue. -/
def getFromQueue (cfg : MacConfig) (now : ℚ) (qosList : List Packet) : List Packet × List Packet :=
  getPackets cfg now qosList.length cfg.nNumberOfAggregatedPackets [] qosList

/-! ## TXOP -/

/-- `ieee802_11_edcaf_set_txop_time`. -/
def edcafSetTxopTime (cfg : MacConfig) (now : ℚ) (mac : Mac) : Mac :=
  { mac with
    txopTime :=
      if cfg.mediumAccessProtocol ≠ .edcaf then mac.txopTime
      else if 0 < mac.txopTime then mac.txopTime
      else cfg.txopLimit + now }

/-- `ieee802_11_edcaf_unset_txop_time`. -/
def edcafUnsetTxopTime (cfg : MacConfig) (mac : Mac) : Mac :=
  { mac with txopTime := if cfg.mediumAccessProtocol ≠ .edcaf then mac.txopTime else 0 }

/-- `ieee802_11_edcaf_is_txop_timer_set`. -/
def edcafIsTxopTimerSet (cfg : MacConfig) (now : ℚ) (mac : Mac) : Bool :=
  cfg.mediumAccessProtocol = .edcaf ∧ cfg.aSIFSTime < mac.txopTime - now

/-! ## Retry limit and contention window -/

/-- The limit of a frame: short up to `dot11RTSThreshold`. -/
def MacConfig.retryLimit (cfg : MacConfig) (frameLength : ℕ) : ℕ :=
  if frameLength ≤ cfg.dot11RTSThreshold then cfg.dot11ShortRetryLimit else cfg.dot11LongRetryLimit

/-- `n - 1` in `UINT`. -/
def uintPred (n : ℕ) : ℕ := if n = 0 then 2 ^ 32 - 1 else n - 1

/-- `fn_NetSim_IEEE802_11_CSMACA_CheckRetryLimit`. -/
def checkRetryLimit (cfg : MacConfig) (mac : Mac) (frameLength : ℕ) : Bool :=
  mac.nRetryCount < uintPred (cfg.retryLimit frameLength)

/-- `fn_NetSim_IEEE802_11_CSMACA_IncreaseCW`, with the arithmetic of `UINT`. -/
def increaseCW (cfg : MacConfig) (mac : Mac) : Mac :=
  { mac with nCWcurrent := min ((mac.nCWcurrent * 2 + 1) % 2 ^ 32) cfg.cwMax }

/-! ## RTS and CTS -/

/-- `decide_RTS_CTS_Mechanism`. -/
def decideRtsCtsMechanism (cfg : MacConfig) (mac : Mac) : Bool :=
  match mac.currentProcessingPacket with
  | [] => false
  | p :: list =>
    !p.isGroup && !p.isCtrlPacket && decide (cfg.dot11RTSThreshold ≤ ((p :: list).map Packet.dPayload).sum)

/-- `fn_NetSim_IEEE802_11_CreateRTSPacket`. -/
def createRTSPacket (data : Packet) : Packet :=
  { nPacketId := 0
    nControlDataType := .wlanRts
    nReceiverId := data.nReceiverId
    isGroup := false
    dPayload := 0
    dEventTime := data.dEventTime }

/-- `fn_NetSim_IEEE802_11_RTS_CTS_Init`. -/
def rtsCtsInit (cfg : MacConfig) (mac : Mac) : Mac :=
  if decideRtsCtsMechanism cfg mac then
    { mac with
      waitingforCTS := mac.currentProcessingPacket
      currentProcessingPacket := (mac.currentProcessingPacket.take 1).map createRTSPacket }
  else mac

/-! ## Starting -/

/-- What the radio, the medium and the NAV say when an event is processed, and the time of the event. -/
structure Env where
  now : ℚ
  /-- `radioState == RX_ON_IDLE`. -/
  radioIdle : Bool
  /-- `isCurrSTAMediumIdle`. -/
  mediumIdle : Bool
  /-- The NAV is no obstacle: `dNAV <= dEventTime`, and `dNAV - 4 <= dEventTime` at the carrier sense. -/
  navClear : Bool
deriving DecidableEq, Repr

/-- `fn_NetSim_IEEE802_11_CSMACA_Init`. The carrier sense that it ends with is an event of its own. -/
def init (cfg : MacConfig) (env : Env) (mac : Mac) : Mac × Out :=
  if mac.currMacState ≠ .macIdle ∨ env.radioIdle = false then (mac, {})
  else if env.navClear = false then (mac, {})
  else if mac.currentProcessingPacket ≠ [] then (rtsCtsInit cfg mac, {})
  else
    let r := getFromQueue cfg env.now mac.qosList
    let mac := { mac with qosList := r.2 }
    if r.1 = [] then (mac, {})
    else
      (rtsCtsInit cfg { mac with currentProcessingPacket := r.1, nCWcurrent := cfg.cwMin },
        { dequeued := r.1 })

/-- `fn_NetSim_IEE802_11_MacReInit`. -/
def macReInit (cfg : MacConfig) (env : Env) (mac : Mac) : Mac × Out :=
  init cfg env { mac with nRetryCount := 0 }

/-- `fn_NetSim_IEEE802_11_MacInit` with the packets that have arrived from above, and `CSMACA_Init`. -/
def macOut (cfg : MacConfig) (env : Env) (packets : List Packet) (mac : Mac) : Mac × Out :=
  init cfg env { mac with qosList := mac.qosList ++ packets }

/-! ## Transmission -/

/-- `set_mac_state_for_tx`. -/
def setMacStateForTx (p : Packet) (mac : Mac) : Mac :=
  { mac with
    currMacState :=
      match p.nControlDataType with
      | .wlanRts => .txingRts
      | .data => if p.isGroup then .txingBroadCast else .txingMpdu }

/-- `fn_NetSim_IEEE802_11_Add_MAC_Header` for each packet of the list. -/
def addMacHeaders (cfg : MacConfig) : ℕ → List Packet → List Mpdu
  | _, [] => []
  | i, p :: list => ⟨p, cfg.deviceId, i, !list.isEmpty⟩ :: addMacHeaders cfg (i + 1) list

/-- The timer that the PHY starts for what it is given: `fn_NetSim_IEEE802_11_CSMACA_AddAckTimeOut` or
`fn_NetSim_IEEE802_11_RTS_CTS_AddCTSTimeOut`. -/
def addTimeOut (p : Packet) (e : EventId) : EventId :=
  match p.nControlDataType with
  | .wlanRts => { e with ctsTimeout := true }
  | .data => if p.isGroup then e else { e with ackTimeOut := true }

/-- `fn_NetSim_IEEE802_11_SendToPhy`, with the timer. -/
def sendToPhy (cfg : MacConfig) (now : ℚ) (mac : Mac) : Mac × Out :=
  match mac.currentProcessingPacket with
  | [] => (mac, {})
  | p :: list =>
    let mac := edcafSetTxopTime cfg now (setMacStateForTx p mac)
    let mac := { mac with eventId := addTimeOut p mac.eventId }
    ((if p.isGroup then { mac with currentProcessingPacket := [] } else mac),
      { physicalOut := addMacHeaders cfg 1 (p :: list) })

/-- `set_mac_state_after_txend`. -/
def setMacStateAfterTxend (mac : Mac) : Mac :=
  { mac with
    currMacState :=
      match mac.currMacState with
      | .txingMpdu => .waitAck
      | .txingRts => .waitCts
      | _ => .macIdle }

/-! ## Carrier sense and back-off -/

/-- `fn_NetSim_IEEE802_11_CSMACA_CS` and `fn_NetSim_IEEE802_11_CSMACA_CheckNAV`. -/
def cs (cfg : MacConfig) (env : Env) (mac : Mac) : Mac :=
  if mac.currMacState = .macIdle ∧ env.radioIdle = true ∧ env.mediumIdle = true ∧ env.navClear = true then
    match cfg.mediumAccessProtocol with
    | .dcf => { mac with currMacState := .waitDifs, eventId := { mac.eventId with difsEnd := true } }
    | .edcaf => { mac with currMacState := .waitAifs, eventId := { mac.eventId with aifsEnd := true } }
  else mac

/-- `ieee802_11_csmaca_difs_failed` and `ieee802_11_csmaca_aifs_failed`. -/
def difsFailed (mac : Mac) : Mac :=
  { mac with currMacState := .macIdle, eventId := { mac.eventId with difsEnd := false, aifsEnd := false } }

/-- `NETSIM_RAND_MAX`. -/
def netsimRandMax : ℕ := 0x7FFFFFFF

/-- `fn_NetSim_IEEE802_11_CSMACA_StartBackOff`, where `rand` is the random number. -/
def startBackOff (rand : Fin (netsimRandMax + 1)) (mac : Mac) : Mac :=
  { mac with
    nBackOffCounter :=
      if mac.nBackOffCounter = 0 then ((rand.val * mac.nCWcurrent / netsimRandMax : ℕ) : ℤ)
      else mac.nBackOffCounter
    eventId := { mac.eventId with backoff := true } }

/-- `fn_NetSim_IEEE802_11_CSMACA_DIFSEnd` and `fn_NetSim_IEEE802_11_CSMACA_AIFSEnd`. -/
def difsEnd (env : Env) (rand : Fin (netsimRandMax + 1)) (mac : Mac) : Mac :=
  let mac := { mac with eventId := { mac.eventId with difsEnd := false, aifsEnd := false } }
  if env.mediumIdle then startBackOff rand { mac with currMacState := .backingOff }
  else if mac.currMacState = .waitDifs ∨ mac.currMacState = .waitAifs then { mac with currMacState := .macIdle }
  else mac

/-- The end of a back-off that has failed. -/
def Mac.backoffFailed (mac : Mac) : Mac :=
  if mac.currMacState = .backingOff then { mac with currMacState := .macIdle } else mac

/-- `fn_NetSim_IEEE802_11_CSMACA_Backoff`, and whether the back-off is over. -/
def backoff (env : Env) (mac : Mac) : Mac × Bool :=
  let stopped := { mac with eventId := { mac.eventId with backoff := false } }
  if env.radioIdle = false then (stopped.backoffFailed, false)
  else if env.mediumIdle then
    if 0 < mac.nBackOffCounter - 1 then ({ mac with nBackOffCounter := mac.nBackOffCounter - 1 }, false)
    else ({ stopped with nBackOffCounter := 0 }, true)
  else if mac.nBackOffCounter ≤ 1 then ({ stopped.backoffFailed with nBackOffCounter := 0 }, false)
  else (mac, false)

/-- `IEEE802_11_EVENT_BACKOFF`. -/
def backoffEvent (cfg : MacConfig) (env : Env) (mac : Mac) : Mac × Out :=
  let r := backoff env mac
  if r.2 then sendToPhy cfg env.now r.1 else (r.1, {})

/-- `ieee802_11_csmaca_pause_backoff`. -/
def pauseBackoff (mac : Mac) : Mac :=
  { mac with currMacState := .macIdle, eventId := { mac.eventId with backoff := false } }

/-! ## Acknowledgements -/

/-- How the processing of an acknowledgement ends. The ACK timer that it deletes is the one of the frames that are
acknowledged: the PHY has not yet started another one. -/
def continueTxop (cfg : MacConfig) (env : Env) (mac : Mac) : Mac × Out :=
  let mac := { mac with currMacState := .macIdle, eventId := { mac.eventId with ackTimeOut := false } }
  if edcafIsTxopTimerSet cfg env.now mac then
    let r := getFromQueue cfg env.now mac.qosList
    let mac := { mac with qosList := r.2 }
    if r.1 = [] then (edcafUnsetTxopTime cfg mac, {})
    else
      let s := sendToPhy cfg env.now { mac with currentProcessingPacket := r.1 }
      (s.1, { s.2 with dequeued := r.1 })
  else macReInit cfg env (edcafUnsetTxopTime cfg mac)

/-- `fn_NetSim_IEEE802_11_CSMACA_ProcessAck`. -/
def processAck (cfg : MacConfig) (env : Env) (mac : Mac) : Mac × Out :=
  continueTxop cfg env { mac with currentProcessingPacket := [] }

/-- `BIT_IS_SET_64`. -/
def bitIsSet64 (val : BitVec 64) (bitIndex : ℕ) : Bool := val &&& (1#64 <<< bitIndex) ≠ 0#64

/-- `SET_BIT_64`. -/
def setBit64 (val : BitVec 64) (bitIndex : ℕ) : BitVec 64 := val ||| (1#64 <<< bitIndex)

/-- The loop of `fn_NetSim_IEEE802_11_CSMACA_ProcessBlockAck` over the packets: `i` is the index, and `flag` is cleared
by the first packet that has not been received. The packets that are left stay linked in their order. -/
def walkBitMap (bitMap : BitVec 64) : ℕ → Bool → List Packet → List Packet
  | _, _, [] => []
  | i, flag, p :: list =>
    let i := if flag = false ∧ i = 1 then 0 else i
    if bitIsSet64 bitMap i then walkBitMap bitMap (i + 1) flag list
    else p :: walkBitMap bitMap (i + 1) false list

/-- `fn_NetSim_IEEE802_11_CSMACA_ProcessBlockAck`. -/
def processBlockAck (cfg : MacConfig) (env : Env) (back : BlockAck) (mac : Mac) : Mac × Out :=
  continueTxop cfg env
    { mac with currentProcessingPacket := walkBitMap back.bitMap 0 true mac.currentProcessingPacket }

/-- `set_blockack_bitmap`. -/
def setBlockackBitmap (back : BlockAck) (m : Mpdu) : BlockAck :=
  { back with bitMap := setBit64 back.bitMap (m.sequenceNumber - 1) }

/-- `fn_NetSim_IEEE802_11_CSMACA_SendBlockACK`. -/
def sendBlockACK (m : Mpdu) (mac : Mac) : Mac × Out :=
  let packet := setBlockackBitmap (mac.blockAckPacket.getD ⟨m.nTransmitterId, 0#64⟩) m
  if m.moreFragment then ({ mac with blockAckPacket := some packet }, {})
  else
    ({ mac with currMacState := .txingAck, blockAckPacket := none },
      { blockAck := if bitIsSet64 packet.bitMap 0 then some packet else none })

/-- What `fn_NetSim_IEEE802_11_MacIn` does with a frame for this station: the frame goes up, and is answered by
`fn_NetSim_IEEE802_11_CSMACA_SendBlockACK` or `fn_NetSim_IEEE802_11_CSMACA_SendACK`. -/
def macIn (cfg : MacConfig) (m : Mpdu) (mac : Mac) : Mac × Out :=
  if m.packet.isGroup then (mac, {})
  else
    let mac := { mac with currMacState := .txingAck }
    if cfg.macAggregationStatus then sendBlockACK m mac else (mac, {})

/-- `fn_NetSim_IEEE802_11_RTS_CTS_ProcessRTS`. -/
def processRTS (mac : Mac) : Mac := { mac with currMacState := .txingCts }

/-- `fn_NetSim_IEEE802_11_RTS_CTS_ProcessCTS`. -/
def processCTS (mac : Mac) : Mac :=
  { mac with
    currMacState := .txingMpdu
    currentProcessingPacket := mac.waitingforCTS
    waitingforCTS := []
    eventId := { mac.eventId with ctsTimeout := false, sendMpdu := true } }

/-! ## Timers -/

/-- `fn_NetSim_IEEE802_11_CSMA_AckTimeOut`. -/
def ackTimeOut (cfg : MacConfig) (env : Env) (mac : Mac) : Mac × Out :=
  let mac := { mac with eventId := { mac.eventId with ackTimeOut := false } }
  if mac.currMacState = .waitAck ∨ mac.currMacState = .txingMpdu then
    let frameLength := mac.currentProcessingPacket.head?.elim 0 Packet.dPayload
    let mac := edcafUnsetTxopTime cfg { mac with currMacState := .macIdle }
    if checkRetryLimit cfg mac frameLength then
      init cfg env (increaseCW cfg { mac with nRetryCount := mac.nRetryCount + 1 })
    else init cfg env { mac with currentProcessingPacket := [], nRetryCount := 0 }
  else (mac, {})

/-- `fn_NetSim_IEEE802_11_RTS_CTS_CTSTimeOut`. -/
def ctsTimeOut (cfg : MacConfig) (env : Env) (mac : Mac) : Mac × Out :=
  let mac := { mac with currMacState := .macIdle, eventId := { mac.eventId with ctsTimeout := false } }
  if checkRetryLimit cfg mac 1 then
    init cfg env (increaseCW cfg { mac with nRetryCount := mac.nRetryCount + 1 })
  else
    init cfg env
      { mac with
        currentProcessingPacket := if mac.waitingforCTS ≠ [] then [] else mac.currentProcessingPacket
        waitingforCTS := []
        nRetryCount := 0 }

/-! ## The station -/

/-- The events that are dispatched to the MAC. -/
inductive Event
  /-- `MAC_OUT` with the packets that have arrived in the access buffer. -/
  | macOut (packets : List Packet)
  | cs
  | difsFailed
  | difsEnd (rand : Fin (netsimRandMax + 1))
  | backoff
  | backoffPaused
  /-- The PHY has ended a transmission. -/
  | txend
  | sendMpdu
  /-- A frame of data, an RTS, a CTS, an ACK or a block ack for this station. -/
  | macIn (m : Mpdu)
  | rts
  | cts
  | ack
  | blockAck (back : BlockAck)
  | ackTimeOut
  | ctsTimeOut
deriving DecidableEq, Repr

/-- What an event does. -/
def handle (cfg : MacConfig) (env : Env) (e : Event) (mac : Mac) : Mac × Out :=
  match e with
  | .macOut packets => macOut cfg env packets mac
  | .cs => (cs cfg env mac, {})
  | .difsFailed => (difsFailed mac, {})
  | .difsEnd rand => (difsEnd env rand mac, {})
  | .backoff => backoffEvent cfg env mac
  | .backoffPaused => (pauseBackoff mac, {})
  | .txend => (setMacStateAfterTxend mac, {})
  | .sendMpdu => sendToPhy cfg env.now { mac with eventId := { mac.eventId with sendMpdu := false } }
  | .macIn m => macIn cfg m mac
  | .rts => (processRTS mac, {})
  | .cts => (processCTS mac, {})
  | .ack => processAck cfg env mac
  | .blockAck back => processBlockAck cfg env back mac
  | .ackTimeOut => ackTimeOut cfg env mac
  | .ctsTimeOut => ctsTimeOut cfg env mac

/-- When an event can come. An event that the MAC has scheduled is pending, a transmission that ends has been going on,
a CTS, an ACK or a block ack answers what was sent, before the timer, and DIFS, AIFS or the back-off are interrupted only
while they last. -/
def Event.isPending (mac : Mac) : Event → Bool
  | .macOut packets => packets.all fun p => p.nControlDataType = .data
  | .difsFailed | .difsEnd _ => mac.eventId.difsEnd || mac.eventId.aifsEnd
  | .backoff | .backoffPaused => mac.eventId.backoff
  | .txend =>
    mac.currMacState ∈ [.txingMpdu, .txingBroadCast, .txingAck, .txingRts, .txingCts]
  | .sendMpdu => mac.eventId.sendMpdu
  | .cts | .ctsTimeOut => mac.eventId.ctsTimeout
  | .ack | .blockAck _ | .ackTimeOut => mac.eventId.ackTimeOut
  | .cs | .macIn _ | .rts => true

/-- A frame of data or an RTS comes when nothing that the MAC has scheduled is pending. -/
def Event.isTimely (mac : Mac) : Event → Bool
  | .macIn m => m.packet.isGroup || decide (mac.eventId = EventId.none)
  | .rts => decide (mac.eventId = EventId.none)
  | _ => true

/-- The frames in process: the ones that wait for a CTS, or the ones that are being sent. -/
def Mac.frames (mac : Mac) : List Packet :=
  if mac.waitingforCTS = [] then mac.currentProcessingPacket else mac.waitingforCTS

/-- A station in a run: its MAC, how often each frame has been handed to the PHY since it was last taken from the queue,
whether anything has been taken from the queue so far, and whether all of it has started with no retries and the least
window. -/
structure Station where
  mac : Mac
  sent : Packet → ℕ
  hasDequeued : Bool
  startsFresh : Bool

/-- The counts after an event. -/
def countSent (out : Out) (sent : Packet → ℕ) (p : Packet) : ℕ :=
  (if p ∈ out.dequeued then 0 else sent p) + if p ∈ out.physicalOut.map Mpdu.packet then 1 else 0

/-- A MAC at the start of the simulation. -/
def Mac.start : Mac := ⟨.macIdle, 0, 0, 0, 0, [], [], [], none, EventId.none⟩

/-- The runs of a station. -/
def stationMachine (cfg : MacConfig) : Machine Station (Event × Env) where
  init s := s = ⟨Mac.start, fun _ => 0, false, true⟩
  step s e :=
    if e.1.isPending s.mac then
      let r := handle cfg e.2 e.1 s.mac
      some
        { mac := r.1
          sent := countSent r.2 s.sent
          hasDequeued := s.hasDequeued || !r.2.dequeued.isEmpty
          startsFresh := s.startsFresh &&
            (r.2.dequeued.isEmpty || (r.1.nRetryCount == 0 && r.1.nCWcurrent == cfg.cwMin)) }
    else none

/-- What the configuration of a MAC is: limits of at least one attempt, and windows with room for
doubling. -/
structure MacConfig.Valid (cfg : MacConfig) : Prop where
  shortLimit : 1 ≤ cfg.dot11ShortRetryLimit
  longLimit : 1 ≤ cfg.dot11LongRetryLimit
  cwMin_le : cfg.cwMin ≤ cfg.cwMax
  cwMax_lt : cfg.cwMax < 2 ^ 31

/-- Among the packets that would be taken from the queue, none has a smaller retry limit than the first one. -/
def MacConfig.isAggregable (cfg : MacConfig) (now : ℚ) (qosList : List Packet) : Bool :=
  let list := (getFromQueue cfg now qosList).1
  list.all fun p => cfg.retryLimit (list.head?.elim 0 Packet.dPayload) ≤ cfg.retryLimit p.dPayload

/-- The condition on a step under which the retry limit is kept and frames start afresh: data and RTS do not come while
the MAC waits for an event of its own, the packets that are aggregated have the retry limit of the first one, a TXOP goes
on only after a first attempt, and a block ack leaves no frame that is to be sent again. -/
def isDisciplined (cfg : MacConfig) (s : Station) (e : Event × Env) : Bool :=
  e.1.isTimely s.mac &&
    match e.1 with
    | .macOut packets => cfg.isAggregable e.2.now (s.mac.qosList ++ packets)
    | .ackTimeOut | .ctsTimeOut => cfg.isAggregable e.2.now s.mac.qosList
    | .ack =>
      cfg.isAggregable e.2.now s.mac.qosList &&
        (!edcafIsTxopTimerSet cfg e.2.now s.mac || s.mac.nRetryCount == 0)
    | .blockAck back =>
      cfg.isAggregable e.2.now s.mac.qosList &&
        (!edcafIsTxopTimerSet cfg e.2.now s.mac || s.mac.nRetryCount == 0) &&
        ((List.range s.mac.currentProcessingPacket.length).all (bitIsSet64 back.bitMap) ||
          (edcafIsTxopTimerSet cfg e.2.now s.mac && !(getFromQueue cfg e.2.now s.mac.qosList).1.isEmpty))
    | _ => true

end NetSim.Wlan
