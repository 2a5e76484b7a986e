import NetSim.Spec.Csmaca

/-!
# What an 802.11 MAC waits for

While a station takes in a frame or an RTS only when no event of its own is pending, at most one event is pending, and it
goes with the state of the MAC and with the packets in process.

* `getFromQueue_mem`: what is taken from the queue was in it.
* `Phase.handle`: every event keeps the invariant.
-/

namespace NetSim.Wlan

/-! ## The queue -/

theorem getPacketFromQoslist_perm (recvId : ℕ) (list : List Packet) {r : Packet × List Packet}
    (h : getPacketFromQoslist recvId list = some r) : list.Perm (r.1 :: r.2) := by
  induction list generalizing r with
  | nil => simp [getPacketFromQoslist] at h
  | cons p list ih =>
    rw [getPacketFromQoslist] at h
    split at h
    · cases h
      exact List.Perm.refl _
    · obtain ⟨r', hr', rfl⟩ := Option.map_eq_some_iff.1 h
      have hperm := ih hr'
      exact (hperm.cons p).trans (List.Perm.swap r'.1 p r'.2)

theorem getPackets_mem (cfg : MacConfig) (now : ℚ) (fuel : ℕ) :
    ∀ (need : ℕ) (packets list : List Packet) (q : Packet),
      q ∈ (getPackets cfg now fuel need packets list).1 ∨ q ∈ (getPackets cfg now fuel need packets list).2 →
        q ∈ packets ∨ q ∈ list := by
  induction fuel with
  | zero => exact fun _ _ _ _ h => h
  | succ fuel ih =>
    intro need packets list q h
    cases need with
    | zero => exact h
    | succ need =>
      rw [getPackets] at h
      split at h
      · exact h
      · rename_i t list' hget
        have hperm := getPacketFromQoslist_perm _ _ hget
        have hmem : q ∈ list ↔ q = t ∨ q ∈ list' := by rw [hperm.mem_iff, List.mem_cons]
        rw [hmem]
        split at h
        · have := ih _ _ _ _ h
          tauto
        · have := ih _ _ _ _ h
          rw [List.mem_append, List.mem_singleton] at this
          tauto

/-- **What is taken from the queue, and what stays in it, was in it.** -/
theorem getFromQueue_mem {cfg : MacConfig} {now : ℚ} {list : List Packet} {q : Packet}
    (h : q ∈ (getFromQueue cfg now list).1 ∨ q ∈ (getFromQueue cfg now list).2) : q ∈ list := by
  have := getPackets_mem cfg now _ _ _ _ q h
  simpa using this

/-! ## The packets in process -/

/-- What holds of the packets of a MAC: an RTS stands for the frames that wait for the CTS. -/
structure Contents (mac : Mac) : Prop where
  queue : ∀ p ∈ mac.qosList, p.nControlDataType = .data
  current : mac.waitingforCTS = [] → ∀ p ∈ mac.currentProcessingPacket, p.nControlDataType = .data
  waiting : ∀ p ∈ mac.waitingforCTS, p.nControlDataType = .data
  single : ∀ p ∈ mac.waitingforCTS.head?, p.isGroup = false
  rts : mac.waitingforCTS ≠ [] →
    ∃ r, mac.currentProcessingPacket = [r] ∧ r.nControlDataType = .wlanRts ∧ r.isGroup = false

theorem Contents.waiting_eq_nil {mac : Mac} (h : Contents mac) (hcur : mac.currentProcessingPacket = []) :
    mac.waitingforCTS = [] := by
  by_contra hw
  obtain ⟨r, hr, -⟩ := h.rts hw
  rw [hcur] at hr
  exact List.cons_ne_nil _ _ hr.symm

theorem Contents.frames_data {mac : Mac} (h : Contents mac) {p : Packet} (hp : p ∈ mac.frames) :
    p.nControlDataType = .data := by
  rw [Mac.frames] at hp
  split at hp
  · rename_i hw
    exact h.current hw p hp
  · exact h.waiting p hp

theorem frames_of_waiting_eq_nil {mac : Mac} (h : mac.waitingforCTS = []) :
    mac.frames = mac.currentProcessingPacket := if_pos h

/-- The contents are those of the queue and of the two lists. -/
theorem Contents.congr {mac mac' : Mac} (h : Contents mac) (hq : mac'.qosList = mac.qosList)
    (hc : mac'.currentProcessingPacket = mac.currentProcessingPacket)
    (hw : mac'.waitingforCTS = mac.waitingforCTS) : Contents mac' := by
  constructor
  · rw [hq]; exact h.queue
  · rw [hc, hw]; exact h.current
  · rw [hw]; exact h.waiting
  · rw [hw]; exact h.single
  · rw [hc, hw]; exact h.rts

/-- With frames from the queue in process, or none. -/
theorem Contents.of_current {mac : Mac} (hq : ∀ p ∈ mac.qosList, p.nControlDataType = .data)
    (hw : mac.waitingforCTS = []) (hc : ∀ p ∈ mac.currentProcessingPacket, p.nControlDataType = .data) :
    Contents mac where
  queue := hq
  current _ := hc
  waiting := by simp [hw]
  single := by simp [hw]
  rts h := absurd hw h

theorem decideRtsCtsMechanism_iff {cfg : MacConfig} {mac : Mac} (h : decideRtsCtsMechanism cfg mac = true) :
    ∃ p list, mac.currentProcessingPacket = p :: list ∧ p.isGroup = false ∧ p.nControlDataType = .data := by
  rw [decideRtsCtsMechanism] at h
  split at h
  · exact absurd h Bool.false_ne_true
  · rename_i p list hcur
    simp only [Bool.and_eq_true, Bool.not_eq_true'] at h
    refine ⟨p, list, hcur, h.1.1, ?_⟩
    have hctrl := h.1.2
    cases htype : p.nControlDataType with
    | data => rfl
    | wlanRts => simp [Packet.isCtrlPacket, htype] at hctrl

/-- An RTS is a control packet, so a frame of data in process does not wait for a CTS. -/
theorem Contents.waiting_eq_nil_of_data {mac : Mac} (h : Contents mac) {p : Packet} {list : List Packet}
    (hcur : mac.currentProcessingPacket = p :: list) (hdata : p.nControlDataType = .data) :
    mac.waitingforCTS = [] := by
  by_contra hw
  obtain ⟨r, hr, hrts, -⟩ := h.rts hw
  rw [hcur] at hr
  cases hr
  rw [hdata] at hrts
  cases hrts

theorem Contents.rtsCtsInit {mac : Mac} (cfg : MacConfig) (h : Contents mac) : Contents (rtsCtsInit cfg mac) := by
  rw [Wlan.rtsCtsInit]
  split
  · rename_i hdecide
    obtain ⟨p, list, hcur, hgroup, hdata⟩ := decideRtsCtsMechanism_iff hdecide
    have hw := h.waiting_eq_nil_of_data hcur hdata
    constructor
    · exact h.queue
    · intro hnil
      rw [hcur] at hnil
      exact absurd hnil (List.cons_ne_nil _ _)
    · exact h.current hw
    · intro q hq
      rw [hcur] at hq
      cases hq
      exact hgroup
    · intro _
      refine ⟨createRTSPacket p, ?_, rfl, rfl⟩
      simp [hcur]
  · exact h

/-- The frames in process are the same before and after an RTS is made. -/
theorem frames_rtsCtsInit {mac : Mac} (cfg : MacConfig) (h : Contents mac) :
    (rtsCtsInit cfg mac).frames = mac.frames := by
  rw [rtsCtsInit]
  split
  · rename_i hdecide
    obtain ⟨p, list, hcur, -, hdata⟩ := decideRtsCtsMechanism_iff hdecide
    have hw := h.waiting_eq_nil_of_data hcur hdata
    rw [frames_of_waiting_eq_nil hw, Mac.frames]
    simp [hcur]
  · rfl

/-! ## What is pending -/

/-- At most one event of its own is pending, in the states of the MAC that go with it. -/
inductive Pending (mac : Mac) : Prop
  | nothing (he : mac.eventId = EventId.none)
  | difs (he : mac.eventId = { EventId.none with difsEnd := true } ∨
        mac.eventId = { EventId.none with aifsEnd := true })
      (hs : mac.currMacState = .waitDifs ∨ mac.currMacState = .waitAifs)
  | backoff (he : mac.eventId = { EventId.none with backoff := true }) (hs : mac.currMacState = .backingOff)
  | ack (he : mac.eventId = { EventId.none with ackTimeOut := true })
      (hs : mac.currMacState = .txingMpdu ∨ mac.currMacState = .waitAck) (hw : mac.waitingforCTS = [])
      (hc : ∃ p list, mac.currentProcessingPacket = p :: list ∧ p.isGroup = false)
  | cts (he : mac.eventId = { EventId.none with ctsTimeout := true })
      (hs : mac.currMacState = .txingRts ∨ mac.currMacState = .waitCts) (hw : mac.waitingforCTS ≠ [])
  | sendMpdu (he : mac.eventId = { EventId.none with sendMpdu := true })
      (hs : mac.currMacState = .txingMpdu ∨ mac.currMacState = .waitAck) (hw : mac.waitingforCTS = [])
      (hc : ∃ p list, mac.currentProcessingPacket = p :: list ∧ p.isGroup = false)

structure Phase (mac : Mac) : Prop where
  contents : Contents mac
  pending : Pending mac

/-- In the idle state nothing is pending. -/
theorem Pending.eventId_of_idle {mac : Mac} (h : Pending mac) (hs : mac.currMacState = .macIdle) :
    mac.eventId = EventId.none := by
  cases h with
  | nothing he => exact he
  | difs _ hs' => rw [hs] at hs'; simp at hs'
  | backoff _ hs' => rw [hs] at hs'; simp at hs'
  | ack _ hs' => rw [hs] at hs'; simp at hs'
  | cts _ hs' => rw [hs] at hs'; simp at hs'
  | sendMpdu _ hs' => rw [hs] at hs'; simp at hs'

theorem Pending.of_ackTimeOut {mac : Mac} (h : Pending mac) (hp : mac.eventId.ackTimeOut = true) :
    mac.eventId = { EventId.none with ackTimeOut := true } ∧
      (mac.currMacState = .txingMpdu ∨ mac.currMacState = .waitAck) ∧ mac.waitingforCTS = [] ∧
      ∃ p list, mac.currentProcessingPacket = p :: list ∧ p.isGroup = false := by
  cases h with
  | ack he hs hw hc => exact ⟨he, hs, hw, hc⟩
  | nothing he => rw [he] at hp; cases hp
  | difs he _ => obtain he | he := he <;> rw [he] at hp <;> cases hp
  | backoff he _ => rw [he] at hp; cases hp
  | cts he _ _ => rw [he] at hp; cases hp
  | sendMpdu he _ _ _ => rw [he] at hp; cases hp

theorem Pending.of_ctsTimeout {mac : Mac} (h : Pending mac) (hp : mac.eventId.ctsTimeout = true) :
    mac.eventId = { EventId.none with ctsTimeout := true } ∧ mac.waitingforCTS ≠ [] := by
  cases h with
  | cts he _ hw => exact ⟨he, hw⟩
  | nothing he => rw [he] at hp; cases hp
  | difs he _ => obtain he | he := he <;> rw [he] at hp <;> cases hp
  | backoff he _ => rw [he] at hp; cases hp
  | ack he _ _ _ => rw [he] at hp; cases hp
  | sendMpdu he _ _ _ => rw [he] at hp; cases hp

theorem Pending.of_sendMpdu {mac : Mac} (h : Pending mac) (hp : mac.eventId.sendMpdu = true) :
    mac.eventId = { EventId.none with sendMpdu := true } := by
  cases h with
  | sendMpdu he _ _ _ => exact he
  | nothing he => rw [he] at hp; cases hp
  | difs he _ => obtain he | he := he <;> rw [he] at hp <;> cases hp
  | backoff he _ => rw [he] at hp; cases hp
  | ack he _ _ _ => rw [he] at hp; cases hp
  | cts he _ _ => rw [he] at hp; cases hp

theorem Pending.of_backoff {mac : Mac} (h : Pending mac) (hp : mac.eventId.backoff = true) :
    mac.eventId = { EventId.none with backoff := true } ∧ mac.currMacState = .backingOff := by
  cases h with
  | backoff he hs => exact ⟨he, hs⟩
  | nothing he => rw [he] at hp; cases hp
  | difs he _ => obtain he | he := he <;> rw [he] at hp <;> cases hp
  | ack he _ _ _ => rw [he] at hp; cases hp
  | cts he _ _ => rw [he] at hp; cases hp
  | sendMpdu he _ _ _ => rw [he] at hp; cases hp

theorem Pending.of_difs {mac : Mac} (h : Pending mac) (hp : (mac.eventId.difsEnd || mac.eventId.aifsEnd) = true) :
    { mac.eventId with difsEnd := false, aifsEnd := false } = EventId.none ∧
      (mac.currMacState = .waitDifs ∨ mac.currMacState = .waitAifs) := by
  cases h with
  | difs he hs =>
    refine ⟨?_, hs⟩
    obtain he | he := he <;> rw [he] <;> rfl
  | nothing he => rw [he] at hp; cases hp
  | backoff he _ => rw [he] at hp; cases hp
  | ack he _ _ _ => rw [he] at hp; cases hp
  | cts he _ _ => rw [he] at hp; cases hp
  | sendMpdu he _ _ _ => rw [he] at hp; cases hp

/-! ## What the functions do -/

/-- The MAC after frames have been taken from the queue. -/
def Mac.dequeue (cfg : MacConfig) (now : ℚ) (mac : Mac) : Mac :=
  { mac with
    qosList := (getFromQueue cfg now mac.qosList).2
    currentProcessingPacket := (getFromQueue cfg now mac.qosList).1 }

theorem init_cases (cfg : MacConfig) (env : Env) (mac : Mac) :
    init cfg env mac = (mac, {}) ∨
    (mac.currMacState = .macIdle ∧ mac.currentProcessingPacket ≠ [] ∧
      init cfg env mac = (rtsCtsInit cfg mac, {})) ∨
    (mac.currMacState = .macIdle ∧ mac.currentProcessingPacket = [] ∧
      (getFromQueue cfg env.now mac.qosList).1 = [] ∧ init cfg env mac = (mac.dequeue cfg env.now, {})) ∨
    (mac.currMacState = .macIdle ∧ mac.currentProcessingPacket = [] ∧
      (getFromQueue cfg env.now mac.qosList).1 ≠ [] ∧
      init cfg env mac = (rtsCtsInit cfg { mac.dequeue cfg env.now with nCWcurrent := cfg.cwMin },
        { dequeued := (getFromQueue cfg env.now mac.qosList).1 })) := by
  by_cases hbusy : mac.currMacState ≠ .macIdle ∨ env.radioIdle = false
  · exact .inl (if_pos hbusy)
  · have hs : mac.currMacState = .macIdle := by
      by_contra hs
      exact hbusy (Or.inl hs)
    rw [init, if_neg hbusy]
    by_cases hnav : env.navClear = false
    · exact .inl (if_pos hnav)
    · rw [if_neg hnav]
      by_cases hcur : mac.currentProcessingPacket = []
      · rw [if_neg (not_not.2 hcur)]
        by_cases hget : (getFromQueue cfg env.now mac.qosList).1 = []
        · refine .inr (.inr (.inl ⟨hs, hcur, hget, ?_⟩))
          simp [hget, hcur, Mac.dequeue]
        · refine .inr (.inr (.inr ⟨hs, hcur, hget, ?_⟩))
          simp [hget, Mac.dequeue]
      · exact .inr (.inl ⟨hs, hcur, if_pos hcur⟩)

theorem sendToPhy_nil {cfg : MacConfig} {now : ℚ} {mac : Mac} (h : mac.currentProcessingPacket = []) :
    sendToPhy cfg now mac = (mac, {}) := by
  rw [sendToPhy, h]

/-- The MAC after the list that starts with `p` is handed to the PHY. -/
def Mac.transmit (cfg : MacConfig) (now : ℚ) (p : Packet) (mac : Mac) : Mac :=
  { edcafSetTxopTime cfg now (setMacStateForTx p mac) with
    eventId := addTimeOut p mac.eventId
    currentProcessingPacket := if p.isGroup then [] else mac.currentProcessingPacket }

theorem sendToPhy_cons {cfg : MacConfig} {now : ℚ} {mac : Mac} {p : Packet} {list : List Packet}
    (h : mac.currentProcessingPacket = p :: list) :
    sendToPhy cfg now mac = (mac.transmit cfg now p, { physicalOut := addMacHeaders cfg 1 (p :: list) }) := by
  rw [sendToPhy, h, Mac.transmit]
  cases hgroup : p.isGroup <;> simp [edcafSetTxopTime, setMacStateForTx, hgroup, h]

/-- The MAC when an acknowledgement has been processed: idle, with the ACK timer deleted. -/
def Mac.acknowledged (list : List Packet) (mac : Mac) : Mac :=
  { mac with
    currMacState := .macIdle
    currentProcessingPacket := list
    eventId := { mac.eventId with ackTimeOut := false } }

theorem continueTxop_cases (cfg : MacConfig) (env : Env) (list : List Packet) (mac : Mac) :
    (edcafIsTxopTimerSet cfg env.now mac = true ∧ (getFromQueue cfg env.now mac.qosList).1 = [] ∧
      continueTxop cfg env { mac with currentProcessingPacket := list } =
        (edcafUnsetTxopTime cfg { mac.acknowledged list with
          qosList := (getFromQueue cfg env.now mac.qosList).2 }, {})) ∨
    (edcafIsTxopTimerSet cfg env.now mac = true ∧ (getFromQueue cfg env.now mac.qosList).1 ≠ [] ∧
      continueTxop cfg env { mac with currentProcessingPacket := list } =
        ((sendToPhy cfg env.now ((mac.acknowledged list).dequeue cfg env.now)).1,
          { (sendToPhy cfg env.now ((mac.acknowledged list).dequeue cfg env.now)).2 with
            dequeued := (getFromQueue cfg env.now mac.qosList).1 })) ∨
    (edcafIsTxopTimerSet cfg env.now mac = false ∧
      continueTxop cfg env { mac with currentProcessingPacket := list } =
        macReInit cfg env (edcafUnsetTxopTime cfg (mac.acknowledged list))) := by
  have hset : edcafIsTxopTimerSet cfg env.now (mac.acknowledged list) = edcafIsTxopTimerSet cfg env.now mac := rfl
  cases htimer : edcafIsTxopTimerSet cfg env.now mac with
  | false =>
    refine .inr (.inr ⟨rfl, ?_⟩)
    rw [htimer] at hset
    rw [continueTxop]
    exact if_neg (by rw [Bool.not_eq_true]; exact hset)
  | true =>
    rw [htimer] at hset
    by_cases hget : (getFromQueue cfg env.now mac.qosList).1 = []
    · refine .inl ⟨rfl, hget, ?_⟩
      rw [continueTxop]
      refine (if_pos hset).trans ?_
      exact if_pos hget
    · refine .inr (.inl ⟨rfl, hget, ?_⟩)
      rw [continueTxop]
      refine (if_pos hset).trans ?_
      exact if_neg hget

/-- The MAC when a timer has run out: idle, with one more retry and a larger window. -/
def Mac.retried (cfg : MacConfig) (mac : Mac) : Mac :=
  increaseCW cfg
    { mac with
      currMacState := .macIdle
      nRetryCount := mac.nRetryCount + 1
      eventId := EventId.none }

/-- The MAC when the frames in process are given up. -/
def Mac.givenUp (mac : Mac) : Mac :=
  { mac with
    currMacState := .macIdle
    nRetryCount := 0
    currentProcessingPacket := []
    waitingforCTS := []
    eventId := EventId.none }

/-- The ACK timer runs out while the MAC waits for it. -/
theorem ackTimeOut_cases {mac : Mac} (cfg : MacConfig) (env : Env) {p : Packet} {list : List Packet}
    (he : mac.eventId = { EventId.none with ackTimeOut := true })
    (hs : mac.currMacState = .txingMpdu ∨ mac.currMacState = .waitAck) (hw : mac.waitingforCTS = [])
    (hc : mac.currentProcessingPacket = p :: list) :
    (checkRetryLimit cfg mac p.dPayload = true ∧
      ackTimeOut cfg env mac = init cfg env ((edcafUnsetTxopTime cfg mac).retried cfg)) ∨
    (checkRetryLimit cfg mac p.dPayload = false ∧
      ackTimeOut cfg env mac = init cfg env (edcafUnsetTxopTime cfg mac).givenUp) := by
  have he' : { mac.eventId with ackTimeOut := false } = EventId.none := by rw [he]; rfl
  have hlength : mac.currentProcessingPacket.head?.elim 0 Packet.dPayload = p.dPayload := by rw [hc]; rfl
  rw [Mac.retried, Mac.givenUp, ← he']
  have hrun : ackTimeOut cfg env mac =
      if checkRetryLimit cfg mac (mac.currentProcessingPacket.head?.elim 0 Packet.dPayload) = true then
        init cfg env (increaseCW cfg { edcafUnsetTxopTime cfg mac with
          currMacState := .macIdle
          nRetryCount := mac.nRetryCount + 1
          eventId := { mac.eventId with ackTimeOut := false } })
      else init cfg env { edcafUnsetTxopTime cfg mac with
          currMacState := .macIdle
          nRetryCount := 0
          currentProcessingPacket := []
          eventId := { mac.eventId with ackTimeOut := false } } := if_pos hs.symm
  rw [hlength] at hrun
  cases hcheck : checkRetryLimit cfg mac p.dPayload with
  | true =>
    rw [hcheck] at hrun
    exact .inl ⟨rfl, hrun⟩
  | false =>
    rw [hcheck] at hrun
    refine .inr ⟨rfl, hrun.trans ?_⟩
    rw [if_neg Bool.false_ne_true, edcafUnsetTxopTime]
    dsimp only
    rw [hw]

/-- The CTS timer runs out while frames wait for the CTS. -/
theorem ctsTimeOut_cases {mac : Mac} (cfg : MacConfig) (env : Env)
    (he : mac.eventId = { EventId.none with ctsTimeout := true }) (hw : mac.waitingforCTS ≠ []) :
    (checkRetryLimit cfg mac 1 = true ∧ ctsTimeOut cfg env mac = init cfg env (mac.retried cfg)) ∨
    (checkRetryLimit cfg mac 1 = false ∧ ctsTimeOut cfg env mac = init cfg env mac.givenUp) := by
  have he' : { mac.eventId with ctsTimeout := false } = EventId.none := by rw [he]; rfl
  rw [Mac.retried, Mac.givenUp, ← he']
  have hrun : ctsTimeOut cfg env mac =
      if checkRetryLimit cfg mac 1 = true then
        init cfg env (increaseCW cfg { mac with
          currMacState := .macIdle
          nRetryCount := mac.nRetryCount + 1
          eventId := { mac.eventId with ctsTimeout := false } })
      else init cfg env { mac with
          currMacState := .macIdle
          nRetryCount := 0
          currentProcessingPacket := if mac.waitingforCTS ≠ [] then [] else mac.currentProcessingPacket
          waitingforCTS := []
          eventId := { mac.eventId with ctsTimeout := false } } := rfl
  rw [if_pos hw] at hrun
  cases hcheck : checkRetryLimit cfg mac 1 with
  | true =>
    rw [hcheck] at hrun
    exact .inl ⟨rfl, hrun⟩
  | false =>
    rw [hcheck] at hrun
    exact .inr ⟨rfl, hrun⟩

/-! ## The events -/

theorem eventId_rtsCtsInit (cfg : MacConfig) (mac : Mac) : (rtsCtsInit cfg mac).eventId = mac.eventId := by
  rw [rtsCtsInit]
  split <;> rfl

theorem Contents.dequeue {mac : Mac} (cfg : MacConfig) (now : ℚ) (h : Contents mac) (hw : mac.waitingforCTS = []) :
    Contents (mac.dequeue cfg now) :=
  Contents.of_current (fun p hp => h.queue p (getFromQueue_mem (Or.inr hp))) hw
    fun p hp => h.queue p (getFromQueue_mem (Or.inl hp))

theorem Phase.init {mac : Mac} (cfg : MacConfig) (env : Env) (h : Phase mac) : Phase (init cfg env mac).1 := by
  obtain heq | ⟨hs, -, heq⟩ | ⟨hs, hcur, -, heq⟩ | ⟨hs, hcur, -, heq⟩ := init_cases cfg env mac
  · rw [heq]
    exact h
  · rw [heq]
    refine ⟨h.contents.rtsCtsInit cfg, .nothing ?_⟩
    rw [eventId_rtsCtsInit]
    exact h.pending.eventId_of_idle hs
  · rw [heq]
    have hw := h.contents.waiting_eq_nil hcur
    exact ⟨h.contents.dequeue cfg env.now hw, .nothing (h.pending.eventId_of_idle hs)⟩
  · rw [heq]
    have hw := h.contents.waiting_eq_nil hcur
    have hc : Contents { mac.dequeue cfg env.now with nCWcurrent := cfg.cwMin } :=
      (h.contents.dequeue cfg env.now hw).congr rfl rfl rfl
    refine ⟨hc.rtsCtsInit cfg, .nothing ?_⟩
    rw [eventId_rtsCtsInit]
    exact h.pending.eventId_of_idle hs

/-- `sendToPhy` when nothing is pending. -/
theorem Phase.sendToPhy {mac : Mac} (cfg : MacConfig) (now : ℚ) (h : Contents mac)
    (he : mac.eventId = EventId.none) : Phase (sendToPhy cfg now mac).1 := by
  cases hcur : mac.currentProcessingPacket with
  | nil =>
    rw [sendToPhy_nil hcur]
    exact ⟨h, .nothing he⟩
  | cons p list =>
    rw [sendToPhy_cons hcur]
    cases hgroup : p.isGroup with
    | true =>
      -- a broadcast is not kept, and no timer runs for it
      have hw : mac.waitingforCTS = [] := by
        by_contra hw
        obtain ⟨r, hr, -, hsingle⟩ := h.rts hw
        rw [hcur] at hr
        cases hr
        rw [hgroup] at hsingle
        cases hsingle
      have hdata := h.current hw p (by rw [hcur]; exact List.mem_cons_self)
      refine ⟨Contents.of_current h.queue hw ?_, .nothing ?_⟩
      · simp [Mac.transmit, hgroup]
      · simp [Mac.transmit, addTimeOut, hdata, hgroup, he]
    | false =>
      have hcontents : Contents (mac.transmit cfg now p) :=
        h.congr rfl (by simp [Mac.transmit, hgroup]) rfl
      refine ⟨hcontents, ?_⟩
      cases htype : p.nControlDataType with
      | data =>
        refine .ack ?_ (.inl ?_) (h.waiting_eq_nil_of_data hcur htype) ⟨p, list, ?_, hgroup⟩
        · simp [Mac.transmit, addTimeOut, htype, hgroup, he]
        · simp [Mac.transmit, edcafSetTxopTime, setMacStateForTx, htype, hgroup]
        · simp [Mac.transmit, hgroup, hcur]
      | wlanRts =>
        refine .cts ?_ (.inl ?_) ?_
        · simp [Mac.transmit, addTimeOut, htype, he]
        · simp [Mac.transmit, edcafSetTxopTime, setMacStateForTx, htype]
        · intro hw
          have hdata := h.current hw p (by rw [hcur]; exact List.mem_cons_self)
          rw [htype] at hdata
          cases hdata

/-- The processing of an acknowledgement leaves some of the frames. -/
theorem Phase.continueTxop {mac : Mac} (cfg : MacConfig) (env : Env) (h : Phase mac) {list : List Packet}
    (hp : mac.eventId.ackTimeOut = true) (hlist : ∀ p ∈ list, p ∈ mac.currentProcessingPacket) :
    Phase (continueTxop cfg env { mac with currentProcessingPacket := list }).1 := by
  obtain ⟨he, -, hw, -⟩ := h.pending.of_ackTimeOut hp
  have he' : (mac.acknowledged list).eventId = EventId.none := by simp [Mac.acknowledged, he, EventId.none]
  have hc : Contents (mac.acknowledged list) :=
    Contents.of_current h.contents.queue hw fun p hp => h.contents.current hw p (hlist p hp)
  obtain ⟨-, -, heq⟩ | ⟨-, -, heq⟩ | ⟨-, heq⟩ := continueTxop_cases cfg env list mac
  · rw [heq]
    exact ⟨Contents.of_current (fun p hp => hc.queue p (getFromQueue_mem (Or.inr hp))) hw (hc.current hw), .nothing he'⟩
  · rw [heq]
    exact Phase.sendToPhy cfg env.now (hc.dequeue cfg env.now hw) he'
  · rw [heq]
    exact Phase.init cfg env ⟨hc.congr rfl rfl rfl, .nothing he'⟩

theorem walkBitMap_subset (bitMap : BitVec 64) (list : List Packet) :
    ∀ (i : ℕ) (flag : Bool), ∀ p ∈ walkBitMap bitMap i flag list, p ∈ list := by
  induction list with
  | nil => exact fun _ _ _ h => h
  | cons q list ih =>
    intro i flag p hp
    rw [walkBitMap] at hp
    split at hp
    all_goals
      split at hp
      · exact List.mem_cons_of_mem q (ih _ _ p hp)
      · obtain rfl | hp := List.mem_cons.1 hp
        · exact List.mem_cons_self
        · exact List.mem_cons_of_mem q (ih _ _ p hp)

theorem Phase.retried {mac : Mac} (cfg : MacConfig) (h : Contents mac) : Phase (mac.retried cfg) :=
  ⟨h.congr rfl rfl rfl, .nothing rfl⟩

theorem Phase.givenUp {mac : Mac} (h : Contents mac) : Phase mac.givenUp :=
  ⟨Contents.of_current h.queue rfl fun _ hp => absurd hp List.not_mem_nil, .nothing rfl⟩

theorem Phase.ackTimeOut {mac : Mac} (cfg : MacConfig) (env : Env) (h : Phase mac)
    (hp : mac.eventId.ackTimeOut = true) : Phase (ackTimeOut cfg env mac).1 := by
  obtain ⟨he, hs, hw, p, list, hc, -⟩ := h.pending.of_ackTimeOut hp
  have hcontents : Contents (edcafUnsetTxopTime cfg mac) := h.contents.congr rfl rfl rfl
  obtain ⟨-, heq⟩ | ⟨-, heq⟩ := ackTimeOut_cases cfg env he hs hw hc
  · rw [heq]
    exact (Phase.retried cfg hcontents).init cfg env
  · rw [heq]
    exact (Phase.givenUp hcontents).init cfg env

theorem Phase.ctsTimeOut {mac : Mac} (cfg : MacConfig) (env : Env) (h : Phase mac)
    (hp : mac.eventId.ctsTimeout = true) : Phase (ctsTimeOut cfg env mac).1 := by
  obtain ⟨he, hw⟩ := h.pending.of_ctsTimeout hp
  obtain ⟨-, heq⟩ | ⟨-, heq⟩ := ctsTimeOut_cases cfg env he hw
  · rw [heq]
    exact (Phase.retried cfg h.contents).init cfg env
  · rw [heq]
    exact (Phase.givenUp h.contents).init cfg env

theorem Phase.processCTS {mac : Mac} (h : Phase mac) (hp : mac.eventId.ctsTimeout = true) :
    Phase (processCTS mac) := by
  obtain ⟨he, hw⟩ := h.pending.of_ctsTimeout hp
  obtain ⟨p, list, hwait⟩ := List.exists_cons_of_ne_nil hw
  refine ⟨Contents.of_current h.contents.queue rfl h.contents.waiting, ?_⟩
  refine .sendMpdu ?_ (.inl rfl) rfl ⟨p, list, hwait, h.contents.single p (by rw [hwait]; rfl)⟩
  simp [Wlan.processCTS, he, EventId.none]

/-- A slot of the back-off, in the state that goes with it. -/
theorem backoff_cases {mac : Mac} (env : Env) (hs : mac.currMacState = .backingOff) :
    (∃ n, backoff env mac = ({ mac with
      currMacState := .macIdle, nBackOffCounter := n, eventId := { mac.eventId with backoff := false } }, false)) ∨
    (∃ n, backoff env mac = ({ mac with nBackOffCounter := n }, false)) ∨
    backoff env mac = ({ mac with nBackOffCounter := 0, eventId := { mac.eventId with backoff := false } }, true) := by
  rw [backoff, Mac.backoffFailed]
  dsimp only
  rw [if_pos hs]
  split
  · exact .inl ⟨_, rfl⟩
  · split
    · split
      · exact .inr (.inl ⟨_, rfl⟩)
      · exact .inr (.inr rfl)
    · split
      · exact .inl ⟨_, rfl⟩
      · exact .inr (.inl ⟨mac.nBackOffCounter, rfl⟩)

theorem Phase.backoffEvent {mac : Mac} (cfg : MacConfig) (env : Env) (h : Phase mac)
    (hp : mac.eventId.backoff = true) : Phase (backoffEvent cfg env mac).1 := by
  obtain ⟨he, hs⟩ := h.pending.of_backoff hp
  have he' : { mac.eventId with backoff := false } = EventId.none := by rw [he]; rfl
  rw [Wlan.backoffEvent]
  obtain ⟨n, heq⟩ | ⟨n, heq⟩ | heq := backoff_cases env hs
  · rw [heq]
    exact ⟨h.contents.congr rfl rfl rfl, .nothing he'⟩
  · rw [heq]
    exact ⟨h.contents.congr rfl rfl rfl, .backoff he hs⟩
  · rw [heq]
    exact Phase.sendToPhy cfg env.now (h.contents.congr rfl rfl rfl) he'

theorem Phase.txend {mac : Mac} (h : Phase mac) (hp : Event.txend.isPending mac = true) :
    Phase (setMacStateAfterTxend mac) := by
  have hs : mac.currMacState ∈ [MacState.txingMpdu, .txingBroadCast, .txingAck, .txingRts, .txingCts] := of_decide_eq_true hp
  refine ⟨h.contents.congr rfl rfl rfl, ?_⟩
  cases h.pending with
  | nothing he => exact .nothing he
  | difs _ hs' => obtain hs' | hs' := hs' <;> simp [hs'] at hs
  | backoff _ hs' => simp [hs'] at hs
  | ack he hs' hw hc =>
    obtain hs' | hs' := hs'
    · exact .ack he (.inr (by simp [setMacStateAfterTxend, hs'])) hw hc
    · simp [hs'] at hs
  | cts he hs' hw =>
    obtain hs' | hs' := hs'
    · exact .cts he (.inr (by simp [setMacStateAfterTxend, hs'])) hw
    · simp [hs'] at hs
  | sendMpdu he hs' hw hc =>
    obtain hs' | hs' := hs'
    · exact .sendMpdu he (.inr (by simp [setMacStateAfterTxend, hs'])) hw hc
    · simp [hs'] at hs

theorem Phase.cs {mac : Mac} (cfg : MacConfig) (env : Env) (h : Phase mac) : Phase (cs cfg env mac) := by
  rw [Wlan.cs]
  split
  · rename_i hidle
    have he := h.pending.eventId_of_idle hidle.1
    split
    · exact ⟨h.contents.congr rfl rfl rfl, .difs (.inl (by rw [he])) (.inl rfl)⟩
    · exact ⟨h.contents.congr rfl rfl rfl, .difs (.inr (by rw [he])) (.inr rfl)⟩
  · exact h

theorem Phase.difsEnd {mac : Mac} (env : Env) (rand : Fin (netsimRandMax + 1)) (h : Phase mac)
    (hp : (mac.eventId.difsEnd || mac.eventId.aifsEnd) = true) : Phase (difsEnd env rand mac) := by
  obtain ⟨he, hs⟩ := h.pending.of_difs hp
  rw [Wlan.difsEnd]
  by_cases hidle : env.mediumIdle = true
  · rw [if_pos hidle]
    refine ⟨h.contents.congr rfl rfl rfl, .backoff ?_ rfl⟩
    rw [startBackOff, ← he]
  · rw [if_neg hidle, if_pos hs]
    exact ⟨h.contents.congr rfl rfl rfl, .nothing he⟩

theorem Phase.macIn {mac : Mac} (cfg : MacConfig) (m : Mpdu) (h : Phase mac)
    (ht : (Event.macIn m).isTimely mac = true) : Phase (macIn cfg m mac).1 := by
  rw [Wlan.macIn]
  split
  · exact h
  · rename_i hgroup
    have he : mac.eventId = EventId.none := by simpa [Event.isTimely, hgroup] using ht
    dsimp only
    split
    · rw [sendBlockACK]
      split
      · exact ⟨h.contents.congr rfl rfl rfl, .nothing he⟩
      · exact ⟨h.contents.congr rfl rfl rfl, .nothing he⟩
    · exact ⟨h.contents.congr rfl rfl rfl, .nothing he⟩

theorem Phase.enqueue {mac : Mac} (packets : List Packet) (h : Phase mac)
    (hp : (Event.macOut packets).isPending mac = true) : Phase { mac with qosList := mac.qosList ++ packets } := by
  have hdata : ∀ p ∈ packets, p.nControlDataType = .data := by simpa [Event.isPending] using hp
  have hc : Contents { mac with qosList := mac.qosList ++ packets } := by
    constructor
    · intro p hp
      obtain hp | hp := List.mem_append.1 hp
      · exact h.contents.queue p hp
      · exact hdata p hp
    · exact h.contents.current
    · exact h.contents.waiting
    · exact h.contents.single
    · exact h.contents.rts
  refine ⟨hc, ?_⟩
  cases h.pending with
  | nothing he => exact .nothing he
  | difs he hs => exact .difs he hs
  | backoff he hs => exact .backoff he hs
  | ack he hs hw hc => exact .ack he hs hw hc
  | cts he hs hw => exact .cts he hs hw
  | sendMpdu he hs hw hc => exact .sendMpdu he hs hw hc

/-- **Every event keeps the invariant.** -/
theorem Phase.handle {mac : Mac} (cfg : MacConfig) (env : Env) (e : Event) (h : Phase mac)
    (hp : e.isPending mac = true) (ht : e.isTimely mac = true) : Phase (handle cfg env e mac).1 := by
  cases e with
  | macOut packets => exact (h.enqueue packets hp).init cfg env
  | cs => exact h.cs cfg env
  | difsFailed =>
    have he := (h.pending.of_difs hp).1
    exact ⟨h.contents.congr rfl rfl rfl, .nothing he⟩
  | difsEnd rand => exact h.difsEnd env rand hp
  | backoff => exact h.backoffEvent cfg env hp
  | backoffPaused =>
    have he : { mac.eventId with backoff := false } = EventId.none := by rw [(h.pending.of_backoff hp).1]; rfl
    exact ⟨h.contents.congr rfl rfl rfl, .nothing he⟩
  | txend => exact h.txend hp
  | sendMpdu =>
    have he : { mac.eventId with sendMpdu := false } = EventId.none := by rw [h.pending.of_sendMpdu hp]; rfl
    exact Phase.sendToPhy cfg env.now (h.contents.congr rfl rfl rfl) he
  | macIn m => exact h.macIn cfg m ht
  | rts =>
    have he : mac.eventId = EventId.none := of_decide_eq_true ht
    exact ⟨h.contents.congr rfl rfl rfl, .nothing he⟩
  | cts => exact h.processCTS hp
  | ack => exact h.continueTxop cfg env hp (by simp)
  | blockAck back => exact h.continueTxop cfg env hp (walkBitMap_subset _ _ _ _)
  | ackTimeOut => exact h.ackTimeOut cfg env hp
  | ctsTimeOut => exact h.ctsTimeOut cfg env hp

theorem Phase.start : Phase Mac.start :=
  ⟨Contents.of_current (by simp [Mac.start]) rfl (by simp [Mac.start]), .nothing rfl⟩

end NetSim.Wlan
