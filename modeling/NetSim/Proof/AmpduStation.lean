import NetSim.Proof.RetryLimit
import NetSim.Spec.BlockAck

/-!
# Block acks and A-MPDUs
-/

/-!
## The bitmap of a block ack

* `getLsbD_bitsOf`: the bits that a receiver has set are those of the frames that it has received.
* `walkBitMap_eq_clearFrames`: if the first bit is set, the sender keeps the frames whose bit is clear, in their order.
* `getFromQueue_isAmpdu`: what is taken from the queue goes to one receiver.
-/

namespace NetSim.Wlan

/-! ## Bits -/

theorem shiftLeft_one_eq_twoPow (i : ℕ) : 1#64 <<< i = BitVec.twoPow 64 i := (BitVec.twoPow_eq 64 i).symm

theorem bitIsSet64_eq_getLsbD (val : BitVec 64) {i : ℕ} (hi : i < 64) : bitIsSet64 val i = val.getLsbD i := by
  rw [bitIsSet64, shiftLeft_one_eq_twoPow, BitVec.and_twoPow]
  cases val.getLsbD i with
  | true =>
    rw [if_pos rfl, decide_eq_true_eq]
    intro hzero
    have hbit : (BitVec.twoPow 64 i).getLsbD i = true := by simp [hi]
    rw [hzero, BitVec.getLsbD_zero] at hbit
    cases hbit
  | false => simp

theorem getLsbD_setBit64 (val : BitVec 64) {i j : ℕ} (hj : j < 64) :
    (setBit64 val i).getLsbD j = (val.getLsbD j || decide (i = j)) := by
  rw [setBit64, shiftLeft_one_eq_twoPow, BitVec.getLsbD_or, BitVec.getLsbD_twoPow]
  by_cases hij : i = j
  · simp [hij, hj]
  · simp [hij]

/-- The bitmap of the frames with these indices. -/
def bitsOf (received : List ℕ) : BitVec 64 := received.foldr (fun i bits => setBit64 bits i) 0#64

theorem getLsbD_bitsOf (received : List ℕ) {j : ℕ} (hj : j < 64) :
    (bitsOf received).getLsbD j = received.contains j := by
  induction received with
  | nil => simp [bitsOf]
  | cons i received ih =>
    have hcons : bitsOf (i :: received) = setBit64 (bitsOf received) i := rfl
    rw [hcons, getLsbD_setBit64 _ hj, ih, List.contains_cons, Bool.or_comm]
    congr 1
    rw [Bool.beq_comm]
    rfl

theorem isExact_bitsOf (d : ℕ) (received : List ℕ) : BlockAck.isExact d received ⟨d, bitsOf received⟩ = true := by
  rw [BlockAck.isExact, beq_self_eq_true, Bool.true_and, List.all_eq_true]
  intro i hi
  rw [getLsbD_bitsOf received (List.mem_range.1 hi), beq_self_eq_true]

/-! ## The frames that are left -/

/-- The frames whose bit is clear, the index of the first one being `i`. -/
def clearFrom (bitMap : BitVec 64) (i : ℕ) (list : List Packet) : List Packet :=
  ((list.zipIdx i).filter fun q => !bitMap.getLsbD q.2).map Prod.fst

theorem clearFrom_cons (bitMap : BitVec 64) (i : ℕ) (p : Packet) (list : List Packet) :
    clearFrom bitMap i (p :: list) =
      if bitMap.getLsbD i then clearFrom bitMap (i + 1) list else p :: clearFrom bitMap (i + 1) list := by
  rw [clearFrom, List.zipIdx_cons, List.filter_cons]
  cases bitMap.getLsbD i <;> rfl

/-- Behind the second index the walk does not start again. -/
theorem walkBitMap_of_two_le (bitMap : BitVec 64) (list : List Packet) :
    ∀ (i : ℕ) (flag : Bool), 2 ≤ i → i + list.length ≤ 64 → walkBitMap bitMap i flag list = clearFrom bitMap i list := by
  induction list with
  | nil => exact fun _ _ _ _ => rfl
  | cons p list ih =>
    intro i flag hi hlen
    rw [List.length_cons] at hlen
    have hkeep : ¬(flag = false ∧ i = 1) := fun h => by omega
    rw [walkBitMap, if_neg hkeep, clearFrom_cons, bitIsSet64_eq_getLsbD _ (by omega),
      ih (i + 1) flag (by omega) (by omega), ih (i + 1) false (by omega) (by omega)]

/-- **A sender keeps exactly the frames whose bit is clear**, if the first bit is set. -/
theorem walkBitMap_eq_clearFrames {bitMap : BitVec 64} (hbit : bitIsSet64 bitMap 0 = true) {list : List Packet}
    (hlen : list.length ≤ 64) : walkBitMap bitMap 0 true list = clearFrames bitMap list := by
  have hclear : clearFrames bitMap list = clearFrom bitMap 0 list := rfl
  rw [hclear]
  cases list with
  | nil => rfl
  | cons p list =>
    rw [walkBitMap_cons_true, if_pos hbit, clearFrom_cons]
    rw [bitIsSet64_eq_getLsbD _ (by omega)] at hbit
    rw [if_pos hbit]
    cases list with
    | nil => rfl
    | cons q list =>
      simp only [List.length_cons] at hlen
      rw [walkBitMap_cons_true, clearFrom_cons, bitIsSet64_eq_getLsbD _ (by omega),
        walkBitMap_of_two_le _ _ _ _ (le_refl 2) (by omega), walkBitMap_of_two_le _ _ _ _ (le_refl 2) (by omega)]

theorem clearFrom_sublist (bitMap : BitVec 64) (list : List Packet) (i : ℕ) :
    (clearFrom bitMap i list).Sublist list := by
  have hsub := (List.filter_sublist (p := fun q : Packet × ℕ => !bitMap.getLsbD q.2) (l := list.zipIdx i)).map Prod.fst
  rwa [List.zipIdx_map_fst] at hsub

/-! ## One receiver -/

/-- For one receiver each. -/
def Packet.IsSingle (p : Packet) : Prop := p.isGroup = false ∧ p.nReceiverId ≠ 0

/-- A list of at most 64 packets that all go to the same receiver. -/
structure IsAmpdu (list : List Packet) : Prop where
  length_le : list.length ≤ 64
  single : ∀ p ∈ list, p.IsSingle
  receiver : ∀ p ∈ list, ∀ q ∈ list, p.nReceiverId = q.nReceiverId

theorem IsAmpdu.sublist {list list' : List Packet} (h : IsAmpdu list) (hs : list'.Sublist list) : IsAmpdu list' where
  length_le := hs.length_le.trans h.length_le
  single p hp := h.single p (hs.subset hp)
  receiver p hp q hq := h.receiver p (hs.subset hp) q (hs.subset hq)

theorem getPacketFromQoslist_receiver {recvId : ℕ} (hid : recvId ≠ 0) (list : List Packet) {r : Packet × List Packet}
    (h : getPacketFromQoslist recvId list = some r) : r.1.nReceiverId = recvId := by
  induction list generalizing r with
  | nil => simp [getPacketFromQoslist] at h
  | cons p list ih =>
    rw [getPacketFromQoslist] at h
    split at h
    · rename_i hor
      cases h
      exact hor.resolve_left hid
    · obtain ⟨r', hr', rfl⟩ := Option.map_eq_some_iff.1 h
      have hrecv := ih hr'
      exact hrecv

/-- The packets have the receiver of the first one. -/
theorem getPackets_isAmpdu (cfg : MacConfig) (now : ℚ) (fuel : ℕ) :
    ∀ (need : ℕ) (packets list : List Packet), packets.length + need ≤ 64 → IsAmpdu packets →
      (∀ p ∈ list, p.IsSingle) → IsAmpdu (getPackets cfg now fuel need packets list).1 := by
  induction fuel with
  | zero => exact fun _ _ _ _ h _ => h
  | succ fuel ih =>
    intro need packets list hlen h hlist
    cases need with
    | zero => exact h
    | succ need =>
      rw [getPackets]
      split
      · exact h
      · rename_i t list' hget
        have hperm := getPacketFromQoslist_perm _ _ hget
        have ht : t.IsSingle := hlist t (hperm.mem_iff.2 List.mem_cons_self)
        have hlist' : ∀ p ∈ list', p.IsSingle := fun p hp => hlist p (hperm.mem_iff.2 (List.mem_cons_of_mem t hp))
        split
        · exact ih _ _ _ hlen h hlist'
        · refine ih _ _ _ (by rw [List.length_append, List.length_singleton]; omega) ?_ hlist'
          have hrecv : ∀ p ∈ packets, p.nReceiverId = t.nReceiverId := by
            intro p hp
            cases packets with
            | nil => cases hp
            | cons f packets =>
              have hf : f.nReceiverId ≠ 0 := (h.single f List.mem_cons_self).2
              have htf : t.nReceiverId = f.nReceiverId := getPacketFromQoslist_receiver hf _ hget
              rw [htf]
              exact h.receiver p hp f List.mem_cons_self
          constructor
          · rw [List.length_append, List.length_singleton]
            omega
          · intro p hp
            obtain hp | hp := List.mem_append.1 hp
            · exact h.single p hp
            · rw [List.mem_singleton.1 hp]
              exact ht
          · intro p hp q hq
            obtain hp | hp := List.mem_append.1 hp <;> obtain hq | hq := List.mem_append.1 hq
            · exact h.receiver p hp q hq
            · rw [List.mem_singleton.1 hq]
              exact hrecv p hp
            · rw [List.mem_singleton.1 hp]
              exact (hrecv q hq).symm
            · rw [List.mem_singleton.1 hp, List.mem_singleton.1 hq]

theorem getFromQueue_isAmpdu {cfg : MacConfig} (now : ℚ) (hcfg : cfg.nNumberOfAggregatedPackets ≤ 64) {list : List Packet}
    (h : ∀ p ∈ list, p.IsSingle) : IsAmpdu (getFromQueue cfg now list).1 := by
  refine getPackets_isAmpdu cfg now _ _ _ _ (by simpa using hcfg) ⟨by simp, by simp, by simp⟩ h

end NetSim.Wlan

/-!
## A station that exchanges A-MPDUs

* `Traffic.handle`: the frames in process of a station all go to one receiver.
* `handsOver_handle`: what is given to the PHY is what the station then waits an acknowledgement for.
* `handle_of_ackTimeOut`: while it waits, only the acknowledgement and the timer change that.
* `blockAckPacket_handle`: the record of a receiver changes only with a frame of data.
-/

namespace NetSim.Wlan

variable {cfg : MacConfig} {env : Env} {mac : Mac}

/-! ## One receiver -/

/-- The queue holds packets for one receiver each, and the frames in process all go to the same one. -/
structure Traffic (mac : Mac) : Prop where
  queue : ∀ p ∈ mac.qosList, p.IsSingle
  frames : IsAmpdu mac.frames

theorem Traffic.of_sublist {mac' : Mac} (h : Traffic mac) (hq : ∀ p ∈ mac'.qosList, p ∈ mac.qosList)
    (hf : mac'.frames.Sublist mac.frames) : Traffic mac' :=
  ⟨fun p hp => h.queue p (hq p hp), h.frames.sublist hf⟩

theorem qosList_rtsCtsInit : (rtsCtsInit cfg mac).qosList = mac.qosList := by
  rw [rtsCtsInit]
  split <;> rfl

theorem isAmpdu_nil : IsAmpdu [] :=
  ⟨Nat.zero_le _, fun _ hp => absurd hp List.not_mem_nil, fun _ hp => absurd hp List.not_mem_nil⟩

theorem Traffic.init (hcfg : cfg.nNumberOfAggregatedPackets ≤ 64) (h : Traffic mac) (hc : Contents mac) :
    Traffic (init cfg env mac).1 := by
  have hqueue : ∀ p ∈ (getFromQueue cfg env.now mac.qosList).2, p.IsSingle :=
    fun p hp => h.queue p (getFromQueue_mem (Or.inr hp))
  obtain heq | ⟨-, -, heq⟩ | ⟨-, hcur, hget, heq⟩ | ⟨-, hcur, -, heq⟩ := init_cases cfg env mac
  · rw [heq]
    exact h
  · rw [heq]
    constructor
    · rw [qosList_rtsCtsInit]
      exact h.queue
    · rw [frames_rtsCtsInit cfg hc]
      exact h.frames
  · rw [heq]
    have hw : (mac.dequeue cfg env.now).waitingforCTS = [] := hc.waiting_eq_nil hcur
    refine ⟨hqueue, ?_⟩
    have hnil : (mac.dequeue cfg env.now).frames = [] := (frames_of_waiting_eq_nil hw).trans hget
    rw [hnil]
    exact isAmpdu_nil
  · rw [heq]
    have hw := hc.waiting_eq_nil hcur
    have hcontents : Contents { mac.dequeue cfg env.now with nCWcurrent := cfg.cwMin } :=
      (hc.dequeue cfg env.now hw).congr rfl rfl rfl
    have hframes : ({ mac.dequeue cfg env.now with nCWcurrent := cfg.cwMin } : Mac).frames =
        (getFromQueue cfg env.now mac.qosList).1 := if_pos hw
    constructor
    · rw [qosList_rtsCtsInit]
      exact hqueue
    · rw [frames_rtsCtsInit cfg hcontents, hframes]
      exact getFromQueue_isAmpdu env.now hcfg h.queue

theorem Traffic.sendToPhy {now : ℚ} (h : Traffic mac) : Traffic (sendToPhy cfg now mac).1 := by
  cases hcur : mac.currentProcessingPacket with
  | nil =>
    rw [sendToPhy_nil hcur]
    exact h
  | cons p list =>
    rw [sendToPhy_cons hcur]
    refine h.of_sublist (fun _ hp => hp) ?_
    have hcurrent : (mac.transmit cfg now p).currentProcessingPacket.Sublist mac.currentProcessingPacket := by
      rw [Mac.transmit]
      dsimp only
      split
      · exact List.nil_sublist _
      · exact List.Sublist.refl _
    have hwait : (mac.transmit cfg now p).waitingforCTS = mac.waitingforCTS := rfl
    rw [Mac.frames, Mac.frames, hwait]
    split
    · exact hcurrent
    · exact List.Sublist.refl _

theorem Traffic.continueTxop (hcfg : cfg.nNumberOfAggregatedPackets ≤ 64) (h : Traffic mac) (hph : Phase mac)
    (hp : mac.eventId.ackTimeOut = true) {list : List Packet} (hlist : list.Sublist mac.currentProcessingPacket) :
    Traffic (continueTxop cfg env { mac with currentProcessingPacket := list }).1 := by
  obtain ⟨-, -, hw, -⟩ := hph.pending.of_ackTimeOut hp
  have hframes : mac.frames = mac.currentProcessingPacket := frames_of_waiting_eq_nil hw
  have hsub : list.Sublist mac.frames := by
    rw [hframes]
    exact hlist
  have hqueue : ∀ p ∈ (getFromQueue cfg env.now mac.qosList).2, p ∈ mac.qosList :=
    fun p hp => getFromQueue_mem (Or.inr hp)
  obtain ⟨-, -, heq⟩ | ⟨-, -, heq⟩ | ⟨-, heq⟩ := continueTxop_cases cfg env list mac
  · rw [heq]
    have hframes' : (edcafUnsetTxopTime cfg { mac.acknowledged list with
        qosList := (getFromQueue cfg env.now mac.qosList).2 }).frames = list := if_pos hw
    exact h.of_sublist hqueue (by rw [hframes']; exact hsub)
  · rw [heq]
    have hframes' : ((mac.acknowledged list).dequeue cfg env.now).frames =
        (getFromQueue cfg env.now mac.qosList).1 := if_pos hw
    have htraffic : Traffic ((mac.acknowledged list).dequeue cfg env.now) :=
      ⟨fun p hp => h.queue p (hqueue p hp), by rw [hframes']; exact getFromQueue_isAmpdu env.now hcfg h.queue⟩
    exact htraffic.sendToPhy
  · rw [heq]
    have hframes' : ({ edcafUnsetTxopTime cfg (mac.acknowledged list) with nRetryCount := 0 } : Mac).frames = list :=
      if_pos hw
    have htraffic : Traffic { edcafUnsetTxopTime cfg (mac.acknowledged list) with nRetryCount := 0 } :=
      h.of_sublist (fun _ hp => hp) (by rw [hframes']; exact hsub)
    refine htraffic.init hcfg (Contents.of_current hph.contents.queue hw ?_)
    exact fun p hp => hph.contents.current hw p (hlist.subset hp)

theorem walkBitMap_sublist (bitMap : BitVec 64) (list : List Packet) :
    ∀ (i : ℕ) (flag : Bool), (walkBitMap bitMap i flag list).Sublist list := by
  induction list with
  | nil => exact fun _ _ => List.Sublist.refl _
  | cons q list ih =>
    intro i flag
    rw [walkBitMap]
    split
    all_goals
      split
      · exact (ih _ _).cons q
      · exact (ih _ _).cons_cons q

theorem Traffic.handle (hcfg : cfg.nNumberOfAggregatedPackets ≤ 64) (h : Traffic mac) (hph : Phase mac) (e : Event)
    (hp : e.isPending mac = true)
    (harr : ∀ packets, e = .macOut packets → ∀ p ∈ packets, p.IsSingle) : Traffic (handle cfg env e mac).1 := by
  cases e with
  | macOut packets =>
    have htraffic : Traffic { mac with qosList := mac.qosList ++ packets } := by
      refine ⟨fun p hp => ?_, h.frames⟩
      obtain hp | hp := List.mem_append.1 hp
      · exact h.queue p hp
      · exact harr packets rfl p hp
    exact htraffic.init hcfg (hph.enqueue packets hp).contents
  | cs =>
    rw [Wlan.handle, cs]
    split
    · split <;> exact h.of_sublist (fun _ hp => hp) (List.Sublist.refl _)
    · exact h
  | difsEnd rand =>
    rw [Wlan.handle, difsEnd]
    split
    · exact h.of_sublist (fun _ hp => hp) (List.Sublist.refl _)
    · split <;> exact h.of_sublist (fun _ hp => hp) (List.Sublist.refl _)
  | backoff =>
    obtain ⟨-, hs⟩ := hph.pending.of_backoff hp
    rw [Wlan.handle, backoffEvent]
    obtain ⟨n, heq⟩ | ⟨n, heq⟩ | heq := backoff_cases env hs
    · rw [heq]
      exact h.of_sublist (fun _ hp => hp) (List.Sublist.refl _)
    · rw [heq]
      exact h.of_sublist (fun _ hp => hp) (List.Sublist.refl _)
    · rw [heq]
      have htraffic : Traffic { mac with nBackOffCounter := 0, eventId := { mac.eventId with backoff := false } } :=
        h.of_sublist (fun _ hp => hp) (List.Sublist.refl _)
      exact htraffic.sendToPhy
  | sendMpdu =>
    have htraffic : Traffic { mac with eventId := { mac.eventId with sendMpdu := false } } :=
      h.of_sublist (fun _ hp => hp) (List.Sublist.refl _)
    exact htraffic.sendToPhy
  | macIn m =>
    rw [Wlan.handle, macIn]
    split
    · exact h
    · dsimp only
      split
      · rw [sendBlockACK]
        split <;> exact h.of_sublist (fun _ hp => hp) (List.Sublist.refl _)
      · exact h.of_sublist (fun _ hp => hp) (List.Sublist.refl _)
  | cts =>
    obtain ⟨-, hw⟩ := hph.pending.of_ctsTimeout hp
    have hframes : (processCTS mac).frames = mac.frames := by
      rw [Mac.frames, Mac.frames, if_neg hw]
      rfl
    exact h.of_sublist (fun _ hp => hp) (by rw [Wlan.handle, hframes])
  | ack => exact h.continueTxop hcfg hph hp (List.nil_sublist _)
  | blockAck back => exact h.continueTxop hcfg hph hp (walkBitMap_sublist _ _ _ _)
  | ackTimeOut =>
    obtain ⟨he, hs, hw, p, list, hc, -⟩ := hph.pending.of_ackTimeOut hp
    have hcontents : Contents (edcafUnsetTxopTime cfg mac) := hph.contents.congr rfl rfl rfl
    rw [Wlan.handle]
    obtain ⟨-, heq⟩ | ⟨-, heq⟩ := ackTimeOut_cases cfg env he hs hw hc
    · rw [heq]
      have htraffic : Traffic ((edcafUnsetTxopTime cfg mac).retried cfg) :=
        h.of_sublist (fun _ hp => hp) (List.Sublist.refl _)
      exact htraffic.init hcfg (Phase.retried cfg hcontents).contents
    · rw [heq]
      have htraffic : Traffic (edcafUnsetTxopTime cfg mac).givenUp :=
        h.of_sublist (fun _ hp => hp) (List.nil_sublist _)
      exact htraffic.init hcfg (Phase.givenUp hcontents).contents
  | ctsTimeOut =>
    obtain ⟨he, hw⟩ := hph.pending.of_ctsTimeout hp
    rw [Wlan.handle]
    obtain ⟨-, heq⟩ | ⟨-, heq⟩ := ctsTimeOut_cases cfg env he hw
    · rw [heq]
      have htraffic : Traffic (mac.retried cfg) := h.of_sublist (fun _ hp => hp) (List.Sublist.refl _)
      exact htraffic.init hcfg (Phase.retried cfg hph.contents).contents
    · rw [heq]
      have htraffic : Traffic mac.givenUp := h.of_sublist (fun _ hp => hp) (List.nil_sublist _)
      exact htraffic.init hcfg (Phase.givenUp hph.contents).contents
  | difsFailed => exact h.of_sublist (fun _ hp => hp) (List.Sublist.refl _)
  | backoffPaused => exact h.of_sublist (fun _ hp => hp) (List.Sublist.refl _)
  | txend => exact h.of_sublist (fun _ hp => hp) (List.Sublist.refl _)
  | rts => exact h.of_sublist (fun _ hp => hp) (List.Sublist.refl _)

/-! ## What is handed over -/

/-- The frames that are given to the PHY are in process afterwards, with the ACK timer running. -/
def HandsOver (cfg : MacConfig) (r : Mac × Out) : Prop :=
  r.2.hasData = true → ∃ list, list ≠ [] ∧ r.2.physicalOut = addMacHeaders cfg 1 list ∧
    r.1.currentProcessingPacket = list ∧ r.1.eventId.ackTimeOut = true

theorem handsOver_of_nil {r : Mac × Out} (h : r.2.physicalOut = []) : HandsOver cfg r := by
  intro hdata
  rw [Out.hasData, h] at hdata
  cases hdata

theorem handsOver_init : HandsOver cfg (init cfg env mac) := by
  refine handsOver_of_nil ?_
  obtain heq | ⟨-, -, heq⟩ | ⟨-, -, -, heq⟩ | ⟨-, -, -, heq⟩ := init_cases cfg env mac <;> rw [heq]

theorem handsOver_sendToPhy {now : ℚ} (h : Traffic mac) (hc : Contents mac) : HandsOver cfg (sendToPhy cfg now mac) := by
  cases hcur : mac.currentProcessingPacket with
  | nil =>
    rw [sendToPhy_nil hcur]
    exact handsOver_of_nil rfl
  | cons p list =>
    rw [sendToPhy_cons hcur]
    intro hdata
    have htype : p.nControlDataType = .data := by
      cases htype : p.nControlDataType with
      | data => rfl
      | wlanRts => simp [Out.hasData, addMacHeaders, Packet.isCtrlPacket, htype] at hdata
    have hw := hc.waiting_eq_nil_of_data hcur htype
    have hframes : mac.frames = p :: list := (frames_of_waiting_eq_nil hw).trans hcur
    have hgroup : p.isGroup = false := (h.frames.single p (by rw [hframes]; exact List.mem_cons_self)).1
    refine ⟨p :: list, List.cons_ne_nil _ _, rfl, ?_, ?_⟩
    · simp [Mac.transmit, hgroup, hcur]
    · simp [Mac.transmit, addTimeOut, htype, hgroup]

theorem handsOver_continueTxop (hcfg : cfg.nNumberOfAggregatedPackets ≤ 64) (h : Traffic mac) (hph : Phase mac)
    (hp : mac.eventId.ackTimeOut = true) {list : List Packet} (hlist : ∀ p ∈ list, p ∈ mac.currentProcessingPacket) :
    HandsOver cfg (continueTxop cfg env { mac with currentProcessingPacket := list }) := by
  obtain ⟨-, -, hw, -⟩ := hph.pending.of_ackTimeOut hp
  obtain ⟨-, -, heq⟩ | ⟨-, -, heq⟩ | ⟨-, heq⟩ := continueTxop_cases cfg env list mac
  · rw [heq]
    exact handsOver_of_nil rfl
  · rw [heq]
    have hcontents : Contents (mac.acknowledged list) :=
      Contents.of_current hph.contents.queue hw fun p hp => hph.contents.current hw p (hlist p hp)
    have hframes : ((mac.acknowledged list).dequeue cfg env.now).frames =
        (getFromQueue cfg env.now mac.qosList).1 := if_pos hw
    have htraffic : Traffic ((mac.acknowledged list).dequeue cfg env.now) :=
      ⟨fun p hp => h.queue p (getFromQueue_mem (Or.inr hp)),
        by rw [hframes]; exact getFromQueue_isAmpdu env.now hcfg h.queue⟩
    exact handsOver_sendToPhy htraffic (hcontents.dequeue cfg env.now hw)
  · rw [heq]
    exact handsOver_init

theorem handsOver_handle (hcfg : cfg.nNumberOfAggregatedPackets ≤ 64) (h : Traffic mac) (hph : Phase mac) (e : Event)
    (hp : e.isPending mac = true) : HandsOver cfg (handle cfg env e mac) := by
  cases e with
  | macOut packets => exact handsOver_init
  | backoff =>
    obtain ⟨-, hs⟩ := hph.pending.of_backoff hp
    rw [handle, backoffEvent]
    obtain ⟨n, heq⟩ | ⟨n, heq⟩ | heq := backoff_cases env hs
    · rw [heq]
      exact handsOver_of_nil rfl
    · rw [heq]
      exact handsOver_of_nil rfl
    · rw [heq]
      have htraffic : Traffic { mac with nBackOffCounter := 0, eventId := { mac.eventId with backoff := false } } :=
        h.of_sublist (fun _ hp => hp) (List.Sublist.refl _)
      exact handsOver_sendToPhy htraffic (hph.contents.congr rfl rfl rfl)
  | sendMpdu =>
    have htraffic : Traffic { mac with eventId := { mac.eventId with sendMpdu := false } } :=
      h.of_sublist (fun _ hp => hp) (List.Sublist.refl _)
    exact handsOver_sendToPhy htraffic (hph.contents.congr rfl rfl rfl)
  | macIn m =>
    refine handsOver_of_nil ?_
    rw [handle, macIn]
    split
    · rfl
    · split
      · rw [sendBlockACK]
        split <;> rfl
      · rfl
  | ack => exact handsOver_continueTxop hcfg h hph hp (by simp)
  | blockAck back => exact handsOver_continueTxop hcfg h hph hp (walkBitMap_subset _ _ _ _)
  | ackTimeOut =>
    obtain ⟨he, hs, hw, p, list, hc, -⟩ := hph.pending.of_ackTimeOut hp
    rw [handle]
    obtain ⟨-, heq⟩ | ⟨-, heq⟩ := ackTimeOut_cases cfg env he hs hw hc <;> rw [heq] <;> exact handsOver_init
  | ctsTimeOut =>
    obtain ⟨he, hw⟩ := hph.pending.of_ctsTimeout hp
    rw [handle]
    obtain ⟨-, heq⟩ | ⟨-, heq⟩ := ctsTimeOut_cases cfg env he hw <;> rw [heq] <;> exact handsOver_init
  | cs | difsFailed | difsEnd _ | backoffPaused | txend | rts | cts => exact handsOver_of_nil rfl

/-! ## Waiting for an acknowledgement -/

/-- **While a station waits for an acknowledgement**, an event that is neither the acknowledgement nor the timer leaves
the frames as they are. -/
theorem handle_of_ackTimeOut (hph : Phase mac) (hack : mac.eventId.ackTimeOut = true) (e : Event)
    (hp : e.isPending mac = true) (ht : e.isTimely mac = true) (hlocal : e.isLocal = true) (hne : e ≠ .ackTimeOut) :
    (handle cfg env e mac).1.currentProcessingPacket = mac.currentProcessingPacket ∧
      (handle cfg env e mac).1.eventId.ackTimeOut = true ∧ (handle cfg env e mac).2.hasData = false := by
  obtain ⟨he, hs, -, -⟩ := hph.pending.of_ackTimeOut hack
  have hbusy : mac.currMacState ≠ .macIdle := by
    obtain hs | hs := hs <;> rw [hs] <;> exact fun h => by cases h
  cases e with
  | macOut packets =>
    have hinit : handle cfg env (.macOut packets) mac = ({ mac with qosList := mac.qosList ++ packets }, {}) :=
      if_pos (.inl hbusy)
    rw [hinit]
    exact ⟨rfl, hack, rfl⟩
  | cs =>
    rw [handle, cs, if_neg fun h => hbusy h.1]
    exact ⟨rfl, hack, rfl⟩
  | txend => exact ⟨rfl, hack, rfl⟩
  | difsFailed | difsEnd _ | backoff | backoffPaused | sendMpdu | cts | ctsTimeOut =>
    rw [Event.isPending, he] at hp
    cases hp
  | rts =>
    rw [Event.isTimely, he] at ht
    cases ht
  | macIn m => cases hlocal
  | ack => cases hlocal
  | blockAck back => cases hlocal
  | ackTimeOut => exact absurd rfl hne

/-! ## The record of a receiver -/

theorem blockAckPacket_rtsCtsInit : (rtsCtsInit cfg mac).blockAckPacket = mac.blockAckPacket := by
  rw [rtsCtsInit]
  split <;> rfl

theorem blockAckPacket_init : (init cfg env mac).1.blockAckPacket = mac.blockAckPacket := by
  obtain heq | ⟨-, -, heq⟩ | ⟨-, -, -, heq⟩ | ⟨-, -, -, heq⟩ := init_cases cfg env mac
  · rw [heq]
  · rw [heq]
    exact blockAckPacket_rtsCtsInit
  · rw [heq]
    rfl
  · rw [heq]
    exact blockAckPacket_rtsCtsInit

theorem blockAckPacket_sendToPhy {now : ℚ} : (sendToPhy cfg now mac).1.blockAckPacket = mac.blockAckPacket := by
  cases hcur : mac.currentProcessingPacket with
  | nil => rw [sendToPhy_nil hcur]
  | cons p list =>
    rw [sendToPhy_cons hcur]
    rfl

theorem blockAckPacket_continueTxop (list : List Packet) :
    (continueTxop cfg env { mac with currentProcessingPacket := list }).1.blockAckPacket = mac.blockAckPacket := by
  obtain ⟨-, -, heq⟩ | ⟨-, -, heq⟩ | ⟨-, heq⟩ := continueTxop_cases cfg env list mac
  · rw [heq]
    rfl
  · rw [heq]
    exact blockAckPacket_sendToPhy
  · rw [heq]
    exact blockAckPacket_init

theorem blockAckPacket_handle (hph : Phase mac) (e : Event) (hp : e.isPending mac = true)
    (hdata : ∀ m, e ≠ .macIn m) : (handle cfg env e mac).1.blockAckPacket = mac.blockAckPacket := by
  cases e with
  | macOut packets => exact blockAckPacket_init
  | cs =>
    rw [handle, cs]
    split
    · split <;> rfl
    · rfl
  | difsEnd rand =>
    rw [handle, difsEnd]
    split
    · rfl
    · split <;> rfl
  | backoff =>
    obtain ⟨-, hs⟩ := hph.pending.of_backoff hp
    rw [handle, backoffEvent]
    obtain ⟨n, heq⟩ | ⟨n, heq⟩ | heq := backoff_cases env hs
    · rw [heq]
      rfl
    · rw [heq]
      rfl
    · rw [heq]
      exact blockAckPacket_sendToPhy
  | sendMpdu => exact blockAckPacket_sendToPhy
  | macIn m => exact absurd rfl (hdata m)
  | ack => exact blockAckPacket_continueTxop _
  | blockAck back => exact blockAckPacket_continueTxop _
  | ackTimeOut =>
    obtain ⟨he, hs, hw, p, list, hc, -⟩ := hph.pending.of_ackTimeOut hp
    rw [handle]
    obtain ⟨-, heq⟩ | ⟨-, heq⟩ := ackTimeOut_cases cfg env he hs hw hc <;> rw [heq] <;> exact blockAckPacket_init
  | ctsTimeOut =>
    obtain ⟨he, hw⟩ := hph.pending.of_ctsTimeout hp
    rw [handle]
    obtain ⟨-, heq⟩ | ⟨-, heq⟩ := ctsTimeOut_cases cfg env he hw <;> rw [heq] <;> exact blockAckPacket_init
  | difsFailed | backoffPaused | txend | rts | cts => rfl

end NetSim.Wlan
