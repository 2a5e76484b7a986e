import NetSim.Proof.CsmaPhase

/-!
# Retries and the contention window

* `nBackOffCounter_nonneg`: no slot is processed with a negative counter, in any run.
* `nCWcurrent_inRange`: once a frame has been taken from the queue, the window is between its bounds, in any run.
* `Counts.handle`: under the condition on the steps, no frame is sent more often than its limit, and what is taken from the
  queue starts without retries and with the least window.
-/

namespace NetSim.Wlan

variable {cfg : MacConfig} {env : Env} {mac : Mac} {sent : Packet → ℕ}

/-! ## The counts -/

@[simp]
theorem countSent_empty (sent : Packet → ℕ) : countSent {} sent = sent := by
  funext p
  simp [countSent]

theorem countSent_dequeued (list : List Packet) (sent : Packet → ℕ) (p : Packet) :
    countSent { dequeued := list } sent p = if p ∈ list then 0 else sent p := by
  simp [countSent]

theorem countSent_physicalOut (list : List Mpdu) (sent : Packet → ℕ) (p : Packet) :
    countSent { physicalOut := list } sent p = sent p + if p ∈ list.map Mpdu.packet then 1 else 0 := by
  simp [countSent]

/-- First the packets are taken from the queue, and then they are sent. -/
theorem countSent_both (list : List Packet) (out : Out) (h : out.dequeued = []) (sent : Packet → ℕ) :
    countSent { out with dequeued := list } sent = countSent out (countSent { dequeued := list } sent) := by
  funext p
  simp [countSent, h]

theorem addMacHeaders_map (cfg : MacConfig) (list : List Packet) :
    ∀ i, (addMacHeaders cfg i list).map Mpdu.packet = list := by
  induction list with
  | nil => exact fun _ => rfl
  | cons p list ih => exact fun i => congrArg (p :: ·) (ih (i + 1))

/-! ## The invariant -/

/-- What the counter of retries says of the frames in process. -/
structure Counts (cfg : MacConfig) (sent : Packet → ℕ) (mac : Mac) : Prop where
  bound : ∀ p, p.nControlDataType = .data → sent p ≤ cfg.retryLimit p.dPayload
  left : mac.eventId.ackTimeOut = false → ∀ p ∈ mac.frames, sent p < cfg.retryLimit p.dPayload
  retry : ∀ p ∈ mac.frames, sent p ≤ mac.nRetryCount + if mac.eventId.ackTimeOut = true then 1 else 0
  same : ∀ f ∈ mac.frames.head?, ∀ p ∈ mac.frames, cfg.retryLimit f.dPayload ≤ cfg.retryLimit p.dPayload
  fresh : mac.frames = [] → mac.nRetryCount = 0
  window : mac.nRetryCount = 0 → mac.frames ≠ [] → mac.nCWcurrent = cfg.cwMin
  group : ∀ f ∈ mac.frames.head?, f.isGroup = true → mac.nRetryCount = 0

theorem Counts.congr {mac' : Mac} (h : Counts cfg sent mac) (hf : mac'.frames = mac.frames)
    (hr : mac'.nRetryCount = mac.nRetryCount) (hc : mac'.nCWcurrent = mac.nCWcurrent)
    (ha : mac'.eventId.ackTimeOut = mac.eventId.ackTimeOut) : Counts cfg sent mac' := by
  constructor
  · exact h.bound
  · rw [hf, ha]; exact h.left
  · rw [hf, hr, ha]; exact h.retry
  · rw [hf]; exact h.same
  · rw [hf, hr]; exact h.fresh
  · rw [hf, hr, hc]; exact h.window
  · rw [hf, hr]; exact h.group

/-- With nothing in process. -/
theorem Counts.of_frames_eq_nil (hb : ∀ p, p.nControlDataType = .data → sent p ≤ cfg.retryLimit p.dPayload)
    (hf : mac.frames = []) (hr : mac.nRetryCount = 0) : Counts cfg sent mac where
  bound := hb
  left _ := by simp [hf]
  retry := by simp [hf]
  same := by simp [hf]
  fresh _ := hr
  window _ h := absurd hf h
  group := by simp [hf]

theorem MacConfig.Valid.one_le_retryLimit (h : cfg.Valid) (n : ℕ) : 1 ≤ cfg.retryLimit n := by
  rw [MacConfig.retryLimit]
  split
  · exact h.shortLimit
  · exact h.longLimit

/-- With packets that were just taken from the queue. -/
theorem Counts.of_dequeued {list : List Packet} (hcfg : cfg.Valid)
    (hb : ∀ p, p.nControlDataType = .data → sent p ≤ cfg.retryLimit p.dPayload) (hf : mac.frames = list)
    (hr : mac.nRetryCount = 0) (hc : mac.nCWcurrent = cfg.cwMin)
    (hsame : ∀ f ∈ list.head?, ∀ p ∈ list, cfg.retryLimit f.dPayload ≤ cfg.retryLimit p.dPayload) :
    Counts cfg (countSent { dequeued := list } sent) mac := by
  have hzero : ∀ p ∈ list, countSent { dequeued := list } sent p = 0 := by
    intro p hp
    rw [countSent_dequeued, if_pos hp]
  constructor
  · intro p hp
    rw [countSent_dequeued]
    split
    · exact Nat.zero_le _
    · exact hb p hp
  · intro _ p hp
    rw [hf] at hp
    rw [hzero p hp]
    exact hcfg.one_le_retryLimit _
  · intro p hp
    rw [hf] at hp
    rw [hzero p hp]
    exact Nat.zero_le _
  · rw [hf]
    exact hsame
  · exact fun _ => hr
  · exact fun _ _ => hc
  · exact fun _ _ _ => hr

/-! ## The functions -/

/-- What is taken from the queue starts without retries and with the least window. -/
def StartsFresh (cfg : MacConfig) (r : Mac × Out) : Prop :=
  r.2.dequeued ≠ [] → r.1.nRetryCount = 0 ∧ r.1.nCWcurrent = cfg.cwMin

theorem nRetryCount_rtsCtsInit : (rtsCtsInit cfg mac).nRetryCount = mac.nRetryCount := by
  rw [rtsCtsInit]
  split <;> rfl

theorem nCWcurrent_rtsCtsInit : (rtsCtsInit cfg mac).nCWcurrent = mac.nCWcurrent := by
  rw [rtsCtsInit]
  split <;> rfl

theorem Counts.rtsCtsInit (h : Counts cfg sent mac) (hc : Contents mac) : Counts cfg sent (rtsCtsInit cfg mac) := by
  refine h.congr (frames_rtsCtsInit cfg hc) nRetryCount_rtsCtsInit nCWcurrent_rtsCtsInit ?_
  rw [eventId_rtsCtsInit]

theorem isAggregable_iff {now : ℚ} {qosList : List Packet} (h : cfg.isAggregable now qosList = true) :
    ∀ f ∈ (getFromQueue cfg now qosList).1.head?, ∀ p ∈ (getFromQueue cfg now qosList).1,
      cfg.retryLimit f.dPayload ≤ cfg.retryLimit p.dPayload := by
  intro f hf p hp
  rw [MacConfig.isAggregable, List.all_eq_true] at h
  have hle := of_decide_eq_true (h p hp)
  rw [Option.mem_def.1 hf] at hle
  exact hle

theorem Counts.init (hcfg : cfg.Valid) (h : Counts cfg sent mac) (hph : Phase mac)
    (hagg : cfg.isAggregable env.now mac.qosList = true) :
    Counts cfg (countSent (init cfg env mac).2 sent) (init cfg env mac).1 ∧ StartsFresh cfg (init cfg env mac) := by
  obtain heq | ⟨-, -, heq⟩ | ⟨-, hcur, hget, heq⟩ | ⟨-, hcur, -, heq⟩ := init_cases cfg env mac
  · rw [heq, countSent_empty]
    exact ⟨h, fun hne => absurd rfl hne⟩
  · rw [heq, countSent_empty]
    exact ⟨h.rtsCtsInit hph.contents, fun hne => absurd rfl hne⟩
  · rw [heq, countSent_empty]
    have hw := hph.contents.waiting_eq_nil hcur
    have hnil : mac.frames = [] := (frames_of_waiting_eq_nil hw).trans hcur
    have hw' : (mac.dequeue cfg env.now).waitingforCTS = [] := hw
    have hnil' : (mac.dequeue cfg env.now).frames = [] := (frames_of_waiting_eq_nil hw').trans hget
    exact ⟨Counts.of_frames_eq_nil h.bound hnil' (h.fresh hnil), fun hne => absurd rfl hne⟩
  · rw [heq]
    have hw := hph.contents.waiting_eq_nil hcur
    have hzero := h.fresh ((frames_of_waiting_eq_nil hw).trans hcur)
    have hcontents : Contents { mac.dequeue cfg env.now with nCWcurrent := cfg.cwMin } :=
      (hph.contents.dequeue cfg env.now hw).congr rfl rfl rfl
    have hframes : ({ mac.dequeue cfg env.now with nCWcurrent := cfg.cwMin } : Mac).frames =
        (getFromQueue cfg env.now mac.qosList).1 := if_pos hw
    refine ⟨Counts.rtsCtsInit ?_ hcontents, fun _ => ?_⟩
    · exact Counts.of_dequeued hcfg h.bound hframes hzero rfl (isAggregable_iff hagg)
    · rw [nRetryCount_rtsCtsInit, nCWcurrent_rtsCtsInit]
      exact ⟨hzero, rfl⟩

theorem Counts.sendToPhy {now : ℚ} (h : Counts cfg sent mac) (hc : Contents mac) (he : mac.eventId = EventId.none) :
    Counts cfg (countSent (sendToPhy cfg now mac).2 sent) (sendToPhy cfg now mac).1 := by
  cases hcur : mac.currentProcessingPacket with
  | nil =>
    rw [sendToPhy_nil hcur, countSent_empty]
    exact h
  | cons p list =>
    rw [sendToPhy_cons hcur]
    have hcount : ∀ q, countSent { physicalOut := addMacHeaders cfg 1 (p :: list) } sent q =
        sent q + if q ∈ p :: list then 1 else 0 := by
      intro q
      rw [countSent_physicalOut, addMacHeaders_map]
    have hack : mac.eventId.ackTimeOut = false := by rw [he]; rfl
    have hleft := h.left hack
    cases htype : p.nControlDataType with
    | wlanRts =>
      -- an RTS is no transmission of the frames that it stands for
      have hw : mac.waitingforCTS ≠ [] := by
        intro hw
        have hdata := hc.current hw p (by rw [hcur]; exact List.mem_cons_self)
        rw [htype] at hdata
        cases hdata
      obtain ⟨r, hr, -, hsingle⟩ := hc.rts hw
      rw [hcur] at hr
      cases hr
      have hframes : (mac.transmit cfg now p).frames = mac.frames := by
        simp [Mac.frames, Mac.transmit, edcafSetTxopTime, setMacStateForTx, hw]
      have hsent : ∀ q, q.nControlDataType = .data →
          countSent { physicalOut := addMacHeaders cfg 1 [p] } sent q = sent q := by
        intro q hq
        rw [hcount, if_neg, Nat.add_zero]
        intro hmem
        rw [List.mem_singleton.1 hmem, htype] at hq
        cases hq
      have hack' : (mac.transmit cfg now p).eventId.ackTimeOut = false := by
        simp [Mac.transmit, addTimeOut, htype, hack]
      have hdata : ∀ q ∈ mac.frames, q.nControlDataType = .data := fun q hq => hc.frames_data hq
      constructor
      · intro q hq
        rw [hsent q hq]
        exact h.bound q hq
      · intro _ q hq
        rw [hframes] at hq
        rw [hsent q (hdata q hq)]
        exact hleft q hq
      · intro q hq
        rw [hframes] at hq
        rw [hsent q (hdata q hq), hack']
        have hle := h.retry q hq
        rw [hack] at hle
        exact hle
      · rw [hframes]; exact h.same
      · rw [hframes]; exact h.fresh
      · rw [hframes]; exact h.window
      · rw [hframes]; exact h.group
    | data =>
      have hw := hc.waiting_eq_nil_of_data hcur htype
      have hw' : (mac.transmit cfg now p).waitingforCTS = [] := hw
      have hframes : mac.frames = p :: list := (frames_of_waiting_eq_nil hw).trans hcur
      have hbound : ∀ q, q.nControlDataType = .data →
          countSent { physicalOut := addMacHeaders cfg 1 (p :: list) } sent q ≤ cfg.retryLimit q.dPayload := by
        intro q hq
        rw [hcount]
        split
        · rename_i hmem
          have hlt := hleft q (by rw [hframes]; exact hmem)
          omega
        · exact h.bound q hq
      cases hgroup : p.isGroup with
      | true =>
        -- a broadcast is sent once and not kept
        refine Counts.of_frames_eq_nil hbound ?_ ?_
        · exact (frames_of_waiting_eq_nil hw').trans (if_pos hgroup)
        · exact h.group p (by rw [hframes]; rfl) hgroup
      | false =>
        have hframes' : (mac.transmit cfg now p).frames = p :: list :=
          (frames_of_waiting_eq_nil hw').trans (by simp [Mac.transmit, hgroup, hcur])
        have hack' : (mac.transmit cfg now p).eventId.ackTimeOut = true := by
          simp [Mac.transmit, addTimeOut, htype, hgroup]
        constructor
        · exact hbound
        · intro hfalse
          rw [hack'] at hfalse
          cases hfalse
        · intro q hq
          rw [hframes'] at hq
          rw [hcount, if_pos hq, hack', if_pos rfl]
          have hle := h.retry q (by rw [hframes]; exact hq)
          rw [hack] at hle
          exact Nat.add_le_add_right hle 1
        · rw [hframes', ← hframes]; exact h.same
        · rw [hframes']; exact fun hnil => absurd hnil (List.cons_ne_nil _ _)
        · intro hzero _
          exact h.window hzero (by rw [hframes]; exact List.cons_ne_nil _ _)
        · rw [hframes', ← hframes]; exact h.group

/-- As long as every packet has been received the index is the position of the packet. -/
theorem walkBitMap_cons_true (bitMap : BitVec 64) (i : ℕ) (p : Packet) (list : List Packet) :
    walkBitMap bitMap i true (p :: list) =
      if bitIsSet64 bitMap i then walkBitMap bitMap (i + 1) true list
      else p :: walkBitMap bitMap (i + 1) false list := by
  simp [walkBitMap]

/-- If all the frames have been received, none is left. -/
theorem walkBitMap_eq_nil {bitMap : BitVec 64} (list : List Packet) :
    ∀ i, (∀ k < list.length, bitIsSet64 bitMap (i + k) = true) → walkBitMap bitMap i true list = [] := by
  induction list with
  | nil => exact fun _ _ => rfl
  | cons p list ih =>
    intro i h
    have hi : bitIsSet64 bitMap i = true := h 0 (Nat.succ_pos _)
    rw [walkBitMap_cons_true, if_pos hi]
    refine ih (i + 1) fun k hk => ?_
    have := h (k + 1) (Nat.succ_lt_succ hk)
    rwa [Nat.add_comm k, ← Nat.add_assoc] at this

theorem Counts.continueTxop (hcfg : cfg.Valid) (h : Counts cfg sent mac) (hph : Phase mac)
    (hp : mac.eventId.ackTimeOut = true) (hagg : cfg.isAggregable env.now mac.qosList = true)
    {list : List Packet} (hlist : ∀ p ∈ list, p ∈ mac.currentProcessingPacket)
    (htxop : edcafIsTxopTimerSet cfg env.now mac = true → mac.nRetryCount = 0)
    (hall : list = [] ∨ (edcafIsTxopTimerSet cfg env.now mac = true ∧ (getFromQueue cfg env.now mac.qosList).1 ≠ [])) :
    Counts cfg (countSent (continueTxop cfg env { mac with currentProcessingPacket := list }).2 sent)
        (continueTxop cfg env { mac with currentProcessingPacket := list }).1 ∧
      StartsFresh cfg (continueTxop cfg env { mac with currentProcessingPacket := list }) := by
  obtain ⟨he, -, hw, p, rest, hc, -⟩ := hph.pending.of_ackTimeOut hp
  have he' : { mac.eventId with ackTimeOut := false } = EventId.none := by rw [he]; rfl
  have hne : mac.frames ≠ [] := by
    rw [frames_of_waiting_eq_nil hw, hc]
    exact List.cons_ne_nil _ _
  obtain ⟨hset, hget, heq⟩ | ⟨hset, hget, heq⟩ | ⟨hset, heq⟩ := continueTxop_cases cfg env list mac
  · rw [heq, countSent_empty]
    have hnil : list = [] := hall.resolve_right fun hr => hr.2 hget
    exact ⟨Counts.of_frames_eq_nil h.bound ((if_pos hw).trans hnil) (htxop hset), fun hne => absurd rfl hne⟩
  · rw [heq]
    -- the next frames are sent with the counter and the window of the ones before
    have hzero := htxop hset
    have hwindow := h.window hzero hne
    have hcontents : Contents (mac.acknowledged list) :=
      Contents.of_current hph.contents.queue hw fun p hp => hph.contents.current hw p (hlist p hp)
    have hcounts : Counts cfg (countSent { dequeued := (getFromQueue cfg env.now mac.qosList).1 } sent)
        ((mac.acknowledged list).dequeue cfg env.now) :=
      Counts.of_dequeued hcfg h.bound (if_pos hw) hzero hwindow (isAggregable_iff hagg)
    obtain ⟨q, list', hcur⟩ := List.exists_cons_of_ne_nil hget
    have hcur' : ((mac.acknowledged list).dequeue cfg env.now).currentProcessingPacket = q :: list' := hcur
    have hcons : Wlan.sendToPhy cfg env.now ((mac.acknowledged list).dequeue cfg env.now) = _ := sendToPhy_cons hcur'
    refine ⟨?_, fun _ => ?_⟩
    · rw [countSent_both _ _ (by rw [hcons])]
      exact hcounts.sendToPhy (hcontents.dequeue cfg env.now hw) he'
    · rw [hcons]
      exact ⟨hzero, hwindow⟩
  · rw [heq]
    have hnil : list = [] := hall.resolve_right fun hr => by rw [hset] at hr; exact Bool.false_ne_true hr.1
    have hcounts : Counts cfg sent
        { edcafUnsetTxopTime cfg (mac.acknowledged list) with nRetryCount := 0 } :=
      Counts.of_frames_eq_nil h.bound ((if_pos hw).trans hnil) rfl
    refine hcounts.init hcfg ⟨Contents.of_current hph.contents.queue hw ?_, .nothing he'⟩ hagg
    exact fun p hp => hph.contents.current hw p (hlist p hp)

/-- A retry is allowed below the limit. -/
theorem checkRetryLimit_iff (hcfg : cfg.Valid) (n : ℕ) :
    checkRetryLimit cfg mac n = true ↔ mac.nRetryCount + 1 < cfg.retryLimit n := by
  have hone := hcfg.one_le_retryLimit n
  rw [checkRetryLimit, decide_eq_true_iff, uintPred, if_neg (by omega)]
  omega

theorem Counts.ackTimeOut (hcfg : cfg.Valid) (h : Counts cfg sent mac) (hph : Phase mac)
    (hp : mac.eventId.ackTimeOut = true) (hagg : cfg.isAggregable env.now mac.qosList = true) :
    Counts cfg (countSent (ackTimeOut cfg env mac).2 sent) (ackTimeOut cfg env mac).1 ∧
      StartsFresh cfg (ackTimeOut cfg env mac) := by
  obtain ⟨he, hs, hw, p, list, hc, hgroup⟩ := hph.pending.of_ackTimeOut hp
  have hframes : mac.frames = p :: list := (frames_of_waiting_eq_nil hw).trans hc
  have hcontents : Contents (edcafUnsetTxopTime cfg mac) := hph.contents.congr rfl rfl rfl
  obtain ⟨hcheck, heq⟩ | ⟨-, heq⟩ := ackTimeOut_cases cfg env he hs hw hc
  · rw [heq]
    have hlt := (checkRetryLimit_iff hcfg _).1 hcheck
    have hframes' : ((edcafUnsetTxopTime cfg mac).retried cfg).frames = p :: list := hframes
    refine Counts.init hcfg ?_ (Phase.retried cfg hcontents) hagg
    constructor
    · exact h.bound
    · intro _ q hq
      rw [hframes'] at hq
      have hq' : q ∈ mac.frames := by rw [hframes]; exact hq
      have hretry := h.retry q hq'
      rw [hp, if_pos rfl] at hretry
      have hsame := h.same p (by rw [hframes]; rfl) q hq'
      omega
    · intro q hq
      rw [hframes'] at hq
      have hretry := h.retry q (by rw [hframes]; exact hq)
      rw [hp, if_pos rfl] at hretry
      exact hretry
    · rw [hframes', ← hframes]; exact h.same
    · rw [hframes']; exact fun hnil => absurd hnil (List.cons_ne_nil _ _)
    · exact fun hzero => absurd hzero (Nat.succ_ne_zero _)
    · intro f hf hg
      rw [hframes'] at hf
      cases hf
      rw [hgroup] at hg
      cases hg
  · rw [heq]
    exact Counts.init hcfg (Counts.of_frames_eq_nil h.bound rfl rfl) (Phase.givenUp hcontents) hagg

theorem Counts.ctsTimeOut (hcfg : cfg.Valid) (h : Counts cfg sent mac) (hph : Phase mac)
    (hp : mac.eventId.ctsTimeout = true) (hagg : cfg.isAggregable env.now mac.qosList = true) :
    Counts cfg (countSent (ctsTimeOut cfg env mac).2 sent) (ctsTimeOut cfg env mac).1 ∧
      StartsFresh cfg (ctsTimeOut cfg env mac) := by
  obtain ⟨he, hw⟩ := hph.pending.of_ctsTimeout hp
  have hack : mac.eventId.ackTimeOut = false := by rw [he]; rfl
  have hframes : mac.frames = mac.waitingforCTS := if_neg hw
  obtain ⟨-, heq⟩ | ⟨-, heq⟩ := ctsTimeOut_cases cfg env he hw
  · rw [heq]
    refine Counts.init hcfg ?_ (Phase.retried cfg hph.contents) hagg
    constructor
    · exact h.bound
    · exact fun _ => h.left hack
    · intro q hq
      have hretry := h.retry q hq
      rw [hack] at hretry
      exact Nat.le_succ_of_le hretry
    · exact h.same
    · intro hnil
      have hnil' : mac.frames = [] := hnil
      rw [hframes] at hnil'
      exact absurd hnil' hw
    · exact fun hzero => absurd hzero (Nat.succ_ne_zero _)
    · intro f hf hg
      have hf' : f ∈ mac.frames.head? := hf
      rw [hframes] at hf'
      rw [hph.contents.single f hf'] at hg
      cases hg
  · rw [heq]
    exact Counts.init hcfg (Counts.of_frames_eq_nil h.bound rfl rfl) (Phase.givenUp hph.contents) hagg

/-! ## The events -/

theorem startsFresh_nil {r : Mac × Out} (h : r.2.dequeued = []) : StartsFresh cfg r := fun hne => absurd h hne

theorem dequeued_sendToPhy (now : ℚ) : (sendToPhy cfg now mac).2.dequeued = [] := by
  rw [sendToPhy]
  split <;> rfl

/-- An event that neither takes packets from the queue nor hands any to the PHY, nor touches what is counted. -/
theorem Counts.of_same {mac' : Mac} (h : Counts cfg sent mac)
    (hc : mac'.currentProcessingPacket = mac.currentProcessingPacket) (hw : mac'.waitingforCTS = mac.waitingforCTS)
    (hr : mac'.nRetryCount = mac.nRetryCount) (hcw : mac'.nCWcurrent = mac.nCWcurrent)
    (ha : mac'.eventId.ackTimeOut = mac.eventId.ackTimeOut) : Counts cfg sent mac' :=
  h.congr (by rw [Mac.frames, Mac.frames, hc, hw]) hr hcw ha

theorem Counts.cs (h : Counts cfg sent mac) : Counts cfg sent (cs cfg env mac) := by
  rw [Wlan.cs]
  split
  · split <;> exact h.of_same rfl rfl rfl rfl rfl
  · exact h

theorem Counts.difsEnd (rand : Fin (netsimRandMax + 1)) (h : Counts cfg sent mac) :
    Counts cfg sent (difsEnd env rand mac) := by
  rw [Wlan.difsEnd]
  split
  · exact h.of_same rfl rfl rfl rfl rfl
  · split <;> exact h.of_same rfl rfl rfl rfl rfl

theorem Counts.macIn (m : Mpdu) (h : Counts cfg sent mac) :
    Counts cfg (countSent (macIn cfg m mac).2 sent) (macIn cfg m mac).1 ∧ (macIn cfg m mac).2.dequeued = [] := by
  have hempty : ∀ back : Option BlockAck, countSent { blockAck := back } sent = sent := by
    intro back
    funext p
    simp [countSent]
  rw [Wlan.macIn]
  split
  · rw [countSent_empty]
    exact ⟨h, rfl⟩
  · dsimp only
    split
    · rw [sendBlockACK]
      split
      · rw [countSent_empty]
        exact ⟨h.of_same rfl rfl rfl rfl rfl, rfl⟩
      · rw [hempty]
        exact ⟨h.of_same rfl rfl rfl rfl rfl, rfl⟩
    · rw [countSent_empty]
      exact ⟨h.of_same rfl rfl rfl rfl rfl, rfl⟩

theorem Counts.backoffEvent (h : Counts cfg sent mac) (hph : Phase mac) (hp : mac.eventId.backoff = true) :
    Counts cfg (countSent (backoffEvent cfg env mac).2 sent) (backoffEvent cfg env mac).1 ∧
      (backoffEvent cfg env mac).2.dequeued = [] := by
  obtain ⟨he, hs⟩ := hph.pending.of_backoff hp
  have he' : { mac.eventId with backoff := false } = EventId.none := by rw [he]; rfl
  rw [Wlan.backoffEvent]
  obtain ⟨n, heq⟩ | ⟨n, heq⟩ | heq := backoff_cases env hs
  · rw [heq]
    exact ⟨by rw [if_neg Bool.false_ne_true, countSent_empty]; exact h.of_same rfl rfl rfl rfl rfl, rfl⟩
  · rw [heq]
    exact ⟨by rw [if_neg Bool.false_ne_true, countSent_empty]; exact h.of_same rfl rfl rfl rfl rfl, rfl⟩
  · rw [heq, if_pos rfl]
    have hcounts : Counts cfg sent
        { mac with nBackOffCounter := 0, eventId := { mac.eventId with backoff := false } } :=
      h.of_same rfl rfl rfl rfl rfl
    exact ⟨hcounts.sendToPhy (hph.contents.congr rfl rfl rfl) he', dequeued_sendToPhy _⟩

theorem Counts.processCTS (h : Counts cfg sent mac) (hph : Phase mac) (hp : mac.eventId.ctsTimeout = true) :
    Counts cfg sent (processCTS mac) := by
  obtain ⟨he, hw⟩ := hph.pending.of_ctsTimeout hp
  have hframes : (Wlan.processCTS mac).frames = mac.frames := by
    rw [Mac.frames, Mac.frames, if_neg hw]
    rfl
  exact h.congr hframes rfl rfl rfl

theorem Counts.macOut (hcfg : cfg.Valid) (packets : List Packet) (h : Counts cfg sent mac) (hph : Phase mac)
    (hp : (Event.macOut packets).isPending mac = true)
    (hagg : cfg.isAggregable env.now (mac.qosList ++ packets) = true) :
    Counts cfg (countSent (macOut cfg env packets mac).2 sent) (macOut cfg env packets mac).1 ∧
      StartsFresh cfg (macOut cfg env packets mac) := by
  have hcounts : Counts cfg sent { mac with qosList := mac.qosList ++ packets } := h.of_same rfl rfl rfl rfl rfl
  exact hcounts.init hcfg (hph.enqueue packets hp) hagg

/-- **Under the condition every event keeps the invariant, and frames start afresh.** -/
theorem Counts.handle (hcfg : cfg.Valid) (st : Station) (h : Counts cfg st.sent st.mac) (hph : Phase st.mac)
    (e : Event) (hp : e.isPending st.mac = true) (hok : isDisciplined cfg st (e, env) = true) :
    Counts cfg (countSent (handle cfg env e st.mac).2 st.sent) (handle cfg env e st.mac).1 ∧
      StartsFresh cfg (handle cfg env e st.mac) := by
  rw [isDisciplined, Bool.and_eq_true] at hok
  obtain ⟨ht, hok⟩ := hok
  cases e with
  | macOut packets => exact h.macOut hcfg packets hph hp hok
  | cs => exact ⟨by rw [Wlan.handle, countSent_empty]; exact h.cs, startsFresh_nil rfl⟩
  | difsFailed =>
    exact ⟨by rw [Wlan.handle, countSent_empty]; exact h.of_same rfl rfl rfl rfl rfl, startsFresh_nil rfl⟩
  | difsEnd rand => exact ⟨by rw [Wlan.handle, countSent_empty]; exact h.difsEnd rand, startsFresh_nil rfl⟩
  | backoff => exact ⟨(h.backoffEvent hph hp).1, startsFresh_nil (h.backoffEvent hph hp).2⟩
  | backoffPaused =>
    exact ⟨by rw [Wlan.handle, countSent_empty]; exact h.of_same rfl rfl rfl rfl rfl, startsFresh_nil rfl⟩
  | txend => exact ⟨by rw [Wlan.handle, countSent_empty]; exact h.of_same rfl rfl rfl rfl rfl, startsFresh_nil rfl⟩
  | sendMpdu =>
    have he : { st.mac.eventId with sendMpdu := false } = EventId.none := by rw [hph.pending.of_sendMpdu hp]; rfl
    have hcounts : Counts cfg st.sent { st.mac with eventId := { st.mac.eventId with sendMpdu := false } } :=
      h.of_same rfl rfl rfl rfl rfl
    exact ⟨hcounts.sendToPhy (hph.contents.congr rfl rfl rfl) he, startsFresh_nil (dequeued_sendToPhy _)⟩
  | macIn m => exact ⟨(h.macIn m).1, startsFresh_nil (h.macIn m).2⟩
  | rts => exact ⟨by rw [Wlan.handle, countSent_empty]; exact h.of_same rfl rfl rfl rfl rfl, startsFresh_nil rfl⟩
  | cts => exact ⟨by rw [Wlan.handle, countSent_empty]; exact h.processCTS hph hp, startsFresh_nil rfl⟩
  | ack =>
    simp only [Bool.and_eq_true, Bool.or_eq_true, Bool.not_eq_true', beq_iff_eq] at hok
    refine h.continueTxop hcfg hph hp hok.1 (by simp) (fun hset => ?_) (.inl rfl)
    exact hok.2.resolve_left (by simp [hset])
  | blockAck back =>
    simp only [Bool.and_eq_true, Bool.or_eq_true, Bool.not_eq_true', beq_iff_eq, List.isEmpty_eq_false_iff] at hok
    obtain ⟨⟨hagg, htxop⟩, hall⟩ := hok
    refine h.continueTxop hcfg hph hp hagg (walkBitMap_subset _ _ _ _) (fun hset => ?_) (hall.imp (fun hall => ?_) id)
    · exact htxop.resolve_left (by simp [hset])
    · refine walkBitMap_eq_nil _ 0 fun k hk => ?_
      rw [Nat.zero_add]
      exact List.all_eq_true.1 hall k (List.mem_range.2 hk)
  | ackTimeOut =>
    have hkept := h.ackTimeOut hcfg hph hp hok
    rw [Wlan.handle]
    exact hkept
  | ctsTimeOut =>
    have hkept := h.ctsTimeOut hcfg hph hp hok
    rw [Wlan.handle]
    exact hkept

/-! ## Every run -/

/-- What only a window that is doubled or set, and a back-off that is drawn or counted down, change. -/
structure Keeps (cfg : MacConfig) (mac mac' : Mac) : Prop where
  counter : mac'.nBackOffCounter = mac.nBackOffCounter
  window : mac'.nCWcurrent = mac.nCWcurrent ∨ mac'.nCWcurrent = cfg.cwMin ∨
    mac'.nCWcurrent = min ((mac.nCWcurrent * 2 + 1) % 2 ^ 32) cfg.cwMax

theorem Keeps.of_eq {mac' : Mac} (h1 : mac'.nBackOffCounter = mac.nBackOffCounter)
    (h2 : mac'.nCWcurrent = mac.nCWcurrent) : Keeps cfg mac mac' := ⟨h1, .inl h2⟩

theorem nBackOffCounter_rtsCtsInit : (rtsCtsInit cfg mac).nBackOffCounter = mac.nBackOffCounter := by
  rw [rtsCtsInit]
  split <;> rfl

/-- `init` changes the window only when it takes packets from the queue. -/
theorem init_keeps (cfg : MacConfig) (env : Env) (mac : Mac) :
    (init cfg env mac).1.nBackOffCounter = mac.nBackOffCounter ∧
      ((init cfg env mac).1.nCWcurrent = mac.nCWcurrent ∨ (init cfg env mac).1.nCWcurrent = cfg.cwMin) := by
  obtain heq | ⟨-, -, heq⟩ | ⟨-, -, -, heq⟩ | ⟨-, -, -, heq⟩ := init_cases cfg env mac
  · rw [heq]
    exact ⟨rfl, .inl rfl⟩
  · rw [heq]
    exact ⟨nBackOffCounter_rtsCtsInit, .inl nCWcurrent_rtsCtsInit⟩
  · rw [heq]
    exact ⟨rfl, .inl rfl⟩
  · rw [heq]
    exact ⟨nBackOffCounter_rtsCtsInit, .inr nCWcurrent_rtsCtsInit⟩

/-- The window that `init` finds may have been doubled before. -/
theorem Keeps.init {mac' : Mac} (env : Env) (h1 : mac'.nBackOffCounter = mac.nBackOffCounter)
    (h2 : mac'.nCWcurrent = mac.nCWcurrent ∨ mac'.nCWcurrent = min ((mac.nCWcurrent * 2 + 1) % 2 ^ 32) cfg.cwMax) :
    Keeps cfg mac (init cfg env mac').1 := by
  obtain ⟨hcounter, hwindow⟩ := init_keeps cfg env mac'
  refine ⟨hcounter.trans h1, ?_⟩
  obtain hwindow | hwindow := hwindow
  · rw [hwindow]
    obtain h2 | h2 := h2
    · exact .inl h2
    · exact .inr (.inr h2)
  · exact .inr (.inl hwindow)

theorem Keeps.sendToPhy (now : ℚ) : Keeps cfg mac (sendToPhy cfg now mac).1 := by
  cases hcur : mac.currentProcessingPacket with
  | nil =>
    rw [sendToPhy_nil hcur]
    exact Keeps.of_eq rfl rfl
  | cons p list =>
    rw [sendToPhy_cons hcur]
    exact Keeps.of_eq rfl rfl

theorem Keeps.continueTxop (env : Env) (list : List Packet) :
    Keeps cfg mac (continueTxop cfg env { mac with currentProcessingPacket := list }).1 := by
  obtain ⟨-, -, heq⟩ | ⟨-, -, heq⟩ | ⟨-, heq⟩ := continueTxop_cases cfg env list mac
  · rw [heq]
    exact Keeps.of_eq rfl rfl
  · rw [heq]
    have hkeeps : Keeps cfg ((mac.acknowledged list).dequeue cfg env.now) _ := Keeps.sendToPhy env.now
    exact ⟨hkeeps.counter, hkeeps.window⟩
  · rw [heq]
    exact Keeps.init env rfl (.inl rfl)

theorem Keeps.ackTimeOut (env : Env) : Keeps cfg mac (ackTimeOut cfg env mac).1 := by
  rw [Wlan.ackTimeOut]
  refine iteInduction (motive := fun r : Mac × Out => Keeps cfg mac r.1) (fun _ => ?_) fun _ => Keeps.of_eq rfl rfl
  refine iteInduction (motive := fun r : Mac × Out => Keeps cfg mac r.1) (fun _ => ?_) fun _ => ?_
  · exact Keeps.init env rfl (.inr rfl)
  · exact Keeps.init env rfl (.inl rfl)

theorem Keeps.ctsTimeOut (env : Env) : Keeps cfg mac (ctsTimeOut cfg env mac).1 := by
  rw [Wlan.ctsTimeOut]
  refine iteInduction (motive := fun r : Mac × Out => Keeps cfg mac r.1) (fun _ => ?_) fun _ => ?_
  · exact Keeps.init env rfl (.inr rfl)
  · exact Keeps.init env rfl (.inl rfl)

/-- No event makes the counter negative. -/
theorem nBackOffCounter_handle (e : Event) (h : 0 ≤ mac.nBackOffCounter) :
    0 ≤ (handle cfg env e mac).1.nBackOffCounter := by
  cases e with
  | macOut packets =>
    have hkeeps : Keeps cfg mac (macOut cfg env packets mac).1 := Keeps.init env rfl (.inl rfl)
    exact h.trans_eq hkeeps.counter.symm
  | cs =>
    rw [handle, Wlan.cs]
    split
    · split <;> exact h
    · exact h
  | difsEnd rand =>
    rw [handle, Wlan.difsEnd]
    split
    · rw [startBackOff]
      dsimp only
      split
      · exact Int.natCast_nonneg _
      · exact h
    · split <;> exact h
  | backoff =>
    have hnonneg : 0 ≤ (backoff env mac).1.nBackOffCounter := by
      rw [backoff, Mac.backoffFailed]
      dsimp only
      split
      · split <;> exact h
      · split
        · split
          · rename_i hpos
            exact Int.le_of_lt hpos
          · exact Int.le_refl 0
        · split
          · exact Int.le_refl 0
          · exact h
    rw [handle, backoffEvent]
    split
    · have hkeeps : Keeps cfg (backoff env mac).1 _ := Keeps.sendToPhy env.now
      exact hnonneg.trans_eq hkeeps.counter.symm
    · exact hnonneg
  | sendMpdu =>
    have hkeeps : Keeps cfg { mac with eventId := { mac.eventId with sendMpdu := false } } _ := Keeps.sendToPhy env.now
    exact h.trans_eq hkeeps.counter.symm
  | macIn m =>
    rw [handle, Wlan.macIn]
    split
    · exact h
    · split
      · rw [sendBlockACK]
        split <;> exact h
      · exact h
  | ack => exact h.trans_eq (Keeps.continueTxop env []).counter.symm
  | blockAck back => exact h.trans_eq (Keeps.continueTxop env _).counter.symm
  | ackTimeOut => exact h.trans_eq (Keeps.ackTimeOut env).counter.symm
  | ctsTimeOut => exact h.trans_eq (Keeps.ctsTimeOut env).counter.symm
  | difsFailed => exact h
  | backoffPaused => exact h
  | txend => exact h
  | rts => exact h
  | cts => exact h

theorem window_handle (e : Event) :
    (handle cfg env e mac).1.nCWcurrent = mac.nCWcurrent ∨ (handle cfg env e mac).1.nCWcurrent = cfg.cwMin ∨
      (handle cfg env e mac).1.nCWcurrent = min ((mac.nCWcurrent * 2 + 1) % 2 ^ 32) cfg.cwMax := by
  cases e with
  | macOut packets =>
    have hkeeps : Keeps cfg mac (macOut cfg env packets mac).1 := Keeps.init env rfl (.inl rfl)
    exact hkeeps.window
  | cs =>
    refine .inl ?_
    rw [handle, Wlan.cs]
    split
    · split <;> rfl
    · rfl
  | difsEnd rand =>
    refine .inl ?_
    rw [handle, Wlan.difsEnd]
    split
    · rfl
    · split <;> rfl
  | backoff =>
    have hsame : (backoff env mac).1.nCWcurrent = mac.nCWcurrent := by
      rw [backoff, Mac.backoffFailed]
      split
      · dsimp only
        split <;> rfl
      · split
        · split <;> rfl
        · split
          · dsimp only
            split <;> rfl
          · rfl
    rw [handle, backoffEvent]
    split
    · have hkeeps : Keeps cfg (backoff env mac).1 _ := Keeps.sendToPhy env.now
      rw [← hsame]
      exact hkeeps.window
    · exact .inl hsame
  | sendMpdu =>
    have hkeeps : Keeps cfg { mac with eventId := { mac.eventId with sendMpdu := false } } _ := Keeps.sendToPhy env.now
    exact hkeeps.window
  | macIn m =>
    refine .inl ?_
    rw [handle, Wlan.macIn]
    split
    · rfl
    · dsimp only
      split
      · rw [sendBlockACK]
        split <;> rfl
      · rfl
  | ack => exact (Keeps.continueTxop env []).window
  | blockAck back => exact (Keeps.continueTxop env _).window
  | ackTimeOut => exact (Keeps.ackTimeOut env).window
  | ctsTimeOut => exact (Keeps.ctsTimeOut env).window
  | difsFailed => exact .inl rfl
  | backoffPaused => exact .inl rfl
  | txend => exact .inl rfl
  | rts => exact .inl rfl
  | cts => exact .inl rfl

/-- The window is between its bounds. -/
def Mac.InRange (cfg : MacConfig) (mac : Mac) : Prop := cfg.cwMin ≤ mac.nCWcurrent ∧ mac.nCWcurrent ≤ cfg.cwMax

theorem Mac.InRange.handle (hcfg : cfg.Valid) (e : Event) (h : mac.InRange cfg) :
    (handle cfg env e mac).1.InRange cfg := by
  obtain ⟨hlow, hhigh⟩ := h
  have hle := hcfg.cwMin_le
  have hlt := hcfg.cwMax_lt
  have hwindow : (Wlan.handle cfg env e mac).1.nCWcurrent = _ ∨ _ := window_handle e
  rw [InRange]
  obtain heq | heq | heq := hwindow
  · rw [heq]
    exact ⟨hlow, hhigh⟩
  · rw [heq]
    exact ⟨le_refl _, hle⟩
  · rw [heq]
    omega

/-- Nothing has been taken from the queue so far. -/
structure Unused (mac : Mac) : Prop where
  current : mac.currentProcessingPacket = []
  waiting : mac.waitingforCTS = []
  ack : mac.eventId.ackTimeOut = false
  cts : mac.eventId.ctsTimeout = false

/-- The first packets that are taken from the queue set the window. -/
theorem Unused.handle (hcfg : cfg.Valid) (e : Event) (h : Unused mac) (hp : e.isPending mac = true) :
    ((handle cfg env e mac).2.dequeued = [] ∧ Unused (handle cfg env e mac).1) ∨
      (handle cfg env e mac).1.InRange cfg := by
  cases e with
  | macOut packets =>
    obtain heq | ⟨-, hcur, -⟩ | ⟨-, -, hget, heq⟩ | ⟨-, -, -, heq⟩ :=
      init_cases cfg env { mac with qosList := mac.qosList ++ packets }
    · refine .inl ?_
      rw [Wlan.handle, macOut, heq]
      exact ⟨rfl, h.current, h.waiting, h.ack, h.cts⟩
    · exact absurd h.current hcur
    · refine .inl ?_
      rw [Wlan.handle, macOut, heq]
      exact ⟨rfl, hget, h.waiting, h.ack, h.cts⟩
    · refine .inr ?_
      rw [Wlan.handle, macOut, heq, Mac.InRange, nCWcurrent_rtsCtsInit]
      exact ⟨le_refl _, hcfg.cwMin_le⟩
  | cs =>
    refine .inl ⟨rfl, ?_⟩
    rw [Wlan.handle, Wlan.cs]
    split
    · split <;> exact ⟨h.current, h.waiting, h.ack, h.cts⟩
    · exact h
  | difsEnd rand =>
    refine .inl ⟨rfl, ?_⟩
    rw [Wlan.handle, Wlan.difsEnd]
    split
    · exact ⟨h.current, h.waiting, h.ack, h.cts⟩
    · split <;> exact ⟨h.current, h.waiting, h.ack, h.cts⟩
  | backoff =>
    have hsame : Unused (backoff env mac).1 := by
      rw [Wlan.backoff, Mac.backoffFailed]
      split
      · dsimp only
        split <;> exact ⟨h.current, h.waiting, h.ack, h.cts⟩
      · split
        · split <;> exact ⟨h.current, h.waiting, h.ack, h.cts⟩
        · split
          · dsimp only
            split <;> exact ⟨h.current, h.waiting, h.ack, h.cts⟩
          · exact h
    refine .inl ?_
    rw [Wlan.handle, backoffEvent, sendToPhy_nil hsame.current]
    split <;> exact ⟨rfl, hsame⟩
  | sendMpdu =>
    have hcur : ({ mac with eventId := { mac.eventId with sendMpdu := false } } : Mac).currentProcessingPacket = [] :=
      h.current
    refine .inl ?_
    rw [Wlan.handle, sendToPhy_nil hcur]
    exact ⟨rfl, h.current, h.waiting, h.ack, h.cts⟩
  | macIn m =>
    refine .inl ?_
    rw [Wlan.handle, Wlan.macIn]
    split
    · exact ⟨rfl, h⟩
    · dsimp only
      split
      · rw [sendBlockACK]
        split <;> exact ⟨rfl, h.current, h.waiting, h.ack, h.cts⟩
      · exact ⟨rfl, h.current, h.waiting, h.ack, h.cts⟩
  | cts | ctsTimeOut =>
    rw [Event.isPending, h.cts] at hp
    cases hp
  | ack | blockAck _ | ackTimeOut =>
    rw [Event.isPending, h.ack] at hp
    cases hp
  | difsFailed => exact .inl ⟨rfl, h.current, h.waiting, h.ack, h.cts⟩
  | backoffPaused => exact .inl ⟨rfl, h.current, h.waiting, h.ack, h.cts⟩
  | txend => exact .inl ⟨rfl, h.current, h.waiting, h.ack, h.cts⟩
  | rts => exact .inl ⟨rfl, h.current, h.waiting, h.ack, h.cts⟩

/-- What holds in every run. -/
structure Ranges (cfg : MacConfig) (s : Station) : Prop where
  counter : 0 ≤ s.mac.nBackOffCounter
  window : Unused s.mac ∧ s.hasDequeued = false ∨ s.mac.InRange cfg

theorem stationMachine_step {s s' : Station} {e : Event × Env} (h : (stationMachine cfg).step s e = some s') :
    e.1.isPending s.mac = true ∧ s'.mac = (handle cfg e.2 e.1 s.mac).1 ∧
      s'.sent = countSent (handle cfg e.2 e.1 s.mac).2 s.sent ∧
      s'.hasDequeued = (s.hasDequeued || !(handle cfg e.2 e.1 s.mac).2.dequeued.isEmpty) ∧
      (s.startsFresh = true → StartsFresh cfg (handle cfg e.2 e.1 s.mac) → s'.startsFresh = true) := by
  simp only [stationMachine, Option.ite_none_right_eq_some, Option.some.injEq] at h
  obtain ⟨hp, rfl⟩ := h
  refine ⟨hp, rfl, rfl, rfl, fun hs hfresh => ?_⟩
  rw [StartsFresh] at hfresh
  simp only [hs, Bool.true_and, Bool.or_eq_true, List.isEmpty_iff, Bool.and_eq_true, beq_iff_eq]
  by_cases hnil : (handle cfg e.2 e.1 s.mac).2.dequeued = []
  · exact .inl hnil
  · exact .inr (hfresh hnil)

theorem Ranges.of_reach (hcfg : cfg.Valid) {s : Station} (h : (stationMachine cfg).Reach s) : Ranges cfg s := by
  refine h.inv ?_ ?_
  · rintro s rfl
    exact ⟨Int.le_refl 0, .inl ⟨⟨rfl, rfl, rfl, rfl⟩, rfl⟩⟩
  · intro s e s' hinv _ hstep
    obtain ⟨hp, hmac, -, hdeq, -⟩ := stationMachine_step hstep
    constructor
    · rw [hmac]
      exact nBackOffCounter_handle _ hinv.counter
    · rw [hmac, hdeq]
      obtain ⟨hunused, hnone⟩ | hrange := hinv.window
      · obtain ⟨hnil, hkept⟩ | hset := hunused.handle hcfg e.1 hp
        · refine .inl ⟨hkept, ?_⟩
          rw [hnone, hnil]
          rfl
        · exact .inr hset
      · exact .inr (hrange.handle hcfg e.1)

/-! ## The retry discipline -/

/-- What holds in a run whose steps meet the condition. -/
structure Disciplined (cfg : MacConfig) (s : Station) : Prop where
  phase : Phase s.mac
  counts : Counts cfg s.sent s.mac
  startsFresh : s.startsFresh = true

theorem Disciplined.of_reach (hcfg : cfg.Valid) {s : Station}
    (h : (stationMachine cfg).ReachOn (fun s e => isDisciplined cfg s e = true) s) : Disciplined cfg s := by
  refine h.inv ?_ ?_
  · rintro s rfl
    exact ⟨Phase.start, Counts.of_frames_eq_nil (fun _ _ => Nat.zero_le _) rfl rfl, rfl⟩
  · rintro s ⟨e, env⟩ s' ⟨hphase, hcounts, hfresh⟩ hok hstep
    obtain ⟨hp, hmac, hsent, -, hstart⟩ := stationMachine_step hstep
    have ht : e.isTimely s.mac = true := by
      rw [isDisciplined, Bool.and_eq_true] at hok
      exact hok.1
    obtain ⟨hcounts', hfresh'⟩ := hcounts.handle hcfg s hphase e hp hok
    constructor
    · rw [hmac]
      exact hphase.handle cfg env e hp ht
    · rw [hmac, hsent]
      exact hcounts'
    · exact hstart hfresh hfresh'

/-- What is asked of a station in a run: what it has taken from the queue has started afresh, no frame has been sent more
often than its limit, the window is between its bounds once it has been set, and the counter is not negative. -/
structure RetryRules (cfg : MacConfig) (s : Station) : Prop where
  startsFresh : s.startsFresh = true
  sent_le : ∀ p, p.nControlDataType = .data → s.sent p ≤ cfg.retryLimit p.dPayload
  window : s.hasDequeued = true → s.mac.InRange cfg
  counter : 0 ≤ s.mac.nBackOffCounter

/-- **In a run whose steps all meet the condition the rules are kept**, and the window and the counter are in range in
any run. -/
theorem retryRules_of_disciplined (cfg : MacConfig) (hcfg : cfg.Valid) :
    (∀ s, (stationMachine cfg).Reach s →
      (s.hasDequeued = true → s.mac.InRange cfg) ∧ 0 ≤ s.mac.nBackOffCounter) ∧
    ∀ s, (stationMachine cfg).ReachOn (fun s e => isDisciplined cfg s e = true) s → RetryRules cfg s := by
  have hevery : ∀ s, (stationMachine cfg).Reach s →
      (s.hasDequeued = true → s.mac.InRange cfg) ∧ 0 ≤ s.mac.nBackOffCounter := by
    intro s h
    have hranges := Ranges.of_reach hcfg h
    refine ⟨fun hdeq => ?_, hranges.counter⟩
    exact hranges.window.resolve_left fun hun => by rw [hun.2] at hdeq; exact Bool.false_ne_true hdeq
  refine ⟨hevery, fun s h => ?_⟩
  have hinv := Disciplined.of_reach hcfg h
  obtain ⟨hwindow, hcounter⟩ := hevery s (h.mono fun _ _ _ => trivial)
  exact ⟨hinv.startsFresh, hinv.counts.bound, hwindow, hcounter⟩

/-- Frames of 100 bytes for one receiver. -/
def sampleFrame (id : ℕ) : Packet := ⟨id, .data, 2, false, 100, 0⟩

def sampleCategory : MacConfig where
  deviceId := 1
  dot11ShortRetryLimit := 7
  dot11LongRetryLimit := 4
  dot11RTSThreshold := 2347
  mediumAccessProtocol := .edcaf
  macAggregationStatus := false
  nNumberOfAggregatedPackets := 1
  cwMin := 15
  cwMax := 1023
  txopLimit := 3008
  msduLifeTime := 512000
  aSIFSTime := 16

/-- The channel access that ends with a transmission. -/
def sampleAccess (now : ℚ) : List (Event × Env) :=
  [.cs, .difsEnd ⟨0, by decide⟩, .backoff, .txend].map fun e => (e, ⟨now, true, true, true⟩)

/-- The first frame is sent twice, and the second one goes on in the same TXOP: it starts with the counter and the window
of the first one. -/
def carriedOver : List (Event × Env) :=
  (Event.macOut [sampleFrame 1, sampleFrame 2], ⟨0, true, true, true⟩) :: sampleAccess 100 ++
    (.ackTimeOut, ⟨200, true, true, true⟩) :: sampleAccess 300 ++ [(.ack, ⟨400, true, true, true⟩)]

/-- One frame of two is missing in a block ack, and the counter starts again with it: it is sent three times, the limit
being two. -/
def sentAgain : List (Event × Env) :=
  (Event.macOut [sampleFrame 1, sampleFrame 2], ⟨0, true, true, true⟩) :: sampleAccess 100 ++
    (.blockAck ⟨1, 0b01⟩, ⟨200, true, true, true⟩) :: sampleAccess 300 ++
    (.ackTimeOut, ⟨400, true, true, true⟩) :: sampleAccess 500

def sampleAggregating : MacConfig :=
  { sampleCategory with
    dot11ShortRetryLimit := 2, mediumAccessProtocol := .dcf, macAggregationStatus := true,
    nNumberOfAggregatedPackets := 64 }

/-- The rules are broken in a run in which a TXOP goes on, and in one in which a block ack leaves a frame. -/
theorem retryRules_broken :
    (∃ s, (stationMachine sampleCategory).Reach s ∧ ¬ RetryRules sampleCategory s) ∧
      ∃ s, (stationMachine sampleAggregating).Reach s ∧ ¬ RetryRules sampleAggregating s := by
  constructor
  · obtain ⟨s, hreach, hfresh⟩ :=
      Machine.Reach.exists_of_exec (P := fun s : Station => s.startsFresh = false) carriedOver
        (Machine.ReachOn.init (M := stationMachine sampleCategory) rfl) (by decide +kernel)
    exact ⟨s, hreach, fun h => by rw [h.startsFresh] at hfresh; cases hfresh⟩
  · obtain ⟨s, hreach, hsent⟩ :=
      Machine.Reach.exists_of_exec (P := fun s : Station => s.sent (sampleFrame 2) = 3) sentAgain
        (Machine.ReachOn.init (M := stationMachine sampleAggregating) rfl) (by decide)
    refine ⟨s, hreach, fun h => ?_⟩
    have hle := h.sent_le (sampleFrame 2) rfl
    rw [hsent] at hle
    exact absurd hle (by decide)

theorem sampleCategory_valid : sampleCategory.Valid := ⟨by decide, by decide, by decide, by decide⟩

/-- A frame that is sent twice and then acknowledged, and a second one after it, with a back-off of its own. -/
def inOrder : List (Event × Env) :=
  (Event.macOut [sampleFrame 1, sampleFrame 2], ⟨0, true, true, true⟩) :: sampleAccess 100 ++
    (.ackTimeOut, ⟨200, true, true, true⟩) :: sampleAccess 300 ++
    (.ack, ⟨3400, true, true, true⟩) :: sampleAccess 3500

theorem retryRules_inOrder :
    ∃ s, (stationMachine sampleCategory).ReachOn (fun s e => isDisciplined sampleCategory s e = true) s ∧
      (s.sent (sampleFrame 1) = 2 ∧ s.sent (sampleFrame 2) = 1) ∧ RetryRules sampleCategory s := by
  obtain ⟨s, hreach, hsent⟩ :=
    Machine.ReachOn.exists_of_execOn (M := stationMachine sampleCategory)
      (fun s e => isDisciplined sampleCategory s e = true)
      (P := fun s : Station => s.sent (sampleFrame 1) = 2 ∧ s.sent (sampleFrame 2) = 1) inOrder (.init rfl)
      (by decide +kernel)
  exact ⟨s, hreach, hsent, (retryRules_of_disciplined sampleCategory sampleCategory_valid).2 s hreach⟩

end NetSim.Wlan
