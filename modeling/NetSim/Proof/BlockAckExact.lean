import NetSim.Proof.AmpduStation

/-!
# Block acks are exact

In a run whose steps meet the condition every block ack has the bits of the frames of the A-MPDU that were received, and
the sender keeps exactly the others.

* `NetInv`: a record at a receiver is of an A-MPDU that is still in the air, and has the bits of what was received of it;
  a station waits for the acknowledgement of what is in the air.
* `blockAck_exact`: the result for runs.
* `blockAck_wrong`: what happens otherwise.
-/

namespace NetSim.Wlan

variable {cfgs : ℕ → MacConfig} {s : AmpduNet}

structure NetInv (cfgs : ℕ → MacConfig) (s : AmpduNet) : Prop where
  phase : ∀ d, Phase (s.mac d)
  traffic : ∀ d, Traffic (s.mac d)
  opened : ∀ d, s.air d ≠ [] ∨ s.blockAcks d ≠ none →
    (s.mac d).eventId.ackTimeOut = true ∧ (s.mac d).currentProcessingPacket = s.ampdu d
  air : ∀ d, s.air d ≠ [] → ∃ k, s.air d = addMacHeaders (cfgs d) (k + 1) ((s.ampdu d).drop k)
  ack : ∀ d b, s.blockAcks d = some b → s.air d = [] ∧ bitIsSet64 b.bitMap 0 = true
  record : ∀ r b, (s.mac r).blockAckPacket = some b →
    ∃ d, s.air d ≠ [] ∧ s.received d ≠ [] ∧ receiverOf (s.ampdu d) = r
  held : ∀ d, s.air d ≠ [] → s.received d ≠ [] →
    (s.mac (receiverOf (s.ampdu d))).blockAckPacket = some ⟨d, bitsOf (s.received d)⟩

/-! ## The events of a station -/

/-- An event of a station that has no exchange going on. -/
theorem NetInv.handOver (h : NetInv cfgs s) {d : ℕ} {r : Mac × Out} (hair : s.air d = [])
    (hack : s.blockAcks d = none) (hph : Phase r.1) (htr : Traffic r.1) (hho : HandsOver (cfgs d) r)
    (hrec : r.1.blockAckPacket = (s.mac d).blockAckPacket) : NetInv cfgs (s.handOver d r) := by
  have hrecord : ∀ u, ((s.handOver d r).mac u).blockAckPacket = (s.mac u).blockAckPacket := by
    intro u
    by_cases hu : u = d
    · subst hu
      simp [AmpduNet.handOver, hrec]
    · simp [AmpduNet.handOver, hu]
  -- what the other stations have in the air is not touched
  have hother : ∀ u, u ≠ d → (s.handOver d r).air u = s.air u ∧ (s.handOver d r).ampdu u = s.ampdu u ∧
      (s.handOver d r).received u = s.received u := by
    intro u hu
    cases hdata : r.2.hasData <;> simp [AmpduNet.handOver, hdata, hu]
  have hnew : (s.handOver d r).air d ≠ [] → ∃ list, (s.handOver d r).air d = addMacHeaders (cfgs d) 1 list ∧
      (s.handOver d r).ampdu d = list ∧ (s.handOver d r).received d = [] ∧
      r.1.currentProcessingPacket = list ∧ r.1.eventId.ackTimeOut = true := by
    intro hne
    cases hdata : r.2.hasData with
    | false => simp [AmpduNet.handOver, hdata, hair] at hne
    | true =>
      obtain ⟨list, -, hout, hcur, hpend⟩ := hho hdata
      refine ⟨list, ?_, ?_, ?_, hcur, hpend⟩
      · simp [AmpduNet.handOver, hdata, hout]
      · simp [AmpduNet.handOver, hdata, hout, addMacHeaders_map]
      · simp [AmpduNet.handOver, hdata]
  constructor
  · intro u
    by_cases hu : u = d
    · subst hu
      simpa [AmpduNet.handOver] using hph
    · simpa [AmpduNet.handOver, hu] using h.phase u
  · intro u
    by_cases hu : u = d
    · subst hu
      simpa [AmpduNet.handOver] using htr
    · simpa [AmpduNet.handOver, hu] using h.traffic u
  · intro u hopen
    by_cases hu : u = d
    · subst hu
      have hne : (s.handOver u r).air u ≠ [] := hopen.resolve_right fun hne => hne hack
      obtain ⟨list, -, hampdu, -, hcur, hpend⟩ := hnew hne
      have hmac : (s.handOver u r).mac u = r.1 := Function.update_self ..
      rw [hmac, hampdu]
      exact ⟨hpend, hcur⟩
    · obtain ⟨hair', hampdu, -⟩ := hother u hu
      have hmac : (s.handOver d r).mac u = s.mac u := Function.update_of_ne hu ..
      rw [hair'] at hopen
      rw [hmac, hampdu]
      exact h.opened u hopen
  · intro u hne
    by_cases hu : u = d
    · subst hu
      obtain ⟨list, hlist, hampdu, -⟩ := hnew hne
      exact ⟨0, by rw [hlist, hampdu]; rfl⟩
    · obtain ⟨hair', hampdu, -⟩ := hother u hu
      rw [hair'] at hne ⊢
      rw [hampdu]
      exact h.air u hne
  · intro u b hb
    have hu : u ≠ d := by
      rintro rfl
      have hb' : s.blockAcks u = some b := hb
      rw [hack] at hb'
      cases hb'
    rw [(hother u hu).1]
    exact h.ack u b hb
  · intro u b hb
    rw [hrecord] at hb
    obtain ⟨v, hair', hreceived, hrecv⟩ := h.record u b hb
    have hv : v ≠ d := fun hv => hair' (hv ▸ hair)
    obtain ⟨h1, h2, h3⟩ := hother v hv
    exact ⟨v, by rw [h1]; exact hair', by rw [h3]; exact hreceived, by rw [h2]; exact hrecv⟩
  · intro u hne hreceived
    have hu : u ≠ d := by
      rintro rfl
      obtain ⟨-, -, -, hnil, -⟩ := hnew hne
      exact hreceived hnil
    obtain ⟨h1, h2, h3⟩ := hother u hu
    rw [h1] at hne
    rw [h3] at hreceived ⊢
    rw [hrecord, h2]
    exact h.held u hne hreceived

/-- An event of a station that waits for the end of an exchange. -/
theorem NetInv.update (h : NetInv cfgs s) {d : ℕ} {mac : Mac} (hph : Phase mac) (htr : Traffic mac)
    (hcur : mac.currentProcessingPacket = (s.mac d).currentProcessingPacket)
    (hpend : (s.mac d).eventId.ackTimeOut = true → mac.eventId.ackTimeOut = true)
    (hrec : mac.blockAckPacket = (s.mac d).blockAckPacket) :
    NetInv cfgs { s with mac := Function.update s.mac d mac } := by
  have hrecord : ∀ u, (Function.update s.mac d mac u).blockAckPacket = (s.mac u).blockAckPacket := by
    intro u
    by_cases hu : u = d
    · subst hu
      rw [Function.update_self, hrec]
    · rw [Function.update_of_ne hu]
  constructor
  · intro u
    by_cases hu : u = d
    · subst hu
      simpa using hph
    · simpa [hu] using h.phase u
  · intro u
    by_cases hu : u = d
    · subst hu
      simpa using htr
    · simpa [hu] using h.traffic u
  · intro u hopen
    obtain ⟨h1, h2⟩ := h.opened u hopen
    by_cases hu : u = d
    · subst hu
      show (Function.update s.mac u mac u).eventId.ackTimeOut = true ∧
        (Function.update s.mac u mac u).currentProcessingPacket = s.ampdu u
      rw [Function.update_self]
      exact ⟨hpend h1, hcur.trans h2⟩
    · show (Function.update s.mac d mac u).eventId.ackTimeOut = true ∧
        (Function.update s.mac d mac u).currentProcessingPacket = s.ampdu u
      rw [Function.update_of_ne hu]
      exact ⟨h1, h2⟩
  · exact h.air
  · exact h.ack
  · intro u b hb
    have hb' : (Function.update s.mac d mac u).blockAckPacket = some b := hb
    rw [hrecord] at hb'
    exact h.record u b hb'
  · intro u hne hreceived
    exact (hrecord _).trans (h.held u hne hreceived)

/-! ## Frames -/

/-- The next frame of a station in the air. -/
theorem NetInv.next_frame (h : NetInv cfgs s) (hcfgs : AreStations cfgs) {d : ℕ} {m : Mpdu} {rest : List Mpdu}
    (hair : s.air d = m :: rest) :
    m.packet.IsSingle ∧ m.packet.nReceiverId = receiverOf (s.ampdu d) ∧ m.nTransmitterId = d ∧
      (m.moreFragment = false ↔ rest = []) ∧
      (rest ≠ [] → ∃ k, rest = addMacHeaders (cfgs d) (k + 1) ((s.ampdu d).drop k)) := by
  have hne : s.air d ≠ [] := by
    rw [hair]
    exact List.cons_ne_nil _ _
  obtain ⟨k, hk⟩ := h.air d hne
  obtain ⟨hpend, hcur⟩ := h.opened d (.inl hne)
  obtain ⟨-, -, hw, -⟩ := (h.phase d).pending.of_ackTimeOut hpend
  have hframes : (s.mac d).frames = s.ampdu d := (frames_of_waiting_eq_nil hw).trans hcur
  have hampdu : IsAmpdu (s.ampdu d) := hframes ▸ (h.traffic d).frames
  cases hdrop : (s.ampdu d).drop k with
  | nil =>
    rw [hdrop, hair] at hk
    cases hk
  | cons p list =>
    rw [hdrop, hair, addMacHeaders] at hk
    obtain ⟨rfl, hrest⟩ := List.cons.inj hk
    have hmem : p ∈ s.ampdu d := List.drop_subset k _ (by rw [hdrop]; exact List.mem_cons_self)
    refine ⟨hampdu.single p hmem, ?_, hcfgs.deviceId d, ?_, fun _ => ⟨k + 1, ?_⟩⟩
    · cases hlist : s.ampdu d with
      | nil =>
        rw [hlist] at hmem
        cases hmem
      | cons f l =>
        have hf : f ∈ s.ampdu d := by
          rw [hlist]
          exact List.mem_cons_self
        exact hampdu.receiver p hmem f hf
    · rw [hrest]
      cases list <;> simp [addMacHeaders]
    · rw [hrest, ← List.drop_drop, hdrop]
      rfl

/-- What a receiver does with a frame of an A-MPDU. -/
theorem macIn_single {cfg : MacConfig} (hcfg : cfg.macAggregationStatus = true) {m : Mpdu} (hm : m.packet.isGroup = false)
    (mac : Mac) : macIn cfg m mac = sendBlockACK m { mac with currMacState := .txingAck } := by
  rw [macIn, hm, if_neg Bool.false_ne_true]
  exact if_pos hcfg

theorem macIn_kept (cfg : MacConfig) (m : Mpdu) (mac : Mac) :
    (macIn cfg m mac).1.currentProcessingPacket = mac.currentProcessingPacket ∧
      (macIn cfg m mac).1.eventId = mac.eventId := by
  rw [macIn]
  split
  · exact ⟨rfl, rfl⟩
  · dsimp only
    split
    · rw [sendBlockACK]
      split <;> exact ⟨rfl, rfl⟩
    · exact ⟨rfl, rfl⟩

/-- **A frame reaches its receiver**: the record then has the bits of what was received, and so has the block ack. -/
theorem NetInv.arrive (h : NetInv cfgs s) (hcfgs : AreStations cfgs) {d : ℕ} {m : Mpdu} {rest : List Mpdu}
    (hair : s.air d = m :: rest) (ht : (Event.macIn m).isTimely (s.mac m.packet.nReceiverId) = true)
    (hrec : (s.mac m.packet.nReceiverId).blockAckPacket = none ∨ s.received d ≠ []) :
    NetInv cfgs (s.arrive cfgs d m rest) ∧
      ((macIn (cfgs m.packet.nReceiverId) m (s.mac m.packet.nReceiverId)).2.blockAck.all
        (BlockAck.isExact d ((m.sequenceNumber - 1) :: s.received d))) = true := by
  obtain ⟨hsingle, hrecv, htrans, hmore, hrest⟩ := h.next_frame hcfgs hair
  have hne : s.air d ≠ [] := by
    rw [hair]
    exact List.cons_ne_nil _ _
  obtain ⟨hpend, hcur⟩ := h.opened d (.inl hne)
  set r := m.packet.nReceiverId with hr
  set i := m.sequenceNumber - 1 with hi
  -- the record, if there is one, is of this A-MPDU
  have hheld : s.received d ≠ [] → (s.mac r).blockAckPacket = some ⟨d, bitsOf (s.received d)⟩ := by
    intro hreceived
    rw [hrecv]
    exact h.held d hne hreceived
  have hpacket : setBlockackBitmap ((s.mac r).blockAckPacket.getD ⟨m.nTransmitterId, 0#64⟩) m =
      ⟨d, bitsOf (i :: s.received d)⟩ := by
    by_cases hreceived : s.received d = []
    · have hnone := hrec.resolve_right fun hne => hne hreceived
      rw [hnone, hreceived, htrans]
      rfl
    · rw [hheld hreceived]
      rfl
  have hothers : ∀ u, u ≠ d → s.air u ≠ [] → s.received u ≠ [] → receiverOf (s.ampdu u) ≠ r := by
    intro u hu hair' hreceived' heq
    have hsome := h.held u hair' hreceived'
    rw [heq] at hsome
    obtain hnone | hreceived := hrec
    · rw [hnone] at hsome
      cases hsome
    · rw [hheld hreceived] at hsome
      cases hsome
      exact hu rfl
  have hmac := macIn_single (hcfgs.macAggregationStatus r) hsingle.1 (s.mac r)
  obtain ⟨hkept, hevent⟩ := macIn_kept (cfgs r) m (s.mac r)
  have hphase : Phase (macIn (cfgs r) m (s.mac r)).1 := (h.phase r).macIn (cfgs r) m ht
  have htraffic : Traffic (macIn (cfgs r) m (s.mac r)).1 :=
    (h.traffic r).of_sublist (fun p hp => by rw [hmac, sendBlockACK] at hp; split at hp <;> exact hp)
      (by rw [hmac, sendBlockACK]; split <;> exact List.Sublist.refl _)
  have hother : ∀ u, u ≠ d → (s.arrive cfgs d m rest).air u = s.air u ∧
      (s.arrive cfgs d m rest).received u = s.received u := by
    intro u hu
    simp [AmpduNet.arrive, hu]
  have hself : (s.arrive cfgs d m rest).air d = rest ∧
      (s.arrive cfgs d m rest).received d = i :: s.received d := by
    simp [AmpduNet.arrive, ← hi]
  have hmacOf : ∀ u, u ≠ r → (s.arrive cfgs d m rest).mac u = s.mac u := fun u hu => Function.update_of_ne hu ..
  have hmacSelf : (s.arrive cfgs d m rest).mac r = (macIn (cfgs r) m (s.mac r)).1 := Function.update_self ..
  have hphases : ∀ u, Phase ((s.arrive cfgs d m rest).mac u) := by
    intro u
    by_cases hu : u = r
    · rw [hu, hmacSelf]
      exact hphase
    · rw [hmacOf u hu]
      exact h.phase u
  have htraffics : ∀ u, Traffic ((s.arrive cfgs d m rest).mac u) := by
    intro u
    by_cases hu : u = r
    · rw [hu, hmacSelf]
      exact htraffic
    · rw [hmacOf u hu]
      exact h.traffic u
  have hwaits : ∀ u, (s.mac u).eventId.ackTimeOut = true ∧ (s.mac u).currentProcessingPacket = s.ampdu u →
      ((s.arrive cfgs d m rest).mac u).eventId.ackTimeOut = true ∧
        ((s.arrive cfgs d m rest).mac u).currentProcessingPacket = (s.arrive cfgs d m rest).ampdu u := by
    rintro u ⟨h1, h2⟩
    by_cases hu : u = r
    · rw [hu] at h1 h2 ⊢
      rw [hmacSelf, hkept, hevent]
      exact ⟨h1, h2⟩
    · rw [hmacOf u hu]
      exact ⟨h1, h2⟩
  cases hfrag : m.moreFragment with
  | true =>
    have hnext : rest ≠ [] := fun hnil => by
      rw [hmore.2 hnil] at hfrag
      cases hfrag
    rw [sendBlockACK, hfrag, if_pos rfl] at hmac
    have hacks : (s.arrive cfgs d m rest).blockAcks = s.blockAcks := by
      rw [AmpduNet.arrive, ← hr, hmac]
      rfl
    have hsome : ((s.arrive cfgs d m rest).mac r).blockAckPacket = some ⟨d, bitsOf (i :: s.received d)⟩ := by
      rw [hmacSelf, hmac, ← hpacket]
    refine ⟨⟨hphases, htraffics, ?_, ?_, ?_, ?_, ?_⟩, by rw [hmac]; rfl⟩
    · intro u hopen
      rw [hacks] at hopen
      refine hwaits u (h.opened u ?_)
      by_cases hu : u = d
      · rw [hu]
        exact .inl hne
      · rw [(hother u hu).1] at hopen
        exact hopen
    · intro u hair'
      by_cases hu : u = d
      · rw [hu, hself.1]
        exact hrest hnext
      · rw [(hother u hu).1] at hair' ⊢
        exact h.air u hair'
    · intro u b hb
      rw [hacks] at hb
      obtain ⟨hair', hbit⟩ := h.ack u b hb
      have hu : u ≠ d := fun hu => hne (hu ▸ hair')
      rw [(hother u hu).1]
      exact ⟨hair', hbit⟩
    · intro u b hb
      by_cases hu : u = r
      · refine ⟨d, by rw [hself.1]; exact hnext, by rw [hself.2]; exact List.cons_ne_nil _ _, ?_⟩
        rw [hu]
        exact hrecv.symm
      · rw [hmacOf u hu] at hb
        obtain ⟨v, hair', hreceived, hv⟩ := h.record u b hb
        have hvd : v ≠ d := by
          rintro rfl
          exact hu (hv.symm.trans hrecv.symm)
        exact ⟨v, by rw [(hother v hvd).1]; exact hair', by rw [(hother v hvd).2]; exact hreceived, hv⟩
    · intro u hair' hreceived
      by_cases hu : u = d
      · have hr' : receiverOf ((s.arrive cfgs d m rest).ampdu u) = r := by
          rw [hu]
          exact hrecv.symm
        rw [hr', hsome, hu, hself.2]
      · rw [(hother u hu).1] at hair'
        rw [(hother u hu).2] at hreceived ⊢
        have hur : receiverOf ((s.arrive cfgs d m rest).ampdu u) ≠ r := hothers u hu hair' hreceived
        rw [hmacOf _ hur]
        exact h.held u hair' hreceived
  | false =>
    have hlast : rest = [] := hmore.1 hfrag
    rw [sendBlockACK, hfrag, if_neg Bool.false_ne_true] at hmac
    have hout : (macIn (cfgs r) m (s.mac r)).2.blockAck =
        if bitIsSet64 (bitsOf (i :: s.received d)) 0 then some ⟨d, bitsOf (i :: s.received d)⟩ else none := by
      rw [hmac]
      dsimp only
      rw [hpacket]
    have hnone : ((s.arrive cfgs d m rest).mac r).blockAckPacket = none := by
      rw [hmacSelf, hmac]
    have hacks : ∀ u b, (s.arrive cfgs d m rest).blockAcks u = some b →
        (u = d ∧ bitIsSet64 b.bitMap 0 = true) ∨ s.blockAcks u = some b := by
      intro u b hb
      rw [AmpduNet.arrive, ← hr] at hb
      dsimp only at hb
      rw [hout] at hb
      by_cases hbit : bitIsSet64 (bitsOf (i :: s.received d)) 0 = true
      · rw [if_pos hbit, Option.elim_some] at hb
        by_cases hu : u = d
        · subst hu
          rw [Function.update_self] at hb
          cases hb
          exact .inl ⟨rfl, hbit⟩
        · rw [Function.update_of_ne hu] at hb
          exact .inr hb
      · rw [if_neg hbit, Option.elim_none] at hb
        exact .inr hb
    refine ⟨⟨hphases, htraffics, ?_, ?_, ?_, ?_, ?_⟩, ?_⟩
    · intro u hopen
      refine hwaits u ?_
      by_cases hu : u = d
      · rw [hu]
        exact ⟨hpend, hcur⟩
      · refine h.opened u (hopen.imp (fun hair' => ?_) fun hack' => ?_)
        · rw [(hother u hu).1] at hair'
          exact hair'
        · obtain ⟨b, hb⟩ := Option.ne_none_iff_exists'.1 hack'
          obtain ⟨hud, -⟩ | hb := hacks u b hb
          · exact absurd hud hu
          · rw [hb]
            exact Option.some_ne_none b
    · intro u hair'
      by_cases hu : u = d
      · rw [hu, hself.1] at hair'
        exact absurd hlast hair'
      · rw [(hother u hu).1] at hair' ⊢
        exact h.air u hair'
    · intro u b hb
      by_cases hu : u = d
      · obtain ⟨-, hbit⟩ | hb := hacks u b hb
        · rw [hu, hself.1]
          exact ⟨hlast, hbit⟩
        · rw [hu] at hb
          exact absurd (h.ack d b hb).1 hne
      · obtain ⟨hud, -⟩ | hb := hacks u b hb
        · exact absurd hud hu
        · rw [(hother u hu).1]
          exact h.ack u b hb
    · intro u b hb
      by_cases hu : u = r
      · rw [hu, hnone] at hb
        cases hb
      · rw [hmacOf u hu] at hb
        obtain ⟨v, hair', hreceived, hv⟩ := h.record u b hb
        have hvd : v ≠ d := by
          rintro rfl
          exact hu (hv.symm.trans hrecv.symm)
        exact ⟨v, by rw [(hother v hvd).1]; exact hair', by rw [(hother v hvd).2]; exact hreceived, hv⟩
    · intro u hair' hreceived
      by_cases hu : u = d
      · rw [hu, hself.1] at hair'
        exact absurd hlast hair'
      · rw [(hother u hu).1] at hair'
        rw [(hother u hu).2] at hreceived ⊢
        have hur : receiverOf ((s.arrive cfgs d m rest).ampdu u) ≠ r := hothers u hu hair' hreceived
        rw [hmacOf _ hur]
        exact h.held u hair' hreceived
    · rw [hout]
      split
      · exact isExact_bitsOf d _
      · rfl

/-- **The next frame of a station is lost.** -/
theorem NetInv.lose (h : NetInv cfgs s) (hcfgs : AreStations cfgs) {d : ℕ} {m : Mpdu} {rest : List Mpdu}
    (hair : s.air d = m :: rest) (hlast : m.moreFragment = true ∨ s.received d = []) :
    NetInv cfgs { s with air := Function.update s.air d rest } := by
  obtain ⟨-, -, -, hmore, hrest⟩ := h.next_frame hcfgs hair
  have hne : s.air d ≠ [] := by
    rw [hair]
    exact List.cons_ne_nil _ _
  -- what was received of an A-MPDU is not lost sight of: it is not the last frame that is lost
  have hkeep : s.received d ≠ [] → rest ≠ [] := by
    intro hreceived hnil
    have hfrag := hlast.resolve_right hreceived
    rw [hmore.2 hnil] at hfrag
    cases hfrag
  have hother : ∀ u, Function.update s.air d rest u ≠ [] → s.air u ≠ [] := by
    intro u hair'
    by_cases hu : u = d
    · rw [hu]
      exact hne
    · rwa [Function.update_of_ne hu] at hair'
  refine ⟨h.phase, h.traffic, fun u hopen => h.opened u (hopen.imp_left (hother u)), ?_, ?_, ?_, ?_⟩
  · intro u hair'
    have hair' : Function.update s.air d rest u ≠ [] := hair'
    show ∃ k, Function.update s.air d rest u = _
    by_cases hu : u = d
    · subst hu
      rw [Function.update_self] at hair' ⊢
      exact hrest hair'
    · rw [Function.update_of_ne hu] at hair' ⊢
      exact h.air u hair'
  · intro u b hb
    obtain ⟨hnil, hbit⟩ := h.ack u b hb
    have hu : u ≠ d := fun hu => hne (hu ▸ hnil)
    exact ⟨(Function.update_of_ne hu ..).trans hnil, hbit⟩
  · intro u b hb
    obtain ⟨v, hair', hreceived, hv⟩ := h.record u b hb
    refine ⟨v, ?_, hreceived, hv⟩
    show Function.update s.air d rest v ≠ []
    by_cases hvd : v = d
    · subst hvd
      rw [Function.update_self]
      exact hkeep hreceived
    · rw [Function.update_of_ne hvd]
      exact hair'
  · intro u hair' hreceived
    exact h.held u (hother u hair') hreceived

/-! ## Block acks -/

/-- The block ack for a station is no longer on its way. -/
theorem NetInv.withoutAck (h : NetInv cfgs s) (d : ℕ) (kept : Bool) :
    NetInv cfgs { s with blockAcks := Function.update s.blockAcks d none, keptFrames := kept } := by
  have hsome : ∀ u, Function.update s.blockAcks d none u ≠ none → s.blockAcks u ≠ none := by
    intro u hu
    by_cases hud : u = d
    · subst hud
      rw [Function.update_self] at hu
      exact absurd rfl hu
    · rwa [Function.update_of_ne hud] at hu
  refine ⟨h.phase, h.traffic, fun u hopen => h.opened u (hopen.imp_right (hsome u)), h.air, ?_, h.record, h.held⟩
  intro u b hb
  have hb : Function.update s.blockAcks d none u = some b := hb
  by_cases hud : u = d
  · subst hud
    rw [Function.update_self] at hb
    cases hb
  · rw [Function.update_of_ne hud] at hb
    exact h.ack u b hb

theorem frames_init {cfg : MacConfig} {env : Env} {mac : Mac} (hc : Contents mac) :
    ((init cfg env mac).1.frames = mac.frames) ∨
      (mac.currentProcessingPacket = [] ∧ ∀ p ∈ (init cfg env mac).1.frames, p ∈ mac.qosList) := by
  obtain heq | ⟨-, -, heq⟩ | ⟨-, hcur, hget, heq⟩ | ⟨-, hcur, -, heq⟩ := init_cases cfg env mac
  · rw [heq]
    exact .inl rfl
  · rw [heq]
    exact .inl (frames_rtsCtsInit cfg hc)
  · rw [heq]
    have hw : (mac.dequeue cfg env.now).waitingforCTS = [] := hc.waiting_eq_nil hcur
    refine .inr ⟨hcur, fun p hp => ?_⟩
    rw [frames_of_waiting_eq_nil hw] at hp
    exact getFromQueue_mem (Or.inl hp)
  · rw [heq]
    have hw := hc.waiting_eq_nil hcur
    have hcontents : Contents { mac.dequeue cfg env.now with nCWcurrent := cfg.cwMin } :=
      (hc.dequeue cfg env.now hw).congr rfl rfl rfl
    have hframes : ({ mac.dequeue cfg env.now with nCWcurrent := cfg.cwMin } : Mac).frames =
        (getFromQueue cfg env.now mac.qosList).1 := if_pos hw
    refine .inr ⟨hcur, fun p hp => ?_⟩
    rw [frames_rtsCtsInit cfg hcontents, hframes] at hp
    exact getFromQueue_mem (Or.inl hp)

theorem isKept_of_eq {bitMap : BitVec 64} {list qosList frames : List Packet}
    (h : frames = clearFrames bitMap list) : isKept bitMap list qosList frames = true := by
  rw [isKept]
  split
  · rename_i hnil
    rw [h, hnil]
    rfl
  · exact decide_eq_true h

theorem isKept_of_nil {bitMap : BitVec 64} {list qosList frames : List Packet} (h : clearFrames bitMap list = [])
    (hmem : ∀ p ∈ frames, p ∈ qosList) : isKept bitMap list qosList frames = true := by
  rw [isKept, if_pos h, List.all_eq_true]
  exact fun p hp => decide_eq_true (hmem p hp)

/-- **A station keeps the frames whose bit is clear.** -/
theorem isKept_processBlockAck {cfg : MacConfig} {env : Env} {mac : Mac} (hph : Phase mac) (htr : Traffic mac)
    (hp : mac.eventId.ackTimeOut = true) {back : BlockAck} (hbit : bitIsSet64 back.bitMap 0 = true)
    (hok : clearFrames back.bitMap mac.currentProcessingPacket = [] ∨ edcafIsTxopTimerSet cfg env.now mac = false ∨
      (getFromQueue cfg env.now mac.qosList).1 = []) :
    isKept back.bitMap mac.currentProcessingPacket mac.qosList (processBlockAck cfg env back mac).1.frames = true := by
  obtain ⟨he, -, hw, -⟩ := hph.pending.of_ackTimeOut hp
  have hframes : mac.frames = mac.currentProcessingPacket := frames_of_waiting_eq_nil hw
  have hlen : mac.currentProcessingPacket.length ≤ 64 := hframes ▸ htr.frames.length_le
  have hwalk := walkBitMap_eq_clearFrames hbit hlen
  rw [processBlockAck, hwalk]
  obtain ⟨-, -, heq⟩ | ⟨hset, hget, heq⟩ | ⟨-, heq⟩ :=
    continueTxop_cases cfg env (clearFrames back.bitMap mac.currentProcessingPacket) mac
  · rw [heq]
    exact isKept_of_eq (if_pos hw)
  · rw [heq]
    have hnil : clearFrames back.bitMap mac.currentProcessingPacket = [] := by
      obtain hnil | hset' | hget' := hok
      · exact hnil
      · rw [hset] at hset'
        cases hset'
      · exact absurd hget' hget
    obtain ⟨q, list', hcur⟩ := List.exists_cons_of_ne_nil hget
    have hcur' : ((mac.acknowledged (clearFrames back.bitMap mac.currentProcessingPacket)).dequeue
        cfg env.now).currentProcessingPacket = q :: list' := hcur
    refine isKept_of_nil hnil fun p hp => ?_
    rw [sendToPhy_cons hcur'] at hp
    have hframes' : (((mac.acknowledged (clearFrames back.bitMap mac.currentProcessingPacket)).dequeue
        cfg env.now).transmit cfg env.now q).frames = _ := if_pos hw
    have hp' : p ∈ (((mac.acknowledged (clearFrames back.bitMap mac.currentProcessingPacket)).dequeue
        cfg env.now).transmit cfg env.now q).frames := hp
    rw [hframes'] at hp'
    rw [Mac.transmit] at hp'
    dsimp only at hp'
    split at hp'
    · cases hp'
    · exact getFromQueue_mem (Or.inl hp')
  · rw [heq]
    have hc : Contents { edcafUnsetTxopTime cfg (mac.acknowledged (clearFrames back.bitMap mac.currentProcessingPacket))
        with nRetryCount := 0 } :=
      Contents.of_current hph.contents.queue hw fun p hp =>
        hph.contents.current hw p ((clearFrom_sublist _ _ 0).subset hp)
    have hinit : (init cfg env _).1.frames = _ ∨ _ := frames_init hc
    obtain hsame | ⟨hnil, hmem⟩ := hinit
    · exact isKept_of_eq (hsame.trans (if_pos hw))
    · exact isKept_of_nil hnil hmem

/-! ## Runs -/

/-- An event of a station, other than the end of an exchange. -/
theorem NetInv.station (h : NetInv cfgs s) (hcfgs : AreStations cfgs) {d : ℕ} {e : Event} {env : Env}
    (hp : e.isPending (s.mac d) = true) (hlocal : e.isLocal = true)
    (hclosed : e = .ackTimeOut → s.air d = [] ∧ s.blockAcks d = none) (ht : e.isTimely (s.mac d) = true)
    (harr : ∀ packets, e = .macOut packets → ∀ p ∈ packets, p.IsSingle) :
    NetInv cfgs (s.handOver d (handle (cfgs d) env e (s.mac d))) := by
  have hph : Phase (handle (cfgs d) env e (s.mac d)).1 := (h.phase d).handle (cfgs d) env e hp ht
  have htr : Traffic (handle (cfgs d) env e (s.mac d)).1 :=
    (h.traffic d).handle (hcfgs.aggregated d) (h.phase d) e hp harr
  have hdata : ∀ m, e ≠ .macIn m := by
    rintro m rfl
    cases hlocal
  have hrec : (handle (cfgs d) env e (s.mac d)).1.blockAckPacket = _ := blockAckPacket_handle (h.phase d) e hp hdata
  by_cases hopen : s.air d = [] ∧ s.blockAcks d = none
  · exact h.handOver hopen.1 hopen.2 hph htr (handsOver_handle (hcfgs.aggregated d) (h.traffic d) (h.phase d) e hp) hrec
  · -- while frames or a block ack are on their way the frames in process stay what they are
    have hne : e ≠ .ackTimeOut := fun he => hopen (hclosed he)
    have hwait : s.air d ≠ [] ∨ s.blockAcks d ≠ none := by
      by_contra hnot
      rw [not_or, not_not, not_not] at hnot
      exact hopen hnot
    obtain ⟨hcur, hack, hnodata⟩ : _ ∧ _ ∧ (handle (cfgs d) env e (s.mac d)).2.hasData = false :=
      handle_of_ackTimeOut (h.phase d) (h.opened d hwait).1 e hp ht hlocal hne
    have hsame : s.handOver d (handle (cfgs d) env e (s.mac d)) =
        { s with mac := Function.update s.mac d (handle (cfgs d) env e (s.mac d)).1 } := by
      simp [AmpduNet.handOver, hnodata]
    rw [hsame]
    exact h.update hph htr hcur (fun _ => hack) hrec

/-- What holds in a run whose steps meet the condition. -/
structure Orderly (cfgs : ℕ → MacConfig) (s : AmpduNet) : Prop where
  inv : NetInv cfgs s
  exactBits : s.exactBits = true
  keptFrames : s.keptFrames = true

theorem Orderly.start : Orderly cfgs
    ⟨fun _ => Mac.start, fun _ => [], fun _ => none, fun _ => [], fun _ => [], true, true⟩ := by
  refine ⟨⟨fun _ => Phase.start, fun _ => ⟨?_, isAmpdu_nil⟩, ?_, ?_, ?_, ?_, ?_⟩, rfl, rfl⟩
  · exact fun _ hp => absurd hp List.not_mem_nil
  · exact fun _ hopen => absurd rfl (hopen.resolve_left fun hne => hne rfl)
  · exact fun _ hne => absurd rfl hne
  · exact fun _ _ hb => by cases hb
  · exact fun _ _ hb => by cases hb
  · exact fun _ hne => absurd rfl hne

theorem Orderly.step (hcfgs : AreStations cfgs) (h : Orderly cfgs s) {e : NetEvent} {s' : AmpduNet}
    (hok : s.isOrderly cfgs e = true) (hstep : (ampduMachine cfgs).step s e = some s') : Orderly cfgs s' := by
  cases e with
  | station d e env =>
    simp only [ampduMachine, Option.ite_none_right_eq_some, Option.some.injEq, Bool.and_eq_true, Bool.or_eq_true,
      decide_eq_true_eq, List.isEmpty_iff, Option.isNone_iff_eq_none] at hstep
    obtain ⟨⟨⟨hp, hlocal⟩, hclosed⟩, rfl⟩ := hstep
    have ht : e.isTimely (s.mac d) = true := by
      unfold AmpduNet.isOrderly at hok
      rw [Bool.and_eq_true] at hok
      exact hok.1
    refine ⟨h.inv.station hcfgs hp hlocal (fun he => hclosed.resolve_left fun hne => hne he) ht ?_,
      h.exactBits, h.keptFrames⟩
    rintro packets rfl p hp
    rw [AmpduNet.isOrderly, Bool.and_eq_true] at hok
    have hsingle := List.all_eq_true.1 hok.2 p hp
    simp only [Bool.and_eq_true, Bool.not_eq_true', bne_iff_ne] at hsingle
    exact hsingle
  | arrive d =>
    cases hair : s.air d with
    | nil => simp [ampduMachine, hair] at hstep
    | cons m rest =>
      simp only [ampduMachine, hair, Option.some.injEq] at hstep
      subst hstep
      simp only [AmpduNet.isOrderly, hair, List.head?_cons, Option.all_some, Bool.and_eq_true, Bool.or_eq_true,
        Option.isNone_iff_eq_none, Bool.not_eq_true', List.isEmpty_eq_false_iff] at hok
      obtain ⟨hinv, hexact⟩ := h.inv.arrive hcfgs hair hok.1 hok.2
      refine ⟨hinv, ?_, h.keptFrames⟩
      show (s.exactBits && _) = true
      rw [h.exactBits, Bool.true_and]
      exact hexact
  | lose d =>
    cases hair : s.air d with
    | nil => simp [ampduMachine, hair] at hstep
    | cons m rest =>
      simp only [ampduMachine, hair, Option.some.injEq] at hstep
      subst hstep
      simp only [AmpduNet.isOrderly, hair, List.head?_cons, Option.all_some, Bool.or_eq_true,
        List.isEmpty_iff] at hok
      exact ⟨h.inv.lose hcfgs hair hok, h.exactBits, h.keptFrames⟩
  | blockAck d env =>
    cases hb : s.blockAcks d with
    | none => simp [ampduMachine, hb] at hstep
    | some b =>
      simp only [ampduMachine, hb, Option.ite_none_right_eq_some, Option.some.injEq] at hstep
      obtain ⟨hp, rfl⟩ := hstep
      have hpend : (s.mac d).eventId.ackTimeOut = true := hp
      simp only [AmpduNet.isOrderly, hb, Option.all_some, Bool.or_eq_true, List.isEmpty_iff, Bool.not_eq_true'] at hok
      obtain ⟨hair, hbit⟩ := h.inv.ack d b hb
      have hcur := (h.inv.opened d (.inr (by rw [hb]; exact Option.some_ne_none b))).2
      have hph : Phase (handle (cfgs d) env (.blockAck b) (s.mac d)).1 :=
        (h.inv.phase d).handle (cfgs d) env _ hp rfl
      have htr : Traffic (handle (cfgs d) env (.blockAck b) (s.mac d)).1 :=
        (h.inv.traffic d).handle (hcfgs.aggregated d) (h.inv.phase d) _ hp (fun _ he => by cases he)
      have hrec : (handle (cfgs d) env (.blockAck b) (s.mac d)).1.blockAckPacket = _ :=
        blockAckPacket_handle (h.inv.phase d) _ hp (fun _ he => by cases he)
      have hho : HandsOver (cfgs d) (handle (cfgs d) env (.blockAck b) (s.mac d)) :=
        handsOver_handle (hcfgs.aggregated d) (h.inv.traffic d) (h.inv.phase d) _ hp
      have hkept : isKept b.bitMap (s.ampdu d) (s.mac d).qosList
          (handle (cfgs d) env (.blockAck b) (s.mac d)).1.frames = true := by
        rw [← hcur] at hok ⊢
        exact isKept_processBlockAck (h.inv.phase d) (h.inv.traffic d) hpend hbit (or_assoc.1 hok)
      refine ⟨(h.inv.withoutAck d _).handOver hair ?_ hph htr hho hrec, h.exactBits, ?_⟩
      · exact Function.update_self ..
      · show (s.keptFrames && _) = true
        rw [h.keptFrames, Bool.true_and]
        exact hkept
  | blockAckLost d =>
    simp only [ampduMachine, Option.ite_none_right_eq_some, Option.some.injEq] at hstep
    obtain ⟨-, rfl⟩ := hstep
    exact ⟨h.inv.withoutAck d _, h.exactBits, h.keptFrames⟩

/-- **In a run whose steps all meet the condition**, every block ack has had exactly the bits of the frames of the A-MPDU
that were received, and every station that has processed one has kept exactly the others, as the next frames. -/
theorem blockAck_exact (cfgs : ℕ → MacConfig) (hcfgs : AreStations cfgs) (s : AmpduNet)
    (h : (ampduMachine cfgs).ReachOn (fun s e => s.isOrderly cfgs e = true) s) :
    s.exactBits = true ∧ s.keptFrames = true := by
  have horderly : Orderly cfgs s := by
    refine h.inv ?_ ?_
    · rintro s rfl
      exact Orderly.start
    · exact fun s e s' hinv hok hstep => hinv.step hcfgs hok hstep
  exact ⟨horderly.exactBits, horderly.keptFrames⟩

/-! ## Sample runs -/

def sampleStations (mediumAccessProtocol : MediumAccessProtocol) (d : ℕ) : MacConfig where
  deviceId := d
  dot11ShortRetryLimit := 7
  dot11LongRetryLimit := 4
  dot11RTSThreshold := 2347
  mediumAccessProtocol := mediumAccessProtocol
  macAggregationStatus := true
  nNumberOfAggregatedPackets := 3
  cwMin := 15
  cwMax := 1023
  txopLimit := 3008
  msduLifeTime := 512000
  aSIFSTime := 16

theorem sampleStations_areStations (mediumAccessProtocol : MediumAccessProtocol) :
    AreStations (sampleStations mediumAccessProtocol) := by
  refine ⟨fun _ => rfl, fun _ => rfl, fun _ => ?_⟩
  show 3 ≤ 64
  decide

/-- Station 1 queues packets, gets access to the channel and sends. -/
def sampleSend (ids : List ℕ) (now : ℚ) : List NetEvent :=
  [.macOut (ids.map sampleFrame), .cs, .difsEnd 0, .backoff, .txend].map fun e =>
    .station 1 e ⟨now, true, true, true⟩

/-- The second frame is missing in the block ack, and is sent again. -/
def sampleExchange : List NetEvent :=
  sampleSend [1, 2, 3] 100 ++ [.arrive 1, .lose 1, .arrive 1, .blockAck 1 ⟨200, true, true, true⟩] ++
    sampleSend [] 300 ++ [.arrive 1, .blockAck 1 ⟨400, true, true, true⟩]

theorem blockAck_exact_sample :
    ∃ s, (ampduMachine (sampleStations .dcf)).ReachOn (fun s e => s.isOrderly (sampleStations .dcf) e = true) s ∧
      s.received 1 = [0] ∧ (s.exactBits = true ∧ s.keptFrames = true) := by
  obtain ⟨s, hreach, hreceived⟩ :=
    Machine.ReachOn.exists_of_execOn (M := ampduMachine (sampleStations .dcf))
      (fun s e => s.isOrderly (sampleStations .dcf) e = true) (P := fun s : AmpduNet => s.received 1 = [0])
      sampleExchange (.init rfl) (by decide)
  exact ⟨s, hreach, hreceived, blockAck_exact _ (sampleStations_areStations .dcf) s hreach⟩

/-- The last frame of an A-MPDU is lost, and when it is sent again the first one: the block ack has its bit. -/
def sampleStale : List NetEvent :=
  sampleSend [1, 2, 3] 100 ++ [.arrive 1, .arrive 1, .lose 1, .station 1 .ackTimeOut ⟨200, true, true, true⟩] ++
    sampleSend [] 300 ++ [.lose 1, .arrive 1, .arrive 1]

/-- One frame of three is missing in a block ack, and the TXOP goes on with the next ones of the queue. -/
def sampleTxop : List NetEvent :=
  sampleSend [1, 2, 3, 4] 100 ++ [.arrive 1, .lose 1, .arrive 1, .blockAck 1 ⟨200, true, true, true⟩]

/-- Without the condition a block ack has stale bits, and a station loses a frame that is missing. -/
theorem blockAck_wrong :
    (∃ s, (ampduMachine (sampleStations .dcf)).Reach s ∧ s.exactBits = false) ∧
      ∃ s, (ampduMachine (sampleStations .edcaf)).Reach s ∧ s.keptFrames = false := by
  constructor
  · exact Machine.Reach.exists_of_exec (P := fun s : AmpduNet => s.exactBits = false) sampleStale
      (Machine.ReachOn.init (M := ampduMachine (sampleStations .dcf)) rfl) (by decide)
  · exact Machine.Reach.exists_of_exec (P := fun s : AmpduNet => s.keptFrames = false) sampleTxop
      (Machine.ReachOn.init (M := ampduMachine (sampleStations .edcaf)) rfl) (by decide +kernel)

end NetSim.Wlan
