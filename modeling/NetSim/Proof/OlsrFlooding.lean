import Mathlib.Data.List.Nodup
import NetSim.Spec.Olsr

/-!
# What OLSR sends on

A node has sent on exactly the messages that it has a duplicate tuple for, so none twice. But it hands over
the packet whatever the forwarding flag says, and it takes a HELLO for a selection as soon as it names any
relay.

* `packetProcessing_sent`: what a packet adds to what was sent.
* `known_step`: the duplicate tuples and what was sent.
* `forwarding_discipline`: at most once in every run; and when what is sent on came from a selector.
-/

namespace NetSim.Olsr.Flooder

variable {α : Type} [DecidableEq α] {s s' : Flooder α} {p q : FloodPacket α} {now : ℚ} {a : α}

/-- The originator and the number of a message. -/
def messageId (p : FloodPacket α) : α × UInt16 := (p.originatorAddress, p.messageSequenceNumber)

/-- The originator and the number that a tuple stands for. -/
def tupleId (d : DuplicateTuple α) : α × UInt16 := (d.addr, d.seqNum)

/-- Whether a packet comes to the end of `fn_NetSim_OLSR_PacketForwarding`. -/
def passes (p : FloodPacket α) (s : Flooder α) : Bool :=
  p.message.any fun tc => s.isProcessed p && s.isTcAccepted p tc && !s.isStopped p

/-! ## Messages and duplicate tuples -/

/-- The tuples are those of the messages that were sent on. -/
structure Known (s : Flooder α) : Prop where
  ids : s.sent.map messageId = s.duplicateSet.map tupleId
  nodup : (s.duplicateSet.map tupleId).Nodup
  iface : ∀ d ∈ s.duplicateSet, d.ifaceList = s.mainAddress

theorem findDuplicateSet_eq_none {l : List (DuplicateTuple α)} {ip : α} {seqNo : UInt16} :
    findDuplicateSet l ip seqNo = none ↔ (ip, seqNo) ∉ l.map tupleId := by
  unfold findDuplicateSet tupleId
  rw [List.find?_eq_none, List.mem_map, not_exists]
  refine forall_congr' fun d => ?_
  rw [not_and, decide_eq_true_iff, Prod.mk.injEq]

/-- Behind the conditions 2 and 3 the message has no tuple. -/
theorem Known.findDuplicateSet_eq_none (hs : Known s) (h : s.isStopped p = false) :
    findDuplicateSet s.duplicateSet p.originatorAddress p.messageSequenceNumber = none := by
  have hdup := (Bool.or_eq_false_iff.1 h).2
  cases hd : findDuplicateSet s.duplicateSet p.originatorAddress p.messageSequenceNumber with
  | none => rfl
  | some d =>
    have hiface : s.mainAddress = d.ifaceList := (hs.iface d (List.mem_of_find?_eq_some hd)).symm
    rw [hd, Option.any_some, decide_eq_true hiface, Bool.or_true] at hdup
    cases hdup

theorem packetForwarding_of_not_stopped (hs : Known s) (h : s.isStopped p = false) :
    packetForwarding now p s = { s with
      duplicateSet := s.duplicateSet ++ [s.newDuplicate now p]
      sent := s.sent ++ [s.retransmitted (s.forwardFlag p) p] } := by
  unfold packetForwarding
  rw [h, if_neg Bool.false_ne_true, hs.findDuplicateSet_eq_none h]
  rfl

theorem known_packetForwarding (hs : Known s) : Known (packetForwarding now p s) := by
  cases h : s.isStopped p with
  | true =>
    unfold packetForwarding
    rw [if_pos h]
    exact hs
  | false =>
    rw [packetForwarding_of_not_stopped hs h]
    have hid : messageId (s.retransmitted (s.forwardFlag p) p) = messageId p := by
      unfold retransmitted
      split
      · rfl
      · rfl
    refine ⟨?_, ?_, fun d hd => ?_⟩
    · rw [List.map_append, List.map_append, hs.ids, List.map_singleton, hid]
      rfl
    · have hnew : messageId p ∉ s.duplicateSet.map tupleId :=
        Flooder.findDuplicateSet_eq_none.1 (hs.findDuplicateSet_eq_none h)
      rw [List.map_append]
      refine hs.nodup.append (List.nodup_cons.2 ⟨List.not_mem_nil, List.nodup_nil⟩) fun i hi hj => hnew ?_
      have hid' : i = messageId p := List.mem_singleton.1 hj
      rw [← hid']
      exact hi
    · rcases List.mem_append.1 hd with hd | hd
      · exact hs.iface d hd
      · rw [List.mem_singleton.1 hd]
        rfl

/-- What a packet adds to what was sent. -/
theorem packetProcessing_sent (hs : Known s) : (s.packetProcessing now p).sent =
    if s.passes p then s.sent ++ [s.retransmitted (s.forwardFlag p) p] else s.sent := by
  unfold packetProcessing passes
  cases p.message with
  | none => rfl
  | some tc =>
    rw [Option.any_some]
    dsimp only
    cases s.isProcessed p with
    | false => rfl
    | true =>
      rw [if_pos rfl, Bool.true_and]
      unfold receiveTc
      cases s.isTcAccepted p tc with
      | false => rfl
      | true =>
        rw [if_pos rfl, Bool.true_and]
        have hs' : Known (s.updateTopologySet now p tc) := ⟨hs.ids, hs.nodup, hs.iface⟩
        have hstop : (s.updateTopologySet now p tc).isStopped p = s.isStopped p := rfl
        cases h : s.isStopped p with
        | true =>
          unfold packetForwarding
          rw [if_pos (hstop.trans h)]
          rfl
        | false =>
          rw [packetForwarding_of_not_stopped hs' (hstop.trans h)]
          rfl

theorem known_step (hs : Known s) (e : FloodEvent α) : Known (s.step e) := by
  cases e with
  | hello now validityTime originator links => exact ⟨hs.ids, hs.nodup, hs.iface⟩
  | neighbors neighborSet => exact ⟨hs.ids, hs.nodup, hs.iface⟩
  | packet now p =>
    show Known (s.packetProcessing now p)
    unfold packetProcessing
    cases p.message with
    | none => exact hs
    | some tc =>
      dsimp only
      split
      · unfold receiveTc
        split
        · exact known_packetForwarding ⟨hs.ids, hs.nodup, hs.iface⟩
        · exact hs
      · exact hs

/-! ## Selectors -/

/-- The addresses of the selectors. -/
def IsSelector (set : List (MprSelectionTuple α)) (a : α) : Prop := a ∈ set.map MprSelectionTuple.mainAddr

theorem findMprSelectorSet_isSome {set : List (MprSelectionTuple α)} :
    (findMprSelectorSet set a).isSome = true ↔ IsSelector set a := by
  unfold findMprSelectorSet IsSelector
  rw [List.find?_isSome, List.mem_map]
  refine exists_congr fun t => and_congr_right fun _ => decide_eq_true_iff

theorem isSelector_addSelector {set : List (MprSelectionTuple α)} {validityTime : ℚ} {originator : α}
    {link : HelloLink α} : IsSelector (addSelector now validityTime originator set link) a ↔
      IsSelector set a ∨ link.neighTypes = .mprNeigh ∧ a = originator := by
  unfold addSelector
  by_cases hlink : link.neighTypes = .mprNeigh
  · rw [if_pos hlink, and_iff_right hlink]
    split
    · next hsome =>
      have hold : IsSelector set originator := findMprSelectorSet_isSome.1 hsome
      unfold IsSelector at hold ⊢
      have hmap := FirstMatch.map_updateFirst (g := MprSelectionTuple.mainAddr)
        (p := fun tuple : MprSelectionTuple α => decide (tuple.mainAddr = originator))
        (f := fun tuple => { tuple with time := now + validityTime }) (fun _ => rfl) 1 set
      rw [hmap]
      refine ⟨.inl, fun h => h.elim id fun ha => ?_⟩
      rw [ha]
      exact hold
    · unfold IsSelector
      rw [List.map_append, List.mem_append, List.map_singleton, List.mem_singleton]
  · rw [if_neg hlink]
    exact ⟨.inl, fun h => h.elim id fun h => absurd h.1 hlink⟩

theorem isSelector_foldl {validityTime : ℚ} {originator : α} (links : List (HelloLink α))
    (set : List (MprSelectionTuple α)) :
    IsSelector (links.foldl (addSelector now validityTime originator) set) a ↔
      IsSelector set a ∨ (∃ link ∈ links, link.neighTypes = .mprNeigh) ∧ a = originator := by
  induction links generalizing set with
  | nil => simp
  | cons link links ih =>
    rw [List.foldl_cons, ih, isSelector_addSelector, List.exists_mem_cons_iff]
    tauto

/-- **A HELLO that names a relay names this node.** -/
def HelloOk (s : Flooder α) : FloodEvent α → Prop
  | .hello _ _ _ links =>
    (∃ link ∈ links, link.neighTypes = .mprNeigh) → ⟨.mprNeigh, s.mainAddress⟩ ∈ links
  | .neighbors _ => True
  | .packet _ _ => True

/-- The selectors are the neighbours that have selected this node. -/
def Selected (s : Flooder α) : Prop := ∀ a, IsSelector s.mprSelectionSet a ↔ a ∈ s.selections

theorem packetProcessing_frame (now : ℚ) (p : FloodPacket α) (s : Flooder α) :
    (s.packetProcessing now p).mprSelectionSet = s.mprSelectionSet ∧
      (s.packetProcessing now p).selections = s.selections := by
  have hforward : ∀ s : Flooder α, (packetForwarding now p s).mprSelectionSet = s.mprSelectionSet ∧
      (packetForwarding now p s).selections = s.selections := by
    intro s
    unfold packetForwarding
    split
    · exact ⟨rfl, rfl⟩
    · exact ⟨rfl, rfl⟩
  unfold packetProcessing
  cases p.message with
  | none => exact ⟨rfl, rfl⟩
  | some tc =>
    dsimp only
    split
    · unfold receiveTc
      split
      · exact hforward _
      · exact ⟨rfl, rfl⟩
    · exact ⟨rfl, rfl⟩

theorem selected_step (hs : Selected s) {e : FloodEvent α} (hok : HelloOk s e) : Selected (s.step e) := by
  cases e with
  | neighbors neighborSet => exact hs
  | packet now p =>
    intro a
    show IsSelector (s.packetProcessing now p).mprSelectionSet a ↔ a ∈ (s.packetProcessing now p).selections
    obtain ⟨hset, hsel⟩ := packetProcessing_frame now p s
    rw [hset, hsel]
    exact hs a
  | hello now validityTime originator links =>
    intro a
    show IsSelector (links.foldl (addSelector now validityTime originator) s.mprSelectionSet) a ↔
      a ∈ if ⟨.mprNeigh, s.mainAddress⟩ ∈ links then s.selections ++ [originator] else s.selections
    rw [isSelector_foldl, hs a]
    by_cases hin : (⟨.mprNeigh, s.mainAddress⟩ : HelloLink α) ∈ links
    · rw [if_pos hin, List.mem_append, List.mem_singleton]
      exact or_congr_right (and_iff_right ⟨_, hin, rfl⟩)
    · rw [if_neg hin]
      exact or_iff_left fun h => hin (hok h.1)

/-! ## What is sent on -/

/-- **What may be sent on**: the copy came from a symmetric neighbour that has selected this node, and the
TTL allows a further hop and is decreased. -/
def Justified (s : Flooder α) (p q : FloodPacket α) : Prop :=
  (∃ y ∈ s.neighborSet, y.neighborMainAddr = p.szGatewayIp ∧ y.status ≠ .notNeigh) ∧
    p.szGatewayIp ∈ s.selections ∧ 1 < p.timeToLive ∧ q.timeToLive.toNat + 1 = p.timeToLive.toNat

/-- All that is sent on for a packet may be sent on. -/
def StepJustified (s : Flooder α) (now : ℚ) (p : FloodPacket α) : Prop :=
  ∀ q, (s.step (.packet now p)).sent = s.sent ++ [q] → Justified s p q

/-- A packet that comes to the end of the forwarding came from a neighbour that is a selector, and its TTL is
more than 1. -/
def PacketOk (s : Flooder α) (p : FloodPacket α) : Prop :=
  s.passes p = true → (findNeighborSet s.neighborSet p.szGatewayIp).isSome = true ∧
    (findMprSelectorSet s.mprSelectionSet p.szGatewayIp).isSome = true ∧ p.timeToLive > 1

/-- The condition on a step. -/
def StepOk (s : Flooder α) : FloodEvent α → Prop
  | .hello now validityTime originator links => HelloOk s (.hello now validityTime originator links)
  | .neighbors _ => True
  | .packet _ p => PacketOk s p

theorem isStopped_of_passes (h : s.passes p = true) : s.isStopped p = false := by
  unfold passes at h
  cases hm : p.message with
  | none =>
    rw [hm] at h
    cases h
  | some tc =>
    rw [hm, Option.any_some, Bool.and_eq_true, Bool.not_eq_true'] at h
    exact h.2

theorem symmetric_of_passes (hpass : s.passes p = true) :
    (findNeighborSet s.neighborSet p.szGatewayIp).isSome = true ↔
      ∃ y ∈ s.neighborSet, y.neighborMainAddr = p.szGatewayIp ∧ y.status ≠ .notNeigh := by
  constructor
  · intro h
    obtain ⟨y, hy⟩ := Option.isSome_iff_exists.1 h
    have hcond := (Bool.or_eq_false_iff.1 (isStopped_of_passes hpass)).1
    rw [hy, Option.any_some] at hcond
    exact ⟨y, List.mem_of_find?_eq_some hy, of_decide_eq_true (List.find?_some hy :), of_decide_eq_false hcond⟩
  · rintro ⟨y, hy, ha, -⟩
    exact List.find?_isSome.2 ⟨y, hy, decide_eq_true ha⟩

theorem retransmitted_timeToLive (hselector : (findMprSelectorSet s.mprSelectionSet p.szGatewayIp).isSome = true)
    (httl : p.timeToLive > 1) :
    (s.retransmitted (s.forwardFlag p) p).timeToLive.toNat + 1 = p.timeToLive.toNat := by
  have hflag : s.forwardFlag p = true := by
    unfold forwardFlag
    rw [hselector, decide_eq_true httl]
    rfl
  have hlt : 1 < p.timeToLive.toNat := UInt8.lt_iff_toNat_lt.1 httl
  have hle : (1 : UInt8) ≤ p.timeToLive := UInt8.le_iff_toNat_le.2 (by
    have hone : (1 : UInt8).toNat = 1 := rfl
    omega)
  unfold retransmitted
  rw [hflag, if_pos rfl]
  have hsub := UInt8.toNat_sub_of_le p.timeToLive 1 hle
  have hone : (1 : UInt8).toNat = 1 := rfl
  show (p.timeToLive - 1).toNat + 1 = p.timeToLive.toNat
  omega

theorem stepJustified_iff (hknown : Known s) (hsel : Selected s) : StepJustified s now p ↔ PacketOk s p := by
  unfold StepJustified PacketOk
  have hsent : (s.step (.packet now p)).sent =
      if s.passes p then s.sent ++ [s.retransmitted (s.forwardFlag p) p] else s.sent := packetProcessing_sent hknown
  rw [hsent]
  cases hpass : s.passes p with
  | false =>
    refine iff_of_true (fun q h => ?_) fun h => absurd h Bool.false_ne_true
    have hlen := congrArg List.length h
    rw [if_neg Bool.false_ne_true, List.length_append, List.length_singleton] at hlen
    omega
  | true =>
    rw [if_pos rfl, symmetric_of_passes hpass, findMprSelectorSet_isSome, hsel]
    constructor
    · intro h _
      obtain ⟨hsym, hselects, httl, -⟩ := h _ rfl
      exact ⟨hsym, hselects, httl⟩
    · intro h q hq
      obtain ⟨hsym, hselects, httl⟩ := h rfl
      obtain rfl := List.singleton_inj.1 (List.append_cancel_left hq)
      exact ⟨hsym, hselects, httl, retransmitted_timeToLive (findMprSelectorSet_isSome.2 ((hsel _).2 hselects)) httl⟩

theorem known_of_reach (h : (machine α).Reach s) : Known s := by
  refine Machine.ReachOn.inv ?_ ?_ h
  · rintro s ⟨mainAddress, rfl⟩
    exact ⟨rfl, List.nodup_nil, fun d hd => absurd hd List.not_mem_nil⟩
  · intro s e s' hs _ hstep
    rw [← Option.some.inj hstep]
    exact known_step hs e

theorem selected_of_reachOn (h : (machine α).ReachOn StepOk s) : Selected s := by
  refine Machine.ReachOn.inv ?_ ?_ h
  · rintro s ⟨mainAddress, rfl⟩ a
    exact iff_of_false List.not_mem_nil List.not_mem_nil
  · intro s e s' hs hok hstep
    rw [← Option.some.inj hstep]
    refine selected_step hs ?_
    cases e with
    | hello now validityTime originator links => exact hok
    | neighbors neighborSet => trivial
    | packet now p => trivial

/-- **A message is sent on at most once** in every run. In a run in which a HELLO that names a relay names this
node, and in which a packet that comes to the end of the forwarding came from a neighbour that is a selector
and has a TTL of more than 1, all that is sent on may be sent on; and a packet that breaks this ends it. -/
theorem forwarding_discipline (s : Flooder α) :
    ((machine α).Reach s → (s.sent.map messageId).Nodup) ∧
    ((machine α).ReachOn StepOk s → ∀ now p, (StepOk s (.packet now p) → StepJustified s now p) ∧
      (StepJustified s now p → StepOk s (.packet now p))) := by
  refine ⟨fun h => ?_, fun h now p => ?_⟩
  · have hknown := known_of_reach h
    rw [hknown.ids]
    exact hknown.nodup
  · have hiff : StepJustified s now p ↔ PacketOk s p :=
      stepJustified_iff (known_of_reach (h.mono fun _ _ _ => trivial)) (selected_of_reachOn h)
    exact ⟨hiff.2, hiff.1⟩

/-! ## Samples -/

/-- A TC message of node 5, received from node 9. -/
def samplePacket (timeToLive : UInt8) (szGatewayIp : ℕ) : FloodPacket ℕ :=
  ⟨5, 7, timeToLive, 3, 15, some ⟨1, [6]⟩, szGatewayIp, 3⟩

instance (s : Flooder ℕ) (e : FloodEvent ℕ) : Decidable (StepOk s e) :=
  match e with
  | .hello _ _ _ _ => inferInstanceAs (Decidable ((∃ link ∈ _, _) → _ ∈ _))
  | .neighbors _ => isTrue trivial
  | .packet _ _ => inferInstanceAs (Decidable (_ = _ → _ ∧ _ ∧ _))

/-- Node 1 has been named as relay by its neighbour 2, and sends on what comes from it. -/
theorem forwarding_discipline_selector : ∃ s : Flooder ℕ, (machine ℕ).ReachOn StepOk s ∧
    s.sent = [⟨5, 7, 1, 4, 15, some ⟨1, [6]⟩, 1, 2⟩] ∧ (s.sent.map messageId).Nodup := by
  have hreach : ∃ s : Flooder ℕ, (machine ℕ).ReachOn StepOk s ∧ s.sent = [⟨5, 7, 1, 4, 15, some ⟨1, [6]⟩, 1, 2⟩] :=
    Machine.ReachOn.exists_of_execOn StepOk
      [.neighbors [⟨2, .mprNeigh, .default⟩], .hello 0 6 2 [⟨.symNeigh, 3⟩, ⟨.mprNeigh, 1⟩],
        .packet 1 (samplePacket 2 2), .packet 2 (samplePacket 2 2)]
      (.init ⟨1, rfl⟩) (by decide)
  obtain ⟨s, hs, hsent⟩ := hreach
  exact ⟨s, hs, hsent, (forwarding_discipline s).1 (hs.mono fun _ _ _ => trivial)⟩

/-- A node without neighbours sends on a packet whose TTL does not allow a further hop; and a node that its
neighbour 2 has not named as relay sends on what comes from it. -/
theorem forwarding_unjustified :
    (¬ ∀ s : Flooder ℕ, (machine ℕ).Reach s → ∀ now p, StepJustified s now p) ∧
      ((start 1).step (.packet 0 (samplePacket 1 9))).sent = [⟨5, 7, 1, 3, 15, some ⟨1, [6]⟩, 1, 3⟩] ∧
      ((((start 1).step (.neighbors [⟨2, .mprNeigh, .default⟩])).step (.hello 0 6 2 [⟨.mprNeigh, 3⟩])).step
        (.packet 0 (samplePacket 2 2))).sent.length = 1 := by
  refine ⟨fun hall => ?_, by decide, by decide⟩
  have hjust := hall (start 1) (.init ⟨1, rfl⟩) 0 (samplePacket 1 9) ⟨5, 7, 1, 3, 15, some ⟨1, [6]⟩, 1, 3⟩
    (by decide)
  exact absurd hjust.2.1 List.not_mem_nil

end NetSim.Olsr.Flooder
