import NetSim.Proof.NeighborStates
import NetSim.Spec.OspfDd

/-!
# One side of the database description exchange

What `ospf_handle_DD` does to each packet that a side can receive in an exchange without duplicates. A
slave and a master in Exchange are described by what is left of their summaries and by what they request.
-/

namespace NetSim.Ospf

variable {now : ℚ} {neigh neigh' : NeighborDs} {d : DdPacket} {q s : UInt32}

/-! ## Parties -/

/-- The entries of a database. -/
def AreaDs.headers (area : AreaDs) : List LsaHdr :=
  area.routerLSAList ++ area.nwLSAList ++ area.routerSummaryLSAList ++ area.nwSummaryLSAList

/-- A side: a router with a database of distinct keys, and an interface on which it forms an adjacency. -/
structure DdParty where
  ospf : Pds
  thisInterface : OspfIf
  area : AreaDs
  peer : Ip
  deadInterval : ℚ
  distinct : area.headers.Pairwise fun a b => a.sameKey b = false
  typed : ∀ lsa ∈ area.headers, lsa.lsType ≠ .undefined
  adjacent : ∀ neigh : NeighborDs, neigh.neighborId = peer →
    isAdjacencyShouldEstablished thisInterface neigh = some true

namespace DdParty

variable (p : DdParty)

/-- What a side describes: its database without the expired entries. -/
def summary : List LsaHdr := p.area.headers.filter fun lsa => !hasMaxAge p.ospf lsa

/-- What a side requests of some headers. -/
def wanted (l : List LsaHdr) : List LsaHdr := l.filter (isWanted p.ospf p.area)

theorem wanted_append (l₁ l₂ : List LsaHdr) : p.wanted (l₁ ++ l₂) = p.wanted l₁ ++ p.wanted l₂ :=
  List.filter_append l₁ l₂

theorem summary_distinct : p.summary.Pairwise fun a b => a.sameKey b = false :=
  p.distinct.sublist List.filter_sublist

theorem summary_typed {lsa : LsaHdr} (h : lsa ∈ p.summary) : lsa.lsType ≠ .undefined :=
  p.typed lsa (List.mem_filter.1 h).1

/-- The packet of ExStart. -/
def initPacket (seq : UInt32) : DdPacket where
  routerId := p.ospf.routerId
  interfaceMTU := ddInterfaceMTU p.thisInterface
  option := 0
  imms := ⟨true, true, true⟩
  ddSequenceNumber := seq
  lsaHeader := []

/-- A packet of Exchange. -/
def dataPacket (seq : UInt32) (master more : Bool) (lsas : List LsaHdr) : DdPacket where
  routerId := p.ospf.routerId
  interfaceMTU := ddInterfaceMTU p.thisInterface
  option := 0
  imms := ⟨false, more, master⟩
  ddSequenceNumber := seq
  lsaHeader := lsas

theorem mtu_le : ddInterfaceMTU p.thisInterface ≤ interfaceMTUDefault := by
  unfold ddInterfaceMTU
  split
  · exact Nat.zero_le _
  · exact Nat.le_refl _

/-- Handling a packet. -/
def receive (now : ℚ) (neigh : NeighborDs) (d : DdPacket) : Option DdOut :=
  handleDD p.ospf p.thisInterface p.area now p.deadInterval neigh d

end DdParty

/-- The headers that a neighbour requests. -/
def NeighborDs.requested (neigh : NeighborDs) : Option (List LsaHdr) :=
  neigh.neighLSReqList.map fun list => list.map LsReqItem.lsHdr

/-! ## Lists -/

/-- The summary list is the database without the expired entries. -/
theorem createDBSummaryList_eq (ospf : Pds) (area : AreaDs) (now : ℚ) {old rxt sendList : List LsaHdr}
    (hsum : neigh.neighDBSummaryList = some old) (hrxt : neigh.neighLSRxtList = some rxt)
    (hsend : neigh.linkStateSendList = some sendList) :
    ∃ rxt' sendList', createDBSummaryList ospf area now neigh = some { neigh with
      neighDBSummaryList := some (old ++ area.headers.filter fun lsa => !hasMaxAge ospf lsa)
      neighLSRxtList := some rxt'
      linkStateSendList := some sendList' } := by
  unfold createDBSummaryList AreaDs.headers
  generalize area.routerLSAList ++ area.nwLSAList ++ area.routerSummaryLSAList ++ area.nwSummaryLSAList = list
  induction list generalizing neigh old rxt sendList with
  | nil =>
    refine ⟨rxt, sendList, ?_⟩
    rw [List.filter_nil, List.append_nil, ← hsum, ← hrxt, ← hsend]
    rfl
  | cons lsa list ih =>
    rw [List.foldlM_cons]
    by_cases hmax : hasMaxAge ospf lsa = true
    · have hstep : updateDBSummary ospf now neigh lsa = some { neigh with
          neighLSRxtList := some (rxt ++ [{ lsa with time := now }])
          linkStateSendList := some (sendList ++ [{ lsa with time := now }]) } := by
        unfold updateDBSummary NeighborDs.addToRxtList
        rw [if_pos hmax, hrxt, hsend]
        rfl
      rw [hstep, List.filter_cons_of_neg (by simp [hmax])]
      exact ih hsum rfl rfl
    · have hstep : updateDBSummary ospf now neigh lsa = some { neigh with
          neighDBSummaryList := some (old ++ [lsa]) } := by
        unfold updateDBSummary
        rw [if_neg hmax, hsum]
        rfl
      have hsum' : ({ neigh with neighDBSummaryList := some (old ++ [lsa]) } : NeighborDs).neighDBSummaryList =
          some (old ++ [lsa]) := rfl
      rw [hstep, List.filter_cons_of_pos (by simp [hmax])]
      obtain ⟨rxt', sendList', hrun⟩ := ih hsum' hrxt hsend
      refine ⟨rxt', sendList', hrun.trans ?_⟩
      rw [List.append_assoc]
      rfl

/-- The loop over the headers of a packet requests those that are wanted. -/
theorem processLSAHeaders_eq (p : DdParty) (now : ℚ) {items : List LsReqItem} {lsas : List LsaHdr}
    (hreq : neigh.neighLSReqList = some items) (htyped : ∀ lsa ∈ lsas, lsa.lsType ≠ .undefined)
    (hdistinct : (items.map LsReqItem.lsHdr ++ lsas).Pairwise fun a b => a.sameKey b = false) :
    ∃ items', processLSAHeaders p.ospf p.area now neigh lsas =
        some ({ neigh with neighLSReqList := some items' }, true) ∧
      items'.map LsReqItem.lsHdr = items.map LsReqItem.lsHdr ++ p.wanted lsas := by
  induction lsas generalizing neigh items with
  | nil =>
    refine ⟨items, ?_, (List.append_nil _).symm⟩
    rw [← hreq]
    rfl
  | cons lsa lsas ih =>
    have hknown : ¬ (lsa.lsType == .undefined) = true := by
      rw [beq_iff_eq]
      exact htyped lsa List.mem_cons_self
    have htail : ∀ l ∈ lsas, l.lsType ≠ .undefined := fun l hl => htyped l (List.mem_cons_of_mem lsa hl)
    unfold processLSAHeaders
    rw [if_neg hknown]
    by_cases hw : isWanted p.ospf p.area lsa = true
    · -- no entry has the key of the header
      have hfree : (items.any fun item => item.lsHdr.sameKey lsa) = false := by
        rw [List.any_eq_false]
        intro item hitem
        have hpair := (List.pairwise_append.1 hdistinct).2.2 item.lsHdr (List.mem_map_of_mem hitem) lsa
          List.mem_cons_self
        rw [hpair]
        decide
      have hins : neigh.insertRequest lsa now = some { neigh with
          neighLSReqList := some (items ++ [⟨neigh.lsReqTimerSequenceNumber, now, lsa⟩]) } := by
        unfold NeighborDs.insertRequest lsreqInsertToList
        rw [hreq, Option.map_some]
        simp only [hfree, Bool.false_eq_true, if_false]
      rw [if_pos hw, hins]
      generalize hnext : items ++ [(⟨neigh.lsReqTimerSequenceNumber, now, lsa⟩ : LsReqItem)] = next
      have hmap : next.map LsReqItem.lsHdr = items.map LsReqItem.lsHdr ++ [lsa] := by
        rw [← hnext, List.map_append]
        rfl
      have hreq' : ({ neigh with neighLSReqList := some next } : NeighborDs).neighLSReqList = some next := rfl
      have hdistinct' : (next.map LsReqItem.lsHdr ++ lsas).Pairwise fun a b => a.sameKey b = false := by
        rw [hmap, ← List.append_cons]
        exact hdistinct
      obtain ⟨items', hrun, hmap'⟩ := ih hreq' htail hdistinct'
      refine ⟨items', hrun, ?_⟩
      rw [hmap', hmap]
      unfold DdParty.wanted
      rw [List.filter_cons_of_pos hw, List.append_assoc]
      rfl
    · rw [if_neg hw]
      have hsub : (items.map LsReqItem.lsHdr ++ lsas).Sublist (items.map LsReqItem.lsHdr ++ lsa :: lsas) :=
        (List.Sublist.refl _).append (List.sublist_cons_self lsa lsas)
      obtain ⟨items', hrun, hmap⟩ := ih hreq htail (hdistinct.sublist hsub)
      refine ⟨items', hrun, ?_⟩
      rw [hmap]
      unfold DdParty.wanted
      rw [List.filter_cons_of_neg hw]

/-- Requests keep the headers of the list. -/
theorem lsreqSend_lsHdr (reqs : LsReqs) (retx : Bool) :
    (lsreqSend reqs retx).2.neighLSReqList.map LsReqItem.lsHdr = reqs.neighLSReqList.map LsReqItem.lsHdr := by
  have hreplace : ∀ (f : LsReqItem → Bool) (l : List LsReqItem) (item new : LsReqItem), l.find? f = some item →
      new.lsHdr = item.lsHdr →
        (FirstMatch.replaceFirst f new l).map LsReqItem.lsHdr = l.map LsReqItem.lsHdr := by
    intro f l item new hfind hnew
    obtain ⟨l₁, l₂, -, hl, hrep⟩ := FirstMatch.replaceFirst_of_find? hfind new
    rw [hrep, hl, List.map_append, List.map_append, List.map_cons, List.map_cons, hnew]
  have hfill : ∀ (n : ℕ) (r : LsReqs), (fillLSRequest retx n r).2.neighLSReqList.map LsReqItem.lsHdr =
      r.neighLSReqList.map LsReqItem.lsHdr := by
    intro n
    induction n with
    | zero => exact fun r => rfl
    | succ n ih =>
      intro r
      unfold fillLSRequest createLSReqObject
      cases hfind : r.neighLSReqList.find? (LsReqItem.isNext r retx) with
      | none => rfl
      | some item => exact (ih _).trans (hreplace _ _ item (item.taken r) hfind rfl)
  exact hfill maxLSReqObject reqs

/-! ## Sides in negotiation -/

/-- The lists of a side before its exchange. -/
structure Unlisted (p : DdParty) (neigh : NeighborDs) : Prop where
  peer : neigh.neighborId = p.peer
  reqs : neigh.neighLSReqList = some []
  summary : neigh.neighDBSummaryList = some []
  rxt : neigh.neighLSRxtList = some []
  sendList : neigh.linkStateSendList = some []

/-- A side before its exchange: in Init nothing has been sent. -/
structure Fresh (p : DdParty) (neigh : NeighborDs) : Prop extends Unlisted p neigh where
  state : neigh.state = .init ∧ neigh.ddSeqNo = 0 ∨
    neigh.state = .exStart ∧ neigh.isMaster = true ∧ neigh.imms.more = true

variable {p : DdParty}

theorem Unlisted.startSending (now : ℚ) (h : Unlisted p neigh) (hstate : neigh.state = .exStart)
    (hmaster : neigh.isMaster = true) :
    ∃ neigh', startSendingDDMsg p.ospf p.thisInterface now neigh =
        (neigh', some (p.initPacket neigh.ddSeqNo)) ∧
      Fresh p neigh' ∧ neigh'.state = .exStart ∧ neigh'.ddSeqNo = neigh.ddSeqNo ∧
        neigh'.lastrecvDDPacket = neigh.lastrecvDDPacket := by
  have hno : (neigh.state != .exStart) = false := by rw [hstate]; rfl
  unfold startSendingDDMsg
  rw [hno]
  exact ⟨_, rfl, ⟨⟨h.peer, h.reqs, h.summary, h.rxt, h.sendList⟩, .inr ⟨hstate, hmaster, rfl⟩⟩, hstate, rfl, rfl⟩

/-- The event `2WayReceived` begins the negotiation. -/
theorem Fresh.twoWay (now : ℚ) (h : Fresh p neigh) :
    ∃ neigh' sent, handle2WayReceived p.ospf p.thisInterface now neigh = some (neigh', sent) ∧
      Fresh p neigh' ∧ neigh'.state = .exStart ∧ neigh'.lastrecvDDPacket = neigh.lastrecvDDPacket ∧
      (neigh.state = .exStart ∧ neigh' = neigh ∧ sent = none ∨
        neigh.state = .init ∧ sent = some (p.initPacket neigh'.ddSeqNo)) := by
  rcases h.state with ⟨hinit, hzero⟩ | ⟨hex, -⟩
  · have hyes : (neigh.state == .init) = true := beq_iff_eq.2 hinit
    unfold handle2WayReceived
    rw [hyes, if_pos rfl, p.adjacent neigh h.peer]
    have hchange : changeState p.ospf p.thisInterface now neigh .exStart =
        startSendingDDMsg p.ospf p.thisInterface now
          { neigh with state := .exStart, isMaster := true, ddSeqNo := millisecondsAt now } := by
      unfold changeState attemptAdjacency
      dsimp only
      rw [hinit, hzero]
      rfl
    have hlists : Unlisted p { neigh with state := .exStart, isMaster := true, ddSeqNo := millisecondsAt now } :=
      ⟨h.peer, h.reqs, h.summary, h.rxt, h.sendList⟩
    obtain ⟨neigh', hstart, hfresh', hstate', hseq', hrecv'⟩ := hlists.startSending now rfl rfl
    refine ⟨neigh', _, congrArg some (hchange.trans hstart), hfresh', hstate', hrecv', .inr ⟨hinit, ?_⟩⟩
    rw [hseq']
  · have hno : ¬ (neigh.state == .init) = true := by rw [hex]; decide
    refine ⟨neigh, none, ?_, h, hex, rfl, .inl ⟨hex, rfl, rfl⟩⟩
    unfold handle2WayReceived
    rw [if_neg hno]

/-! ## Sides in Exchange -/

/-- A slave that has answered the packet `seq`, with `rest` still to describe. -/
structure SlaveAt (neigh : NeighborDs) (seq : UInt32) (rest reqs : List LsaHdr) : Prop where
  slave : neigh.isMaster = false
  seqNo : neigh.ddSeqNo = seq
  option : neigh.neighborOption = 0
  summary : neigh.neighDBSummaryList = some rest
  requested : neigh.requested = some reqs
  sent : ∃ d, neigh.lastSentDDPacket = some d ∧ d.imms.master = false
  received : ∃ d, neigh.lastrecvDDPacket = some d ∧ d.ddSequenceNumber = seq ∧ d.imms.master = true

/-- A master that has sent the packet `seq`, with `rest` still to describe. -/
structure MasterAt (neigh : NeighborDs) (seq : UInt32) (rest reqs : List LsaHdr) : Prop where
  master : neigh.isMaster = true
  seqNo : neigh.ddSeqNo = seq
  option : neigh.neighborOption = 0
  more : neigh.imms.more = !rest.isEmpty
  summary : neigh.neighDBSummaryList = some rest
  requested : neigh.requested = some reqs
  received : ∃ d, neigh.lastrecvDDPacket = some d ∧ d.ddSequenceNumber + 1 = seq

/-- The headers of a packet are new to a side that requests part of what came before. -/
theorem requested_distinct {got lsas rest : List LsaHdr} {other : DdParty} {items : List LsReqItem}
    (hitems : items.map LsReqItem.lsHdr = p.wanted got) (hsplit : got ++ lsas ++ rest = other.summary) :
    (items.map LsReqItem.lsHdr ++ lsas).Pairwise fun a b => a.sameKey b = false := by
  have hdistinct := other.summary_distinct
  rw [← hsplit] at hdistinct
  rw [hitems]
  exact ((List.pairwise_append.1 hdistinct).1).sublist (List.filter_sublist.append (List.Sublist.refl lsas))

theorem typed_of_split {got lsas rest : List LsaHdr} {other : DdParty}
    (hsplit : got ++ lsas ++ rest = other.summary) : ∀ lsa ∈ lsas, lsa.lsType ≠ .undefined := by
  intro lsa hlsa
  refine other.summary_typed ?_
  rw [← hsplit]
  exact List.mem_append_left _ (List.mem_append_right _ hlsa)

/-- A slave processes the next packet and answers it. -/
theorem processAsSlave_eq (p : DdParty) (now : ℚ) (d : DdPacket) {rest : List LsaHdr} (hslave : neigh.isMaster = false)
    (hsum : neigh.neighDBSummaryList = some rest) :
    ∃ neigh', processAsSlave p.ospf p.thisInterface now neigh d = some ⟨neigh',
        [p.dataPacket d.ddSequenceNumber false (!(rest.drop ddMaxLsaCount).isEmpty) (rest.take ddMaxLsaCount)],
        !d.imms.more && (rest.drop ddMaxLsaCount).isEmpty, false⟩ ∧
      neigh'.isMaster = false ∧ neigh'.ddSeqNo = d.ddSequenceNumber ∧ neigh'.neighborOption = neigh.neighborOption ∧
      neigh'.neighDBSummaryList = some (rest.drop ddMaxLsaCount) ∧ neigh'.requested = neigh.requested ∧
      (∃ d', neigh'.lastSentDDPacket = some d' ∧ d'.imms.master = false) ∧
      neigh'.lastrecvDDPacket = neigh.lastrecvDDPacket ∧ neigh'.state = neigh.state := by
  unfold processAsSlave sendDDMsgInExchange
  dsimp only
  rw [hsum, hslave]
  exact ⟨_, rfl, rfl, rfl, rfl, rfl, rfl, ⟨_, rfl, rfl⟩, rfl, rfl⟩

/-- A master processes an answer: it has finished, or it sends the next packet. -/
theorem processAsMaster_eq (p : DdParty) (now : ℚ) (d : DdPacket) {rest : List LsaHdr} (hmaster : neigh.isMaster = true)
    (hsum : neigh.neighDBSummaryList = some rest) :
    (neigh.imms.more = false ∧ d.imms.more = false ∧ processAsMaster p.ospf p.thisInterface now neigh d =
      some ⟨{ neigh with ddSeqNo := neigh.ddSeqNo + 1 }, [], true, false⟩) ∨
    ((neigh.imms.more = true ∨ d.imms.more = true) ∧
      ∃ neigh', processAsMaster p.ospf p.thisInterface now neigh d = some ⟨neigh',
          [p.dataPacket (neigh.ddSeqNo + 1) true (!(rest.drop ddMaxLsaCount).isEmpty) (rest.take ddMaxLsaCount)],
          false, false⟩ ∧
        neigh'.isMaster = true ∧ neigh'.ddSeqNo = neigh.ddSeqNo + 1 ∧
        neigh'.neighborOption = neigh.neighborOption ∧
        neigh'.imms.more = (!(rest.drop ddMaxLsaCount).isEmpty) ∧
        neigh'.neighDBSummaryList = some (rest.drop ddMaxLsaCount) ∧ neigh'.requested = neigh.requested ∧
        neigh'.lastrecvDDPacket = neigh.lastrecvDDPacket ∧ neigh'.state = neigh.state) := by
  unfold processAsMaster sendDDMsgInExchange
  dsimp only
  by_cases hend : (!neigh.imms.more && !d.imms.more) = true
  · rw [if_pos hend]
    rw [Bool.and_eq_true, Bool.not_eq_true', Bool.not_eq_true'] at hend
    exact .inl ⟨hend.1, hend.2, rfl⟩
  · rw [if_neg hend, hsum, hmaster]
    refine .inr ⟨?_, _, rfl, rfl, rfl, rfl, rfl, rfl, rfl, rfl, rfl⟩
    cases hm : neigh.imms.more with
    | true => exact .inl rfl
    | false =>
      rw [hm] at hend
      cases hd : d.imms.more with
      | true => exact .inr rfl
      | false =>
        rw [hd] at hend
        exact absurd rfl hend

/-- A valid packet is handled by the state. -/
theorem validateDDMsg_of_state (hmtu : d.interfaceMTU ≤ interfaceMTUDefault) (hdown : neigh.state ≠ .down)
    (hattempt : neigh.state ≠ .attempt) : (!validateDDMsg neigh d) = false := by
  unfold validateDDMsg
  have hle : ¬ d.interfaceMTU > interfaceMTUDefault := by omega
  rw [decide_eq_false hle, bne_iff_ne.2 hdown, bne_iff_ne.2 hattempt]
  rfl

/-! ## Receipts -/

variable {other : DdParty} {got lsas rest rest' : List LsaHdr} {more : Bool}

/-- A packet in Init or ExStart is handled in ExStart, after the answer to `2WayReceived`. -/
theorem Fresh.receive (now : ℚ) (h : Fresh p neigh) (hmtu : d.interfaceMTU ≤ interfaceMTUDefault) :
    ∃ neigh₁ sent, Fresh p neigh₁ ∧ neigh₁.state = .exStart ∧ neigh₁.lastrecvDDPacket = some d ∧
      (neigh.state = .exStart ∧ neigh₁.ddSeqNo = neigh.ddSeqNo ∧ sent = [] ∨
        neigh.state = .init ∧ sent = [p.initPacket neigh₁.ddSeqNo]) ∧
      p.receive now neigh d = (processDDInExstart p.ospf p.thisInterface p.area now neigh₁ d).map fun out =>
        { out with sent := sent ++ out.sent } := by
  have hrecv : Fresh p { neigh with lastrecvDDPacket := some d } :=
    ⟨⟨h.peer, h.reqs, h.summary, h.rxt, h.sendList⟩, h.state⟩
  unfold DdParty.receive handleDD
  rcases h.state with ⟨hinit, -⟩ | ⟨hex, -⟩
  · have hdown : neigh.state ≠ .down := by rw [hinit]; decide
    have hattempt : neigh.state ≠ .attempt := by rw [hinit]; decide
    rw [validateDDMsg_of_state hmtu hdown hattempt]
    obtain ⟨neigh₁, sent, htwo, hfresh, hstate, hlast, hcases⟩ := hrecv.twoWay now
    have hsent : sent = some (p.initPacket neigh₁.ddSeqNo) := by
      rcases hcases with ⟨hbad, -⟩ | ⟨-, hs⟩
      · exact absurd (hinit.symm.trans hbad) (by decide)
      · exact hs
    refine ⟨neigh₁, [p.initPacket neigh₁.ddSeqNo], hfresh, hstate, hlast, .inr ⟨hinit, rfl⟩, ?_⟩
    simp only [Bool.false_eq_true, if_false, hinit]
    unfold processDDInInit
    have htwo' : handle2WayReceived p.ospf p.thisInterface now { neigh with lastrecvDDPacket := some d, state := .init } =
        some (neigh₁, sent) := by
      rw [← hinit]
      exact htwo
    have hno : (neigh₁.state != .exStart) = false := by rw [hstate]; rfl
    rw [htwo', hsent]
    dsimp only [Option.bind_eq_bind, Option.bind_some]
    rw [hno]
    cases processDDInExstart p.ospf p.thisInterface p.area now neigh₁ d <;> rfl
  · have hdown : neigh.state ≠ .down := by rw [hex]; decide
    have hattempt : neigh.state ≠ .attempt := by rw [hex]; decide
    rw [validateDDMsg_of_state hmtu hdown hattempt]
    refine ⟨{ neigh with lastrecvDDPacket := some d }, [], hrecv, hex, rfl, .inl ⟨hex, rfl, rfl⟩, ?_⟩
    simp only [Bool.false_eq_true, if_false, hex]
    have hstate : ({ neigh with lastrecvDDPacket := some d, state := .exStart } : NeighborDs) =
        { neigh with lastrecvDDPacket := some d } := by rw [← hex]
    rw [hstate]
    cases processDDInExstart p.ospf p.thisInterface p.area now { neigh with lastrecvDDPacket := some d } d <;> rfl

/-- The packet of ExStart from the router of lower id is ignored. -/
theorem Fresh.receive_init_of_lt (now : ℚ) (q : UInt32) (h : Fresh p neigh) (hid : other.ospf.routerId.intIp < p.ospf.routerId.intIp) :
    ∃ neigh' sent, p.receive now neigh (other.initPacket q) = some ⟨neigh', sent, false, false⟩ ∧
      Fresh p neigh' ∧ neigh'.state = .exStart ∧
      (neigh.state = .exStart ∧ neigh'.ddSeqNo = neigh.ddSeqNo ∧ sent = [] ∨
        neigh.state = .init ∧ sent = [p.initPacket neigh'.ddSeqNo]) := by
  have hmtu : (other.initPacket q).interfaceMTU ≤ interfaceMTUDefault := other.mtu_le
  obtain ⟨neigh₁, sent, hfresh, hstate, -, hcases, heq⟩ := h.receive now hmtu
  refine ⟨neigh₁, sent, ?_, hfresh, hstate, hcases⟩
  have hgt : ¬ other.ospf.routerId.intIp > p.ospf.routerId.intIp := by
    rw [UInt32.lt_iff_toNat_lt] at hid
    rw [gt_iff_lt, UInt32.lt_iff_toNat_lt]
    omega
  have hignored : processDDInExstart p.ospf p.thisInterface p.area now neigh₁ (other.initPacket q) =
      some (.quiet neigh₁) := by
    unfold processDDInExstart DdParty.initPacket
    simp [hgt]
  rw [heq, hignored, Option.map_some]
  unfold DdOut.quiet
  rw [List.append_nil]

/-- A packet whose headers are new: those that are wanted are requested, and the master or the slave answers. -/
theorem processDD_eq (p : DdParty) (now : ℚ) {items : List LsReqItem} (hreq : neigh.neighLSReqList = some items)
    (htyped : ∀ lsa ∈ d.lsaHeader, lsa.lsType ≠ .undefined)
    (hdistinct : (items.map LsReqItem.lsHdr ++ d.lsaHeader).Pairwise fun a b => a.sameKey b = false) :
    ∃ items', items'.map LsReqItem.lsHdr = items.map LsReqItem.lsHdr ++ p.wanted d.lsaHeader ∧
      processDD p.ospf p.thisInterface p.area now neigh d =
        if neigh.isMaster = true then
          processAsMaster p.ospf p.thisInterface now { neigh with neighLSReqList := some items' } d
        else processAsSlave p.ospf p.thisInterface now { neigh with neighLSReqList := some items' } d := by
  obtain ⟨items', hrun, hmap⟩ := processLSAHeaders_eq p now hreq htyped hdistinct
  refine ⟨items', hmap, ?_⟩
  unfold processDD
  rw [hrun]
  rfl

/-- What a side has when its exchange starts. -/
structure Started (p : DdParty) (neigh neigh' : NeighborDs) : Prop where
  state : neigh'.state = .exchange
  option : neigh'.neighborOption = 0
  summary : neigh'.neighDBSummaryList = some p.summary
  reqs : neigh'.neighLSReqList = some []
  isMaster : neigh'.isMaster = neigh.isMaster
  seqNo : neigh'.ddSeqNo = neigh.ddSeqNo
  imms : neigh'.imms = neigh.imms
  received : neigh'.lastrecvDDPacket = neigh.lastrecvDDPacket

/-- The exchange starts with the whole summary, and with the packet received. -/
theorem Unlisted.startExchange_eq (now : ℚ) (h : Unlisted p neigh) (hstate : neigh.state = .exStart)
    (hopt : d.option = 0) :
    ∃ neigh', startExchange p.ospf p.thisInterface p.area now neigh d =
      processDD p.ospf p.thisInterface p.area now neigh' d ∧ Started p neigh neigh' := by
  have hno : ¬ (neigh.state != .exStart) = true := by rw [hstate]; decide
  have hsum : ({ neigh with state := .exchange } : NeighborDs).neighDBSummaryList = some [] := h.summary
  have hrxt : ({ neigh with state := .exchange } : NeighborDs).neighLSRxtList = some [] := h.rxt
  have hsend : ({ neigh with state := .exchange } : NeighborDs).linkStateSendList = some [] := h.sendList
  obtain ⟨rxt, sendList, heq⟩ := createDBSummaryList_eq p.ospf p.area now hsum hrxt hsend
  unfold startExchange handleNegotiationDone
  rw [if_neg hno, heq, List.nil_append]
  exact ⟨_, rfl, rfl, hopt, rfl, h.reqs, rfl, rfl, rfl, rfl⟩

/-- The packet of ExStart from the router of higher id makes a slave, which answers it. -/
theorem Fresh.receive_init_of_gt (now : ℚ) (q : UInt32) (h : Fresh p neigh)
    (hid : p.ospf.routerId.intIp < other.ospf.routerId.intIp) :
    ∃ neigh' sent, p.receive now neigh (other.initPacket q) = some ⟨neigh', sent ++
        [p.dataPacket q false (!(p.summary.drop ddMaxLsaCount).isEmpty) (p.summary.take ddMaxLsaCount)],
        false, false⟩ ∧
      SlaveAt neigh' q (p.summary.drop ddMaxLsaCount) [] ∧ neigh'.state = .exchange ∧
      neigh'.lastrecvDDPacket = some (other.initPacket q) ∧
      (sent = [] ∨ ∃ seq, sent = [p.initPacket seq]) := by
  have hmtu : (other.initPacket q).interfaceMTU ≤ interfaceMTUDefault := other.mtu_le
  obtain ⟨neigh₁, sent, hfresh, hstate, hlast, hcases, heq⟩ := h.receive now hmtu
  have hsent : sent = [] ∨ ∃ seq, sent = [p.initPacket seq] := by
    rcases hcases with ⟨-, -, hs⟩ | ⟨-, hs⟩
    · exact .inl hs
    · exact .inr ⟨_, hs⟩
  have hlists : Unlisted p { neigh₁ with ddSeqNo := q, isMaster := false } :=
    ⟨hfresh.peer, hfresh.reqs, hfresh.summary, hfresh.rxt, hfresh.sendList⟩
  have hopt : (other.initPacket q).option = 0 := rfl
  obtain ⟨neigh₂, hstart, hs⟩ := hlists.startExchange_eq now hstate hopt
  have hslave : neigh₂.isMaster = false := hs.isMaster
  obtain ⟨items, hitems, hproc⟩ := processDD_eq (d := other.initPacket q) p now hs.reqs
    (fun lsa hlsa => absurd hlsa List.not_mem_nil) List.Pairwise.nil
  have hnot : ¬ neigh₂.isMaster = true := by
    have hm : neigh₂.isMaster = false := hs.isMaster
    rw [hm]
    decide
  rw [if_neg hnot] at hproc
  have hrun : processDDInExstart p.ospf p.thisInterface p.area now neigh₁ (other.initPacket q) =
      processAsSlave p.ospf p.thisInterface now { neigh₂ with neighLSReqList := some items }
        (other.initPacket q) := by
    have hgt : other.ospf.routerId.intIp > p.ospf.routerId.intIp := hid
    have hcond : ((other.initPacket q).imms.init && (other.initPacket q).imms.more &&
        (other.initPacket q).imms.master && (other.initPacket q).lsaHeader.isEmpty &&
        decide ((other.initPacket q).routerId.intIp > p.ospf.routerId.intIp)) = true := decide_eq_true hgt
    unfold processDDInExstart
    rw [if_pos hcond]
    exact hstart.trans hproc
  have hslave : ({ neigh₂ with neighLSReqList := some items } : NeighborDs).isMaster = false := hs.isMaster
  have hsummary : ({ neigh₂ with neighLSReqList := some items } : NeighborDs).neighDBSummaryList =
      some p.summary := hs.summary
  obtain ⟨neigh', hans, hm, hseq, hopt', hsum, hreq, hsentd, hrecv, hst⟩ :=
    processAsSlave_eq p now (other.initPacket q) hslave hsummary
  have hlast' : neigh'.lastrecvDDPacket = some (other.initPacket q) := hrecv.trans (hs.received.trans hlast)
  refine ⟨neigh', sent, ?_, ?_, hst.trans hs.state, hlast', hsent⟩
  · rw [heq, hrun, hans, Option.map_some]
    rfl
  · refine ⟨hm, hseq, hopt'.trans hs.option, hsum, ?_, hsentd, ⟨_, hlast', rfl, rfl⟩⟩
    rw [hreq]
    exact congrArg some hitems

/-- The first packet of the slave makes a master, which answers it. -/
theorem Fresh.receive_data (now : ℚ) (h : Fresh p neigh) (hstate : neigh.state = .exStart)
    (hid : other.ospf.routerId.intIp < p.ospf.routerId.intIp) (hsplit : lsas ++ rest = other.summary) :
    ∃ neigh', p.receive now neigh (other.dataPacket neigh.ddSeqNo false more lsas) = some ⟨neigh',
        [p.dataPacket (neigh.ddSeqNo + 1) true (!(p.summary.drop ddMaxLsaCount).isEmpty)
          (p.summary.take ddMaxLsaCount)], false, false⟩ ∧
      MasterAt neigh' (neigh.ddSeqNo + 1) (p.summary.drop ddMaxLsaCount) (p.wanted lsas) ∧
      neigh'.state = .exchange ∧
      neigh'.lastrecvDDPacket = some (other.dataPacket neigh.ddSeqNo false more lsas) := by
  have hmtu : (other.dataPacket neigh.ddSeqNo false more lsas).interfaceMTU ≤ interfaceMTUDefault := other.mtu_le
  obtain ⟨neigh₁, sent, hfresh, hstate₁, hlast, hcases, heq⟩ := h.receive now hmtu
  rcases hcases with ⟨-, hseq₁, rfl⟩ | ⟨hinit, -⟩
  case inr => exact absurd (hstate.symm.trans hinit) (by decide)
  generalize hd : other.dataPacket neigh.ddSeqNo false more lsas = d at *
  have hheaders : d.lsaHeader = lsas := by rw [← hd]; rfl
  have hseq : d.ddSequenceNumber = neigh.ddSeqNo := by rw [← hd]; rfl
  have hopt : d.option = 0 := by rw [← hd]; rfl
  have hlists : Unlisted p { neigh₁ with isMaster := true } :=
    ⟨hfresh.peer, hfresh.reqs, hfresh.summary, hfresh.rxt, hfresh.sendList⟩
  obtain ⟨neigh₂, hstart, hs⟩ := hlists.startExchange_eq now hstate₁ hopt
  have hmore : neigh₂.imms.more = true := by
    rw [hs.imms]
    rcases hfresh.state with ⟨hbad, -⟩ | ⟨-, -, hm⟩
    · exact absurd (hstate₁.symm.trans hbad) (by decide)
    · exact hm
  have hsplit' : [] ++ lsas ++ rest = other.summary := hsplit
  have htyped : ∀ lsa ∈ d.lsaHeader, lsa.lsType ≠ .undefined := by
    rw [hheaders]
    exact typed_of_split hsplit'
  have hnil : ([] : List LsReqItem).map LsReqItem.lsHdr = p.wanted [] := rfl
  have hdistinct : (([] : List LsReqItem).map LsReqItem.lsHdr ++ d.lsaHeader).Pairwise
      fun a b => a.sameKey b = false := by
    rw [hheaders]
    exact requested_distinct hnil hsplit'
  obtain ⟨items, hitems, hproc⟩ := processDD_eq p now hs.reqs htyped hdistinct
  have hmaster : neigh₂.isMaster = true := hs.isMaster
  rw [if_pos hmaster] at hproc
  have hrun : processDDInExstart p.ospf p.thisInterface p.area now neigh₁ d =
      processAsMaster p.ospf p.thisInterface now { neigh₂ with neighLSReqList := some items } d := by
    have hinit : d.imms.init = false := by rw [← hd]; rfl
    have hms : d.imms.master = false := by rw [← hd]; rfl
    have hlt : d.routerId.intIp < p.ospf.routerId.intIp := by rw [← hd]; exact hid
    have hcond : (!d.imms.init && !d.imms.master && d.ddSequenceNumber == neigh₁.ddSeqNo &&
        decide (d.routerId.intIp < p.ospf.routerId.intIp)) = true := by
      rw [hinit, hms, hseq, hseq₁, decide_eq_true hlt, beq_self_eq_true]
      rfl
    have hno : ¬ (d.imms.init && d.imms.more && d.imms.master && d.lsaHeader.isEmpty &&
        decide (d.routerId.intIp > p.ospf.routerId.intIp)) = true := by
      rw [hinit]
      exact Bool.false_ne_true
    unfold processDDInExstart
    rw [if_neg hno, if_pos hcond]
    exact hstart.trans hproc
  have hmaster' : ({ neigh₂ with neighLSReqList := some items } : NeighborDs).isMaster = true := hmaster
  have hsummary : ({ neigh₂ with neighLSReqList := some items } : NeighborDs).neighDBSummaryList =
      some p.summary := hs.summary
  have hlast₂ : neigh₂.lastrecvDDPacket = some d := hs.received.trans hlast
  have hseq₂ : neigh₂.ddSeqNo = neigh.ddSeqNo := hs.seqNo.trans hseq₁
  rcases processAsMaster_eq p now d hmaster' hsummary with ⟨hbad, -⟩ |
    ⟨-, neigh', hans, hm, hseq', hopt', himms, hsum, hreq, hrecv, hst⟩
  · exact absurd (hmore.symm.trans hbad) (by decide)
  have hlast' : neigh'.lastrecvDDPacket = some d := hrecv.trans hlast₂
  refine ⟨neigh', ?_, ?_, hst.trans hs.state, hlast'⟩
  · rw [heq, hrun, hans, Option.map_some, ← hseq₂]
    rfl
  · refine ⟨hm, ?_, hopt'.trans hs.option, himms, hsum, ?_, ⟨d, hlast', ?_⟩⟩
    · rw [hseq', ← hseq₂]
    · rw [hreq, ← hheaders]
      exact congrArg some hitems
    · rw [hseq]

/-- What is handled in Exchange. -/
theorem receive_of_exchange (p : DdParty) (now : ℚ) (hstate : neigh.state = .exchange)
    (hmtu : d.interfaceMTU ≤ interfaceMTUDefault) :
    p.receive now neigh d = processDDInExchange p.ospf p.thisInterface p.area now
      { neigh with lastrecvDDPacket := some d } d (ddCheckDuplicate neigh d) := by
  have hdown : neigh.state ≠ .down := by rw [hstate]; decide
  have hattempt : neigh.state ≠ .attempt := by rw [hstate]; decide
  unfold DdParty.receive handleDD
  rw [validateDDMsg_of_state hmtu hdown hattempt]
  simp only [Bool.false_eq_true, if_false, hstate]

/-- What is handled in Loading and Full. -/
theorem receive_of_loading_or_full (p : DdParty) (now : ℚ) (hstate : neigh.state = .loading ∨ neigh.state = .full)
    (hmtu : d.interfaceMTU ≤ interfaceMTUDefault) :
    p.receive now neigh d = processDDInLoadingOrFull p.ospf now p.deadInterval
      { neigh with lastrecvDDPacket := some d } (ddCheckDuplicate neigh d) := by
  have hdown : neigh.state ≠ .down := by rcases hstate with hs | hs <;> rw [hs] <;> decide
  have hattempt : neigh.state ≠ .attempt := by rcases hstate with hs | hs <;> rw [hs] <;> decide
  unfold DdParty.receive handleDD
  rw [validateDDMsg_of_state hmtu hdown hattempt]
  rcases hstate with hs | hs
  · simp only [Bool.false_eq_true, if_false, hs]
  · simp only [Bool.false_eq_true, if_false, hs]

/-- A packet with another number is no duplicate. -/
theorem ddCheckDuplicate_eq_false {d' : DdPacket} (hlast : neigh.lastrecvDDPacket = some d')
    (hne : d.ddSequenceNumber ≠ d'.ddSequenceNumber) : ddCheckDuplicate neigh d = false := by
  unfold ddCheckDuplicate
  rw [hlast, Option.any_some, beq_eq_false_iff_ne.2 hne]
  rfl

theorem ddCheckDuplicate_self (hlast : neigh.lastrecvDDPacket = some d) : ddCheckDuplicate neigh d = true := by
  unfold ddCheckDuplicate
  rw [hlast, Option.any_some, beq_self_eq_true, beq_self_eq_true, beq_self_eq_true]
  rfl

/-- The successor of a sequence number is another number. -/
theorem succ_seq_ne (seq : UInt32) : seq + 1 ≠ seq := by
  intro h
  have hnat := congrArg UInt32.toNat h
  rw [UInt32.toNat_add] at hnat
  have hlt := seq.toNat_lt
  have hone : (1 : UInt32).toNat = 1 := rfl
  omega

/-- The packet that is expected next is processed: what is wanted of it is requested, and then it is answered. -/
theorem receive_expected {seq : UInt32} {master : Bool} (p : DdParty) (now : ℚ) (hstate : neigh.state = .exchange)
    (hd : d = other.dataPacket seq master more lsas) (hrole : neigh.isMaster = !master)
    (hoption : neigh.neighborOption = 0) (hdup : ddCheckDuplicate neigh d = false)
    (hseq : if master then seq = neigh.ddSeqNo + 1 else neigh.ddSeqNo = seq)
    (hrequested : neigh.requested = some (p.wanted got)) (hsplit : got ++ lsas ++ rest' = other.summary) :
    ∃ items, items.map LsReqItem.lsHdr = p.wanted (got ++ lsas) ∧
      p.receive now neigh d = if master then
          processAsSlave p.ospf p.thisInterface now
            { neigh with lastrecvDDPacket := some d, neighLSReqList := some items } d
        else
          processAsMaster p.ospf p.thisInterface now
            { neigh with lastrecvDDPacket := some d, neighLSReqList := some items } d := by
  obtain ⟨items, hitems, hmap⟩ := Option.map_eq_some_iff.1 hrequested
  have hmtu : d.interfaceMTU ≤ interfaceMTUDefault := by rw [hd]; exact other.mtu_le
  have hheaders : d.lsaHeader = lsas := by rw [hd]; rfl
  have hnumber : d.ddSequenceNumber = seq := by rw [hd]; rfl
  have himms : d.imms = ⟨false, more, master⟩ := by rw [hd]; rfl
  have hopt : d.option = 0 := by rw [hd]; rfl
  have hreq : ({ neigh with lastrecvDDPacket := some d } : NeighborDs).neighLSReqList = some items := hitems
  have htyped : ∀ lsa ∈ d.lsaHeader, lsa.lsType ≠ .undefined := by
    rw [hheaders]
    exact typed_of_split hsplit
  have hdistinct : (items.map LsReqItem.lsHdr ++ d.lsaHeader).Pairwise fun a b => a.sameKey b = false := by
    rw [hheaders]
    exact requested_distinct hmap hsplit
  obtain ⟨items', hitems', hproc⟩ := processDD_eq p now hreq htyped hdistinct
  refine ⟨items', ?_, ?_⟩
  · rw [hitems', hmap, hheaders, p.wanted_append]
  -- none of the tests for a mismatch applies
  have hms : (d.imms.master && neigh.isMaster || !d.imms.master && !neigh.isMaster) = false := by
    rw [himms, hrole]
    cases master <;> rfl
  have hoption' : (d.option != neigh.neighborOption) = false := by
    rw [hoption, hopt]
    rfl
  have hnext : (neigh.isMaster && neigh.ddSeqNo != d.ddSequenceNumber ||
      !neigh.isMaster && d.ddSequenceNumber != neigh.ddSeqNo + 1) = false := by
    rw [hrole, hnumber]
    cases master <;> simpa using hseq
  rw [receive_of_exchange p now hstate hmtu, hdup]
  unfold processDDInExchange
  dsimp only
  rw [hms, hoption', hnext, himms]
  refine hproc.trans ?_
  rw [hrole]
  cases master <;> rfl

/-- A slave that receives the next packet requests what it wants of it and answers with the next part of its
summary. -/
theorem SlaveAt.receive_next {seq : UInt32} (now : ℚ) (h : SlaveAt neigh seq rest (p.wanted got))
    (hstate : neigh.state = .exchange) (hd : d = other.dataPacket (seq + 1) true more lsas)
    (hsplit : got ++ lsas ++ rest' = other.summary) :
    ∃ neigh', p.receive now neigh d = some ⟨neigh',
        [p.dataPacket (seq + 1) false (!(rest.drop ddMaxLsaCount).isEmpty) (rest.take ddMaxLsaCount)],
        !more && (rest.drop ddMaxLsaCount).isEmpty, false⟩ ∧
      SlaveAt neigh' (seq + 1) (rest.drop ddMaxLsaCount) (p.wanted (got ++ lsas)) ∧ neigh'.state = .exchange := by
  obtain ⟨d₀, hlast₀, hseq₀, -⟩ := h.received
  have hseq : d.ddSequenceNumber = seq + 1 := by rw [hd]; rfl
  have himms : d.imms = ⟨false, more, true⟩ := by rw [hd]; rfl
  have hdup : ddCheckDuplicate neigh d = false := by
    refine ddCheckDuplicate_eq_false hlast₀ ?_
    rw [hseq, hseq₀]
    exact succ_seq_ne seq
  have hnext : seq + 1 = neigh.ddSeqNo + 1 := by rw [h.seqNo]
  obtain ⟨items, hitems, hreceive⟩ :=
    receive_expected p now hstate hd h.slave h.option hdup hnext h.requested hsplit
  have hslave' : ({ neigh with lastrecvDDPacket := some d, neighLSReqList := some items } :
      NeighborDs).isMaster = false := h.slave
  have hsum' : ({ neigh with lastrecvDDPacket := some d, neighLSReqList := some items } :
      NeighborDs).neighDBSummaryList = some rest := h.summary
  obtain ⟨neigh', hans, hm, hseq', hopt', hsum, hreq', hsentd, hrecv, hst⟩ := processAsSlave_eq p now d hslave' hsum'
  refine ⟨neigh', ?_, ?_, hst.trans hstate⟩
  · rw [himms, hseq] at hans
    exact hreceive.trans hans
  · refine ⟨hm, hseq'.trans hseq, hopt'.trans h.option, hsum, ?_, hsentd, ⟨d, hrecv, hseq, ?_⟩⟩
    · rw [hreq']
      exact congrArg some hitems
    · rw [himms]

/-- A master that receives the answer to its packet requests what it wants of it. It has finished when neither
side has more to describe, and else it sends the next part of its summary. -/
theorem MasterAt.receive_next {seq : UInt32} (now : ℚ) (h : MasterAt neigh seq rest (p.wanted got))
    (hstate : neigh.state = .exchange) (hd : d = other.dataPacket seq false more lsas)
    (hsplit : got ++ lsas ++ rest' = other.summary) :
    ∃ neigh', neigh'.isMaster = true ∧ neigh'.lastrecvDDPacket = some d ∧ neigh'.state = .exchange ∧
      neigh'.requested = some (p.wanted (got ++ lsas)) ∧
      (rest = [] ∧ more = false ∧ p.receive now neigh d = some ⟨neigh', [], true, false⟩ ∨
        (rest ≠ [] ∨ more = true) ∧ p.receive now neigh d = some ⟨neigh',
            [p.dataPacket (seq + 1) true (!(rest.drop ddMaxLsaCount).isEmpty) (rest.take ddMaxLsaCount)],
            false, false⟩ ∧
          MasterAt neigh' (seq + 1) (rest.drop ddMaxLsaCount) (p.wanted (got ++ lsas))) := by
  obtain ⟨d₀, hlast₀, hseq₀⟩ := h.received
  have hseq : d.ddSequenceNumber = seq := by rw [hd]; rfl
  have himms : d.imms = ⟨false, more, false⟩ := by rw [hd]; rfl
  have hdup : ddCheckDuplicate neigh d = false := by
    refine ddCheckDuplicate_eq_false hlast₀ ?_
    rw [hseq, ← hseq₀]
    exact succ_seq_ne d₀.ddSequenceNumber
  obtain ⟨items, hitems, hreceive⟩ :=
    receive_expected p now hstate hd h.master h.option hdup h.seqNo h.requested hsplit
  have hrequested : ({ neigh with lastrecvDDPacket := some d, neighLSReqList := some items } :
      NeighborDs).requested = some (p.wanted (got ++ lsas)) := congrArg some hitems
  have hmaster' : ({ neigh with lastrecvDDPacket := some d, neighLSReqList := some items } :
      NeighborDs).isMaster = true := h.master
  have hsum' : ({ neigh with lastrecvDDPacket := some d, neighLSReqList := some items } :
      NeighborDs).neighDBSummaryList = some rest := h.summary
  have hmore : neigh.imms.more = !rest.isEmpty := h.more
  rcases processAsMaster_eq p now d hmaster' hsum' with ⟨hno, hno', hans⟩ |
    ⟨hyes, neigh', hans, hm, hseq', hopt', himms', hsum, hreq', hrecv, hst⟩
  · refine ⟨{ neigh with
        lastrecvDDPacket := some d
        neighLSReqList := some items
        ddSeqNo := neigh.ddSeqNo + 1 }, hmaster', rfl, hstate, hrequested, .inl ⟨?_, ?_, hreceive.trans hans⟩⟩
    · rw [← List.isEmpty_iff, ← Bool.not_eq_false', ← hmore]
      exact hno
    · rw [himms] at hno'
      exact hno'
  · refine ⟨neigh', hm, hrecv, hst.trans hstate, hreq'.trans hrequested, .inr ⟨?_, ?_, ?_⟩⟩
    · rcases hyes with hyes | hyes
      · left
        rintro rfl
        have hbad : neigh.imms.more = true := hyes
        rw [hmore] at hbad
        exact absurd hbad (by decide)
      · right
        rw [himms] at hyes
        exact hyes
    · refine (hreceive.trans hans).trans ?_
      have hs : ({ neigh with lastrecvDDPacket := some d, neighLSReqList := some items } :
          NeighborDs).ddSeqNo = seq := h.seqNo
      rw [hs]
    · refine ⟨hm, ?_, hopt'.trans h.option, himms', hsum, hreq'.trans hrequested, ⟨d, hrecv, ?_⟩⟩
      · rw [hseq', ← h.seqNo]
      · rw [hseq]

/-! ## Duplicates -/

/-- A master drops a copy of the packet it received last. -/
theorem receive_last_of_master (p : DdParty) (now : ℚ) (hmaster : neigh.isMaster = true)
    (hstate : neigh.state = .exchange ∨ neigh.state = .loading ∨ neigh.state = .full)
    (hlast : neigh.lastrecvDDPacket = some d) : p.receive now neigh d = some (.quiet neigh) := by
  have hdup : ddCheckDuplicate neigh d = true := ddCheckDuplicate_self hlast
  have hsame : ({ neigh with lastrecvDDPacket := some d } : NeighborDs) = neigh := by rw [← hlast]
  by_cases hmtu : d.interfaceMTU ≤ interfaceMTUDefault
  · rcases hstate with hex | hlater
    · rw [receive_of_exchange p now hex hmtu, hdup, hsame]
      unfold processDDInExchange
      rw [if_pos rfl, if_pos hmaster]
    · rw [receive_of_loading_or_full p now hlater hmtu, hdup, hsame]
      unfold processDDInLoadingOrFull
      rw [hmaster, if_pos (Bool.and_self true)]
  · -- a packet that is too large is ignored as well
    have hinvalid : (!validateDDMsg neigh d) = true := by
      have hgt : d.interfaceMTU > interfaceMTUDefault := by omega
      unfold validateDDMsg
      rw [decide_eq_true hgt]
      rfl
    unfold DdParty.receive handleDD
    rw [if_pos hinvalid]

/-- **A slave in Exchange answers a duplicate with a copy of what it received**, not with what it sent last. -/
theorem SlaveAt.receive_duplicate {seq : UInt32} {reqs : List LsaHdr} (now : ℚ) (h : SlaveAt neigh seq rest reqs)
    (hstate : neigh.state = .exchange) (hdup : ddCheckDuplicate neigh d = true)
    (hmtu : d.interfaceMTU ≤ interfaceMTUDefault) :
    ∃ neigh' e, p.receive now neigh d = some ⟨neigh', [e], false, false⟩ ∧ neigh.lastSentDDPacket ≠ some e := by
  obtain ⟨d₀, hlast, -, hms⟩ := h.received
  obtain ⟨dsent, hsent, hslave⟩ := h.sent
  have himms : d.imms.master = true := by
    unfold ddCheckDuplicate at hdup
    rw [hlast, Option.any_some, Bool.and_eq_true, Bool.and_eq_true, beq_iff_eq, beq_iff_eq] at hdup
    rw [hdup.1.2, hms]
  have hnot : ¬ neigh.isMaster = true := by rw [h.slave]; decide
  have hresent : resent p.ospf now { neigh with lastrecvDDPacket := some d } =
      some ⟨({ neigh with lastrecvDDPacket := some d } : NeighborDs).sent now { d with routerId := p.ospf.routerId },
        [{ d with routerId := p.ospf.routerId }], false, false⟩ := rfl
  refine ⟨({ neigh with lastrecvDDPacket := some d } : NeighborDs).sent now { d with routerId := p.ospf.routerId },
    { d with routerId := p.ospf.routerId }, ?_, ?_⟩
  · rw [receive_of_exchange p now hstate hmtu, hdup]
    unfold processDDInExchange
    rw [if_pos rfl, if_neg hnot]
    exact hresent
  · intro hbad
    obtain rfl := Option.some.inj (hsent.symm.trans hbad)
    exact absurd (hslave.symm.trans himms) (by decide)

/-! ## The end of the exchange -/

/-- The end of the exchange leaves the state Exchange and changes no request. -/
theorem handleExchangeDone_frame (h : handleExchangeDone neigh = some neigh') :
    (∃ state reqs seq, neigh' =
        { neigh with state := state, neighLSReqList := reqs, lsReqTimerSequenceNumber := seq } ∧
      (state = neigh.state ∨ state = .loading ∨ state = .full)) ∧ neigh'.requested = neigh.requested := by
  unfold handleExchangeDone at h
  split at h
  · obtain rfl := Option.some.inj h
    exact ⟨⟨_, _, _, rfl, .inl rfl⟩, rfl⟩
  · obtain ⟨list, hlist, hout⟩ := Option.map_eq_some_iff.1 h
    split at hout
    · obtain rfl := hout
      exact ⟨⟨_, _, _, rfl, .inr (.inr rfl)⟩, rfl⟩
    · obtain rfl := hout
      refine ⟨⟨_, _, _, rfl, .inr (.inl rfl)⟩, ?_⟩
      unfold NeighborDs.requested
      rw [hlist]
      exact congrArg some (lsreqSend_lsHdr ⟨list, neigh.lsReqTimerSequenceNumber⟩ false)

/-- A slave that has finished is a slave. -/
theorem SlaveAt.exchangeDone {seq : UInt32} {reqs : List LsaHdr} (h : SlaveAt neigh seq rest reqs)
    (hdone : handleExchangeDone neigh = some neigh') : SlaveAt neigh' seq rest reqs := by
  obtain ⟨⟨state, list, n, rfl, -⟩, hreq⟩ := handleExchangeDone_frame hdone
  exact ⟨h.slave, h.seqNo, h.option, h.summary, hreq.trans h.requested, h.sent, h.received⟩

end NetSim.Ospf
