import NetSim.Proof.AmOnce
import NetSim.Proof.AmSegments

/-!
# When a STATUS PDU acknowledges only what was received

A STATUS PDU acknowledges everything below `RX_Next_Highest` that it does not NACK. It
does not look below `RX_Next`, nor behind the last segment recorded of an SN, and it says
nothing of what is sent later. So it can only be trusted where

* `RX_Next` passed no SN that was not handed up (`NoneSkipped`),
* no segment is missing behind all that is recorded of its SN, and no 256 SNs in a row are
  missing (`Reportable`),
* nothing below `Ack_SN` was sent since, unless it is NACKed.

`acknowledged_received`: in the runs that meet these, every STATUS PDU covers what the
receiver lacks below `Ack_SN`, and the sender clears only what was received.
`acknowledged_lost`: a run that clears three SDUs of which nothing arrived.
-/

namespace NetSim.Rlc

open Word

/-- A segment is among the PDUs placed. -/
def Received (placed : List AmdPdu) (sn so : ℕ) : Prop := ∃ p ∈ placed, p.sn = sn ∧ p.so = so

instance (placed : List AmdPdu) (sn so : ℕ) : Decidable (Received placed sn so) := by
  unfold Received
  infer_instance

theorem Received.mono {placed placed' : List AmdPdu} {sn so : ℕ} (h : Received placed sn so)
    (hsub : placed ⊆ placed') : Received placed' sn so := by
  obtain ⟨p, hp, hk⟩ := h
  exact ⟨p, hsub hp, hk⟩

/-- Every SN from `lo` on that was not handed up is still incomplete, or behind one that is. -/
def NoneSkipped (rx : AmRx) (lo : ℕ) (delivered : List ℕ) : Prop :=
  ∀ y ∈ List.range' lo (rx.rxNextHighest - lo), y ∈ delivered ∨ ∃ z ∈ snsOf rx.receptionBuffer, z ≤ y

/-- No sent segment is missing behind all that is recorded of its SN, and no gap is too wide
for the range of a NACK. -/
structure Reportable (rx : AmRx) (sent placed : List AmdPdu) : Prop where
  tail : ∀ p ∈ sent, Received placed p.sn p.so ∨ (∀ r ∈ rx.recvdInfo, r.sn ≠ p.sn) ∨
    ∃ r ∈ rx.recvdInfo, r.sn = p.sn ∧ (r.si.endsSdu = true ∨ p.so < r.so)
  gap : rx.NoWideGap

instance (rx : AmRx) (lo : ℕ) (delivered : List ℕ) : Decidable (NoneSkipped rx lo delivered) := by
  unfold NoneSkipped
  infer_instance

instance (rx : AmRx) : Decidable rx.NoWideGap := by
  unfold AmRx.NoWideGap
  infer_instance

instance (rx : AmRx) (sent placed : List AmdPdu) : Decidable (Reportable rx sent placed) :=
  decidable_of_iff (_ ∧ _) ⟨fun h => ⟨h.1, h.2⟩, fun h => ⟨h.tail, h.gap⟩⟩

/-! ## The receiver -/

/-- A reception buffer holds placed PDUs of its SN, among them the last one it counts on. -/
structure Holds (placed : List AmdPdu) (b : ReceptionBuffer) : Prop where
  packets : ∀ p ∈ b.packets, p.sn = b.sn ∧ p ∈ placed
  last : b.isLastSduReceived = true → ∃ p ∈ b.packets, p.si.endsSdu = true ∧ p.so = b.lastSduSo

/-- What a receiver's state says about the PDUs it has placed. -/
structure Knows (rx : AmRx) (placed : List AmdPdu) (delivered : List ℕ) : Prop where
  ok : RxOk rx
  buffers : ∀ b ∈ rx.receptionBuffer, Holds placed b
  recorded : ∀ r ∈ rx.recvdInfo, SentHdr placed r.si r.sn r.so
  /-- An SN that was handed up was received up to the end of its SDU. -/
  whole : ∀ y ∈ delivered, ∃ q ∈ placed, q.sn = y ∧ q.si.endsSdu = true ∧ ∀ i ≤ q.so, Received placed y i
  passed : ∀ y < rx.rxNext, y ∈ delivered

section Knows

variable {rx rx' : AmRx} {placed : List AmdPdu} {delivered : List ℕ} {pdu : AmdPdu}

theorem Holds.mono {b : ReceptionBuffer} {placed' : List AmdPdu} (h : Holds placed b) (hsub : placed ⊆ placed') :
    Holds placed' b :=
  ⟨fun p hp => ⟨(h.packets p hp).1, hsub (h.packets p hp).2⟩, h.last⟩

theorem Holds.add {b : ReceptionBuffer} (h : Holds placed b) (hsn : b.sn = pdu.sn) (hp : pdu ∈ placed) :
    Holds placed (b.add pdu) := by
  constructor
  · intro p hm
    rw [add_packets] at hm
    rw [add_sn]
    rcases List.mem_append.1 hm with hm | hm
    · exact h.packets p hm
    · rw [List.mem_singleton.1 hm]
      exact ⟨hsn.symm, hp⟩
  · intro hl
    rw [add_packets]
    unfold ReceptionBuffer.add at hl ⊢
    dsimp only at hl ⊢
    split at hl
    · rename_i hends
      rw [if_pos hends]
      exact ⟨pdu, List.mem_append_right _ (List.mem_singleton_self _), hends, rfl⟩
    · rename_i hends
      rw [if_neg hends]
      obtain ⟨p, hm, hq⟩ := h.last hl
      exact ⟨p, List.mem_append_left _ hm, hq⟩

/-- The buffer that got a placed PDU. -/
theorem Holds.placeIn {l : List ReceptionBuffer} (h : ∀ b ∈ l, Holds placed b) (hp : pdu ∈ placed) :
    Holds placed (placeIn pdu l).1 := by
  rcases placeIn_fst pdu l with ⟨b, hb, hsn, heq⟩ | ⟨-, heq⟩
  · rw [heq]
    exact (h b hb).add hsn hp
  · rw [heq]
    have hempty : Holds placed ⟨0, pdu.sn, 0, false, []⟩ :=
      ⟨fun p hp => absurd hp List.not_mem_nil, fun hl => absurd hl (by simp)⟩
    exact hempty.add rfl hp

/-- A buffer that is complete has every segment up to the end of the SDU. -/
theorem Holds.received {b : ReceptionBuffer} (h : Holds placed b) (hall : b.isAllByteSegmentReceived = true) :
    ∃ q ∈ placed, q.sn = b.sn ∧ q.si.endsSdu = true ∧ ∀ i ≤ q.so, Received placed b.sn i := by
  unfold ReceptionBuffer.isAllByteSegmentReceived at hall
  rw [Bool.and_eq_true, List.all_eq_true] at hall
  obtain ⟨q, hq, hends, hso⟩ := h.last hall.1
  refine ⟨q, (h.packets q hq).2, (h.packets q hq).1, hends, ?_⟩
  intro i hi
  rcases Nat.lt_or_ge i b.lastSduSo with hlt | hge
  · obtain ⟨p, hp, hpi⟩ := List.any_eq_true.1 (hall.2 i (List.mem_range.2 hlt))
    exact ⟨p, (h.packets p hp).2, (h.packets p hp).1, of_decide_eq_true hpi⟩
  · exact ⟨q, (h.packets q hq).2, (h.packets q hq).1, by omega⟩

theorem whole_mono {placed' : List AmdPdu} {y : ℕ} (hsub : placed ⊆ placed')
    (h : ∃ q ∈ placed, q.sn = y ∧ q.si.endsSdu = true ∧ ∀ i ≤ q.so, Received placed y i) :
    ∃ q ∈ placed', q.sn = y ∧ q.si.endsSdu = true ∧ ∀ i ≤ q.so, Received placed' y i := by
  obtain ⟨q, hq, hsn, hends, hall⟩ := h
  exact ⟨q, hsub hq, hsn, hends, fun i hi => (hall i hi).mono hsub⟩

/-- `RX_Next` after it was recomputed. -/
theorem passed_of_noneSkipped (hok : RxOk rx') (hpassed : ∀ y < rx.rxNext, y ∈ delivered)
    (hskip : NoneSkipped rx' rx.rxNext delivered) : ∀ y < rx'.rxNext, y ∈ delivered := by
  intro y hy
  rcases Nat.lt_or_ge y rx.rxNext with hlt | hge
  · exact hpassed y hlt
  · have hle := hok.le
    rcases hskip y (by rw [List.mem_range'_1]; omega) with hd | ⟨z, hz, hzy⟩
    · exact hd
    · have := hok.low z hz
      omega

/-- **A PDU is placed.** -/
theorem Knows.place {sdus : List Sdu} (h : Knows rx placed delivered)
    (hw : rx.isSnInReceivingWindow pdu.sn = true) (hp : rx.placeAmdPduInReceptionBuffer pdu = (rx', sdus))
    (hskip : sdus ≠ [] → NoneSkipped rx' rx.rxNext (delivered ++ deliveredSns sdus)) :
    Knows rx' (placed ++ [pdu]) (delivered ++ deliveredSns sdus) := by
  have hsub : placed ⊆ placed ++ [pdu] := List.subset_append_left _ _
  have hmem : pdu ∈ placed ++ [pdu] := List.mem_append_right _ (List.mem_singleton_self _)
  obtain ⟨hok, -, hcases⟩ := h.ok.place hw hp
  obtain ⟨-, hrecvd, -⟩ := AmRx.placeAmdPdu_cases hp
  have hold : ∀ b ∈ rx.receptionBuffer, Holds (placed ++ [pdu]) b := fun b hb => (h.buffers b hb).mono hsub
  have hnew := Holds.placeIn hold hmem
  have hrec : ∀ r ∈ rx'.recvdInfo, SentHdr (placed ++ [pdu]) r.si r.sn r.so := by
    intro r hr
    rw [hrecvd] at hr
    rcases List.mem_append.1 hr with hr | hr
    · exact sentHdr_append.2 (Or.inl (h.recorded r hr))
    · rw [List.mem_singleton.1 hr]
      exact sentHdr_append.2 (Or.inr ⟨rfl, rfl, rfl⟩)
  have hwhole : ∀ y ∈ delivered, _ := fun y hy => whole_mono hsub (h.whole y hy)
  rcases hcases with ⟨rfl, hbuf, hnext⟩ | ⟨hall, ⟨sdu, rfl, hsn⟩, hbuf, -⟩
  · rw [deliveredSns, List.map_nil, List.append_nil]
    refine ⟨hok, ?_, hrec, hwhole, ?_⟩
    · intro b hb
      rw [hbuf] at hb
      rcases (mem_placeIn h.ok.nodup).1 hb with rfl | ⟨hb, -⟩
      · exact hnew
      · exact hold b hb
    · rw [hnext]
      exact h.passed
  · have hskip := hskip (by simp)
    rw [deliveredSns, List.map_singleton, hsn] at hskip ⊢
    refine ⟨hok, fun b hb => hold b ((hbuf b).1 hb).1, hrec, ?_,
      passed_of_noneSkipped hok (fun y hy => List.mem_append_left _ (h.passed y hy)) hskip⟩
    intro y hy
    rcases List.mem_append.1 hy with hy | hy
    · exact hwhole y hy
    · rw [List.mem_singleton.1 hy, ← placeIn_sn pdu rx.receptionBuffer]
      exact hnew.received hall

/-- **The reassembly timer expires.** -/
theorem Knows.expire {cfg : AmConfig} (h : Knows rx placed delivered)
    (hskip : NoneSkipped (rx.expireReassembly cfg) rx.rxNext delivered) :
    Knows (rx.expireReassembly cfg) placed delivered := by
  obtain ⟨hbuf, hrecvd, hhigh, hnext⟩ := AmRx.expireReassembly_eq cfg rx
  obtain ⟨hok, -⟩ := h.ok.drop hbuf hhigh hnext
  refine ⟨hok, ?_, fun r hr => h.recorded r (hrecvd hr), h.whole,
    passed_of_noneSkipped hok h.passed hskip⟩
  intro b hb
  rw [hbuf] at hb
  exact h.buffers b (List.mem_of_mem_filter hb)

theorem Knows.reports {statuses : List StatusPdu} (h : Knows rx placed delivered)
    (hr : AmRx.Reports rx rx' statuses) : Knows rx' placed delivered := by
  refine ⟨h.ok.reports hr, ?_, fun r hm => h.recorded r (hr.recvdInfo hm), h.whole, ?_⟩
  · intro b hb
    have hmem : AmRx.content b ∈ rx.receptionBuffer.map AmRx.content := by
      rw [← hr.buffers]
      exact List.mem_map_of_mem hb
    obtain ⟨c, hc, heq⟩ := List.mem_map.1 hmem
    have hc := h.buffers c hc
    unfold AmRx.content at heq
    injection heq with h1 h2 h3 h4 h5
    exact ⟨by rw [← h2, ← h5]; exact hc.packets, by rw [← h3, ← h4, ← h5]; exact hc.last⟩
  · rw [hr.rxNext]
    exact h.passed

/-- **A STATUS PDU covers what the receiver lacks** below `Ack_SN`. -/
theorem Knows.covers {tx : AmTx} {sent : List AmdPdu} {nacks : List Nack} (h : Knows rx placed delivered)
    (hseg : AmTx.Segments tx (SentHdr sent)) (hsub : placed ⊆ sent) (hrep : Reportable rx sent placed)
    (hn : rx.updateStatus = some nacks) :
    (∀ n ∈ nacks.reverse, n.e3 = true → n.nackSn + n.nackRange < 4294967296) ∧
      ∀ p ∈ sent, p.sn < rx.rxNextHighest → Received placed p.sn p.so ∨ Covered nacks.reverse p.sn p.so := by
  obtain ⟨hnok, hcov⟩ := AmRx.covered_of_updateStatus hrep.gap h.ok.bound hn
  have hbound := h.ok.bound
  refine ⟨fun n hm he3 => Nat.lt_of_le_of_lt ((hnok n hm).range he3).2.2.1 hbound, ?_⟩
  intro p hp hlt
  have hsent : SentHdr sent p.si p.sn p.so := ⟨p, hp, rfl, rfl, rfl⟩
  have hplaced : ∀ si sn so, SentHdr placed si sn so → SentHdr sent si sn so ∧ Received placed sn so := by
    rintro si sn so ⟨q, hq, rfl, rfl, rfl⟩
    exact ⟨⟨q, hsub hq, rfl, rfl, rfl⟩, q, hq, rfl, rfl⟩
  rcases Nat.lt_or_ge p.sn rx.rxNext with hlow | hge
  · obtain ⟨q, hq, hqsn, hends, hall⟩ := h.whole p.sn (h.passed p.sn hlow)
    exact Or.inl (hall p.so (hseg.last q.si p.si p.sn q.so p.so ⟨q, hsub hq, rfl, hqsn, rfl⟩ hsent hends))
  · cases hl : AmRx.findLastStatusInfo p.sn rx.recvdInfo none with
    | none =>
      refine Or.inr (hcov p.sn p.so hge hlt ?_)
      unfold AmRx.Missing
      rw [hl]
      trivial
    | some r =>
      obtain ⟨hmem, hsn, hlast⟩ := AmRx.findLastStatusInfo_some (fun q hq => absurd hq (by simp)) hl
      have hr : r ∈ rx.recvdInfo := hmem.elim id fun hm => absurd hm (by simp)
      obtain ⟨hrsent, hrrecv⟩ := hplaced _ _ _ (h.recorded r hr)
      rw [hsn] at hrsent hrrecv
      -- up to the last recorded segment
      have hle : Received placed p.sn p.so ∨ p.so ≤ r.so := by
        rcases hlast with hends | ⟨hmax, -⟩
        · exact Or.inr (hseg.last _ _ _ _ _ hrsent hsent hends)
        · rcases hrep.tail p hp with hrec | hnone | ⟨t, ht, htsn, htail⟩
          · exact Or.inl hrec
          · exact absurd hsn (hnone r hr)
          · obtain ⟨hnot, hso⟩ := hmax t ht htsn
            rcases htail with hends | hlt
            · rw [hnot] at hends
              exact absurd hends (by simp)
            · exact Or.inr (by omega)
      rcases hle with hrec | hle
      · exact Or.inl hrec
      · by_cases hall : r.si = .all
        · rw [hall] at hrsent
          have hzero := hseg.all p.sn r.so hrsent
          rw [show p.so = r.so by omega]
          exact Or.inl hrrecv
        · cases hf : rx.findStatus p.sn p.so with
          | none =>
            refine Or.inr (hcov p.sn p.so hge hlt ?_)
            unfold AmRx.Missing
            rw [hl]
            exact ⟨hall, hle, by rw [hf]; rfl⟩
          | some t =>
            have htmem := List.mem_of_find?_eq_some hf
            have htkey : t.sn = p.sn ∧ t.so = p.so := by simpa using List.find?_some hf
            obtain ⟨-, htrecv⟩ := hplaced _ _ _ (h.recorded t htmem)
            rw [htkey.1, htkey.2] at htrecv
            exact Or.inl htrecv

end Knows

/-! ## The pair -/

namespace StatusReport

/-- What the report says of a sent PDU: it was received, or it is NACKed. -/
def Covers (r : StatusReport) : Prop :=
  ∀ p ∈ r.sent, p.sn < r.pdu.ackSn → Received r.placed p.sn p.so ∨ Covered r.pdu.nacks p.sn p.so

end StatusReport

namespace AmPair

/-- The steps after which a STATUS PDU can be trusted. -/
def Trusted (cfg : AmConfig) (s : AmPair) : AmEvent → Prop
  | .enqueue _ _ => s.tx.txNext + 1 < 4294967296
  | .grant _ _ => ∀ b ∈ s.tx.transmissionBuffer, b.so < 65535
  | .pollRetransmit => True
  | .statusArrives i => ∀ r ∈ s.reports[i]?, ∀ b ∈ s.tx.transmittedBuffer, b.sn < r.pdu.ackSn →
      (∃ p ∈ r.sent, p.sn = b.sn ∧ p.so = b.so) ∨ Covered r.pdu.nacks b.sn b.so
  | .pduArrives i => ∀ pdu ∈ s.sent[i]?, s.rx.discards pdu = false →
      ((s.rx.placeAmdPduInReceptionBuffer pdu).2 ≠ [] →
        NoneSkipped (s.rx.placeAmdPduInReceptionBuffer pdu).1 s.rx.rxNext
          (deliveredSns s.delivered ++ deliveredSns (s.rx.placeAmdPduInReceptionBuffer pdu).2)) ∧
      ((pdu.p || (s.rx.placeAmdPduInReceptionBuffer pdu).1.isStatusReportDelayed) = true →
        (s.rx.placeAmdPduInReceptionBuffer pdu).1.isStatusProhibitTimerStarted = false →
          Reportable (s.rx.placeAmdPduInReceptionBuffer pdu).1 s.sent (s.placed ++ [pdu]))
  | .reassembly => s.rx.isReassemblyTimerStarted = true →
      NoneSkipped (s.rx.expireReassembly cfg) s.rx.rxNext (deliveredSns s.delivered) ∧
      ((s.rx.expireReassembly cfg).isStatusProhibitTimerStarted = false →
        Reportable (s.rx.expireReassembly cfg) s.sent s.placed)
  | .statusProhibit => s.rx.isConstructStatusReortDelayed = true → Reportable s.rx s.sent s.placed

instance (cfg : AmConfig) (s : AmPair) (e : AmEvent) : Decidable (Trusted cfg s e) :=
  match e with
  | .enqueue _ _ | .grant _ _ | .pollRetransmit | .statusArrives _ | .pduArrives _ | .reassembly
  | .statusProhibit => by
    dsimp only [Trusted]
    infer_instance

structure Acknowledged (s : AmPair) : Prop where
  segments : AmTx.Segments s.tx (SentHdr s.sent)
  placed : s.placed ⊆ s.sent
  knows : Knows s.rx s.placed (deliveredSns s.delivered)
  reports : ∀ r ∈ s.reports, r.placed ⊆ s.placed ∧
    (∀ n ∈ r.pdu.nacks, n.e3 = true → n.nackSn + n.nackRange < 4294967296) ∧ r.Covers
  cleared : ∀ b ∈ s.cleared, Received s.placed b.sn b.so

variable {H : HdrLib} {cfg : AmConfig} {s s' : AmPair}

/-- **An event of the receiver** first places and hands up, and then may build a STATUS PDU. -/
theorem Acknowledged.receive (h : Acknowledged s) (rx₁ : AmRx) {rx' : AmRx} {out : AmRx.Output}
    (hk : Knows rx₁ (s.placed ++ out.placed) (deliveredSns s.delivered ++ deliveredSns out.sdus))
    (hsub : out.placed ⊆ s.sent) (hr : AmRx.Reports rx₁ rx' out.statuses)
    (hrep : out.statuses ≠ [] → Reportable rx₁ s.sent (s.placed ++ out.placed)) :
    Acknowledged (s.receive (rx', out)) := by
  have hplaced : s.placed ++ out.placed ⊆ s.sent := List.append_subset.2 ⟨h.placed, hsub⟩
  have hgrow : s.placed ⊆ s.placed ++ out.placed := List.subset_append_left _ _
  have hdelivered : deliveredSns (s.delivered ++ out.sdus) =
      deliveredSns s.delivered ++ deliveredSns out.sdus := List.map_append
  refine ⟨h.segments, hplaced, ?_, ?_, fun b hb => (h.cleared b hb).mono hgrow⟩
  · show Knows rx' _ (deliveredSns (s.delivered ++ out.sdus))
    rw [hdelivered]
    exact hk.reports hr
  · intro r hm
    rcases List.mem_append.1 hm with hm | hm
    · obtain ⟨h1, h2, h3⟩ := h.reports r hm
      exact ⟨fun p hp => hgrow (h1 hp), h2, h3⟩
    · obtain ⟨pdu, hpdu, rfl⟩ := List.mem_map.1 hm
      obtain ⟨nacks, hn, rfl⟩ := hr.built pdu hpdu
      obtain ⟨h2, h3⟩ := hk.covers h.segments hplaced (hrep (List.ne_nil_of_mem hpdu)) hn
      exact ⟨fun p hp => hp, h2, h3⟩

/-- **A STATUS PDU arrives**: what it clears, it does not NACK, so it was received. -/
theorem Acknowledged.status {i : ℕ} (h : Acknowledged s) (hok : Trusted cfg s (.statusArrives i))
    (hs : s.step H cfg (.statusArrives i) = some s') : Acknowledged s' := by
  obtain ⟨r, hr, hs⟩ := Option.bind_eq_some_iff.1 hs
  obtain ⟨gone, hgone, hs⟩ := Option.bind_eq_some_iff.1 hs
  obtain ⟨tx, htx, hs⟩ := Option.bind_eq_some_iff.1 hs
  obtain rfl := Option.some.inj hs
  obtain ⟨hsub, hlt, hcovers⟩ := h.reports r (List.mem_of_getElem? hr)
  refine ⟨h.segments.status htx, h.placed, h.knows, h.reports, ?_⟩
  intro b hb
  rcases List.mem_append.1 hb with hb | hb
  · exact h.cleared b hb
  · obtain ⟨⟨hit, rest⟩, hfind, rfl⟩ := Option.map_eq_some_iff.1 hgone
    obtain ⟨hrest, hack⟩ := List.mem_filter.1 hb
    have hack : b.sn < r.pdu.ackSn := of_decide_eq_true hack
    have hdist := h.segments.distinct
    rw [keys_append] at hdist
    obtain ⟨hmem, hnot⟩ := AmTx.not_covered_of_nackFindAll (hdist.sublist (List.sublist_append_left _ _))
      hlt hfind hrest
    rcases hok r hr b hmem hack with ⟨p, hp, hsn, hso⟩ | hcov
    · rw [← hsn] at hack
      rcases hcovers p hp hack with hrec | hcov
      · rw [hsn, hso] at hrec
        exact hrec.mono hsub
      · rw [hsn, hso] at hcov
        exact absurd hcov hnot
    · exact absurd hcov hnot

theorem Acknowledged.step {e : AmEvent} (h : Acknowledged s) (hok : Trusted cfg s e)
    (hs : s.step H cfg e = some s') : Acknowledged s' := by
  cases e with
  | enqueue p ch =>
    simp only [AmPair.step, AmTx.step, Option.map_some, Option.some.injEq] at hs
    subst hs
    refine ⟨?_, h.placed, h.knows, h.reports, h.cleared⟩
    show AmTx.Segments (if _ then _ else _) _
    split
    · exact h.segments.enqueue p hok
    · exact h.segments
  | grant size ch =>
    simp only [AmPair.step, AmTx.step, Option.map_some, Option.some.injEq] at hs
    subst hs
    refine ⟨?_, fun p hp => List.mem_append_left _ (h.placed hp), h.knows, h.reports, h.cleared⟩
    unfold AmTx.grantCalls
    split
    · exact AmTx.Segments.moves (AmTx.sendPdu_moves H cfg s.tx size ch) hok h.segments
    · rw [List.map_nil, List.append_nil]
      exact h.segments
  | pollRetransmit =>
    obtain ⟨tx, htx, rfl⟩ := Option.map_eq_some_iff.1 hs
    exact ⟨h.segments.poll htx, h.placed, h.knows, h.reports, h.cleared⟩
  | statusArrives i => exact h.status hok hs
  | pduArrives i =>
    obtain ⟨pdu, hpdu, hs⟩ := Option.bind_eq_some_iff.1 hs
    obtain ⟨⟨rx', out⟩, hr, hs⟩ := Option.bind_eq_some_iff.1 hs
    obtain rfl := Option.some.inj hs
    rcases AmRx.receivePdu_cases hr with ⟨-, rfl, rfl⟩ | ⟨hd, hplaced, rx₁, hp, hrep⟩
    · refine h.receive s.rx ?_ (List.nil_subset _) (AmRx.Reports.refl _) (fun hne => absurd rfl hne)
      rw [List.append_nil, deliveredSns_nil, List.append_nil]
      exact h.knows
    · obtain ⟨hskip, hreport⟩ := hok pdu hpdu hd
      rw [hp] at hskip hreport
      have hk := h.knows.place (inWindow_of_not_discards hd) hp hskip
      rw [← hplaced] at hk hreport
      refine h.receive rx₁ hk ?_ hrep fun hne => ?_
      · rw [hplaced]
        exact List.cons_subset.2 ⟨List.mem_of_getElem? hpdu, List.nil_subset _⟩
      · obtain ⟨hasked, hfree⟩ := AmRx.receivePdu_builds hr hne
        rw [hp] at hasked hfree
        exact hreport hasked hfree
  | reassembly =>
    obtain ⟨⟨rx', out⟩, hr, rfl⟩ := Option.map_eq_some_iff.1 hs
    obtain ⟨hstarted, hfree⟩ := AmRx.handleReassemblyTimer_builds hr
    obtain ⟨hplaced, hsdus, hrep⟩ := AmRx.handleReassemblyTimer_cases hr
    obtain ⟨hskip, hreport⟩ := hok hstarted
    refine h.receive (s.rx.expireReassembly cfg) ?_ ?_ hrep fun hne => ?_
    · rw [hplaced, hsdus, List.append_nil, deliveredSns_nil, List.append_nil]
      exact h.knows.expire hskip
    · rw [hplaced]
      exact List.nil_subset _
    · rw [hplaced, List.append_nil]
      exact hreport (hfree hne)
  | statusProhibit =>
    obtain ⟨⟨rx', out⟩, hr, rfl⟩ := Option.map_eq_some_iff.1 hs
    obtain ⟨hplaced, hsdus, hrep⟩ := AmRx.handleStatusProhibitTimer_cases hr
    refine h.receive s.rx ?_ ?_ hrep fun hne => ?_
    · rw [hplaced, hsdus, List.append_nil, deliveredSns_nil, List.append_nil]
      exact h.knows
    · rw [hplaced]
      exact List.nil_subset _
    · rw [hplaced, List.append_nil]
      exact hok (AmRx.handleStatusProhibitTimer_builds hr hne)

theorem acknowledged_init : Acknowledged init := by
  refine ⟨AmTx.segments_init fun si sn so ⟨p, hp, _⟩ => absurd hp List.not_mem_nil, List.nil_subset _,
    ⟨rxOk_init, fun b hb => absurd hb List.not_mem_nil, fun r hr => absurd hr List.not_mem_nil,
      fun y hy => absurd hy List.not_mem_nil, fun y hy => absurd hy (Nat.not_lt_zero y)⟩,
    fun r hr => absurd hr List.not_mem_nil, fun b hb => absurd hb List.not_mem_nil⟩

/-- **What is acknowledged was received.** In every run whose steps can be trusted, each
STATUS PDU covers every segment that was sent below its `Ack_SN` and not received when it was
built, and every PDU that the sender clears was received. -/
theorem acknowledged_received (H : HdrLib) (cfg : AmConfig) {s : AmPair}
    (h : (machine H cfg).ReachOn (Trusted cfg) s) :
    (∀ r ∈ s.reports, ∀ p ∈ r.sent, p.sn < r.pdu.ackSn → ¬ Received r.placed p.sn p.so →
      ∃ n ∈ r.pdu.nacks, n.Covers p.sn p.so) ∧
    ∀ b ∈ s.cleared, Received s.placed b.sn b.so := by
  have hi : Acknowledged s := by
    refine h.inv (I := Acknowledged) (fun s h0 => ?_) fun s e s' hi hok hs => hi.step hok hs
    have h0 : s = init := h0
    exact h0 ▸ acknowledged_init
  refine ⟨?_, hi.cleared⟩
  intro r hr p hp hlt hnot
  exact ((hi.reports r hr).2.2 p hp hlt).resolve_left hnot

/-- Four SDUs, the second in two segments. Its first segment and the third SDU are lost. -/
def oneSegmentLost : List AmEvent :=
  [.enqueue (userSdu 0) .dtch, .enqueue (userSdu 1) .dtch, .enqueue (userSdu 2) .dtch,
    .enqueue (userSdu 3) .dtch, .grant 160 .dtch, .grant 1000 .dtch, .pduArrives 0, .pduArrives 2,
    .pduArrives 4, .statusArrives 0]

theorem acknowledged_received_oneSegmentLost : ∃ s : AmPair,
    (machine .overhead .shipped).ReachOn (Trusted .shipped) s ∧
      s.reports.map (fun r => r.pdu.nacks.map fun n => (n.nackSn, n.e2)) = [[(1, true), (2, false)]] ∧
      s.cleared.map (fun b => (b.sn, b.so)) = [(0, 0), (1, 1), (3, 0)] ∧
      (∀ r ∈ s.reports, ∀ p ∈ r.sent, p.sn < r.pdu.ackSn → ¬ Received r.placed p.sn p.so →
        ∃ n ∈ r.pdu.nacks, n.Covers p.sn p.so) ∧
      ∀ b ∈ s.cleared, Received s.placed b.sn b.so := by
  obtain ⟨s, hs, h1, h2⟩ := Machine.ReachOn.exists_of_execOn (M := machine .overhead .shipped)
    (P := fun s => s.reports.map (fun r => r.pdu.nacks.map fun n => (n.nackSn, n.e2)) =
      [[(1, true), (2, false)]] ∧ s.cleared.map (fun b => (b.sn, b.so)) = [(0, 0), (1, 1), (3, 0)])
    (Trusted .shipped) oneSegmentLost (.init rfl) (by decide)
  exact ⟨s, hs, h1, h2, acknowledged_received .overhead .shipped hs⟩

/-- Four SDUs are sent and only the last one arrives. -/
def firstThreeLost : List AmEvent :=
  [.enqueue (userSdu 0) .dtch, .enqueue (userSdu 1) .dtch, .enqueue (userSdu 2) .dtch,
    .enqueue (userSdu 3) .dtch, .grant 500 .dtch, .pduArrives 3, .statusArrives 0]

/-- **Acknowledged and lost.** The last SDU moves `RX_Next` past the three before it. The STATUS
PDU has no NACK, and the sender clears all four. -/
theorem acknowledged_lost :
    (∃ s : AmPair, (machine .overhead .shipped).Reach s ∧
      s.reports.map (·.pdu) = [⟨4, []⟩] ∧ s.cleared.map (·.sn) = [0, 1, 2, 3] ∧
      s.placed.map (·.sn) = [3]) ∧
    ¬ ∀ (H : HdrLib) (cfg : AmConfig) (s : AmPair), (machine H cfg).Reach s →
      (∀ r ∈ s.reports, ∀ p ∈ r.sent, p.sn < r.pdu.ackSn → ¬ Received r.placed p.sn p.so →
        ∃ n ∈ r.pdu.nacks, n.Covers p.sn p.so) ∧
      ∀ b ∈ s.cleared, Received s.placed b.sn b.so := by
  obtain ⟨s, hs, h1, h2, h3, r, hr, p, hp, hlt, hnot, hnone⟩ :=
    Machine.Reach.exists_of_exec (M := machine .overhead .shipped)
      (P := fun s => s.reports.map (·.pdu) = [⟨4, []⟩] ∧ s.cleared.map (·.sn) = [0, 1, 2, 3] ∧
        s.placed.map (·.sn) = [3] ∧ ∃ r ∈ s.reports, ∃ p ∈ r.sent, p.sn < r.pdu.ackSn ∧
          ¬ Received r.placed p.sn p.so ∧ ¬ ∃ n ∈ r.pdu.nacks, n.Covers p.sn p.so)
      firstThreeLost (.init rfl) (by decide)
  exact ⟨⟨s, hs, h1, h2, h3⟩, fun hall => hnone ((hall _ _ s hs).1 r hr p hp hlt hnot)⟩

end AmPair

end NetSim.Rlc
