import NetSim.Proof.AmSender

/-!
# Which PDUs a STATUS PDU strands

After a STATUS PDU the transmission window starts at the head of the *transmission*
buffer. The entries still waiting for an acknowledgement were sent before that head, so
most of them fall below the window, and the retransmission loop passes them over.

* `mem_unacknowledged_iff`: which entries stay, read off the NACK list, `Ack_SN` and the buffers.
* `retained_inWindow_iff`: no entry is stranded exactly when for each of those that stay an SDU
  of the same or a lower SN still waits for its first transmission.
* `nacked_stranded`: a NACKed PDU that no grant sends again.
-/

namespace NetSim.Rlc.AmTx

open Word

/-- The SNs wait in increasing order from the start of the window on, and what was sent
lies below the end of the window. -/
structure WindowOk (tx : AmTx) : Prop where
  sorted : (tx.transmissionBuffer.map (·.sn)).Pairwise (· < ·)
  waiting : ∀ b ∈ tx.transmissionBuffer, tx.txNextAck ≤ b.sn ∧ b.sn < tx.txNext
  ack : tx.txNextAck ≤ tx.txNext
  next : tx.txNext < 4294967296
  sent : ∀ b, b ∈ tx.transmittedBuffer ∨ b ∈ tx.retransmissionBuffer →
    b.sn < tx.txNextAck + amWindowSize ∧ b.sn < tx.txNext

theorem windowOk_init : WindowOk init :=
  ⟨List.Pairwise.nil, by simp [init], by decide, by decide, by simp [init]⟩

theorem isSnInTransmittingWindow_iff (tx : AmTx) (sn : ℕ) :
    tx.isSnInTransmittingWindow sn = true ↔
      tx.txNextAck ≤ sn ∧ sn < u32 (tx.txNextAck + amWindowSize) := by
  unfold isSnInTransmittingWindow
  simp

theorem lt_of_inWindow {tx : AmTx} {sn : ℕ} (h : tx.isSnInTransmittingWindow sn = true) :
    sn < tx.txNextAck + amWindowSize :=
  Nat.lt_of_lt_of_le ((isSnInTransmittingWindow_iff tx sn).1 h).2 (Nat.mod_le _ _)

/-- The head SN bounds the transmission buffer from below. -/
theorem WindowOk.headSn {tx : AmTx} (h : WindowOk tx) :
    tx.txNextAck ≤ tx.headSn ∧ tx.headSn ≤ tx.txNext ∧ ∀ b ∈ tx.transmissionBuffer, tx.headSn ≤ b.sn := by
  unfold AmTx.headSn
  cases hb : tx.transmissionBuffer with
  | nil => exact ⟨h.ack, Nat.le_refl _, by simp⟩
  | cons b bs =>
    have hw := h.waiting b (hb ▸ List.mem_cons_self ..)
    have hs := h.sorted
    rw [hb, List.map_cons, List.pairwise_cons] at hs
    refine ⟨hw.1, Nat.le_of_lt hw.2, ?_⟩
    intro c hc
    rcases List.mem_cons.1 hc with rfl | hc
    · exact Nat.le_refl _
    · exact Nat.le_of_lt (hs.1 _ (List.mem_map_of_mem hc))

variable {H : HdrLib} {cfg : AmConfig} {ch : LogicalChannel}

theorem WindowOk.retransmission {tx : AmTx} {pre post : List BufferData} {b : BufferData}
    (h : WindowOk tx) (hb : tx.retransmissionBuffer = pre ++ b :: post) :
    WindowOk (sendRetransmission cfg ch tx (pre ++ post) b).1 := by
  obtain ⟨_, _, _, -, heq⟩ := sendRetransmission_eq cfg ch tx (pre ++ post) b
  rw [heq]
  refine ⟨h.sorted, h.waiting, h.ack, h.next, ?_⟩
  intro c hc
  rcases hc with hc | hc
  · rcases List.mem_append.1 hc with hc | hc
    · exact h.sent c (Or.inl hc)
    · rw [List.mem_singleton.1 hc]
      exact h.sent b (Or.inr (mem_split hb))
  · exact h.sent c (Or.inr (mem_of_mem_others hb hc))

theorem WindowOk.whole {tx : AmTx} {pre post : List BufferData} {b ret : BufferData} {left : ℕ}
    (h : WindowOk tx) (hb : tx.transmissionBuffer = pre ++ b :: post)
    (hw : tx.isSnInTransmittingWindow b.sn = true) (hf : fragmentPacket b left = .whole ret) :
    WindowOk (sendTransmission H cfg ch tx (pre ++ post) ret).1 := by
  obtain ⟨_, _, _, -, heq⟩ := sendTransmission_eq H cfg ch tx (pre ++ post) ret
  rw [heq]
  have hwb := h.waiting b (mem_split hb)
  have hsn : (amHdrAdd H ret).sn = b.sn := by
    rw [fragmentPacket_whole hf]
    rfl
  have hsub : (pre ++ post).Sublist tx.transmissionBuffer := by
    rw [hb]
    exact (List.sublist_cons_self b post).append_left pre
  refine ⟨h.sorted.sublist (hsub.map _), fun c hc => h.waiting c (hsub.subset hc), h.ack, h.next, ?_⟩
  intro c hc
  rcases hc with hc | hc
  · rcases List.mem_append.1 hc with hc | hc
    · exact h.sent c (Or.inl hc)
    · rw [List.mem_singleton.1 hc, hsn]
      exact ⟨lt_of_inWindow hw, hwb.2⟩
  · exact h.sent c (Or.inr hc)

theorem WindowOk.cut {tx : AmTx} {pre post : List BufferData} {b ret b' : BufferData} {left : ℕ}
    (h : WindowOk tx) (hb : tx.transmissionBuffer = pre ++ b :: post)
    (hw : tx.isSnInTransmittingWindow b.sn = true) (hf : fragmentPacket b left = .cut ret b') :
    WindowOk (sendTransmission H cfg ch tx (pre ++ b' :: post) ret).1 := by
  obtain ⟨_, _, _, -, heq⟩ := sendTransmission_eq H cfg ch tx (pre ++ b' :: post) ret
  rw [heq]
  obtain ⟨n, -, -, rfl, rfl⟩ := fragmentPacket_cut hf
  have hwb := h.waiting b (mem_split hb)
  refine ⟨?_, ?_, h.ack, h.next, ?_⟩
  -- what is left of the SDU keeps its SN and its place
  · have hs := h.sorted
    rw [hb] at hs
    simpa using hs
  · intro c hc
    rcases mem_replaced.1 hc with rfl | hc
    · exact hwb
    · exact h.waiting c (mem_of_mem_others hb hc)
  · intro c hc
    rcases hc with hc | hc
    · rcases List.mem_append.1 hc with hc | hc
      · exact h.sent c (Or.inl hc)
      · rw [List.mem_singleton.1 hc]
        exact ⟨lt_of_inWindow hw, hwb.2⟩
    · exact h.sent c (Or.inr hc)

/-- **A grant keeps the window invariant.** -/
theorem WindowOk.moves {tx tx' : AmTx} {calls : List MacCall} (hm : Moves H cfg ch tx calls tx')
    (h : WindowOk tx) : WindowOk tx' :=
  hm.inv (I := fun tx _ => WindowOk tx) (J := fun tx _ => WindowOk tx) (fun _ _ h => h)
    (fun _ _ _ _ _ hb _ _ hi => hi.retransmission hb) (fun _ _ _ _ _ _ _ hb _ hw hf hi => hi.whole hb hw hf)
    (fun _ _ _ _ _ _ _ _ hb _ hw hf hi => hi.cut hb hw hf) [] h

/-- The entries still unacknowledged after a STATUS PDU: those that wait for retransmission,
those NACKed below the retransmission limit, and those that it neither NACKs nor
acknowledges. -/
def unacknowledged (cfg : AmConfig) (tx : AmTx) (pdu : StatusPdu) : List BufferData :=
  match nackFindAll pdu.nacks tx.transmittedBuffer with
  | none => []
  | some (hit, rest) =>
    tx.retransmissionBuffer ++ nackMoved cfg hit ++ rest.filter fun b => ¬ b.sn < pdu.ackSn

/-- They are the entries left, up to their retransmission counts. -/
theorem sns_of_receiveStatusPdu {tx tx' : AmTx} {pdu : StatusPdu}
    (h : tx.receiveStatusPdu cfg pdu = some tx') :
    (tx'.retransmissionBuffer ++ tx'.transmittedBuffer).map (·.sn) =
      (tx.unacknowledged cfg pdu).map (·.sn) := by
  obtain ⟨hit, rest, hr, rfl⟩ := receiveStatusPdu_cases h
  unfold unacknowledged
  rw [hr]
  simp only [List.map_append, List.map_map]
  rfl

/-- What stays was sent, and so lies below the end of the old window. -/
theorem WindowOk.unacknowledged {tx : AmTx} (h : WindowOk tx) (cfg : AmConfig) (pdu : StatusPdu) :
    ∀ b ∈ tx.unacknowledged cfg pdu, b.sn < tx.txNextAck + amWindowSize ∧ b.sn < tx.txNext := by
  intro b hb
  unfold AmTx.unacknowledged at hb
  cases hr : nackFindAll pdu.nacks tx.transmittedBuffer with
  | none => rw [hr] at hb; exact absurd hb (by simp)
  | some r =>
    obtain ⟨hit, rest⟩ := r
    rw [hr] at hb
    have hperm := nackFindAll_perm hr
    simp only [List.mem_append] at hb
    rcases hb with (hb | hb) | hb
    · exact h.sent b (Or.inr hb)
    · exact h.sent b (Or.inl (hperm.subset (List.mem_append_left _ (List.mem_of_mem_filter hb))))
    · exact h.sent b (Or.inl (hperm.subset (List.mem_append_right _ (List.mem_of_mem_filter hb))))

/-! ## Which entries stay -/

/-- The segments sent under an SN and SO, in the order of the transmitted buffer. -/
def segmentsOf (tx : AmTx) (sn so : ℕ) : List BufferData :=
  tx.transmittedBuffer.filter fun b => b.sn = sn ∧ b.so = so

/-- A NACK that names every segment of the SN: a range of SNs, or one SN without SOs. -/
def NamesSn (n : Nack) (sn : ℕ) : Prop :=
  if n.e3 then n.nackSn ≤ sn ∧ sn ≤ u32 (n.nackSn + n.nackRange) else n.e2 = false ∧ n.nackSn = sn

/-- A NACK that names one SN with a range of SOs. -/
def NamesSegment (n : Nack) (sn so : ℕ) : Prop :=
  (n.e3 = false ∧ n.e2 = true) ∧ n.nackSn = sn ∧ n.soStart ≤ so ∧ so ≤ n.soEnd

instance (n : Nack) (sn : ℕ) : Decidable (NamesSn n sn) := by
  unfold NamesSn
  infer_instance

instance (n : Nack) (sn so : ℕ) : Decidable (NamesSegment n sn so) := inferInstanceAs (Decidable (_ ∧ _))

/-- Some NACK of the list names every segment of the SN. -/
def NacksSn (nacks : List Nack) (sn : ℕ) : Prop := ∃ n ∈ nacks, NamesSn n sn

/-- How many NACKs of the list name the segment. Each of them stands for one entry. -/
def nackCount (nacks : List Nack) (sn so : ℕ) : ℕ := nacks.countP fun n => NamesSegment n sn so

/-- The STATUS PDU reports the segment lost: it names all of the SN, or the segment, once for
each entry up to this one. -/
def Nacked (tx : AmTx) (pdu : StatusPdu) (b : BufferData) : Prop :=
  (NacksSn pdu.nacks b.sn ∧ b ∈ tx.segmentsOf b.sn b.so) ∨
    (¬ NacksSn pdu.nacks b.sn ∧ b ∈ (tx.segmentsOf b.sn b.so).take (nackCount pdu.nacks b.sn b.so))

/-- The other segments of the transmitted buffer. -/
def NotNacked (tx : AmTx) (pdu : StatusPdu) (b : BufferData) : Prop :=
  ¬ NacksSn pdu.nacks b.sn ∧ b ∈ (tx.segmentsOf b.sn b.so).drop (nackCount pdu.nacks b.sn b.so)

/-- The entry waits for retransmission, is reported lost below the retransmission limit, or is
neither reported lost nor acknowledged. -/
def StaysUnacknowledged (cfg : AmConfig) (tx : AmTx) (pdu : StatusPdu) (b : BufferData) : Prop :=
  b ∈ tx.retransmissionBuffer ∨ (tx.Nacked pdu b ∧ b.retxCount ≠ cfg.maxRetxThreshold) ∨
    (tx.NotNacked pdu b ∧ pdu.ackSn ≤ b.sn)

theorem filter_eraseP_self {α : Type*} (p : α → Bool) (l : List α) :
    (l.eraseP p).filter p = (l.filter p).tail := by
  induction l with
  | nil => rfl
  | cons a l ih =>
    by_cases h : p a
    · rw [List.eraseP_cons_of_pos h, List.filter_cons_of_pos h, List.tail_cons]
    · rw [List.eraseP_cons_of_neg h, List.filter_cons_of_neg h, List.filter_cons_of_neg h, ih]

theorem filter_eraseP_of_disjoint {α : Type*} {p q : α → Bool} (hpq : ∀ a, p a = true → ¬ q a = true)
    (l : List α) : (l.eraseP p).filter q = l.filter q := by
  induction l with
  | nil => rfl
  | cons a l ih =>
    by_cases h : p a
    · rw [List.eraseP_cons_of_pos h, List.filter_cons_of_neg (hpq a h)]
    · rw [List.eraseP_cons_of_neg h, List.filter_cons, List.filter_cons, ih]

section keyed

variable (sn so : ℕ)

/-- The removal of one SN leaves the segments of the others. -/
theorem findAndRemoveAllBySN_filter (l : List BufferData) (k : ℕ) :
    (findAndRemoveAllBySN l k).2.filter (fun b => b.sn = sn ∧ b.so = so) =
      if k = sn then [] else l.filter fun b => b.sn = sn ∧ b.so = so := by
  unfold findAndRemoveAllBySN
  rw [List.partition_eq_filter_filter]
  dsimp only
  rw [List.filter_filter]
  split
  · rename_i hk
    rw [List.filter_eq_nil_iff]
    intro b _
    simpa [hk] using fun hsn _ => hsn
  · rename_i hk
    apply List.filter_congr
    intro b _
    by_cases hsn : b.sn = sn <;> simp [hsn]
    exact fun _ h => hk h.symm

/-- One look-up takes the first entry of its segment. -/
theorem findAndRemoveBySNSO_filter (l : List BufferData) (k o : ℕ) :
    (findAndRemoveBySNSO l k o).2.filter (fun b => b.sn = sn ∧ b.so = so) =
      (l.filter fun b => b.sn = sn ∧ b.so = so).drop (if k = sn ∧ o = so then 1 else 0) := by
  unfold findAndRemoveBySNSO
  dsimp only
  split
  · rename_i hk
    obtain ⟨rfl, rfl⟩ := hk
    rw [filter_eraseP_self, List.drop_one]
  · rename_i hk
    rw [List.drop_zero]
    apply filter_eraseP_of_disjoint
    intro b hb hb'
    have h1 : b.sn = k ∧ b.so = o := of_decide_eq_true hb
    have h2 : b.sn = sn ∧ b.so = so := of_decide_eq_true hb'
    exact hk ⟨h1.1.symm.trans h2.1, h1.2.symm.trans h2.2⟩

theorem findAndRemoveAllBySN_loop (ks : List ℕ) (l : List BufferData) :
    (findAndRemoveAll findAndRemoveAllBySN ks l).2.filter (fun b => b.sn = sn ∧ b.so = so) =
      if sn ∈ ks then [] else l.filter fun b => b.sn = sn ∧ b.so = so := by
  induction ks generalizing l with
  | nil => rw [if_neg List.not_mem_nil]; rfl
  | cons k ks ih =>
    unfold findAndRemoveAll
    dsimp only
    rw [ih, findAndRemoveAllBySN_filter]
    by_cases hmem : sn ∈ ks
    · rw [if_pos hmem, if_pos (List.mem_cons_of_mem k hmem)]
    · rw [if_neg hmem]
      by_cases hk : k = sn
      · rw [if_pos hk, if_pos (hk ▸ List.mem_cons_self)]
      · rw [if_neg hk, if_neg (by simp [hmem, Ne.symm hk])]

theorem findAndRemoveBySNSO_loop (k : ℕ) (os : List ℕ) (l : List BufferData) :
    (findAndRemoveAll (fun l o => findAndRemoveBySNSO l k o) os l).2.filter
        (fun b => b.sn = sn ∧ b.so = so) =
      (l.filter fun b => b.sn = sn ∧ b.so = so).drop (if k = sn then os.count so else 0) := by
  induction os generalizing l with
  | nil => simp [findAndRemoveAll]
  | cons o os ih =>
    unfold findAndRemoveAll
    dsimp only
    rw [ih, findAndRemoveBySNSO_filter, List.drop_drop]
    congr 1
    rw [List.count_cons]
    by_cases hk : k = sn
    · by_cases ho : o = so
      · simp [hk, ho, Nat.add_comm]
      · simp [hk, ho]
    · simp [hk]

end keyed

/-- **One NACK** takes all segments of the SNs that it names, and one entry of the segments. -/
theorem nackFind_filter {n : Nack} {l hit rest : List BufferData} (h : nackFind n l = some (hit, rest))
    (sn so : ℕ) :
    rest.filter (fun b => b.sn = sn ∧ b.so = so) =
      if NamesSn n sn then []
      else (l.filter fun b => b.sn = sn ∧ b.so = so).drop (if NamesSegment n sn so then 1 else 0) := by
  unfold nackFind at h
  dsimp only at h
  by_cases he3 : n.e3 = true
  · rw [if_pos he3] at h
    split at h
    · exact absurd h (by simp)
    · have hseg : ¬ NamesSegment n sn so := fun hs => absurd (he3.symm.trans hs.1.1) (by simp)
      have hloop := findAndRemoveAllBySN_loop sn so
        (List.range' n.nackSn (u32 (n.nackSn + n.nackRange) + 1 - n.nackSn)) l
      simp only [Option.some.inj h, List.mem_range'_1] at hloop
      rw [hloop, if_neg hseg, List.drop_zero]
      apply if_congr ?_ rfl rfl
      unfold NamesSn
      rw [if_pos he3]
      omega
  · rw [if_neg he3] at h
    have he3' : n.e3 = false := by simpa using he3
    by_cases he2 : n.e2 = true
    · rw [if_pos he2] at h
      split at h
      · exact absurd h (by simp)
      · have hwide : ¬ NamesSn n sn := by
          unfold NamesSn
          rw [if_neg he3]
          exact fun hs => absurd (he2.symm.trans hs.1) (by simp)
        have hloop := findAndRemoveBySNSO_loop sn so n.nackSn
          (List.range' n.soStart (n.soEnd + 1 - n.soStart)) l
        rw [Option.some.inj h] at hloop
        rw [hloop, if_neg hwide]
        congr 1
        -- the SOs of a range differ
        have hcount : (List.range' n.soStart (n.soEnd + 1 - n.soStart)).count so =
            if n.soStart ≤ so ∧ so ≤ n.soEnd then 1 else 0 := by
          rw [List.Nodup.count (List.nodup_range' (h := by omega))]
          apply if_congr ?_ rfl rfl
          rw [List.mem_range'_1]
          omega
        rw [hcount]
        unfold NamesSegment
        simp only [he3', he2, and_self, true_and]
        by_cases hsn : n.nackSn = sn <;> simp [hsn]
    · rw [if_neg he2, Option.some.injEq] at h
      have he2' : n.e2 = false := by simpa using he2
      have hseg : ¬ NamesSegment n sn so := fun hs => absurd hs.1.2 he2
      have hone := findAndRemoveAllBySN_filter sn so l n.nackSn
      rw [h] at hone
      rw [hone, if_neg hseg, List.drop_zero]
      apply if_congr ?_ rfl rfl
      unfold NamesSn
      rw [if_neg he3]
      exact ⟨fun hsn => ⟨he2', hsn⟩, fun hs => hs.2⟩

/-- **All NACKs.** -/
theorem nackFindAll_filter {ns : List Nack} {l hit rest : List BufferData}
    (h : nackFindAll ns l = some (hit, rest)) (sn so : ℕ) :
    (NacksSn ns sn → rest.filter (fun b => b.sn = sn ∧ b.so = so) = []) ∧
      (¬ NacksSn ns sn → rest.filter (fun b => b.sn = sn ∧ b.so = so) =
        (l.filter fun b => b.sn = sn ∧ b.so = so).drop (nackCount ns sn so)) := by
  induction ns generalizing l hit rest with
  | nil =>
    simp only [nackFindAll, Option.some.injEq, Prod.mk.injEq] at h
    obtain ⟨-, rfl⟩ := h
    refine ⟨?_, fun _ => rfl⟩
    rintro ⟨n, hn, -⟩
    exact absurd hn List.not_mem_nil
  | cons n ns ih =>
    unfold nackFindAll at h
    simp only [Option.bind_eq_bind, Option.bind_eq_some_iff, Option.pure_def, Option.some.injEq,
      Prod.mk.injEq] at h
    obtain ⟨⟨hit₁, rest₁⟩, h₁, ⟨hit₂, rest₂⟩, h₂, -, rfl⟩ := h
    have hone := nackFind_filter h₁ sn so
    obtain ⟨hall, hnone⟩ := ih h₂
    have hcons : NacksSn (n :: ns) sn ↔ NamesSn n sn ∨ NacksSn ns sn := by
      unfold NacksSn
      rw [List.exists_mem_cons_iff]
    rw [hcons]
    by_cases hns : NacksSn ns sn
    · exact ⟨fun _ => hall hns, fun hno => absurd (Or.inr hns) hno⟩
    · dsimp only
      rw [hnone hns, hone]
      by_cases hn : NamesSn n sn
      · rw [if_pos hn, List.drop_nil]
        exact ⟨fun _ => rfl, fun hno => absurd (Or.inl hn) hno⟩
      · refine ⟨fun hyes => absurd hyes (not_or.2 ⟨hn, hns⟩), fun _ => ?_⟩
        rw [if_neg hn, List.drop_drop]
        congr 1
        unfold nackCount
        rw [List.countP_cons]
        simp only [decide_eq_true_eq, Nat.add_comm]

/-- The entries that the NACKs take out of the transmitted buffer, and those that they leave. -/
theorem nackFindAll_mem {tx : AmTx} {pdu : StatusPdu} {hit rest : List BufferData}
    (h : nackFindAll pdu.nacks tx.transmittedBuffer = some (hit, rest)) (b : BufferData) :
    (b ∈ hit ↔ tx.Nacked pdu b) ∧ (b ∈ rest ↔ tx.NotNacked pdu b) := by
  have hkey : ∀ l : List BufferData, b ∈ l ↔ b ∈ l.filter fun c => c.sn = b.sn ∧ c.so = b.so := by
    intro l
    simp
  obtain ⟨hall, hnone⟩ := nackFindAll_filter h b.sn b.so
  have hperm := (nackFindAll_perm h).filter fun c => c.sn = b.sn ∧ c.so = b.so
  rw [List.filter_append] at hperm
  unfold Nacked NotNacked segmentsOf
  rw [hkey hit, hkey rest]
  by_cases hns : NacksSn pdu.nacks b.sn
  · rw [hall hns, List.append_nil] at hperm
    rw [hall hns, hperm.mem_iff]
    simp [hns]
  · rw [hnone hns] at hperm ⊢
    -- what is taken is the rest of the segments, up to order
    have htake := (List.perm_append_right_iff _).1 (hperm.trans
      (.of_eq (List.take_append_drop (nackCount pdu.nacks b.sn b.so) _).symm))
    rw [htake.mem_iff]
    simp [hns]

theorem isSome_nackFindAll {tx tx' : AmTx} {pdu : StatusPdu} (h : tx.receiveStatusPdu cfg pdu = some tx') :
    (nackFindAll pdu.nacks tx.transmittedBuffer).isSome := by
  obtain ⟨hit, rest, hr, -⟩ := receiveStatusPdu_cases h
  rw [hr]
  rfl

/-- **Which entries stay**, read off the STATUS PDU and the buffers. -/
theorem mem_unacknowledged_iff {tx : AmTx} {pdu : StatusPdu}
    (h : (nackFindAll pdu.nacks tx.transmittedBuffer).isSome) (b : BufferData) :
    b ∈ tx.unacknowledged cfg pdu ↔ tx.StaysUnacknowledged cfg pdu b := by
  obtain ⟨⟨hit, rest⟩, hr⟩ := Option.isSome_iff_exists.1 h
  obtain ⟨hhit, hrest⟩ := nackFindAll_mem hr b
  unfold unacknowledged StaysUnacknowledged
  rw [hr]
  simp only [nackMoved, List.mem_append, List.mem_filter, hhit, hrest, decide_eq_true_eq, not_lt, or_assoc]

theorem WindowOk.status {tx tx' : AmTx} {pdu : StatusPdu} (h : WindowOk tx)
    (hs : tx.receiveStatusPdu cfg pdu = some tx') : WindowOk tx' := by
  have hsns := sns_of_receiveStatusPdu hs
  obtain ⟨h1, h2, h3⟩ := h.headSn
  have hsent := h.unacknowledged cfg pdu
  obtain ⟨hit, rest, -, rfl⟩ := receiveStatusPdu_cases hs
  refine ⟨h.sorted, fun b hb => ⟨h3 b hb, (h.waiting b hb).2⟩, h2, h.next, ?_⟩
  intro b hb
  have hmem : b.sn ∈ (tx.unacknowledged cfg pdu).map (·.sn) := by
    rw [← hsns]
    apply List.mem_map_of_mem
    exact List.mem_append.2 hb.symm
  obtain ⟨c, hc, heq⟩ := List.mem_map.1 hmem
  have hlt := hsent c hc
  -- the window only moves up
  dsimp only
  omega

theorem WindowOk.poll {tx tx' : AmTx} (h : WindowOk tx)
    (hs : tx.handlePollRetransmitTimer cfg = some tx') : WindowOk tx' := by
  unfold handlePollRetransmitTimer at hs
  split at hs
  · simp only [Option.some.injEq] at hs
    subst hs
    refine ⟨h.sorted, h.waiting, h.ack, h.next, ?_⟩
    intro b hb
    rcases hb with hb | hb
    · exact h.sent b (Or.inl (List.mem_of_mem_filter hb))
    · rcases List.mem_append.1 hb with hb | hb
      · exact h.sent b (Or.inr hb)
      · obtain ⟨c, hc, rfl⟩ := List.mem_map.1 (List.mem_of_mem_filter hb)
        exact h.sent c (Or.inl (List.mem_of_mem_filter hc))
  · exact absurd hs (by simp)

theorem WindowOk.enqueue {tx : AmTx} (h : WindowOk tx) (p : Packet) (hn : tx.txNext + 1 < 4294967296) :
    WindowOk (tx.handlePduFromUpperLayer p ch) := by
  unfold handlePduFromUpperLayer addPacket
  rw [u32_of_lt hn]
  have hack := h.ack
  refine ⟨?_, ?_, ?_, hn, ?_⟩
  · rw [List.map_append, List.pairwise_append]
    refine ⟨h.sorted, List.pairwise_singleton _ _, ?_⟩
    intro a ha b hb
    obtain ⟨c, hc, rfl⟩ := List.mem_map.1 ha
    have := (h.waiting c hc).2
    simp only [List.map_cons, List.map_nil, List.mem_singleton] at hb
    omega
  · intro b hb
    rcases List.mem_append.1 hb with hb | hb
    · have := h.waiting b hb
      dsimp only
      omega
    · rw [List.mem_singleton.1 hb]
      dsimp only
      omega
  · dsimp only
    omega
  · intro b hb
    have := h.sent b hb
    dsimp only
    omega

/-- Fewer than `2 ^ 32` SDUs: `TX_Next` does not wrap. -/
def FewSdus (tx : AmTx) : Event → Prop
  | .enqueue _ _ => tx.txNext + 1 < 4294967296
  | _ => True

instance (tx : AmTx) (e : Event) : Decidable (FewSdus tx e) :=
  match e with
  | .enqueue _ _ | .grant _ _ | .pollRetransmit | .status _ => by
    dsimp only [FewSdus]
    infer_instance

theorem windowOk_of_reachOn {tx : AmTx} (h : (machine H cfg).ReachOn FewSdus tx) : WindowOk tx := by
  apply h.inv
  · intro tx h0
    have h0 : tx = init := h0
    exact h0 ▸ windowOk_init
  · intro tx e tx' hi hok hs
    cases e with
    | enqueue p ch =>
      simp only [machine, step, Option.some.injEq] at hs
      subst hs
      split
      · exact hi.enqueue p hok
      · exact hi
    | grant size ch =>
      simp only [machine, step, Option.some.injEq] at hs
      subst hs
      split
      · exact hi.moves (sendPdu_moves H cfg tx size ch)
      · exact hi
    | pollRetransmit => exact hi.poll hs
    | status pdu => exact hi.status hs

/-- **When nothing is stranded.** In every state that a sender reaches with fewer than `2 ^ 32`
SDUs, and for every STATUS PDU: afterwards each entry of the retransmission and the
transmitted buffer is inside the transmission window if and only if for each entry that
stays unacknowledged an SDU of the same or a lower SN heads the transmission buffer, and the
window from there does not run over the 32 bits. -/
theorem retained_inWindow_iff (H : HdrLib) (cfg : AmConfig) {tx tx' : AmTx} {pdu : StatusPdu}
    (h : (machine H cfg).ReachOn FewSdus tx) (hs : tx.receiveStatusPdu cfg pdu = some tx') :
    (∀ b ∈ tx'.retransmissionBuffer ++ tx'.transmittedBuffer,
        tx'.isSnInTransmittingWindow b.sn = true) ↔
      ∀ b, tx.StaysUnacknowledged cfg pdu b →
        ∃ c ∈ tx.transmissionBuffer.head?, c.sn ≤ b.sn ∧ c.sn + amWindowSize < 4294967296 := by
  have hi := windowOk_of_reachOn h
  have hsns := sns_of_receiveStatusPdu hs
  have hack : tx'.txNextAck = tx.headSn := by
    obtain ⟨hit, rest, -, rfl⟩ := receiveStatusPdu_cases hs
    rfl
  have hsent := hi.unacknowledged cfg pdu
  have hnext := hi.next
  -- the window test of one entry
  have htest : ∀ b ∈ tx.unacknowledged cfg pdu, tx'.isSnInTransmittingWindow b.sn = true ↔
      ∃ c ∈ tx.transmissionBuffer.head?, c.sn ≤ b.sn ∧ c.sn + amWindowSize < 4294967296 := by
    intro b hb
    have hlt := hsent b hb
    obtain ⟨h1, h2, -⟩ := hi.headSn
    rw [isSnInTransmittingWindow_iff, hack]
    unfold AmTx.headSn at h1 h2 ⊢
    cases hbuf : tx.transmissionBuffer with
    | nil =>
      -- what was sent lies below `TX_Next`
      simp only [List.head?_nil, Option.mem_def, reduceCtorEq, false_and, exists_false, iff_false, not_and]
      omega
    | cons c cs =>
      rw [hbuf] at h1 h2
      dsimp only at h1 h2 ⊢
      simp only [List.head?_cons, Option.mem_def, Option.some.injEq, exists_eq_left']
      unfold u32 amWindowSize at *
      omega
  have hall : ∀ P : ℕ → Prop, (∀ b ∈ tx'.retransmissionBuffer ++ tx'.transmittedBuffer, P b.sn) ↔
      ∀ b ∈ tx.unacknowledged cfg pdu, P b.sn := by
    intro P
    rw [← List.forall_mem_map (f := fun b : BufferData => b.sn) (P := P), hsns, List.forall_mem_map]
  rw [hall fun sn => tx'.isSnInTransmittingWindow sn = true]
  refine forall_congr' fun b => ?_
  rw [← mem_unacknowledged_iff (isSome_nackFindAll hs)]
  exact forall_congr' fun hb => htest b hb

/-- Four SDUs go out, the first in two segments. -/
def fourSdus : List Event :=
  [.enqueue (userSdu 0) .dtch, .enqueue (userSdu 1) .dtch, .enqueue (userSdu 2) .dtch,
    .enqueue (userSdu 3) .dtch, .grant 50 .dtch, .grant 1000 .dtch]

/-- What the peer answers when the first segment of SN 0 is lost. -/
def firstSegmentLost : StatusPdu := ⟨4, [⟨0, true, false, 0, 0, 0⟩]⟩

theorem retained_inWindow_iff_acknowledged :
    ∃ tx tx', (machine .overhead .shipped).ReachOn FewSdus tx ∧
      tx.receiveStatusPdu .shipped ⟨4, []⟩ = some tx' ∧
      ((∀ b ∈ tx'.retransmissionBuffer ++ tx'.transmittedBuffer,
          tx'.isSnInTransmittingWindow b.sn = true) ↔
        ∀ b, tx.StaysUnacknowledged .shipped ⟨4, []⟩ b →
          ∃ c ∈ tx.transmissionBuffer.head?, c.sn ≤ b.sn ∧ c.sn + amWindowSize < 4294967296) := by
  obtain ⟨tx, htx, hsome⟩ := Machine.ReachOn.exists_of_execOn (M := machine .overhead .shipped)
    (P := fun tx => (tx.receiveStatusPdu .shipped ⟨4, []⟩).isSome = true) FewSdus
    fourSdus (.init rfl) (by decide)
  obtain ⟨tx', hs⟩ := Option.isSome_iff_exists.1 hsome
  exact ⟨tx, tx', htx, hs, retained_inWindow_iff .overhead .shipped htx hs⟩

/-- **Stranded.** After the STATUS PDU the segment that it NACKs waits in the retransmission
buffer with SN 0, and the window starts at `TX_Next`, which is 4. -/
theorem nacked_stranded :
    ∃ tx tx', (machine .overhead .shipped).Reach tx ∧
      tx.receiveStatusPdu .shipped firstSegmentLost = some tx' ∧
      tx'.retransmissionBuffer.map (fun b => (b.sn, b.so)) = [(0, 0)] ∧ tx'.txNextAck = 4 ∧
      ¬ ∀ b ∈ tx'.retransmissionBuffer ++ tx'.transmittedBuffer,
        tx'.isSnInTransmittingWindow b.sn = true := by
  obtain ⟨tx, htx, hany⟩ := Machine.Reach.exists_of_exec (M := machine .overhead .shipped)
    (P := fun tx => (tx.receiveStatusPdu .shipped firstSegmentLost).any (fun tx' =>
      tx'.retransmissionBuffer.map (fun b => (b.sn, b.so)) = [(0, 0)] ∧ tx'.txNextAck = 4 ∧
      ¬ ∀ b ∈ tx'.retransmissionBuffer ++ tx'.transmittedBuffer,
        tx'.isSnInTransmittingWindow b.sn = true) = true)
    fourSdus (.init rfl) (by decide)
  cases hs : tx.receiveStatusPdu .shipped firstSegmentLost with
  | none => simp [hs] at hany
  | some tx' =>
    rw [hs, Option.any_some] at hany
    exact ⟨tx, tx', htx, hs, of_decide_eq_true hany⟩

end NetSim.Rlc.AmTx
