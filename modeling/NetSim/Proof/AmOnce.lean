import NetSim.Proof.AmReceiver

/-!
# RLC AM delivers an SDU at most once, except behind a gap

The duplicate test looks only into the reception buffer, which forgets an SN once its
SDU is complete. An SN that was handed up is below `RX_Next`, and so outside the
receiving window, unless an earlier SN is still incomplete (`Once.past`).

* `delivered_once`: no SN is handed up twice in any run in which no PDU of an SN that was
  handed up arrives while an earlier SN is incomplete.
* `delivered_twice`: such an arrival hands the SDU up again.
-/

namespace NetSim.Rlc

open Word

/-- The SNs handed to PDCP. -/
def deliveredSns (sdus : List Sdu) : List ℕ := sdus.map (·.sn)

theorem deliveredSns_nil : deliveredSns [] = [] := rfl

theorem isSnInReceivingWindow_bounds {rx : AmRx} {x : ℕ} (h : rx.isSnInReceivingWindow x = true) :
    rx.rxNext ≤ x ∧ x < u32 (rx.rxNext + amWindowSize) := by
  unfold AmRx.isSnInReceivingWindow at h
  exact of_decide_eq_true h

/-- An SN inside the window is not the last 32-bit value. -/
theorem lt_of_inWindow {rx : AmRx} {x : ℕ} (h : rx.isSnInReceivingWindow x = true) :
    x + 1 < 4294967296 := by
  obtain ⟨h1, h2⟩ := isSnInReceivingWindow_bounds h
  unfold u32 amWindowSize at h2
  omega

theorem inWindow_of_not_discards {rx : AmRx} {pdu : AmdPdu} (h : rx.discards pdu = false) :
    rx.isSnInReceivingWindow pdu.sn = true := by
  unfold AmRx.discards at h
  by_contra hw
  simp [hw] at h

/-- The receiver's state variables and buffers: one buffer an SN, from `RX_Next` up to
below `RX_Next_Highest`. -/
structure RxOk (rx : AmRx) : Prop where
  nodup : (snsOf rx.receptionBuffer).Nodup
  low : ∀ x ∈ snsOf rx.receptionBuffer, rx.rxNext ≤ x
  high : ∀ x ∈ snsOf rx.receptionBuffer, x < rx.rxNextHighest
  le : rx.rxNext ≤ rx.rxNextHighest
  bound : rx.rxNextHighest < 4294967296

theorem rxOk_init : RxOk .init :=
  ⟨List.nodup_nil, by simp [AmRx.init, snsOf], by simp [AmRx.init, snsOf], by decide, by decide⟩

/-- Recomputing `RX_Next` over distinct SNs below `RX_Next_Highest`. -/
theorem RxOk.of_update {rx : AmRx} (hn : (snsOf rx.receptionBuffer).Nodup)
    (hh : ∀ x ∈ snsOf rx.receptionBuffer, x < rx.rxNextHighest) (hb : rx.rxNextHighest < 4294967296)
    (hu : rx.rxNext = rx.updateRxNext) :
    RxOk rx ∧ ((rx.receptionBuffer = [] ∧ rx.rxNext = rx.rxNextHighest) ∨
      rx.rxNext ∈ snsOf rx.receptionBuffer) := by
  have hlt : ∀ b ∈ rx.receptionBuffer, b.sn < 4294967296 := fun b hm =>
    Nat.lt_trans (hh _ (mem_snsOf.2 ⟨b, hm, rfl⟩)) hb
  rcases AmRx.updateRxNext_spec hlt with ⟨hnil, heq⟩ | ⟨⟨b, hm, heq⟩, hle⟩
  · refine ⟨⟨hn, ?_, hh, ?_, hb⟩, Or.inl ⟨hnil, hu.trans heq⟩⟩
    · rw [hnil]
      simp [snsOf]
    · exact Nat.le_of_eq (hu.trans heq)
  · have hmem : rx.rxNext ∈ snsOf rx.receptionBuffer := mem_snsOf.2 ⟨b, hm, by rw [hu, heq]⟩
    refine ⟨⟨hn, ?_, hh, Nat.le_of_lt (hh _ hmem), hb⟩, Or.inr hmem⟩
    intro x hx
    obtain ⟨c, hc, rfl⟩ := mem_snsOf.1 hx
    rw [hu]
    exact hle c hc

theorem RxOk.reports {rx rx' : AmRx} {sts : List StatusPdu} (h : RxOk rx) (hr : AmRx.Reports rx rx' sts) :
    RxOk rx' := by
  have hs := hr.sns
  refine ⟨?_, ?_, ?_, ?_, ?_⟩
  · rw [hs]
    exact h.nodup
  · rw [hs, hr.rxNext]
    exact h.low
  · rw [hs, hr.rxNextHighest]
    exact h.high
  · rw [hr.rxNext, hr.rxNextHighest]
    exact h.le
  · rw [hr.rxNextHighest]
    exact h.bound

/-- `RX_Next_Highest` after a PDU inside the window. -/
theorem rxNextHighest_place {rx : AmRx} {pdu : AmdPdu}
    (hw : rx.isSnInReceivingWindow pdu.sn = true) :
    (if pdu.sn ≥ rx.rxNextHighest then u32 (pdu.sn + 1) else rx.rxNextHighest) =
      max rx.rxNextHighest (pdu.sn + 1) := by
  have hlt := lt_of_inWindow hw
  rw [u32_of_lt hlt]
  split <;> omega

/-- **Placing keeps the receiver in order**, and a completed SDU leaves `RX_Next` at the
lowest SN left, or at `RX_Next_Highest`. -/
theorem RxOk.place {rx rx' : AmRx} {pdu : AmdPdu} {sdus : List Sdu} (h : RxOk rx)
    (hw : rx.isSnInReceivingWindow pdu.sn = true)
    (hp : rx.placeAmdPduInReceptionBuffer pdu = (rx', sdus)) :
    RxOk rx' ∧ rx'.rxNextHighest = max rx.rxNextHighest (pdu.sn + 1) ∧
      ((sdus = [] ∧ rx'.receptionBuffer = (placeIn pdu rx.receptionBuffer).2 ∧ rx'.rxNext = rx.rxNext) ∨
        ((placeIn pdu rx.receptionBuffer).1.isAllByteSegmentReceived = true ∧
          (∃ sdu, sdus = [sdu] ∧ sdu.sn = pdu.sn) ∧
          (∀ b, b ∈ rx'.receptionBuffer ↔ b ∈ rx.receptionBuffer ∧ b.sn ≠ pdu.sn) ∧
          ((rx'.receptionBuffer = [] ∧ rx'.rxNext = rx'.rxNextHighest) ∨
            rx'.rxNext ∈ snsOf rx'.receptionBuffer))) := by
  have hlow : rx.rxNext ≤ pdu.sn := (isSnInReceivingWindow_bounds hw).1
  obtain ⟨hhigh, -, hcases⟩ := AmRx.placeAmdPdu_cases hp
  rw [rxNextHighest_place hw] at hhigh
  have hlt := lt_of_inWindow hw
  have hbound : rx'.rxNextHighest < 4294967296 := by
    have := h.bound
    omega
  have hsns : ∀ x ∈ snsOf (placeIn pdu rx.receptionBuffer).2, x ∈ snsOf rx.receptionBuffer ∨ x = pdu.sn := by
    intro x hx
    rw [placeIn_sns] at hx
    split at hx
    · exact Or.inl hx
    · simpa using hx
  have hnodup : (snsOf (placeIn pdu rx.receptionBuffer).2).Nodup := placeIn_nodup h.nodup
  rcases hcases with ⟨-, hs, hbuf, hnext⟩ | ⟨hall, hs, hbuf, hnext⟩
  · refine ⟨⟨?_, ?_, ?_, ?_, hbound⟩, hhigh, Or.inl ⟨hs, hbuf, hnext⟩⟩
    · rw [hbuf]
      exact hnodup
    · rw [hbuf, hnext]
      intro x hx
      rcases hsns x hx with hx | rfl
      · exact h.low x hx
      · exact hlow
    · rw [hbuf, hhigh]
      intro x hx
      rcases hsns x hx with hx | rfl
      · have := h.high x hx
        omega
      · omega
    · have := h.le
      omega
  -- the SDU is complete: its buffer, old or new, is gone
  · have hmem : ∀ b, b ∈ rx'.receptionBuffer ↔ b ∈ rx.receptionBuffer ∧ b.sn ≠ pdu.sn := by
      intro b
      rw [hbuf, mem_eraseSn hnodup, mem_placeIn h.nodup]
      constructor
      · rintro ⟨rfl | hb, hne⟩
        · exact absurd (placeIn_sn pdu rx.receptionBuffer) hne
        · exact hb
      · exact fun hb => ⟨Or.inr hb, hb.2⟩
    have hn : (snsOf rx'.receptionBuffer).Nodup := by
      rw [hbuf]
      exact hnodup.sublist (snsOf_sublist List.eraseP_sublist)
    have hh : ∀ x ∈ snsOf rx'.receptionBuffer, x < rx'.rxNextHighest := by
      intro x hx
      obtain ⟨b, hb, rfl⟩ := mem_snsOf.1 hx
      have := h.high _ (mem_snsOf.2 ⟨b, ((hmem b).1 hb).1, rfl⟩)
      omega
    obtain ⟨hok, hnew⟩ := RxOk.of_update hn hh hbound hnext
    refine ⟨hok, hhigh, Or.inr ⟨hall, ⟨_, hs, ?_⟩, hmem, hnew⟩⟩
    have hsn : ∀ b : ReceptionBuffer, b.reassembleAllBytes.sn = b.sn := by
      intro b
      unfold ReceptionBuffer.reassembleAllBytes
      split <;> rfl
    rw [hsn, placeIn_sn]

/-- Dropping buffers keeps the receiver in order. -/
theorem RxOk.drop {rx rx₁ : AmRx} {p : ReceptionBuffer → Bool} (h : RxOk rx)
    (hbuf : rx₁.receptionBuffer = rx.receptionBuffer.filter p) (hhigh : rx₁.rxNextHighest = rx.rxNextHighest)
    (hnext : rx₁.rxNext = rx₁.updateRxNext) :
    RxOk rx₁ ∧ ((rx₁.receptionBuffer = [] ∧ rx₁.rxNext = rx₁.rxNextHighest) ∨
      rx₁.rxNext ∈ snsOf rx₁.receptionBuffer) := by
  have hsub : (snsOf rx₁.receptionBuffer).Sublist (snsOf rx.receptionBuffer) := by
    rw [hbuf]
    exact snsOf_sublist List.filter_sublist
  have hhigh' : ∀ x ∈ snsOf rx₁.receptionBuffer, x < rx₁.rxNextHighest := by
    intro x hx
    rw [hhigh]
    exact h.high x (hsub.subset hx)
  have hbound : rx₁.rxNextHighest < 4294967296 := by
    rw [hhigh]
    exact h.bound
  exact RxOk.of_update (h.nodup.sublist hsub) hhigh' hbound hnext

/-! ## At most once -/

/-- No SN was handed up twice, and one that was handed up has no buffer and lies below
`RX_Next`, unless an earlier SN has a buffer. -/
structure Once (rx : AmRx) (delivered : List ℕ) : Prop where
  ok : RxOk rx
  nodup : delivered.Nodup
  high : ∀ x ∈ delivered, x < rx.rxNextHighest
  gone : ∀ x ∈ delivered, x ∉ snsOf rx.receptionBuffer
  past : ∀ x ∈ delivered, x < rx.rxNext ∨ ∃ z ∈ snsOf rx.receptionBuffer, z < x

/-- Where `RX_Next` is the lowest SN left, or `RX_Next_Highest`, an SN without a buffer is
below it or behind it. -/
theorem past_of_update {rx : AmRx} (hnew : (rx.receptionBuffer = [] ∧ rx.rxNext = rx.rxNextHighest) ∨
    rx.rxNext ∈ snsOf rx.receptionBuffer) {x : ℕ} (hx : x < rx.rxNextHighest)
    (hg : x ∉ snsOf rx.receptionBuffer) : x < rx.rxNext ∨ ∃ z ∈ snsOf rx.receptionBuffer, z < x := by
  rcases hnew with ⟨-, heq⟩ | hmem
  · exact Or.inl (by omega)
  · rcases Nat.lt_trichotomy x rx.rxNext with hlt | heq | hgt
    · exact Or.inl hlt
    · exact absurd (heq ▸ hmem) hg
    · exact Or.inr ⟨_, hmem, hgt⟩

theorem Once.reports {rx rx' : AmRx} {sts : List StatusPdu} {delivered : List ℕ} (h : Once rx delivered)
    (hr : AmRx.Reports rx rx' sts) : Once rx' delivered := by
  have hs := hr.sns
  refine ⟨h.ok.reports hr, h.nodup, ?_, ?_, ?_⟩
  · rw [hr.rxNextHighest]
    exact h.high
  · rw [hs]
    exact h.gone
  · rw [hs, hr.rxNext]
    exact h.past

/-- **One placed PDU.** -/
theorem Once.place {rx rx' : AmRx} {delivered : List ℕ} {pdu : AmdPdu} {sdus : List Sdu}
    (h : Once rx delivered) (hw : rx.isSnInReceivingWindow pdu.sn = true)
    (hdup : pdu.sn ∈ delivered → ∀ z ∈ snsOf rx.receptionBuffer, ¬ z < pdu.sn)
    (hp : rx.placeAmdPduInReceptionBuffer pdu = (rx', sdus)) :
    Once rx' (delivered ++ deliveredSns sdus) := by
  obtain ⟨hok, hhigh, hcases⟩ := h.ok.place hw hp
  -- inside the window, an SN that was handed up would have an earlier buffer
  have hnew : pdu.sn ∉ delivered := by
    intro hmem
    rcases h.past _ hmem with hlt | ⟨z, hz, hlt⟩
    · have := (isSnInReceivingWindow_bounds hw).1
      omega
    · exact hdup hmem z hz hlt
  have hhigh' : ∀ x ∈ delivered, x < rx'.rxNextHighest := fun x hx => by
    have := h.high x hx
    omega
  rcases hcases with ⟨rfl, hbuf, hnext⟩ | ⟨-, ⟨sdu, rfl, hsn⟩, hmem, hupd⟩
  -- still incomplete: `RX_Next` stays, and every buffer stays
  · have hsns : ∀ x, x ∈ snsOf rx.receptionBuffer → x ∈ snsOf rx'.receptionBuffer := by
      intro x hx
      rw [hbuf, placeIn_sns]
      split
      · exact hx
      · exact List.mem_append_left _ hx
    rw [deliveredSns, List.map_nil, List.append_nil]
    refine ⟨hok, h.nodup, hhigh', ?_, ?_⟩
    · intro x hx hm
      rw [hbuf, placeIn_sns] at hm
      split at hm
      · exact h.gone x hx hm
      · rcases List.mem_append.1 hm with hm | hm
        · exact h.gone x hx hm
        · exact hnew (List.mem_singleton.1 hm ▸ hx)
    · intro x hx
      rw [hnext]
      rcases h.past x hx with hlt | ⟨z, hz, hlt⟩
      · exact Or.inl hlt
      · exact Or.inr ⟨z, hsns z hz, hlt⟩
  -- complete: the SN is handed up, its buffer goes, and `RX_Next` is recomputed
  · have hgone : ∀ x ∈ delivered ++ [pdu.sn], x ∉ snsOf rx'.receptionBuffer := by
      intro x hx hm
      obtain ⟨b, hb, rfl⟩ := mem_snsOf.1 hm
      obtain ⟨hb, hne⟩ := (hmem b).1 hb
      rcases List.mem_append.1 hx with hx | hx
      · exact h.gone _ hx (mem_snsOf.2 ⟨b, hb, rfl⟩)
      · exact hne (List.mem_singleton.1 hx)
    have hlt : ∀ x ∈ delivered ++ [pdu.sn], x < rx'.rxNextHighest := by
      intro x hx
      rcases List.mem_append.1 hx with hx | hx
      · exact hhigh' x hx
      · rw [List.mem_singleton.1 hx]
        omega
    rw [deliveredSns, List.map_singleton, hsn]
    have hdistinct : ∀ a ∈ delivered, ∀ b ∈ [pdu.sn], a ≠ b := by
      intro a ha b hb heq
      rw [heq, List.mem_singleton.1 hb] at ha
      exact hnew ha
    exact ⟨hok, List.nodup_append.2 ⟨h.nodup, List.nodup_singleton _, hdistinct⟩, hlt, hgone,
      fun x hx => past_of_update hupd (hlt x hx) (hgone x hx)⟩

/-- **The reassembly timer** drops buffers and hands nothing up. -/
theorem Once.drop {rx rx₁ : AmRx} {delivered : List ℕ} {p : ReceptionBuffer → Bool} (h : Once rx delivered)
    (hbuf : rx₁.receptionBuffer = rx.receptionBuffer.filter p) (hhigh : rx₁.rxNextHighest = rx.rxNextHighest)
    (hnext : rx₁.rxNext = rx₁.updateRxNext) : Once rx₁ delivered := by
  obtain ⟨hok, hupd⟩ := h.ok.drop hbuf hhigh hnext
  have hgone : ∀ x ∈ delivered, x ∉ snsOf rx₁.receptionBuffer := by
    intro x hx hm
    rw [hbuf] at hm
    exact h.gone x hx ((snsOf_sublist List.filter_sublist).subset hm)
  have hlt : ∀ x ∈ delivered, x < rx₁.rxNextHighest := by
    rw [hhigh]
    exact h.high
  exact ⟨hok, h.nodup, hlt, hgone, fun x hx => past_of_update hupd (hlt x hx) (hgone x hx)⟩

namespace AmPair

/-- No PDU of an SN that was handed up arrives while an earlier SN is incomplete. -/
def NoLateDuplicate (s : AmPair) : AmEvent → Prop
  | .pduArrives i => ∀ pdu, s.sent[i]? = some pdu → pdu.sn ∈ deliveredSns s.delivered →
      ∀ z ∈ snsOf s.rx.receptionBuffer, ¬ z < pdu.sn
  | _ => True

instance (s : AmPair) (e : AmEvent) : Decidable (NoLateDuplicate s e) :=
  match e with
  | .enqueue _ _ | .grant _ _ | .pollRetransmit | .statusArrives _ | .pduArrives _ | .reassembly
  | .statusProhibit => by
    dsimp only [NoLateDuplicate]
    infer_instance

theorem once_step {H : HdrLib} {cfg : AmConfig} {s s' : AmPair} {e : AmEvent}
    (h : Once s.rx (deliveredSns s.delivered)) (hok : NoLateDuplicate s e)
    (hs : s.step H cfg e = some s') : Once s'.rx (deliveredSns s'.delivered) := by
  have happ : ∀ l l' : List Sdu, deliveredSns (l ++ l') = deliveredSns l ++ deliveredSns l' :=
    fun l l' => List.map_append
  cases e with
  | pduArrives i =>
    obtain ⟨pdu, hpdu, hs⟩ := Option.bind_eq_some_iff.1 hs
    obtain ⟨⟨rx', out⟩, hr, hs⟩ := Option.bind_eq_some_iff.1 hs
    simp only [Option.pure_def, Option.some.injEq] at hs
    subst hs
    show Once rx' (deliveredSns (s.delivered ++ out.sdus))
    rcases AmRx.receivePdu_cases hr with ⟨-, rfl, rfl⟩ | ⟨hd, -, rx₁, hp, hrep⟩
    · rw [List.append_nil]
      exact h
    · rw [happ]
      exact (h.place (inWindow_of_not_discards hd) (hok pdu hpdu) hp).reports hrep
  | reassembly =>
    obtain ⟨⟨rx', out⟩, hr, rfl⟩ := Option.map_eq_some_iff.1 hs
    obtain ⟨-, hnone, hrep⟩ := AmRx.handleReassemblyTimer_cases hr
    obtain ⟨hbuf, -, hhigh, hnext⟩ := AmRx.expireReassembly_eq cfg s.rx
    show Once rx' (deliveredSns (s.delivered ++ out.sdus))
    rw [hnone, List.append_nil]
    exact (h.drop hbuf hhigh hnext).reports hrep
  | statusProhibit =>
    obtain ⟨⟨rx', out⟩, hr, rfl⟩ := Option.map_eq_some_iff.1 hs
    obtain ⟨-, hnone, hrep⟩ := AmRx.handleStatusProhibitTimer_cases hr
    show Once rx' (deliveredSns (s.delivered ++ out.sdus))
    rw [hnone, List.append_nil]
    exact h.reports hrep
  | statusArrives i =>
    obtain ⟨r, -, hs⟩ := Option.bind_eq_some_iff.1 hs
    obtain ⟨gone, -, hs⟩ := Option.bind_eq_some_iff.1 hs
    obtain ⟨tx, -, hs⟩ := Option.bind_eq_some_iff.1 hs
    simp only [Option.pure_def, Option.some.injEq] at hs
    subst hs
    exact h
  | enqueue p ch =>
    simp only [step, Option.map_eq_some_iff] at hs
    obtain ⟨tx, -, rfl⟩ := hs
    exact h
  | grant size ch =>
    simp only [step, Option.map_eq_some_iff] at hs
    obtain ⟨tx, -, rfl⟩ := hs
    exact h
  | pollRetransmit =>
    simp only [step, Option.map_eq_some_iff] at hs
    obtain ⟨tx, -, rfl⟩ := hs
    exact h

/-- **At most once.** In every run in which no PDU of an SN that was handed up arrives while
an earlier SN is still being reassembled, each SN is handed to PDCP at most once. -/
theorem delivered_once (H : HdrLib) (cfg : AmConfig) {s : AmPair}
    (h : (machine H cfg).ReachOn NoLateDuplicate s) : (deliveredSns s.delivered).Nodup := by
  have hinit : ∀ s, (machine H cfg).init s → Once s.rx (deliveredSns s.delivered) := by
    intro s h0
    have h0 : s = init := h0
    subst h0
    exact ⟨rxOk_init, List.nodup_nil, by simp [init, deliveredSns], by simp [init, deliveredSns],
      by simp [init, deliveredSns]⟩
  have hi : Once s.rx (deliveredSns s.delivered) :=
    h.inv (I := fun s => Once s.rx (deliveredSns s.delivered)) hinit fun s e s' hi hok hs => once_step hi hok hs
  exact hi.nodup

/-- SN 0 goes out in two segments and SN 1 whole. The first segment of SN 0 arrives, then
the PDU of SN 1 twice. -/
def duplicateBehindGap : List AmEvent :=
  [.enqueue (userSdu 0) .dtch, .enqueue (userSdu 1) .dtch, .grant 50 .dtch, .grant 200 .dtch,
    .pduArrives 0, .pduArrives 2, .pduArrives 2]

/-- After SN 1 the rest of SN 0 arrives, and then the PDU of SN 1 again, below `RX_Next`. -/
theorem delivered_once_repeat :
    ∃ s, (machine .overhead .shipped).ReachOn NoLateDuplicate s ∧
      deliveredSns s.delivered = [1, 0] ∧ (deliveredSns s.delivered).Nodup := by
  obtain ⟨s, hs, heq⟩ := Machine.ReachOn.exists_of_execOn (M := machine .overhead .shipped)
    (P := fun s => deliveredSns s.delivered = [1, 0]) NoLateDuplicate
    (duplicateBehindGap.take 5 ++ [.pduArrives 2, .pduArrives 1, .pduArrives 2]) (.init rfl) (by decide)
  exact ⟨s, hs, heq, delivered_once .overhead .shipped hs⟩

/-- **Twice.** SN 0 is incomplete, so `RX_Next` stays at 0; SN 1 has no reception buffer any
more; its second copy is placed, completed and handed up again. -/
theorem delivered_twice :
    (∃ s, (machine .overhead .shipped).Reach s ∧ deliveredSns s.delivered = [1, 1]) ∧
      ¬ ∀ (H : HdrLib) (cfg : AmConfig) (s : AmPair), (machine H cfg).Reach s →
        (deliveredSns s.delivered).Nodup := by
  have hrun : ∃ s, (machine .overhead .shipped).Reach s ∧ deliveredSns s.delivered = [1, 1] :=
    Machine.Reach.exists_of_exec duplicateBehindGap (.init rfl) (by decide)
  obtain ⟨s, hs, heq⟩ := hrun
  refine ⟨⟨s, hs, heq⟩, ?_⟩
  intro hall
  have := hall _ _ s hs
  rw [heq] at this
  exact absurd this (by decide)

end AmPair

end NetSim.Rlc
