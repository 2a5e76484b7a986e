import NetSim.Spec.RlcAm

/-!
# What one event does to an RLC AM receiver

* `receivePdu_cases`, `handleReassemblyTimer_cases`, `handleStatusProhibitTimer_cases`:
  an event first changes the reception buffer and the state variables, and then may
  build a STATUS PDU, which changes none of them (`Reports`).
* `placeAmdPdu_cases`: a placed PDU joins the buffer of its SN; if that completes the SDU,
  the buffer goes and `RX_Next` moves to the lowest SN left (`updateRxNext_spec`).
-/

namespace NetSim.Rlc

open Word

/-! ## The reception buffer as a list with one entry an SN -/

/-- The SNs of a list of reception buffers. -/
def snsOf (l : List ReceptionBuffer) : List ℕ := l.map (·.sn)

theorem mem_snsOf {l : List ReceptionBuffer} {x : ℕ} : x ∈ snsOf l ↔ ∃ b ∈ l, b.sn = x := List.mem_map

theorem add_sn (b : ReceptionBuffer) (pdu : AmdPdu) : (b.add pdu).sn = b.sn := by
  unfold ReceptionBuffer.add
  dsimp only
  split <;> rfl

theorem add_packets (b : ReceptionBuffer) (pdu : AmdPdu) :
    (b.add pdu).packets = b.packets ++ [pdu] := by
  unfold ReceptionBuffer.add
  dsimp only
  split <;> rfl

theorem placeIn_sn (pdu : AmdPdu) (l : List ReceptionBuffer) : (placeIn pdu l).1.sn = pdu.sn := by
  induction l with
  | nil => exact add_sn _ _
  | cons b bs ih =>
    unfold placeIn
    split
    · rename_i h
      exact (add_sn b pdu).trans h
    · exact ih

theorem placeIn_sns (pdu : AmdPdu) (l : List ReceptionBuffer) :
    snsOf (placeIn pdu l).2 = if pdu.sn ∈ snsOf l then snsOf l else snsOf l ++ [pdu.sn] := by
  induction l with
  | nil => simp [placeIn, snsOf, add_sn]
  | cons b bs ih =>
    unfold placeIn
    split
    · rename_i h
      simp [snsOf, add_sn, h]
    · rename_i h
      unfold snsOf at ih ⊢
      simp only [List.map_cons, ih, List.mem_cons, Ne.symm h, false_or]
      split <;> simp

/-- The buffer that got the PDU is the one of its SN, or a new one. -/
theorem placeIn_fst (pdu : AmdPdu) (l : List ReceptionBuffer) :
    (∃ b ∈ l, b.sn = pdu.sn ∧ (placeIn pdu l).1 = b.add pdu) ∨
      (pdu.sn ∉ snsOf l ∧ (placeIn pdu l).1 = (⟨0, pdu.sn, 0, false, []⟩ : ReceptionBuffer).add pdu) := by
  induction l with
  | nil => exact Or.inr ⟨by simp [snsOf], rfl⟩
  | cons b bs ih =>
    unfold placeIn
    split
    · rename_i h
      exact Or.inl ⟨b, List.mem_cons_self, h, rfl⟩
    · rename_i h
      rcases ih with ⟨c, hc, hsn, heq⟩ | ⟨hnot, heq⟩
      · exact Or.inl ⟨c, List.mem_cons_of_mem _ hc, hsn, heq⟩
      · refine Or.inr ⟨?_, heq⟩
        unfold snsOf at hnot ⊢
        simp only [List.map_cons, List.mem_cons, not_or]
        exact ⟨Ne.symm h, hnot⟩

/-- Apart from the buffer that got the PDU, the buffers are those of the other SNs. -/
theorem mem_placeIn {pdu : AmdPdu} {l : List ReceptionBuffer} (hn : (snsOf l).Nodup)
    {b : ReceptionBuffer} :
    b ∈ (placeIn pdu l).2 ↔ b = (placeIn pdu l).1 ∨ (b ∈ l ∧ b.sn ≠ pdu.sn) := by
  induction l with
  | nil => simp [placeIn]
  | cons c cs ih =>
    obtain ⟨hc, hcs⟩ := List.nodup_cons.1 hn
    unfold placeIn
    split
    · rename_i h
      -- the SNs are distinct, so `c` is the only buffer of this one
      have hother : ∀ d ∈ cs, d.sn ≠ pdu.sn := by
        intro d hd heq
        exact hc (mem_snsOf.2 ⟨d, hd, heq.trans h.symm⟩)
      simp only [List.mem_cons]
      constructor
      · rintro (hb | hb)
        · exact Or.inl hb
        · exact Or.inr ⟨Or.inr hb, hother b hb⟩
      · rintro (hb | ⟨rfl | hb, hne⟩)
        · exact Or.inl hb
        · exact absurd h hne
        · exact Or.inr hb
    · rename_i h
      simp only [List.mem_cons, ih hcs]
      constructor
      · rintro (rfl | hb | ⟨hb, hne⟩)
        · exact Or.inr ⟨Or.inl rfl, h⟩
        · exact Or.inl hb
        · exact Or.inr ⟨Or.inr hb, hne⟩
      · rintro (hb | ⟨rfl | hb, hne⟩)
        · exact Or.inr (Or.inl hb)
        · exact Or.inl rfl
        · exact Or.inr (Or.inr ⟨hb, hne⟩)

theorem placeIn_nodup {pdu : AmdPdu} {l : List ReceptionBuffer} (hn : (snsOf l).Nodup) :
    (snsOf (placeIn pdu l).2).Nodup := by
  rw [placeIn_sns]
  split
  · exact hn
  · rename_i h
    exact List.nodup_append.2 ⟨hn, by simp, fun a ha b hb heq =>
      h (by rw [← List.mem_singleton.1 hb, ← heq]; exact ha)⟩

/-- Deleting the buffer of an SN leaves those of the other SNs. -/
theorem mem_eraseSn {l : List ReceptionBuffer} (hn : (snsOf l).Nodup) {x : ℕ} {b : ReceptionBuffer} :
    b ∈ l.eraseP (fun b => b.sn = x) ↔ b ∈ l ∧ b.sn ≠ x := by
  induction l with
  | nil => simp
  | cons c cs ih =>
    obtain ⟨hc, hcs⟩ := List.nodup_cons.1 hn
    by_cases h : c.sn = x
    · rw [List.eraseP_cons_of_pos (by simpa using h)]
      have hother : ∀ d ∈ cs, d.sn ≠ x := by
        intro d hd heq
        exact hc (mem_snsOf.2 ⟨d, hd, heq.trans h.symm⟩)
      constructor
      · exact fun hb => ⟨List.mem_cons_of_mem _ hb, hother b hb⟩
      · rintro ⟨hb, hne⟩
        rcases List.mem_cons.1 hb with rfl | hb
        · exact absurd h hne
        · exact hb
    · rw [List.eraseP_cons_of_neg (by simpa using h), List.mem_cons, ih hcs, List.mem_cons]
      constructor
      · rintro (rfl | ⟨hb, hne⟩)
        · exact ⟨Or.inl rfl, h⟩
        · exact ⟨Or.inr hb, hne⟩
      · rintro ⟨rfl | hb, hne⟩
        · exact Or.inl rfl
        · exact Or.inr ⟨hb, hne⟩

theorem snsOf_sublist {l l' : List ReceptionBuffer} (h : l.Sublist l') :
    (snsOf l).Sublist (snsOf l') := h.map _

/-! ## The state variables -/

namespace AmRx

theorem foldl_min_spec (l : List ReceptionBuffer) (m : ℕ) :
    (∀ b ∈ l, l.foldl (fun ret b => min ret b.sn) m ≤ b.sn) ∧
      l.foldl (fun ret b => min ret b.sn) m ≤ m ∧
      (l.foldl (fun ret b => min ret b.sn) m = m ∨
        ∃ b ∈ l, l.foldl (fun ret b => min ret b.sn) m = b.sn) := by
  induction l generalizing m with
  | nil => simp
  | cons c cs ih =>
    obtain ⟨h1, h2, h3⟩ := ih (min m c.sn)
    simp only [List.foldl_cons]
    refine ⟨?_, by omega, ?_⟩
    · intro b hb
      rcases List.mem_cons.1 hb with rfl | hb
      · omega
      · exact h1 b hb
    · rcases h3 with h3 | ⟨b, hb, h3⟩
      · rcases Nat.le_total m c.sn with h | h
        · exact Or.inl (by omega)
        · exact Or.inr ⟨c, List.mem_cons_self, by omega⟩
      · exact Or.inr ⟨b, List.mem_cons_of_mem _ hb, h3⟩

/-- **`RX_Next` is recomputed** as the lowest SN with a reception buffer, or as
`RX_Next_Highest` when there is none. -/
theorem updateRxNext_spec {rx : AmRx} (hb : ∀ b ∈ rx.receptionBuffer, b.sn < 4294967296) :
    (rx.receptionBuffer = [] ∧ rx.updateRxNext = rx.rxNextHighest) ∨
      ((∃ b ∈ rx.receptionBuffer, rx.updateRxNext = b.sn) ∧
        ∀ b ∈ rx.receptionBuffer, rx.updateRxNext ≤ b.sn) := by
  unfold updateRxNext
  cases hl : rx.receptionBuffer with
  | nil => exact Or.inl ⟨rfl, rfl⟩
  | cons c cs =>
    rw [hl] at hb
    obtain ⟨h1, h2, h3⟩ := foldl_min_spec (c :: cs) 4294967295
    refine Or.inr ⟨?_, h1⟩
    rcases h3 with h3 | h3
    -- the start value is the result only where a buffer has that very SN
    · have hc := hb c List.mem_cons_self
      have hle := h1 c List.mem_cons_self
      rw [h3] at hle
      refine ⟨c, List.mem_cons_self, ?_⟩
      show List.foldl _ _ _ = _
      omega
    · exact h3

/-- The timer leaves everything else as it is. -/
theorem updateReassemblyTimer_eq (rx : AmRx) : ∃ trigger started,
    rx.updateReassemblyTimer =
      { rx with rxNextStatusTrigger := trigger, isReassemblyTimerStarted := started } := by
  -- the first half at most stops the timer, the second at most starts it
  have hstop : ∃ started, (if rx.isReassemblyTimerStarted then
      if rx.rxNextStatusTrigger = rx.rxNext ∨
          rx.rxNextStatusTrigger = u32 (rx.rxNext + 1) ∧ rx.isAllBytesReceivedForSn rx.rxNext ∨
          ¬ rx.isSnInReceivingWindow rx.rxNextStatusTrigger ∧
            rx.rxNextStatusTrigger ≠ u32 (rx.rxNext + amWindowSize) then
        rx.stopReassemblyTimer
      else rx
    else rx) = { rx with isReassemblyTimerStarted := started } := by
    split
    · split
      · exact ⟨false, rfl⟩
      · exact ⟨rx.isReassemblyTimerStarted, rfl⟩
    · exact ⟨rx.isReassemblyTimerStarted, rfl⟩
  obtain ⟨started, hs⟩ := hstop
  unfold updateReassemblyTimer
  simp only [hs]
  split
  · exact ⟨rx.rxNextStatusTrigger, started, rfl⟩
  · split
    · exact ⟨rx.rxNextHighest, true, rfl⟩
    · exact ⟨rx.rxNextStatusTrigger, started, rfl⟩

/-- **Placing a PDU.** It joins the buffer of its SN. If the SDU is then complete, it is
handed up, its buffer goes, and `RX_Next` is recomputed; otherwise `RX_Next` stays. -/
theorem placeAmdPdu_cases {rx rx' : AmRx} {pdu : AmdPdu} {sdus : List Sdu}
    (h : rx.placeAmdPduInReceptionBuffer pdu = (rx', sdus)) :
    rx'.rxNextHighest = (if pdu.sn ≥ rx.rxNextHighest then u32 (pdu.sn + 1) else rx.rxNextHighest) ∧
      rx'.recvdInfo = rx.recvdInfo ++ [⟨pdu.si, pdu.sn, pdu.so⟩] ∧
      (((placeIn pdu rx.receptionBuffer).1.isAllByteSegmentReceived = false ∧ sdus = [] ∧
          rx'.receptionBuffer = (placeIn pdu rx.receptionBuffer).2 ∧ rx'.rxNext = rx.rxNext) ∨
        ((placeIn pdu rx.receptionBuffer).1.isAllByteSegmentReceived = true ∧
          sdus = [(placeIn pdu rx.receptionBuffer).1.reassembleAllBytes] ∧
          rx'.receptionBuffer = (placeIn pdu rx.receptionBuffer).2.eraseP (fun b => b.sn = pdu.sn) ∧
          rx'.rxNext = rx'.updateRxNext)) := by
  unfold placeAmdPduInReceptionBuffer at h
  dsimp only at h
  split at h
  · rename_i hall
    simp only [Prod.mk.injEq] at h
    obtain ⟨rfl, rfl⟩ := h
    obtain ⟨trigger, started, heq⟩ := updateReassemblyTimer_eq (AmRx.mk _ _ _ _ _ _ _ _ _ _)
    rw [heq]
    exact ⟨rfl, rfl, Or.inr ⟨hall, rfl, rfl, rfl⟩⟩
  · rename_i hall
    simp only [Prod.mk.injEq] at h
    obtain ⟨rfl, rfl⟩ := h
    obtain ⟨trigger, started, heq⟩ := updateReassemblyTimer_eq (AmRx.mk _ _ _ _ _ _ _ _ _ _)
    rw [heq]
    exact ⟨rfl, rfl, Or.inl ⟨by simpa using hall, rfl, rfl, rfl⟩⟩

/-! ## Reports -/

/-- A reception buffer without its reassembly count. -/
def content (b : ReceptionBuffer) : ReceptionBuffer := { b with reassembleCount := 0 }

/-- From `rx` to `rx'` at most STATUS PDUs are built, each from the state of `rx`. -/
structure Reports (rx rx' : AmRx) (statuses : List StatusPdu) : Prop where
  rxNext : rx'.rxNext = rx.rxNext
  rxNextHighest : rx'.rxNextHighest = rx.rxNextHighest
  buffers : rx'.receptionBuffer.map content = rx.receptionBuffer.map content
  recvdInfo : rx'.recvdInfo ⊆ rx.recvdInfo
  built : ∀ pdu ∈ statuses, ∃ nacks, rx.updateStatus = some nacks ∧ pdu = ⟨rx.rxNextHighest, nacks.reverse⟩

theorem Reports.refl (rx : AmRx) : Reports rx rx [] :=
  ⟨rfl, rfl, rfl, List.Subset.refl _, by simp⟩

theorem Reports.sns {rx rx' : AmRx} {statuses : List StatusPdu} (h : Reports rx rx' statuses) :
    snsOf rx'.receptionBuffer = snsOf rx.receptionBuffer := by
  have hc : ∀ l : List ReceptionBuffer, snsOf l = (l.map content).map (·.sn) := fun l => by
    unfold snsOf
    rw [List.map_map]
    rfl
  rw [hc, hc, h.buffers]

theorem constructStatusPdu_reports {rx rx' : AmRx} {pdu : StatusPdu}
    (h : rx.constructStatusPdu = some (rx', pdu)) : Reports rx rx' [pdu] := by
  obtain ⟨nacks, hn, h⟩ := Option.bind_eq_some_iff.1 h
  simp only [Option.pure_def, Option.some.injEq, Prod.mk.injEq] at h
  obtain ⟨rfl, rfl⟩ := h
  refine ⟨rfl, rfl, rfl, List.filter_sublist.subset, ?_⟩
  intro pdu hp
  exact ⟨nacks, hn, List.mem_singleton.1 hp⟩

theorem triggerStatusReport_reports {rx rx' : AmRx} {statuses : List StatusPdu}
    (h : rx.triggerStatusReport = some (rx', statuses)) : Reports rx rx' statuses := by
  unfold triggerStatusReport at h
  split at h
  · simp only [Option.some.injEq, Prod.mk.injEq] at h
    obtain ⟨rfl, rfl⟩ := h
    exact ⟨rfl, rfl, rfl, List.Subset.refl _, by simp⟩
  · obtain ⟨r, hr, heq⟩ := Option.map_eq_some_iff.1 h
    simp only [Prod.mk.injEq] at heq
    obtain ⟨rfl, rfl⟩ := heq
    exact constructStatusPdu_reports hr

theorem initiateToTriggerStatusReport_reports {rx rx' : AmRx} {x : ℕ} {statuses : List StatusPdu}
    (h : rx.initiateToTriggerStatusReport x = some (rx', statuses)) : Reports rx rx' statuses := by
  unfold initiateToTriggerStatusReport at h
  split at h
  · have hr := triggerStatusReport_reports h
    exact ⟨hr.rxNext, hr.rxNextHighest, hr.buffers, hr.recvdInfo, hr.built⟩
  · simp only [Option.some.injEq, Prod.mk.injEq] at h
    obtain ⟨rfl, rfl⟩ := h
    exact ⟨rfl, rfl, rfl, List.Subset.refl _, by simp⟩

/-- **A PDU arrives**: it is discarded and nothing changes, or it is placed. -/
theorem receivePdu_cases {rx rx' : AmRx} {pdu : AmdPdu} {out : Output}
    (h : rx.receivePdu pdu = some (rx', out)) :
    (rx.discards pdu = true ∧ rx' = rx ∧ out = ⟨[], [], []⟩) ∨
      (rx.discards pdu = false ∧ out.placed = [pdu] ∧ ∃ rx₁,
        rx.placeAmdPduInReceptionBuffer pdu = (rx₁, out.sdus) ∧ Reports rx₁ rx' out.statuses) := by
  unfold receivePdu at h
  split at h
  · rename_i hd
    simp only [Option.some.injEq, Prod.mk.injEq] at h
    exact Or.inl ⟨hd, h.1.symm, h.2.symm⟩
  · rename_i hd
    dsimp only at h
    split at h
    · obtain ⟨t, ht, h⟩ := Option.bind_eq_some_iff.1 h
      simp only [Option.pure_def, Option.some.injEq, Prod.mk.injEq] at h
      obtain ⟨rfl, rfl⟩ := h
      exact Or.inr ⟨by simpa using hd, rfl, _, rfl, initiateToTriggerStatusReport_reports ht⟩
    · simp only [Option.pure_def, Option.some.injEq, Prod.mk.injEq] at h
      obtain ⟨rfl, rfl⟩ := h
      exact Or.inr ⟨by simpa using hd, rfl, _, rfl, Reports.refl _⟩

/-- An expiry drops the buffers that waited too long, with what was recorded of their SNs, and
recomputes `RX_Next`. -/
theorem expireReassembly_eq (cfg : AmConfig) (rx : AmRx) :
    (rx.expireReassembly cfg).receptionBuffer = rx.receptionBuffer.filter (fun b => ¬ isGivenUp cfg b) ∧
      (rx.expireReassembly cfg).recvdInfo ⊆ rx.recvdInfo ∧
      (rx.expireReassembly cfg).rxNextHighest = rx.rxNextHighest ∧
      (rx.expireReassembly cfg).rxNext = (rx.expireReassembly cfg).updateRxNext := by
  unfold expireReassembly
  dsimp only
  split
  · exact ⟨rfl, List.filter_sublist.subset, rfl, rfl⟩
  · exact ⟨rfl, List.filter_sublist.subset, rfl, rfl⟩

/-- **The reassembly timer expires.** -/
theorem handleReassemblyTimer_cases {cfg : AmConfig} {rx rx' : AmRx} {out : Output}
    (h : rx.handleReassemblyTimer cfg = some (rx', out)) :
    out.placed = [] ∧ out.sdus = [] ∧ Reports (rx.expireReassembly cfg) rx' out.statuses := by
  unfold handleReassemblyTimer at h
  split at h
  · obtain ⟨r, hr, h⟩ := Option.bind_eq_some_iff.1 h
    simp only [Option.pure_def, Option.some.injEq, Prod.mk.injEq] at h
    obtain ⟨rfl, rfl⟩ := h
    have hrep := triggerStatusReport_reports hr
    have hcount : r.1.increaseReassembleCount.receptionBuffer.map content =
        r.1.receptionBuffer.map content := by
      unfold increaseReassembleCount
      rw [List.map_map]
      apply List.map_congr_left
      intro b _
      show content (if _ then _ else _) = content b
      split <;> rfl
    exact ⟨rfl, rfl, hrep.rxNext, hrep.rxNextHighest, hcount.trans hrep.buffers, hrep.recvdInfo, hrep.built⟩
  · exact absurd h (by simp)

/-- **The prohibit timer expires**: at most a delayed STATUS PDU is built. -/
theorem handleStatusProhibitTimer_cases {rx rx' : AmRx} {out : Output}
    (h : rx.handleStatusProhibitTimer = some (rx', out)) :
    out.placed = [] ∧ out.sdus = [] ∧ Reports rx rx' out.statuses := by
  unfold handleStatusProhibitTimer at h
  split at h
  · dsimp only at h
    split at h
    · obtain ⟨r, hr, heq⟩ := Option.map_eq_some_iff.1 h
      simp only [Prod.mk.injEq] at heq
      obtain ⟨rfl, rfl⟩ := heq
      have hrep := constructStatusPdu_reports hr
      exact ⟨rfl, rfl, hrep.rxNext, hrep.rxNextHighest, hrep.buffers, hrep.recvdInfo, hrep.built⟩
    · simp only [Option.some.injEq, Prod.mk.injEq] at h
      obtain ⟨rfl, rfl⟩ := h
      exact ⟨rfl, rfl, rfl, rfl, rfl, List.Subset.refl _, by simp⟩
  · exact absurd h (by simp)

/-! ## When a STATUS PDU is built -/

theorem triggerStatusReport_builds {rx rx' : AmRx} {statuses : List StatusPdu}
    (h : rx.triggerStatusReport = some (rx', statuses)) (hne : statuses ≠ []) :
    rx.isStatusProhibitTimerStarted = false := by
  unfold triggerStatusReport at h
  split at h
  · obtain ⟨-, rfl⟩ := Prod.mk.inj (Option.some.inj h)
    exact absurd rfl hne
  · rename_i hp
    simpa using hp

/-- A placed PDU has a STATUS PDU built only on a poll or a delayed report, outside the
prohibit time. -/
theorem receivePdu_builds {rx rx' : AmRx} {pdu : AmdPdu} {out : Output}
    (h : rx.receivePdu pdu = some (rx', out)) (hne : out.statuses ≠ []) :
    (pdu.p || (rx.placeAmdPduInReceptionBuffer pdu).1.isStatusReportDelayed) = true ∧
      (rx.placeAmdPduInReceptionBuffer pdu).1.isStatusProhibitTimerStarted = false := by
  unfold receivePdu at h
  split at h
  · obtain ⟨-, rfl⟩ := Prod.mk.inj (Option.some.inj h)
    exact absurd rfl hne
  · dsimp only at h
    split at h
    · rename_i hasked
      obtain ⟨t, ht, h⟩ := Option.bind_eq_some_iff.1 h
      obtain ⟨-, rfl⟩ := Prod.mk.inj (Option.some.inj h)
      unfold initiateToTriggerStatusReport at ht
      split at ht
      · have hfree := triggerStatusReport_builds ht hne
        exact ⟨hasked, hfree⟩
      · obtain rfl := Option.some.inj ht
        exact absurd rfl hne
    · obtain ⟨-, rfl⟩ := Prod.mk.inj (Option.some.inj h)
      exact absurd rfl hne

theorem handleReassemblyTimer_builds {cfg : AmConfig} {rx rx' : AmRx} {out : Output}
    (h : rx.handleReassemblyTimer cfg = some (rx', out)) :
    rx.isReassemblyTimerStarted = true ∧
      (out.statuses ≠ [] → (rx.expireReassembly cfg).isStatusProhibitTimerStarted = false) := by
  unfold handleReassemblyTimer at h
  split at h
  · rename_i hstarted
    obtain ⟨r, hr, h⟩ := Option.bind_eq_some_iff.1 h
    obtain ⟨-, rfl⟩ := Prod.mk.inj (Option.some.inj h)
    exact ⟨hstarted, triggerStatusReport_builds hr⟩
  · exact absurd h (by simp)

theorem handleStatusProhibitTimer_builds {rx rx' : AmRx} {out : Output}
    (h : rx.handleStatusProhibitTimer = some (rx', out)) (hne : out.statuses ≠ []) :
    rx.isConstructStatusReortDelayed = true := by
  unfold handleStatusProhibitTimer at h
  split at h
  · dsimp only at h
    split at h
    · rename_i hd
      exact hd
    · obtain ⟨-, rfl⟩ := Prod.mk.inj (Option.some.inj h)
      exact absurd rfl hne
  · exact absurd h (by simp)

end AmRx

end NetSim.Rlc
