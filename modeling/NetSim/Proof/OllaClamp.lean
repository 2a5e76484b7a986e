import NetSim.Spec.Olla
import Mathlib.Tactic.Linarith
import Mathlib.Tactic.Ring
import Mathlib.Tactic.Positivity
import Mathlib.Tactic.NormNum

/-!
# The range of the outer-loop offset

Each update clamps on the side from which it moves away: an error raises the offset and is
clamped from below, a success lowers it and is clamped from above. So an offset stays in the
range exactly as long as no report crosses the other side (`inRange_iff`). For a target BLER
in `[0, 1)` no clamp is then ever active, and this is a bound on the numbers of errors and
successes after every prefix of the reports.
-/

namespace NetSim.Olla

/-- The offset is in `[MINDELTA, MAXDELTA]`. -/
def OllaHandler.InRange (handler : OllaHandler) : Prop :=
  minDelta ≤ handler.deltaOLLA ∧ handler.deltaOLLA ≤ maxDelta

/-- The report crosses no side of the range: an error does not raise the offset over `MAXDELTA`,
a success does not lower it under `MINDELTA`. -/
def OllaHandler.Admits (handler : OllaHandler) (isErrored : Bool) : Prop :=
  if isErrored then handler.deltaOLLA + handler.deltaUp ≤ maxDelta
  else minDelta ≤ handler.deltaOLLA - handler.deltaDown

/-- What a report does to its handler. -/
def OllaHandler.mark (handler : OllaHandler) (isErrored : Bool) : OllaHandler :=
  if isErrored then handler.markTbsError else handler.markTbsSuccess

/-- The container after some reports. -/
def containerAfter (targetBLER : ℚ) (reports : List Report) : OllaContainer :=
  reports.foldl OllaContainer.report (ollaHandlerInit targetBLER)

/-- A handler after some reports. -/
def handlerAfter (targetBLER : ℚ) (id : HandlerId) (reports : List Report) : OllaHandler :=
  (containerAfter targetBLER reports).find id

/-- The reports of one outcome for a handler. -/
def reportCount (id : HandlerId) (isErrored : Bool) (reports : List Report) : ℕ :=
  reports.countP fun r => r.id = id ∧ r.isErrored = isErrored

/-- The offset that the reports make without any clamp. -/
def freeOffset (targetBLER : ℚ) (id : HandlerId) (reports : List Report) : ℚ :=
  deltaUp * reportCount id true reports
    - targetBLER / (1 - targetBLER) * deltaUp * reportCount id false reports

/-- The offset has been in the range after every prefix of the reports. -/
def StaysInRange (targetBLER : ℚ) (id : HandlerId) (reports : List Report) : Prop :=
  ∀ pre, pre <+: reports → (handlerAfter targetBLER id pre).InRange

/-- No report has crossed a side of the range. -/
def NeverCrosses (targetBLER : ℚ) (id : HandlerId) (reports : List Report) : Prop :=
  ∀ pre r, pre ++ [r] <+: reports → r.id = id →
    (handlerAfter targetBLER id pre).Admits r.isErrored

/-- After every prefix the errors outweigh the successes by at most `MAXDELTA`, and the
successes the errors by at most `-MINDELTA`. -/
def Balanced (targetBLER : ℚ) (id : HandlerId) (reports : List Report) : Prop :=
  ∀ pre, pre <+: reports →
    minDelta ≤ freeOffset targetBLER id pre ∧ freeOffset targetBLER id pre ≤ maxDelta

variable {targetBLER : ℚ} {id : HandlerId}

/-! ## One report -/

theorem minDelta_le_maxDelta : minDelta ≤ maxDelta := by decide

theorem deltaUp_nonneg : 0 ≤ deltaUp := by decide +kernel

theorem OllaHandler.markTbsError_inRange_iff (handler : OllaHandler) :
    handler.markTbsError.InRange ↔ handler.deltaOLLA + handler.deltaUp ≤ maxDelta := by
  unfold InRange markTbsError
  dsimp only
  by_cases h : handler.deltaOLLA + handler.deltaUp < minDelta
  · -- the clamp of an error: the offset is `MINDELTA`
    rw [if_pos h]
    have hle : handler.deltaOLLA + handler.deltaUp ≤ maxDelta := h.le.trans minDelta_le_maxDelta
    exact ⟨fun _ => hle, fun _ => ⟨le_refl _, minDelta_le_maxDelta⟩⟩
  · rw [if_neg h]
    exact ⟨fun h' => h'.2, fun h' => ⟨not_lt.1 h, h'⟩⟩

theorem OllaHandler.markTbsSuccess_inRange_iff (handler : OllaHandler) :
    handler.markTbsSuccess.InRange ↔ minDelta ≤ handler.deltaOLLA - handler.deltaDown := by
  unfold InRange markTbsSuccess
  dsimp only
  by_cases h : handler.deltaOLLA - handler.deltaDown > maxDelta
  · rw [if_pos h]
    have hle : minDelta ≤ handler.deltaOLLA - handler.deltaDown := minDelta_le_maxDelta.trans h.le
    exact ⟨fun _ => hle, fun _ => ⟨minDelta_le_maxDelta, le_refl _⟩⟩
  · rw [if_neg h]
    exact ⟨fun h' => h'.1, fun h' => ⟨h', not_lt.1 h⟩⟩

/-- A report leaves the offset in the range exactly if it crosses no side. -/
theorem OllaHandler.mark_inRange_iff (handler : OllaHandler) (isErrored : Bool) :
    (handler.mark isErrored).InRange ↔ handler.Admits isErrored := by
  cases isErrored with
  | true => exact handler.markTbsError_inRange_iff
  | false => exact handler.markTbsSuccess_inRange_iff

theorem OllaHandler.init_inRange (targetBLER : ℚ) : (OllaHandler.init targetBLER).InRange :=
  ⟨(by decide : minDelta ≤ 0), (by decide : (0 : ℚ) ≤ maxDelta)⟩

theorem OllaHandler.mark_deltaUp (handler : OllaHandler) (isErrored : Bool) :
    (handler.mark isErrored).deltaUp = handler.deltaUp := by
  cases isErrored <;> rfl

theorem OllaHandler.mark_deltaDown (handler : OllaHandler) (isErrored : Bool) :
    (handler.mark isErrored).deltaDown = handler.deltaDown := by
  cases isErrored <;> rfl

/-! ## One report among those for all handlers -/

theorem OllaContainer.find_report (container : OllaContainer) (r : Report) :
    (container.report r).find r.id = (container.find r.id).mark r.isErrored := by
  unfold report OllaHandler.mark
  cases r.isErrored with
  | true => exact container.find_set r.id _
  | false => exact container.find_set r.id _

/-- A report for one handler leaves the others as they are. -/
theorem OllaContainer.find_report_ne (container : OllaContainer) {r : Report} (hne : id ≠ r.id) :
    (container.report r).find id = container.find id := by
  unfold report
  cases r.isErrored with
  | true => exact container.find_set_ne hne _
  | false => exact container.find_set_ne hne _

theorem handlerAfter_nil (targetBLER : ℚ) (id : HandlerId) :
    handlerAfter targetBLER id [] = .init targetBLER :=
  OllaContainer.find_init targetBLER id

theorem handlerAfter_concat (reports : List Report) (r : Report) :
    handlerAfter targetBLER id (reports ++ [r]) =
      if r.id = id then (handlerAfter targetBLER id reports).mark r.isErrored
      else handlerAfter targetBLER id reports := by
  have hrun : containerAfter targetBLER (reports ++ [r]) =
      (containerAfter targetBLER reports).report r := List.foldl_concat ..
  unfold handlerAfter
  rw [hrun]
  by_cases h : r.id = id
  · rw [if_pos h, ← h]
    exact OllaContainer.find_report _ r
  · rw [if_neg h]
    exact OllaContainer.find_report_ne _ (Ne.symm h)

/-- The steps of a handler never change. -/
theorem handlerAfter_steps (targetBLER : ℚ) (id : HandlerId) (reports : List Report) :
    (handlerAfter targetBLER id reports).deltaUp = deltaUp ∧
      (handlerAfter targetBLER id reports).deltaDown = targetBLER / (1 - targetBLER) * deltaUp := by
  induction reports using List.reverseRecOn with
  | nil =>
    rw [handlerAfter_nil]
    exact ⟨rfl, rfl⟩
  | append_singleton reports r ih =>
    rw [handlerAfter_concat]
    by_cases h : r.id = id
    · rw [if_pos h, OllaHandler.mark_deltaUp, OllaHandler.mark_deltaDown]
      exact ih
    · rw [if_neg h]
      exact ih

theorem freeOffset_concat (reports : List Report) (r : Report) :
    freeOffset targetBLER id (reports ++ [r]) =
      if r.id = id then
        if r.isErrored then freeOffset targetBLER id reports + deltaUp
        else freeOffset targetBLER id reports - targetBLER / (1 - targetBLER) * deltaUp
      else freeOffset targetBLER id reports := by
  unfold freeOffset reportCount
  by_cases h : r.id = id
  · cases he : r.isErrored <;> simp [List.countP_append, h, he] <;> ring
  · simp [List.countP_append, h]

/-! ## All prefixes -/

theorem staysInRange_concat (reports : List Report) (r : Report) :
    StaysInRange targetBLER id (reports ++ [r]) ↔
      StaysInRange targetBLER id reports ∧
        (handlerAfter targetBLER id (reports ++ [r])).InRange := by
  unfold StaysInRange
  simp only [List.prefix_concat_iff, forall_eq_or_imp]
  exact and_comm

theorem neverCrosses_concat (reports : List Report) (r : Report) :
    NeverCrosses targetBLER id (reports ++ [r]) ↔
      NeverCrosses targetBLER id reports ∧
        (r.id = id → (handlerAfter targetBLER id reports).Admits r.isErrored) := by
  constructor
  · intro h
    constructor
    · intro pre r' hpre hid
      exact h pre r' (hpre.trans (List.prefix_append _ _)) hid
    · intro hid
      exact h reports r (List.prefix_refl _) hid
  · rintro ⟨h, hr⟩ pre r' hpre hid
    rcases List.prefix_concat_iff.1 hpre with heq | hpre
    · obtain ⟨rfl, hrr⟩ := List.append_inj' heq rfl
      obtain rfl := List.singleton_inj.1 hrr
      exact hr hid
    · exact h pre r' hpre hid

theorem staysInRange_iff_neverCrosses (targetBLER : ℚ) (id : HandlerId) (reports : List Report) :
    StaysInRange targetBLER id reports ↔ NeverCrosses targetBLER id reports := by
  induction reports using List.reverseRecOn with
  | nil =>
    constructor
    · intro _ pre r hpre
      simp at hpre
    · intro _ pre hpre
      obtain rfl := List.prefix_nil.1 hpre
      rw [handlerAfter_nil]
      exact OllaHandler.init_inRange targetBLER
  | append_singleton reports r ih =>
    rw [staysInRange_concat, neverCrosses_concat, ih, handlerAfter_concat]
    apply and_congr_right
    intro hnever
    by_cases h : r.id = id
    · rw [if_pos h, OllaHandler.mark_inRange_iff]
      exact ⟨fun hadm _ => hadm, fun hadm => hadm h⟩
    · rw [if_neg h]
      -- a report for another handler: the offset is the one after `reports`
      have hlast := (ih.2 hnever) reports (List.prefix_refl _)
      exact ⟨fun _ hid => absurd hid h, fun _ => hlast⟩

/-! ## No clamp is ever active -/

/-- From inside the range a report moves away from the side that it clamps. -/
theorem OllaHandler.mark_deltaOLLA {handler : OllaHandler} (h : handler.InRange)
    (hup : 0 ≤ handler.deltaUp) (hdown : 0 ≤ handler.deltaDown) (isErrored : Bool) :
    (handler.mark isErrored).deltaOLLA =
      if isErrored then handler.deltaOLLA + handler.deltaUp
      else handler.deltaOLLA - handler.deltaDown := by
  obtain ⟨hmin, hmax⟩ := h
  cases isErrored with
  | true =>
    have hge : minDelta ≤ handler.deltaOLLA + handler.deltaUp := by linarith
    exact if_neg (not_lt.2 hge)
  | false =>
    have hle : handler.deltaOLLA - handler.deltaDown ≤ maxDelta := by linarith
    exact if_neg (not_lt.2 hle)

theorem deltaDown_nonneg (h0 : 0 ≤ targetBLER) (h1 : targetBLER < 1) :
    0 ≤ targetBLER / (1 - targetBLER) * deltaUp := by
  have hpos : 0 < 1 - targetBLER := sub_pos.2 h1
  have hup := deltaUp_nonneg
  positivity

/-- As long as the offset or its unclamped value is in the range, the two agree. -/
theorem deltaOLLA_eq_freeOffset (h0 : 0 ≤ targetBLER) (h1 : targetBLER < 1) (reports : List Report)
    (h : ∀ pre, pre <+: reports → (handlerAfter targetBLER id pre).InRange ∨
      (minDelta ≤ freeOffset targetBLER id pre ∧ freeOffset targetBLER id pre ≤ maxDelta)) :
    (handlerAfter targetBLER id reports).deltaOLLA = freeOffset targetBLER id reports := by
  induction reports using List.reverseRecOn with
  | nil =>
    rw [handlerAfter_nil]
    simp [OllaHandler.init, freeOffset, reportCount]
  | append_singleton reports r ih =>
    have heq := ih fun pre hpre => h pre (hpre.trans (List.prefix_append _ _))
    -- so far nothing has been clamped, so in either case the offset itself is in the range
    have hin : (handlerAfter targetBLER id reports).InRange := by
      rcases h reports (List.prefix_append _ _) with hin | hin
      · exact hin
      · unfold OllaHandler.InRange
        rw [heq]
        exact hin
    obtain ⟨hup, hdown⟩ := handlerAfter_steps targetBLER id reports
    have hup0 := deltaUp_nonneg
    have hdown0 := deltaDown_nonneg h0 h1
    rw [← hup] at hup0
    rw [← hdown] at hdown0
    rw [handlerAfter_concat, freeOffset_concat]
    by_cases hid : r.id = id
    · rw [if_pos hid, if_pos hid, OllaHandler.mark_deltaOLLA hin hup0 hdown0, hup, hdown, heq]
    · rw [if_neg hid, if_neg hid]
      exact heq

theorem staysInRange_iff_balanced (h0 : 0 ≤ targetBLER) (h1 : targetBLER < 1) (id : HandlerId)
    (reports : List Report) :
    StaysInRange targetBLER id reports ↔ Balanced targetBLER id reports := by
  constructor
  · intro h pre hpre
    have heq : (handlerAfter targetBLER id pre).deltaOLLA = freeOffset targetBLER id pre := by
      apply deltaOLLA_eq_freeOffset h0 h1
      intro p hp
      exact .inl (h p (hp.trans hpre))
    rw [← heq]
    exact h pre hpre
  · intro h pre hpre
    have heq : (handlerAfter targetBLER id pre).deltaOLLA = freeOffset targetBLER id pre := by
      apply deltaOLLA_eq_freeOffset h0 h1
      intro p hp
      exact .inr (h p (hp.trans hpre))
    unfold OllaHandler.InRange
    rw [heq]
    exact h pre hpre

/-- The correction of the SINR is then in the range as well, with the outer loop or without. -/
theorem getDeltaSinr_inRange {reports : List Report} (h : StaysInRange targetBLER id reports)
    (isOLLAEnable : Bool) :
    minDelta ≤ (containerAfter targetBLER reports).getDeltaSinr isOLLAEnable id.isUplink id.caId id.layer ∧
      (containerAfter targetBLER reports).getDeltaSinr isOLLAEnable id.isUplink id.caId id.layer ≤
        maxDelta := by
  unfold OllaContainer.getDeltaSinr
  cases isOLLAEnable with
  | true => exact h reports (List.prefix_refl _)
  | false => exact OllaHandler.init_inRange targetBLER

/-- **An offset stays in the range exactly as long as no report crosses a side**, and for a
target BLER in `[0, 1)` exactly as long as errors and successes balance. -/
theorem inRange_iff (targetBLER : ℚ) (id : HandlerId) (reports : List Report) :
    (StaysInRange targetBLER id reports ↔ NeverCrosses targetBLER id reports) ∧
      (0 ≤ targetBLER → targetBLER < 1 →
        (StaysInRange targetBLER id reports ↔ Balanced targetBLER id reports)) := by
  constructor
  · exact staysInRange_iff_neverCrosses targetBLER id reports
  · intro h0 h1
    exact staysInRange_iff_balanced h0 h1 id reports

/-- The first layer of the first downlink carrier. -/
def firstLayer : HandlerId := ⟨false, ⟨0, by decide⟩, ⟨0, by decide⟩⟩

/-- A decoded block, then one in error, for a target BLER of 1/2. -/
theorem inRange_iff_half : StaysInRange (1 / 2) firstLayer [⟨firstLayer, false⟩, ⟨firstLayer, true⟩] := by
  apply ((inRange_iff (1 / 2) firstLayer _).2 (by decide +kernel) (by decide +kernel)).2
  intro pre hpre
  have hmem := (List.mem_inits _ _).2 hpre
  simp only [List.inits, List.map_cons, List.map_nil, List.mem_cons, List.not_mem_nil, or_false] at hmem
  rcases hmem with rfl | rfl | rfl <;>
    norm_num [freeOffset, reportCount, minDelta, maxDelta, deltaUp]

/-- One block in error puts the offset over `MAXDELTA`. -/
theorem error_out_of_range : ¬ ∀ (targetBLER : ℚ) (id : HandlerId) (reports : List Report),
    (handlerAfter targetBLER id reports).InRange := by
  intro hall
  have hin := hall (1 / 10) firstLayer ([] ++ [⟨firstLayer, true⟩])
  -- from 0 by `deltaUp`
  rw [handlerAfter_concat, if_pos rfl] at hin
  have hmax := (OllaHandler.mark_inRange_iff _ true).1 hin
  obtain ⟨hup, -⟩ := handlerAfter_steps (1 / 10) firstLayer []
  have hzero : (handlerAfter (1 / 10) firstLayer []).deltaOLLA = 0 := rfl
  unfold OllaHandler.Admits at hmax
  rw [if_pos rfl, hup, hzero] at hmax
  norm_num [deltaUp, maxDelta] at hmax

end NetSim.Olla
