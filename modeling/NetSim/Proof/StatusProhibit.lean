import Mathlib.Data.Rat.Defs
import Mathlib.Algebra.Order.Ring.Rat
import Mathlib.Data.List.Chain
import NetSim.Lib.Machine
import NetSim.Proof.AmReceiver

/-!
# How far STATUS PDUs are apart

The receiver asks a flag before it builds a STATUS PDU, but
`LTENR_RLCAM_Start_t_StatusProhibitTimer` is called nowhere, so the flag is never set
(`AmReporter.reach_runInv`): every trigger builds a STATUS PDU at once, and the prohibit rule
holds exactly as long as the triggers themselves are far enough apart
(`AmReporter.prohibits_iff`).
-/

namespace NetSim.Rlc

open Word

/-- What can happen to a receiving entity. -/
inductive AmInput
  | receive (pdu : AmdPdu)
  | reassembly
  | statusProhibit

namespace AmRx

/-- The handler of an input. -/
def react (cfg : AmConfig) (rx : AmRx) : AmInput → Option (AmRx × Output)
  | .receive pdu => rx.receivePdu pdu
  | .reassembly => rx.handleReassemblyTimer cfg
  | .statusProhibit => rx.handleStatusProhibitTimer

/-- Whether a placed PDU with SN `x` gets `LTENR_RLCAM_InitiateToTriggerStatusReport` to trigger. -/
def triggersOnPoll (rx : AmRx) (pdu : AmdPdu) : Bool :=
  (pdu.p || rx.isStatusReportDelayed) &&
    decide (pdu.sn < rx.rxNextHighest ∨ pdu.sn ≥ u32 (rx.rxNext + amWindowSize))

/-- Whether an input leads to `LTENR_RLCAM_TriggerStatusReport`: a PDU that asks for a report, or
an expiry of t-Reassembly. -/
def triggers (rx : AmRx) : AmInput → Bool
  | .receive pdu => !rx.discards pdu && (rx.placeAmdPduInReceptionBuffer pdu).1.triggersOnPoll pdu
  | .reassembly => true
  | .statusProhibit => false

variable {rx rx' : AmRx}

theorem triggers_receive (rx : AmRx) (pdu : AmdPdu) : rx.triggers (.receive pdu) =
    (!rx.discards pdu && (rx.placeAmdPduInReceptionBuffer pdu).1.triggersOnPoll pdu) := rfl

/-! ### The flag -/

theorem placeAmdPdu_prohibit (rx : AmRx) (pdu : AmdPdu) :
    (rx.placeAmdPduInReceptionBuffer pdu).1.isStatusProhibitTimerStarted =
      rx.isStatusProhibitTimerStarted := by
  unfold placeAmdPduInReceptionBuffer
  dsimp only
  split
  · obtain ⟨trigger, started, heq⟩ := updateReassemblyTimer_eq (AmRx.mk _ _ _ _ _ _ _ _ _ _)
    rw [heq]
  · obtain ⟨trigger, started, heq⟩ := updateReassemblyTimer_eq (AmRx.mk _ _ _ _ _ _ _ _ _ _)
    rw [heq]

theorem expireReassembly_prohibit (cfg : AmConfig) (rx : AmRx) :
    (rx.expireReassembly cfg).isStatusProhibitTimerStarted = rx.isStatusProhibitTimerStarted := by
  unfold expireReassembly
  dsimp only
  split <;> rfl

/-- Outside the prohibit time a trigger builds one STATUS PDU. -/
theorem triggerStatusReport_free (h0 : rx.isStatusProhibitTimerStarted = false)
    {statuses : List StatusPdu} (h : rx.triggerStatusReport = some (rx', statuses)) :
    rx'.isStatusProhibitTimerStarted = false ∧ statuses.length = 1 := by
  unfold triggerStatusReport at h
  rw [h0, if_neg Bool.false_ne_true] at h
  obtain ⟨⟨rx₁, pdu⟩, hr, heq⟩ := Option.map_eq_some_iff.1 h
  obtain ⟨rfl, rfl⟩ := Prod.mk.inj heq
  obtain ⟨nacks, -, hr⟩ := Option.bind_eq_some_iff.1 hr
  obtain ⟨rfl, -⟩ := Prod.mk.inj (Option.some.inj hr)
  exact ⟨h0, rfl⟩

theorem initiateToTriggerStatusReport_free (h0 : rx.isStatusProhibitTimerStarted = false) {x : ℕ}
    {statuses : List StatusPdu} (h : rx.initiateToTriggerStatusReport x = some (rx', statuses)) :
    rx'.isStatusProhibitTimerStarted = false ∧
      statuses.length = if x < rx.rxNextHighest ∨ x ≥ u32 (rx.rxNext + amWindowSize) then 1 else 0 := by
  unfold initiateToTriggerStatusReport at h
  by_cases hx : x < rx.rxNextHighest ∨ x ≥ u32 (rx.rxNext + amWindowSize)
  · rw [if_pos hx] at h ⊢
    have hfree : ({ rx with isStatusReportDelayed := false } : AmRx).isStatusProhibitTimerStarted =
        false := h0
    exact triggerStatusReport_free hfree h
  · -- the report is delayed
    rw [if_neg hx] at h ⊢
    obtain ⟨rfl, rfl⟩ := Prod.mk.inj (Option.some.inj h)
    exact ⟨h0, rfl⟩

/-- **Outside the prohibit time** an input builds a STATUS PDU exactly when it triggers one, and
the timer is not started. -/
theorem react_free {cfg : AmConfig} {e : AmInput} {out : Output}
    (h0 : rx.isStatusProhibitTimerStarted = false) (h : rx.react cfg e = some (rx', out)) :
    rx'.isStatusProhibitTimerStarted = false ∧ out.statuses.length = if rx.triggers e then 1 else 0 := by
  cases e with
  | receive pdu =>
    have hplace := (placeAmdPdu_prohibit rx pdu).trans h0
    unfold react receivePdu at h
    dsimp only at h
    rw [triggers_receive]
    by_cases hd : rx.discards pdu = true
    · rw [if_pos hd] at h
      obtain ⟨rfl, rfl⟩ := Prod.mk.inj (Option.some.inj h)
      refine ⟨h0, ?_⟩
      rw [hd]
      rfl
    · rw [if_neg hd] at h
      rw [Bool.not_eq_true] at hd
      rw [hd]
      unfold triggersOnPoll
      by_cases hask : (pdu.p || (rx.placeAmdPduInReceptionBuffer pdu).1.isStatusReportDelayed) = true
      · rw [if_pos hask] at h
        rw [hask]
        obtain ⟨⟨rx₁, statuses⟩, ht, h⟩ := Option.bind_eq_some_iff.1 h
        obtain ⟨rfl, rfl⟩ := Prod.mk.inj (Option.some.inj h)
        obtain ⟨hflag, hlen⟩ := initiateToTriggerStatusReport_free hplace ht
        refine ⟨hflag, ?_⟩
        simpa using hlen
      · rw [if_neg hask] at h
        rw [Bool.not_eq_true] at hask
        rw [hask]
        obtain ⟨rfl, rfl⟩ := Prod.mk.inj (Option.some.inj h)
        exact ⟨hplace, rfl⟩
  | reassembly =>
    unfold react handleReassemblyTimer at h
    dsimp only at h
    by_cases ht : rx.isReassemblyTimerStarted = true
    · rw [if_pos ht] at h
      obtain ⟨⟨rx₁, statuses⟩, hr, h⟩ := Option.bind_eq_some_iff.1 h
      obtain ⟨rfl, rfl⟩ := Prod.mk.inj (Option.some.inj h)
      have hfree := (expireReassembly_prohibit cfg rx).trans h0
      obtain ⟨hflag, hlen⟩ := triggerStatusReport_free hfree hr
      exact ⟨hflag, hlen⟩
    · rw [if_neg ht] at h
      cases h
  | statusProhibit =>
    -- this expiry needs the timer
    unfold react handleStatusProhibitTimer at h
    dsimp only at h
    rw [h0, if_neg Bool.false_ne_true] at h
    cases h

end AmRx

/-- A status trigger: its time, and the time of the last STATUS PDU built before it. -/
structure StatusTrigger where
  time : ℚ
  last : Option ℚ

/-- A receiving entity in time, with the triggers that came and the times at which STATUS PDUs
were built. -/
structure AmReporter where
  rx : AmRx
  now : ℚ
  triggered : List StatusTrigger
  constructed : List ℚ

namespace AmReporter

variable (cfg : AmConfig)

def init : AmReporter := ⟨.init, 0, [], []⟩

/-- The triggers after an input at time `t`. -/
def file (s : AmReporter) (t : ℚ) (e : AmInput) : List StatusTrigger :=
  if s.rx.triggers e then s.triggered ++ [⟨t, s.constructed.getLast?⟩] else s.triggered

/-- An input at a time not before the last one. -/
def step (s : AmReporter) (e : ℚ × AmInput) : Option AmReporter :=
  if e.1 < s.now then none
  else (s.rx.react cfg e.2).map fun r =>
    ⟨r.1, e.1, s.file e.1 e.2, s.constructed ++ r.2.statuses.map fun _ => e.1⟩

def machine : Machine AmReporter (ℚ × AmInput) := ⟨(· = init), step cfg⟩

/-- **The prohibit rule** for a time `prohibit`: STATUS PDUs are that far apart, and a trigger
that comes sooner leads to exactly one at the end of that time. -/
structure Prohibits (prohibit : ℚ) (s : AmReporter) : Prop where
  apart : s.constructed.IsChain fun t t' => t + prohibit ≤ t'
  deferred : ∀ r ∈ s.triggered, ∀ last, r.last = some last → r.time < last + prohibit →
    last + prohibit < s.now → s.constructed.count (last + prohibit) = 1

/-- Successive triggers are at least `prohibit` apart. -/
def TriggersApart (prohibit : ℚ) (s : AmReporter) : Prop :=
  (s.triggered.map (·.time)).IsChain fun t t' => t + prohibit ≤ t'

/-- What every run keeps: each trigger has built a STATUS PDU at once. -/
structure RunInv (s : AmReporter) : Prop where
  free : s.rx.isStatusProhibitTimerStarted = false
  constructed : s.constructed = s.triggered.map (·.time)
  last : ∀ pre r post, s.triggered = pre ++ r :: post → r.last = (pre.map (·.time)).getLast?

variable {cfg} {s s' : AmReporter}

theorem runInv_init : RunInv init where
  free := rfl
  constructed := rfl
  last := by
    intro pre r post h
    exact absurd h.symm (by simp [init])

theorem runInv_step {e : ℚ × AmInput} (hi : RunInv s) (h : step cfg s e = some s') : RunInv s' := by
  obtain ⟨t, e⟩ := e
  unfold step at h
  dsimp only at h
  split at h
  · cases h
  · obtain ⟨⟨rx, out⟩, hr, rfl⟩ := Option.map_eq_some_iff.1 h
    obtain ⟨hfree, hlen⟩ := AmRx.react_free hi.free hr
    unfold file
    by_cases ht : s.rx.triggers e = true
    · rw [if_pos ht] at hlen ⊢
      obtain ⟨pdu, hpdu⟩ := List.length_eq_one_iff.1 hlen
      refine ⟨hfree, ?_, ?_⟩
      · dsimp only
        rw [hpdu, hi.constructed, List.map_append]
        rfl
      · intro pre r post hsplit
        dsimp only at hsplit
        rcases List.eq_nil_or_concat post with rfl | ⟨post', x, rfl⟩
        · -- the trigger that has just come
          obtain ⟨hpre, hr⟩ := List.append_inj' hsplit rfl
          rw [← (List.cons.inj hr).1, ← hpre, ← hi.constructed]
        · rw [List.concat_eq_append, ← List.cons_append, ← List.append_assoc] at hsplit
          exact hi.last pre r post' (List.append_inj' hsplit rfl).1
    · rw [if_neg ht] at hlen ⊢
      refine ⟨hfree, ?_, hi.last⟩
      dsimp only
      rw [List.length_eq_zero_iff.1 hlen, List.map_nil, List.append_nil]
      exact hi.constructed

theorem reach_runInv (h : (machine cfg).Reach s) : RunInv s := by
  apply h.inv
  · rintro _ rfl
    exact runInv_init
  · intro s e s' hi _ hs
    exact runInv_step hi hs

/-- A trigger in a run whose triggers are apart comes after the prohibit time. -/
theorem RunInv.late (hi : RunInv s) {prohibit : ℚ} (hap : TriggersApart prohibit s) {r : StatusTrigger}
    (hr : r ∈ s.triggered) {last : ℚ} (hlast : r.last = some last) : last + prohibit ≤ r.time := by
  obtain ⟨pre, post, hsplit⟩ := List.append_of_mem hr
  rw [hi.last pre r post hsplit] at hlast
  obtain ⟨front, hfront⟩ := List.getLast?_eq_some_iff.1 hlast
  unfold TriggersApart at hap
  have hmap : s.triggered.map (·.time) = front ++ last :: r.time :: post.map (·.time) := by
    rw [hsplit, List.map_append, hfront, List.map_cons, List.append_assoc]
    rfl
  rw [hmap] at hap
  exact (List.isChain_append_cons_cons.1 hap).2.1

/-- **The prohibit rule holds exactly as long as no trigger comes within the prohibit time** of
the one before. -/
theorem prohibits_iff (prohibit : ℚ) (h : (machine cfg).Reach s) :
    Prohibits prohibit s ↔ TriggersApart prohibit s := by
  have hi := reach_runInv h
  constructor
  · intro hp
    unfold TriggersApart
    rw [← hi.constructed]
    exact hp.apart
  · intro hap
    constructor
    · rw [hi.constructed]
      exact hap
    · intro r hr last hlast hsoon _
      have hlate := hi.late hap hr hlast
      exact absurd hsoon (not_lt.2 hlate)

/-- A PDU with a whole SDU that polls. -/
def polled (sn : ℕ) : AmdPdu := ⟨true, .all, sn, 0, ⟨100, 2, 102⟩⟩

/-- Two polls 30 ms apart, for a prohibit time of 20 ms. -/
theorem prohibits_iff_apart : ∃ s, (machine .shipped).Reach s ∧ s.constructed = [0, 30000] ∧
    (Prohibits 20000 s ↔ TriggersApart 20000 s) := by
  obtain ⟨s, hs, htimes⟩ := Machine.Reach.exists_of_exec
    (P := fun s : AmReporter => s.constructed = [0, 30000])
    [(0, .receive (polled 0)), (30000, .receive (polled 1))]
    (Machine.ReachOn.init rfl : (machine .shipped).Reach init) (by decide)
  exact ⟨s, hs, htimes, prohibits_iff 20000 hs⟩

/-- Two polls 1 ms apart have two STATUS PDUs built 1 ms apart. -/
theorem prohibits_broken : ¬ ∀ s, (machine .shipped).Reach s → Prohibits 20000 s := by
  intro hall
  obtain ⟨s, hs, htimes⟩ := Machine.Reach.exists_of_exec
    (P := fun s : AmReporter => s.constructed = [0, 1000])
    [(0, .receive (polled 0)), (1000, .receive (polled 1))]
    (Machine.ReachOn.init rfl : (machine .shipped).Reach init) (by decide)
  have hapart := (hall s hs).apart
  rw [htimes, List.isChain_pair] at hapart
  exact absurd hapart (by decide +kernel)

end AmReporter

end NetSim.Rlc
