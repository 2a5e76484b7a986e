import Mathlib.Data.List.Induction
import Mathlib.Tactic.NormNum
import NetSim.Spec.Handover

/-!
# What the ping-pong detectors detect

Both detectors remember the *target* of a UE's previous handover, which is the cell
the UE is being served by, not the cell it left (`sendAfter_cell`,
`checkAfter_cell`). A handover leaves its serving cell, so on a connected history
neither ever reports anything (`sendEmits_false`, `checkEmits_false`).

* `pingPong_detected_iff`: on a connected history both detectors are right exactly
  when the history has no ping-pong to report and no UE id is past the array of the
  handover module.
-/

namespace NetSim

/-- A successful handover and the time it completed. -/
structure Handover where
  hdr : HandoverHdr
  time : ℚ

/-- The last handover of a UE. -/
def lastHandover (pre : List Handover) (ue : ℕ) : Option Handover :=
  (pre.filter fun h => h.hdr.ueId = ue).getLast?

/-- **Ping-pong**: the UE goes back to the cell it left in its previous handover, at
most two seconds after it. -/
def PingPong (pre : List Handover) (x : Handover) : Prop :=
  ∃ p, lastHandover pre x.hdr.ueId = some p ∧ x.hdr.targetCellId = p.hdr.serveringCellId ∧
    x.time - p.time ≤ 2 * second

/-- Each handover leaves its serving cell, which is where the previous handover of
that UE took it. -/
def ConnectedHistory (h : List Handover) : Prop :=
  ∀ pre x post, h = pre ++ x :: post → x.hdr.targetCellId ≠ x.hdr.serveringCellId ∧
    ∀ p, lastHandover pre x.hdr.ueId = some p → x.hdr.serveringCellId = p.hdr.targetCellId

/-- A detector is right on a history: at each handover it has a defined result, and
reports exactly the ping-pongs. -/
def Detects (emits : List Handover → Handover → Option Bool) (h : List Handover) : Prop :=
  ∀ pre x post, h = pre ++ x :: post → ∃ b, emits pre x = some b ∧ (b = true ↔ PingPong pre x)

/-! ## The two detectors along a history -/

/-- The table of the handover module after a history. -/
def sendAfter (pre : List Handover) : Option PingPongTable :=
  pre.foldlM (fun t x => (handoverUeContextReleaseAckRecv t .sucessful x.hdr x.time).map (·.1)) .empty

/-- Whether the handover module writes an event at `x`. -/
def sendEmits (pre : List Handover) (x : Handover) : Option Bool :=
  (sendAfter pre).bind fun t =>
    (handoverUeContextReleaseAckRecv t .sucessful x.hdr x.time).map fun r => !r.2.isEmpty

/-- The tracker of the Python interface after a history. -/
def checkAfter (connected : Bool) (pre : List Handover) : PingPongTracker :=
  pre.foldl (fun s x => (checkPingPong connected s x.hdr x.time).1) .init

/-- Whether the Python interface writes an event at `x`. -/
def checkEmits (connected : Bool) (pre : List Handover) (x : Handover) : Option Bool :=
  some (!(checkPingPong connected (checkAfter connected pre) x.hdr x.time).2.isEmpty)

theorem lastHandover_append (pre : List Handover) (x : Handover) (ue : ℕ) :
    lastHandover (pre ++ [x]) ue = if x.hdr.ueId = ue then some x else lastHandover pre ue := by
  unfold lastHandover
  rw [List.filter_append]
  by_cases h : x.hdr.ueId = ue <;> simp [h]

/-- What a detector remembers of a UE: the target of its last handover. -/
def lastTarget (pre : List Handover) (ue : ℕ) : ℕ :=
  ((lastHandover pre ue).map fun p => p.hdr.targetCellId).getD 0

theorem lastTarget_append (pre : List Handover) (x : Handover) (ue : ℕ) :
    lastTarget (pre ++ [x]) ue = if x.hdr.ueId = ue then x.hdr.targetCellId else lastTarget pre ue := by
  unfold lastTarget
  rw [lastHandover_append]
  split <;> rfl

/-- A call with a UE id inside the array writes the target cell, whatever it reports. -/
theorem sendPingpongEvent_table (t : PingPongTable) {hdr : HandoverHdr} (now : ℚ)
    (h : hdr.ueId < maxUeHandover) :
    (sendPingpongEvent t hdr now).map (·.1) = some (t.set hdr.ueId hdr.targetCellId now) := by
  unfold sendPingpongEvent
  rw [if_neg (by omega)]
  dsimp only
  split
  · rfl
  · split <;> rfl

theorem sendAfter_append (pre : List Handover) (x : Handover) : sendAfter (pre ++ [x]) =
    (sendAfter pre).bind fun t => (sendPingpongEvent t x.hdr x.time).map (·.1) := by
  unfold sendAfter
  rw [List.foldlM_append]
  simp [handoverUeContextReleaseAckRecv]

/-- **The remembered cell is the last target.** -/
theorem sendAfter_cell (pre : List Handover) (hue : ∀ x ∈ pre, x.hdr.ueId < maxUeHandover) :
    ∃ t, sendAfter pre = some t ∧ ∀ ue, t.lastServingCell ue = lastTarget pre ue := by
  induction pre using List.reverseRecOn with
  | nil => exact ⟨.empty, rfl, fun ue => rfl⟩
  | append_singleton pre x ih =>
    obtain ⟨t, ht, hcell⟩ := ih fun y hy => hue y (by simp [hy])
    refine ⟨t.set x.hdr.ueId x.hdr.targetCellId x.time, ?_, ?_⟩
    · rw [sendAfter_append, ht]
      exact sendPingpongEvent_table t x.time (hue x (by simp))
    · intro ue
      rw [lastTarget_append]
      split
      · rename_i h
        rw [← h, PingPongTable.set_lastServingCell_self]
      · rename_i h
        rw [PingPongTable.set_lastServingCell_of_ne _ _ _ (Ne.symm h), hcell ue]

theorem checkPingPong_table (connected : Bool) (s : PingPongTracker) (hdr : HandoverHdr) (now : ℚ) :
    (checkPingPong connected s hdr now).1.table =
      if hdr.ueId = 0 ∨ maxUeListener ≤ hdr.ueId then s.table
      else s.table.set hdr.ueId hdr.targetCellId now := by
  unfold checkPingPong
  dsimp only
  split
  · rfl
  · split
    · rfl
    · split <;> rfl

/-- **The remembered cell is the last target**, for the ids the interface tracks. -/
theorem checkAfter_cell (connected : Bool) (pre : List Handover) {ue : ℕ} (h0 : ue ≠ 0)
    (h1 : ue < maxUeListener) :
    (checkAfter connected pre).table.lastServingCell ue = lastTarget pre ue := by
  induction pre using List.reverseRecOn with
  | nil => rfl
  | append_singleton pre x ih =>
    have hstep : (checkAfter connected (pre ++ [x])).table =
        (checkPingPong connected (checkAfter connected pre) x.hdr x.time).1.table := by
      simp [checkAfter]
    rw [hstep, checkPingPong_table, lastTarget_append]
    by_cases hx : x.hdr.ueId = ue
    · rw [if_neg (by omega), if_pos hx, ← hx, PingPongTable.set_lastServingCell_self]
    · rw [if_neg hx]
      split
      · exact ih
      · rw [PingPongTable.set_lastServingCell_of_ne _ _ _ (Ne.symm hx), ih]

/-! ## No ping-pong is ever reported -/

/-- On a connected history the last target of a UE is not where it goes next. -/
theorem lastTarget_ne {h pre post : List Handover} {x : Handover} (hw : ConnectedHistory h)
    (hx : h = pre ++ x :: post) (h0 : lastTarget pre x.hdr.ueId ≠ 0) :
    lastTarget pre x.hdr.ueId ≠ x.hdr.targetCellId := by
  obtain ⟨hne, hp⟩ := hw pre x post hx
  unfold lastTarget at h0 ⊢
  cases hl : lastHandover pre x.hdr.ueId with
  | none => rw [hl] at h0; exact absurd rfl h0
  | some p =>
    have hs := hp p hl
    simp only [Option.map_some, Option.getD_some]
    rw [← hs]
    exact Ne.symm hne

theorem sendEmits_false {h pre post : List Handover} {x : Handover} (hw : ConnectedHistory h)
    (hx : h = pre ++ x :: post) (hue : ∀ y ∈ pre ++ [x], y.hdr.ueId < maxUeHandover) :
    sendEmits pre x = some false := by
  obtain ⟨t, ht, hcell⟩ := sendAfter_cell pre fun y hy => hue y (by simp [hy])
  have hlt : x.hdr.ueId < maxUeHandover := hue x (by simp)
  unfold sendEmits handoverUeContextReleaseAckRecv sendPingpongEvent
  rw [ht, Option.bind_some, if_neg (by simp), if_neg (by omega)]
  dsimp only
  rw [hcell]
  by_cases h0 : lastTarget pre x.hdr.ueId = 0
  · rw [if_pos h0]; rfl
  · rw [if_neg h0, if_neg (fun hc => lastTarget_ne hw hx h0 hc.1)]; rfl

theorem checkEmits_false (connected : Bool) {h pre post : List Handover} {x : Handover}
    (hw : ConnectedHistory h) (hx : h = pre ++ x :: post) :
    checkEmits connected pre x = some false := by
  unfold checkEmits checkPingPong
  dsimp only
  split
  · rfl
  · rename_i hid
    rw [not_or, not_le] at hid
    rw [checkAfter_cell connected pre hid.1 hid.2]
    by_cases h0 : lastTarget pre x.hdr.ueId = 0
    · rw [if_pos h0]; rfl
    · rw [if_neg h0, if_neg (fun hc => lastTarget_ne hw hx h0 hc.1)]; rfl

/-- Past the array of the handover module its detector has no defined result. -/
theorem sendEmits_none (pre : List Handover) {x : Handover} (h : maxUeHandover ≤ x.hdr.ueId) :
    sendEmits pre x = none := by
  unfold sendEmits handoverUeContextReleaseAckRecv sendPingpongEvent
  cases sendAfter pre with
  | none => rfl
  | some t => rw [Option.bind_some, if_neg (by simp), if_pos h]; rfl

/-- **When the detectors are right.** On a connected history, both report exactly the
ping-pongs if and only if the history holds none and every UE id is below `MAX_UE` of
the handover module. -/
theorem pingPong_detected_iff (connected : Bool) (h : List Handover) (hw : ConnectedHistory h) :
    (Detects sendEmits h ∧ Detects (checkEmits connected) h) ↔
      ∀ pre x post, h = pre ++ x :: post → x.hdr.ueId < maxUeHandover ∧ ¬ PingPong pre x := by
  constructor
  · rintro ⟨hsend, hcheck⟩ pre x post hx
    constructor
    · by_contra hue
      obtain ⟨b, hb, -⟩ := hsend pre x post hx
      rw [sendEmits_none pre (not_lt.1 hue)] at hb
      exact absurd hb (by simp)
    · obtain ⟨b, hb, hiff⟩ := hcheck pre x post hx
      rw [checkEmits_false connected hw hx, Option.some.injEq] at hb
      rw [← hiff, ← hb]
      simp
  · intro hno
    have hue : ∀ y ∈ h, y.hdr.ueId < maxUeHandover := by
      intro y hy
      obtain ⟨pre, post, rfl⟩ := List.append_of_mem hy
      exact (hno pre y post rfl).1
    constructor
    · intro pre x post hx
      have hue' : ∀ y ∈ pre ++ [x], y.hdr.ueId < maxUeHandover := fun y hy => hue y (by
        rw [hx]; simp only [List.mem_append, List.mem_cons] at hy ⊢; tauto)
      exact ⟨false, sendEmits_false hw hx hue', by simpa using (hno pre x post hx).2⟩
    · intro pre x post hx
      exact ⟨false, checkEmits_false connected hw hx, by simpa using (hno pre x post hx).2⟩

/-! ## A ping-pong that is not reported -/

/-- UE 1 goes from cell 10 to cell 11 and back, one second later. -/
def backAndForth : List Handover := [⟨⟨1, 10, 11⟩, 0⟩, ⟨⟨1, 11, 10⟩, second⟩]

theorem backAndForth_connected : ConnectedHistory backAndForth := by
  intro pre x post hx
  unfold backAndForth at hx
  rcases pre with _ | ⟨a, _ | ⟨b, pre⟩⟩
  · simp only [List.nil_append, List.cons.injEq] at hx
    obtain ⟨rfl, -⟩ := hx
    exact ⟨by decide, fun p hp => absurd hp (by simp [lastHandover])⟩
  · simp only [List.cons_append, List.nil_append, List.cons.injEq] at hx
    obtain ⟨rfl, rfl, -⟩ := hx
    refine ⟨by decide, ?_⟩
    intro p hp
    simp only [lastHandover, decide_true, List.filter_cons_of_pos, List.filter_nil,
      List.getLast?_singleton, Option.some.injEq] at hp
    rw [← hp]
  · simp at hx

theorem backAndForth_pingPong :
    PingPong [⟨⟨1, 10, 11⟩, 0⟩] ⟨⟨1, 11, 10⟩, second⟩ :=
  ⟨⟨⟨1, 10, 11⟩, 0⟩, rfl, rfl, by norm_num [second]⟩

theorem pingPong_detected_iff_backAndForth :
    (Detects sendEmits backAndForth ∧ Detects (checkEmits true) backAndForth) ↔
      ∀ pre x post, backAndForth = pre ++ x :: post →
        x.hdr.ueId < maxUeHandover ∧ ¬ PingPong pre x :=
  pingPong_detected_iff true backAndForth backAndForth_connected

/-- **Not sound and complete**: the return after one second is a ping-pong, and neither
detector reports it. -/
theorem backAndForth_missed : ConnectedHistory backAndForth ∧ ¬ Detects sendEmits backAndForth ∧
    ¬ Detects (checkEmits true) backAndForth := by
  have hsplit : backAndForth = [⟨⟨1, 10, 11⟩, 0⟩] ++ ⟨⟨1, 11, 10⟩, second⟩ :: [] := rfl
  have hs : sendEmits [⟨⟨1, 10, 11⟩, 0⟩] ⟨⟨1, 11, 10⟩, second⟩ = some false :=
    sendEmits_false backAndForth_connected hsplit (by decide)
  have hc : checkEmits true [⟨⟨1, 10, 11⟩, 0⟩] ⟨⟨1, 11, 10⟩, second⟩ = some false :=
    checkEmits_false true backAndForth_connected hsplit
  refine ⟨backAndForth_connected, ?_, ?_⟩
  · intro h
    obtain ⟨b, hb, hiff⟩ := h _ _ _ hsplit
    rw [hs, Option.some.injEq] at hb
    exact absurd (hiff.2 backAndForth_pingPong) (by simp [← hb])
  · intro h
    obtain ⟨b, hb, hiff⟩ := h _ _ _ hsplit
    rw [hc, Option.some.injEq] at hb
    exact absurd (hiff.2 backAndForth_pingPong) (by simp [← hb])

end NetSim
