import Mathlib.Data.List.Induction
import NetSim.Lib.Recent
import NetSim.Spec.Listener

/-!
# When the collector alerts

The collector keeps the times of the last three seconds before the newest ping-pong, and whether it has alerted since there
was only one. Two times are kept exactly if the last two ping-pongs are close, so it alerts at a ping-pong that is close to
the one before, which itself was not close to its own predecessor.

* `after_follows`: what is kept after any pushes.
* `alerts_at_bursts`: where the alerts are.
-/

namespace NetSim.Listener

open Recent

variable {calls : List (ℚ × Option Event)} {times : List ℚ} {c : Collector} {now : ℚ}

/-- The event is a `PINGPONG`. -/
def IsPingPong (ev : Option Event) : Prop := ∃ e, ev = some e ∧ e.type = .pingPong

instance IsPingPong.decidable : DecidablePred IsPingPong
  | none => isFalse (by rintro ⟨_, h, _⟩; cases h)
  | some e => decidable_of_iff (e.type = .pingPong) (by simp [IsPingPong])

/-- The times of the ping-pongs among the pushes, the newest first. -/
def arrivals (calls : List (ℚ × Option Event)) : List ℚ :=
  ((calls.filter fun x => IsPingPong x.2).map (·.1)).reverse

/-- **A burst starts** with a ping-pong at `now` after those at the given times, of which the newest comes first: it is within
three seconds of the one before, which was the first or came more than three seconds after its own predecessor. -/
def StartsBurst (now : ℚ) : List ℚ → Prop
  | [] => False
  | [t] => now - t ≤ 3
  | t :: t' :: _ => now - t ≤ 3 ∧ 3 < t - t'

/-- The collector after some pushes. -/
def collectorAfter (calls : List (ℚ × Option Event)) : Collector :=
  calls.foldl (fun c x => (c.push x.1 x.2).1) .init

/-- The pushes that print the alert are those that start a burst. -/
def AlertsAtBursts (calls : List (ℚ × Option Event)) : Prop :=
  ∀ pre now ev post, calls = pre ++ (now, ev) :: post →
    (((collectorAfter pre).push now ev).2 = true ↔ IsPingPong ev ∧ StartsBurst now (arrivals pre))

/-- The collector keeps what is recent, and has alerted if this is more than one time. -/
structure Collector.Follows (times : List ℚ) (c : Collector) : Prop where
  kept : c.ppTimes.reverse = recent 3 times
  alerted : c.ppAlerted = true ↔ 2 ≤ (recent 3 times).length

theorem arrivals_concat_of_pingPong {ev : Option Event} (h : IsPingPong ev) :
    arrivals (calls ++ [(now, ev)]) = now :: arrivals calls := by
  simp [arrivals, List.filter_append, h]

theorem arrivals_concat_of_not {ev : Option Event} (h : ¬ IsPingPong ev) :
    arrivals (calls ++ [(now, ev)]) = arrivals calls := by
  simp [arrivals, List.filter_append, h]

theorem startsBurst_iff (hord : (now :: times).Pairwise (fun a b => b ≤ a)) :
    StartsBurst now times ↔ 2 ≤ (recent 3 (now :: times)).length ∧ ¬ 2 ≤ (recent 3 times).length := by
  have h3 : (0 : ℚ) ≤ 3 := by decide
  cases times with
  | nil =>
    have hone : ¬ 2 ≤ (recent 3 [now]).length := not_two_le_length_recent_singleton now
    simp [StartsBurst, hone]
  | cons t times =>
    rw [two_le_length_recent_iff h3 hord]
    cases times with
    | nil =>
      have hone : ¬ 2 ≤ (recent 3 [t]).length := not_two_le_length_recent_singleton t
      simp only [hone, not_false_iff, and_true]
      exact Iff.rfl
    | cons t' times =>
      rw [two_le_length_recent_iff h3 (List.pairwise_cons.1 hord).2, not_le]
      exact Iff.rfl

/-- A ping-pong, for a collector that follows the times before it. -/
theorem Collector.Follows.detect (h : c.Follows times) (hord : (now :: times).Pairwise (fun a b => b ≤ a)) :
    (c.detect now).1.Follows (now :: times) ∧ ((c.detect now).2 = true ↔ StartsBurst now times) := by
  have h3 : (0 : ℚ) ≤ 3 := by decide
  have hlast : (recent 3 times).Sublist times := recent_sublist times
  -- the times that are kept do not decrease, so all early ones are dropped
  have hsorted : (c.ppTimes ++ [now]).Pairwise (· ≤ ·) := by
    have hrev : (c.ppTimes ++ [now]).reverse = now :: recent 3 times := by
      rw [List.reverse_append, h.kept]
      rfl
    have hdesc : (now :: recent 3 times).Pairwise (fun a b => b ≤ a) := hord.sublist (hlast.cons_cons now)
    rw [← hrev, List.pairwise_reverse] at hdesc
    exact hdesc
  have hkept : ((c.ppTimes ++ [now]).dropWhile fun t => t < now - 3).reverse = recent 3 (now :: times) := by
    rw [dropWhile_eq_filter hsorted, ← List.filter_reverse, List.reverse_append, h.kept, recent_cons h3 hord]
    rfl
  have hlen : ((c.ppTimes ++ [now]).dropWhile fun t => t < now - 3).length = (recent 3 (now :: times)).length := by
    rw [← hkept, List.length_reverse]
  have halerted : c.ppAlerted = false ↔ ¬ 2 ≤ (recent 3 times).length := by
    rw [← h.alerted, Bool.not_eq_true]
  constructor
  · refine ⟨hkept, ?_⟩
    unfold Collector.detect
    simp only [hlen]
    generalize (recent 3 (now :: times)).length = n
    by_cases htwo : 2 ≤ n
    · have hnot : ¬ n < 2 := by omega
      cases hc : c.ppAlerted <;> simp only [htwo, hnot, true_and, false_and, if_false, if_true, iff_true]
      rw [if_neg (by decide)]
    · have hlt : n < 2 := by omega
      cases hc : c.ppAlerted <;> simp only [htwo, hlt, false_and, if_false, true_and, iff_false]
      · rw [if_neg (by decide)]
        decide
      · rw [if_pos trivial]
        decide
  · unfold Collector.detect
    simp only [hlen, decide_eq_true_eq, halerted]
    exact (startsBurst_iff hord).symm

theorem push_of_not_pingPong (c : Collector) (now : ℚ) {ev : Option Event} (h : ¬ IsPingPong ev) :
    (c.push now ev).2 = false ∧ (c.push now ev).1.ppTimes = c.ppTimes ∧ (c.push now ev).1.ppAlerted = c.ppAlerted := by
  cases ev with
  | none => exact ⟨rfl, rfl, rfl⟩
  | some e =>
    have htype : e.type ≠ .pingPong := fun htype => h ⟨e, rfl, htype⟩
    unfold Collector.push
    simp only [htype, if_false]
    trivial

/-- One push: the collector still follows the times, and alerts if a burst starts. -/
theorem Collector.Follows.push (h : c.Follows (arrivals calls)) (ev : Option Event)
    (hord : (arrivals (calls ++ [(now, ev)])).Pairwise (fun a b => b ≤ a)) :
    (c.push now ev).1.Follows (arrivals (calls ++ [(now, ev)])) ∧
      ((c.push now ev).2 = true ↔ IsPingPong ev ∧ StartsBurst now (arrivals calls)) := by
  by_cases hev : IsPingPong ev
  · rw [arrivals_concat_of_pingPong hev] at hord ⊢
    obtain ⟨e, rfl, htype⟩ := id hev
    have hpush : c.push now (some e) = Collector.detect { c with q := c.q ++ [fillUe e] } now := if_pos htype
    have hq : Collector.Follows (arrivals calls) { c with q := c.q ++ [fillUe e] } := ⟨h.kept, h.alerted⟩
    rw [hpush]
    simp only [hev, true_and]
    exact hq.detect hord
  · obtain ⟨halert, htimes, halerted⟩ := push_of_not_pingPong c now hev
    rw [arrivals_concat_of_not hev]
    refine ⟨⟨?_, ?_⟩, by simp [halert, hev]⟩
    · rw [htimes]
      exact h.kept
    · rw [halerted]
      exact h.alerted

theorem collectorAfter_concat (calls : List (ℚ × Option Event)) (x : ℚ × Option Event) :
    collectorAfter (calls ++ [x]) = ((collectorAfter calls).push x.1 x.2).1 := List.foldl_concat ..

theorem arrivals_suffix (pre post : List (ℚ × Option Event)) : arrivals pre <:+ arrivals (pre ++ post) := by
  unfold arrivals
  rw [List.filter_append, List.map_append, List.reverse_append]
  exact List.suffix_append _ _

/-- The collector follows the ping-pongs pushed, whatever else is pushed between them. -/
theorem after_follows (hord : (arrivals calls).Pairwise (fun a b => b ≤ a)) :
    (collectorAfter calls).Follows (arrivals calls) := by
  induction calls using List.reverseRecOn with
  | nil => exact ⟨rfl, by simp [collectorAfter, Collector.init, arrivals, recent]⟩
  | append_singleton calls x ih =>
    have hbefore := hord.sublist (arrivals_suffix calls [x]).sublist
    rw [collectorAfter_concat]
    exact ((ih hbefore).push x.2 hord).1

/-- **The alerts are at the starts of the bursts**, for ping-pongs whose times do not decrease, with any other pushes between
them. -/
theorem alerts_at_bursts (calls : List (ℚ × Option Event)) (hord : (arrivals calls).reverse.Pairwise (· ≤ ·)) :
    AlertsAtBursts calls := by
  rw [List.pairwise_reverse] at hord
  rintro pre now ev post rfl
  have hsplit : pre ++ (now, ev) :: post = pre ++ [(now, ev)] ++ post := by simp
  rw [hsplit] at hord
  have hupto := hord.sublist (arrivals_suffix (pre ++ [(now, ev)]) post).sublist
  have hbefore := hupto.sublist (arrivals_suffix pre [(now, ev)]).sublist
  exact ((after_follows hbefore).push ev hupto).2

/-- Three ping-pongs in a row, a handover in between, and a later one: the second one alerts. -/
def burst : List (ℚ × Option Event) :=
  [(1, some (.new .pingPong)), (2, some (.new .handover)), (3, some (.new .pingPong)), (4, some (.new .pingPong)),
    (9, some (.new .pingPong))]

theorem alerts_at_bursts_sample : AlertsAtBursts burst ∧
    ((collectorAfter [(1, some (.new .pingPong)), (2, some (.new .handover))]).push 3 (some (.new .pingPong))).2 = true :=
  ⟨alerts_at_bursts burst (by decide +kernel), by decide +kernel⟩

end NetSim.Listener
