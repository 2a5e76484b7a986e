import Mathlib.Data.List.Basic
import Mathlib.Tactic.Common

/-!
# Machines with labelled partial steps

A machine has initial states and a step function that returns no state when the
event is not enabled. `ReachOn ok` collects the states of the runs whose steps all
satisfy `ok` (a condition on the state before the step and on the event).

* `ReachOn.inv`: an invariant that holds initially and that every allowed step
  keeps holds in every state reached.
* `ReachOn.of_execOn`, `ReachOn.exists_of_execOn`: a run given as a list of events,
  checked by evaluation.
-/

variable {S E : Type*}

structure Machine (S E : Type*) where
  init : S → Prop
  step : S → E → Option S

namespace Machine

variable (M : Machine S E)

/-- The states reached by the runs whose steps all satisfy `ok`. -/
inductive ReachOn (ok : S → E → Prop) : S → Prop
  | init {s : S} : M.init s → ReachOn ok s
  | step {s s' : S} {e : E} : ReachOn ok s → ok s e → M.step s e = some s' → ReachOn ok s'

/-- The states reached by any run. -/
def Reach (s : S) : Prop := M.ReachOn (fun _ _ => True) s

variable {M} {ok ok' : S → E → Prop}

/-- **The invariant rule.** -/
theorem ReachOn.inv {I : S → Prop} (hinit : ∀ s, M.init s → I s)
    (hstep : ∀ s e s', I s → ok s e → M.step s e = some s' → I s') {s : S}
    (h : M.ReachOn ok s) : I s := by
  induction h with
  | init h0 => exact hinit _ h0
  | step _ hok hs ih => exact hstep _ _ _ ih hok hs

/-- Weakening the condition on the steps keeps every run. -/
theorem ReachOn.mono (hok : ∀ s e, ok s e → ok' s e) {s : S} (h : M.ReachOn ok s) :
    M.ReachOn ok' s := by
  induction h with
  | init h0 => exact .init h0
  | step _ h1 hs ih => exact .step ih (hok _ _ h1) hs

variable (M ok)

/-- Runs a list of events, checking the condition before each step. -/
def execOn [∀ s e, Decidable (ok s e)] : S → List E → Option S
  | s, [] => some s
  | s, e :: es => if ok s e then (M.step s e).bind fun s' => execOn s' es else none

/-- Runs a list of events. -/
def exec : S → List E → Option S
  | s, [] => some s
  | s, e :: es => (M.step s e).bind fun s' => exec s' es

variable {M ok}

theorem ReachOn.of_execOn [∀ s e, Decidable (ok s e)] (es : List E) {s s' : S}
    (h : M.ReachOn ok s) (he : M.execOn ok s es = some s') : M.ReachOn ok s' := by
  induction es generalizing s with
  | nil =>
    simp only [execOn, Option.some.injEq] at he
    exact he ▸ h
  | cons e es ih =>
    simp only [execOn] at he
    split at he
    · rename_i hok
      obtain ⟨s₁, hs, he⟩ := Option.bind_eq_some_iff.1 he
      exact ih (.step h hok hs) he
    · exact absurd he (by simp)

theorem Reach.of_exec (es : List E) {s s' : S} (h : M.Reach s) (he : M.exec s es = some s') :
    M.Reach s' := by
  induction es generalizing s with
  | nil =>
    simp only [exec, Option.some.injEq] at he
    exact he ▸ h
  | cons e es ih =>
    obtain ⟨s₁, hs, he⟩ := Option.bind_eq_some_iff.1 he
    exact ih (ReachOn.step h trivial hs) he

variable (ok) in
theorem ReachOn.exists_of_execOn [∀ s e, Decidable (ok s e)] {P : S → Prop} [DecidablePred P]
    (es : List E) {s : S} (h : M.ReachOn ok s) (he : (M.execOn ok s es).any (fun s => P s) = true) :
    ∃ s', M.ReachOn ok s' ∧ P s' := by
  cases hs : M.execOn ok s es with
  | none => simp [hs] at he
  | some s' => exact ⟨s', .of_execOn es h hs, by simpa [hs] using he⟩

theorem Reach.exists_of_exec {P : S → Prop} [DecidablePred P] (es : List E) {s : S} (h : M.Reach s)
    (he : (M.exec s es).any (fun s => P s) = true) : ∃ s', M.Reach s' ∧ P s' := by
  cases hs : M.exec s es with
  | none => simp [hs] at he
  | some s' => exact ⟨s', .of_exec es h hs, by simpa [hs] using he⟩

end Machine
