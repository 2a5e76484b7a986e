import Mathlib.Data.List.Basic
import Mathlib.Order.WellFounded
import Mathlib.Tactic.Common

/-!
# Loops

A round of a loop goes on from a new state or ends the loop with a result. `Loop.run` makes a
bounded number of rounds, so that a loop that does not end has no result for any bound.

* `states`: the states that the rounds begin with.
* `run_of_le`, `run_unique`: a result does not depend on the bound.
* `Yields`: a loop that ends with a result as wanted.
* `run_inv`: the invariant rule for a loop that has ended.
* `halts_of_variant`: an invariant and a variant that each round makes smaller.
* `not_halts`: an invariant under which every round goes on.
* `Gives`: a computation with several loops that has one result, for every bound that is large enough.
-/

namespace Loop

variable {S B : Type*} (round : S → S ⊕ B)

/-- The result after at most `n` rounds. -/
def run : ℕ → S → Option B
  | 0, _ => none
  | n + 1, s =>
    match round s with
    | .inl s' => run n s'
    | .inr b => some b

/-- The states with which the first `n` rounds begin. -/
def states : ℕ → S → List S
  | 0, _ => []
  | n + 1, s =>
    s :: match round s with
      | .inl s' => states n s'
      | .inr _ => []

/-- The loop ends. -/
def Halts (s : S) : Prop := ∃ n b, run round n s = some b

variable {round}

theorem run_inl {n : ℕ} {s s' : S} (h : round s = .inl s') : run round (n + 1) s = run round n s' := by
  simp only [run, h]

theorem run_inr {n : ℕ} {s : S} {b : B} (h : round s = .inr b) : run round (n + 1) s = some b := by
  simp only [run, h]

theorem states_inl {n : ℕ} {s s' : S} (h : round s = .inl s') : states round (n + 1) s = s :: states round n s' := by
  simp only [states, h]

theorem states_inr {n : ℕ} {s : S} {b : B} (h : round s = .inr b) : states round (n + 1) s = [s] := by
  simp only [states, h]

theorem run_of_le {n m : ℕ} {s : S} {b : B} (h : run round n s = some b) (hle : n ≤ m) :
    run round m s = some b := by
  induction n generalizing s m with
  | zero => cases h
  | succ n ih =>
    obtain ⟨m, rfl⟩ : ∃ k, m = k + 1 := ⟨m - 1, by omega⟩
    cases hr : round s with
    | inl s' =>
      rw [run_inl hr] at h ⊢
      exact ih h (by omega)
    | inr b' =>
      rw [run_inr hr] at h ⊢
      exact h

theorem run_unique {n m : ℕ} {s : S} {b b' : B} (h : run round n s = some b)
    (h' : run round m s = some b') : b = b' := by
  have hmax := run_of_le h (Nat.le_max_left n m)
  rw [run_of_le h' (Nat.le_max_right n m)] at hmax
  exact (Option.some.inj hmax).symm

theorem Halts.of_inl {s s' : S} (h : round s = .inl s') (h' : Halts round s') : Halts round s := by
  obtain ⟨n, b, hb⟩ := h'
  exact ⟨n + 1, b, (run_inl h).trans hb⟩

theorem Halts.of_inr {s : S} {b : B} (h : round s = .inr b) : Halts round s := ⟨1, b, run_inr h⟩

/-- The loop ends, and its result has the property. -/
def Yields (round : S → S ⊕ B) (Q : B → Prop) (s : S) : Prop := ∃ n b, run round n s = some b ∧ Q b

theorem Yields.of_inl {Q : B → Prop} {s s' : S} (h : round s = .inl s') (h' : Yields round Q s') : Yields round Q s := by
  obtain ⟨n, b, hb, hq⟩ := h'
  exact ⟨n + 1, b, (run_inl h).trans hb, hq⟩

theorem Yields.of_inr {Q : B → Prop} {s : S} {b : B} (h : round s = .inr b) (hq : Q b) : Yields round Q s :=
  ⟨1, b, run_inr h, hq⟩

/-- **The invariant rule.** -/
theorem run_inv {I : S → Prop} {Q : B → Prop} (hstep : ∀ s s', I s → round s = .inl s' → I s')
    (hend : ∀ s b, I s → round s = .inr b → Q b) {n : ℕ} {s : S} {b : B} (h : I s)
    (hrun : run round n s = some b) : Q b := by
  induction n generalizing s with
  | zero => cases hrun
  | succ n ih =>
    cases hr : round s with
    | inl s' =>
      rw [run_inl hr] at hrun
      exact ih (hstep s s' h hr) hrun
    | inr b' =>
      rw [run_inr hr] at hrun
      exact hend s b h (hr.trans (congrArg _ (Option.some.inj hrun)))

/-- **The variant rule**, for a variant in any well-founded order. -/
theorem halts_of_variant {V : Type*} {r : V → V → Prop} (hwf : WellFounded r) (μ : S → V)
    {I : S → Prop} (hstep : ∀ s s', I s → round s = .inl s' → I s' ∧ r (μ s') (μ s)) {s : S}
    (h : I s) : Halts round s := by
  induction hv : μ s using hwf.induction generalizing s with
  | _ v ih =>
    cases hr : round s with
    | inl s' =>
      obtain ⟨hi, hlt⟩ := hstep s s' h hr
      exact .of_inl hr (ih _ (hv ▸ hlt) hi rfl)
    | inr b => exact .of_inr hr

/-- A loop whose rounds all go on does not end. -/
theorem not_halts {I : S → Prop} (hstep : ∀ s, I s → ∃ s', round s = .inl s' ∧ I s') {s : S}
    (h : I s) : ¬ Halts round s := by
  rintro ⟨n, b, hrun⟩
  induction n generalizing s with
  | zero => cases hrun
  | succ n ih =>
    obtain ⟨s', hr, hi⟩ := hstep s h
    rw [run_inl hr] at hrun
    exact ih hi hrun

/-! ## Computations with loops -/

/-- The computation has the result `b` for every bound that is large enough, and for no bound another one. -/
structure Gives {A : Type*} (f : ℕ → Option A) (b : A) : Prop where
  enough : ∃ n, ∀ m, n ≤ m → f m = some b
  unique : ∀ n b', f n = some b' → b' = b

theorem Gives.eq {A : Type*} {f : ℕ → Option A} {b b' : A} (h : Gives f b) (h' : Gives f b') : b = b' := by
  obtain ⟨n, hn⟩ := h.enough
  exact h'.unique n b (hn n (le_refl n))

theorem Gives.const {A : Type*} (b : A) : Gives (fun _ => some b) b where
  enough := ⟨0, fun _ _ => rfl⟩
  unique _ _ h := (Option.some.inj h).symm

theorem Gives.map {A C : Type*} {f : ℕ → Option A} {b : A} (F : A → C) (h : Gives f b) : Gives (fun n => (f n).map F) (F b) where
  enough := by
    obtain ⟨n, hn⟩ := h.enough
    exact ⟨n, fun m hm => by rw [hn m hm, Option.map_some]⟩
  unique n c hc := by
    obtain ⟨x, hx, rfl⟩ := Option.map_eq_some_iff.1 hc
    rw [h.unique n x hx]

/-- A computation that needs one step more. -/
theorem Gives.succ {A : Type*} {f g : ℕ → Option A} {b : A} (hzero : f 0 = none) (hsucc : ∀ n, f (n + 1) = g n) (h : Gives g b) :
    Gives f b where
  enough := by
    obtain ⟨n, hn⟩ := h.enough
    refine ⟨n + 1, fun m hm => ?_⟩
    obtain ⟨k, rfl⟩ : ∃ k, m = k + 1 := ⟨m - 1, by omega⟩
    rw [hsucc]
    exact hn k (by omega)
  unique n b' hb' := by
    cases n with
    | zero =>
      rw [hzero] at hb'
      cases hb'
    | succ n =>
      rw [hsucc] at hb'
      exact h.unique n b' hb'

theorem Yields.gives {Q : B → Prop} {s : S} (h : Yields round Q s) : ∃ b, Q b ∧ Gives (fun n => run round n s) b := by
  obtain ⟨n, b, hb, hq⟩ := h
  exact ⟨b, hq, ⟨n, fun m hm => run_of_le hb hm⟩, fun m b' hb' => run_unique hb' hb⟩

theorem Gives.bind {A C : Type*} {f : ℕ → Option A} {g : A → ℕ → Option C} {a : A} {c : C} (hf : Gives f a)
    (hg : Gives (g a) c) : Gives (fun n => (f n).bind fun x => g x n) c where
  enough := by
    obtain ⟨n, hn⟩ := hf.enough
    obtain ⟨k, hk⟩ := hg.enough
    refine ⟨max n k, fun m hm => ?_⟩
    rw [hn m (le_trans (le_max_left n k) hm), Option.bind_some]
    exact hk m (le_trans (le_max_right n k) hm)
  unique n b h := by
    obtain ⟨x, hx, hb⟩ := Option.bind_eq_some_iff.1 h
    rw [hf.unique n x hx] at hb
    exact hg.unique n b hb

end Loop
