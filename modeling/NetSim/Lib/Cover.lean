import Mathlib.Algebra.BigOperators.Group.List.Basic
import Mathlib.Algebra.Order.BigOperators.Group.List
import Mathlib.Algebra.Ring.Int.Defs
import Mathlib.Data.List.Basic
import Mathlib.Data.List.Nodup
import Mathlib.Data.List.Perm.Subperm
import Mathlib.Data.List.Range
import Mathlib.Tactic.Common

/-!
# Covers
-/

/-!
## Covering targets, one choice at a time

Each tuple says that a target is reached via some member. A cover is built by taking a tuple that is left,
choosing its member, and dropping the tuples whose targets the chosen members reach.

* `Partial.choose`: what one choice keeps, for any choice of the tuple.
* `Partial.covers`: once no tuple is left, every target is covered.
* `Drawn`: the tuples that are first at some time, where each choice is the first tuple that is left.
-/

namespace Cover

variable {T A B : Type*} (via : T → A) (target : T → B)

/-- The target is reached via a chosen member. -/
def Covered (all : List T) (chosen : List A) (b : B) : Prop :=
  ∃ t ∈ all, via t ∈ chosen ∧ target t = b

/-- The chosen members cover what is not left, and what is left does not need them. -/
structure Partial (all rest : List T) (chosen : List A) : Prop where
  subset : ∀ t ∈ rest, t ∈ all
  fresh : ∀ t ∈ rest, via t ∉ chosen
  nodup : chosen.Nodup
  chosen_via : ∀ a ∈ chosen, ∃ t ∈ all, via t = a
  covered : ∀ t ∈ all, t ∈ rest ∨ Covered via target all chosen (target t)

variable {via target} {all rest : List T} {chosen : List A} {t : T} {a : A}

theorem Covered.mono {b : B} (h : Covered via target all chosen b) (a : A) :
    Covered via target all (chosen ++ [a]) b := by
  obtain ⟨t, ht, hvia, heq⟩ := h
  exact ⟨t, ht, List.mem_append_left _ hvia, heq⟩

/-- Nothing is chosen yet. -/
theorem Partial.start (all : List T) : Partial via target all all [] where
  subset _ h := h
  fresh _ _ := List.not_mem_nil
  nodup := List.nodup_nil
  chosen_via _ h := absurd h List.not_mem_nil
  covered _ h := .inl h

/-- Nothing is left. -/
theorem Partial.covers (h : Partial via target all rest chosen) (hnil : rest = []) (ht : t ∈ all) :
    Covered via target all chosen (target t) :=
  (h.covered t ht).resolve_left (hnil ▸ List.not_mem_nil)

variable [DecidableEq A] [DecidableEq B]

variable (via target) in
/-- The tuples whose targets the chosen members do not reach. -/
def prune (rest : List T) (chosen : List A) : List T :=
  rest.filter fun t => ∀ t' ∈ rest, via t' ∈ chosen → target t' ≠ target t

theorem mem_prune : t ∈ prune via target rest chosen ↔
    t ∈ rest ∧ ∀ t' ∈ rest, via t' ∈ chosen → target t' ≠ target t := by
  unfold prune
  rw [List.mem_filter, decide_eq_true_iff]

/-- The chosen tuple itself is dropped. -/
theorem prune_length_lt (ht : t ∈ rest) (hvia : via t ∈ chosen) :
    (prune via target rest chosen).length < rest.length := by
  refine Nat.lt_of_le_of_ne (List.length_filter_le _ _) fun heq => ?_
  have hall : ∀ u ∈ rest, decide (∀ t' ∈ rest, via t' ∈ chosen → target t' ≠ target u) = true :=
    List.length_filter_eq_length_iff.1 heq
  exact of_decide_eq_true (hall t ht) t ht hvia rfl

/-- **One choice.** -/
theorem Partial.choose (h : Partial via target all rest chosen) (ht : t ∈ rest) :
    Partial via target all (prune via target rest (chosen ++ [via t])) (chosen ++ [via t]) where
  subset u hu := h.subset u (mem_prune.1 hu).1
  fresh u hu hmem := (mem_prune.1 hu).2 u (mem_prune.1 hu).1 hmem rfl
  nodup := by
    refine List.nodup_append.2 ⟨h.nodup, List.nodup_singleton _, fun a ha b hb heq => ?_⟩
    rw [heq, List.mem_singleton.1 hb] at ha
    exact h.fresh t ht ha
  chosen_via a ha := by
    rcases List.mem_append.1 ha with ha | ha
    · exact h.chosen_via a ha
    · exact ⟨t, h.subset t ht, (List.mem_singleton.1 ha).symm⟩
  covered u hu := by
    rcases h.covered u hu with hrest | hcov
    · -- a tuple that was left is dropped only if a tuple that was left covers its target
      by_cases hp : u ∈ prune via target rest (chosen ++ [via t])
      · exact .inl hp
      · right
        rw [mem_prune] at hp
        push Not at hp
        obtain ⟨t', ht', hvia, heq⟩ := hp hrest
        exact ⟨t', h.subset t' ht', hvia, heq⟩
    · exact .inr (hcov.mono _)

/-! ## Pruning for one member after the other -/

/-- Pruning for more members is pruning twice. -/
theorem prune_append (chosen chosen' : List A) : prune via target rest (chosen ++ chosen') =
    prune via target (prune via target rest chosen) chosen' := by
  unfold prune
  rw [List.filter_filter]
  refine List.filter_congr fun t ht => ?_
  rw [← Bool.decide_and, decide_eq_decide]
  constructor
  · intro h
    exact ⟨fun t' ht' hvia => h t' (List.mem_of_mem_filter ht') (List.mem_append_right _ hvia),
      fun t' ht' hvia => h t' ht' (List.mem_append_left _ hvia)⟩
  · rintro ⟨hlater, hearlier⟩ t' ht' hvia
    rcases List.mem_append.1 hvia with hvia | hvia
    · exact hearlier t' ht' hvia
    · by_cases hkept : t' ∈ prune via target rest chosen
      · exact hlater t' hkept hvia
      · -- `t'` was dropped because of a tuple with the same target
        rw [mem_prune] at hkept
        push Not at hkept
        obtain ⟨t'', ht'', hvia'', heq⟩ := hkept ht'
        rw [← heq]
        exact hearlier t'' ht'' hvia''

theorem prune_congr {chosen' : List A} (h : ∀ a, a ∈ chosen ↔ a ∈ chosen') : prune via target rest chosen = prune via target rest chosen' := by
  unfold prune
  refine List.filter_congr fun t _ => ?_
  rw [decide_eq_decide]
  simp only [h]

/-- Where no tuple is via a chosen member, nothing is dropped. -/
theorem prune_eq_self (h : ∀ t ∈ rest, via t ∉ chosen) : prune via target rest chosen = rest :=
  List.filter_eq_self.2 fun _ _ => decide_eq_true fun t' ht' hvia => absurd hvia (h t' ht')

/-- The tuples of one target are kept or dropped together. -/
theorem countP_prune (ht : t ∈ prune via target rest chosen) :
    (prune via target rest chosen).countP (fun u => target u = target t) = rest.countP fun u => target u = target t := by
  have hkept := (mem_prune.1 ht).2
  unfold prune
  rw [List.countP_filter]
  refine List.countP_congr fun u _ => ?_
  simp only [Bool.and_eq_true, decide_eq_true_eq]
  constructor
  · exact And.left
  · intro heq
    exact ⟨heq, fun t' ht' hvia => heq ▸ hkept t' ht' hvia⟩

/-! ## Choosing the first tuple each time -/

variable (via target) in
/-- The tuples that are first in the list at some time, where each time the member of the first one is chosen. -/
inductive Drawn : List T → T → Prop
  | head (t : T) (rest : List T) : Drawn (t :: rest) t
  | later {t : T} {rest : List T} {u : T} : Drawn (prune via target (t :: rest) [via t]) u → Drawn (t :: rest) u

theorem not_drawn_nil : ¬ Drawn via target [] t := nofun

theorem drawn_cons {u : T} : Drawn via target (t :: rest) u ↔ u = t ∨ Drawn via target (prune via target (t :: rest) [via t]) u := by
  constructor
  · intro h
    cases h with
    | head => exact .inl rfl
    | later h => exact .inr h
  · rintro (rfl | h)
    · exact .head u rest
    · exact .later h

theorem Drawn.mem {u : T} (h : Drawn via target rest u) : u ∈ rest := by
  induction h with
  | head t rest => exact List.mem_cons_self
  | later _ ih => exact (mem_prune.1 ih).1

end Cover

/-!
## Lists that cover all numbers below a bound

Numbers below a bound are drawn one after the other, with repetitions, until each has been drawn.

* `exists_completes`: one draw is the last that was missing.
* `perm_range_of_nodup`: without repetitions the draws are a permutation.
* `sum_eq_iff_nodup`: positive weights are summed up right exactly if there is no repetition.
-/

namespace Covering

variable {n x : ℕ} {l : List ℕ}

/-- Each number below `n` occurs, and no other. -/
def Covers (n : ℕ) (l : List ℕ) : Prop := ∀ i, i < n ↔ i ∈ l

/-- After `l`, the number `x` is the only one that is missing. -/
def Completes (n : ℕ) (l : List ℕ) (x : ℕ) : Prop := x ∉ l ∧ Covers n (l ++ [x])

theorem Covers.lt (h : Covers n l) {i : ℕ} (hi : i ∈ l) : i < n := (h i).2 hi

/-- A list that covers is complete after one of its entries. -/
theorem exists_completes (hn : 0 < n) (h : Covers n l) : ∃ arr x post, l = arr ++ x :: post ∧ Completes n arr x := by
  have hpre : ∀ pre post : List ℕ, l = pre ++ post → ¬ Covers n pre → ∃ arr x post, l = arr ++ x :: post ∧ Completes n arr x := by
    intro pre post
    induction post generalizing pre with
    | nil =>
      intro heq hnot
      rw [List.append_nil] at heq
      exact absurd (heq ▸ h) hnot
    | cons x post ih =>
      intro heq hnot
      by_cases hx : Covers n (pre ++ [x])
      · refine ⟨pre, x, post, heq, ?_, hx⟩
        intro hmem
        apply hnot
        intro i
        rw [hx i]
        simp only [List.mem_append, List.mem_singleton]
        constructor
        · rintro (hi | rfl)
          · exact hi
          · exact hmem
        · exact .inl
      · exact ih (pre ++ [x]) (by rw [heq]; simp) hx
  refine hpre [] l rfl ?_
  intro hnil
  exact absurd ((hnil 0).1 hn) List.not_mem_nil

/-- What is complete stays so, and nothing is missing then. -/
theorem Completes.eq_of_append (h : Completes n l x) {l' : List ℕ} {x' : ℕ} (h' : Completes n l' x') {more post post' : List ℕ}
    (hmore : l' = l ++ more) (heq : x :: post = more ++ x' :: post') : l = l' := by
  cases more with
  | nil =>
    rw [hmore, List.append_nil]
  | cons y more =>
    obtain ⟨rfl, -⟩ := List.cons.inj heq
    have hx' : x' < n := h'.2.lt (List.mem_append_right l' (List.mem_singleton_self x'))
    have hmem : x' ∈ l ++ [x] := (h.2 x').1 hx'
    have hold : x' ∈ l' := by
      rw [hmore]
      rcases List.mem_append.1 hmem with hmem | hmem
      · exact List.mem_append_left _ hmem
      · rw [List.mem_singleton.1 hmem]
        exact List.mem_append_right _ List.mem_cons_self
    exact absurd hold h'.1

/-- There is one draw that completes. -/
theorem Completes.unique (h : Completes n l x) {l' : List ℕ} {x' : ℕ} (h' : Completes n l' x') {post post' : List ℕ}
    (heq : l ++ x :: post = l' ++ x' :: post') : l = l' := by
  rcases List.append_eq_append_iff.1 heq with ⟨more, hmore, hrest⟩ | ⟨more, hmore, hrest⟩
  · exact h.eq_of_append h' hmore hrest
  · exact (h'.eq_of_append h hmore hrest).symm

/-- What covers holds the numbers below the bound once, and more. -/
theorem exists_perm (h : Covers n l) : ∃ more, l.Perm (List.range n ++ more) := by
  have hsub : List.range n ⊆ l := fun i hi => (h i).1 (List.mem_range.1 hi)
  obtain ⟨l', hperm, hsub'⟩ := List.subperm_of_subset List.nodup_range hsub
  obtain ⟨more, hmore⟩ := hsub'.exists_perm_append
  exact ⟨more, hmore.trans (hperm.append_right more)⟩

theorem perm_range_of_nodup (h : Covers n l) (hnodup : l.Nodup) : l.Perm (List.range n) :=
  (List.perm_ext_iff_of_nodup hnodup List.nodup_range).2 fun i => (h i).symm.trans List.mem_range.symm

/-- **The sum of positive weights** is that of the numbers below the bound exactly if no number occurs twice. -/
theorem sum_eq_iff_nodup (h : Covers n l) {w : ℕ → ℤ} (hpos : ∀ i < n, 0 < w i) :
    (l.map w).sum = ((List.range n).map w).sum ↔ l.Nodup := by
  constructor
  · intro hsum
    obtain ⟨more, hperm⟩ := exists_perm h
    have hsplit : (l.map w).sum = ((List.range n).map w).sum + (more.map w).sum := by
      rw [(hperm.map w).sum_eq, List.map_append, List.sum_append]
    have hzero : (more.map w).sum = 0 := by omega
    cases more with
    | nil =>
      rw [List.append_nil] at hperm
      exact hperm.nodup_iff.2 List.nodup_range
    | cons i more =>
      -- the weights of what is left over are positive
      have hmem : ∀ j ∈ i :: more, j < n := fun j hj => h.lt (hperm.mem_iff.2 (List.mem_append_right _ hj))
      have hi := hpos i (hmem i List.mem_cons_self)
      have hrest : 0 ≤ (more.map w).sum := by
        apply List.sum_nonneg
        intro y hy
        obtain ⟨j, hj, rfl⟩ := List.mem_map.1 hy
        exact Int.le_of_lt (hpos j (hmem j (List.mem_cons_of_mem i hj)))
      rw [List.map_cons, List.sum_cons] at hzero
      omega
  · intro hnodup
    exact ((perm_range_of_nodup h hnodup).map w).sum_eq

end Covering
