import Mathlib.Data.List.Pairwise
import Mathlib.Data.List.SplitBy
import Mathlib.Order.Basic
import Mathlib.Tactic.Common

/-!
# Runs of a list
-/

/-!
## Maximal runs of a list

`List.splitBy` cuts a list wherever two neighbours are not related. The pieces are its maximal
runs (`isMaximalRun_of_mem_splitBy`). If the elements of the list are in an order, then the elements
of different runs are, and the end of a run and the start of any later one are in the strict order of
two elements that are not related (`pairwise_ends_splitBy`).
-/

namespace Runs

variable {α : Type*} {r : α → α → Bool} {R S : α → α → Prop} {l m : List α}

/-- `m` is a run in `l` that cannot be made longer on either side. -/
structure IsMaximalRun (r : α → α → Bool) (l m : List α) : Prop where
  ne_nil : m ≠ []
  chain : m.IsChain fun a b => r a b
  maximal : ∃ pre post, l = pre ++ m ++ post ∧
    (∀ a ∈ pre.getLast?, ∀ b ∈ m.head?, r a b = false) ∧
    (∀ a ∈ m.getLast?, ∀ b ∈ post.head?, r a b = false)

/-- A run ends where the next element is not related to its last one. -/
theorem splitBy_run_append (hne : l ≠ []) (hchain : l.IsChain fun a b => r a b)
    (hcut : ∀ a ∈ l.getLast?, ∀ b ∈ m.head?, r a b = false) :
    (l ++ m).splitBy r = l :: m.splitBy r := by
  rw [List.splitBy_append hcut, List.splitBy_of_isChain hne hchain]
  rfl

/-- The last element of a piece and the first one of the next. -/
def Cut (r : α → α → Bool) (m n : List α) : Prop :=
  ∀ a ∈ m.getLast?, ∀ b ∈ n.head?, r a b = false

theorem isChain_cut_splitBy (r : α → α → Bool) (l : List α) : (l.splitBy r).IsChain (Cut r) := by
  refine (List.isChain_getLast_head_splitBy r l).imp ?_
  rintro m n ⟨hm, hn, h⟩ a ha b hb
  rw [List.getLast?_eq_some_getLast hm, Option.mem_some_iff] at ha
  rw [List.head?_eq_some_head hn, Option.mem_some_iff] at hb
  rw [← ha, ← hb]
  exact h

/-- **The pieces are maximal runs.** -/
theorem isMaximalRun_of_mem_splitBy (h : m ∈ l.splitBy r) : IsMaximalRun r l m := by
  have hflat := List.flatten_splitBy r l
  have hcut := isChain_cut_splitBy r l
  have hne : ∀ n ∈ l.splitBy r, n ≠ [] := fun n hn => List.ne_nil_of_mem_splitBy hn
  refine ⟨hne m h, List.isChain_of_mem_splitBy h, ?_⟩
  obtain ⟨before, behind, hsplit⟩ := List.append_of_mem h
  rw [hsplit] at hflat hcut hne
  refine ⟨before.flatten, behind.flatten, ?_, ?_, ?_⟩
  · rw [← hflat]
    simp only [List.flatten_append, List.flatten_cons, List.append_assoc]
  · -- the last element in front is the last one of the last piece in front
    rcases List.eq_nil_or_concat before with rfl | ⟨before', n, rfl⟩
    · intro a ha
      cases ha
    · have hn : n ≠ [] := hne n (by simp)
      have hnm : Cut r n m := by
        rw [List.concat_eq_append, List.append_assoc] at hcut
        have hright := (List.isChain_append.1 hcut).2.1
        exact (List.isChain_cons_cons.1 hright).1
      intro a ha
      rw [List.concat_eq_append, List.flatten_append, List.flatten_singleton,
        List.getLast?_append_of_ne_nil _ hn] at ha
      exact hnm a ha
  · cases behind with
    | nil =>
      intro a _ b hb
      cases hb
    | cons n behind' =>
      have hn : n ≠ [] := hne n (by simp)
      have hmn : Cut r m n := by
        have hright := (List.isChain_append.1 hcut).2.1
        exact (List.isChain_cons_cons.1 hright).1
      intro a ha b hb
      rw [List.flatten_cons, List.head?_append_of_ne_nil _ hn] at hb
      exact hmn a ha b hb

/-- Two elements are strictly apart if another one lies between them, or if they are neighbours that
are not related. -/
theorem pairwise_ends (hbetween : ∀ a b c, R a b → R b c → S a c)
    (hcut : ∀ a b, R a b → r a b = false → S a b) {pieces : List (List α)}
    (hne : ∀ m ∈ pieces, m ≠ []) (hchain : pieces.IsChain (Cut r))
    (hR : pieces.flatten.Pairwise R) :
    pieces.Pairwise fun m n => ∀ a ∈ m.getLast?, ∀ b ∈ n.head?, S a b := by
  induction pieces with
  | nil => exact .nil
  | cons m pieces ih =>
    rw [List.flatten_cons, List.pairwise_append] at hR
    obtain ⟨_, hrest, hcross⟩ := hR
    refine .cons ?_ (ih (fun n hn => hne n (.tail _ hn)) hchain.tail hrest)
    intro n hn a ha b hb
    have ham : a ∈ m := List.mem_of_getLast? ha
    have hbn : b ∈ n := List.mem_of_head? hb
    cases pieces with
    | nil => cases hn
    | cons n' pieces =>
      rcases List.mem_cons.1 hn with rfl | hn
      · have hab : R a b := hcross a ham b (by simp [hbn])
        have hoff : Cut r m n := (List.isChain_cons_cons.1 hchain).1
        exact hcut a b hab (hoff a ha b hb)
      · obtain ⟨c, hc⟩ := List.exists_mem_of_ne_nil n' (hne n' (by simp))
        have hac : R a c := hcross a ham c (by simp [hc])
        have hcb : R c b := by
          rw [List.flatten_cons, List.pairwise_append] at hrest
          exact hrest.2.2 c hc b (List.mem_flatten.2 ⟨n, hn, hbn⟩)
        exact hbetween a c b hac hcb

theorem pairwise_ends_splitBy (hbetween : ∀ a b c, R a b → R b c → S a c)
    (hcut : ∀ a b, R a b → r a b = false → S a b) (hR : l.Pairwise R) :
    (l.splitBy r).Pairwise fun m n => ∀ a ∈ m.getLast?, ∀ b ∈ n.head?, S a b := by
  refine pairwise_ends hbetween hcut (fun m hm => List.ne_nil_of_mem_splitBy hm)
    (isChain_cut_splitBy r l) ?_
  rw [List.flatten_splitBy]
  exact hR

/-- The elements of different pieces are in the order of the list. -/
theorem pairwise_pieces_splitBy (hR : l.Pairwise R) :
    (l.splitBy r).Pairwise fun m n => ∀ a ∈ m, ∀ b ∈ n, R a b := by
  rw [← List.flatten_splitBy r l, List.pairwise_flatten] at hR
  exact hR.2

end Runs

/-!
## Runs that are cut into chunks

Where a predicate on the natural numbers holds without interruption, it makes a run, and a run is cut into chunks of
`w` numbers, the last of which may be short.

* `runBefore_add`: a run goes on.
* `InFullChunk.of_chunk`, `not_inFullChunk_of_chunk`: which chunks are full.
-/

namespace RunLength

/-- How long the run is that ends right before a number. -/
def runBefore (p : ℕ → Bool) : ℕ → ℕ
  | 0 => 0
  | n + 1 => if p n then runBefore p n + 1 else 0

/-- The run goes on to the end of the chunk of a number. -/
def InFullChunk (p : ℕ → Bool) (w n : ℕ) : Prop := ∀ k < w - runBefore p n % w, p (n + k) = true

instance decidableInFullChunk (p : ℕ → Bool) (w n : ℕ) : Decidable (InFullChunk p w n) :=
  inferInstanceAs (Decidable (∀ k < w - runBefore p n % w, p (n + k) = true))

variable {p : ℕ → Bool} {w m i n : ℕ}

theorem runBefore_succ_of_true (h : p n = true) : runBefore p (n + 1) = runBefore p n + 1 := if_pos h

theorem runBefore_succ_of_false (h : p n = false) : runBefore p (n + 1) = 0 := by
  unfold runBefore
  rw [h]
  rfl

theorem runBefore_add (h : ∀ k < m, p (n + k) = true) : runBefore p (n + m) = runBefore p n + m := by
  induction m with
  | zero => rfl
  | succ m ih =>
    have hm := ih fun k hk => h k (by omega)
    have hlast := runBefore_succ_of_true (h m (by omega))
    rw [← Nat.add_assoc, hlast, hm, Nat.add_assoc]

/-- A number's place in the chunk that starts at `n`. -/
theorem runBefore_add_mod (hn : runBefore p n % w = 0) (h : ∀ k < m, p (n + k) = true) (hi : i ≤ m) (hw : i < w) :
    runBefore p (n + i) % w = i := by
  rw [runBefore_add fun k hk => h k (by omega), Nat.add_mod, hn, Nat.zero_add, Nat.mod_mod, Nat.mod_eq_of_lt hw]

/-- The numbers of a full chunk. -/
theorem InFullChunk.of_chunk (hn : runBefore p n % w = 0) (h : ∀ k < w, p (n + k) = true) (hi : i < w) :
    InFullChunk p w (n + i) := by
  unfold InFullChunk
  rw [runBefore_add_mod hn h (by omega) hi]
  intro k hk
  rw [Nat.add_assoc]
  exact h (i + k) (by omega)

/-- The numbers of a short chunk. -/
theorem not_inFullChunk_of_chunk (hn : runBefore p n % w = 0) (h : ∀ k < m, p (n + k) = true) (hm : m < w)
    (hend : p (n + m) = false) (hi : i ≤ m) : ¬ InFullChunk p w (n + i) := by
  intro hfull
  unfold InFullChunk at hfull
  rw [runBefore_add_mod hn h hi (by omega)] at hfull
  have hlast := hfull (m - i) (by omega)
  rw [Nat.add_assoc, Nat.add_sub_cancel' hi, hend] at hlast
  cases hlast

end RunLength
