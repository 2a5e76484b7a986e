import Mathlib.Data.List.Basic
import Mathlib.Data.List.Nodup
import Mathlib.Tactic.Common

/-!
# Operations that change a few keys only

A state is looked at through `view`, key by key. Each operation of a family changes what is
seen at its own keys only. In a sequence of operations with disjoint keys each one finds at its
keys what was there at the start, and what it leaves there stays.
-/

namespace Frame

variable {σ κ ν μ : Type*}

/-- An operation changes what is seen at its keys only. -/
def Framed (view : σ → κ → ν) (keys : μ → List κ) (op : σ → μ → σ) : Prop :=
  ∀ s m k, k ∉ keys m → view (op s m) k = view s k

/-- The operations of a sequence have no key in common. -/
def DisjointKeys (keys : μ → List κ) (l : List μ) : Prop :=
  l.Pairwise fun m m' => ∀ k ∈ keys m, k ∉ keys m'

variable {view : σ → κ → ν} {keys : μ → List κ} {op : σ → μ → σ}

/-- A sequence changes what is seen at the keys of its operations only. -/
theorem Framed.foldl (h : Framed view keys op) {l : List μ} {k : κ} (hk : ∀ m ∈ l, k ∉ keys m)
    (s : σ) : view (l.foldl op s) k = view s k := by
  induction l generalizing s with
  | nil => rfl
  | cons m l ih =>
    have hrest : view (l.foldl op (op s m)) k = view (op s m) k :=
      ih (fun m' hm' => hk m' (List.mem_cons_of_mem m hm')) (op s m)
    have hhead : view (op s m) k = view s k := h s m k (hk m List.mem_cons_self)
    exact hrest.trans hhead

/-- **An operation of a sequence with disjoint keys acts on its keys as if it were alone.** -/
theorem Framed.foldl_of_mem (h : Framed view keys op) {l : List μ} (hd : DisjointKeys keys l) {m : μ}
    (hm : m ∈ l) (s : σ) :
    ∃ s', (∀ k ∈ keys m, view s' k = view s k) ∧
      ∀ k ∈ keys m, view (l.foldl op s) k = view (op s' m) k := by
  induction l generalizing s with
  | nil => exact absurd hm List.not_mem_nil
  | cons a l ih =>
    obtain ⟨ha, hl⟩ := List.pairwise_cons.1 hd
    rcases List.mem_cons.1 hm with rfl | hm
    · refine ⟨s, fun k _ => rfl, fun k hk => ?_⟩
      -- the operations after it leave its keys alone
      exact h.foldl (fun m' hm' => ha m' hm' k hk) (op s m)
    · obtain ⟨s', hbefore, hafter⟩ := ih hl hm (op s a)
      refine ⟨s', fun k hk => ?_, hafter⟩
      -- the first operation has not touched its keys
      have hka : k ∉ keys a := fun hmem => ha m hm k hmem hk
      exact (hbefore k hk).trans (h s a k hka)

/-- Operations that share no key with another are disjoint in every sequence without repetition. -/
theorem disjointKeys_of_inj (hinj : ∀ m m' k, k ∈ keys m → k ∈ keys m' → m = m') {l : List μ}
    (h : l.Nodup) : DisjointKeys keys l := by
  refine h.imp ?_
  intro m m' hne k hk hk'
  exact hne (hinj m m' k hk hk')

/-- With one key each, the keys are disjoint if they are distinct. -/
theorem disjointKeys_singleton {l : List κ} (h : l.Nodup) : DisjointKeys (fun k : κ => [k]) l := by
  refine disjointKeys_of_inj ?_ h
  intro m m' k hk hk'
  rw [← List.mem_singleton.1 hk, List.mem_singleton.1 hk']

theorem Framed.foldl_of_not_mem {op : σ → κ → σ} (h : Framed view (fun k : κ => [k]) op) {l : List κ}
    {k : κ} (hk : k ∉ l) (s : σ) : view (l.foldl op s) k = view s k := by
  refine h.foldl ?_ s
  intro m hm hmem
  rw [List.mem_singleton.1 hmem] at hk
  exact hk hm

/-- **What is asked of each operation at its turn can be asked of the first state.** -/
theorem Framed.foldl_iff (h : Framed view keys op) {P : σ → Prop} {Q : σ → μ → Prop}
    (hQ : ∀ s s' m, (∀ k ∈ keys m, view s k = view s' k) → (Q s m ↔ Q s' m))
    (hstep : ∀ s m, P (op s m) ↔ P s ∧ Q s m) {l : List μ} (hd : DisjointKeys keys l) (s : σ) :
    P (l.foldl op s) ↔ P s ∧ ∀ m ∈ l, Q s m := by
  induction l generalizing s with
  | nil => simp
  | cons a l ih =>
    obtain ⟨ha, hl⟩ := List.pairwise_cons.1 hd
    -- the first operation leaves the keys of the others as they are
    have hkeep : ∀ m ∈ l, (Q (op s a) m ↔ Q s m) := by
      intro m hm
      apply hQ
      intro k hk
      exact h s a k fun hka => ha m hm k hka hk
    have hrest : (∀ m ∈ l, Q (op s a) m) ↔ ∀ m ∈ l, Q s m :=
      forall₂_congr hkeep
    rw [List.foldl_cons, ih hl (op s a), hstep, hrest, List.forall_mem_cons, and_assoc]

/-- What every operation keeps of the state holds after the sequence. -/
theorem foldl_eq {β : Type*} (f : σ → β) (h : ∀ s m, f (op s m) = f s) (l : List μ) (s : σ) :
    f (l.foldl op s) = f s := by
  induction l generalizing s with
  | nil => rfl
  | cons m l ih => exact (ih (op s m)).trans (h s m)

end Frame
