import Mathlib.Combinatorics.SimpleGraph.Acyclic
import Mathlib.Data.Set.Finite.Basic
import Mathlib.Logic.Relation
import Mathlib.Order.Basic
import Mathlib.Order.Defs.PartialOrder

/-!
# Chains of parents
-/

/-!
## Graphs of parents

Each vertex but the root has a parent, and a rank falls from each vertex to its parent. The links between vertices and their
parents form a tree.

* `IsParents.reachable`: each vertex is linked to the root.
* `IsParents.card_edgeSet`: there are no more links than vertices other than the root.
* `IsParents.isTree`: so the links are a tree.
-/

namespace ParentTree

variable {V R : Type*} [LinearOrder R] {G : SimpleGraph V} {parent : V → Option V} {root : V} {rank : V → R}

/-- The links of `G` join vertices and their parents, and `rank` falls towards the root. -/
structure IsParents (G : SimpleGraph V) (parent : V → Option V) (root : V) (rank : V → R) : Prop where
  root_none : parent root = none
  falls : ∀ v, v ≠ root → ∃ w, parent v = some w ∧ rank w < rank v
  adj_iff : ∀ u v, G.Adj u v ↔ parent u = some v ∨ parent v = some u

theorem IsParents.reachable [WellFoundedLT R] (h : IsParents G parent root rank) (v : V) : G.Reachable v root := by
  -- by induction on the rank
  induction hr : rank v using WellFoundedLT.induction generalizing v with
  | ind r ih =>
    by_cases hv : v = root
    · rw [hv]
    · obtain ⟨w, hw, hlt⟩ := h.falls v hv
      have hadj : G.Adj v w := (h.adj_iff v w).2 (.inl hw)
      exact hadj.reachable.trans (ih (rank w) (hr ▸ hlt) w rfl)

theorem IsParents.connected [WellFoundedLT R] (h : IsParents G parent root rank) : G.Connected :=
  G.connected_iff_exists_forall_reachable.2 ⟨root, fun v => (h.reachable v).symm⟩

/-- Each link is that of a vertex to its parent. -/
theorem IsParents.card_edgeSet [Finite V] (h : IsParents G parent root rank) : Nat.card G.edgeSet + 1 ≤ Nat.card V := by
  classical
  have : Fintype V := Fintype.ofFinite V
  have hchoose : ∀ v : {v : V | v ≠ root}, ∃ e : G.edgeSet, ∃ w, parent v = some w ∧ e.1 = s(v.1, w) := by
    rintro ⟨v, hv⟩
    obtain ⟨w, hw, -⟩ := h.falls v hv
    exact ⟨⟨s(v, w), (h.adj_iff v w).2 (.inl hw)⟩, w, hw, rfl⟩
  choose f hf using hchoose
  have hsurj : Function.Surjective f := by
    rintro ⟨e, he⟩
    induction e using Sym2.ind with
    | h u v =>
      have hend : ∀ u v : V, parent u = some v → ∃ x, (f x).1 = s(u, v) := by
        intro u v huv
        have hu : u ≠ root := by
          rintro rfl
          rw [h.root_none] at huv
          exact absurd huv (by simp)
        obtain ⟨w, hw, hedge⟩ := hf ⟨u, hu⟩
        obtain rfl := Option.some.inj (hw.symm.trans huv)
        exact ⟨⟨u, hu⟩, hedge⟩
      rcases (h.adj_iff u v).1 he with huv | hvu
      · obtain ⟨x, hx⟩ := hend u v huv
        exact ⟨x, Subtype.ext hx⟩
      · obtain ⟨x, hx⟩ := hend v u hvu
        exact ⟨x, Subtype.ext (hx.trans Sym2.eq_swap)⟩
  have hle : Nat.card G.edgeSet ≤ Nat.card {v : V | v ≠ root} := Nat.card_le_card_of_surjective f hsurj
  have hothers : Nat.card {v : V | v ≠ root} = Nat.card V - 1 := by
    rw [Nat.card_eq_fintype_card, Nat.card_eq_fintype_card]
    exact Set.card_ne_eq root
  have hpos : 0 < Nat.card V := Nat.card_pos_iff.2 ⟨⟨root⟩, inferInstance⟩
  omega

/-- **Parents make a tree.** -/
theorem IsParents.isTree [Finite V] [WellFoundedLT R] (h : IsParents G parent root rank) : G.IsTree := by
  have hconn := h.connected
  have hlow := hconn.card_vert_le_card_edgeSet_add_one
  have hhigh := h.card_edgeSet
  exact SimpleGraph.isTree_iff_connected_and_card.2 ⟨hconn, by omega⟩

end ParentTree

/-!
## Chains that never come back

A relation is acyclic if no chain of its steps leads back to where it started. A key that never falls, with a
rank that falls where the key stays, rules that out. Only the steps that can go on count: the last step of a
chain may do anything.

* `acyclic_of_progress`: the rule by key and rank.
* `acyclic_of_core`: the steps that can go on may be replaced by another relation.
-/

namespace LoopFree

variable {V K : Type*} {r core : V → V → Prop}

open Relation

/-- No chain of steps leads back to where it started. -/
def Acyclic (r : V → V → Prop) : Prop := ∀ u, ¬ TransGen r u u

/-- A chain whose end can go on consists of steps that can go on. -/
theorem transGen_core (h : ∀ u v w, r u v → r v w → core u v) {u v w : V} (huv : TransGen r u v) (hvw : r v w) :
    TransGen core u v := by
  induction huv generalizing w with
  | single h1 => exact .single (h _ _ _ h1 hvw)
  | tail _ h2 ih => exact .tail (ih h2) (h _ _ _ h2 hvw)

theorem acyclic_of_core (h : ∀ u v w, r u v → r v w → core u v) (hcore : Acyclic core) : Acyclic r := by
  intro u hu
  obtain ⟨w, huw, -⟩ := TransGen.head'_iff.1 hu
  exact hcore u (transGen_core h hu huw)

/-- **The rule by key and rank.** -/
theorem acyclic_of_progress [PartialOrder K] (key : V → K) (rank : V → ℕ)
    (h : ∀ u v w, r u v → r v w → key u < key v ∨ key u = key v ∧ rank v < rank u) : Acyclic r := by
  let core u v := key u < key v ∨ key u = key v ∧ rank v < rank u
  have hchain : ∀ {u v}, TransGen core u v → core u v := by
    intro u v huv
    induction huv with
    | single h1 => exact h1
    | tail _ h2 ih =>
      rcases ih with ih | ⟨heq, hrank⟩
      · rcases h2 with h2 | ⟨heq', -⟩
        · exact .inl (ih.trans h2)
        · exact .inl (heq' ▸ ih)
      · rcases h2 with h2 | ⟨heq', hrank'⟩
        · exact .inl (heq ▸ h2)
        · exact .inr ⟨heq.trans heq', Nat.lt_trans hrank' hrank⟩
  have hcore : Acyclic core := by
    intro u hu
    rcases hchain hu with hlt | ⟨-, hlt⟩
    · exact lt_irrefl _ hlt
    · exact Nat.lt_irrefl _ hlt
  exact acyclic_of_core h hcore

end LoopFree
