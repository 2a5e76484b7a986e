import Mathlib.Data.Nat.Find
import Mathlib.Tactic.Common

/-!
# Shortest paths

Walks in a graph whose edges have natural metrics, distances, and the invariant of a search that
settles the closest vertex of its frontier and then scans the edges that leave it. A search is given
by what it has settled, by the labels of its frontier and by the edges it has scanned, so that it may
keep them in any structure and scan edges one at a time.

* `isDist_congr`: distances depend on the edges of the shortest walks only.
* `Frontier.settle`: the closest vertex of the frontier is settled with its distance.
* `Frontier.skip`, `Frontier.label`: one more edge is scanned.
* `Frontier.complete`: with an empty frontier every vertex that can be reached is settled.
* `Labelled.settle`, `Labelled.capped`: the same for a search that keeps a label for every vertex, with a bound
  for no walk.
-/

namespace ShortestPath

variable {V : Type*} (edge : V → V → ℕ → Prop)

/-- A walk from the root, with its cost. -/
inductive Walk (root : V) : V → ℕ → Prop
  | nil : Walk root root 0
  | snoc {v w : V} {c m : ℕ} : Walk root v c → edge v w m → Walk root w (c + m)

/-- The least cost of a walk. -/
structure IsDist (root w : V) (d : ℕ) : Prop where
  walk : Walk edge root w d
  le : ∀ c, Walk edge root w c → d ≤ c

variable {edge} {root v w : V} {c d e m : ℕ}

theorem IsDist.unique (h : IsDist edge root w d) (h' : IsDist edge root w e) : d = e :=
  le_antisymm (h.le e h'.walk) (h'.le d h.walk)

theorem Walk.exists_isDist (h : Walk edge root w c) : ∃ d, IsDist edge root w d := by
  classical
  have hex : ∃ d, Walk edge root w d := ⟨c, h⟩
  exact ⟨Nat.find hex, Nat.find_spec hex, fun c hc => Nat.find_min' hex hc⟩

theorem isDist_root : IsDist edge root root 0 := ⟨.nil, fun _ _ => Nat.zero_le _⟩

/-- The distance grows by at most the metric of an edge. -/
theorem IsDist.le_add (h : IsDist edge root v d) (h' : IsDist edge root w e) (hedge : edge v w m) :
    e ≤ d + m := h'.le _ (.snoc h.walk hedge)

/-- A shortest walk is shortest up to each of its vertices. -/
theorem IsDist.of_snoc (h : IsDist edge root w (c + m)) (hwalk : Walk edge root v c) (hedge : edge v w m) :
    IsDist edge root v c where
  walk := hwalk
  le e he := by
    have hext := h.le _ (.snoc he hedge)
    omega

theorem Walk.mono {edge' : V → V → ℕ → Prop} (hmono : ∀ v w m, edge v w m → edge' v w m)
    (h : Walk edge root w c) : Walk edge' root w c := by
  induction h with
  | nil => exact .nil
  | snoc _ hedge ih => exact .snoc ih (hmono _ _ _ hedge)

/-- An edge that ends a shortest walk. -/
def Tight (edge : V → V → ℕ → Prop) (root v w : V) (m : ℕ) : Prop :=
  ∃ d, IsDist edge root v d ∧ edge v w m ∧ IsDist edge root w (d + m)

/-- A graph that has the edges of the shortest walks has these walks. -/
theorem IsDist.walk_of_tight {edge' : V → V → ℕ → Prop} (h : IsDist edge root w d)
    (htight : ∀ v w m, Tight edge root v w m → w ≠ root → edge' v w m) : Walk edge' root w d := by
  obtain ⟨hwalk, hle⟩ := h
  induction hwalk with
  | nil => exact .nil
  | @snoc v w c m hwalk hedge ih =>
    by_cases hroot : w = root
    · -- only the empty walk to the root is shortest
      have hzero := hle 0 (hroot ▸ .nil)
      obtain ⟨rfl, rfl⟩ : c = 0 ∧ m = 0 := by omega
      exact hroot ▸ .nil
    · have hw : IsDist edge root w (c + m) := ⟨.snoc hwalk hedge, hle⟩
      have hv := hw.of_snoc hwalk hedge
      exact .snoc (ih hv.le) (htight v w m ⟨c, hv, hedge, hw⟩ hroot)

/-- Two graphs that have the edges of each other's shortest walks have the same distances. -/
theorem isDist_congr {edge' : V → V → ℕ → Prop} (h : ∀ v w m, Tight edge root v w m → w ≠ root → edge' v w m)
    (h' : ∀ v w m, Tight edge' root v w m → w ≠ root → edge v w m) :
    IsDist edge root w d ↔ IsDist edge' root w d := by
  constructor
  · intro hd
    obtain ⟨e, he⟩ := (hd.walk_of_tight h).exists_isDist
    have hle := he.le d (hd.walk_of_tight h)
    have hge := hd.le e (he.walk_of_tight h')
    obtain rfl : e = d := by omega
    exact he
  · intro hd
    obtain ⟨e, he⟩ := (hd.walk_of_tight h').exists_isDist
    have hle := he.le d (hd.walk_of_tight h')
    have hge := hd.le e (he.walk_of_tight h)
    obtain rfl : e = d := by omega
    exact he

/-! ## The search -/

variable (edge root)

/-- The settled vertices, the labels of the frontier and the edges that have been scanned. -/
structure Frontier (S C : V → ℕ → Prop) (scanned : V → V → ℕ → Prop) : Prop where
  source : S root 0
  settled : ∀ v d, S v d → IsDist edge root v d
  attained : ∀ w d, C w d → ∃ v dv m, S v dv ∧ edge v w m ∧ scanned v w m ∧ d = dv + m
  fresh : ∀ w d e, C w d → ¬ S w e
  ordered : ∀ v dv w d, S v dv → C w d → dv ≤ d
  scanned_settled : ∀ v w m, scanned v w m → ∃ dv, S v dv
  covered : ∀ v w m dv, S v dv → scanned v w m → (∃ d, S w d) ∨ ∃ d, C w d ∧ d ≤ dv + m

variable {edge root} {S C : V → ℕ → Prop} {scanned : V → V → ℕ → Prop}

namespace Frontier

/-- A search starts with the root. -/
theorem start {S : V → ℕ → Prop} (hS : ∀ v d, S v d ↔ v = root ∧ d = 0) :
    Frontier edge root S (fun _ _ => False) (fun _ _ _ => False) where
  source := (hS _ _).2 ⟨rfl, rfl⟩
  settled v d h := by
    obtain ⟨rfl, rfl⟩ := (hS _ _).1 h
    exact isDist_root
  attained _ _ h := h.elim
  fresh _ _ _ h := h.elim
  ordered _ _ _ _ _ h := h.elim
  scanned_settled _ _ _ h := h.elim
  covered _ _ _ _ _ h := h.elim

variable (h : Frontier edge root S C scanned)
include h

theorem walk (hC : C w d) : Walk edge root w d := by
  obtain ⟨v, dv, m, hv, hedge, -, rfl⟩ := h.attained w d hC
  exact .snoc (h.settled v dv hv).walk hedge

/-- A settled vertex has one label. -/
theorem settled_unique (hd : S v d) (he : S v e) : d = e :=
  (h.settled v d hd).unique (h.settled v e he)

/-- If all edges of the settled vertices are scanned, then a walk either stays in them or costs at
least as much as some label of the frontier. -/
theorem exits (hfull : ∀ v dv w m, S v dv → edge v w m → scanned v w m) (hw : Walk edge root w c) :
    (∃ d, S w d ∧ d ≤ c) ∨ ∃ x e, C x e ∧ e ≤ c := by
  induction hw with
  | nil => exact .inl ⟨0, h.source, le_rfl⟩
  | @snoc v w c m _ hedge ih =>
    rcases ih with ⟨dv, hv, hle⟩ | ⟨x, e, hx, hle⟩
    · rcases h.covered v w m dv hv (hfull v dv w m hv hedge) with ⟨d, hd⟩ | ⟨d, hd, hle'⟩
      · have hwd := (h.settled v dv hv).le_add (h.settled w d hd) hedge
        exact .inl ⟨d, hd, by omega⟩
      · exact .inr ⟨w, d, hd, by omega⟩
    · exact .inr ⟨x, e, hx, by omega⟩

/-- The closest label of the frontier is a distance. -/
theorem isDist_closest (hfull : ∀ v dv w m, S v dv → edge v w m → scanned v w m) (hC : C w d)
    (hmin : ∀ x e, C x e → d ≤ e) : IsDist edge root w d where
  walk := h.walk hC
  le c hc := by
    rcases h.exits hfull hc with ⟨e, he, -⟩ | ⟨x, e, hx, hle⟩
    · exact (h.fresh w d e hC he).elim
    · exact le_trans (hmin x e hx) hle

/-- With an empty frontier everything that a walk reaches is settled. -/
theorem complete (hfull : ∀ v dv w m, S v dv → edge v w m → scanned v w m)
    (hempty : ∀ x e, ¬ C x e) (hw : Walk edge root w c) : ∃ d, S w d := by
  rcases h.exits hfull hw with ⟨d, hd, -⟩ | ⟨x, e, hx, -⟩
  · exact ⟨d, hd⟩
  · exact (hempty x e hx).elim

/-- The closest vertex of the frontier moves to the settled ones. -/
theorem settle (hfull : ∀ v dv w m, S v dv → edge v w m → scanned v w m) (hC : C w d)
    (hmin : ∀ x e, C x e → d ≤ e) {S' C' : V → ℕ → Prop}
    (hS' : ∀ x e, S' x e ↔ S x e ∨ x = w ∧ e = d) (hC' : ∀ x e, C' x e ↔ C x e ∧ x ≠ w) :
    Frontier edge root S' C' scanned where
  source := (hS' _ _).2 (.inl h.source)
  settled x e hx := by
    rcases (hS' _ _).1 hx with hx | ⟨rfl, rfl⟩
    · exact h.settled x e hx
    · exact h.isDist_closest hfull hC hmin
  attained x e hx := by
    obtain ⟨v, dv, m, hv, hrest⟩ := h.attained x e ((hC' _ _).1 hx).1
    exact ⟨v, dv, m, (hS' _ _).2 (.inl hv), hrest⟩
  fresh x e e' hx hs := by
    obtain ⟨hx, hne⟩ := (hC' _ _).1 hx
    rcases (hS' _ _).1 hs with hs | ⟨rfl, -⟩
    · exact h.fresh x e e' hx hs
    · exact hne rfl
  ordered v dv x e hv hx := by
    have hx := ((hC' _ _).1 hx).1
    rcases (hS' _ _).1 hv with hv | ⟨rfl, rfl⟩
    · exact h.ordered v dv x e hv hx
    · exact hmin x e hx
  scanned_settled v x m hs := by
    obtain ⟨dv, hv⟩ := h.scanned_settled v x m hs
    exact ⟨dv, (hS' _ _).2 (.inl hv)⟩
  covered v x m dv hv hs := by
    -- only edges of vertices that were settled before have been scanned
    have hv : S v dv := by
      rcases (hS' _ _).1 hv with hv | ⟨rfl, -⟩
      · exact hv
      · obtain ⟨e, he⟩ := h.scanned_settled v x m hs
        exact (h.fresh v d e hC he).elim
    rcases h.covered v x m dv hv hs with ⟨e, he⟩ | ⟨e, he, hle⟩
    · exact .inl ⟨e, (hS' _ _).2 (.inl he)⟩
    · by_cases hxw : x = w
      · exact .inl ⟨d, (hS' _ _).2 (.inr ⟨hxw, rfl⟩)⟩
      · exact .inr ⟨e, (hC' _ _).2 ⟨he, hxw⟩, hle⟩

/-- An edge that leads nowhere new, or to a frontier label that is no larger, is scanned. -/
theorem skip {scanned' : V → V → ℕ → Prop}
    (hscan : ∀ x y k, scanned' x y k → scanned x y k ∨
      x = v ∧ ((∃ e, S y e) ∨ ∃ e, C y e ∧ ∀ dv, S v dv → e ≤ dv + k))
    (hmono : ∀ x y k, scanned x y k → scanned' x y k) (hv : ∃ dv, S v dv) :
    Frontier edge root S C scanned' where
  source := h.source
  settled := h.settled
  attained x e hx := by
    obtain ⟨u, du, k, hu, hedge, hs, he⟩ := h.attained x e hx
    exact ⟨u, du, k, hu, hedge, hmono _ _ _ hs, he⟩
  fresh := h.fresh
  ordered := h.ordered
  scanned_settled x y k hs := by
    rcases hscan x y k hs with hs | ⟨rfl, -⟩
    · exact h.scanned_settled x y k hs
    · exact hv
  covered x y k dx hx hs := by
    rcases hscan x y k hs with hs | ⟨rfl, hy | ⟨e, he, hle⟩⟩
    · exact h.covered x y k dx hx hs
    · exact .inl hy
    · exact .inr ⟨e, he, hle dx hx⟩

/-- An edge of the vertex settled last gives its end a new or a smaller label. -/
theorem label {C' : V → ℕ → Prop} {scanned' : V → V → ℕ → Prop} (hv : S v d)
    (hlast : ∀ x e, S x e → e ≤ d) (hedge : edge v w m) (hw : ∀ e, ¬ S w e)
    (hle : ∀ e, C w e → d + m ≤ e)
    (hC' : ∀ x e, C' x e ↔ C x e ∧ x ≠ w ∨ x = w ∧ e = d + m)
    (hscan : ∀ x y k, scanned' x y k ↔ scanned x y k ∨ x = v ∧ y = w ∧ k = m) :
    Frontier edge root S C' scanned' where
  source := h.source
  settled := h.settled
  attained x e hx := by
    rcases (hC' _ _).1 hx with ⟨hx, -⟩ | ⟨rfl, rfl⟩
    · obtain ⟨u, du, k, hu, hedge, hs, he⟩ := h.attained x e hx
      exact ⟨u, du, k, hu, hedge, (hscan _ _ _).2 (.inl hs), he⟩
    · exact ⟨v, d, m, hv, hedge, (hscan _ _ _).2 (.inr ⟨rfl, rfl, rfl⟩), rfl⟩
  fresh x e e' hx := by
    rcases (hC' _ _).1 hx with ⟨hx, -⟩ | ⟨rfl, -⟩
    · exact h.fresh x e e' hx
    · exact hw e'
  ordered x dx y e hx hy := by
    rcases (hC' _ _).1 hy with ⟨hy, -⟩ | ⟨-, rfl⟩
    · exact h.ordered x dx y e hx hy
    · exact le_trans (hlast x dx hx) (Nat.le_add_right _ _)
  scanned_settled x y k hs := by
    rcases (hscan _ _ _).1 hs with hs | ⟨rfl, -⟩
    · exact h.scanned_settled x y k hs
    · exact ⟨d, hv⟩
  covered x y k dx hx hs := by
    have hnew : C' w (d + m) := (hC' _ _).2 (.inr ⟨rfl, rfl⟩)
    rcases (hscan _ _ _).1 hs with hs | ⟨rfl, rfl, rfl⟩
    · rcases h.covered x y k dx hx hs with hy | ⟨e, he, hbound⟩
      · exact .inl hy
      · by_cases hyw : y = w
        · subst hyw
          exact .inr ⟨d + m, hnew, le_trans (hle e he) hbound⟩
        · exact .inr ⟨e, (hC' _ _).2 (.inl ⟨he, hyw⟩), hbound⟩
    · have hdx := h.settled_unique hx hv
      exact .inr ⟨d + k, hnew, by omega⟩

end Frontier

/-! ## A search with a label for every vertex

The label of a vertex that no walk has reached yet is a bound that stands for no walk. -/

variable (edge root) in
/-- The distance, if it is below the bound, and the bound otherwise. -/
def Capped (cap : ℕ) (v : V) (d : ℕ) : Prop :=
  IsDist edge root v d ∧ d < cap ∨ d = cap ∧ ∀ c, Walk edge root v c → cap ≤ c

variable (edge root) in
/-- The settled vertices and the labels of all vertices, after the edges of each settled vertex. -/
structure Labelled (cap : ℕ) (settled : V → Prop) (label : V → ℕ) : Prop where
  root_eq : label root = 0
  le_cap : ∀ v, label v ≤ cap
  walk : ∀ v, label v < cap → Walk edge root v (label v)
  covered : ∀ u v m, settled u → edge u v m → label v ≤ label u + m
  ordered : ∀ u v, settled u → ¬ settled v → label u ≤ label v

variable {cap : ℕ} {settled : V → Prop} {label : V → ℕ} {u : V}

theorem Capped.unique (h : Capped edge root cap v d) (h' : Capped edge root cap v e) : d = e := by
  rcases h with ⟨hd, hlt⟩ | ⟨rfl, hall⟩
  · rcases h' with ⟨he, -⟩ | ⟨rfl, hall⟩
    · exact hd.unique he
    · exact absurd (hall d hd.walk) (Nat.not_le.2 hlt)
  · rcases h' with ⟨he, hlt⟩ | ⟨rfl, -⟩
    · exact absurd (hall e he.walk) (Nat.not_le.2 hlt)
    · rfl

variable (edge root) in
theorem exists_capped (cap : ℕ) (v : V) : ∃ d, Capped edge root cap v d := by
  by_cases hreach : ∃ c, Walk edge root v c ∧ c < cap
  · obtain ⟨c, hc, hlt⟩ := hreach
    obtain ⟨d, hd⟩ := hc.exists_isDist
    exact ⟨d, .inl ⟨hd, Nat.lt_of_le_of_lt (hd.le c hc) hlt⟩⟩
  · refine ⟨cap, .inr ⟨rfl, fun c hc => ?_⟩⟩
    by_contra hlt
    exact hreach ⟨c, hc, Nat.not_le.1 hlt⟩

namespace Labelled

/-- At the start nothing is settled. -/
theorem start (hroot : label root = 0) (hcap : ∀ v, v ≠ root → label v = cap) :
    Labelled edge root cap (fun _ => False) label where
  root_eq := hroot
  le_cap v := by
    by_cases hv : v = root
    · rw [hv, hroot]
      exact Nat.zero_le cap
    · exact Nat.le_of_eq (hcap v hv)
  walk v hlt := by
    by_cases hv : v = root
    · rw [hv, hroot]
      exact .nil
    · exact absurd (hcap v hv) (Nat.ne_of_lt hlt)
  covered _ _ _ h := h.elim
  ordered _ _ h := h.elim

/-- A walk costs at least as much as the label of its end, or as that of a vertex that is not settled. -/
theorem exits (h : Labelled edge root cap settled label) (hw : Walk edge root w c) :
    label w ≤ c ∨ ∃ x, ¬ settled x ∧ label x ≤ c := by
  induction hw with
  | nil => exact .inl (Nat.le_of_eq h.root_eq)
  | @snoc v w c m _ hedge ih =>
    rcases ih with hle | ⟨x, hx, hle⟩
    · by_cases hv : settled v
      · have hcov := h.covered v w m hv hedge
        exact .inl (by omega)
      · exact .inr ⟨v, hv, by omega⟩
    · exact .inr ⟨x, hx, by omega⟩

/-- The label is the distance, of a vertex that is no further than those that are not settled. -/
theorem capped (h : Labelled edge root cap settled label) (hclosest : ∀ x, ¬ settled x → label w ≤ label x) :
    Capped edge root cap w (label w) := by
  have hle : ∀ c, Walk edge root w c → label w ≤ c := by
    intro c hc
    rcases h.exits hc with hle | ⟨x, hx, hle⟩
    · exact hle
    · exact Nat.le_trans (hclosest x hx) hle
  rcases Nat.lt_or_eq_of_le (h.le_cap w) with hlt | heq
  · exact .inl ⟨⟨h.walk w hlt, hle⟩, hlt⟩
  · exact .inr ⟨heq, fun c hc => heq ▸ hle c hc⟩

/-- **One vertex** that is closest is settled, and its edges may give smaller labels to the others. -/
theorem settle (h : Labelled edge root cap settled label) (hu : ¬ settled u) (hclosest : ∀ x, ¬ settled x → label u ≤ label x)
    {settled' : V → Prop} {label' : V → ℕ} (hsettled : ∀ x, settled' x ↔ settled x ∨ x = u)
    (hkept : ∀ x, settled' x → label' x = label x) (hle : ∀ x, label' x ≤ label x)
    (hedge : ∀ x m, ¬ settled' x → edge u x m → label' x ≤ label u + m)
    (hnew : ∀ x, label' x = label x ∨ ∃ m, edge u x m ∧ label' x = label u + m) :
    Labelled edge root cap settled' label' where
  root_eq := Nat.le_zero.1 (h.root_eq ▸ hle root)
  le_cap v := Nat.le_trans (hle v) (h.le_cap v)
  walk v hlt := by
    rcases hnew v with heq | ⟨m, hm, heq⟩
    · rw [heq] at hlt ⊢
      exact h.walk v hlt
    · rw [heq] at hlt ⊢
      exact .snoc (h.walk u (by omega)) hm
  covered x v m hx hxv := by
    rw [hkept x hx]
    rcases (hsettled x).1 hx with hx | rfl
    · exact Nat.le_trans (hle v) (h.covered x v m hx hxv)
    · by_cases hv : settled' v
      · rw [hkept v hv]
        rcases (hsettled v).1 hv with hv | rfl
        · exact Nat.le_trans (h.ordered v x hv hu) (Nat.le_add_right _ _)
        · exact Nat.le_add_right _ _
      · exact hedge v m hv hxv
  ordered x v hx hv := by
    rw [hkept x hx]
    have hxu : label x ≤ label u ∧ label x ≤ label v := by
      have hv' : ¬ settled v := fun hs => hv ((hsettled v).2 (.inl hs))
      rcases (hsettled x).1 hx with hx | rfl
      · exact ⟨h.ordered x u hx hu, h.ordered x v hx hv'⟩
      · exact ⟨le_refl _, hclosest v hv'⟩
    rcases hnew v with heq | ⟨m, -, heq⟩
    · rw [heq]
      exact hxu.2
    · rw [heq]
      exact Nat.le_trans hxu.1 (Nat.le_add_right _ _)

/-- Where every edge costs something, a vertex that is not settled is no closer than the closest one, and
its label is its distance if it is as close. -/
theorem capped_of_not_settled (h : Labelled edge root cap settled label) (hpos : ∀ u v m, edge u v m → 0 < m)
    (hclosest : ∀ x, ¬ settled x → label u ≤ label x) (hv : ¬ settled v) (hd : Capped edge root cap v d) :
    label u ≤ d ∧ (d = label u → label v = d) := by
  rcases hd with ⟨hdist, -⟩ | ⟨rfl, -⟩
  · have hle : ∀ y c, Walk edge root y c → c < label u → label y ≤ c := by
      intro y c hc hlt
      rcases h.exits hc with hle | ⟨x, hx, hle⟩
      · exact hle
      · exact absurd (hclosest x hx) (by omega)
    refine ⟨?_, fun heq => le_antisymm ?_ (heq ▸ hclosest v hv)⟩
    · by_contra hlt
      exact absurd (hclosest v hv) (by have := hle v d hdist.walk (Nat.not_le.1 hlt); omega)
    · -- the last edge of a shortest walk leaves a settled vertex
      cases hdist.walk with
      | nil => exact Nat.le_of_eq h.root_eq
      | @snoc x _ c m hx hedge =>
        have hm := hpos x v m hedge
        have hlabel := hle x c hx (by omega)
        by_cases hsettled : settled x
        · have hcov := h.covered x v m hsettled hedge
          omega
        · have hxu := hclosest x hsettled
          omega
  · exact ⟨h.le_cap u, fun heq => le_antisymm (h.le_cap v) (heq ▸ hclosest v hv)⟩

end Labelled

end ShortestPath
