import Mathlib.Data.Fintype.Card
import NetSim.Lib.Loop
import NetSim.Lib.ShortestPath
import NetSim.Spec.FastEmulation

/-!
# The routes of the fast emulation are shortest

The search keeps a label for every vertex, at most `INT_MAX_VALUE`. As long as no sum leaves the type `int`, the
vertices are settled in the order of their distances, of equal ones the one of the largest index first.

* `minDistance_spec`, `round_dist`: what one round does.
* `Inv.round`: a round whose sums stay in the type keeps the invariant.
* `shortest_routes_iff`: when the labels are the distances and the routes are shortest.
-/

namespace NetSim.FastEmulation

open ShortestPath Search

variable {graph : LinkTable} {src u v x : Vertex} {s : Search} {dist : Vertex → ℤ} {sptSet : Vertex → Bool} {d : ℕ}

/-- A link with its weight. -/
def Link (graph : LinkTable) (u v : Vertex) (m : ℕ) : Prop := (graph u v).val ≠ 0 ∧ m = (graph u v).val

/-- A path from the source, with the vertices behind the source, its end and its weight. -/
inductive Route (graph : LinkTable) (src : Vertex) : List Vertex → Vertex → ℕ → Prop
  | nil : Route graph src [] src 0
  | snoc {path : List Vertex} {u v : Vertex} {c : ℕ} :
      Route graph src path u c → (graph u v).val ≠ 0 → Route graph src (path ++ [v]) v (c + (graph u v).val)

/-- The labels are the distances, the parents lead to the source along a shortest path, and no path is reported
for what cannot be reached. -/
structure ShortestRoutes (graph : LinkTable) (src : Vertex) : Prop where
  dist : ∀ v d, IsDist (Link graph) src v d → (rounds graph src (V - 1)).dist v = d
  path : ∀ v d, IsDist (Link graph) src v d → ∃ path, Route graph src path v d ∧
    Loop.Gives (fun calls => dijkstraAlgo calls graph src v) (.path ((src :: path).map fun j => j.val + 1))
  noPath : ∀ v, (∀ c, ¬ Walk (Link graph) src v c) →
    Loop.Gives (fun calls => dijkstraAlgo calls graph src v) .noPath

/-- The vertex is closer to the source, or as close with a larger index. Distances from `INT_MAX_VALUE` on count
as `INT_MAX_VALUE`. -/
def Before (graph : LinkTable) (src u v : Vertex) : Prop :=
  ∃ du dv, Capped (Link graph) src intMaxValue u du ∧ Capped (Link graph) src intMaxValue v dv ∧
    (du < dv ∨ du = dv ∧ v < u)

/-- The distances are below `INT_MAX_VALUE`, and no sum for a vertex that comes later leaves the type. -/
structure InRange (graph : LinkTable) (src : Vertex) : Prop where
  below : ∀ v d, IsDist (Link graph) src v d → d < intMaxValue
  sum_le : ∀ u v du, Before graph src u v → Capped (Link graph) src intMaxValue u du → du + (graph u v).val ≤ intMax

/-! ## A round -/

theorem addInt_eq {a b : ℕ} (h : a + b ≤ intMax) : addInt a b = a + b := by
  unfold intMax at h
  unfold addInt
  rw [Int.bmod_def]
  split <;> omega

theorem addInt_neg {a b : ℕ} (h : intMax < a + b) (hlt : a + b < 4294967296) : addInt a b < 0 := by
  unfold intMax at h
  unfold addInt
  rw [Int.bmod_def]
  split <;> omega

/-- What the loop of `minDistance` knows after some vertices. -/
structure Scanned (dist : Vertex → ℤ) (sptSet : Vertex → Bool) (l : List Vertex) (acc : ℤ × Vertex) : Prop where
  none : (∀ x ∈ l, sptSet x = true) → acc.1 = intMax
  last : ∀ x ∈ l, sptSet x = false → sptSet acc.2 = false ∧ dist acc.2 = acc.1 ∧ acc.1 ≤ dist x ∧
    (dist x = acc.1 → x ≤ acc.2)

theorem scanned_foldl (hle : ∀ v, dist v ≤ intMax) (acc : Vertex) {l : List Vertex} (hsorted : l.Pairwise (· < ·)) :
    Scanned dist sptSet l (l.foldl (minRound dist sptSet) (intMax, acc)) := by
  induction l using List.reverseRecOn with
  | nil => exact ⟨fun _ => rfl, fun x hx => absurd hx List.not_mem_nil⟩
  | append_singleton l v ih =>
    obtain ⟨hl, -, hlt⟩ := List.pairwise_append.1 hsorted
    obtain ⟨hnone, hlast⟩ := ih hl
    rw [List.foldl_append, List.foldl_cons, List.foldl_nil]
    generalize l.foldl (minRound dist sptSet) (intMax, acc) = best at hnone hlast
    unfold minRound
    split
    case isTrue h =>
      -- the vertex is the last of the least ones
      refine ⟨fun hall => ?_, fun x hx hfree => ⟨h.1, rfl, ?_, fun heq => ?_⟩⟩
      · have hv := hall v (List.mem_append_right l List.mem_cons_self)
        rw [h.1] at hv
        cases hv
      · rcases List.mem_append.1 hx with hx | hx
        · exact le_trans h.2 (hlast x hx hfree).2.2.1
        · rw [List.mem_singleton.1 hx]
      · rcases List.mem_append.1 hx with hx | hx
        · exact le_of_lt (hlt x hx v List.mem_cons_self)
        · rw [List.mem_singleton.1 hx]
    case isFalse h =>
      refine ⟨fun hall => hnone fun x hx => hall x (List.mem_append_left _ hx), fun x hx hfree => ?_⟩
      rcases List.mem_append.1 hx with hx | hx
      · exact hlast x hx hfree
      · obtain rfl := List.mem_singleton.1 hx
        have hgt : best.1 < dist x := by
          by_contra hge
          exact h ⟨hfree, not_lt.1 hge⟩
        -- the least value so far is that of a vertex, since it is below `INT_MAX`
        have hsome : ∃ y ∈ l, sptSet y = false := by
          by_contra hno
          push Not at hno
          have hmax := hnone fun y hy => Bool.eq_true_of_not_eq_false (hno y hy)
          exact absurd (hle x) (not_le.2 (hmax ▸ hgt))
        obtain ⟨y, hy, hyfree⟩ := hsome
        obtain ⟨hbest, hdist, -, -⟩ := hlast y hy hyfree
        exact ⟨hbest, hdist, le_of_lt hgt, fun heq => absurd heq (ne_of_gt hgt)⟩

/-- **The vertex that `minDistance` chooses**: the last one of the least label that is not settled. -/
theorem minDistance_spec (hle : ∀ v, dist v ≤ intMax) (hfree : sptSet v = false) :
    sptSet (minDistance dist sptSet) = false ∧ ∀ x, sptSet x = false →
      dist (minDistance dist sptSet) ≤ dist x ∧ (dist x = dist (minDistance dist sptSet) → x ≤ minDistance dist sptSet) := by
  obtain ⟨acc, hscan, hmin⟩ : ∃ acc, Scanned dist sptSet (List.finRange V) acc ∧ minDistance dist sptSet = acc.2 :=
    ⟨_, scanned_foldl hle _ (List.pairwise_lt_finRange V), rfl⟩
  rw [hmin]
  refine ⟨(hscan.last v (List.mem_finRange v) hfree).1, fun x hx => ?_⟩
  obtain ⟨-, hdist, hleast, htie⟩ := hscan.last x (List.mem_finRange x) hx
  rw [hdist]
  exact ⟨hleast, htie⟩

/-- The link gives the vertex a smaller label. -/
def Relaxes (graph : LinkTable) (u : Vertex) (s : Search) (v : Vertex) : Prop :=
  s.sptSet v = false ∧ (graph u v).val ≠ 0 ∧ addInt (s.dist u) (graph u v).val < s.dist v

/-- What the inner loop does with one vertex after the other. -/
theorem foldl_relax (graph : LinkTable) (u : Vertex) (s : Search) (hu : s.sptSet u = true) {l : List Vertex} (hl : l.Nodup) :
    (l.foldl (relax graph u) s).sptSet = s.sptSet ∧ ∀ v,
      (v ∈ l ∧ Relaxes graph u s v → (l.foldl (relax graph u) s).dist v = addInt (s.dist u) (graph u v).val ∧
        (l.foldl (relax graph u) s).parent v = some u) ∧
      (¬ (v ∈ l ∧ Relaxes graph u s v) → (l.foldl (relax graph u) s).dist v = s.dist v ∧
        (l.foldl (relax graph u) s).parent v = s.parent v) := by
  induction l using List.reverseRecOn with
  | nil => exact ⟨rfl, fun v => ⟨fun h => absurd h.1 List.not_mem_nil, fun _ => ⟨rfl, rfl⟩⟩⟩
  | append_singleton l w ih =>
    obtain ⟨hl, -, hlw⟩ := List.nodup_append.1 hl
    have hw : w ∉ l := fun hmem => hlw w hmem w List.mem_cons_self rfl
    obtain ⟨hset, hall⟩ := ih hl
    rw [List.foldl_append, List.foldl_cons, List.foldl_nil]
    generalize l.foldl (relax graph u) s = s' at hset hall
    have hdistu : s'.dist u = s.dist u := by
      refine ((hall u).2 fun h => ?_).1
      rw [h.2.1] at hu
      cases hu
    obtain ⟨hdistw, hparentw⟩ := (hall w).2 fun h => hw h.1
    have hiff : Relaxes graph u s' w ↔ Relaxes graph u s w := by
      unfold Relaxes
      rw [hset, hdistu, hdistw]
    unfold relax
    split
    case isTrue h =>
      have hrelax : Relaxes graph u s w := hiff.1 h
      refine ⟨hset, fun v => ?_⟩
      by_cases hvw : v = w
      · subst hvw
        rw [hdistu]
        exact ⟨fun _ => ⟨Function.update_self .., Function.update_self ..⟩,
          fun hno => absurd ⟨List.mem_append_right l List.mem_cons_self, hrelax⟩ hno⟩
      · simp only [Function.update_of_ne hvw]
        have hmem : v ∈ l ++ [w] ↔ v ∈ l := by
          rw [List.mem_append, List.mem_singleton, or_iff_left hvw]
        rw [hmem]
        exact hall v
    case isFalse h =>
      have hrelax : ¬ Relaxes graph u s w := fun hr => h (hiff.2 hr)
      refine ⟨hset, fun v => ?_⟩
      by_cases hvw : v = w
      · subst hvw
        exact ⟨fun hyes => absurd hyes.2 hrelax, fun _ => ⟨hdistw, hparentw⟩⟩
      · have hmem : v ∈ l ++ [w] ↔ v ∈ l := by
          rw [List.mem_append, List.mem_singleton, or_iff_left hvw]
        rw [hmem]
        exact hall v

/-- **What one round does.** -/
theorem round_spec (graph : LinkTable) (s : Search) :
    (s.round graph).sptSet = Function.update s.sptSet (minDistance s.dist s.sptSet) true ∧ ∀ v,
      (Relaxes graph (minDistance s.dist s.sptSet) s v ∧ v ≠ minDistance s.dist s.sptSet →
        (s.round graph).dist v = addInt (s.dist (minDistance s.dist s.sptSet)) (graph (minDistance s.dist s.sptSet) v).val ∧
        (s.round graph).parent v = some (minDistance s.dist s.sptSet)) ∧
      (¬ (Relaxes graph (minDistance s.dist s.sptSet) s v ∧ v ≠ minDistance s.dist s.sptSet) →
        (s.round graph).dist v = s.dist v ∧ (s.round graph).parent v = s.parent v) := by
  have heq : s.round graph = (List.finRange V).foldl (relax graph (minDistance s.dist s.sptSet))
      { s with sptSet := Function.update s.sptSet (minDistance s.dist s.sptSet) true } := rfl
  rw [heq]
  generalize minDistance s.dist s.sptSet = u
  obtain ⟨hset, hall⟩ := foldl_relax graph u { s with sptSet := Function.update s.sptSet u true }
    (Function.update_self u true s.sptSet) (List.nodup_finRange V)
  refine ⟨hset, fun v => ?_⟩
  have hiff : v ∈ List.finRange V ∧ Relaxes graph u { s with sptSet := Function.update s.sptSet u true } v ↔
      Relaxes graph u s v ∧ v ≠ u := by
    unfold Relaxes
    dsimp only
    by_cases hvu : v = u
    · subst hvu
      simp
    · simp [hvu]
  have hv := hall v
  rw [hiff] at hv
  exact hv

/-- Labels never grow. -/
theorem round_dist_le (graph : LinkTable) (s : Search) (v : Vertex) : (s.round graph).dist v ≤ s.dist v := by
  obtain ⟨hyes, hno⟩ := (round_spec graph s).2 v
  by_cases h : Relaxes graph (minDistance s.dist s.sptSet) s v ∧ v ≠ minDistance s.dist s.sptSet
  · rw [(hyes h).1]
    exact le_of_lt h.1.2.2
  · exact le_of_eq (hno h).1

/-! ## The order in which vertices are settled -/

theorem Before.asymm (h : Before graph src u v) : ¬ Before graph src v u := by
  rintro ⟨dv', du', hdv', hdu', h'⟩
  obtain ⟨du, dv, hdu, hdv, h⟩ := h
  obtain rfl := hdu.unique hdu'
  obtain rfl := hdv.unique hdv'
  rcases h with h | ⟨heq, h⟩
  · rcases h' with h' | ⟨heq', -⟩
    · omega
    · omega
  · rcases h' with h' | ⟨-, h'⟩
    · omega
    · exact lt_asymm h h'

/-- The labels after some rounds in which all sums were right. -/
structure Inv (graph : LinkTable) (src : Vertex) (s : Search) : Prop where
  nonneg : ∀ v, 0 ≤ s.dist v
  labelled : Labelled (Link graph) src intMaxValue (fun v => s.sptSet v = true) fun v => (s.dist v).toNat
  no_parent : ∀ v, s.parent v = none → v = src ∨ s.dist v = intMaxValue
  parent : ∀ u v, s.parent v = some u → s.sptSet u = true ∧ (graph u v).val ≠ 0 ∧ s.dist v = s.dist u + (graph u v).val
  order : ∀ x y, s.sptSet x = true → s.sptSet y = false → Before graph src x y
  sum_le : ∀ x y d, s.sptSet x = true → Before graph src x y → Capped (Link graph) src intMaxValue x d →
    d + (graph x y).val ≤ intMax

theorem link_pos (u v : Vertex) (m : ℕ) (h : Link graph u v m) : 0 < m := by
  obtain ⟨hne, rfl⟩ := h
  exact Nat.pos_of_ne_zero hne

theorem start_dist_self (src : Vertex) : (start src).dist src = 0 := by
  simp only [start, Function.update_self]

theorem start_dist_of_ne (hv : v ≠ src) : (start src).dist v = intMaxValue := by
  simp only [start, Function.update_of_ne hv]

theorem inv_start (graph : LinkTable) (src : Vertex) : Inv graph src (start src) where
  nonneg v := by
    by_cases hv : v = src
    · rw [hv, start_dist_self]
    · rw [start_dist_of_ne hv]
      exact Int.natCast_nonneg _
  labelled := by
    have hfalse : (fun v => (start src).sptSet v = true) = fun _ : Vertex => False := by
      funext v
      exact eq_false (by unfold start; exact Bool.false_ne_true)
    rw [hfalse]
    refine Labelled.start ?_ fun v hv => ?_
    · rw [start_dist_self]
      rfl
    · rw [start_dist_of_ne hv]
      rfl
  no_parent v _ := by
    by_cases hv : v = src
    · exact .inl hv
    · exact .inr (start_dist_of_ne hv)
  parent u v h := by cases h
  order x y h := by cases h
  sum_le x y d h := by cases h

namespace Inv

variable (h : Inv graph src s)
include h

theorem dist_le (v : Vertex) : s.dist v ≤ intMaxValue := by
  have hcap := h.labelled.le_cap v
  have hnonneg := h.nonneg v
  omega

/-- The vertex that is chosen, of those that are not settled. -/
theorem chosen (hv : s.sptSet v = false) : s.sptSet (minDistance s.dist s.sptSet) = false ∧
    (∀ x, ¬ s.sptSet x = true → (s.dist (minDistance s.dist s.sptSet)).toNat ≤ (s.dist x).toNat) ∧
    ∀ x, s.sptSet x = false → x ≠ minDistance s.dist s.sptSet → Before graph src (minDistance s.dist s.sptSet) x := by
  have hmax : ∀ x, s.dist x ≤ intMax := fun x => le_trans (h.dist_le x) (by decide)
  obtain ⟨hfree, hleast⟩ := minDistance_spec hmax hv
  have hclosest : ∀ x, ¬ s.sptSet x = true → (s.dist (minDistance s.dist s.sptSet)).toNat ≤ (s.dist x).toNat := by
    intro x hx
    have hle := (hleast x (Bool.eq_false_of_not_eq_true hx)).1
    omega
  refine ⟨hfree, hclosest, fun x hx hne => ?_⟩
  obtain ⟨d, hd⟩ := exists_capped (Link graph) src intMaxValue x
  obtain ⟨hle, htie⟩ := h.labelled.capped_of_not_settled link_pos hclosest (by rw [hx]; exact Bool.false_ne_true) hd
  refine ⟨_, d, h.labelled.capped hclosest, hd, ?_⟩
  rcases Nat.lt_or_eq_of_le hle with hlt | heq
  · exact .inl hlt
  · refine .inr ⟨heq, lt_of_le_of_ne ((hleast x hx).2 ?_) hne⟩
    have hlabel := htie heq.symm
    have hx' := h.nonneg x
    have hu' := h.nonneg (minDistance s.dist s.sptSet)
    omega

/-- What a round does with the labels if its sums stay in the type. -/
theorem round_label (hrange : ∀ x, s.sptSet x = false → x ≠ minDistance s.dist s.sptSet →
      (s.dist (minDistance s.dist s.sptSet)).toNat + (graph (minDistance s.dist s.sptSet) x).val ≤ intMax) (x : Vertex) :
    ((s.round graph).dist x = s.dist x ∧ (s.round graph).parent x = s.parent x ∨
      s.sptSet x = false ∧ (graph (minDistance s.dist s.sptSet) x).val ≠ 0 ∧
        (s.round graph).dist x = s.dist (minDistance s.dist s.sptSet) + (graph (minDistance s.dist s.sptSet) x).val ∧
        (s.round graph).parent x = some (minDistance s.dist s.sptSet)) ∧
      (s.sptSet x = false → x ≠ minDistance s.dist s.sptSet → (graph (minDistance s.dist s.sptSet) x).val ≠ 0 →
        (s.round graph).dist x ≤ s.dist (minDistance s.dist s.sptSet) + (graph (minDistance s.dist s.sptSet) x).val) := by
  obtain ⟨hyes, hno⟩ := (round_spec graph s).2 x
  have hsum : s.sptSet x = false → x ≠ minDistance s.dist s.sptSet →
      addInt (s.dist (minDistance s.dist s.sptSet)) (graph (minDistance s.dist s.sptSet) x).val =
        s.dist (minDistance s.dist s.sptSet) + (graph (minDistance s.dist s.sptSet) x).val := by
    intro hx hne
    have hadd := addInt_eq (hrange x hx hne)
    rw [Int.toNat_of_nonneg (h.nonneg _)] at hadd
    exact hadd
  by_cases hrelax : Relaxes graph (minDistance s.dist s.sptSet) s x ∧ x ≠ minDistance s.dist s.sptSet
  · obtain ⟨hdist, hparent⟩ := hyes hrelax
    rw [hsum hrelax.1.1 hrelax.2] at hdist
    exact ⟨.inr ⟨hrelax.1.1, hrelax.1.2.1, hdist, hparent⟩, fun _ _ _ => le_of_eq hdist⟩
  · obtain ⟨hdist, hparent⟩ := hno hrelax
    refine ⟨.inl ⟨hdist, hparent⟩, fun hx hne hlink => ?_⟩
    rw [hdist, ← hsum hx hne]
    by_contra hlt
    exact hrelax ⟨⟨hx, hlink, not_le.1 hlt⟩, hne⟩

/-- **One round** whose sums stay in the type. -/
theorem round (hv : s.sptSet v = false) (hrange : ∀ x, s.sptSet x = false → x ≠ minDistance s.dist s.sptSet →
      (s.dist (minDistance s.dist s.sptSet)).toNat + (graph (minDistance s.dist s.sptSet) x).val ≤ intMax) :
    Inv graph src (s.round graph) := by
  obtain ⟨hfree, hclosest, hbefore⟩ := h.chosen hv
  have hset := (round_spec graph s).1
  have hlabel := h.round_label hrange
  have hnonneg := h.nonneg
  have hkeep : ∀ x, s.sptSet x = true ∨ x = minDistance s.dist s.sptSet → (s.round graph).dist x = s.dist x := by
    intro x hx
    refine (((round_spec graph s).2 x).2 ?_).1
    rintro ⟨hrelax, hne⟩
    rcases hx with hx | hx
    · rw [hrelax.1] at hx
      cases hx
    · exact hne hx
  generalize minDistance s.dist s.sptSet = u at *
  have hsettled : ∀ x, (s.round graph).sptSet x = true ↔ s.sptSet x = true ∨ x = u := by
    intro x
    rw [hset]
    by_cases hx : x = u
    · rw [hx, Function.update_self]
      exact ⟨fun _ => .inr rfl, fun _ => rfl⟩
    · rw [Function.update_of_ne hx]
      exact (or_iff_left hx).symm
  have hstill : ∀ x, (s.round graph).sptSet x = false → s.sptSet x = false ∧ x ≠ u := by
    intro x hx
    constructor
    · by_contra hs
      rw [(hsettled x).2 (.inl (Bool.eq_true_of_not_eq_false hs))] at hx
      cases hx
    · rintro rfl
      rw [(hsettled x).2 (.inr rfl)] at hx
      cases hx
  -- the labels of settled vertices stay
  have hkept : ∀ x, (s.round graph).sptSet x = true → (s.round graph).dist x = s.dist x :=
    fun x hx => hkeep x ((hsettled x).1 hx)
  refine ⟨fun x => ?_, ?_, fun x hx => ?_, fun p x hp => ?_, fun x y hx hy => ?_, fun x y d hx hxy hd => ?_⟩
  · rcases (hlabel x).1 with ⟨hdist, -⟩ | ⟨-, -, hdist, -⟩
    · rw [hdist]
      exact hnonneg x
    · rw [hdist]
      exact Int.add_nonneg (hnonneg u) (Int.natCast_nonneg _)
  · refine h.labelled.settle (u := u) (by rw [hfree]; exact Bool.false_ne_true) hclosest hsettled
      (fun x hx => congrArg Int.toNat (hkept x hx)) (fun x => Int.toNat_le_toNat (round_dist_le graph s x)) ?_ ?_
    · rintro x m hx ⟨hlink, rfl⟩
      obtain ⟨hx, hne⟩ := hstill x (Bool.eq_false_of_not_eq_true hx)
      have hle := (hlabel x).2 hx hne hlink
      have hu' := hnonneg u
      omega
    · intro x
      rcases (hlabel x).1 with ⟨hdist, -⟩ | ⟨-, hlink, hdist, -⟩
      · exact .inl (congrArg Int.toNat hdist)
      · refine .inr ⟨_, ⟨hlink, rfl⟩, ?_⟩
        have hu' := hnonneg u
        omega
  · rcases (hlabel x).1 with ⟨hdist, hparent⟩ | ⟨-, -, -, hparent⟩
    · rw [hdist]
      exact h.no_parent x (hparent ▸ hx)
    · rw [hparent] at hx
      cases hx
  · rcases (hlabel x).1 with ⟨hdist, hparent⟩ | ⟨-, hlink, hdist, hparent⟩
    · obtain ⟨hp', hlink, heq⟩ := h.parent p x (hparent ▸ hp)
      have hp'' := (hsettled p).2 (.inl hp')
      exact ⟨hp'', hlink, by rw [hdist, hkept p hp'']; exact heq⟩
    · rw [hparent] at hp
      obtain rfl := Option.some.inj hp
      have hp'' := (hsettled u).2 (.inr rfl)
      exact ⟨hp'', hlink, by rw [hkept u hp'']; exact hdist⟩
  · obtain ⟨hy, hne⟩ := hstill y hy
    rcases (hsettled x).1 hx with hx | rfl
    · exact h.order x y hx hy
    · exact hbefore y hy hne
  · rcases (hsettled x).1 hx with hx | rfl
    · exact h.sum_le x y d hx hxy hd
    · -- what comes later is not settled
      have hy : s.sptSet y = false := by
        by_contra hs
        exact hxy.asymm (h.order y x (Bool.eq_true_of_not_eq_false hs) hfree)
      have hne : y ≠ x := by
        rintro rfl
        exact hxy.asymm hxy
      rw [hd.unique (h.labelled.capped hclosest)]
      exact hrange y hy hne

/-- **One round** in which a sum leaves the type gives a vertex a negative label. -/
theorem round_neg (hx : s.sptSet x = false) (hne : x ≠ minDistance s.dist s.sptSet)
    (hgt : intMax < (s.dist (minDistance s.dist s.sptSet)).toNat + (graph (minDistance s.dist s.sptSet) x).val) :
    (s.round graph).dist x < 0 := by
  have hu := h.nonneg (minDistance s.dist s.sptSet)
  have hcap : (s.dist (minDistance s.dist s.sptSet)).toNat ≤ intMaxValue := h.labelled.le_cap _
  have hlt := (graph (minDistance s.dist s.sptSet) x).isLt
  unfold intMaxValue at hcap
  have hneg := addInt_neg hgt (by unfold intMax at hlt; omega)
  rw [Int.toNat_of_nonneg hu] at hneg
  have hrelax : Relaxes graph (minDistance s.dist s.sptSet) s x := by
    refine ⟨hx, fun hzero => ?_, lt_of_lt_of_le hneg (h.nonneg x)⟩
    have hmax : intMaxValue ≤ intMax := by decide
    rw [hzero, Nat.add_zero] at hgt
    unfold intMaxValue at hmax
    omega
  rw [(((round_spec graph s).2 x).1 ⟨hrelax, hne⟩).1]
  exact hneg

end Inv

/-! ## The rounds -/

theorem rounds_dist_le (graph : LinkTable) (src : Vertex) (count : ℕ) (v : Vertex) :
    (rounds graph src count).dist v ≤ intMaxValue := by
  induction count with
  | zero =>
    by_cases hv : v = src
    · rw [hv, rounds, start_dist_self]
      exact Int.natCast_nonneg _
    · exact le_of_eq (start_dist_of_ne hv)
  | succ count ih =>
    rw [rounds]
    exact le_trans (round_dist_le graph (rounds graph src count) v) ih

/-- The vertices that are settled after some rounds. -/
abbrev settledSet (graph : LinkTable) (src : Vertex) (count : ℕ) : Finset Vertex :=
  Finset.univ.filter fun v => (rounds graph src count).sptSet v = true

theorem exists_left (graph : LinkTable) (src : Vertex) {count : ℕ} (hcard : (settledSet graph src count).card < V) :
    ∃ v, (rounds graph src count).sptSet v = false := by
  by_contra hall
  push Not at hall
  have huniv : settledSet graph src count = Finset.univ :=
    Finset.filter_true_of_mem fun v _ => Bool.eq_true_of_not_eq_false (hall v)
  rw [huniv, Finset.card_univ, Fintype.card_fin] at hcard
  exact lt_irrefl V hcard

/-- Each round settles one vertex. -/
theorem card_settled (graph : LinkTable) (src : Vertex) {count : ℕ} (hle : count ≤ V) : (settledSet graph src count).card = count := by
  induction count with
  | zero =>
    rw [Finset.card_eq_zero, Finset.filter_eq_empty_iff]
    intro v _ h
    cases h
  | succ count ih =>
    have hcard := ih (by omega)
    obtain ⟨v, hv⟩ := exists_left graph src (lt_of_eq_of_lt hcard (by omega))
    have hmax : ∀ v, (rounds graph src count).dist v ≤ intMax :=
      fun v => le_trans (rounds_dist_le graph src count v) (by decide)
    have hfree := (minDistance_spec hmax hv).1
    have hinsert : settledSet graph src (count + 1) =
        insert (minDistance (rounds graph src count).dist (rounds graph src count).sptSet) (settledSet graph src count) := by
      ext x
      rw [Finset.mem_insert, Finset.mem_filter, Finset.mem_filter, rounds, (round_spec graph _).1]
      by_cases hx : x = minDistance (rounds graph src count).dist (rounds graph src count).sptSet
      · rw [hx, Function.update_self]
        simp
      · rw [Function.update_of_ne hx]
        simp [hx]
    rw [hinsert, Finset.card_insert_of_notMem, hcard]
    rw [Finset.mem_filter, hfree]
    exact fun hmem => Bool.false_ne_true hmem.2

/-- At the end one vertex is left. -/
theorem left_unique (hu : (rounds graph src (V - 1)).sptSet u = false) (hv : (rounds graph src (V - 1)).sptSet v = false) :
    u = v := by
  have hcard := card_settled graph src (Nat.sub_le V 1)
  have hsplit := Finset.card_filter_add_card_filter_not (s := (Finset.univ : Finset Vertex))
    fun v => (rounds graph src (V - 1)).sptSet v = true
  rw [hcard, Finset.card_univ, Fintype.card_fin] at hsplit
  have hpos : 0 < V := by decide
  have hone : (Finset.univ.filter fun v => ¬ (rounds graph src (V - 1)).sptSet v = true).card ≤ 1 := by omega
  refine Finset.card_le_one.1 hone u ?_ v ?_
  · exact Finset.mem_filter.2 ⟨Finset.mem_univ u, by rw [hu]; exact Bool.false_ne_true⟩
  · exact Finset.mem_filter.2 ⟨Finset.mem_univ v, by rw [hv]; exact Bool.false_ne_true⟩

/-- **The invariant at the end**, unless some sum has left the type. -/
theorem rounds_inv (count : ℕ) (hle : count ≤ V) :
    Inv graph src (rounds graph src count) ∨ ∃ v, (rounds graph src count).dist v < 0 := by
  induction count with
  | zero => exact .inl (inv_start graph src)
  | succ count ih =>
    rw [rounds]
    rcases ih (by omega) with h | ⟨v, hv⟩
    · obtain ⟨v, hv⟩ := exists_left graph src
        (lt_of_eq_of_lt (card_settled graph src (by omega)) (show count < V by omega))
      by_cases hrange : ∀ x, (rounds graph src count).sptSet x = false →
          x ≠ minDistance (rounds graph src count).dist (rounds graph src count).sptSet →
          ((rounds graph src count).dist (minDistance (rounds graph src count).dist (rounds graph src count).sptSet)).toNat +
            (graph (minDistance (rounds graph src count).dist (rounds graph src count).sptSet) x).val ≤ intMax
      · exact .inl (h.round hv hrange)
      · push Not at hrange
        obtain ⟨x, hx, hne, hgt⟩ := hrange
        exact .inr ⟨x, h.round_neg hx hne hgt⟩
    · exact .inr ⟨v, lt_of_le_of_lt (round_dist_le graph _ v) hv⟩

/-- **The invariant at the end**, where no sum for a vertex that comes later leaves the type. -/
theorem InRange.rounds_inv (h : InRange graph src) (count : ℕ) (hle : count ≤ V) : Inv graph src (rounds graph src count) := by
  induction count with
  | zero => exact inv_start graph src
  | succ count ih =>
    have hinv := ih (by omega)
    obtain ⟨v, hv⟩ := exists_left graph src
      (lt_of_eq_of_lt (card_settled graph src (by omega)) (show count < V by omega))
    obtain ⟨-, hclosest, hbefore⟩ := hinv.chosen hv
    rw [rounds]
    exact hinv.round hv fun x hx hne => h.sum_le _ x _ (hbefore x hx hne) (hinv.labelled.capped hclosest)

/-- At the end every label is a distance. -/
theorem Inv.capped (h : Inv graph src (rounds graph src (V - 1))) (v : Vertex) :
    Capped (Link graph) src intMaxValue v ((rounds graph src (V - 1)).dist v).toNat := by
  refine h.labelled.capped fun x hx => ?_
  have hx := Bool.eq_false_of_not_eq_true hx
  cases hv : (rounds graph src (V - 1)).sptSet v with
  | true => exact h.labelled.ordered v x hv (by rw [hx]; exact Bool.false_ne_true)
  | false => rw [left_unique hv hx]

/-! ## The paths -/

/-- The parents of a vertex with a path lead to the source. -/
theorem Inv.printPath_gives (h : Inv graph src s) (hv : s.dist v ≠ intMaxValue) : ∃ path,
    Route graph src path v (s.dist v).toNat ∧
      Loop.Gives (fun calls => printPath s.parent calls v) (path.map fun j => j.val + 1) := by
  induction hd : (s.dist v).toNat using Nat.strong_induction_on generalizing v with
  | _ d ih =>
    subst hd
    cases hparent : s.parent v with
    | none =>
      obtain rfl := (h.no_parent v hparent).resolve_right hv
      refine ⟨[], ?_, Loop.Gives.succ rfl (fun calls => ?_) (Loop.Gives.const _)⟩
      · rw [h.labelled.root_eq]
        exact .nil
      · rw [printPath, hparent]
        rfl
    | some u =>
      obtain ⟨-, hlink, hdist⟩ := h.parent u v hparent
      have hpos := link_pos u v _ ⟨hlink, rfl⟩
      have hu := h.nonneg u
      have hcap := h.dist_le v
      obtain ⟨path, hroute, hgives⟩ := ih (s.dist u).toNat (by omega) (v := u) (by omega) rfl
      refine ⟨path ++ [v], ?_, ?_⟩
      · have hsum : (s.dist v).toNat = (s.dist u).toNat + (graph u v).val := by omega
        rw [hsum]
        exact .snoc hroute hlink
      · rw [List.map_append, List.map_singleton]
        refine Loop.Gives.succ rfl (fun calls => ?_) (hgives.map fun list => list ++ [v.val + 1])
        rw [printPath, hparent]

/-- What is printed for a vertex with a path. -/
theorem Inv.dijkstraAlgo_gives (h : Inv graph src (rounds graph src (V - 1)))
    (hv : (rounds graph src (V - 1)).dist v ≠ intMaxValue) : ∃ path,
    Route graph src path v ((rounds graph src (V - 1)).dist v).toNat ∧
      Loop.Gives (fun calls => dijkstraAlgo calls graph src v) (.path ((src :: path).map fun j => j.val + 1)) := by
  obtain ⟨path, hroute, hgives⟩ := h.printPath_gives hv
  refine ⟨path, hroute, ?_⟩
  unfold dijkstraAlgo printSolutionList
  simp only [if_pos hv]
  exact hgives.map fun list => PathList.path ((src.val + 1) :: list)

/-- The line that says that there is no path. -/
theorem dijkstraAlgo_noPath_iff {calls : ℕ} :
    dijkstraAlgo calls graph src v = some .noPath ↔ (rounds graph src (V - 1)).dist v = intMaxValue := by
  unfold dijkstraAlgo printSolutionList
  constructor
  · intro h
    by_contra hne
    rw [if_pos hne] at h
    obtain ⟨list, -, hlist⟩ := Option.map_eq_some_iff.1 h
    cases hlist
  · intro h
    rw [if_neg (not_not_intro h)]

/-! ## The routes -/

/-- **When the labels are the distances and the routes are shortest.** -/
theorem shortest_routes_iff (graph : LinkTable) (src : Vertex) : ShortestRoutes graph src ↔ InRange graph src := by
  constructor
  · intro h
    have hinv : Inv graph src (rounds graph src (V - 1)) := by
      refine (rounds_inv (V - 1) (Nat.sub_le V 1)).resolve_right ?_
      rintro ⟨v, hneg⟩
      by_cases hreach : ∃ c, Walk (Link graph) src v c
      · obtain ⟨c, hc⟩ := hreach
        obtain ⟨d, hd⟩ := hc.exists_isDist
        rw [h.dist v d hd] at hneg
        omega
      · push Not at hreach
        obtain ⟨n, hn⟩ := (h.noPath v hreach).enough
        rw [dijkstraAlgo_noPath_iff.1 (hn n (le_refl n))] at hneg
        exact absurd hneg (not_lt.2 (Int.natCast_nonneg _))
    refine ⟨fun v d hd => ?_, fun u v du huv hdu => ?_⟩
    · have hle := rounds_dist_le graph src (V - 1) v
      rw [h.dist v d hd] at hle
      refine Nat.lt_of_le_of_ne (Int.ofNat_le.1 hle) fun heq => ?_
      obtain ⟨path, -, hgives⟩ := h.path v d hd
      have hno := hgives.unique 0 _ (dijkstraAlgo_noPath_iff.2 (by rw [h.dist v d hd, heq]))
      cases hno
    · cases hu : (rounds graph src (V - 1)).sptSet u with
      | true => exact hinv.sum_le u v du hu huv hdu
      | false =>
        -- all others are settled, and come before
        cases hv : (rounds graph src (V - 1)).sptSet v with
        | true => exact absurd (hinv.order v u hv hu) huv.asymm
        | false =>
          obtain rfl := left_unique hu hv
          exact absurd huv huv.asymm
  · intro h
    have hinv := h.rounds_inv (V - 1) (Nat.sub_le V 1)
    have hdist : ∀ v d, IsDist (Link graph) src v d → (rounds graph src (V - 1)).dist v = d := by
      intro v d hd
      have heq := (hinv.capped v).unique (.inl ⟨hd, h.below v d hd⟩)
      have hnonneg := hinv.nonneg v
      omega
    refine ⟨hdist, fun v d hd => ?_, fun v hv => ?_⟩
    · have hne : (rounds graph src (V - 1)).dist v ≠ intMaxValue := by
        rw [hdist v d hd]
        exact fun heq => absurd (Int.ofNat.inj heq) (Nat.ne_of_lt (h.below v d hd))
      obtain ⟨path, hroute, hgives⟩ := hinv.dijkstraAlgo_gives hne
      rw [hdist v d hd] at hroute
      exact ⟨path, hroute, hgives⟩
    · have hcap := (hinv.capped v).unique (.inr ⟨rfl, fun c hc => absurd hc (hv c)⟩)
      have hnonneg := hinv.nonneg v
      have heq : (rounds graph src (V - 1)).dist v = intMaxValue := by omega
      exact ⟨⟨0, fun m _ => dijkstraAlgo_noPath_iff.2 heq⟩,
        fun m b hb => Option.some.inj (hb.symm.trans (dijkstraAlgo_noPath_iff.2 heq))⟩

/-- One link of weight 200000 from the vertex 0 to the vertex 1. -/
def heavyLink : LinkTable := fun u v => if u.val = 0 ∧ v.val = 1 then ⟨200000, by decide⟩ else ⟨0, by decide⟩

/-- The vertex 1 can be reached, and its label is not its distance. -/
theorem heavy_link_lost : ¬ ShortestRoutes heavyLink ⟨0, by decide⟩ := by
  intro h
  have hval : (heavyLink ⟨0, by decide⟩ ⟨1, by decide⟩).val = 200000 := rfl
  have hlink : Link heavyLink ⟨0, by decide⟩ ⟨1, by decide⟩ 200000 :=
    ⟨by rw [hval]; decide, hval.symm⟩
  have hdist : IsDist (Link heavyLink) ⟨0, by decide⟩ ⟨1, by decide⟩ 200000 := by
    refine ⟨.snoc .nil hlink, fun c hc => ?_⟩
    cases hc with
    | @snoc v _ c m _ hedge =>
      obtain ⟨hne, rfl⟩ := hedge
      by_cases hv : v.val = 0
      · obtain rfl : v = ⟨0, by decide⟩ := Fin.ext hv
        rw [hval]
        exact Nat.le_add_left _ _
      · have hnone : heavyLink v ⟨1, by decide⟩ = ⟨0, by decide⟩ := if_neg fun hand => hv hand.1
        exact absurd (congrArg Fin.val hnone) hne
  have hle := rounds_dist_le heavyLink ⟨0, by decide⟩ (V - 1) ⟨1, by decide⟩
  rw [h.dist _ _ hdist] at hle
  exact absurd hle (by decide)

end NetSim.FastEmulation
