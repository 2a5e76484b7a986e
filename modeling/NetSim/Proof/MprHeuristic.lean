import Mathlib.Logic.Relation
import NetSim.Proof.MprCoverage

/-!
# The relays and the proposed heuristic

The heuristic starts from the neighbours with `WILL_ALWAYS` and takes for an uncovered two-hop node the most
willing of its neighbours, and of these one of highest degree. The code starts from no relay, and takes the
neighbour that its first tuple of the node names.

* `soleRound_end`: what the first loop chooses and leaves.
* `mem_mprSet_iff`, `drawn_iff_reached`: what the second loop chooses.
* `selectCurrent_best`: the variable that nothing reads holds the relay that is wanted.
* `follows_heuristic_iff`: when the heuristic is followed.
-/

namespace NetSim.Olsr

open Cover

variable {α : Type} [DecidableEq α] {n2 all : List (TwoHopTuple α)} {n : List (NeighborTuple α)}
  {d : List (NeighborTuple α × ℕ)} {s s' : MprState α} {i t : TwoHopTuple α} {a : α} {now : ℚ} {olsr : NodeOlsr α}

/-! ## The heuristic -/

/-- The two-hop node is reachable through the neighbour. -/
def Reaches (n : List (NeighborTuple α)) (n2 : List (TwoHopTuple α)) (x : α) (y : NeighborTuple α) : Prop :=
  ∃ t ∈ n2, t.twoHopAddr = x ∧ findNeighborSet n t.neighborMainAddr = some y

/-- More willing, or as willing and of no lower degree. -/
def AtLeast (d : List (NeighborTuple α × ℕ)) (y z : NeighborTuple α) : Prop :=
  z.willingness.value < y.willingness.value ∨ z.willingness = y.willingness ∧ getD d z ≤ getD d y

/-- A relay for the two-hop node as the heuristic wants it. -/
def IsBest (n : List (NeighborTuple α)) (d : List (NeighborTuple α × ℕ)) (n2 : List (TwoHopTuple α)) (x a : α) : Prop :=
  ∃ y, Reaches n n2 x y ∧ y.neighborMainAddr = a ∧ ∀ z, Reaches n n2 x z → AtLeast d y z

/-- A round of the second loop. -/
def RestStep (n : List (NeighborTuple α)) (d : List (NeighborTuple α × ℕ)) (s s' : MprState α) : Prop :=
  restRound n d s = .inl s'

/-- The selection ends, the neighbours with `WILL_ALWAYS` are relays, and what the second loop adds for the
two-hop node of its first tuple is a relay as the heuristic wants it. -/
def FollowsHeuristic (now : ℚ) (olsr : NodeOlsr α) : Prop :=
  ∃ n2 s₁ olsr', fill2HopNeighbor now olsr = some n2 ∧
    Loop.Gives (fun rounds => Loop.run (soleRound (fillNeighbor olsr)) rounds ⟨n2, 0, [], olsr.isRoutingTableUpdate⟩) s₁ ∧
    Loop.Gives (fun rounds => populateMprSet rounds now olsr) olsr' ∧
    (∀ y ∈ olsr.neighborSet, y.willingness = .always → y.neighborMainAddr ∈ olsr'.mprSet) ∧
    ∀ s s', Relation.ReflTransGen (RestStep (fillNeighbor olsr) (calculateDegree (fillNeighbor olsr) n2)) s₁ s →
      RestStep (fillNeighbor olsr) (calculateDegree (fillNeighbor olsr) n2) s s' →
      ∀ i ∈ s.n2.head?, ∃ a, s'.mprSet = s.mprSet ++ [a] ∧
        IsBest (fillNeighbor olsr) (calculateDegree (fillNeighbor olsr) n2) n2 i.twoHopAddr a

/-! ## The condition -/

/-- The two-hop tuples that are filled in. -/
def filledTuples (now : ℚ) (olsr : NodeOlsr α) : List (TwoHopTuple α) :=
  olsr.twoHopNeighborSet.filter fun t => (isFilled now olsr t).getD false

/-- The only tuple of its two-hop node. -/
def IsSole (n2 : List (TwoHopTuple α)) (i : TwoHopTuple α) : Prop :=
  n2.countP (fun j => j.twoHopAddr = i.twoHopAddr) = 1

instance (n2 : List (TwoHopTuple α)) (i : TwoHopTuple α) : Decidable (IsSole n2 i) :=
  inferInstanceAs (Decidable (_ = _))

/-- The neighbours through which alone a two-hop node is reachable. -/
def soleRelays (n2 : List (TwoHopTuple α)) : List α :=
  (n2.filter fun i => IsSole n2 i).map TwoHopTuple.neighborMainAddr

/-- The tuple is the first one that is neither reached by the neighbours of sole tuples nor by those of earlier
tuples that were first. -/
def IsFirst (n2 : List (TwoHopTuple α)) (t : TwoHopTuple α) : Prop :=
  Drawn TwoHopTuple.neighborMainAddr TwoHopTuple.twoHopAddr (left n2 (soleRelays n2)) t

/-- Each neighbour with `WILL_ALWAYS` is named by a sole tuple or by one that is first, and each tuple that is
first names a best neighbour of its node. -/
structure NamesBest (n : List (NeighborTuple α)) (n2 : List (TwoHopTuple α)) : Prop where
  always : ∀ y ∈ n, y.willingness = .always →
    y.neighborMainAddr ∈ soleRelays n2 ∨ ∃ t, IsFirst n2 t ∧ t.neighborMainAddr = y.neighborMainAddr
  best : ∀ t, IsFirst n2 t → IsBest n (calculateDegree n n2) n2 t.twoHopAddr t.neighborMainAddr

/-! ## The first loop -/

theorem mem_soleRelays : a ∈ soleRelays n2 ↔ ∃ t ∈ n2, IsSole n2 t ∧ t.neighborMainAddr = a := by
  unfold soleRelays
  rw [List.mem_map]
  constructor
  · rintro ⟨t, ht, ha⟩
    obtain ⟨hmem, hsole⟩ := List.mem_filter.1 ht
    exact ⟨t, hmem, of_decide_eq_true hsole, ha⟩
  · rintro ⟨t, hmem, hsole, ha⟩
    exact ⟨t, List.mem_filter.2 ⟨hmem, decide_eq_true hsole⟩, ha⟩

/-- The comparison of the first loop with every other tuple. -/
theorem isSole_iff (hpos : s.pos < n2.length) (hi : n2[s.pos] = i) :
    ((n2.eraseIdx s.pos).all fun j => i.twoHopAddr ≠ j.twoHopAddr) = true ↔ IsSole n2 i := by
  have hself : decide (i.twoHopAddr = i.twoHopAddr) = true := decide_eq_true rfl
  have hcount := (List.getElem_cons_eraseIdx_perm hpos).countP_eq fun j => decide (j.twoHopAddr = i.twoHopAddr)
  rw [hi, List.countP_cons, if_pos hself] at hcount
  unfold IsSole
  rw [← hcount, Nat.add_eq_right, List.countP_eq_zero, List.all_eq_true]
  simp only [decide_eq_true_eq]
  exact forall₂_congr fun j _ => ⟨fun h heq => h heq.symm, fun h heq => h heq.symm⟩

/-- A sole tuple is the only tuple of its node. -/
theorem IsSole.eq {u : TwoHopTuple α} (h : IsSole n2 t) (ht : t ∈ n2) (hu : u ∈ n2) (heq : u.twoHopAddr = t.twoHopAddr) : u = t := by
  unfold IsSole at h
  rw [List.countP_eq_length_filter, List.length_eq_one_iff] at h
  obtain ⟨v, hv⟩ := h
  have htv : t ∈ [v] := hv ▸ List.mem_filter.2 ⟨ht, decide_eq_true rfl⟩
  have huv : u ∈ [v] := hv ▸ List.mem_filter.2 ⟨hu, decide_eq_true heq⟩
  rw [List.mem_singleton.1 htv, List.mem_singleton.1 huv]

/-- What the first loop keeps: the relays are those of sole tuples, and none before the place in the list is
sole. -/
structure SoleInv (all : List (TwoHopTuple α)) (s : MprState α) : Prop where
  chosen : Chosen all s
  n2_eq : s.n2 = left all s.mprSet
  sole : ∀ a ∈ s.mprSet, a ∈ soleRelays all
  before : ∀ k < s.pos, ∀ i ∈ s.n2[k]?, ¬ IsSole s.n2 i

theorem SoleInv.isSole_iff (h : SoleInv all s) (ht : t ∈ s.n2) : IsSole s.n2 t ↔ IsSole all t := by
  have heq := h.n2_eq
  unfold IsSole
  rw [heq] at ht ⊢
  rw [countP_prune ht]

theorem SoleInv.start (all : List (TwoHopTuple α)) (flag : Bool) : SoleInv all ⟨all, 0, [], flag⟩ where
  chosen := Partial.start all
  n2_eq := (prune_eq_self fun _ _ => List.not_mem_nil).symm
  sole _ h := absurd h List.not_mem_nil
  before _ h := absurd h (Nat.not_lt_zero _)

theorem SoleInv.step (hvia : ∀ t ∈ all, ∃ y ∈ n, y.neighborMainAddr = t.neighborMainAddr) (h : SoleInv all s)
    (hround : soleRound n s = .inl s') : SoleInv all s' := by
  unfold soleRound at hround
  cases hget : s.n2[s.pos]? with
  | none =>
    rw [hget] at hround
    cases hround
  | some i =>
    rw [hget] at hround
    dsimp only at hround
    obtain ⟨hpos, hi⟩ := List.getElem?_eq_some_iff.1 hget
    have hmem : i ∈ s.n2 := hi ▸ List.getElem_mem hpos
    split at hround
    case isTrue hsole =>
      obtain rfl := Sum.inl.inj hround
      have hadd : addToMprSet s.mprSet n i = s.mprSet ++ [i.neighborMainAddr] :=
        addToMprSet_eq (hvia i (h.chosen.subset i hmem))
      have hn2 : (s.add n i).n2 = left s.n2 (s.mprSet ++ [i.neighborMainAddr]) := by
        unfold MprState.add
        dsimp only
        rw [flush2HopSetBasedOnMpr_eq, hadd]
      have hmpr : (s.add n i).mprSet = s.mprSet ++ [i.neighborMainAddr] := hadd
      refine ⟨(cover_add hvia h.chosen hmem).1, ?_, fun a ha => ?_, fun k hk => absurd hk (Nat.not_lt_zero k)⟩
      · -- the relays that were chosen before drop nothing more
        rw [hn2, hmpr, h.n2_eq]
        unfold left
        rw [← prune_append]
        refine prune_congr fun a => ?_
        rw [List.mem_append, or_iff_right_of_imp (List.mem_append_left _)]
      · rw [hmpr] at ha
        rcases List.mem_append.1 ha with ha | ha
        · exact h.sole a ha
        · rw [List.mem_singleton.1 ha]
          exact mem_soleRelays.2 ⟨i, h.chosen.subset i hmem, (h.isSole_iff hmem).1 ((Olsr.isSole_iff hpos hi).1 hsole), rfl⟩
    case isFalse hsole =>
      obtain rfl := Sum.inl.inj hround
      refine ⟨h.chosen, h.n2_eq, h.sole, fun k hk j hj => ?_⟩
      rcases Nat.lt_succ_iff_lt_or_eq.1 hk with hk | rfl
      · exact h.before k hk j hj
      · rw [hget] at hj
        obtain rfl := Option.some.inj hj
        exact fun hs => hsole ((Olsr.isSole_iff hpos hi).2 hs)

theorem SoleInv.finish (h : SoleInv all s) (hround : soleRound n s = .inr s') :
    s' = s ∧ ∀ a, a ∈ s.mprSet ↔ a ∈ soleRelays all := by
  refine ⟨soleRound_inr hround, fun a => ⟨h.sole a, fun ha => ?_⟩⟩
  have hnone : s.n2.length ≤ s.pos := by
    by_contra hlt
    unfold soleRound at hround
    rw [List.getElem?_eq_getElem (Nat.not_le.1 hlt)] at hround
    dsimp only at hround
    split at hround
    · cases hround
    · cases hround
  obtain ⟨t, ht, hsole, rfl⟩ := mem_soleRelays.1 ha
  -- the tuple is dropped, since it would still be sole
  have hdropped : t ∉ s.n2 := by
    intro hmem
    obtain ⟨k, hk, hget⟩ := List.getElem_of_mem hmem
    have hk' : t ∈ s.n2[k]? := by
      rw [List.getElem?_eq_getElem hk, hget]
      exact Option.mem_some_self t
    exact h.before k (Nat.lt_of_lt_of_le hk hnone) t hk' ((h.isSole_iff hmem).2 hsole)
  obtain ⟨u, hu, hchosen, heq⟩ := (h.chosen.covered t ht).resolve_left hdropped
  rw [← hsole.eq ht hu heq]
  exact hchosen

/-- **What the first loop chooses and leaves.** -/
theorem soleRound_end (hvia : ∀ t ∈ all, ∃ y ∈ n, y.neighborMainAddr = t.neighborMainAddr) (flag : Bool) :
    ∃ s₁, Loop.Gives (fun rounds => Loop.run (soleRound n) rounds ⟨all, 0, [], flag⟩) s₁ ∧ Chosen all s₁ ∧
      s₁.n2 = left all (soleRelays all) ∧ ∀ a, a ∈ s₁.mprSet ↔ a ∈ soleRelays all := by
  obtain ⟨rounds, s₁, hrun, -⟩ := soleRound_halts (s := ⟨all, 0, [], flag⟩) hvia (Partial.start all)
  have hend : SoleInv all s₁ ∧ ∀ a, a ∈ s₁.mprSet ↔ a ∈ soleRelays all := by
    refine Loop.run_inv (Q := fun b => SoleInv all b ∧ ∀ a, a ∈ b.mprSet ↔ a ∈ soleRelays all)
      (fun s s' h hr => h.step hvia hr) (fun s b h hr => ?_) (SoleInv.start all flag) hrun
    obtain ⟨rfl, hiff⟩ := h.finish hr
    exact ⟨h, hiff⟩
  obtain ⟨hinv, hiff⟩ := hend
  refine ⟨s₁, ⟨⟨rounds, fun m hm => Loop.run_of_le hrun hm⟩, fun m b hb => Loop.run_unique hb hrun⟩, hinv.chosen, ?_, hiff⟩
  rw [hinv.n2_eq]
  exact prune_congr hiff

/-! ## The second loop -/

theorem restStep_add (h : RestStep n d s s') : ∃ i rest, s.n2 = i :: rest ∧ s' = s.add n i := by
  unfold RestStep restRound at h
  cases hn2 : s.n2 with
  | nil =>
    rw [hn2] at h
    cases h
  | cons i rest =>
    rw [hn2] at h
    dsimp only at h
    cases hcurrent : selectCurrent n d i rest with
    | none =>
      rw [hcurrent] at h
      cases h
    | some _ =>
      rw [hcurrent] at h
      exact ⟨i, rest, rfl, (Sum.inl.inj h).symm⟩

/-- One choice of the second loop. -/
theorem add_eq (hvia : ∀ t ∈ all, ∃ y ∈ n, y.neighborMainAddr = t.neighborMainAddr) (hs : Chosen all s) (hi : i ∈ s.n2) :
    (s.add n i).n2 = left s.n2 [i.neighborMainAddr] ∧ (s.add n i).mprSet = s.mprSet ++ [i.neighborMainAddr] := by
  have hadd : addToMprSet s.mprSet n i = s.mprSet ++ [i.neighborMainAddr] := addToMprSet_eq (hvia i (hs.subset i hi))
  refine ⟨?_, hadd⟩
  unfold MprState.add
  dsimp only
  rw [flush2HopSetBasedOnMpr_eq, hadd]
  -- the relays that were chosen before reach nothing that is left
  unfold left
  rw [prune_append, prune_eq_self hs.fresh]

theorem exists_restStep (hvia : ∀ t ∈ all, ∃ y ∈ n, y.neighborMainAddr = t.neighborMainAddr) (hs : Chosen all s)
    {rest : List (TwoHopTuple α)} (hn2 : s.n2 = i :: rest) : RestStep n d s (s.add n i) := by
  have hmem : ∀ t ∈ i :: rest, t ∈ all := fun t ht => hs.subset t (hn2 ▸ ht)
  obtain ⟨current, hcurrent⟩ := exists_selectCurrent (d := d) (hvia i (hmem i List.mem_cons_self))
    fun t ht => hvia t (hmem t (List.mem_cons_of_mem i ht))
  unfold RestStep restRound
  rw [hn2]
  dsimp only
  rw [hcurrent]

/-- **The relays at the end of the second loop.** -/
theorem mem_mprSet_iff (hvia : ∀ t ∈ all, ∃ y ∈ n, y.neighborMainAddr = t.neighborMainAddr) (hs : Chosen all s) {rounds : ℕ}
    (hrun : Loop.run (restRound n d) rounds s = some (some s')) : a ∈ s'.mprSet ↔ a ∈ s.mprSet ∨
      ∃ t, Drawn TwoHopTuple.neighborMainAddr TwoHopTuple.twoHopAddr s.n2 t ∧ t.neighborMainAddr = a := by
  induction rounds generalizing s with
  | zero => cases hrun
  | succ rounds ih =>
    cases hn2 : s.n2 with
    | nil =>
      have hend : restRound n d s = .inr (some s) := by
        unfold restRound
        rw [hn2]
      rw [Loop.run_inr hend] at hrun
      obtain rfl := Option.some.inj (Option.some.inj hrun)
      constructor
      · exact .inl
      · rintro (ha | ⟨t, ht, -⟩)
        · exact ha
        · exact absurd ht not_drawn_nil
    | cons i rest =>
      have hi : i ∈ s.n2 := hn2 ▸ List.mem_cons_self
      obtain ⟨hleft, hmpr⟩ := add_eq hvia hs hi
      rw [Loop.run_inl (exists_restStep hvia hs hn2)] at hrun
      rw [ih (cover_add hvia hs hi).1 hrun, hleft, hmpr, hn2, List.mem_append, List.mem_singleton]
      simp only [drawn_cons, or_and_right, exists_or, exists_eq_left]
      rw [or_assoc, eq_comm (a := a)]

theorem chosen_of_reach (hvia : ∀ t ∈ all, ∃ y ∈ n, y.neighborMainAddr = t.neighborMainAddr) (hs : Chosen all s)
    (hreach : Relation.ReflTransGen (RestStep n d) s s') : Chosen all s' := by
  induction hreach with
  | refl => exact hs
  | tail _ hstep ih =>
    obtain ⟨i, rest, hn2, rfl⟩ := restStep_add hstep
    exact (cover_add hvia ih (hn2 ▸ List.mem_cons_self)).1

/-- **The tuples that the second loop takes a relay from.** -/
theorem drawn_iff_reached (hvia : ∀ t ∈ all, ∃ y ∈ n, y.neighborMainAddr = t.neighborMainAddr) (hs : Chosen all s) :
    Drawn TwoHopTuple.neighborMainAddr TwoHopTuple.twoHopAddr s.n2 t ↔
      ∃ s', Relation.ReflTransGen (RestStep n d) s s' ∧ Chosen all s' ∧ s'.n2.head? = some t := by
  constructor
  · intro h
    generalize hn2 : s.n2 = l at h
    induction h generalizing s with
    | head t rest => exact ⟨s, .refl, hs, by rw [hn2]; rfl⟩
    | @later i rest t _ ih =>
      have hi : i ∈ s.n2 := hn2 ▸ List.mem_cons_self
      obtain ⟨s', hreach, hs', hhead⟩ := ih (cover_add hvia hs hi).1 (by rw [(add_eq hvia hs hi).1, hn2])
      exact ⟨s', .head (exists_restStep hvia hs hn2) hreach, hs', hhead⟩
  · rintro ⟨s', hreach, hs', hhead⟩
    induction hreach using Relation.ReflTransGen.head_induction_on with
    | refl =>
      obtain ⟨rest, hn2⟩ := List.head?_eq_some_iff.1 hhead
      rw [hn2]
      exact .head t rest
    | head hstep _ ih =>
      obtain ⟨i, rest, hn2, rfl⟩ := restStep_add hstep
      have hi : i ∈ _ := hn2 ▸ List.mem_cons_self
      have hlater := ih (cover_add hvia hs hi).1
      rw [(add_eq hvia hs hi).1, hn2] at hlater
      rw [hn2]
      exact .later hlater

/-! ## The variable that nothing reads -/

theorem AtLeast.refl (y : NeighborTuple α) : AtLeast d y y := .inr ⟨rfl, le_refl _⟩

theorem AtLeast.trans {x y z : NeighborTuple α} (h : AtLeast d x y) (h' : AtLeast d y z) : AtLeast d x z := by
  rcases h with h | ⟨hw, hd⟩
  · rcases h' with h' | ⟨hw', -⟩
    · exact .inl (h'.trans h)
    · exact .inl (hw' ▸ h)
  · rcases h' with h' | ⟨hw', hd'⟩
    · exact .inl (hw ▸ h')
    · exact .inr ⟨hw'.trans hw, hd'.trans hd⟩

theorem Willingness.value_inj {w w' : Willingness} (h : w.value = w'.value) : w = w' := by
  cases w <;> cases w' <;> first | rfl | cases h

theorem considerCurrent_spec {current y : NeighborTuple α} {j : TwoHopTuple α} (h : considerCurrent n d current j = some y) :
    ∃ temp, findNeighborSet n j.neighborMainAddr = some temp ∧ (y = temp ∨ y = current) ∧
      AtLeast d y temp ∧ AtLeast d y current := by
  unfold considerCurrent at h
  obtain ⟨temp, htemp, hy⟩ := Option.bind_eq_some_iff.1 h
  refine ⟨temp, htemp, ?_⟩
  split at hy
  case isTrue hmore =>
    obtain rfl := Option.some.inj hy
    exact ⟨.inl rfl, .refl _, .inl hmore⟩
  case isFalse hmore =>
    split at hy
    case isTrue heq =>
      split at hy
      case isTrue hd =>
        obtain rfl := Option.some.inj hy
        exact ⟨.inl rfl, .refl _, .inr ⟨heq.symm, Nat.le_of_lt hd⟩⟩
      case isFalse hd =>
        obtain rfl := Option.some.inj hy
        exact ⟨.inr rfl, .inr ⟨heq, Nat.not_lt.1 hd⟩, .refl _⟩
    case isFalse hne =>
      obtain rfl := Option.some.inj hy
      exact ⟨.inr rfl, .inl (Nat.lt_of_le_of_ne (Nat.not_lt.1 hmore) fun heq => hne (Willingness.value_inj heq)), .refl _⟩

/-- **The variable `current` holds the relay that the heuristic wants**, of the tuples that are left. -/
theorem selectCurrent_best {rest : List (TwoHopTuple α)} {y : NeighborTuple α} (h : selectCurrent n d i rest = some y) :
    Reaches n (i :: rest) i.twoHopAddr y ∧ ∀ z, Reaches n (i :: rest) i.twoHopAddr z → AtLeast d y z := by
  have hfold : ∀ (l : List (TwoHopTuple α)) (current : NeighborTuple α), l.foldlM (considerCurrent n d) current = some y →
      (y = current ∨ ∃ t ∈ l, findNeighborSet n t.neighborMainAddr = some y) ∧ AtLeast d y current ∧
        ∀ t ∈ l, ∀ z, findNeighborSet n t.neighborMainAddr = some z → AtLeast d y z := by
    intro l
    induction l with
    | nil =>
      intro current hl
      obtain rfl := Option.some.inj hl
      exact ⟨.inl rfl, .refl _, fun t ht => absurd ht List.not_mem_nil⟩
    | cons j l ih =>
      intro current hl
      rw [List.foldlM_cons] at hl
      obtain ⟨x, hx, hrest⟩ := Option.bind_eq_some_iff.1 hl
      obtain ⟨temp, htemp, hor, hx_temp, hx_current⟩ := considerCurrent_spec hx
      obtain ⟨hy, hleast, hall⟩ := ih x hrest
      refine ⟨?_, hleast.trans hx_current, fun t ht z hz => ?_⟩
      · rcases hy with rfl | ⟨t, ht, hfind⟩
        · rcases hor with rfl | rfl
          · exact .inr ⟨j, List.mem_cons_self, htemp⟩
          · exact .inl rfl
        · exact .inr ⟨t, List.mem_cons_of_mem j ht, hfind⟩
      · rcases List.mem_cons.1 ht with rfl | ht
        · obtain rfl := Option.some.inj (htemp.symm.trans hz)
          exact hleast.trans hx_temp
        · exact hall t ht z hz
  obtain ⟨current, hcurrent, hrun⟩ := Option.bind_eq_some_iff.1 h
  obtain ⟨hy, hleast, hall⟩ := hfold _ current hrun
  constructor
  · rcases hy with rfl | ⟨t, ht, hfind⟩
    · exact ⟨i, List.mem_cons_self, rfl, hcurrent⟩
    · obtain ⟨hmem, heq⟩ := List.mem_filter.1 ht
      exact ⟨t, List.mem_cons_of_mem i hmem, (of_decide_eq_true heq).symm, hfind⟩
  · rintro z ⟨t, ht, heq, hfind⟩
    rcases List.mem_cons.1 ht with rfl | ht
    · obtain rfl := Option.some.inj (hcurrent.symm.trans hfind)
      exact hleast
    · exact hall t (List.mem_filter.2 ⟨ht, decide_eq_true heq.symm⟩) z hfind

/-! ## The selection -/

theorem exists_isFilled {t : TwoHopTuple α} :
    (∃ b, isFilled now olsr t = some b) ↔ ∃ y ∈ olsr.neighborSet, y.neighborMainAddr = t.neighborMainAddr := by
  constructor
  · rintro ⟨b, hb⟩
    unfold isFilled at hb
    cases hy : findNeighborSet olsr.neighborSet t.neighborMainAddr with
    | none =>
      rw [hy] at hb
      cases hb
    | some y => exact ⟨y, List.mem_of_find?_eq_some hy, of_decide_eq_true (List.find?_some hy :)⟩
  · intro h
    obtain ⟨y, hy, -⟩ := exists_findNeighborSet h
    unfold isFilled
    rw [hy, Option.bind_eq_bind, Option.bind_some]
    split
    · exact ⟨_, rfl⟩
    · split
      · exact ⟨_, rfl⟩
      · exact ⟨_, rfl⟩

/-- A filter that ends has tested every entry. -/
theorem exists_of_filterM {β : Type} {f : β → Option Bool} {l l' : List β} (h : l.filterM f = some l') :
    ∀ x ∈ l, ∃ b, f x = some b := by
  have haux : ∀ (l acc acc' : List β), List.filterAuxM f l acc = some acc' → ∀ x ∈ l, ∃ b, f x = some b := by
    intro l
    induction l with
    | nil => exact fun _ _ _ x hx => absurd hx List.not_mem_nil
    | cons y l ih =>
      intro acc acc' hl x hx
      obtain ⟨b, hb, hrest⟩ := Option.bind_eq_some_iff.1 hl
      rcases List.mem_cons.1 hx with rfl | hx
      · exact ⟨b, hb⟩
      · exact ih _ acc' hrest x hx
  obtain ⟨acc', hacc, -⟩ := Option.bind_eq_some_iff.1 h
  exact haux l [] acc' hacc

theorem fill2HopNeighbor_iff : fill2HopNeighbor now olsr = some n2 ↔
    (∀ t ∈ olsr.twoHopNeighborSet, ∃ y ∈ olsr.neighborSet, y.neighborMainAddr = t.neighborMainAddr) ∧
      n2 = filledTuples now olsr := by
  have hfill : (∀ t ∈ olsr.twoHopNeighborSet, ∃ b, isFilled now olsr t = some b) →
      fill2HopNeighbor now olsr = some (filledTuples now olsr) := by
    intro h
    refine filterM_eq _ _ fun t ht => ?_
    obtain ⟨b, hb⟩ := h t ht
    rw [hb, Option.getD_some]
  constructor
  · intro h
    have hall := exists_of_filterM h
    rw [hfill hall, Option.some.injEq] at h
    exact ⟨fun t ht => exists_isFilled.1 (hall t ht), h.symm⟩
  · rintro ⟨hvia, rfl⟩
    exact hfill fun t ht => exists_isFilled.2 (hvia t ht)

/-- What is filled in names a neighbour of the copy. -/
theorem exists_fillNeighbor {t : TwoHopTuple α} (ht : t ∈ filledTuples now olsr) :
    ∃ y ∈ fillNeighbor olsr, y.neighborMainAddr = t.neighborMainAddr := by
  have htrue := (List.mem_filter.1 ht).2
  cases hb : isFilled now olsr t with
  | none =>
    rw [hb] at htrue
    cases htrue
  | some b =>
    rw [hb, Option.getD_some] at htrue
    obtain ⟨y, hy, ha, hwill⟩ := willing_of_isFilled (hb.trans (congrArg some htrue))
    exact ⟨y, List.mem_filter.2 ⟨hy, decide_eq_true hwill⟩, ha⟩

/-- **The relays** are the neighbours of the sole tuples and of those that are first. -/
theorem populateMprSet_gives (hfill : fill2HopNeighbor now olsr = some n2)
    (hvia : ∀ t ∈ n2, ∃ y ∈ fillNeighbor olsr, y.neighborMainAddr = t.neighborMainAddr) :
    ∃ s₁ olsr', Loop.Gives (fun rounds => Loop.run (soleRound (fillNeighbor olsr)) rounds ⟨n2, 0, [], olsr.isRoutingTableUpdate⟩) s₁ ∧
      Chosen n2 s₁ ∧ s₁.n2 = left n2 (soleRelays n2) ∧ Loop.Gives (fun rounds => populateMprSet rounds now olsr) olsr' ∧
      ∀ a, a ∈ olsr'.mprSet ↔ a ∈ soleRelays n2 ∨ ∃ t, IsFirst n2 t ∧ t.neighborMainAddr = a := by
  obtain ⟨s₁, hs₁, hchosen, hleft, hmpr⟩ := soleRound_end hvia olsr.isRoutingTableUpdate
  obtain ⟨k, s₂, hrun, -⟩ := restRound_halts (d := calculateDegree (fillNeighbor olsr) n2) hvia hchosen
  have hrest : Loop.Gives (fun rounds => (Loop.run (restRound (fillNeighbor olsr) (calculateDegree (fillNeighbor olsr) n2))
      rounds s₁).join) s₂ := by
    refine ⟨⟨k, fun m hm => ?_⟩, fun m b hb => ?_⟩
    · rw [Loop.run_of_le hrun hm]
      rfl
    · exact Option.some.inj (Loop.run_unique (Option.join_eq_some_iff.1 hb) hrun)
  refine ⟨s₁, markMpr { olsr with mprSet := s₂.mprSet, isRoutingTableUpdate := s₂.isRoutingTableUpdate }, hs₁, hchosen, hleft, ?_, ?_⟩
  · unfold populateMprSet
    simp only [hfill, Option.bind_eq_bind, Option.bind_some]
    exact hs₁.bind (hrest.bind (Loop.Gives.const _))
  · intro a
    rw [← hmpr]
    unfold IsFirst
    rw [← hleft]
    exact mem_mprSet_iff hvia hchosen hrun

/-- **When the heuristic is followed.** -/
theorem follows_heuristic_iff (now : ℚ) (olsr : NodeOlsr α) : FollowsHeuristic now olsr ↔
    (∀ t ∈ olsr.twoHopNeighborSet, ∃ y ∈ olsr.neighborSet, y.neighborMainAddr = t.neighborMainAddr) ∧
      NamesBest (fillNeighbor olsr) (filledTuples now olsr) := by
  constructor
  · rintro ⟨n2, s₁, olsr', hfill, hs₁, hpopulate, halways, hbest⟩
    obtain ⟨hvia, rfl⟩ := fill2HopNeighbor_iff.1 hfill
    obtain ⟨s, node, hs, hchosen, hleft, hnode, hmem⟩ := populateMprSet_gives hfill fun t ht => exists_fillNeighbor ht
    obtain rfl := hs₁.eq hs
    obtain rfl := hpopulate.eq hnode
    refine ⟨hvia, fun y hy hwill => ?_, fun t ht => ?_⟩
    · exact (hmem y.neighborMainAddr).1 (halways y (List.mem_of_mem_filter hy) hwill)
    · unfold IsFirst at ht
      rw [← hleft, drawn_iff_reached (fun t ht => exists_fillNeighbor ht) hchosen] at ht
      obtain ⟨s', hreach, hs', hhead⟩ := ht
      obtain ⟨rest, hn2⟩ := List.head?_eq_some_iff.1 hhead
      obtain ⟨a, hadd, ha⟩ := hbest s' _ hreach (exists_restStep (fun t ht => exists_fillNeighbor ht) hs' hn2) t hhead
      rw [(add_eq (fun t ht => exists_fillNeighbor ht) hs' (hn2 ▸ List.mem_cons_self)).2] at hadd
      rw [List.singleton_inj.1 (List.append_cancel_left hadd)]
      exact ha
  · rintro ⟨hvia, halways, hbest⟩
    have hfill : fill2HopNeighbor now olsr = some (filledTuples now olsr) := fill2HopNeighbor_iff.2 ⟨hvia, rfl⟩
    obtain ⟨s₁, node, hs₁, hchosen, hleft, hnode, hmem⟩ := populateMprSet_gives hfill fun t ht => exists_fillNeighbor ht
    refine ⟨_, s₁, node, hfill, hs₁, hnode, fun y hy hwill => ?_, fun s s' hreach hstep i hi => ?_⟩
    · refine (hmem _).2 (halways y (List.mem_filter.2 ⟨hy, decide_eq_true ?_⟩) hwill)
      rw [hwill]
      decide
    · have hs : Chosen (filledTuples now olsr) s := chosen_of_reach (fun t ht => exists_fillNeighbor ht) hchosen hreach
      have hfirst : IsFirst (filledTuples now olsr) i := by
        unfold IsFirst
        rw [← hleft, drawn_iff_reached (fun t ht => exists_fillNeighbor ht) hchosen]
        exact ⟨s, hreach, hs, hi⟩
      obtain ⟨j, rest, hn2, rfl⟩ := restStep_add hstep
      obtain rfl : j = i := by
        rw [hn2] at hi
        exact Option.some.inj hi
      exact ⟨j.neighborMainAddr, (add_eq (fun t ht => exists_fillNeighbor ht) hs (hn2 ▸ List.mem_cons_self)).2, hbest j hfirst⟩

/-- The neighbour 1 with `WILL_LOW` is named first for the node 9, which the neighbour 2 with `WILL_HIGH` reaches
as well. -/
def lowFirst : NodeOlsr ℕ where
  neighborSet := [⟨1, .symNeigh, .low⟩, ⟨2, .symNeigh, .high⟩]
  twoHopNeighborSet := [⟨1, 9, 100⟩, ⟨2, 9, 100⟩]
  linkSet := []
  mprSet := []
  isRoutingTableUpdate := false

/-- The neighbour 2 with `WILL_ALWAYS` reaches no two-hop node. -/
def alwaysIdle : NodeOlsr ℕ where
  neighborSet := [⟨1, .symNeigh, .default⟩, ⟨2, .symNeigh, .always⟩]
  twoHopNeighborSet := [⟨1, 9, 100⟩]
  linkSet := []
  mprSet := []
  isRoutingTableUpdate := false

/-- The less willing neighbour is taken, and the neighbour with `WILL_ALWAYS` is left out. -/
theorem heuristic_not_followed : ¬ FollowsHeuristic 0 lowFirst ∧ ¬ FollowsHeuristic 0 alwaysIdle := by
  constructor
  · rintro ⟨n2, s₁, olsr', hfill, hs₁, -, -, hbest⟩
    obtain rfl : n2 = [⟨1, 9, 100⟩, ⟨2, 9, 100⟩] := Option.some.inj (hfill.symm.trans (by decide))
    obtain rfl : (⟨[⟨1, 9, 100⟩, ⟨2, 9, 100⟩], 2, [], false⟩ : MprState ℕ) = s₁ := hs₁.unique 3 _ (by decide)
    obtain ⟨a, hadd, y, hy, ha, hall⟩ := hbest _ ⟨[], 0, [1], true⟩ .refl (by unfold RestStep; decide)
      ⟨1, 9, 100⟩ rfl
    obtain rfl : (1 : ℕ) = a := List.singleton_inj.1 hadd
    obtain ⟨t, ht, -, hfind⟩ := hy
    have hhigh : Reaches (fillNeighbor lowFirst) [⟨1, 9, 100⟩, ⟨2, 9, 100⟩] 9 ⟨2, .symNeigh, .high⟩ :=
      ⟨⟨2, 9, 100⟩, by decide, rfl, by decide⟩
    have hleast := hall _ hhigh
    have hmem : y ∈ fillNeighbor lowFirst := List.mem_of_find?_eq_some hfind
    obtain rfl : y = ⟨1, .symNeigh, .low⟩ := by
      have hcases : ∀ y ∈ fillNeighbor lowFirst, y.neighborMainAddr = 1 → y = ⟨1, .symNeigh, .low⟩ := by decide
      exact hcases y hmem ha
    rcases hleast with hlt | ⟨heq, -⟩
    · exact absurd hlt (by decide)
    · cases heq
  · rintro ⟨n2, s₁, olsr', -, -, hpopulate, halways, -⟩
    have hrun : populateMprSet 3 0 alwaysIdle = some { alwaysIdle with
        neighborSet := [⟨1, .mprNeigh, .default⟩, ⟨2, .symNeigh, .always⟩], mprSet := [1], isRoutingTableUpdate := true } := by
      decide
    rw [← hpopulate.unique 3 _ hrun] at halways
    exact absurd (halways ⟨2, .symNeigh, .always⟩ (by decide) rfl) (by decide)

end NetSim.Olsr
