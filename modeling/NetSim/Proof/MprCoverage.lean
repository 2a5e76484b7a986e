import NetSim.Lib.Cover
import NetSim.Spec.Olsr

/-!
# The multipoint relays cover the two-hop neighbours

The two loops of the selection build a cover: each choice is the relay of a tuple that is left, and what it
reaches is dropped.

* `flush2HopSetBasedOnMpr_eq`: what the nested loops of the source drop.
* `cover_add`: one choice, in both loops.
* `populateMprSet_covers`: the selection ends, and its relays are willing, different, and reach every strict
  two-hop neighbour.
-/

namespace NetSim.Olsr

open Cover

variable {α : Type} [DecidableEq α] {n2 all : List (TwoHopTuple α)} {n : List (NeighborTuple α)}
  {s s' : MprState α} {i : TwoHopTuple α} {a : α} {now : ℚ} {olsr : NodeOlsr α}

/-- The tuples that the relays do not reach. -/
abbrev left (n2 : List (TwoHopTuple α)) (mprSet : List α) : List (TwoHopTuple α) :=
  prune TwoHopTuple.neighborMainAddr TwoHopTuple.twoHopAddr n2 mprSet

/-! ## Flushing -/

theorem mem_flushN2 {t : TwoHopTuple α} : t ∈ flushN2 n2 a ↔ t ∈ n2 ∧ t.twoHopAddr ≠ a := by
  unfold flushN2
  rw [List.mem_filter, decide_eq_true_iff]

theorem flushN2_length_lt (hi : i ∈ n2) : (flushN2 n2 i.twoHopAddr).length < n2.length := by
  refine Nat.lt_of_le_of_ne (List.length_filter_le _ _) fun heq => ?_
  have hall := List.length_filter_eq_length_iff.1 heq i hi
  exact of_decide_eq_true hall rfl

/-- What a tuple of the relay reaches may be flushed first. -/
theorem left_flushN2 (hi : i ∈ n2) (ha : i.neighborMainAddr = a) :
    left (flushN2 n2 i.twoHopAddr) [a] = left n2 [a] := by
  unfold left prune
  conv_lhs => rw [flushN2]
  rw [List.filter_filter]
  refine List.filter_congr fun t ht => ?_
  rw [← Bool.decide_and, decide_eq_decide]
  constructor
  · rintro ⟨hleft, hne⟩ t' ht' hvia heq
    refine hleft t' (mem_flushN2.2 ⟨ht', ?_⟩) hvia heq
    rw [heq]
    exact hne
  · intro h
    have hne := h i hi (by rw [ha]; exact List.mem_singleton_self a)
    exact ⟨fun t' ht' => h t' (mem_flushN2.1 ht').1, fun heq => hne heq.symm⟩

/-- A relay of no tuple reaches nothing. -/
theorem left_of_find?_none (h : (n2.find? fun i => a = i.neighborMainAddr) = none) : left n2 [a] = n2 := by
  refine List.filter_eq_self.2 fun t ht => decide_eq_true fun t' ht' hvia => ?_
  have hne := of_decide_eq_false (Bool.eq_false_iff.2 (List.find?_eq_none.1 h t' ht'))
  exact absurd (List.mem_singleton.1 hvia).symm hne

theorem flushRelay_eq {rounds : ℕ} (hrounds : n2.length ≤ rounds) : flushRelay a rounds n2 = left n2 [a] := by
  induction rounds generalizing n2 with
  | zero =>
    obtain rfl := List.length_eq_zero_iff.1 (Nat.le_zero.1 hrounds)
    rfl
  | succ rounds ih =>
    unfold flushRelay
    cases h : n2.find? fun i => a = i.neighborMainAddr with
    | none => exact (left_of_find?_none h).symm
    | some i =>
      have hi : i ∈ n2 := List.mem_of_find?_eq_some h
      have ha : a = i.neighborMainAddr := of_decide_eq_true (List.find?_some h :)
      have hlt := flushN2_length_lt hi
      dsimp only
      rw [← left_flushN2 hi ha.symm]
      exact ih (by omega)

/-- **What `fnFlush2HopSetBasedonMPR` leaves.** -/
theorem flush2HopSetBasedOnMpr_eq (n2 : List (TwoHopTuple α)) (mprSet : List α) :
    flush2HopSetBasedOnMpr n2 mprSet = left n2 mprSet := by
  unfold flush2HopSetBasedOnMpr
  induction mprSet generalizing n2 with
  | nil => exact (List.filter_eq_self.2 fun t _ => decide_eq_true fun _ _ h => absurd h List.not_mem_nil).symm
  | cons a mprSet ih =>
    rw [List.foldl_cons, flushRelay_eq (Nat.le_refl _), ih]
    exact (prune_append [a] mprSet).symm

/-! ## The loops -/

theorem exists_findNeighborSet (h : ∃ y ∈ n, y.neighborMainAddr = a) :
    ∃ y, findNeighborSet n a = some y ∧ y ∈ n ∧ y.neighborMainAddr = a := by
  obtain ⟨y, hy, ha⟩ := h
  have hsome : (findNeighborSet n a).isSome = true := List.find?_isSome.2 ⟨y, hy, decide_eq_true ha⟩
  obtain ⟨z, hz⟩ := Option.isSome_iff_exists.1 hsome
  exact ⟨z, hz, List.mem_of_find?_eq_some hz, of_decide_eq_true (List.find?_some hz :)⟩

theorem addToMprSet_eq {mpr : List α} (h : ∃ y ∈ n, y.neighborMainAddr = i.neighborMainAddr) :
    addToMprSet mpr n i = mpr ++ [i.neighborMainAddr] := by
  obtain ⟨y, hy, -, ha⟩ := exists_findNeighborSet h
  unfold addToMprSet
  rw [hy, ← ha]

/-- The relays that are chosen so far, with what is left. -/
abbrev Chosen (all : List (TwoHopTuple α)) (s : MprState α) : Prop :=
  Partial TwoHopTuple.neighborMainAddr TwoHopTuple.twoHopAddr all s.n2 s.mprSet

/-- **One choice.** -/
theorem cover_add (hvia : ∀ t ∈ all, ∃ y ∈ n, y.neighborMainAddr = t.neighborMainAddr)
    (hs : Chosen all s) (hi : i ∈ s.n2) :
    Chosen all (s.add n i) ∧ (s.add n i).n2.length < s.n2.length := by
  have hadd : addToMprSet s.mprSet n i = s.mprSet ++ [i.neighborMainAddr] :=
    addToMprSet_eq (hvia i (hs.subset i hi))
  unfold MprState.add Chosen
  dsimp only
  rw [flush2HopSetBasedOnMpr_eq, hadd]
  have hmem : i.neighborMainAddr ∈ s.mprSet ++ [i.neighborMainAddr] :=
    List.mem_append_right _ (List.mem_singleton_self _)
  exact ⟨hs.choose hi, prune_length_lt hi hmem⟩

/-- A round of the first loop goes on with a choice, or with the next tuple. -/
theorem soleRound_inl (h : soleRound n s = .inl s') :
    (∃ i ∈ s.n2, s' = s.add n i) ∨ s.pos < s.n2.length ∧ s' = { s with pos := s.pos + 1 } := by
  unfold soleRound at h
  cases hi : s.n2[s.pos]? with
  | none =>
    rw [hi] at h
    cases h
  | some i =>
    rw [hi] at h
    dsimp only at h
    obtain ⟨hpos, hget⟩ := List.getElem?_eq_some_iff.1 hi
    split at h
    · refine .inl ⟨i, ?_, (Sum.inl.inj h).symm⟩
      rw [← hget]
      exact List.getElem_mem hpos
    · exact .inr ⟨hpos, (Sum.inl.inj h).symm⟩

theorem soleRound_inr (h : soleRound n s = .inr s') : s' = s := by
  unfold soleRound at h
  cases hi : s.n2[s.pos]? with
  | none =>
    rw [hi] at h
    exact (Sum.inr.inj h).symm
  | some i =>
    rw [hi] at h
    dsimp only at h
    split at h
    · cases h
    · cases h

/-- The first loop ends: each round drops a tuple, or looks at the next. -/
theorem soleRound_halts (hvia : ∀ t ∈ all, ∃ y ∈ n, y.neighborMainAddr = t.neighborMainAddr)
    (hs : Chosen all s) : ∃ rounds s', Loop.run (soleRound n) rounds s = some s' ∧ Chosen all s' := by
  have hstep : ∀ s s', Chosen all s → soleRound n s = .inl s' → Chosen all s' ∧
      Prod.Lex (· < ·) (· < ·) (s'.n2.length, s'.n2.length - s'.pos) (s.n2.length, s.n2.length - s.pos) := by
    intro s s' hs h
    rcases soleRound_inl h with ⟨i, hi, rfl⟩ | ⟨hpos, rfl⟩
    · obtain ⟨hs', hlt⟩ := cover_add hvia hs hi
      exact ⟨hs', .left _ _ hlt⟩
    · exact ⟨hs, .right _ (show s.n2.length - (s.pos + 1) < s.n2.length - s.pos by omega)⟩
  obtain ⟨rounds, s', hrun⟩ := Loop.halts_of_variant (WellFounded.prod_lex Nat.lt_wfRel.wf Nat.lt_wfRel.wf)
    (fun s : MprState α => (s.n2.length, s.n2.length - s.pos)) hstep hs
  refine ⟨rounds, s', hrun, ?_⟩
  exact Loop.run_inv (fun s s' hs h => (hstep s s' hs h).1) (fun s b hs h => soleRound_inr h ▸ hs) hs hrun

/-- The second loop reads through no NULL pointer. -/
theorem exists_selectCurrent {d : List (NeighborTuple α × ℕ)} {rest : List (TwoHopTuple α)}
    (hi : ∃ y ∈ n, y.neighborMainAddr = i.neighborMainAddr)
    (hrest : ∀ t ∈ rest, ∃ y ∈ n, y.neighborMainAddr = t.neighborMainAddr) :
    ∃ current, selectCurrent n d i rest = some current := by
  have hconsider : ∀ current, ∀ j ∈ rest, ∃ y, considerCurrent n d current j = some y := by
    intro current j hj
    obtain ⟨temp, htemp, -⟩ := exists_findNeighborSet (hrest j hj)
    unfold considerCurrent
    rw [htemp, Option.bind_eq_bind, Option.bind_some]
    split
    · exact ⟨_, rfl⟩
    · split
      · split
        · exact ⟨_, rfl⟩
        · exact ⟨_, rfl⟩
      · exact ⟨_, rfl⟩
  obtain ⟨current, hcurrent, -⟩ := exists_findNeighborSet hi
  unfold selectCurrent
  rw [hcurrent, Option.bind_eq_bind, Option.bind_some]
  have hfold : ∀ l : List (TwoHopTuple α), (∀ t ∈ l, t ∈ rest) → ∀ current,
      ∃ y, l.foldlM (considerCurrent n d) current = some y := by
    intro l
    induction l with
    | nil => exact fun _ current => ⟨current, rfl⟩
    | cons t l ih =>
      intro hl current
      obtain ⟨y, hy⟩ := hconsider current t (hl t List.mem_cons_self)
      rw [List.foldlM_cons, hy, Option.bind_eq_bind, Option.bind_some]
      exact ih (fun u hu => hl u (List.mem_cons_of_mem t hu)) y
  exact hfold _ (fun t ht => List.mem_of_mem_filter ht) current

/-- The second loop ends, with every two-hop neighbour covered. -/
theorem restRound_halts {d : List (NeighborTuple α × ℕ)}
    (hvia : ∀ t ∈ all, ∃ y ∈ n, y.neighborMainAddr = t.neighborMainAddr) (hs : Chosen all s) :
    ∃ rounds s', Loop.run (restRound n d) rounds s = some (some s') ∧ Chosen all s' ∧ s'.n2 = [] := by
  have hround : ∀ s, Chosen all s → s.n2 = [] ∧ restRound n d s = .inr (some s) ∨
      ∃ i ∈ s.n2, restRound n d s = .inl (s.add n i) := by
    intro s hs
    unfold restRound
    cases hn2 : s.n2 with
    | nil => exact .inl ⟨rfl, rfl⟩
    | cons i rest =>
      have hmem : ∀ t ∈ i :: rest, t ∈ all := fun t ht => hs.subset t (hn2 ▸ ht)
      obtain ⟨current, hcurrent⟩ := exists_selectCurrent (d := d) (hvia i (hmem i List.mem_cons_self))
        fun t ht => hvia t (hmem t (List.mem_cons_of_mem i ht))
      dsimp only
      rw [hcurrent]
      exact .inr ⟨i, List.mem_cons_self, rfl⟩
  have hstep : ∀ s s', Chosen all s → restRound n d s = .inl s' →
      Chosen all s' ∧ s'.n2.length < s.n2.length := by
    intro s s' hs h
    rcases hround s hs with ⟨-, hr⟩ | ⟨i, hi, hr⟩
    · rw [hr] at h
      cases h
    · rw [hr] at h
      obtain rfl := Sum.inl.inj h
      exact cover_add hvia hs hi
  obtain ⟨rounds, b, hrun⟩ := Loop.halts_of_variant Nat.lt_wfRel.wf (fun s : MprState α => s.n2.length) hstep hs
  have hend : ∃ s', b = some s' ∧ Chosen all s' ∧ s'.n2 = [] := by
    refine Loop.run_inv (Q := fun b => ∃ s', b = some s' ∧ Chosen all s' ∧ s'.n2 = [])
      (fun s s' hs h => (hstep s s' hs h).1) (fun s b hs h => ?_) hs hrun
    rcases hround s hs with ⟨hnil, hr⟩ | ⟨i, hi, hr⟩
    · rw [hr] at h
      exact ⟨s, (Sum.inr.inj h).symm, hs, hnil⟩
    · rw [hr] at h
      cases h
  obtain ⟨s', rfl, hs', hnil⟩ := hend
  exact ⟨rounds, s', hrun, hs', hnil⟩

/-! ## The lists that the selection starts from -/

theorem filterM_eq {β : Type} (f : β → Option Bool) (g : β → Bool) {l : List β} (h : ∀ x ∈ l, f x = some (g x)) :
    l.filterM f = some (l.filter g) := by
  have haux : ∀ (l : List β) (acc : List β), (∀ x ∈ l, f x = some (g x)) →
      List.filterAuxM f l acc = some ((l.filter g).reverse ++ acc) := by
    intro l
    induction l with
    | nil => exact fun _ _ => rfl
    | cons x l ih =>
      intro acc h
      have hx := h x List.mem_cons_self
      have hl := fun acc => ih acc fun y hy => h y (List.mem_cons_of_mem x hy)
      unfold List.filterAuxM
      rw [hx, Option.bind_eq_bind, Option.bind_some, hl]
      cases hg : g x with
      | true => rw [List.filter_cons_of_pos hg, List.reverse_cons, List.append_assoc]; rfl
      | false => rw [List.filter_cons_of_neg (by rw [hg]; decide)]; rfl
  unfold List.filterM
  rw [haux l [] h, Option.bind_eq_bind, Option.bind_some, List.append_nil, List.reverse_reverse]
  rfl

/-- **A strict two-hop neighbour**: no neighbour, not linked symmetrically, and reached via a neighbour whose
willingness is not `WILL_NEVER`. -/
def StrictTwoHop (now : ℚ) (olsr : NodeOlsr α) (x : α) : Prop :=
  (∀ y ∈ olsr.neighborSet, y.neighborMainAddr ≠ x) ∧
    (∀ link ∈ olsr.linkSet, link.neighborIfaceAddr = x → link.symTime < now) ∧
    ∃ t ∈ olsr.twoHopNeighborSet, t.twoHopAddr = x ∧
      ∃ y ∈ olsr.neighborSet, y.neighborMainAddr = t.neighborMainAddr ∧ y.willingness ≠ .never

/-- The tuple that the lookup finds, where the addresses are distinct. -/
theorem findNeighborSet_of_mem (hdist : (n.map NeighborTuple.neighborMainAddr).Nodup) {y : NeighborTuple α}
    (hy : y ∈ n) : findNeighborSet n y.neighborMainAddr = some y := by
  obtain ⟨z, hz, hmem, ha⟩ := exists_findNeighborSet (n := n) (a := y.neighborMainAddr) ⟨y, hy, rfl⟩
  rw [hz, List.inj_on_of_nodup_map hdist hmem hy ha]

/-- The tuples that are filled in have a willing neighbour. -/
theorem willing_of_isFilled {t : TwoHopTuple α} (h : isFilled now olsr t = some true) :
    ∃ y ∈ olsr.neighborSet, y.neighborMainAddr = t.neighborMainAddr ∧ y.willingness ≠ .never := by
  unfold isFilled at h
  cases hy : findNeighborSet olsr.neighborSet t.neighborMainAddr with
  | none =>
    rw [hy] at h
    cases h
  | some y =>
    rw [hy, Option.bind_eq_bind, Option.bind_some] at h
    refine ⟨y, List.mem_of_find?_eq_some hy, of_decide_eq_true (List.find?_some hy :), fun hnever => ?_⟩
    rw [if_pos hnever] at h
    cases h

/-- The tuples of a strict two-hop neighbour with a willing neighbour are filled in. -/
theorem isFilled_of_strict (hdist : (olsr.neighborSet.map NeighborTuple.neighborMainAddr).Nodup)
    {t : TwoHopTuple α} (hneighbor : ∀ y ∈ olsr.neighborSet, y.neighborMainAddr ≠ t.twoHopAddr)
    (hlink : ∀ link ∈ olsr.linkSet, link.neighborIfaceAddr = t.twoHopAddr → link.symTime < now)
    {y : NeighborTuple α} (hy : y ∈ olsr.neighborSet) (hvia : y.neighborMainAddr = t.neighborMainAddr)
    (hwill : y.willingness ≠ .never) : isFilled now olsr t = some true := by
  have hnone : findNeighborSet olsr.neighborSet t.twoHopAddr = none :=
    List.find?_eq_none.2 fun z hz h => hneighbor z hz (of_decide_eq_true h)
  have hsym : ((findLinkSet olsr.linkSet t.twoHopAddr).any fun link => decide (now ≤ link.symTime)) = false := by
    cases hfind : findLinkSet olsr.linkSet t.twoHopAddr with
    | none => rfl
    | some link =>
      have hlt := hlink link (List.mem_of_find?_eq_some hfind) (of_decide_eq_true (List.find?_some hfind :))
      exact decide_eq_false (Rat.not_le.2 hlt)
  unfold isFilled
  rw [← hvia, findNeighborSet_of_mem hdist hy, Option.bind_eq_bind, Option.bind_some, if_neg hwill, hnone, hsym]
  rfl

/-- **The selection of the multipoint relays ends, and the relays cover every strict two-hop neighbour.** They
are different neighbours, none of which has the willingness `WILL_NEVER`. -/
theorem populateMprSet_covers (now : ℚ) (olsr : NodeOlsr α)
    (hdist : (olsr.neighborSet.map NeighborTuple.neighborMainAddr).Nodup)
    (hvia : ∀ t ∈ olsr.twoHopNeighborSet, ∃ y ∈ olsr.neighborSet, y.neighborMainAddr = t.neighborMainAddr) :
    ∃ enough olsr', (∀ rounds, enough ≤ rounds → populateMprSet rounds now olsr = some olsr') ∧
      olsr'.mprSet.Nodup ∧
      (∀ a ∈ olsr'.mprSet, ∃ y ∈ olsr.neighborSet, y.neighborMainAddr = a ∧ y.willingness ≠ .never) ∧
      ∀ x, StrictTwoHop now olsr x →
        ∃ t ∈ olsr.twoHopNeighborSet, t.twoHopAddr = x ∧ t.neighborMainAddr ∈ olsr'.mprSet := by
  have hfill : ∀ t ∈ olsr.twoHopNeighborSet,
      isFilled now olsr t = some ((isFilled now olsr t).getD false) := by
    intro t ht
    obtain ⟨y, hy, -⟩ := exists_findNeighborSet (hvia t ht)
    have hsome : ∃ b, isFilled now olsr t = some b := by
      unfold isFilled
      rw [hy, Option.bind_eq_bind, Option.bind_some]
      split
      · exact ⟨_, rfl⟩
      · split
        · exact ⟨_, rfl⟩
        · exact ⟨_, rfl⟩
    obtain ⟨b, hb⟩ := hsome
    rw [hb]
    rfl
  set n2 := olsr.twoHopNeighborSet.filter fun t => (isFilled now olsr t).getD false with hn2
  have hmem : ∀ t, t ∈ n2 ↔ t ∈ olsr.twoHopNeighborSet ∧ isFilled now olsr t = some true := by
    intro t
    rw [hn2, List.mem_filter]
    refine and_congr_right fun ht => ?_
    rw [hfill t ht, Option.getD_some, Option.some.injEq]
  -- the relays of the tuples that are left are all in the copy of the neighbour set
  have hwilling : ∀ t ∈ n2, ∃ y ∈ fillNeighbor olsr, y.neighborMainAddr = t.neighborMainAddr := by
    intro t ht
    obtain ⟨y, hy, ha, hwill⟩ := willing_of_isFilled ((hmem t).1 ht).2
    exact ⟨y, List.mem_filter.2 ⟨hy, decide_eq_true hwill⟩, ha⟩
  obtain ⟨rounds, s, hrun, hs⟩ := soleRound_halts (s := ⟨n2, 0, [], olsr.isRoutingTableUpdate⟩) hwilling
    (Partial.start n2)
  obtain ⟨rounds', s', hrun', hs', hnil⟩ := restRound_halts (d := calculateDegree (fillNeighbor olsr) n2)
    hwilling hs
  refine ⟨max rounds rounds', markMpr { olsr with
    mprSet := s'.mprSet, isRoutingTableUpdate := s'.isRoutingTableUpdate }, fun m hm => ?_, hs'.nodup, fun a ha => ?_, fun x hx => ?_⟩
  · unfold populateMprSet fill2HopNeighbor
    rw [filterM_eq _ _ hfill]
    simp only [Option.bind_eq_bind, Option.bind_some]
    rw [Loop.run_of_le hrun (by omega), Option.bind_some, Loop.run_of_le hrun' (by omega)]
    rfl
  · obtain ⟨t, ht, rfl⟩ := hs'.chosen_via a ha
    exact willing_of_isFilled ((hmem t).1 ht).2
  · obtain ⟨hneighbor, hlink, t, ht, rfl, y, hy, hya, hwill⟩ := hx
    have hin : t ∈ n2 := (hmem t).2 ⟨ht, isFilled_of_strict hdist hneighbor hlink hy hya hwill⟩
    obtain ⟨t', ht', hchosen, heq⟩ := hs'.covers hnil hin
    exact ⟨t', ((hmem t').1 ht').1, heq, hchosen⟩

/-- A node with the neighbours 1, 2 and 3, of which 3 is never willing; 4 is reached via 1 and 2, and 5
via 2. -/
def sampleNode : NodeOlsr ℕ where
  neighborSet := [⟨1, .symNeigh, .default⟩, ⟨2, .symNeigh, .low⟩, ⟨3, .symNeigh, .never⟩]
  twoHopNeighborSet := [⟨1, 4, 100⟩, ⟨2, 4, 100⟩, ⟨2, 5, 100⟩, ⟨3, 5, 100⟩]
  linkSet := []
  mprSet := []
  isRoutingTableUpdate := false

/-- For the sample the relays end up as a set that reaches 4 and 5. -/
theorem populateMprSet_covers_sample : ∃ enough olsr',
    (∀ rounds, enough ≤ rounds → populateMprSet rounds 0 sampleNode = some olsr') ∧
      ∃ t ∈ sampleNode.twoHopNeighborSet, t.twoHopAddr = 5 ∧ t.neighborMainAddr ∈ olsr'.mprSet := by
  obtain ⟨enough, olsr', hrun, -, -, hcover⟩ := populateMprSet_covers 0 sampleNode (by decide)
    (by decide)
  have hstrict : StrictTwoHop 0 sampleNode 5 := by
    refine ⟨by decide, fun link h => absurd h List.not_mem_nil, ⟨2, 5, 100⟩, by decide, rfl, ?_⟩
    exact ⟨⟨2, .symNeigh, .low⟩, by decide, rfl, by decide⟩
  exact ⟨enough, olsr', hrun, hcover 5 hstrict⟩

end NetSim.Olsr
