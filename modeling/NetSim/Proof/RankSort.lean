import Mathlib.Data.List.Nodup
import Mathlib.Data.List.Perm.Basic
import NetSim.Lib.Chain
import NetSim.Spec.Prb

/-!
# The sort by rank

`LTENR_PRB_SortingofRank` takes the entries one by one and links each one into a second list, at its head, at its tail or
behind an entry in the middle. `placed` says where: the second list is always `placed` of the entries taken so far.

* `placed_perm`, `placed_sorted`: placing an entry keeps the list sorted.
* `info_yields`: the inner loop links the entry where `placed` says.
* `sortingofRank_sorts`: the sort.
* `map_sorted_eq`: it is `sortingOfRank` of the data of the entries.
-/

namespace NetSim.Prb

open Chain Loop

section List

variable {P R : Type*} [LinearOrder R] {rank : P → R} {u : P} {l : List P}

/-- Behind the last entry that is not lower than `u`, for a list whose first entry is not lower. -/
def placedMiddle (rank : P → R) (u : P) : List P → List P
  | info :: next :: rest =>
    if rank next < rank u then info :: u :: next :: rest else info :: placedMiddle rank u (next :: rest)
  | l => l ++ [u]

/-- A sorted list with one entry more. -/
def placed (rank : P → R) (l : List P) (u : P) : List P :=
  match l with
  | [] => [u]
  | head :: rest =>
    if rank head ≤ rank u then u :: head :: rest
    else if rank u ≤ rank ((head :: rest).getLast (List.cons_ne_nil head rest)) then head :: rest ++ [u]
    else placedMiddle rank u (head :: rest)

/-- The ranks do not increase. -/
def Sorted (rank : P → R) (l : List P) : Prop := l.Pairwise fun a b => rank b ≤ rank a

theorem placedMiddle_perm (rank : P → R) (u : P) (l : List P) : (placedMiddle rank u l).Perm (u :: l) := by
  induction l with
  | nil => exact List.Perm.refl _
  | cons info l ih =>
    cases l with
    | nil => exact List.Perm.swap u info []
    | cons next rest =>
      unfold placedMiddle
      split_ifs
      · exact List.Perm.swap u info (next :: rest)
      · exact (ih.cons info).trans (List.Perm.swap u info (next :: rest))

theorem placed_perm (rank : P → R) (l : List P) (u : P) : (placed rank l u).Perm (u :: l) := by
  unfold placed
  cases l with
  | nil => exact List.Perm.refl _
  | cons head rest =>
    dsimp only
    split_ifs
    · exact List.Perm.refl _
    · exact List.perm_append_singleton u (head :: rest)
    · exact placedMiddle_perm rank u (head :: rest)

theorem placedMiddle_sorted {info : P} (hu : rank u ≤ rank info) (h : Sorted rank (info :: l)) :
    Sorted rank (placedMiddle rank u (info :: l)) := by
  induction l generalizing info with
  | nil => exact List.pairwise_pair.2 hu
  | cons next rest ih =>
    obtain ⟨hinfo, hrest⟩ := List.pairwise_cons.1 h
    unfold placedMiddle
    split_ifs with hlt
    · -- everything behind `u` is as low as `next`
      have hbelow : ∀ x ∈ next :: rest, rank x ≤ rank u := by
        intro x hx
        rcases List.mem_cons.1 hx with rfl | hx
        · exact le_of_lt hlt
        · exact le_trans ((List.pairwise_cons.1 hrest).1 x hx) (le_of_lt hlt)
      refine List.pairwise_cons.2 ⟨?_, List.pairwise_cons.2 ⟨hbelow, hrest⟩⟩
      intro x hx
      rcases List.mem_cons.1 hx with rfl | hx
      · exact hu
      · exact hinfo x hx
    · refine List.pairwise_cons.2 ⟨?_, ih (not_lt.1 hlt) hrest⟩
      intro x hx
      rcases List.mem_cons.1 ((placedMiddle_perm rank u (next :: rest)).mem_iff.1 hx) with rfl | hx
      · exact hu
      · exact hinfo x hx

/-- In the middle, the last entry stays the last. -/
theorem getLast?_placedMiddle {info : P} (hu : rank u ≤ rank info)
    (htail : ∀ x ∈ (info :: l).getLast?, rank x < rank u) :
    (placedMiddle rank u (info :: l)).getLast? = (info :: l).getLast? := by
  induction l generalizing info with
  | nil => exact absurd hu (not_le.2 (htail info rfl))
  | cons next rest ih =>
    rw [List.getLast?_cons_cons] at htail ⊢
    unfold placedMiddle
    split_ifs with hlt
    · rw [List.getLast?_cons_cons, List.getLast?_cons_cons]
    · obtain ⟨first, others, hcons⟩ : ∃ first others, placedMiddle rank u (next :: rest) = first :: others :=
        List.exists_cons_of_ne_nil fun hnil => by simpa [hnil] using placedMiddle_perm rank u (next :: rest)
      have hrest := ih (not_lt.1 hlt) htail
      rw [hcons] at hrest ⊢
      rw [List.getLast?_cons_cons]
      exact hrest

theorem le_of_le_getLast (h : Sorted rank l) (hne : l ≠ []) (hu : rank u ≤ rank (l.getLast hne)) :
    ∀ x ∈ l, rank u ≤ rank x := by
  intro x hx
  rw [← List.dropLast_append_getLast hne] at h hx
  rcases List.mem_append.1 hx with hx | hx
  · have hlow := (List.pairwise_append.1 h).2.2 x hx _ (List.mem_singleton_self _)
    exact le_trans hu hlow
  · rw [List.mem_singleton.1 hx]
    exact hu

theorem placed_sorted (h : Sorted rank l) (u : P) : Sorted rank (placed rank l u) := by
  unfold placed
  cases l with
  | nil => exact List.pairwise_singleton _ u
  | cons head rest =>
    dsimp only
    split_ifs with hhead htail
    · refine List.pairwise_cons.2 ⟨?_, h⟩
      intro x hx
      rcases List.mem_cons.1 hx with rfl | hx
      · exact hhead
      · exact le_trans ((List.pairwise_cons.1 h).1 x hx) hhead
    · refine List.pairwise_append.2 ⟨h, List.pairwise_singleton _ u, ?_⟩
      intro x hx y hy
      rw [List.mem_singleton.1 hy]
      exact le_of_le_getLast h _ htail x hx
    · exact placedMiddle_sorted (le_of_lt (not_le.1 hhead)) h

/-- The entries in the order in which they are placed. -/
theorem foldl_placed (rank : P → R) (l sorted : List P) (h : Sorted rank sorted) :
    (l.foldl (placed rank) sorted).Perm (l ++ sorted) ∧ Sorted rank (l.foldl (placed rank) sorted) := by
  induction l generalizing sorted with
  | nil => exact ⟨List.Perm.refl _, h⟩
  | cons u l ih =>
    obtain ⟨hperm, hsorted⟩ := ih (placed rank sorted u) (placed_sorted h u)
    refine ⟨hperm.trans (((placed_perm rank sorted u).append_left l).trans List.perm_middle), hsorted⟩

end List

/-! ## On the memory -/

variable {P R : Type*} [LinearOrder R] {rank : P → R} {next₀ : P → Option P} {whole done rest : List P} {s : SortState P}

/-- Between two rounds of the outer loop: `done` is linked, with its head and its tail known, and so is `rest`, which is still
to be placed. -/
structure Between (next₀ : P → Option P) (whole done rest : List P) (s : SortState P) : Prop where
  outer : s.inMiddle = false
  linked : Seg s.next s.head done none
  tail : s.tail = done.getLast?
  todo : Seg s.next s.list rest none
  cells : (rest ++ done).Perm whole
  distinct : (rest ++ done).Nodup
  frame : ∀ x, x ∉ whole → s.next x = next₀ x

variable {u : P}

/-- An entry has just been placed. -/
theorem Between.next {done' : List P} {s' : SortState P} (h : Between next₀ whole done (u :: rest) s)
    (hperm : done'.Perm (u :: done)) (houter : s'.inMiddle = false) (hlinked : Seg s'.next s'.head done' none)
    (htail : s'.tail = done'.getLast?) (hlist : s'.list = s.next u)
    (hframe : ∀ x, x ∉ u :: done → s'.next x = s.next x) : Between next₀ whole done' rest s' := by
  have hmoved : (rest ++ done').Perm (u :: rest ++ done) := (hperm.append_left rest).trans List.perm_middle
  have hdistinct : (rest ++ done').Nodup := hmoved.nodup_iff.2 h.distinct
  refine ⟨houter, hlinked, htail, ?_, hmoved.trans h.cells, hdistinct, ?_⟩
  · -- the links behind `u` have not been written
    rw [hlist]
    apply h.todo.2.congr
    intro x hx
    apply hframe
    intro hmem
    exact (List.nodup_append.1 hdistinct).2.2 x hx x (hperm.mem_iff.2 hmem) rfl
  · intro x hx
    have hnot : x ∉ u :: done := by
      intro hmem
      apply hx
      apply h.cells.mem_iff.1
      rcases List.mem_cons.1 hmem with rfl | hmem
      · exact List.mem_append_left done List.mem_cons_self
      · exact List.mem_append_right _ hmem
    rw [hframe x hnot]
    exact h.frame x hx

theorem Between.not_mem (h : Between next₀ whole done (u :: rest) s) : u ∉ done := by
  intro hmem
  exact (List.nodup_append.1 h.distinct).2.2 u List.mem_cons_self u hmem rfl

theorem Between.done_nodup (h : Between next₀ whole done rest s) : done.Nodup := (List.nodup_append.1 h.distinct).2.1

/-- In the inner loop, at the entry `i` with the entries `behind` it: `i` is not lower than `u`, and the tail is. -/
structure AtCursor (rank : P → R) (u i : P) (behind : List P) (s : SortState P) : Prop where
  inner : s.inMiddle = true
  list : s.list = some u
  t : s.t = s.next u
  info : s.info = some i
  here : rank u ≤ rank i
  tail : ∀ x ∈ (i :: behind).getLast?, rank x < rank u

variable [DecidableEq P]

/-- The inner loop links `u` in where `placedMiddle` says, and nothing else changes. -/
theorem info_yields {Q : Option ((P → Option P) × Option P) → Prop} {before behind : List P} {i : P}
    (hlinked : Seg s.next s.head (before ++ i :: behind) none) (hnodup : (before ++ i :: behind).Nodup)
    (hu : u ∉ before ++ i :: behind) (h : AtCursor rank u i behind s)
    (hout : ∀ s' : SortState P, s'.inMiddle = false →
      Seg s'.next s'.head (before ++ placedMiddle rank u (i :: behind)) none → s'.tail = s.tail → s'.list = s.next u →
      (∀ x, x ∉ u :: (before ++ i :: behind) → s'.next x = s.next x) → Yields (sortRound rank) Q s') :
    Yields (sortRound rank) Q s := by
  induction behind generalizing before i s with
  | nil => exact absurd h.here (not_le.2 (h.tail i rfl))
  | cons j behind ih =>
    obtain ⟨m, hm, hi, hj⟩ := seg_append.1 hlinked
    have hnext : s.next i = some j := hj.1
    by_cases hlt : rank j < rank u
    · have hround : sortRound rank s = .inl { s with
          next := Function.update (Function.update s.next u (some j)) i (some u), list := s.t, inMiddle := false } := by
        unfold sortRound infoRound
        simp only [h.inner, h.list, h.info, hnext, hlt, if_true]
      have hmiddle : placedMiddle rank u (i :: j :: behind) = i :: u :: j :: behind := if_pos hlt
      have hfront : Seg s.next s.head (before ++ [i]) (some j) := seg_append.2 ⟨m, hm, hi, hnext⟩
      have hi_not : i ∉ before ++ j :: behind := (List.nodup_cons.1 (List.nodup_middle.1 hnodup)).1
      refine .of_inl hround (hout _ rfl ?_ rfl h.t ?_)
      · rw [hmiddle]
        refine hfront.insert_after ⟨rfl, hj.2⟩ ?_ hi_not
        rw [List.append_assoc]
        exact hu
      · intro x hx
        have hxu : x ≠ u := fun heq => hx (heq ▸ List.mem_cons_self)
        have hxi : x ≠ i := by
          rintro rfl
          exact hx (List.mem_cons_of_mem u (List.mem_append_right before List.mem_cons_self))
        dsimp only
        rw [Function.update_of_ne hxi, Function.update_of_ne hxu]
    · have hround : sortRound rank s = .inl { s with info := some j } := by
        unfold sortRound infoRound
        simp only [h.inner, h.list, h.info, hnext, hlt, if_true, if_false]
      have hmiddle : placedMiddle rank u (i :: j :: behind) = i :: placedMiddle rank u (j :: behind) := if_neg hlt
      have hsplit : ∀ l : List P, before ++ i :: l = before ++ [i] ++ l := by simp
      rw [hsplit] at hlinked hnodup hu
      refine .of_inl hround (ih hlinked hnodup hu ⟨h.inner, h.list, h.t, rfl, not_lt.1 hlt, ?_⟩ ?_)
      · intro x hx
        apply h.tail x
        rw [List.getLast?_cons_cons]
        exact hx
      · intro s' hinner hseg htail hlist hframe
        rw [← hsplit] at hseg hframe
        rw [hmiddle] at hout
        exact hout s' hinner hseg htail hlist hframe

/-- The links and the head make the list `l`, and no link of other entries has changed. -/
def Makes (next₀ : P → Option P) (whole l : List P) (r : Option ((P → Option P) × Option P)) : Prop :=
  ∃ next head, r = some (next, head) ∧ Seg next head l none ∧ ∀ x, x ∉ whole → next x = next₀ x

/-- **The outer loop** places the entries one by one. -/
theorem between_yields (h : Between next₀ whole done rest s) (hsorted : Sorted rank done) :
    Yields (sortRound rank) (Makes next₀ whole (rest.foldl (placed rank) done)) s := by
  induction rest generalizing done s with
  | nil =>
    have hlist : s.list = none := h.todo
    have hround : sortRound rank s = .inr (some (s.next, s.head)) := by
      unfold sortRound listRound
      simp only [h.outer, hlist]
      rfl
    exact .of_inr hround ⟨s.next, s.head, rfl, h.linked, h.frame⟩
  | cons u rest ih =>
    have hlist : s.list = some u := h.todo.1
    have hfresh : u ∉ done := h.not_mem
    have hplaced := placed_sorted hsorted u
    rw [List.foldl_cons]
    cases done with
    | nil =>
      -- the first entry
      have hhead : s.head = none := h.linked
      have hround : sortRound rank s = .inl { s with
          next := Function.update s.next u none, head := some u, tail := some u, list := s.next u } := by
        unfold sortRound listRound
        simp only [h.outer, hlist, hhead]
        rfl
      refine .of_inl hround (ih (h.next (placed_perm rank [] u) h.outer ⟨rfl, ?_⟩ rfl rfl ?_) hplaced)
      · exact Function.update_self u none s.next
      · intro x hx
        exact Function.update_of_ne (List.ne_of_not_mem_cons hx) _ _
    | cons head behind =>
      have hhead : s.head = some head := h.linked.1
      by_cases hhigh : rank head ≤ rank u
      · -- at the head
        have hround : sortRound rank s = .inl { s with
            next := Function.update s.next u (some head), head := some u, list := s.next u } := by
          unfold sortRound listRound
          simp only [h.outer, hlist, hhead, hhigh, if_true]
          rfl
        have hwhere : placed rank (head :: behind) u = u :: head :: behind := if_pos hhigh
        rw [hwhere] at hplaced ⊢
        refine .of_inl hround (ih (h.next (List.Perm.refl _) h.outer ⟨rfl, ?_⟩ ?_ rfl ?_) hplaced)
        · dsimp only
          rw [Function.update_self, hhead.symm]
          exact h.linked.update_other hfresh s.head
        · rw [List.getLast?_cons_cons]
          exact h.tail
        · intro x hx
          exact Function.update_of_ne (List.ne_of_not_mem_cons hx) _ _
      · have hlow : rank u < rank head := not_le.1 hhigh
        generalize htl : (head :: behind).getLast (List.cons_ne_nil head behind) = tl
        have hlast : (head :: behind).getLast? = some tl := by
          rw [List.getLast?_eq_some_getLast (List.cons_ne_nil head behind), htl]
        have htail : s.tail = some tl := h.tail.trans hlast
        by_cases hend : rank u ≤ rank tl
        · -- at the tail
          have hround : sortRound rank s = .inl { s with
              next := Function.update (Function.update s.next tl (some u)) u none, tail := some u, list := s.next u } := by
            unfold sortRound listRound
            simp only [h.outer, hlist, hhead, hhigh, htail, hend, if_true, if_false]
            rfl
          have hwhere : placed rank (head :: behind) u = head :: behind ++ [u] := by
            unfold placed
            dsimp only
            rw [if_neg hhigh, htl, if_pos hend]
          obtain ⟨front, hsplit⟩ := List.getLast?_eq_some_iff.1 hlast
          have hne : tl ≠ u := by
            rintro rfl
            exact hfresh (List.mem_of_getLast? hlast)
          have hdistinct := h.done_nodup
          have hlinked := h.linked
          rw [hwhere] at hplaced ⊢
          refine .of_inl hround (ih (h.next (List.perm_append_singleton u _) h.outer ?_ ?_ rfl ?_) hplaced)
          · rw [hsplit] at hlinked hfresh hdistinct ⊢
            have htl_not : tl ∉ front ++ [] := by
              rw [List.append_nil]
              exact fun hmem => (List.nodup_append.1 hdistinct).2.2 tl hmem tl (List.mem_singleton_self tl) rfl
            have hnil : Seg s.next none [] none := rfl
            have hins := hlinked.insert_after hnil (by rwa [List.append_nil]) htl_not
            dsimp only
            rw [Function.update_comm hne, List.append_assoc]
            exact hins
          · rw [List.getLast?_concat]
          · intro x hx
            have hxu : x ≠ u := List.ne_of_not_mem_cons hx
            have hxt : x ≠ tl := by
              rintro rfl
              exact hx (List.mem_cons_of_mem u (List.mem_of_getLast? hlast))
            dsimp only
            rw [Function.update_of_ne hxu, Function.update_of_ne hxt]
        · -- in the middle
          have hround : sortRound rank s =
              .inl { s with t := s.next u, info := some head, inMiddle := true } := by
            unfold sortRound listRound
            simp only [h.outer, hlist, hhead, hhigh, htail, hend, if_false]
            rfl
          have hwhere : placed rank (head :: behind) u = placedMiddle rank u (head :: behind) := by
            unfold placed
            dsimp only
            rw [if_neg hhigh, htl, if_neg hend]
          have hlower : ∀ x ∈ (head :: behind).getLast?, rank x < rank u := by
            intro x hx
            rw [hlast] at hx
            obtain rfl := Option.some.inj hx
            exact not_le.1 hend
          rw [hwhere] at hplaced ⊢
          have hlinked : Seg s.next s.head ([] ++ head :: behind) none := h.linked
          refine .of_inl hround (info_yields hlinked h.done_nodup hfresh
            ⟨rfl, hlist, rfl, rfl, le_of_lt hlow, hlower⟩ ?_)
          intro s' houter hseg htail' hlist' hframe
          refine ih (h.next (placedMiddle_perm rank u _) houter hseg ?_ hlist' hframe) hplaced
          rw [htail', getLast?_placedMiddle (le_of_lt hlow) hlower]
          exact h.tail

/-- Called with a list, the function ends, and has linked the entries where `placed` says. -/
theorem sortingofRank_makes (rank : P → R) {next : P → Option P} {list : Option P} {l : List P}
    (h : Seg next list l none) :
    Yields (sortRound rank) (Makes next l (l.foldl (placed rank) [])) (.init next list) := by
  apply between_yields
  · refine ⟨rfl, rfl, rfl, h, ?_, ?_, fun _ _ => rfl⟩
    · rw [List.append_nil]
    · rw [List.append_nil]
      exact h.nodup
  · exact List.Pairwise.nil

/-- **`LTENR_PRB_SortingofRank` sorts**: it ends, and its links make a list of the same entries whose ranks do not
increase. The links of other entries stay. -/
theorem sortingofRank_sorts (rank : P → R) (next : P → Option P) (list : Option P) (l : List P)
    (h : Seg next list l none) :
    Yields (sortRound rank) (fun r => ∃ next' head l', r = some (next', head) ∧ Seg next' head l' none ∧ l'.Nodup ∧
      l'.Perm l ∧ Sorted rank l' ∧ ∀ x, x ∉ l → next' x = next x) (.init next list) := by
  obtain ⟨n, r, hrun, next', head, rfl, hlinked, hframe⟩ := sortingofRank_makes rank h
  obtain ⟨hperm, hsorted⟩ := foldl_placed rank l [] List.Pairwise.nil
  rw [List.append_nil] at hperm
  exact ⟨n, _, hrun, next', head, _, rfl, hlinked, hlinked.nodup, hperm, hsorted, hframe⟩

/-- Two entries, the second of which has the higher rank. -/
def twoRank : Bool → ℕ
  | false => 1
  | true => 2

def twoNext : Bool → Option Bool
  | false => some true
  | true => none

theorem sortingofRank_sorts_sample :
    Yields (sortRound twoRank) (fun r => ∃ next' head l', r = some (next', head) ∧ Seg next' head l' none ∧ l'.Nodup ∧
      l'.Perm [false, true] ∧ Sorted twoRank l' ∧ ∀ x, x ∉ [false, true] → next' x = twoNext x)
      (.init twoNext (some false)) :=
  sortingofRank_sorts twoRank twoNext (some false) [false, true] ⟨rfl, rfl, rfl⟩

/-- A list that is linked in both directions. -/
def DoublyLinked (next prev : P → Option P) (p : Option P) (l : List P) : Prop :=
  Seg next p l none ∧ Seg prev l.getLast? l.reverse none

/-- Links back beside the two entries. -/
def twoPrev : Bool → Option Bool
  | false => none
  | true => some false

/-- Nothing writes links back: any kept beside the entries no longer fit after the sort. -/
theorem links_back_stale : DoublyLinked twoNext twoPrev (some false) [false, true] ∧
    ¬ Yields (sortRound twoRank) (fun r => ∃ next' head l', r = some (next', head) ∧ DoublyLinked next' twoPrev head l')
      (.init twoNext (some false)) := by
  refine ⟨⟨⟨rfl, rfl, rfl⟩, rfl, rfl, rfl⟩, ?_⟩
  rintro ⟨n, r, hrun, next', head, l', rfl, hnext, hprev⟩
  have hrun' : run (sortRound twoRank) 3 (.init twoNext (some false)) =
      some (some (Function.update (Function.update twoNext false none) true (some false), some true)) := rfl
  obtain ⟨rfl, rfl⟩ := Prod.mk.inj (Option.some.inj (run_unique hrun hrun'))
  obtain rfl : l' = [true, false] := hnext.unique ⟨rfl, rfl, rfl⟩
  have hback : twoPrev false = some true := hprev.2.1
  exact absurd hback (by decide)

/-! ## The list of data -/

section Data

omit [DecidableEq P]

variable (data : P → UeSchedulerInfo)

theorem map_placedMiddle (u : P) (l : List P) :
    (placedMiddle (fun p => (data p).rank) u l).map data = insertMiddle (data u) (l.map data) := by
  induction l with
  | nil => rfl
  | cons info l ih =>
    cases l with
    | nil => rfl
    | cons next rest =>
      simp only [List.map_cons, placedMiddle, insertMiddle] at ih ⊢
      split_ifs
      · rfl
      · rw [List.map_cons, ih]

theorem map_placed (l : List P) (u : P) :
    (placed (fun p => (data p).rank) l u).map data = sortInsert (l.map data) (data u) := by
  cases l with
  | nil => rfl
  | cons head rest =>
    have hlast : (data head :: rest.map data).getLast (List.cons_ne_nil _ _) =
        data ((head :: rest).getLast (List.cons_ne_nil head rest)) :=
      List.getLast_map (l := head :: rest) (List.cons_ne_nil _ _)
    simp only [List.map_cons, placed, sortInsert, hlast]
    split_ifs
    · rfl
    · rw [List.map_append]
      rfl
    · exact map_placedMiddle data u (head :: rest)

theorem map_foldl_placed (l sorted : List P) :
    (l.foldl (placed fun p => (data p).rank) sorted).map data = (l.map data).foldl sortInsert (sorted.map data) := by
  induction l generalizing sorted with
  | nil => rfl
  | cons u l ih => rw [List.foldl_cons, ih, map_placed, List.map_cons, List.foldl_cons]

end Data

/-- The sort on the memory is `sortingOfRank` of the data that the entries hold. -/
theorem sortingofRank_refines (data : P → UeSchedulerInfo) {next : P → Option P} {list : Option P} {l : List P}
    (h : Seg next list l none) :
    Yields (sortRound fun p => (data p).rank) (fun r => ∃ next' head l', r = some (next', head) ∧ Seg next' head l' none ∧
      l'.map data = sortingOfRank (l.map data)) (.init next list) := by
  obtain ⟨n, r, hrun, next', head, rfl, hlinked, -⟩ := sortingofRank_makes (fun p => (data p).rank) h
  exact ⟨n, _, hrun, next', head, _, rfl, hlinked, map_foldl_placed data l []⟩

/-- The data of the two entries. -/
def twoData (u : Bool) : UeSchedulerInfo := ⟨1, 1, 1000, 100, 0, 1, if u then 2 else 1, 0, 0, 0⟩

theorem sortingofRank_refines_sample :
    Yields (sortRound fun u => (twoData u).rank) (fun r => ∃ next' head l', r = some (next', head) ∧ Seg next' head l' none ∧
      l'.map twoData = sortingOfRank [twoData false, twoData true]) (.init twoNext (some false)) :=
  sortingofRank_refines (l := [false, true]) twoData ⟨rfl, rfl, rfl⟩

end NetSim.Prb
