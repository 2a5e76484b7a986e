import NetSim.Spec.Rpl
import NetSim.Lib.ParentTree

/-!
# The rank of an RPL node

The rank of a node is that of its preferred parent and an increment of 1 to 16. The sum has 16 bits, and the comparison
with `INFINITE_RANK` that would cap it never holds.

* `computeCandidateRank_gt_iff`: the candidate rank is greater than the advertised rank if the sum fits.
* `chooseInDodag_cases`: what a call can do.
* `chooseOnce_selected`: what a call that selects a preferred parent has found and leaves.
* `rankOrdered_iff`: the ranks are in order after it if the sum of the best neighbour fits.
* `chooseParentsAndSiblings_settles`: three nested calls are enough.
* `rank_increases`: so the ranks are in order where no best sum overflows, and no preferred parents form a cycle.
* `rank_overflow`: a neighbour near the infinite rank.
-/

namespace NetSim.Rpl

open FirstLeast

variable {ι : Type*} [DecidableEq ι] {env : Environment ι} {n n' : Node ι}

/-! ### Candidate ranks -/

omit [DecidableEq ι] in
theorem rankIncrement_bounds (env : Environment ι) (d r : ℕ) : 1 ≤ rankIncrement env d r ∧ rankIncrement env d r ≤ 16 := by
  have h1 := env.linkQuality_nonneg d r
  have h2 := env.linkQuality_nonneg r d
  have h3 := env.linkQuality_le_one d r
  have h4 := env.linkQuality_le_one r d
  unfold rankIncrement rplMaximumRankIncrement rplMinimumRankIncrement
  dsimp only
  set q := (env.linkQuality d r + env.linkQuality r d) / 2 with hq
  have hq0 : 0 ≤ 1 - q := by linarith
  have hq1 : 1 - q ≤ 1 := by linarith
  have hsq0 : 0 ≤ (1 - q) ^ 2 := sq_nonneg _
  have hsq1 : (1 - q) ^ 2 ≤ 1 := by nlinarith
  constructor
  · exact Nat.le_floor (by push_cast; linarith)
  · exact Nat.floor_le_of_le (by push_cast; linarith)

theorem infiniteRank_toNat : infiniteRank.toNat = 65535 := rfl

omit [DecidableEq ι] in
/-- A candidate rank below the infinite one is the sum of 16 bits. -/
theorem computeCandidateRank_toNat {d nodeId : ℕ} {m : DioMsg ι}
    (h : computeCandidateRank env d nodeId m < infiniteRank) :
    (computeCandidateRank env d nodeId m).toNat = (rankIncrement env d nodeId + m.rank.toNat) % 65536 := by
  unfold computeCandidateRank at h ⊢
  by_cases h0 : nodeId = 0
  · rw [if_pos h0] at h
    exact absurd h (lt_irrefl _)
  · rw [if_neg h0] at h ⊢
    dsimp only at h ⊢
    have hcap : ¬ UInt16.ofNat (rankIncrement env d nodeId) + m.rank > infiniteRank := by
      intro hgt
      have h1 := UInt16.lt_iff_toNat_lt.1 hgt
      rw [infiniteRank_toNat] at h1
      have h2 := UInt16.toNat_lt (UInt16.ofNat (rankIncrement env d nodeId) + m.rank)
      omega
    rw [if_neg hcap, UInt16.toNat_add, UInt16.toNat_ofNat']
    omega

omit [DecidableEq ι] in
/-- **The candidate rank** is greater than the advertised one if the sum fits. -/
theorem computeCandidateRank_gt_iff {d nodeId : ℕ} {m : DioMsg ι}
    (h : computeCandidateRank env d nodeId m < infiniteRank) :
    m.rank < computeCandidateRank env d nodeId m ↔ rankIncrement env d nodeId + m.rank.toNat < 2 ^ 16 := by
  have hinc := rankIncrement_bounds env d nodeId
  have hlt := UInt16.toNat_lt m.rank
  rw [UInt16.lt_iff_toNat_lt, computeCandidateRank_toNat h]
  omega

/-! ### The calls -/

/-- The candidate ranks of all neighbours. -/
def candidateRanks (env : Environment ι) (n : Node ι) (dodag : Dodag ι) : List (Option UInt16) :=
  n.neighborList.map (candidateRank env n.nodeId dodag)

theorem map_candidateRank (n : Node ι) (dodag : Dodag ι) :
    n.neighborList.map (candidateRank env n.nodeId { dodag with parentList := [], siblingList := [] }) =
      candidateRanks env n dodag := rfl

/-- The node after the first pass. -/
def afterFirstPass (n : Node ι) (dodag : Dodag ι) : Node ι :=
  { n with
    joinedDodag := some { dodag with parentList := [], siblingList := [] }
    neighborList := n.neighborList.map (forgetHigher dodag)
    routeToParent := none }

/-- What a call can do: it selects the first neighbour of the least rank, joins the DODAG iteration of a message and calls
again, or poisons. The message is of its preferred parent or, if no neighbour is eligible, the preferred one. -/
theorem chooseInDodag_cases {dodag : Dodag ι} {out : Outcome ι} (h : chooseInDodag env n dodag = some out) :
    (∃ i r, IsFirstLeast (candidateRanks env n dodag) i r ∧ r < infiniteRank ∧
      out = .selected (selectParent (afterFirstPass n dodag) { dodag with parentList := [], siblingList := [] }
        (candidateRanks env n dodag) i r)) ∨
    (∃ m n₁, out = .again n₁ ∧ joinDodagIteration (afterFirstPass n dodag) m = some n₁ ∧
      (dodag.prefParent ≠ none ∨
        scan 0 none (candidateRanks env n dodag) = none ∧
          getPreferredDodagDioPdu env (afterFirstPass n dodag) = some (m, false))) ∨
    ∃ n₁, out = .poisoning n₁ := by
  unfold chooseInDodag at h
  dsimp only at h
  rw [map_candidateRank] at h
  cases hscan : scan 0 none (candidateRanks env n dodag) with
  | none =>
    rw [hscan] at h
    dsimp only at h
    split at h
    · rename_i m hp
      obtain ⟨n₁, hj, rfl⟩ := Option.map_eq_some_iff.1 h
      exact .inr (.inl ⟨m, n₁, rfl, hj, .inr ⟨rfl, hp⟩⟩)
    · exact .inr (.inr ⟨_, (Option.some.inj h).symm⟩)
  | some b =>
    obtain ⟨i, r⟩ := b
    rw [hscan] at h
    dsimp only at h
    split at h
    · cases h
    · split at h
      · split at h
        · rename_i m hp
          obtain ⟨p, hparent, -⟩ := Option.bind_eq_some_iff.1 hp
          split at h
          · obtain ⟨n₁, hj, rfl⟩ := Option.map_eq_some_iff.1 h
            exact .inr (.inl ⟨m, n₁, rfl, hj, .inl (Option.ne_none_iff_exists'.2 ⟨p, hparent⟩)⟩)
          · exact .inr (.inr ⟨_, (Option.some.inj h).symm⟩)
        · exact .inr (.inr ⟨_, (Option.some.inj h).symm⟩)
      · rename_i hbound
        have hr : ¬ r ≥ infiniteRank := fun hge => hbound (.inr hge)
        exact .inl ⟨i, r, scan_eq_some_iff.1 hscan, not_le.1 hr, (Option.some.inj h).symm⟩

/-- What a call that selects has found and leaves. -/
theorem chooseOnce_selected (h : chooseOnce env n = some (.selected n')) :
    ∃ dodag i r, n.joinedDodag = some dodag ∧ IsFirstLeast (candidateRanks env n dodag) i r ∧ r < infiniteRank ∧
      n' = selectParent (afterFirstPass n dodag) { dodag with parentList := [], siblingList := [] }
        (candidateRanks env n dodag) i r := by
  obtain ⟨dodag, hd, h⟩ := Option.bind_eq_some_iff.1 h
  obtain ⟨i, r, hbest, hr, hout⟩ | ⟨_, _, hout, -⟩ | ⟨_, hout⟩ := chooseInDodag_cases h
  · exact ⟨dodag, i, r, hd, hbest, hr, Outcome.selected.inj hout⟩
  all_goals cases hout

/-- How a call that calls again has changed the node: it has joined the DODAG iteration of a message, which it prefers
or which is of its preferred parent. -/
theorem chooseOnce_again (h : chooseOnce env n = some (.again n')) :
    ∃ dodag m, n.joinedDodag = some dodag ∧ joinDodagIteration (afterFirstPass n dodag) m = some n' ∧
      (dodag.prefParent ≠ none ∨
        scan 0 none (candidateRanks env n dodag) = none ∧
          getPreferredDodagDioPdu env (afterFirstPass n dodag) = some (m, false)) := by
  obtain ⟨dodag, hd, h⟩ := Option.bind_eq_some_iff.1 h
  obtain ⟨_, _, -, -, hout⟩ | ⟨m, n₁, hout, hj, hwhy⟩ | ⟨_, hout⟩ := chooseInDodag_cases h
  · cases hout
  · obtain rfl := Outcome.again.inj hout
    exact ⟨dodag, m, hd, hj, hwhy⟩
  · cases hout

/-! ### The order of the ranks -/

/-- The ranks of the parents are below that of the node, and the preferred parent is one of them; the siblings have the
rank of the node. -/
structure RankOrdered (n : Node ι) (dodag : Dodag ι) : Prop where
  finite : dodag.rank < infiniteRank
  parents : ∀ i ∈ dodag.parentList, ∃ m, n.lastDioMsg i = some m ∧ m.rank < dodag.rank
  preferred : ∃ p, dodag.prefParent = some p ∧ p ∈ dodag.parentList
  siblings : ∀ i ∈ dodag.siblingList, ∃ m, n.lastDioMsg i = some m ∧ m.rank = dodag.rank
  disjoint : ∀ i ∈ dodag.parentList, i ∉ dodag.siblingList

/-- A node whose ranks are in order. -/
def Node.Ordered (n : Node ι) : Prop := ∃ dodag, n.joinedDodag = some dodag ∧ RankOrdered n dodag

/-- The first neighbour of the least candidate rank has a rank and an increment whose sum fits. -/
def BestFits (env : Environment ι) (n : Node ι) : Prop :=
  ∃ dodag i r neighbor m, n.joinedDodag = some dodag ∧ IsFirstLeast (candidateRanks env n dodag) i r ∧
    n.neighborList[i]? = some neighbor ∧ neighbor.lastDioMsg = some m ∧
    rankIncrement env n.nodeId neighbor.nodeId + m.rank.toNat < 2 ^ 16

section Select

variable {dodag : Dodag ι} {ranks : List (Option UInt16)} {i j : ℕ} {r : UInt16}

omit [DecidableEq ι] in
/-- The messages that are kept. -/
theorem lastDioMsg_selectParent (n : Node ι) (h : relationAt r ranks n.neighborList j ≠ .forgotten) :
    (selectParent n dodag ranks i r).lastDioMsg j = n.lastDioMsg j := by
  unfold Node.lastDioMsg selectParent
  simp only [List.getElem?_mapIdx]
  cases n.neighborList[j]? with
  | none => rfl
  | some neighbor => simp [h]

omit [DecidableEq ι] in
/-- A neighbour with a relation has a message. -/
theorem relationAt_cases {l : List (Neighbor ι)} (h : relationAt r ranks l j ≠ .forgotten) :
    ∃ m, l[j]?.bind (·.lastDioMsg) = some m ∧
      relationAt r ranks l j = if m.rank < r then .parent else .sibling := by
  unfold relationAt at h ⊢
  cases hm : l[j]?.bind (·.lastDioMsg) with
  | none =>
    rw [hm] at h
    exact absurd rfl h
  | some m =>
    rw [hm] at h
    dsimp only [relationTo] at h ⊢
    refine ⟨m, rfl, ?_⟩
    split at h
    · exact absurd rfl h
    · rename_i hfin
      rw [if_neg hfin]
      split
      · rfl
      · rename_i hlt
        rw [if_neg hlt] at h
        split
        · rfl
        · rename_i hne
          rw [if_neg hne] at h
          exact absurd rfl h

omit [DecidableEq ι] in
/-- Whatever is selected, all but the preferred parent are in order. -/
theorem rankOrdered_selectParent (ranks : List (Option UInt16)) (dodag : Dodag ι) (i : ℕ) (n : Node ι)
    (hr : r < infiniteRank) :
    RankOrdered (selectParent n dodag ranks i r)
        { dodag with
          rank := r
          lowestRank := if r < dodag.lowestRank then r else dodag.lowestRank
          parentList := (List.range n.neighborList.length).filter fun j =>
            relationAt r ranks n.neighborList j = .parent
          siblingList := (List.range n.neighborList.length).filter fun j =>
            relationAt r ranks n.neighborList j = .sibling
          prefParent := some i } ↔
      i < n.neighborList.length ∧ relationAt r ranks n.neighborList i = .parent := by
  have hmem : ∀ k rel, k ∈ (List.range n.neighborList.length).filter (fun j =>
      relationAt r ranks n.neighborList j = rel) ↔
        k < n.neighborList.length ∧ relationAt r ranks n.neighborList k = rel := by
    intro k rel
    rw [List.mem_filter, List.mem_range, decide_eq_true_eq]
  constructor
  · intro h
    obtain ⟨p, hp, hin⟩ := h.preferred
    obtain rfl := Option.some.inj hp
    exact (hmem _ _).1 hin
  · intro hi
    refine ⟨hr, ?_, ⟨i, rfl, (hmem _ _).2 hi⟩, ?_, ?_⟩
    · intro k hk
      have hrel := ((hmem _ _).1 hk).2
      have hne : relationAt r ranks n.neighborList k ≠ .forgotten := by rw [hrel]; decide
      obtain ⟨m, hm, hcase⟩ := relationAt_cases hne
      refine ⟨m, (lastDioMsg_selectParent n hne).trans hm, ?_⟩
      by_contra hlt
      rw [hrel, if_neg hlt] at hcase
      exact absurd hcase (by decide)
    · intro k hk
      have hrel := ((hmem _ _).1 hk).2
      have hne : relationAt r ranks n.neighborList k ≠ .forgotten := by rw [hrel]; decide
      obtain ⟨m, hm, -⟩ := relationAt_cases hne
      refine ⟨m, (lastDioMsg_selectParent n hne).trans hm, ?_⟩
      unfold relationAt at hrel
      rw [hm] at hrel
      dsimp only [relationTo] at hrel
      split at hrel
      · exact absurd hrel (by decide)
      · split at hrel
        · exact absurd hrel (by decide)
        · split at hrel
          · rename_i heq
            exact heq
          · exact absurd hrel (by decide)
    · intro k hk hk'
      have h1 := ((hmem _ _).1 hk).2
      have h2 := ((hmem _ _).1 hk').2
      rw [h1] at h2
      exact absurd h2 (by decide)

end Select

/-- The best neighbour still has the message through which it is the best. -/
theorem best_message {dodag : Dodag ι} {i : ℕ} {r : UInt16} (h : IsFirstLeast (candidateRanks env n dodag) i r) :
    ∃ neighbor m, n.neighborList[i]? = some neighbor ∧ neighbor.lastDioMsg = some m ∧
      r = computeCandidateRank env n.nodeId neighbor.nodeId m ∧
      (afterFirstPass n dodag).lastDioMsg i = some m := by
  have h1 := h.1
  unfold candidateRanks at h1
  rw [List.getElem?_map] at h1
  obtain ⟨neighbor, hnb, h1⟩ := Option.map_eq_some_iff.1 h1
  obtain ⟨m, hm, h1⟩ := Option.bind_eq_some_iff.1 h1
  split at h1
  · rename_i hc
    rw [Bool.and_eq_true, Bool.not_eq_true', decide_eq_false_iff_not] at hc
    refine ⟨neighbor, m, hnb, hm, (Option.some.inj h1).symm, ?_⟩
    unfold Node.lastDioMsg afterFirstPass
    simp [List.getElem?_map, hnb, forgetHigher, hm, Option.filter, hc.2]
  · simp at h1

/-- **Where the best sum fits**, and only there, the ranks are in order after the call. -/
theorem rankOrdered_iff (h : chooseOnce env n = some (.selected n')) : n'.Ordered ↔ BestFits env n := by
  obtain ⟨dodag, i, r, hd, hbest, hr, rfl⟩ := chooseOnce_selected h
  obtain ⟨neighbor, m, hnb, hm, hrank, hafter⟩ := best_message hbest
  rw [hrank] at hr
  have hgt := computeCandidateRank_gt_iff hr
  rw [← hrank] at hr hgt
  have hlen : i < (afterFirstPass n dodag).neighborList.length := by
    have := lt_length_of_getElem? hbest.1
    simpa [candidateRanks, afterFirstPass] using this
  -- the preferred parent is a parent when its rank is below that of the node
  have hrel : relationAt r (candidateRanks env n dodag) (afterFirstPass n dodag).neighborList i = .parent ↔
      m.rank < r := by
    unfold relationAt
    have hbind : (afterFirstPass n dodag).neighborList[i]?.bind (·.lastDioMsg) = some m := hafter
    have hget : ((candidateRanks env n dodag)[i]?.join).getD infiniteRank = r := by
      rw [hbest.1]
      rfl
    rw [hbind]
    dsimp only [relationTo]
    rw [hget, if_neg (not_le.2 hr)]
    split
    · rename_i hlt
      exact ⟨fun _ => hlt, fun _ => rfl⟩
    · rename_i hlt
      refine ⟨fun h0 => ?_, fun h0 => absurd h0 hlt⟩
      split at h0 <;> exact absurd h0 (by decide)
  have hord := rankOrdered_selectParent (candidateRanks env n dodag) { dodag with parentList := [], siblingList := [] }
    i (afterFirstPass n dodag) hr
  constructor
  · rintro ⟨dodag', hd', ho⟩
    obtain rfl := Option.some.inj hd'
    have hlt := hrel.1 (hord.1 ho).2
    exact ⟨dodag, i, r, neighbor, m, hd, hbest, hnb, hm, hgt.1 hlt⟩
  · rintro ⟨dodag', i', r', neighbor', m', hd', hbest', hnb', hm', hfit⟩
    rw [hd] at hd'
    obtain rfl := Option.some.inj hd'
    obtain ⟨rfl, rfl⟩ := hbest.unique hbest'
    rw [hnb] at hnb'
    obtain rfl := Option.some.inj hnb'
    rw [hm] at hm'
    obtain rfl := Option.some.inj hm'
    exact ⟨_, rfl, hord.2 ⟨hlen, hrel.2 (hgt.2 hfit)⟩⟩

/-! ### The nested calls -/

/-- The loop ends with what it has started with or with a message that it has looked at. -/
theorem foldl_bestDioStep {m : DioMsg ι} (l : List (Neighbor ι)) (best : Option (DioMsg ι))
    (h : l.foldl (bestDioStep env n) best = some m) :
    best = some m ∨ ∃ neighbor ∈ l, neighbor.lastDioMsg = some m ∧ m.rank < infiniteRank := by
  induction l generalizing best with
  | nil => exact .inl h
  | cons neighbor l ih =>
    rcases ih _ h with hstep | ⟨nb, hnb, hm⟩
    · unfold bestDioStep at hstep
      split at hstep
      · exact .inl hstep
      · rename_i m' hm'
        split at hstep
        · rename_i hc
          obtain rfl := Option.some.inj hstep
          simp only [considered, Bool.and_eq_true, decide_eq_true_eq] at hc
          exact .inr ⟨neighbor, List.mem_cons_self, hm', hc.1.1.2⟩
        · exact .inl hstep
    · exact .inr ⟨nb, List.mem_cons_of_mem _ hnb, hm⟩

/-- Without a preferred parent the preferred message is of a neighbour that does not poison. -/
theorem getPreferred_mem {m : DioMsg ι} {same : Bool} (hp : ∀ dodag, n.joinedDodag = some dodag → dodag.prefParent = none)
    (h : getPreferredDodagDioPdu env n = some (m, same)) :
    ∃ neighbor ∈ n.neighborList, neighbor.lastDioMsg = some m ∧ m.rank < infiniteRank := by
  unfold getPreferredDodagDioPdu at h
  cases hb : bestDio env n with
  | some m' =>
    rw [hb] at h
    simp only [Option.some.injEq, Prod.mk.injEq] at h
    obtain ⟨rfl, -⟩ := h
    rcases foldl_bestDioStep _ _ hb with h0 | h1
    · exact absurd h0 (by simp)
    · exact h1
  | none =>
    have hold : (n.joinedDodag.bind fun dodag => dodag.prefParent) = none := by
      cases hd : n.joinedDodag with
      | none => rfl
      | some dodag => exact hp dodag hd
    rw [hb] at h
    simp [hold] at h

omit [DecidableEq ι] in
/-- The DODAG of a node that joins an iteration. -/
theorem joinDodagIteration_cases {m : DioMsg ι} (h : joinDodagIteration n m = some n') :
    ∃ dodag, n'.joinedDodag = some dodag ∧ n'.neighborList = n.neighborList ∧ n'.nodeId = n.nodeId ∧
      dodag.dodagId = m.dodagId ∧ dodag.seqNum = m.dtsn ∧ dodag.rank = infiniteRank ∧ dodag.prefParent = none := by
  obtain ⟨dodag, hd, rfl⟩ := Option.map_eq_some_iff.1 h
  obtain ⟨config, -, rfl⟩ := Option.map_eq_some_iff.1 hd
  exact ⟨_, rfl, rfl, rfl, rfl, rfl, rfl, rfl⟩

/-- A neighbour whose iteration the node has just joined gets a candidate rank. -/
theorem scan_ne_none {dodag : Dodag ι} {neighbor : Neighbor ι} {m : DioMsg ι} (hmem : neighbor ∈ n.neighborList)
    (hm : neighbor.lastDioMsg = some m) (hfin : m.rank < infiniteRank) (hid : dodag.dodagId = m.dodagId)
    (hseq : dodag.seqNum = m.dtsn) (hr : dodag.rank = infiniteRank) :
    scan 0 none (candidateRanks env n dodag) ≠ none := by
  intro hnone
  obtain ⟨j, hj⟩ := List.mem_iff_getElem?.1 hmem
  have hof : (ofIteration dodag m && !decide (m.rank > dodag.rank)) = true := by
    have h1 : ¬ m.rank ≥ infiniteRank := not_le.2 hfin
    have h2 : ¬ m.rank > dodag.rank := by
      rw [hr]
      exact not_lt.2 (le_of_lt hfin)
    simp [ofIteration, hid, hseq, h1, h2]
  refine scan_eq_none_iff.1 hnone j (computeCandidateRank env n.nodeId neighbor.nodeId m) ?_
  unfold candidateRanks candidateRank
  rw [List.getElem?_map, hj, Option.map_some, hm, Option.bind_some, if_pos hof]

/-- A third call does not call again: the first that follows another has no preferred parent, and the second joins the
iteration of a neighbour, which is then eligible. -/
theorem again_again {n₁ n₂ n₃ : Node ι} (h₁ : chooseOnce env n = some (.again n₁))
    (h₂ : chooseOnce env n₁ = some (.again n₂)) (h₃ : chooseOnce env n₂ = some (.again n₃)) : False := by
  obtain ⟨_, m₀, -, hj₁, -⟩ := chooseOnce_again h₁
  obtain ⟨dodag₁, hd₁, -, -, -, -, hr₁, hp₁⟩ := joinDodagIteration_cases hj₁
  obtain ⟨dodag, m₁, hd, hj₂, hwhy₂⟩ := chooseOnce_again h₂
  rw [hd₁] at hd
  obtain rfl := Option.some.inj hd
  obtain ⟨dodag₂, hd₂, hl₂, hid₂, hi₂, hs₂, hr₂, hp₂⟩ := joinDodagIteration_cases hj₂
  rcases hwhy₂ with hwhy₂ | ⟨-, hpref⟩
  · exact hwhy₂ hp₁
  have hnone : ∀ dodag, (afterFirstPass n₁ dodag₁).joinedDodag = some dodag → dodag.prefParent = none := by
    intro dodag hdodag
    obtain rfl := Option.some.inj hdodag
    exact hp₁
  obtain ⟨neighbor, hmem, hm, hfin⟩ := getPreferred_mem hnone hpref
  rw [← hl₂] at hmem
  obtain ⟨dodag, m₂, hd, -, hwhy₃⟩ := chooseOnce_again h₃
  rw [hd₂] at hd
  obtain rfl := Option.some.inj hd
  rcases hwhy₃ with hwhy₃ | ⟨hscan, -⟩
  · exact hwhy₃ hp₂
  · exact scan_ne_none hmem hm hfin hi₂ hs₂ hr₂ hscan

/-- **Three nested calls are enough.** -/
theorem chooseParentsAndSiblings_settles (env : Environment ι) (n n' : Node ι) :
    chooseParentsAndSiblings env n ≠ some (.again n') := by
  intro h
  unfold chooseParentsAndSiblings at h
  unfold chooseUpTo at h
  split at h
  · rename_i n₁ h₁
    unfold chooseUpTo at h
    split at h
    · rename_i n₂ h₂
      unfold chooseUpTo at h
      split at h
      · rename_i n₃ h₃
        exact again_again h₁ h₂ h₃
      · rename_i hlast
        exact hlast n' h
    · rename_i hlast
      exact hlast n' h
  · rename_i hlast
    exact hlast n' h

/-- The node of a nested call. -/
def Follows (env : Environment ι) : Node ι → Node ι → Prop :=
  Relation.ReflTransGen fun n n' => chooseOnce env n = some (.again n')

/-- A preferred parent is selected by the call itself or by a nested one. -/
theorem chooseUpTo_selected {fuel : ℕ} (h : chooseUpTo env fuel n = some (.selected n')) :
    ∃ n₀, Follows env n n₀ ∧ chooseOnce env n₀ = some (.selected n') := by
  induction fuel generalizing n with
  | zero => exact absurd h (by simp [chooseUpTo])
  | succ fuel ih =>
    unfold chooseUpTo at h
    split at h
    · rename_i n₁ h₁
      obtain ⟨n₀, hf, hs⟩ := ih h
      exact ⟨n₀, .head h₁ hf, hs⟩
    · exact ⟨n, .refl, h⟩

/-! ### The preferred parents -/

/-- The node `u` is the preferred parent of `v`. -/
def PreferredParent (nodes : ℕ → Node ι) (v u : ℕ) : Prop :=
  ∃ dodag p, (nodes v).joinedDodag = some dodag ∧ dodag.prefParent = some p ∧
    (nodes v).neighborList[p]?.map (·.nodeId) = some u

/-- What a node knows of its preferred parent is the rank that the parent has. -/
def UpToDate (nodes : ℕ → Node ι) : Prop :=
  ∀ v dodag p neighbor m, (nodes v).joinedDodag = some dodag → dodag.prefParent = some p →
    (nodes v).neighborList[p]? = some neighbor → neighbor.lastDioMsg = some m →
    ∀ dodag', (nodes neighbor.nodeId).joinedDodag = some dodag' → dodag'.rank = m.rank

/-- The rank of a node in its DODAG. -/
def Node.dodagRank (n : Node ι) : ℕ := (n.joinedDodag.map fun dodag => dodag.rank.toNat).getD 0

omit [DecidableEq ι] in
/-- **No cycle** of preferred parents where the ranks are in order and known. -/
theorem acyclic_of_ordered {nodes : ℕ → Node ι} (hup : UpToDate nodes)
    (hord : ∀ v u, PreferredParent nodes v u → (nodes v).Ordered) : LoopFree.Acyclic (PreferredParent nodes) := by
  refine LoopFree.acyclic_of_progress (K := ℕ) (fun _ => 0) (fun v => (nodes v).dodagRank) ?_
  intro v u w hvu huw
  refine .inr ⟨rfl, ?_⟩
  obtain ⟨dodag, ho, hr⟩ := hord v u hvu
  obtain ⟨dodag₁, p, hd, hp, hnb⟩ := hvu
  rw [ho] at hd
  obtain rfl := Option.some.inj hd
  obtain ⟨neighbor, hget, rfl⟩ := Option.map_eq_some_iff.1 hnb
  obtain ⟨q, hq, hin⟩ := hr.preferred
  rw [hp] at hq
  obtain rfl := Option.some.inj hq
  obtain ⟨m, hm, hlt⟩ := hr.parents p hin
  have hm' : neighbor.lastDioMsg = some m := by
    unfold Node.lastDioMsg at hm
    rwa [hget] at hm
  -- the parent has a parent of its own, so it is in a DODAG
  obtain ⟨dodag', -, hd', -, -⟩ := huw
  have hrank := hup v dodag p neighbor m ho hp hget hm' dodag' hd'
  unfold Node.dodagRank
  rw [ho, hd']
  have hlt' := UInt16.lt_iff_toNat_lt.1 hlt
  rw [← hrank] at hlt'
  exact hlt'

/-- **The rank increases away from the root.** The ranks are in order after a preferred parent has been selected if and
only if the sum of the best neighbour fits in the call that selects; and where that is so for all nodes whose knowledge
of their parents is up to date, the preferred parents form no cycle. -/
theorem rank_increases (env : Environment ι) :
    (∀ n n' : Node ι, chooseParentsAndSiblings env n = some (.selected n') →
      ∃ n₀, Follows env n n₀ ∧ chooseOnce env n₀ = some (.selected n') ∧ (n'.Ordered ↔ BestFits env n₀)) ∧
    ∀ nodes : ℕ → Node ι, UpToDate nodes →
      (∀ v u, PreferredParent nodes v u →
        ∃ n₀, chooseOnce env n₀ = some (.selected (nodes v)) ∧ BestFits env n₀) →
      LoopFree.Acyclic (PreferredParent nodes) := by
  constructor
  · intro n n' h
    obtain ⟨n₀, hf, hs⟩ := chooseUpTo_selected h
    exact ⟨n₀, hf, hs, rankOrdered_iff hs⟩
  · intro nodes hup hsel
    refine acyclic_of_ordered hup fun v u hvu => ?_
    obtain ⟨n₀, hs, hfit⟩ := hsel v u hvu
    exact (rankOrdered_iff hs).2 hfit

/-! ### Samples -/

/-- All links are of the best quality, or all of the worst. -/
def uniformEnvironment (best : Bool) : Environment ℕ where
  rplNodeIsJoined n := n.joinedDodag.isSome
  rplNodeIsPoisoning _ := false
  linkQuality _ _ := if best then 1 else 0
  linkQuality_nonneg _ _ := by split <;> norm_num
  linkQuality_le_one _ _ := by split <;> norm_num

def sampleOption : DodagConfigOption := ⟨8, 3, 10, 7, 1⟩

/-- A node of the DODAG `7`, with the ranks that it knows of its neighbours. -/
def sampleNode (nodeId : ℕ) (rank : UInt16) (neighbors : List (ℕ × Option UInt16)) : Node ℕ where
  nodeId := nodeId
  address := 100 + nodeId
  rootInfo := ⟨none, 0, false⟩
  joinedDodag := some ⟨7, .last 7, true, sampleOption, 1, rank, rank, [], [], none⟩
  neighborList := neighbors.map fun neighbor =>
    ⟨neighbor.1, neighbor.2.map fun rank => ⟨0, rank, true, .last 7, 1, 7, some sampleOption⟩⟩
  poisonCountSoFar := 0
  routeToParent := none

/-- The nodes `1` and `3` before they select a parent. -/
def joiningNode (v : ℕ) : Node ℕ :=
  sampleNode v infiniteRank (if v = 1 then [(3, some 5), (2, some 1), (4, some 2)] else [(4, some 7), (1, some 2)])

/-- The node `1` has the parent `2` and the sibling `4`, and the node `3` has the parent `1`. The others have rank 1. -/
def sampleNetwork (v : ℕ) : Node ℕ :=
  if v = 1 then
    { sampleNode 1 2 [(3, none), (2, some 1), (4, some 2)] with
      joinedDodag := some ⟨7, .last 7, true, sampleOption, 1, 2, 2, [1], [2], some 1⟩
      routeToParent := some 2 }
  else if v = 3 then
    { sampleNode 3 3 [(4, none), (1, some 2)] with
      joinedDodag := some ⟨7, .last 7, true, sampleOption, 1, 3, 3, [1], [], some 1⟩
      routeToParent := some 1 }
  else sampleNode v 1 []

theorem joiningNode_selects {v : ℕ} (hv : v = 1 ∨ v = 3) :
    chooseOnce (uniformEnvironment true) (joiningNode v) = some (.selected (sampleNetwork v)) := by
  rcases hv with rfl | rfl <;> decide +kernel

theorem joiningNode_fits {v : ℕ} (hv : v = 1 ∨ v = 3) : BestFits (uniformEnvironment true) (joiningNode v) := by
  rcases hv with rfl | rfl
  · exact ⟨_, 1, 2, _, _, rfl, scan_eq_some_iff.1 (by decide +kernel), rfl, rfl, by decide +kernel⟩
  · exact ⟨_, 1, 3, _, _, rfl, scan_eq_some_iff.1 (by decide +kernel), rfl, rfl, by decide +kernel⟩

theorem sampleNetwork_prefParent {v p : ℕ} {dodag : Dodag ℕ} (hd : (sampleNetwork v).joinedDodag = some dodag)
    (hp : dodag.prefParent = some p) : v = 1 ∨ v = 3 := by
  by_contra hv
  obtain ⟨h1, h3⟩ := not_or.1 hv
  unfold sampleNetwork at hd
  rw [if_neg h1, if_neg h3] at hd
  obtain rfl := Option.some.inj hd
  cases hp

theorem sampleNetwork_upToDate : UpToDate sampleNetwork := by
  intro v dodag p neighbor m hd hp hnb hm dodag' hd'
  rcases sampleNetwork_prefParent hd hp with rfl | rfl
  all_goals
    obtain rfl := Option.some.inj hd
    obtain rfl := Option.some.inj hp
    obtain rfl := Option.some.inj hnb
    obtain rfl := Option.some.inj hm
    obtain rfl := Option.some.inj hd'
    rfl

/-- A network where two nodes have parents in the DODAG. -/
theorem rank_increases_sample :
    let env := uniformEnvironment true
    (∃ n₀, Follows env (joiningNode 1) n₀ ∧ chooseOnce env n₀ = some (.selected (sampleNetwork 1)) ∧
      ((sampleNetwork 1).Ordered ↔ BestFits env n₀)) ∧
    LoopFree.Acyclic (PreferredParent sampleNetwork) := by
  refine ⟨(rank_increases _).1 _ _ ?_, (rank_increases (uniformEnvironment true)).2 _ sampleNetwork_upToDate ?_⟩
  · decide +kernel
  · rintro v u ⟨dodag, p, hd, hp, -⟩
    have hv := sampleNetwork_prefParent hd hp
    exact ⟨joiningNode v, joiningNode_selects hv, joiningNode_fits hv⟩

/-- **A neighbour of rank 65530 over the worst link** gives the rank 10: the node takes it as its preferred parent and
forgets its message, since its rank is the greater one. -/
theorem rank_overflow :
    ¬ ∀ n n' : Node ℕ, chooseParentsAndSiblings (uniformEnvironment false) n =
      some (.selected n') → n'.Ordered := by
  intro hall
  have hsel : chooseParentsAndSiblings (uniformEnvironment false) (sampleNode 1 infiniteRank [(2, some 65530)]) =
      some (.selected { sampleNode 1 infiniteRank [(2, some 65530)] with
        joinedDodag := some ⟨7, .last 7, true, sampleOption, 1, 10, 10, [], [], some 0⟩
        neighborList := [⟨2, none⟩]
        routeToParent := some 2 }) := by decide +kernel
  obtain ⟨dodag, hd, hord⟩ := hall _ _ hsel
  obtain ⟨p, -, hp⟩ := hord.preferred
  obtain rfl := Option.some.inj hd
  exact absurd hp List.not_mem_nil

end NetSim.Rpl
