import NetSim.Proof.MprHeuristic
import NetSim.Spec.OlsrHello

/-!
# The sets of an OLSR node in every run

* `SetsOk`: the neighbours are those of the links, and every two-hop tuple names one of them.
* `NdpInv.receive`, `NdpInv.expire`: a HELLO and an expiry keep the sets in order.
* `ndp_run`: nothing goes wrong in any run, and the relays chosen reach every strict two-hop neighbour.
-/

namespace NetSim.Olsr

variable {α : Type} [DecidableEq α] {s s' : NodeOlsr α} {n n' : NdpNode α} {now : ℚ}
  {mainAddress nwAddress address : α} {n2 : List (TwoHopTuple α)}

/-! ## The relays -/

/-- The relays reach every tuple that the selection starts from. -/
theorem populateMprSet_reaches (hfill : fill2HopNeighbor now s = some n2)
    (hvia : ∀ t ∈ n2, ∃ y ∈ fillNeighbor s, y.neighborMainAddr = t.neighborMainAddr) :
    ∃ s', Loop.Gives (fun rounds => populateMprSet rounds now s) s' ∧
      ∀ t ∈ n2, ∃ t' ∈ n2, t'.neighborMainAddr ∈ s'.mprSet ∧ t'.twoHopAddr = t.twoHopAddr := by
  obtain ⟨k, s₁, hfirst, hs₁⟩ := soleRound_halts (s := ⟨n2, 0, [], s.isRoutingTableUpdate⟩) hvia (Cover.Partial.start n2)
  obtain ⟨m, s₂, hsecond, hs₂, hnil⟩ := restRound_halts (d := calculateDegree (fillNeighbor s) n2) hvia hs₁
  refine ⟨markMpr { s with mprSet := s₂.mprSet, isRoutingTableUpdate := s₂.isRoutingTableUpdate }, ?_, fun t ht => ?_⟩
  · have hgives₁ : Loop.Gives (fun rounds => Loop.run (soleRound (fillNeighbor s)) rounds ⟨n2, 0, [], s.isRoutingTableUpdate⟩) s₁ :=
      ⟨⟨k, fun m hm => Loop.run_of_le hfirst hm⟩, fun m b hb => Loop.run_unique hb hfirst⟩
    have hgives₂ : Loop.Gives (fun rounds => (Loop.run (restRound (fillNeighbor s) (calculateDegree (fillNeighbor s) n2))
        rounds s₁).join) s₂ := by
      refine ⟨⟨m, fun k hk => ?_⟩, fun k b hb => ?_⟩
      · rw [Loop.run_of_le hsecond hk]
        rfl
      · exact Option.some.inj (Loop.run_unique (Option.join_eq_some_iff.1 hb) hsecond)
    unfold populateMprSet
    simp only [hfill, Option.bind_eq_bind, Option.bind_some]
    exact hgives₁.bind (hgives₂.bind (Loop.Gives.const _))
  · obtain ⟨t', ht', hchosen, heq⟩ := hs₂.covers hnil ht
    exact ⟨t', ht', hchosen, heq⟩

/-- What every round of a loop over a list leaves as it is. -/
theorem map_foldl_keeps {β γ δ : Type} {f : List β → γ → List β} {g : β → δ} (h : ∀ x c, (f x c).map g = x.map g) (l : List γ)
    (x : List β) : (l.foldl f x).map g = x.map g := by
  induction l generalizing x with
  | nil => rfl
  | cons c l ih => exact (ih (f x c)).trans (h x c)

/-- What the selection leaves as it is. -/
theorem populateMprSet_keeps {rounds : ℕ} (h : populateMprSet rounds now s = some s') :
    s'.linkSet = s.linkSet ∧ s'.twoHopNeighborSet = s.twoHopNeighborSet ∧
      (s'.neighborSet.map fun y => (y.neighborMainAddr, y.willingness)) =
        s.neighborSet.map fun y => (y.neighborMainAddr, y.willingness) := by
  unfold populateMprSet at h
  simp only [Option.bind_eq_bind, Option.bind_eq_some_iff] at h
  obtain ⟨n2, -, s₁, -, s₂, -, hs'⟩ := h
  rw [← Option.some.inj hs']
  exact ⟨rfl, rfl, map_foldl_keeps (fun x c => FirstMatch.map_updateFirst (by intro y; rfl) 1 x) s₂.mprSet s.neighborSet⟩

/-- **The relays cover**: each strict two-hop neighbour is the neighbour of a relay. -/
def Covers (now : ℚ) (s : NodeOlsr α) : Prop :=
  ∀ x, StrictTwoHop now s x → ∃ t ∈ s.twoHopNeighborSet, t.twoHopAddr = x ∧ t.neighborMainAddr ∈ s.mprSet

/-! ## The sets -/

abbrev linkAddrs (s : NodeOlsr α) : List α := s.linkSet.map LinkTuple.neighborIfaceAddr

abbrev neighborAddrs (s : NodeOlsr α) : List α := s.neighborSet.map NeighborTuple.neighborMainAddr

/-- The neighbour and the two-hop neighbour of each tuple. -/
abbrev twoHopPairs (s : NodeOlsr α) : List (α × α) := s.twoHopNeighborSet.map fun t => (t.neighborMainAddr, t.twoHopAddr)

/-- **The sets are in order**: one link for each neighbour, and two-hop tuples of neighbours only, none twice and none of the
node itself. -/
structure SetsOk (mainAddress : α) (s : NodeOlsr α) : Prop where
  neighbors : neighborAddrs s = linkAddrs s
  distinct : (linkAddrs s).Nodup
  twoHop : ∀ q ∈ twoHopPairs s, q.1 ∈ linkAddrs s ∧ q.2 ≠ mainAddress
  pairs : (twoHopPairs s).Nodup

/-- The sets are in order, and each link has one expiry event, and no event is for anything else. -/
structure NdpInv (n : NdpNode α) : Prop where
  sets : SetsOk n.mainAddress n.olsr
  events : (n.events.map Prod.fst).Perm (linkAddrs n.olsr)

theorem findLinkSet_isSome_iff (l : List (LinkTuple α)) (a : α) :
    (findLinkSet l a).isSome = true ↔ a ∈ l.map LinkTuple.neighborIfaceAddr := by
  unfold findLinkSet
  rw [List.find?_isSome, List.mem_map]
  exact exists_congr fun x => and_congr_right fun _ => decide_eq_true_iff

theorem findNeighborSet_isSome_iff (l : List (NeighborTuple α)) (a : α) :
    (findNeighborSet l a).isSome = true ↔ a ∈ l.map NeighborTuple.neighborMainAddr := by
  unfold findNeighborSet
  rw [List.find?_isSome, List.mem_map]
  exact exists_congr fun x => and_congr_right fun _ => decide_eq_true_iff

/-! ## A HELLO -/

theorem populateLinkSet_cases (now : ℚ) (hello : Hello α) (n : NdpNode α) :
    (populateLinkSet now hello n).mainAddress = n.mainAddress ∧
      (populateLinkSet now hello n).olsr.neighborSet = n.olsr.neighborSet ∧
      (populateLinkSet now hello n).olsr.twoHopNeighborSet = n.olsr.twoHopNeighborSet ∧
      (linkAddrs (populateLinkSet now hello n).olsr = linkAddrs n.olsr ∧ (populateLinkSet now hello n).events = n.events ∨
        hello.szSourceIp ∉ linkAddrs n.olsr ∧ linkAddrs (populateLinkSet now hello n).olsr = linkAddrs n.olsr ++ [hello.szSourceIp] ∧
          (populateLinkSet now hello n).events.map Prod.fst = n.events.map Prod.fst ++ [hello.szSourceIp]) := by
  unfold populateLinkSet
  dsimp only
  split
  · exact ⟨rfl, rfl, rfl, .inl ⟨FirstMatch.map_updateFirst (by intro link; rfl) 1 n.olsr.linkSet, rfl⟩⟩
  · rename_i hnew
    exact ⟨rfl, rfl, rfl, .inr ⟨mt (findLinkSet_isSome_iff _ _).2 hnew, List.map_append, List.map_append⟩⟩

theorem addNeighbor_addrs (now : ℚ) (s : NodeOlsr α) (link : LinkTuple α) :
    neighborAddrs (addNeighbor now s link) =
      if link.neighborIfaceAddr ∈ neighborAddrs s then neighborAddrs s else neighborAddrs s ++ [link.neighborIfaceAddr] := by
  unfold addNeighbor neighborAddrs
  dsimp only
  refine (FirstMatch.map_updateFirst (by intro y; rfl) 1 _).trans ?_
  by_cases hmem : link.neighborIfaceAddr ∈ s.neighborSet.map NeighborTuple.neighborMainAddr
  · rw [if_pos hmem, if_pos ((findNeighborSet_isSome_iff _ _).2 hmem)]
  · rw [if_neg hmem, if_neg (mt (findNeighborSet_isSome_iff _ _).1 hmem), List.map_append]
    rfl

/-- **The first loop** adds the neighbours of the links that have none. -/
theorem foldl_addNeighbor (now : ℚ) {l : List (LinkTuple α)} (hl : (l.map LinkTuple.neighborIfaceAddr).Nodup) (s : NodeOlsr α) :
    neighborAddrs (l.foldl (addNeighbor now) s) =
      neighborAddrs s ++ (l.map LinkTuple.neighborIfaceAddr).filter fun a => a ∉ neighborAddrs s := by
  induction l generalizing s with
  | nil => exact (List.append_nil _).symm
  | cons link l ih =>
    obtain ⟨hnew, hl⟩ := List.nodup_cons.1 hl
    rw [List.foldl_cons, ih hl, addNeighbor_addrs, List.map_cons]
    by_cases hmem : link.neighborIfaceAddr ∈ neighborAddrs s
    · rw [if_pos hmem, List.filter_cons, if_neg fun h => (of_decide_eq_true h : link.neighborIfaceAddr ∉ neighborAddrs s) hmem]
    · rw [if_neg hmem, List.filter_cons, if_pos (decide_eq_true hmem), List.append_assoc, List.singleton_append]
      congr 2
      refine List.filter_congr fun a ha => ?_
      rw [decide_eq_decide, List.mem_append, List.mem_singleton]
      constructor
      · exact fun h hin => h (.inl hin)
      · exact fun h hin => hin.elim h fun heq => hnew (heq ▸ ha)

theorem foldl_addNeighbor_keeps (now : ℚ) (l : List (LinkTuple α)) (s : NodeOlsr α) :
    (l.foldl (addNeighbor now) s).linkSet = s.linkSet ∧
      (l.foldl (addNeighbor now) s).twoHopNeighborSet = s.twoHopNeighborSet := by
  induction l generalizing s with
  | nil => exact ⟨rfl, rfl⟩
  | cons link l ih => exact ih (addNeighbor now s link)

/-- **The neighbours** become those of the links, and none is without a link. -/
theorem populateNeighborSet_spec (now : ℚ) (hello : Hello α) (hdistinct : (linkAddrs s).Nodup)
    (hstart : neighborAddrs s <+: linkAddrs s) : ∃ s', populateNeighborSet now hello s = some s' ∧
      neighborAddrs s' = linkAddrs s ∧ s'.linkSet = s.linkSet ∧ s'.twoHopNeighborSet = s.twoHopNeighborSet := by
  obtain ⟨extra, hextra⟩ := hstart
  have hadded : neighborAddrs (s.linkSet.foldl (addNeighbor now) s) = linkAddrs s := by
    rw [foldl_addNeighbor now hdistinct s]
    have hsplit : (linkAddrs s).filter (fun a => a ∉ neighborAddrs s) = extra := by
      rw [← hextra] at hdistinct ⊢
      obtain ⟨-, -, hdisjoint⟩ := List.nodup_append.1 hdistinct
      rw [List.filter_append, List.filter_eq_nil_iff.2 fun a ha h => (of_decide_eq_true h : a ∉ neighborAddrs s) ha,
        List.nil_append]
      exact List.filter_eq_self.2 fun a ha => decide_eq_true fun hin => hdisjoint a hin a ha rfl
    rw [hsplit, hextra]
  obtain ⟨hlinks, htwoHop⟩ := foldl_addNeighbor_keeps now s.linkSet s
  have hall : ((s.linkSet.foldl (addNeighbor now) s).neighborSet.all fun neighbor =>
      (findLinkSet (s.linkSet.foldl (addNeighbor now) s).linkSet neighbor.neighborMainAddr).isSome) = true := by
    refine List.all_eq_true.2 fun y hy => (findLinkSet_isSome_iff _ _).2 ?_
    have hmem : y.neighborMainAddr ∈ neighborAddrs (s.linkSet.foldl (addNeighbor now) s) := List.mem_map_of_mem hy
    rw [hadded] at hmem
    rw [hlinks]
    exact hmem
  refine ⟨_, if_pos hall, ?_, hlinks, htwoHop⟩
  have hsame := map_foldl_keeps (f := setWillingness hello.willingness) (g := NeighborTuple.neighborMainAddr)
    (fun x c => FirstMatch.map_updateFirst (by intro y; rfl) 1 x) hello.link (s.linkSet.foldl (addNeighbor now) s).neighborSet
  exact hsame.trans hadded

/-- What the loop over the links of a HELLO keeps of the two-hop tuples. -/
structure TwoHopOk (addrs : List α) (mainAddress : α) (s : NodeOlsr α) : Prop where
  twoHop : ∀ q ∈ twoHopPairs s, q.1 ∈ addrs ∧ q.2 ≠ mainAddress
  pairs : (twoHopPairs s).Nodup

omit [DecidableEq α] in
theorem TwoHopOk.of_pairs {addrs : List α} (h : TwoHopOk addrs mainAddress s) (heq : twoHopPairs s' = twoHopPairs s) :
    TwoHopOk addrs mainAddress s' where
  twoHop q hq := h.twoHop q (heq ▸ hq)
  pairs := heq ▸ h.pairs

theorem mem_twoHopPairs_isSome {twoHop : α} (hmem : (address, twoHop) ∈ twoHopPairs s) :
    (s.twoHopNeighborSet.find? (isTwoHop address twoHop)).isSome := by
  obtain ⟨t, ht, heq⟩ := List.mem_map.1 hmem
  obtain ⟨hvia, htwoHop⟩ := Prod.mk.inj heq
  refine List.find?_isSome.2 ⟨t, ht, ?_⟩
  unfold isTwoHop
  rw [decide_eq_true hvia, decide_eq_true htwoHop]
  rfl

theorem TwoHopOk.addTwoHop {addrs : List α} (h : TwoHopOk addrs mainAddress s) (haddress : address ∈ addrs) (time : ℚ)
    (linkInfo : LinkInfo α) : TwoHopOk addrs mainAddress (addTwoHop time address mainAddress s linkInfo) := by
  unfold Olsr.addTwoHop
  dsimp only
  split
  · have hsub : (s.twoHopNeighborSet.eraseP (isTwoHop address linkInfo.neighborInterfaceAddress)).Sublist s.twoHopNeighborSet :=
      List.eraseP_sublist
    exact ⟨fun q hq => h.twoHop q ((hsub.map _).subset hq), h.pairs.sublist (hsub.map _)⟩
  · split
    · exact h
    · rename_i hother
      split
      · exact h.of_pairs (FirstMatch.map_updateFirst (by intro t; rfl) 1 s.twoHopNeighborSet)
      · rename_i hnew
        have happend : twoHopPairs { s with
            twoHopNeighborSet := s.twoHopNeighborSet ++ [⟨address, linkInfo.neighborInterfaceAddress, time⟩]
            isRoutingTableUpdate := true } = twoHopPairs s ++ [(address, linkInfo.neighborInterfaceAddress)] := List.map_append
        have habsent : (address, linkInfo.neighborInterfaceAddress) ∉ twoHopPairs s :=
          fun hmem => hnew (mem_twoHopPairs_isSome hmem)
        refine ⟨fun q hq => ?_, ?_⟩
        · rw [happend] at hq
          rcases List.mem_append.1 hq with hq | hq
          · exact h.twoHop q hq
          · rw [List.mem_singleton.1 hq]
            exact ⟨haddress, hother⟩
        · rw [happend]
          exact List.nodup_append.2 ⟨h.pairs, List.nodup_cons.2 ⟨List.not_mem_nil, List.nodup_nil⟩,
            fun x hx y hy heq => habsent (List.mem_singleton.1 hy ▸ heq ▸ hx)⟩

theorem addTwoHop_keeps (time : ℚ) (address mainAddress : α) (s : NodeOlsr α) (linkInfo : LinkInfo α) :
    (addTwoHop time address mainAddress s linkInfo).linkSet = s.linkSet ∧
      (addTwoHop time address mainAddress s linkInfo).neighborSet = s.neighborSet := by
  unfold addTwoHop
  dsimp only
  split
  · exact ⟨rfl, rfl⟩
  · split
    · exact ⟨rfl, rfl⟩
    · split
      · exact ⟨rfl, rfl⟩
      · exact ⟨rfl, rfl⟩

theorem foldl_addTwoHop_keeps (time : ℚ) (address mainAddress : α) (links : List (LinkInfo α)) (s : NodeOlsr α) :
    (links.foldl (addTwoHop time address mainAddress) s).linkSet = s.linkSet ∧
      (links.foldl (addTwoHop time address mainAddress) s).neighborSet = s.neighborSet := by
  induction links generalizing s with
  | nil => exact ⟨rfl, rfl⟩
  | cons linkInfo links ih =>
    obtain ⟨hlinks, hneighbors⟩ := addTwoHop_keeps time address mainAddress s linkInfo
    exact ⟨(ih _).1.trans hlinks, (ih _).2.trans hneighbors⟩

theorem populateTwoHopNeighbor_keeps (now : ℚ) (hello : Hello α) (mainAddress : α) (s : NodeOlsr α) :
    (populateTwoHopNeighbor now hello mainAddress s).linkSet = s.linkSet ∧
      (populateTwoHopNeighbor now hello mainAddress s).neighborSet = s.neighborSet := by
  unfold populateTwoHopNeighbor
  split
  · exact foldl_addTwoHop_keeps _ _ mainAddress _ s
  · exact ⟨rfl, rfl⟩

theorem TwoHopOk.foldl_addTwoHop {links : List α} (h : TwoHopOk links mainAddress s) (haddress : address ∈ links) (time : ℚ)
    (l : List (LinkInfo α)) : TwoHopOk links mainAddress (l.foldl (Olsr.addTwoHop time address mainAddress) s) := by
  induction l generalizing s with
  | nil => exact h
  | cons linkInfo l ih => exact ih (h.addTwoHop haddress time linkInfo)

/-- **The two-hop tuples** stay in order, whatever a HELLO lists. -/
theorem SetsOk.populateTwoHopNeighbor (h : SetsOk mainAddress s) (now : ℚ) (hello : Hello α) :
    SetsOk mainAddress (populateTwoHopNeighbor now hello mainAddress s) := by
  obtain ⟨hlinks, hneighbors⟩ := populateTwoHopNeighbor_keeps now hello mainAddress s
  have hok : TwoHopOk (linkAddrs s) mainAddress (Olsr.populateTwoHopNeighbor now hello mainAddress s) := by
    unfold Olsr.populateTwoHopNeighbor
    split
    case isTrue hlink =>
      refine TwoHopOk.foldl_addTwoHop ⟨h.twoHop, h.pairs⟩ ((findLinkSet_isSome_iff _ _).1 ?_) _ _
      cases hfound : findLinkSet s.linkSet hello.originatorAddress with
      | none =>
        rw [hfound] at hlink
        cases hlink
      | some link => rfl
    case isFalse => exact ⟨h.twoHop, h.pairs⟩
  refine ⟨?_, ?_, ?_, hok.pairs⟩
  · unfold neighborAddrs linkAddrs
    rw [hneighbors, hlinks]
    exact h.neighbors
  · unfold linkAddrs
    rw [hlinks]
    exact h.distinct
  · intro q hq
    unfold linkAddrs
    rw [hlinks]
    exact hok.twoHop q hq

/-- **The sets of a HELLO** are filled without an error. -/
theorem NdpInv.populateSets (h : NdpInv n) (now : ℚ) (hello : Hello α) : ∃ n', populateSets now hello n = some n' ∧ NdpInv n' := by
  obtain ⟨hmain, hneighbors, htwoHop, hcases⟩ := populateLinkSet_cases now hello n
  unfold Olsr.populateSets
  dsimp only
  set m := populateLinkSet now hello n with hm
  have hlinks : (linkAddrs m.olsr).Nodup ∧ neighborAddrs m.olsr <+: linkAddrs m.olsr ∧
      (∀ a ∈ linkAddrs n.olsr, a ∈ linkAddrs m.olsr) ∧ (m.events.map Prod.fst).Perm (linkAddrs m.olsr) := by
    have hold : neighborAddrs m.olsr = linkAddrs n.olsr := by
      unfold neighborAddrs
      rw [hneighbors]
      exact h.sets.neighbors
    rcases hcases with ⟨hsame, hevents⟩ | ⟨hnew, happend, hevents⟩
    · rw [hold, hsame, hevents]
      exact ⟨h.sets.distinct, List.prefix_refl _, fun a ha => ha, h.events⟩
    · rw [hold, happend, hevents]
      refine ⟨?_, List.prefix_append _ _, fun a ha => List.mem_append_left _ ha, h.events.append_right _⟩
      exact List.nodup_append.2 ⟨h.sets.distinct, List.nodup_cons.2 ⟨List.not_mem_nil, List.nodup_nil⟩,
        fun x hx y hy heq => hnew (List.mem_singleton.1 hy ▸ heq ▸ hx)⟩
  obtain ⟨hdistinct, hstart, hmore, hevents⟩ := hlinks
  obtain ⟨s', hresult, haddrs, hlinkSet, htwoHopSet⟩ := populateNeighborSet_spec now hello hdistinct hstart
  have hlinkAddrs : linkAddrs s' = linkAddrs m.olsr := by
    unfold linkAddrs
    rw [hlinkSet]
  have hpairs : twoHopPairs s' = twoHopPairs n.olsr := by
    unfold twoHopPairs
    rw [htwoHopSet, htwoHop]
  have hok : SetsOk m.mainAddress s' := by
    refine ⟨haddrs.trans hlinkAddrs.symm, hlinkAddrs ▸ hdistinct, fun q hq => ?_, hpairs ▸ h.sets.pairs⟩
    rw [hpairs] at hq
    rw [hlinkAddrs, hmain]
    exact ⟨hmore _ (h.sets.twoHop q hq).1, (h.sets.twoHop q hq).2⟩
  rw [hresult, Option.map_some]
  refine ⟨_, rfl, hok.populateTwoHopNeighbor now hello, ?_⟩
  dsimp only
  unfold linkAddrs
  rw [(populateTwoHopNeighbor_keeps now hello m.mainAddress s').1, hlinkSet]
  exact hevents

/-- **A HELLO** is processed without an error, keeps the sets in order, and the relays cover the two-hop neighbours. -/
theorem NdpInv.receive (h : NdpInv n) (now : ℚ) (hello : Hello α) :
    ∃ n', Loop.Gives (receiveHello now hello n) n' ∧ NdpInv n' ∧ Covers now n'.olsr := by
  obtain ⟨m, hm, hinv⟩ := h.populateSets now hello
  have hvia : ∀ t ∈ m.olsr.twoHopNeighborSet, ∃ y ∈ m.olsr.neighborSet, y.neighborMainAddr = t.neighborMainAddr := by
    intro t ht
    have hmem : t.neighborMainAddr ∈ neighborAddrs m.olsr := by
      rw [hinv.sets.neighbors]
      exact (hinv.sets.twoHop _ (List.mem_map_of_mem ht)).1
    exact List.mem_map.1 hmem
  have hfill : fill2HopNeighbor now m.olsr = some (filledTuples now m.olsr) := fill2HopNeighbor_iff.2 ⟨hvia, rfl⟩
  obtain ⟨s', hgives, hreach⟩ := populateMprSet_reaches hfill fun t ht => exists_fillNeighbor ht
  obtain ⟨k, hk⟩ := hgives.enough
  obtain ⟨hlinkSet, htwoHopSet, hneighborSet⟩ := populateMprSet_keeps (hk k (le_refl k))
  have haddrs : neighborAddrs s' = neighborAddrs m.olsr := by
    have hfst := congrArg (List.map Prod.fst) hneighborSet
    rw [List.map_map, List.map_map] at hfst
    exact hfst
  refine ⟨finishHello now hello m s', ?_, ⟨⟨?_, ?_, ?_, ?_⟩, ?_⟩, ?_⟩
  · unfold receiveHello
    rw [hm]
    exact hgives.map (finishHello now hello m)
  · unfold finishHello linkAddrs
    dsimp only
    rw [hlinkSet]
    exact haddrs.trans hinv.sets.neighbors
  · unfold finishHello linkAddrs
    dsimp only
    rw [hlinkSet]
    exact hinv.sets.distinct
  · unfold finishHello linkAddrs twoHopPairs
    dsimp only
    rw [hlinkSet, htwoHopSet]
    exact hinv.sets.twoHop
  · unfold finishHello twoHopPairs
    dsimp only
    rw [htwoHopSet]
    exact hinv.sets.pairs
  · unfold finishHello linkAddrs
    dsimp only
    rw [hlinkSet]
    exact hinv.events
  · rintro x ⟨hnot, hlink, t, ht, rfl, y, hy, hya, hwill⟩
    unfold finishHello at hnot hlink ht hy ⊢
    dsimp only at hnot hlink ht hy ⊢
    rw [htwoHopSet] at ht ⊢
    rw [hlinkSet] at hlink
    have hpair : (y.neighborMainAddr, y.willingness) ∈ m.olsr.neighborSet.map fun y => (y.neighborMainAddr, y.willingness) := by
      rw [← hneighborSet]
      exact List.mem_map_of_mem hy
    obtain ⟨z, hz, hzy⟩ := List.mem_map.1 hpair
    obtain ⟨hza, hzw⟩ := Prod.mk.inj hzy
    have hother : ∀ y ∈ m.olsr.neighborSet, y.neighborMainAddr ≠ t.twoHopAddr := by
      intro y hy heq
      have hmem : y.neighborMainAddr ∈ neighborAddrs s' := by
        rw [haddrs]
        exact List.mem_map_of_mem hy
      obtain ⟨w, hw, hwy⟩ := List.mem_map.1 hmem
      exact hnot w hw (hwy.trans heq)
    have hdistinct : (m.olsr.neighborSet.map NeighborTuple.neighborMainAddr).Nodup := by
      have heq : m.olsr.neighborSet.map NeighborTuple.neighborMainAddr = linkAddrs m.olsr := hinv.sets.neighbors
      rw [heq]
      exact hinv.sets.distinct
    have hfilled : isFilled now m.olsr t = some true :=
      isFilled_of_strict hdistinct hother hlink hz (hza.trans hya) (hzw ▸ hwill)
    have hin : t ∈ filledTuples now m.olsr := List.mem_filter.2 ⟨ht, by rw [hfilled]; rfl⟩
    obtain ⟨t', ht', hchosen, heq⟩ := hreach t hin
    exact ⟨t', List.mem_of_mem_filter ht', heq, hchosen⟩

/-! ## Expiry -/

theorem map_eraseP_addr (l : List (LinkTuple α)) (a : α) :
    (l.eraseP fun link => link.neighborIfaceAddr = a).map LinkTuple.neighborIfaceAddr =
      (l.map LinkTuple.neighborIfaceAddr).erase a := by
  induction l with
  | nil => rfl
  | cons x l ih =>
    by_cases hx : x.neighborIfaceAddr = a
    · rw [List.eraseP_cons_of_pos (p := fun link : LinkTuple α => decide (link.neighborIfaceAddr = a)) (decide_eq_true hx),
        List.map_cons, hx, List.erase_cons_head]
    · rw [List.eraseP_cons_of_neg (p := fun link : LinkTuple α => decide (link.neighborIfaceAddr = a))
          fun h => hx (of_decide_eq_true h),
        List.map_cons, List.map_cons, ih, List.erase_cons_tail fun h => hx (eq_of_beq h)]

/-- **A link tuple that has expired** takes its neighbour and its two-hop tuples with it. -/
theorem SetsOk.removeNeighborTuple (h : SetsOk mainAddress s) (hmem : address ∈ linkAddrs s) :
    SetsOk mainAddress { removeNeighborTuple s address with
      linkSet := s.linkSet.eraseP fun link => link.neighborIfaceAddr = address
      isRoutingTableUpdate := false } ∧ (removeNeighborTuple s address).linkSet = s.linkSet := by
  have hone : ¬ 2 ≤ s.linkSet.countP fun link => link.neighborIfaceAddr = address := by
    have hcount := List.nodup_iff_count_le_one.1 h.distinct address
    unfold linkAddrs List.count at hcount
    rw [List.countP_map] at hcount
    have hsame : (s.linkSet.countP fun link => link.neighborIfaceAddr = address) =
        s.linkSet.countP ((fun x => x == address) ∘ LinkTuple.neighborIfaceAddr) :=
      List.countP_congr fun link _ => by rw [decide_eq_true_iff, Function.comp_apply, beq_iff_eq]
    omega
  have hfound : (findNeighborSet s.neighborSet address).isSome = true := by
    refine (findNeighborSet_isSome_iff _ _).2 ?_
    have heq : s.neighborSet.map NeighborTuple.neighborMainAddr = linkAddrs s := h.neighbors
    rw [heq]
    exact hmem
  have herase : (linkAddrs s).erase address = (linkAddrs s).filter fun a => a ≠ address := by
    rw [h.distinct.erase_eq_filter]
    exact List.filter_congr fun a _ => Bool.eq_iff_iff.2 (by rw [bne_iff_ne, decide_eq_true_iff])
  unfold Olsr.removeNeighborTuple
  rw [if_neg hone, if_pos hfound]
  refine ⟨⟨?_, ?_, ?_, ?_⟩, rfl⟩
  · unfold neighborAddrs linkAddrs
    dsimp only
    rw [map_eraseP_addr]
    have heq : s.neighborSet.map NeighborTuple.neighborMainAddr = linkAddrs s := h.neighbors
    have hlinks : s.linkSet.map LinkTuple.neighborIfaceAddr = linkAddrs s := rfl
    rw [hlinks, herase, ← heq, List.filter_map]
    rfl
  · unfold linkAddrs
    dsimp only
    rw [map_eraseP_addr]
    exact h.distinct.erase address
  · intro q hq
    obtain ⟨t, ht, rfl⟩ := List.mem_map.1 hq
    obtain ⟨ht, hne⟩ := List.mem_filter.1 ht
    obtain ⟨hvia, hmain⟩ := h.twoHop _ (List.mem_map_of_mem ht)
    refine ⟨?_, hmain⟩
    unfold linkAddrs
    dsimp only
    rw [map_eraseP_addr]
    exact (List.mem_erase_of_ne (of_decide_eq_true hne)).2 hvia
  · exact h.pairs.sublist (List.filter_sublist.map _)

/-- **An expiry event** finds its link tuple, and keeps the sets in order. -/
theorem NdpInv.expire (h : NdpInv n) (hevent : (address, now) ∈ n.events) :
    ∃ n', linkTupleExpire now address { n with events := n.events.erase (address, now) } = some n' ∧ NdpInv n' := by
  have hrest : (n.events.map Prod.fst).Perm (address :: (n.events.erase (address, now)).map Prod.fst) :=
    (List.perm_cons_erase hevent).map Prod.fst
  have hmem : address ∈ linkAddrs n.olsr := h.events.subset (List.mem_map_of_mem hevent)
  obtain ⟨link, hlink⟩ := Option.isSome_iff_exists.1 ((findLinkSet_isSome_iff _ _).2 hmem)
  unfold linkTupleExpire
  dsimp only
  rw [hlink, Option.map_some]
  refine ⟨_, rfl, ?_⟩
  split
  · obtain ⟨hsets, hlinks⟩ := h.sets.removeNeighborTuple hmem
    rw [hlinks]
    refine ⟨hsets, ?_⟩
    unfold linkAddrs
    dsimp only
    rw [map_eraseP_addr]
    exact (hrest.symm.trans (h.events.trans (List.perm_cons_erase hmem))).cons_inv
  · refine ⟨h.sets, ?_⟩
    dsimp only
    rw [List.map_append]
    exact (List.perm_append_singleton _ _).trans (hrest.symm.trans h.events)

/-! ## Runs -/

theorem NdpRun.inv (h : NdpRun mainAddress nwAddress n) : NdpInv n := by
  induction h with
  | start => exact ⟨⟨rfl, List.nodup_nil, fun q hq => absurd hq List.not_mem_nil, List.nodup_nil⟩, .nil⟩
  | hello now hello _ hresult ih =>
    obtain ⟨m, hgives, hinv, -⟩ := ih.receive now hello
    rw [← hgives.eq hresult]
    exact hinv
  | expire _ hevent hresult ih =>
    obtain ⟨m, hm, hinv⟩ := ih.expire hevent
    rw [← Option.some.inj (hm.symm.trans hresult)]
    exact hinv

/-- **The sets of a node in every run** of HELLO messages and expiry events: the neighbours are those of the links, the two-hop
tuples are of neighbours and not of the node, and each link has one pending expiry event. The next HELLO or event is processed
without an error, and after a HELLO the relays cover the strict two-hop neighbours. -/
theorem ndp_run (h : NdpRun mainAddress nwAddress n) :
    NdpInv n ∧ (∀ now hello, ∃ n', Loop.Gives (receiveHello now hello n) n' ∧ NdpInv n' ∧ Covers now n'.olsr) ∧
      ∀ address now, (address, now) ∈ n.events →
        ∃ n', linkTupleExpire now address { n with events := n.events.erase (address, now) } = some n' ∧ NdpInv n' :=
  ⟨h.inv, h.inv.receive, fun _ _ hevent => h.inv.expire hevent⟩

/-- A HELLO of 2 that lists the node 1 and a two-hop neighbour 3. -/
def sampleHello : Hello ℕ := ⟨2, 2, 6, .default, [⟨⟨.symNeigh, 1⟩, .symLink⟩, ⟨⟨.symNeigh, 3⟩, .symLink⟩]⟩

/-- The node 1 hears it, and chooses 2 as its relay. -/
theorem exists_heard : ∃ n : NdpNode ℕ, NdpRun 1 1 n ∧ n.olsr.mprSet = [2] := by
  have hstart : NdpRun 1 1 (⟨1, 1, ⟨[], [], [], [], false⟩, [], []⟩ : NdpNode ℕ) := .start
  obtain ⟨n, hgives, -, -⟩ := hstart.inv.receive 0 sampleHello
  have hmap : ((receiveHello 0 sampleHello ⟨1, 1, ⟨[], [], [], [], false⟩, [], []⟩ 10).map fun n => n.olsr.mprSet) = some [2] := by
    decide +kernel
  obtain ⟨m, hm, hmpr⟩ := Option.map_eq_some_iff.1 hmap
  rw [hgives.unique 10 m hm] at hmpr
  exact ⟨n, .hello 0 sampleHello hstart hgives, hmpr⟩

/-- The node that has heard the HELLO. -/
theorem ndp_run_heard : ∃ n : NdpNode ℕ, n.olsr.mprSet = [2] ∧ NdpInv n := by
  obtain ⟨n, hrun, hmpr⟩ := exists_heard
  exact ⟨n, hmpr, (ndp_run hrun).1⟩

end NetSim.Olsr
