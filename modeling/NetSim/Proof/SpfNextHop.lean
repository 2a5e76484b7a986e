import NetSim.Proof.SpfDijkstra

/-!
# Links and next hops
-/

/-!
## Links without a partner

The check that a link has a partner in the other direction is commented out. Routers are reached over
bidirectional links only if every link on a shortest path is bidirectional in the database
(`bidirectional_iff`); a neighbour that has withdrawn its side of a link is still used
(`bidirectional_withdrawn`).
-/

namespace NetSim.Ospf

open ShortestPath

/-- A link of `v` to `w` that lies on a shortest path below infinity. -/
structure ShortestLink (ospf : Pds) (area : AreaDs) (edge : Node → Node → ℕ → Prop) (v w : Node)
    (link : RlsaLink) : Prop where
  linkEdge : LinkEdge ospf area v w link
  isEdge : edge v w link.metric.toNat
  notRoot : w ≠ rootNode ospf
  dist : ∃ d, IsDist edge (rootNode ospf) v d ∧ IsDist edge (rootNode ospf) w (d + link.metric.toNat) ∧
    d + link.metric.toNat < lsInfinity

/-- In the shortest path list `w` is reached over a link of `v`: `v` passes it a next hop, and the link
gives its distance. -/
structure ReachedOver (ospf : Pds) (stack : Stack) (spl : List Vertex) (v w : Vertex) (link : RlsaLink) :
    Prop where
  left : v ∈ spl
  right : w ∈ spl
  router : v.vertexType = .router
  mem : link ∈ v.lsa.lsaInfo.rlsaLink
  node : link.node? = some w.key
  notRoot : w.key ≠ rootNode ospf
  hops : firstHops ospf stack v w.key ≠ []
  distance : w.distance = v.distance + link.metric.toNat

/-- Every router of the list is reached over links that `ospf_rlsa_hasLink` accepts. -/
def Bidirectional (ospf : Pds) (stack : Stack) (spl : List Vertex) : Prop :=
  ∀ v w link, ReachedOver ospf stack spl v w link → w.vertexType = .router →
    rlsaHasLink w.lsa v.lsa = true

/-- Every link on a shortest path to a router is bidirectional in the database. -/
def ShortestLinksBidirectional (ospf : Pds) (stack : Stack) (area : AreaDs) : Prop :=
  ∀ v w link vlsa wlsa, ShortestLink ospf area (SpfEdge ospf stack area) v w link → w.1 = .router →
    liveLsa ospf area v = some vlsa → liveLsa ospf area w = some wlsa → rlsaHasLink wlsa vlsa = true

variable {ospf : Pds} {stack : Stack} {area : AreaDs} {s : SpfState}

/-- The links of the list are the links on shortest paths of the database. -/
theorem reachedOver_iff (h : SpfEnds ospf stack area s) (hroot : (liveLsa ospf area (rootNode ospf)).isSome)
    (v w : Node) (link : RlsaLink) :
    ShortestLink ospf area (SpfEdge ospf stack area) v w link ↔
      ∃ x y, x.key = v ∧ y.key = w ∧ ReachedOver ospf stack s.shortestPathList x y link := by
  obtain ⟨hinv, -⟩ := h.inv hroot
  have hlabels := mem_shortestPathList_iff h
  constructor
  · intro hlink
    obtain ⟨d, hv, hw, hlt⟩ := hlink.dist
    obtain ⟨x, hx, rfl, rfl⟩ := (hlabels v d).2 ⟨hroot, hv, by omega⟩
    obtain ⟨y, hy, rfl, hdist⟩ := (hlabels w _).2 ⟨hroot, hw, hlt⟩
    obtain ⟨lsa, hlsa, hmem⟩ := hlink.linkEdge.mem
    obtain rfl := Option.some.inj ((hinv.live x (List.mem_append_left _ hx)).symm.trans hlsa)
    exact ⟨x, y, rfl, rfl, hx, hy, hlink.linkEdge.router, hmem, hlink.linkEdge.node, hlink.notRoot,
      hinv.firstHops_ne_nil hx hlink.isEdge, hdist⟩
  · rintro ⟨x, y, rfl, rfl, hxy⟩
    have hylive : (liveLsa ospf area y.key).isSome := by
      rw [hinv.live y (List.mem_append_left _ hxy.right)]
      rfl
    have hedge := hinv.spfEdge hxy.left hxy.router hxy.mem hxy.node hylive hxy.hops
    have hx := ((hlabels _ _).1 (labels_of_mem hxy.left)).2
    have hy := ((hlabels _ _).1 (labels_of_mem hxy.right)).2
    rw [hxy.distance] at hy
    refine ⟨⟨hxy.router, ⟨_, hinv.live x (List.mem_append_left _ hxy.left), hxy.mem⟩, hxy.node, hylive⟩,
      hedge, hxy.notRoot, _, hx.1, hy⟩

/-- Without a root there is no link on a shortest path. -/
theorem ShortestLink.root_live {v w : Node} {link : RlsaLink}
    (h : ShortestLink ospf area (SpfEdge ospf stack area) v w link) :
    (liveLsa ospf area (rootNode ospf)).isSome := by
  have hwalk : ∀ (k : Node) (c : ℕ), Walk (SpfEdge ospf stack area) (rootNode ospf) k c →
      k = rootNode ospf ∨ (liveLsa ospf area (rootNode ospf)).isSome := by
    intro k c hw
    induction hw with
    | nil => exact .inl rfl
    | snoc _ hedge ih =>
      refine .inr (ih.elim ?_ id)
      rintro rfl
      obtain ⟨⟨l, hl, -⟩, -⟩ := hedge
      obtain ⟨lsa, hlsa, -⟩ := hl.mem
      rw [hlsa]
      rfl
  obtain ⟨d, hv, -⟩ := h.dist
  rcases hwalk v d hv.walk with rfl | hroot
  · obtain ⟨lsa, hlsa, -⟩ := h.linkEdge.mem
    rw [hlsa]
    rfl
  · exact hroot

/-- **Bidirectional links.** -/
theorem bidirectional_iff (ospf : Pds) (stack : Stack) (area : AreaDs) (s : SpfState)
    (h : SpfEnds ospf stack area s) :
    Bidirectional ospf stack s.shortestPathList ↔ ShortestLinksBidirectional ospf stack area := by
  constructor
  · intro hbi v w link vlsa wlsa hlink hrouter hv hw
    have hroot := hlink.root_live
    obtain ⟨hinv, -⟩ := h.inv hroot
    obtain ⟨x, y, rfl, rfl, hxy⟩ := (reachedOver_iff h hroot v w link).1 hlink
    obtain rfl := Option.some.inj ((hinv.live x (List.mem_append_left _ hxy.left)).symm.trans hv)
    obtain rfl := Option.some.inj ((hinv.live y (List.mem_append_left _ hxy.right)).symm.trans hw)
    exact hbi x y link hxy hrouter
  · intro hcond x y link hxy hrouter
    have hroot : (liveLsa ospf area (rootNode ospf)).isSome := by
      by_contra hroot
      have := hxy.left
      rw [h.eq_nil hroot] at this
      exact List.not_mem_nil this
    obtain ⟨hinv, -⟩ := h.inv hroot
    have hlink := (reachedOver_iff h hroot _ _ link).2 ⟨x, y, rfl, rfl, hxy⟩
    exact hcond _ _ link _ _ hlink hrouter (hinv.live x (List.mem_append_left _ hxy.left))
      (hinv.live y (List.mem_append_left _ hxy.right))

/-! ## A link withdrawn on one side -/

/-- The result when router 2 has withdrawn its link to router 1. -/
def withdrawnResult : SpfState where
  candidateList := []
  shortestPathList :=
    [⟨routerIp 1, .router, routerLsa 1 [linkTo 2 11], [], 0⟩,
      ⟨routerIp 2, .router, routerLsa 2 [], [⟨1, 1, some (routerIp 12)⟩], 10⟩]

theorem withdrawnResult_ends : SpfEnds lineRouter lineStack (lineArea []) withdrawnResult := by
  have hstart : spfStart lineRouter lineStack (lineArea []) = some
      ⟨[⟨routerIp 2, .router, routerLsa 2 [], [⟨1, 1, some (routerIp 12)⟩], 10⟩],
        [⟨routerIp 1, .router, routerLsa 1 [linkTo 2 11], [], 0⟩]⟩ := by decide
  unfold SpfEnds
  rw [hstart]
  exact ⟨2, by decide⟩

theorem bidirectional_iff_withdrawn :
    Bidirectional lineRouter lineStack withdrawnResult.shortestPathList ↔
      ShortestLinksBidirectional lineRouter lineStack (lineArea []) :=
  bidirectional_iff lineRouter lineStack (lineArea []) withdrawnResult withdrawnResult_ends

/-- Router 2 is still reached, and its address is the next hop. -/
theorem bidirectional_withdrawn :
    SpfEnds lineRouter lineStack (lineArea []) withdrawnResult ∧
      ¬ Bidirectional lineRouter lineStack withdrawnResult.shortestPathList := by
  refine ⟨withdrawnResult_ends, fun h => ?_⟩
  have hreached : ReachedOver lineRouter lineStack withdrawnResult.shortestPathList
      ⟨routerIp 1, .router, routerLsa 1 [linkTo 2 11], [], 0⟩
      ⟨routerIp 2, .router, routerLsa 2 [], [⟨1, 1, some (routerIp 12)⟩], 10⟩ (linkTo 2 11) :=
    ⟨by decide, by decide, rfl, by decide, rfl, by decide, by decide, rfl⟩
  have := h _ _ _ hreached rfl
  revert this
  decide

end NetSim.Ospf

/-!
## What the next hop lists hold

A next hop that is added is always a new item, so the membership test never finds it, and the hop of a
neighbour of the root is read from the first link that names it. The lists of the search are the
contributions of all links on shortest paths, one after the other.

* `HopInv.examine`, `HopInv.round`: one link, one round.
* `SpfEnds.hopInv`: the lists of the result.
-/

namespace NetSim.Ospf

open ShortestPath

/-! ## What the lists hold -/

/-- The next hops that some links pass to a node, for a distance of it. -/
def contrib (ospf : Pds) (stack : Stack) (done : List (Vertex × RlsaLink)) (w : Node) (d : ℕ) :
    List (ℕ × Option Ip) :=
  done.flatMap fun p =>
    if p.2.node? = some w ∧ p.1.distance + p.2.metric.toNat = d then firstHops ospf stack p.1 w else []

/-- Every next hop list is what the links that were examined before contribute. -/
structure HopInv (ospf : Pds) (stack : Stack) (spl cand : List Vertex)
    (done : List (Vertex × RlsaLink)) : Prop where
  cand : ∀ c ∈ cand, hops c.nextHopList = contrib ospf stack done c.key c.distance
  spl : ∀ l₁ w l₂, spl = l₁ ++ w :: l₂ →
    hops w.nextHopList = contrib ospf stack (scans l₁) w.key w.distance

variable {ospf : Pds} {stack : Stack} {area : AreaDs} {spl cand : List Vertex}
  {done : List (Vertex × RlsaLink)} {v : Vertex} {link : RlsaLink}

theorem contrib_snoc (w : Node) (d : ℕ) :
    contrib ospf stack (done ++ [(v, link)]) w d = contrib ospf stack done w d ++
      if link.node? = some w ∧ v.distance + link.metric.toNat = d then firstHops ospf stack v w else [] := by
  unfold contrib
  rw [List.flatMap_append]
  simp

/-- A node that is not settled yet gets nothing from distances below its label. -/
theorem contrib_eq_nil (hs : SearchInv ospf stack area spl cand done) {w : Node} {d : ℕ}
    (hlive : (liveLsa ospf area w).isSome) (hspl : ∀ x ∈ spl, x.key ≠ w)
    (hcand : ∀ c ∈ cand, c.key = w → d < c.distance) : contrib ospf stack done w d = [] := by
  unfold contrib
  refine List.flatMap_eq_nil_iff.2 fun p hp => ?_
  split
  · rename_i hcond
    obtain ⟨hnode, rfl⟩ := hcond
    by_contra hne
    obtain ⟨hmem, hrouter, hlink⟩ := hs.examined p hp
    have hedge := hs.spfEdge hmem hrouter hlink hnode hlive hne
    have hcov := hs.frontier.covered _ _ _ _ (labels_of_mem hmem) ⟨hedge, p, hp, rfl, hnode, rfl⟩
    rcases hcov with ⟨e, x, hx, hxw, -⟩ | ⟨e, ⟨c, hc, hcw, rfl⟩, hle⟩
    · exact hspl x hx hxw
    · have := hcand c hc hcw
      omega
  · rfl

namespace HopInv

/-- One link of the vertex that was settled last. -/
theorem examine (h : HopInv ospf stack spl cand done) (hs : SearchInv ospf stack area spl cand done)
    (hv : v ∈ spl) (hrouter : v.vertexType = .router) :
    HopInv ospf stack spl (examineLink ospf stack area spl v cand link) (done ++ [(v, link)]) := by
  have hbound : v.distance + link.metric.toNat < 4294967296 := by
    have h1 := hs.bound v hv
    have h2 := link.metric.toNat_lt
    unfold lsInfinity at h1
    omega
  refine ⟨?_, h.spl⟩
  -- a candidate that the link does not lead to keeps its contributions
  have hkeep : ∀ c ∈ cand, link.node? ≠ some c.key →
      hops c.nextHopList = contrib ospf stack (done ++ [(v, link)]) c.key c.distance := by
    intro c hc hne
    rw [contrib_snoc, if_neg fun hcond => hne hcond.1, List.append_nil]
    exact h.cand c hc
  have hcases : Examined ospf stack area spl v cand link (examineLink ospf stack area spl v cand link) :=
    examineLink_cases hrouter hbound
  generalize examineLink ospf stack area spl v cand link = cand' at hcases ⊢
  cases hcases with
  | skip hskip =>
    intro c hc
    have hmem : c ∈ spl ++ cand := List.mem_append_right _ hc
    have hlive : (liveLsa ospf area c.key).isSome := by rw [hs.live c hmem]; rfl
    by_cases hnode : link.node? = some c.key
    · rw [contrib_snoc, h.cand c hc]
      split
      · rename_i hcond
        rcases hskip _ hnode hlive with ⟨x, hx, hkey⟩ | ⟨hnil, -⟩ | ⟨c', hc', hkey, hlt⟩
        · have hnd := hs.nodup
          rw [List.map_append, List.nodup_append] at hnd
          exact absurd hkey (hnd.2.2 _ (List.mem_map_of_mem hx) _ (List.mem_map_of_mem hc))
        · rw [hnil, List.append_nil]
        · have heq := hs.eq_of_key (List.mem_append_right _ hc') hmem hkey
          rw [heq] at hlt
          omega
      · rw [List.append_nil]
    · exact hkeep c hc hnode
  | insert w lsa item hnode hlsa hspl hcand hfirst hkey hitem hdist hhops =>
    intro c hc
    rcases List.mem_append.1 hc with hc | hc
    · refine hkeep c hc fun hck => ?_
      exact hcand c hc (Option.some.inj (hck.symm.trans hnode))
    · obtain rfl := List.mem_singleton.1 hc
      have hlive : (liveLsa ospf area w).isSome := by rw [hlsa]; rfl
      rw [contrib_snoc, hkey, if_pos ⟨hnode, hdist.symm⟩, hhops,
        contrib_eq_nil hs hlive hspl fun c' hc' hk => absurd hk (hcand c' hc')]
      rfl
  | update w c item l₁ l₂ hnode hlive hspl hcand hckey hkey hitem hdist hhops =>
    subst hcand
    have hcmem : c ∈ l₁ ++ c :: l₂ := List.mem_append_right _ List.mem_cons_self
    have hndc : ((l₁ ++ c :: l₂).map Vertex.key).Nodup := by
      have := hs.nodup
      rw [List.map_append] at this
      exact (List.nodup_append.1 this).2.1
    have huniq : ∀ x ∈ l₁ ++ c :: l₂, x.key = w → x = c :=
      fun x hx hxw => List.inj_on_of_nodup_map hndc hx hcmem (hxw.trans hckey.symm)
    have hnot := (List.nodup_cons.1 (((List.perm_middle (a := c)).map Vertex.key).nodup_iff.1 hndc)).1
    intro x hx
    have hcase : x = item ∨ x ∈ l₁ ++ l₂ := by
      simp only [List.mem_append, List.mem_cons] at hx ⊢
      tauto
    rcases hcase with rfl | hx
    · rw [contrib_snoc, hkey, if_pos ⟨hnode, hdist.symm⟩]
      rcases hhops with ⟨hlt, hhops⟩ | ⟨heq, hhops⟩
      · rw [hhops, contrib_eq_nil hs hlive hspl fun c' hc' hk => by rw [huniq c' hc' hk]; exact hlt]
        rfl
      · rw [hhops, h.cand c hcmem, hckey, heq]
    · have hxmem : x ∈ l₁ ++ c :: l₂ := by
        rcases List.mem_append.1 hx with hx | hx
        · exact List.mem_append_left _ hx
        · exact List.mem_append_right _ (List.mem_cons_of_mem _ hx)
      refine hkeep x hxmem fun hxk => hnot ?_
      rw [hckey, ← Option.some.inj (hxk.symm.trans hnode)]
      exact List.mem_map_of_mem hx

/-- All links of the vertex that was settled last. -/
theorem update (h : HopInv ospf stack (spl ++ [v]) cand (scans spl))
    (hs : SearchInv ospf stack area (spl ++ [v]) cand (scans spl))
    (hlast : ∀ x ∈ spl, x.distance ≤ v.distance) (hroot : v.key = rootNode ospf → spl = []) :
    HopInv ospf stack (spl ++ [v]) (updateCandidateList ospf stack area (spl ++ [v]) v cand)
      (scans (spl ++ [v])) := by
  unfold updateCandidateList
  cases htype : v.vertexType with
  | network => rwa [SearchInv.scans_snoc_network htype]
  | router =>
    have hv : v ∈ spl ++ [v] := List.mem_append_right _ (List.mem_singleton_self v)
    rw [SearchInv.scans_snoc_router htype]
    exact (hs.foldl_examine (J := HopInv ospf stack (spl ++ [v]))
      (fun _ _ _ _ hs h => h.examine hs hv htype) htype hlast hroot h).2

/-- The closest candidate is settled. -/
theorem settle (h : HopInv ospf stack spl cand (scans spl)) (hv : v ∈ cand) :
    HopInv ospf stack (spl ++ [v]) (cand.erase v) (scans spl) where
  cand c hc := h.cand c (List.mem_of_mem_erase hc)
  spl l₁ w l₂ heq := by
    rcases List.eq_nil_or_concat l₂ with rfl | ⟨l₂, x, rfl⟩
    · obtain ⟨rfl, hvw⟩ := List.append_inj' heq rfl
      obtain rfl := List.head_eq_of_cons_eq hvw
      exact h.cand v hv
    · have heq' : spl ++ [v] = (l₁ ++ w :: l₂) ++ [x] := by
        rw [heq, List.concat_eq_append, List.append_assoc]
        rfl
      exact h.spl l₁ w l₂ (List.append_inj' heq' rfl).1

/-- One round. -/
theorem round {s s' : SpfState}
    (h : HopInv ospf stack s.shortestPathList s.candidateList (scans s.shortestPathList))
    (hs : SearchInv ospf stack area s.shortestPathList s.candidateList (scans s.shortestPathList))
    (hr : spfRound ospf stack area s = .inl s') :
    HopInv ospf stack s'.shortestPathList s'.candidateList (scans s'.shortestPathList) := by
  unfold spfRound at hr
  split at hr
  · cases hr
  · have hspec := closestCandidate_spec s.candidateList
    split at hr
    · cases hr
    · rename_i v hv
      rw [hv] at hspec
      obtain ⟨hmem, hinf, hmin⟩ := hspec
      obtain ⟨hsettled, hle, hroot⟩ := hs.settle hmem hinf hmin
      cases hr
      exact (h.settle hmem).update hsettled hle fun hkey => absurd hkey hroot

theorem start {s : SpfState} (h : spfStart ospf stack area = some s) :
    HopInv ospf stack s.shortestPathList s.candidateList (scans s.shortestPathList) := by
  obtain ⟨lsa, hlive, rfl⟩ := spfStart_eq_some h
  have hroot : HopInv ospf stack ([] ++ [rootVertex ospf lsa]) [] (scans []) := by
    refine ⟨fun _ hc => absurd hc List.not_mem_nil, fun l₁ w l₂ heq => ?_⟩
    obtain ⟨rfl, hw⟩ | ⟨x, l, rfl⟩ : l₁ = [] ∧ w = rootVertex ospf lsa ∨ ∃ x l, l₁ = x :: l := by
      cases l₁ with
      | nil => exact .inl ⟨rfl, (List.head_eq_of_cons_eq heq).symm⟩
      | cons x l => exact .inr ⟨x, l, rfl⟩
    · rw [hw]
      rfl
    · have hlen := congrArg List.length heq
      simp at hlen
  exact hroot.update (searchInv_root stack hlive) (fun _ hx => absurd hx List.not_mem_nil) fun _ => rfl

end HopInv

/-- The next hop lists of the result. -/
theorem SpfEnds.hopInv {s : SpfState} (h : SpfEnds ospf stack area s)
    (hroot : (liveLsa ospf area (rootNode ospf)).isSome) :
    HopInv ospf stack s.shortestPathList s.candidateList (scans s.shortestPathList) := by
  obtain ⟨s₀, hs₀⟩ := Option.isSome_iff_exists.1 ((spfStart_isSome ospf stack area).2 hroot)
  unfold SpfEnds at h
  rw [hs₀] at h
  obtain ⟨n, hrun⟩ := h
  let inv (s : SpfState) : Prop :=
    SearchInv ospf stack area s.shortestPathList s.candidateList (scans s.shortestPathList) ∧
      HopInv ospf stack s.shortestPathList s.candidateList (scans s.shortestPathList)
  have hstep : ∀ s s', inv s → spfRound ospf stack area s = .inl s' → inv s' :=
    fun s s' hs hr => ⟨(SearchInv.round hs.1 hr).1, HopInv.round hs.2 hs.1 hr⟩
  have hend : ∀ s b, inv s → spfRound ospf stack area s = .inr b →
      HopInv ospf stack b.shortestPathList b.candidateList (scans b.shortestPathList) := by
    intro s b hs hr
    obtain ⟨rfl, -⟩ := SearchInv.ended hr
    exact hs.2
  exact Loop.run_inv hstep hend ⟨searchInv_start hs₀, HopInv.start hs₀⟩ hrun

end NetSim.Ospf
