import NetSim.Proof.SpfInvariant

/-!
# The shortest path list

With point-to-point and stub links, interfaces that are up and neighbours that are known at the root,
the search ends with the routers that can be reached, each with its distance
(`shortestPathList_correct`). Whatever the interfaces and links are, the list holds the nodes that
`SpfEdge` reaches below infinity (`mem_shortestPathList_iff`).
-/

namespace NetSim.Ospf

open ShortestPath

variable {ospf : Pds} {stack : Stack} {area : AreaDs} {s : SpfState}

/-- The search has one result. -/
theorem SpfEnds.unique {s' : SpfState} (h : SpfEnds ospf stack area s) (h' : SpfEnds ospf stack area s') :
    s = s' := by
  unfold SpfEnds at h h'
  cases hstart : spfStart ospf stack area with
  | none =>
    rw [hstart] at h h'
    exact h.trans h'.symm
  | some s₀ =>
    rw [hstart] at h h'
    obtain ⟨n, hn⟩ := h
    obtain ⟨m, hm⟩ := h'
    exact Loop.run_unique hn hm

theorem spfStart_isSome (ospf : Pds) (stack : Stack) (area : AreaDs) :
    (spfStart ospf stack area).isSome ↔ (liveLsa ospf area (rootNode ospf)).isSome := by
  have hlookup : lsaOf area (rootNode ospf) = lookupLsaList area.routerLSAList ospf.routerId ospf.routerId :=
    lookupLsaList_congr rfl _
  unfold spfStart liveLsa
  rw [hlookup]
  cases lookupLsaList area.routerLSAList ospf.routerId ospf.routerId with
  | none => rfl
  | some lsa => cases hage : hasMaxAge ospf lsa <;> simp [hage, Option.filter]

/-- The search always ends. -/
theorem spfEnds_exists (ospf : Pds) (stack : Stack) (area : AreaDs) : ∃ s, SpfEnds ospf stack area s := by
  unfold SpfEnds
  cases h : spfStart ospf stack area with
  | none => exact ⟨_, rfl⟩
  | some s₀ =>
    obtain ⟨n, s, hrun, -⟩ := searchInv_ends h
    exact ⟨s, n, hrun⟩

/-- What is known of its result. -/
theorem SpfEnds.inv (h : SpfEnds ospf stack area s) (hroot : (liveLsa ospf area (rootNode ospf)).isSome) :
    SearchInv ospf stack area s.shortestPathList s.candidateList (scans s.shortestPathList) ∧
      ∀ c ∈ s.candidateList, lsInfinity ≤ c.distance := by
  obtain ⟨s₀, hs₀⟩ := Option.isSome_iff_exists.1 ((spfStart_isSome ospf stack area).2 hroot)
  obtain ⟨n, s', hrun, hinv⟩ := searchInv_ends hs₀
  have hends : SpfEnds ospf stack area s' := by
    unfold SpfEnds
    rw [hs₀]
    exact ⟨n, hrun⟩
  rwa [h.unique hends]

theorem SpfEnds.eq_nil (h : SpfEnds ospf stack area s) (hroot : ¬ (liveLsa ospf area (rootNode ospf)).isSome) :
    s = ⟨[], []⟩ := by
  rw [← spfStart_isSome ospf stack area, Option.not_isSome_iff_eq_none] at hroot
  unfold SpfEnds at h
  rwa [hroot] at h

/-- The nodes of the shortest path list and their distances, for any database. -/
theorem mem_shortestPathList_iff (h : SpfEnds ospf stack area s) (k : Node) (d : ℕ) :
    Labels s.shortestPathList k d ↔ (liveLsa ospf area (rootNode ospf)).isSome ∧
      IsDist (SpfEdge ospf stack area) (rootNode ospf) k d ∧ d < lsInfinity := by
  by_cases hroot : (liveLsa ospf area (rootNode ospf)).isSome
  · obtain ⟨hinv, hinf⟩ := h.inv hroot
    rw [hinv.labels_iff hinf, and_iff_right hroot]
  · rw [h.eq_nil hroot, iff_false_right fun hk => hroot hk.1]
    rintro ⟨x, hx, -⟩
    exact absurd hx List.not_mem_nil

/-! ## Point-to-point and stub links -/

/-- The router LSAs have point-to-point and stub links. -/
def PointToPointLinks (area : AreaDs) : Prop :=
  ∀ lsa ∈ area.routerLSAList, ∀ link ∈ lsa.lsaInfo.rlsaLink, link.type = .pointToPoint ∨ link.type = .stub

/-- The interfaces that the point-to-point links of the root name are up and know the neighbours. -/
def RootReady (ospf : Pds) (stack : Stack) (area : AreaDs) : Prop :=
  ∀ lsa, liveLsa ospf area (rootNode ospf) = some lsa → ∀ link ∈ lsa.lsaInfo.rlsaLink,
    link.type = .pointToPoint → ∃ thisInterface,
      ifGet ospf (stack.getInterfaceIdFromIP link.linkData) = some thisInterface ∧
        thisInterface.state ≠ .down ∧ (neighborFind thisInterface link.linkId).isSome

theorem mem_of_liveLsa {a : UInt32} {lsa : LsaHdr} (h : liveLsa ospf area (.router, a) = some lsa) :
    lsa ∈ area.routerLSAList := List.mem_of_find?_eq_some (liveLsa_eq_some.1 h).1

/-- All edges then lead to routers. -/
theorem LinkEdge.router_right (htypes : PointToPointLinks area) {v w : Node} {link : RlsaLink}
    (h : LinkEdge ospf area v w link) : w.1 = .router := by
  obtain ⟨lsa, hlsa, hmem⟩ := h.mem
  obtain ⟨t, a⟩ := v
  obtain rfl : t = .router := h.router
  have hnode := h.node
  unfold RlsaLink.node? at hnode
  rcases htypes lsa (mem_of_liveLsa hlsa) link hmem with htype | htype
  · rw [htype] at hnode
    rw [← Option.some.inj hnode]
  · rw [htype] at hnode
    cases hnode

theorem walk_router (htypes : PointToPointLinks area) {w : Node} {c : ℕ}
    (h : Walk (LsdbEdge ospf area) (rootNode ospf) w c) : w.1 = .router := by
  cases h with
  | nil => rfl
  | snoc _ hedge =>
    obtain ⟨link, hlink, -⟩ := hedge
    exact hlink.router_right htypes

/-- No edge of the root is left out. -/
theorem spfEdge_iff (htypes : PointToPointLinks area) (hready : RootReady ospf stack area) (v w : Node)
    (m : ℕ) : SpfEdge ospf stack area v w m ↔ LsdbEdge ospf area v w m := by
  refine and_iff_left_of_imp ?_
  rintro ⟨link, hlink, -⟩ lsa rfl hlsa
  have hw := hlink.router_right htypes
  obtain ⟨lsa', hlsa', hmem⟩ := hlink.mem
  obtain rfl := Option.some.inj (hlsa.symm.trans hlsa')
  -- the first link with this id is a point-to-point link too
  have hid := node?_eq_some hlink.node
  have hnode := hlink.node
  cases hfind : lsa.lsaInfo.rlsaLink.find? fun link =>
      link.type != .stub && link.linkId.same ⟨0, w.2⟩ with
  | none =>
    have hnot := List.find?_eq_none.1 hfind link hmem
    have hstub : link.type = .stub := by simpa [hid] using hnot
    unfold RlsaLink.node? at hnode
    rw [hstub] at hnode
    cases hnode
  | some first =>
    have hfirst := List.find?_some hfind
    simp only [Bool.and_eq_true, bne_iff_ne, Ip.same_iff] at hfirst
    have hp2p : first.type = .pointToPoint :=
      (htypes lsa (mem_of_liveLsa hlsa) first (List.mem_of_find?_eq_some hfind)).resolve_right hfirst.1
    obtain ⟨thisInterface, hif, hup, hneigh⟩ :=
      hready lsa hlsa first (List.mem_of_find?_eq_some hfind) hp2p
    have hfound : (neighborFind thisInterface ⟨0, w.2⟩).isSome := by
      rwa [neighborFind_congr (b := first.linkId) hfirst.2.symm]
    obtain ⟨neigh, hneigh⟩ := Option.isSome_iff_exists.1 hfound
    unfold rootHop linkHop
    rw [hfind]
    simp only [Option.bind_some, hif, hw, hneigh]
    rw [if_neg (by simpa using hup)]
    rfl

/-- **The shortest path list.** The search ends; it holds the routers that walks through live router
LSAs reach from the root, each once, with the least cost of such a walk, in the order of these
costs. -/
theorem shortestPathList_correct (ospf : Pds) (stack : Stack) (area : AreaDs)
    (htypes : PointToPointLinks area) (hready : RootReady ospf stack area)
    (hcost : ∀ w d, IsDist (LsdbEdge ospf area) (rootNode ospf) w d → d < lsInfinity) :
    ∃ s, SpfEnds ospf stack area s ∧ s.candidateList = [] ∧
      (∀ v ∈ s.shortestPathList, v.vertexType = .router) ∧
      (s.shortestPathList.map fun v => v.vertexId.intIp).Nodup ∧
      (∀ a, (∃ v ∈ s.shortestPathList, v.vertexId.intIp = a) ↔
        (liveLsa ospf area (rootNode ospf)).isSome ∧
          ∃ c, Walk (LsdbEdge ospf area) (rootNode ospf) (.router, a) c) ∧
      (∀ v ∈ s.shortestPathList,
        IsDist (LsdbEdge ospf area) (rootNode ospf) (.router, v.vertexId.intIp) v.distance) ∧
      s.shortestPathList.Pairwise fun v w => v.distance ≤ w.distance := by
  have hedge : SpfEdge ospf stack area = LsdbEdge ospf area := by
    funext v w m
    exact propext (spfEdge_iff htypes hready v w m)
  obtain ⟨s, hs⟩ := spfEnds_exists ospf stack area
  refine ⟨s, hs, ?_⟩
  by_cases hroot : (liveLsa ospf area (rootNode ospf)).isSome
  · have hlabels := mem_shortestPathList_iff hs
    rw [hedge] at hlabels
    obtain ⟨hinv, -⟩ := hs.inv hroot
    have hfrontier := hinv.frontier
    rw [hedge] at hfrontier
    have hwalk : ∀ (k : Node) (c : ℕ), Walk (LsdbEdge ospf area) (rootNode ospf) k c →
        ∃ d, Labels s.shortestPathList k d := by
      intro k c hw
      obtain ⟨d, hd⟩ := hw.exists_isDist
      exact ⟨d, (hlabels k d).2 ⟨hroot, hd, hcost k d hd⟩⟩
    have hrouter : ∀ v ∈ s.shortestPathList, v.vertexType = .router := by
      intro v hv
      exact walk_router htypes (hfrontier.settled _ _ (labels_of_mem hv)).walk
    have hkey : ∀ v ∈ s.shortestPathList, v.key = (.router, v.vertexId.intIp) :=
      fun v hv => Prod.ext (hrouter v hv) rfl
    refine ⟨?_, hrouter, ?_, fun a => ?_, fun v hv => ?_, hinv.sorted⟩
    · -- a candidate that is left would have a distance
      rw [List.eq_nil_iff_forall_not_mem]
      intro c hc
      have hlabel := labels_of_mem hc
      obtain ⟨d, hd⟩ := hwalk _ _ (hfrontier.walk hlabel)
      exact hfrontier.fresh _ _ d hlabel hd
    · have hnd := hinv.nodup
      rw [List.map_append, List.nodup_append] at hnd
      have hkeys : s.shortestPathList.map Vertex.key =
          (s.shortestPathList.map fun v => v.vertexId.intIp).map fun a => ((VertexType.router, a) : Node) := by
        rw [List.map_map]
        exact List.map_congr_left hkey
      have hnd' := hnd.1
      rw [hkeys] at hnd'
      exact hnd'.of_map _
    · rw [and_iff_right hroot]
      constructor
      · rintro ⟨v, hv, rfl⟩
        have hdist := hfrontier.settled _ _ (labels_of_mem hv)
        rw [hkey v hv] at hdist
        exact ⟨_, hdist.walk⟩
      · rintro ⟨c, hw⟩
        obtain ⟨d, v, hv, hk, -⟩ := hwalk _ c hw
        exact ⟨v, hv, congrArg Prod.snd hk⟩
    · have hdist := hfrontier.settled _ _ (labels_of_mem hv)
      rwa [hkey v hv] at hdist
  · have hnil := hs.eq_nil hroot
    subst hnil
    refine ⟨rfl, fun _ hv => absurd hv List.not_mem_nil, List.nodup_nil, fun a => ?_,
      fun _ hv => absurd hv List.not_mem_nil, .nil⟩
    rw [iff_false_right fun h => hroot h.1]
    rintro ⟨v, hv, -⟩
    exact absurd hv List.not_mem_nil

/-! ## Three routers in a line -/

/-- Router `a` and the addresses of its interfaces. -/
def routerIp (a : UInt32) : Ip := ⟨a.toNat, a⟩

/-- A point-to-point link to router `b` of metric 10, over the interface with address `data`. -/
def linkTo (b data : UInt32) : RlsaLink := ⟨routerIp b, routerIp data, .pointToPoint, 10⟩

def routerLsa (a : UInt32) (links : List RlsaLink) : LsaHdr :=
  ⟨1, 0, .routerLsa, routerIp a, routerIp a, initialSequenceNumber, 0, ⟨0, links⟩, 1⟩

/-- Router 2 as seen by router 1. -/
def neighborTwo : Neighbor := ⟨.full, routerIp 2, 1, routerIp 12, none, none, [], [], [], false, 0⟩

def lineIf : OspfIf :=
  ⟨1, .p2p, .p2p, routerIp 11, routerIp 0xffffff00, routerIp 0, 1, [neighborTwo], none, none, none, none,
    0, 0, []⟩

/-- Router 1, with one interface. -/
def lineRouter : Pds := ⟨routerIp 1, [lineIf], 5000000, false, false, 3600, 1800000000, 60000000⟩

def lineStack : Stack where
  isMyAddr a := a.intIp == 11
  getInterfaceIdFromIP _ := 1
  getInterfaceIdForNextHop _ := 0
  isInSameNetwork ip1 ip2 subnet := ip1.intIp &&& subnet.intIp == ip2.intIp &&& subnet.intIp

/-- Routers 1, 2 and 3, with the links that router 2 advertises. -/
def lineArea (links : List RlsaLink) : AreaDs :=
  ⟨routerIp 0, [routerLsa 1 [linkTo 2 11], routerLsa 2 links, routerLsa 3 [linkTo 2 33]], [], [], [], [],
    false⟩

theorem lineRouter_ready (links : List RlsaLink) : RootReady lineRouter lineStack (lineArea links) := by
  intro lsa hlsa link hlink _
  refine ⟨lineIf, rfl, by decide, ?_⟩
  have hfound : liveLsa lineRouter (lineArea links) (rootNode lineRouter) = some (routerLsa 1 [linkTo 2 11]) := rfl
  obtain rfl := Option.some.inj (hfound.symm.trans hlsa)
  obtain rfl := List.mem_singleton.1 hlink
  rfl

theorem lineArea_walk (a : UInt32) (c : ℕ) (h : (a, c) = (2, 10) ∨ (a, c) = (3, 20)) :
    Walk (LsdbEdge lineRouter (lineArea [linkTo 1 12, linkTo 3 23])) (rootNode lineRouter) (.router, a) c := by
  let area := lineArea [linkTo 1 12, linkTo 3 23]
  have hfirst : LsdbEdge lineRouter area (rootNode lineRouter) (.router, 2) 10 :=
    ⟨linkTo 2 11, ⟨rfl, ⟨_, rfl, by decide⟩, rfl, rfl⟩, rfl⟩
  have hsecond : LsdbEdge lineRouter area (.router, 2) (.router, 3) 10 :=
    ⟨linkTo 3 23, ⟨rfl, ⟨_, rfl, by decide⟩, rfl, rfl⟩, rfl⟩
  have htwo : Walk (LsdbEdge lineRouter area) (rootNode lineRouter) (.router, 2) (0 + 10) := .snoc .nil hfirst
  rcases h with h | h
  · cases h
    exact htwo
  · cases h
    exact .snoc htwo hsecond

/-- A walk of two links bounds the distances in the line. -/
theorem lineArea_dist_lt {w : Node} {d : ℕ}
    (h : IsDist (LsdbEdge lineRouter (lineArea [linkTo 1 12, linkTo 3 23])) (rootNode lineRouter) w d) :
    d < lsInfinity := by
  let area := lineArea [linkTo 1 12, linkTo 3 23]
  have htwo := lineArea_walk 2 10 (.inl rfl)
  have hthree := lineArea_walk 3 20 (.inr rfl)
  have hnodes : ∀ lsa ∈ area.routerLSAList, ∀ link ∈ lsa.lsaInfo.rlsaLink,
      link.node? = some (.router, 1) ∨ link.node? = some (.router, 2) ∨ link.node? = some (.router, 3) := by
    decide
  have hinf : 20 < lsInfinity := by decide
  have hend : w = (.router, 1) ∨ w = (.router, 2) ∨ w = (.router, 3) := by
    cases h.walk with
    | nil => exact .inl rfl
    | @snoc v _ _ _ _ hedge =>
      obtain ⟨link, hlink, -⟩ := hedge
      obtain ⟨lsa, hlsa, hmem⟩ := hlink.mem
      obtain ⟨t, a⟩ := v
      obtain rfl : t = .router := hlink.router
      have hcases := hnodes lsa (mem_of_liveLsa hlsa) link hmem
      rw [hlink.node] at hcases
      simpa only [Option.some.injEq] using hcases
  rcases hend with rfl | rfl | rfl
  · have := h.le 0 .nil
    omega
  · have := h.le 10 htwo
    omega
  · have := h.le 20 hthree
    omega

theorem shortestPathList_correct_line :
    ∃ s, SpfEnds lineRouter lineStack (lineArea [linkTo 1 12, linkTo 3 23]) s ∧ s.candidateList = [] ∧
      ∃ v ∈ s.shortestPathList, v.vertexId.intIp = 3 := by
  obtain ⟨s, hs, hcand, -, -, hreach, -⟩ := shortestPathList_correct lineRouter lineStack
    (lineArea [linkTo 1 12, linkTo 3 23]) (by unfold PointToPointLinks; decide) (lineRouter_ready _)
    (fun _ _ h => lineArea_dist_lt h)
  exact ⟨s, hs, hcand, (hreach 3).2 ⟨rfl, 20, lineArea_walk 3 20 (.inr rfl)⟩⟩

end NetSim.Ospf
