import NetSim.Lib.FirstMatch
import NetSim.Lib.ShortestPath
import NetSim.Spec.OspfSpf

/-!
# The graph of a link state database, and one step of the search

Nodes are vertices by type and address. `LinkEdge` says which link of which LSA is an edge, and
`SpfEdge` leaves out the links of the root whose next hop cannot be found.

* `setNextHop_spec`: what `ospf_spf_setNextHopForThisVertex` adds to the next hops of a vertex.
* `examineLink_cases`: what one link does to the candidate list.
-/

namespace NetSim.Ospf

open ShortestPath

/-! ## The graph -/

/-- A vertex by its type and address. -/
abbrev Node := VertexType × UInt32

def Vertex.key (v : Vertex) : Node := (v.vertexType, v.vertexId.intIp)

/-- The root of the search. -/
def rootNode (ospf : Pds) : Node := (.router, ospf.routerId.intIp)

/-- The LSA that the search looks up for a node. -/
def lsaOf (area : AreaDs) : Node → Option LsaHdr
  | (.router, a) => lookupLsaList area.routerLSAList ⟨0, a⟩ ⟨0, a⟩
  | (.network, a) => lookupLsaListById area.nwLSAList ⟨0, a⟩

/-- The LSA of a node, unless it has the maximum age. -/
def liveLsa (ospf : Pds) (area : AreaDs) (k : Node) : Option LsaHdr :=
  (lsaOf area k).filter fun lsa => !hasMaxAge ospf lsa

/-- The node that a link names; stub and virtual links are not examined. -/
def RlsaLink.node? (link : RlsaLink) : Option Node :=
  match link.type with
  | .pointToPoint => some (.router, link.linkId.intIp)
  | .transit => some (.network, link.linkId.intIp)
  | _ => none

/-- A link of the LSA of `v` leads to `w`. -/
structure LinkEdge (ospf : Pds) (area : AreaDs) (v w : Node) (link : RlsaLink) : Prop where
  router : v.1 = .router
  mem : ∃ lsa, liveLsa ospf area v = some lsa ∧ link ∈ lsa.lsaInfo.rlsaLink
  node : link.node? = some w
  live : (liveLsa ospf area w).isSome

/-- The graph of the database. -/
def LsdbEdge (ospf : Pds) (area : AreaDs) (v w : Node) (m : ℕ) : Prop :=
  ∃ link, LinkEdge ospf area v w link ∧ link.metric.toNat = m

/-- The next hop that a link of the root gives to its end: the interface with the address of the link
data, and the neighbour on it. -/
def linkHop (ospf : Pds) (stack : Stack) (link : RlsaLink) (w : Node) : Option (ℕ × Option Ip) :=
  (ifGet ospf (stack.getInterfaceIdFromIP link.linkData)).bind fun thisInterface =>
    if thisInterface.state == .down then none
    else match w.1 with
    | .router => (neighborFind thisInterface ⟨0, w.2⟩).map fun neigh =>
        (stack.getInterfaceIdFromIP link.linkData, some neigh.neighborIPAddr)
    | .network => some (stack.getInterfaceIdFromIP link.linkData, none)

/-- The next hop that the search takes for a neighbour of the root: that of the first link that names
its address. -/
def rootHop (ospf : Pds) (stack : Stack) (rootLsa : LsaHdr) (w : Node) : Option (ℕ × Option Ip) :=
  (rootLsa.lsaInfo.rlsaLink.find? fun link => link.type != .stub && link.linkId.same ⟨0, w.2⟩).bind
    fun link => linkHop ospf stack link w

/-- The edges that the search follows: those of the root need a next hop. -/
def SpfEdge (ospf : Pds) (stack : Stack) (area : AreaDs) (v w : Node) (m : ℕ) : Prop :=
  LsdbEdge ospf area v w m ∧
    ∀ lsa, v = rootNode ospf → liveLsa ospf area v = some lsa → (rootHop ospf stack lsa w).isSome

/-! ## Addresses count by their value -/

theorem same_congr {a b : Ip} (h : a.intIp = b.intIp) (x : Ip) : x.same a = x.same b := by
  unfold Ip.same
  rw [h]

theorem lookupLsaList_congr {a b : Ip} (h : a.intIp = b.intIp) (list : List LsaHdr) :
    lookupLsaList list a a = lookupLsaList list b b := by
  unfold lookupLsaList
  simp only [same_congr h]

theorem lookupLsaListById_congr {a b : Ip} (h : a.intIp = b.intIp) (list : List LsaHdr) :
    lookupLsaListById list a = lookupLsaListById list b := by
  unfold lookupLsaListById
  simp only [same_congr h]

theorem neighborFind_congr {a b : Ip} (h : a.intIp = b.intIp) (thisInterface : OspfIf) :
    neighborFind thisInterface a = neighborFind thisInterface b := by
  unfold neighborFind
  simp only [same_congr h]

theorem Vertex.is_iff (t : VertexType) (i : Ip) (v : Vertex) : v.is t i = true ↔ v.key = (t, i.intIp) := by
  unfold Vertex.is Vertex.key
  simp

/-- The LSA that is found for a node has its address as link state id. -/
theorem lsaOf_linkStateId {area : AreaDs} {k : Node} {lsa : LsaHdr} (h : lsaOf area k = some lsa) :
    lsa.linkStateId.intIp = k.2 := by
  obtain ⟨t, a⟩ := k
  cases t with
  | router =>
    have hp := List.find?_some h
    simp only [Bool.and_eq_true, Ip.same_iff] at hp
    exact hp.2
  | network =>
    have hp := List.find?_some h
    exact (Ip.same_iff _ _).1 hp

theorem liveLsa_eq_some {ospf : Pds} {area : AreaDs} {k : Node} {lsa : LsaHdr} :
    liveLsa ospf area k = some lsa ↔ lsaOf area k = some lsa ∧ hasMaxAge ospf lsa = false := by
  unfold liveLsa
  rw [Option.filter_eq_some_iff]
  simp

theorem linkTarget_eq (area : AreaDs) (link : RlsaLink) :
    linkTarget area link = link.node?.map fun k => (lsaOf area k, k.1) := by
  unfold linkTarget RlsaLink.node?
  cases link.type with
  | pointToPoint => exact congrArg (fun o => some (o, VertexType.router)) (lookupLsaList_congr rfl _)
  | transit => exact congrArg (fun o => some (o, VertexType.network)) (lookupLsaListById_congr rfl _)
  | stub => rfl
  | virtual => rfl

/-! ## Next hops -/

/-- The next hops of a list, without the places of their items. -/
def hops (nextHopList : List NextHopListItem) : List (ℕ × Option Ip) :=
  nextHopList.map fun item => (item.outIntf, item.nextHop)

@[simp] theorem hops_nil : hops [] = [] := rfl

@[simp] theorem hops_append (l l' : List NextHopListItem) : hops (l ++ l') = hops l ++ hops l' :=
  List.map_append ..

@[simp] theorem hops_eq_nil {l : List NextHopListItem} : hops l = [] ↔ l = [] := List.map_eq_nil_iff

/-- What a parent passes on to a vertex. -/
def firstHops (ospf : Pds) (stack : Stack) (parent : Vertex) (w : Node) : List (ℕ × Option Ip) :=
  if parent.key = rootNode ospf then (rootHop ospf stack parent.lsa w).toList else hops parent.nextHopList

theorem ptr_lt_freshPtr {item : NextHopListItem} {l : List NextHopListItem} (h : item ∈ l) :
    item.ptr < freshPtr l := by
  induction l with
  | nil => cases h
  | cons a l ih =>
    have hcons : freshPtr (a :: l) = max a.ptr ((l.map NextHopListItem.ptr).foldr max 0) + 1 := rfl
    rcases List.mem_cons.1 h with rfl | h
    · omega
    · have := ih h
      unfold freshPtr at this
      omega

/-- A new item never is in the list, so it is always added. -/
theorem addNextHop_eq (l : List NextHopListItem) (i : ℕ) (n : Option Ip) :
    addNextHop l i n = (true, l ++ [⟨freshPtr l, i, n⟩]) := by
  have habsent : isPresentinNextHopList l ⟨freshPtr l, i, n⟩ = false := by
    refine List.any_eq_false.2 fun item hitem => ?_
    have := ptr_lt_freshPtr hitem
    simp only [beq_iff_eq]
    omega
  unfold addNextHop
  simp only [habsent, Bool.not_false, if_true]

theorem hops_addNextHop (l : List NextHopListItem) (i : ℕ) (n : Option Ip) :
    hops (addNextHop l i n).2 = hops l ++ [(i, n)] := by
  rw [addNextHop_eq, hops_append]
  rfl

/-- The loop of `inheritNextHops`, from any flag. -/
theorem foldl_addNextHop (parentList l : List NextHopListItem) (inserted : Bool) :
    (parentList.foldl (fun (inserted, list) (listItem : NextHopListItem) =>
      let (added, list) := addNextHop list listItem.outIntf listItem.nextHop
      (inserted || added, list)) (inserted, l)).1 = (inserted || !parentList.isEmpty) ∧
    hops (parentList.foldl (fun (inserted, list) (listItem : NextHopListItem) =>
      let (added, list) := addNextHop list listItem.outIntf listItem.nextHop
      (inserted || added, list)) (inserted, l)).2 = hops l ++ hops parentList := by
  induction parentList generalizing l inserted with
  | nil => simp
  | cons item rest ih =>
    rw [List.foldl_cons]
    obtain ⟨h1, h2⟩ := ih (addNextHop l item.outIntf item.nextHop).2
      (inserted || (addNextHop l item.outIntf item.nextHop).1)
    refine ⟨h1.trans ?_, h2.trans ?_⟩
    · simp [addNextHop_eq]
    · rw [hops_addNextHop, List.append_assoc]
      rfl

theorem inheritNextHops_spec (l parentList : List NextHopListItem) :
    (inheritNextHops l parentList).1 = !parentList.isEmpty ∧
      hops (inheritNextHops l parentList).2 = hops l ++ hops parentList :=
  foldl_addNextHop parentList l false

/-- `ospf_spf_setNextHopForThisVertex` adds what the parent passes on, and fails if that is
nothing. -/
theorem setNextHop_spec (ospf : Pds) (stack : Stack) (vertex : Vertex) {parent : Vertex}
    (hrouter : parent.vertexType = .router) :
    (setNextHopForThisVertex ospf stack vertex parent).1 =
        !(firstHops ospf stack parent vertex.key).isEmpty ∧
      hops (setNextHopForThisVertex ospf stack vertex parent).2 =
        hops vertex.nextHopList ++ firstHops ospf stack parent vertex.key := by
  by_cases hroot : parent.key = rootNode ospf
  · -- the root: the hop is looked up
    have hsame : parent.vertexId.same ospf.routerId = true := by
      have := congrArg Prod.snd hroot
      exact (Ip.same_iff _ _).2 this
    have hfirst : firstHops ospf stack parent vertex.key = (rootHop ospf stack parent.lsa vertex.key).toList :=
      if_pos hroot
    have hset : setNextHopForThisVertex ospf stack vertex parent =
        match rootHop ospf stack parent.lsa vertex.key with
        | none => (false, vertex.nextHopList)
        | some (i, n) => addNextHop vertex.nextHopList i n := by
      unfold setNextHopForThisVertex rootHop linkHop getLinkDataForThisVertex
      simp only [hrouter, hsame, beq_self_eq_true, Bool.and_self, if_true]
      have hid : ∀ x : Ip, x.same vertex.vertexId = x.same ⟨0, vertex.key.2⟩ := fun x => same_congr rfl x
      simp only [hid]
      cases (parent.lsa.lsaInfo.rlsaLink.find? fun link =>
          link.type != .stub && link.linkId.same ⟨0, vertex.key.2⟩) with
      | none => rfl
      | some link =>
        simp only [Option.map_some, Option.bind_some]
        cases ifGet ospf (stack.getInterfaceIdFromIP link.linkData) with
        | none => rfl
        | some thisInterface =>
          simp only [Option.bind_some]
          by_cases hdown : (thisInterface.state == .down) = true
          · simp only [hdown, if_true]
          · simp only [hdown, if_false, Bool.false_eq_true]
            have hfind : neighborFind thisInterface vertex.vertexId =
                neighborFind thisInterface ⟨0, vertex.vertexId.intIp⟩ := neighborFind_congr rfl _
            unfold Vertex.key
            cases vertex.vertexType with
            | network => rfl
            | router =>
              dsimp only
              rw [hfind]
              cases neighborFind thisInterface ⟨0, vertex.vertexId.intIp⟩ <;> rfl
    rw [hset, hfirst]
    cases rootHop ospf stack parent.lsa vertex.key with
    | none => simp
    | some hop =>
      obtain ⟨i, n⟩ := hop
      refine ⟨?_, hops_addNextHop ..⟩
      dsimp only
      rw [addNextHop_eq]
      rfl
  · -- any other router: the hops are inherited
    have hfirst : firstHops ospf stack parent vertex.key = hops parent.nextHopList := if_neg hroot
    have hother : parent.vertexId.same ospf.routerId = false := by
      rw [Bool.eq_false_iff, ne_eq, Ip.same_iff]
      intro h
      exact hroot (Prod.ext hrouter h)
    have hset : setNextHopForThisVertex ospf stack vertex parent =
        inheritNextHops vertex.nextHopList parent.nextHopList := by
      unfold setNextHopForThisVertex
      simp [hrouter, hother]
    rw [hset, hfirst]
    obtain ⟨h1, h2⟩ := inheritNextHops_spec vertex.nextHopList parent.nextHopList
    refine ⟨h1.trans ?_, h2⟩
    unfold hops
    cases parent.nextHopList <;> rfl

/-! ## One link -/

/-- What a link of `v` does to the candidate list: nothing, a new candidate, or a candidate that gets
a smaller distance or more next hops. -/
inductive Examined (ospf : Pds) (stack : Stack) (area : AreaDs) (spl : List Vertex) (v : Vertex)
    (cand : List Vertex) (link : RlsaLink) : List Vertex → Prop
  | skip (hskip : ∀ w, link.node? = some w → (liveLsa ospf area w).isSome →
      (∃ x ∈ spl, x.key = w) ∨ (firstHops ospf stack v w = [] ∧ ∀ c ∈ cand, c.key ≠ w) ∨
        ∃ c ∈ cand, c.key = w ∧ c.distance < v.distance + link.metric.toNat) :
      Examined ospf stack area spl v cand link cand
  | insert (w : Node) (lsa : LsaHdr) (item : Vertex) (hnode : link.node? = some w)
      (hlsa : liveLsa ospf area w = some lsa) (hspl : ∀ x ∈ spl, x.key ≠ w)
      (hcand : ∀ c ∈ cand, c.key ≠ w) (hfirst : firstHops ospf stack v w ≠ [])
      (hkey : item.key = w) (hitem : item.lsa = lsa)
      (hdist : item.distance = v.distance + link.metric.toNat)
      (hhops : hops item.nextHopList = firstHops ospf stack v w) :
      Examined ospf stack area spl v cand link (cand ++ [item])
  | update (w : Node) (c item : Vertex) (l₁ l₂ : List Vertex) (hnode : link.node? = some w)
      (hlive : (liveLsa ospf area w).isSome) (hspl : ∀ x ∈ spl, x.key ≠ w)
      (hcand : cand = l₁ ++ c :: l₂) (hckey : c.key = w) (hkey : item.key = w)
      (hitem : item.lsa = c.lsa) (hdist : item.distance = v.distance + link.metric.toNat)
      (hhops : item.distance < c.distance ∧ hops item.nextHopList = firstHops ospf stack v w ∨
        c.distance = item.distance ∧
          hops item.nextHopList = hops c.nextHopList ++ firstHops ospf stack v w) :
      Examined ospf stack area spl v cand link (l₁ ++ item :: l₂)

variable {ospf : Pds} {stack : Stack} {area : AreaDs} {spl cand : List Vertex} {v : Vertex}
  {link : RlsaLink}

theorem node?_eq_some {w : Node} (h : link.node? = some w) : link.linkId.intIp = w.2 := by
  unfold RlsaLink.node? at h
  split at h <;> first | cases h; rfl | cases h

theorem isInShortestPathList_iff (l : List Vertex) (t : VertexType) (i : Ip) :
    isInShortestPathList l t i = true ↔ ∃ x ∈ l, x.key = (t, i.intIp) := by
  unfold isInShortestPathList
  simp only [List.any_eq_true, Vertex.is_iff]

theorem findCandidate_eq_none (l : List Vertex) (t : VertexType) (i : Ip) :
    findCandidate l t i = none ↔ ∀ c ∈ l, c.key ≠ (t, i.intIp) := by
  unfold findCandidate
  simp only [List.find?_eq_none, Vertex.is_iff, ne_eq]

theorem examineLink_cases (hrouter : v.vertexType = .router)
    (hbound : v.distance + link.metric.toNat < 4294967296) :
    Examined ospf stack area spl v cand link (examineLink ospf stack area spl v cand link) := by
  unfold examineLink
  rw [linkTarget_eq]
  cases hnode : link.node? with
  | none => exact .skip fun w hw => by rw [hnode] at hw; cases hw
  | some w =>
    have hid := node?_eq_some hnode
    have hw : w = (w.1, link.linkId.intIp) := Prod.ext rfl hid.symm
    simp only [Option.map_some]
    cases hlsa : lsaOf area w with
    | none =>
      refine .skip fun x hx hlive => ?_
      obtain rfl := Option.some.inj (hnode.symm.trans hx)
      obtain ⟨lsa, hl⟩ := Option.isSome_iff_exists.1 hlive
      rw [(liveLsa_eq_some.1 hl).1] at hlsa
      cases hlsa
    | some wlsa =>
      dsimp only
      -- the tests that `continue`
      by_cases hold : (hasMaxAge ospf wlsa || isInShortestPathList spl w.1 link.linkId) = true
      · rw [if_pos hold]
        refine .skip fun x hx hlive => ?_
        obtain rfl := Option.some.inj (hnode.symm.trans hx)
        rcases Bool.or_eq_true_iff.1 hold with hmax | hin
        · obtain ⟨lsa, hl⟩ := Option.isSome_iff_exists.1 hlive
          obtain ⟨hfound, hage⟩ := liveLsa_eq_some.1 hl
          obtain rfl := Option.some.inj (hlsa.symm.trans hfound)
          rw [hage] at hmax
          cases hmax
        · rw [isInShortestPathList_iff, ← hw] at hin
          exact .inl hin
      · rw [if_neg hold, Word.u32_of_lt hbound]
        simp only [Bool.or_eq_true, not_or, Bool.not_eq_true] at hold
        obtain ⟨hage, hin⟩ := hold
        have hlive : liveLsa ospf area w = some wlsa := liveLsa_eq_some.2 ⟨hlsa, hage⟩
        have hsome : (liveLsa ospf area w).isSome := by rw [hlive]; rfl
        have hspl : ∀ x ∈ spl, x.key ≠ w := by
          intro x hx hkey
          rw [Bool.eq_false_iff, ne_eq, isInShortestPathList_iff, ← hw] at hin
          exact hin ⟨x, hx, hkey⟩
        have hlsid := lsaOf_linkStateId hlsa
        have hw' : (w.1, wlsa.linkStateId.intIp) = w := Prod.ext rfl hlsid
        cases hfind : findCandidate cand w.1 wlsa.linkStateId with
        | none =>
          -- a new candidate, if it has a next hop
          rw [findCandidate_eq_none, hw'] at hfind
          obtain ⟨hset, hhops⟩ := setNextHop_spec ospf stack
            ⟨wlsa.linkStateId, w.1, wlsa, [], v.distance + link.metric.toNat⟩ hrouter
          have hkey : (⟨wlsa.linkStateId, w.1, wlsa, [], v.distance + link.metric.toNat⟩ : Vertex).key = w := hw'
          rw [hkey] at hset hhops
          dsimp only
          rw [hset]
          by_cases hfirst : firstHops ospf stack v w = []
          · rw [hfirst]
            refine .skip fun x hx _ => .inr (.inl ?_)
            obtain rfl := Option.some.inj (hnode.symm.trans hx)
            exact ⟨hfirst, hfind⟩
          · rw [if_pos (by simpa using hfirst)]
            exact .insert w wlsa _ hnode hlive hspl hfind hfirst hkey rfl rfl hhops
        | some c =>
          have hc : c.key = w := by
            have := (Vertex.is_iff _ _ _).1 (List.find?_some hfind)
            rw [this, hw']
          have hsplit := fun b => FirstMatch.replaceFirst_of_find? (b := b) hfind
          dsimp only
          generalize hd : v.distance + link.metric.toNat = d
          by_cases hgt : c.distance > d
          · -- a cheaper path: the next hops start anew
            rw [if_pos hgt]
            let lowered : Vertex := { c with distance := d, nextHopList := [] }
            obtain ⟨-, hhops⟩ := setNextHop_spec ospf stack lowered hrouter
            obtain ⟨l₁, l₂, -, hcand, hrep⟩ := hsplit
              { lowered with nextHopList := (setNextHopForThisVertex ospf stack lowered v).2 }
            rw [hrep]
            refine .update w c _ l₁ l₂ hnode hsome hspl hcand hc hc rfl hd.symm (.inl ⟨hgt, ?_⟩)
            rw [← hc]
            exact hhops
          · rw [if_neg hgt]
            by_cases heq : c.distance = d
            · -- a path of the same cost adds its own
              rw [if_pos (beq_iff_eq.2 heq)]
              obtain ⟨-, hhops⟩ := setNextHop_spec ospf stack c hrouter
              obtain ⟨l₁, l₂, -, hcand, hrep⟩ := hsplit
                { c with nextHopList := (setNextHopForThisVertex ospf stack c v).2 }
              rw [hrep]
              refine .update w c _ l₁ l₂ hnode hsome hspl hcand hc hc rfl (heq.trans hd.symm) (.inr ⟨rfl, ?_⟩)
              rw [← hc]
              exact hhops
            · rw [if_neg (by simpa using heq)]
              refine .skip fun x hx _ => .inr (.inr ⟨c, List.mem_of_find?_eq_some hfind, ?_, by omega⟩)
              obtain rfl := Option.some.inj (hnode.symm.trans hx)
              exact hc

end NetSim.Ospf
