import Mathlib.Data.List.Pairwise
import NetSim.Proof.SpfNextHop

/-!
# Next hop lists and first hops

The next hop lists are the first hops of the minimum-cost paths, each once, if and only if every first
hop comes to a vertex over one link (`nextHops_iff`). Two paths of equal cost that share their first
link give a list with a duplicate (`nextHops_diamond`).
-/

namespace NetSim.Ospf

open ShortestPath

/-! ## First hops -/

/-- The edges of the database, where a link of the root needs a next hop. -/
def UsableEdge (ospf : Pds) (stack : Stack) (area : AreaDs) (v w : Node) (m : ℕ) : Prop :=
  ∃ link, LinkEdge ospf area v w link ∧ link.metric.toNat = m ∧
    (v = rootNode ospf → (linkHop ospf stack link w).isSome)

/-- A path from the root whose first link has the next hop `hop`, with its cost. -/
inductive HopPath (ospf : Pds) (stack : Stack) (area : AreaDs) (hop : ℕ × Option Ip) : Node → ℕ → Prop
  | first {w : Node} {link : RlsaLink} : LinkEdge ospf area (rootNode ospf) w link →
      linkHop ospf stack link w = some hop → w ≠ rootNode ospf →
      HopPath ospf stack area hop w link.metric.toNat
  | snoc {v w : Node} {c : ℕ} {link : RlsaLink} : HopPath ospf stack area hop v c →
      LinkEdge ospf area v w link → w ≠ rootNode ospf →
      HopPath ospf stack area hop w (c + link.metric.toNat)

/-- `hop` is the first hop of a minimum-cost path to `w`. -/
def FirstHop (ospf : Pds) (stack : Stack) (area : AreaDs) (w : Node) (hop : ℕ × Option Ip) : Prop :=
  ∃ d, IsDist (UsableEdge ospf stack area) (rootNode ospf) w d ∧ HopPath ospf stack area hop w d

/-- Every vertex carries the first hops of its minimum-cost paths, without duplicates. -/
def NextHopsExact (ospf : Pds) (stack : Stack) (area : AreaDs) (spl : List Vertex) : Prop :=
  ∀ w ∈ spl, (hops w.nextHopList).Nodup ∧
    ∀ hop, hop ∈ hops w.nextHopList ↔ FirstHop ospf stack area w.key hop

/-- The links of the root whose metric is the distance of the neighbour, in the graph of the links that have a next hop
or in that of the search, have a next hop if and only if the first link to this neighbour has one. -/
def RootLinksAgree (ospf : Pds) (stack : Stack) (area : AreaDs) : Prop :=
  ∀ rootLsa w link, liveLsa ospf area (rootNode ospf) = some rootLsa →
    LinkEdge ospf area (rootNode ospf) w link → w ≠ rootNode ospf →
    IsDist (UsableEdge ospf stack area) (rootNode ospf) w link.metric.toNat ∨
      IsDist (SpfEdge ospf stack area) (rootNode ospf) w link.metric.toNat →
    ((linkHop ospf stack link w).isSome ↔ (rootHop ospf stack rootLsa w).isSome)

/-- Where minimum-cost paths come to a vertex from several others, the last links that are not links of the root have a
positive metric. -/
def PositiveLinks (ospf : Pds) (stack : Stack) (area : AreaDs) : Prop :=
  ∀ v v' w link link', ShortestLink ospf area (UsableEdge ospf stack area) v w link →
    ShortestLink ospf area (UsableEdge ospf stack area) v' w link' → v ≠ v' → v ≠ rootNode ospf →
    0 < link.metric.toNat

/-- A link on a minimum-cost path to `w` has `hop` as its first hop or passes it on. -/
structure Passes (ospf : Pds) (stack : Stack) (area : AreaDs) (v w : Node) (link : RlsaLink)
    (hop : ℕ × Option Ip) : Prop where
  shortest : ShortestLink ospf area (UsableEdge ospf stack area) v w link
  hop : v = rootNode ospf ∧ linkHop ospf stack link w = some hop ∨ FirstHop ospf stack area v hop

/-- Every first hop comes to a node over one link, and the hop of a link of the root is that of the
first link to the same neighbour. -/
structure FirstHopsApart (ospf : Pds) (stack : Stack) (area : AreaDs) : Prop where
  rootLink : ∀ rootLsa w link, liveLsa ospf area (rootNode ospf) = some rootLsa →
    ShortestLink ospf area (UsableEdge ospf stack area) (rootNode ospf) w link →
    linkHop ospf stack link w = rootHop ospf stack rootLsa w
  parallel : ∀ v w lsa, liveLsa ospf area v = some lsa →
    lsa.lsaInfo.rlsaLink.Pairwise fun link link' =>
      ¬ (ShortestLink ospf area (UsableEdge ospf stack area) v w link ∧
        ShortestLink ospf area (UsableEdge ospf stack area) v w link')
  parents : ∀ v v' w link link' hop, Passes ospf stack area v w link hop →
    Passes ospf stack area v' w link' hop → v = v'

variable {ospf : Pds} {stack : Stack} {area : AreaDs} {s : SpfState} {spl l₁ l₂ : List Vertex}
  {v w : Node} {x y : Vertex} {link : RlsaLink} {hop : ℕ × Option Ip}

theorem HopPath.ne_root {c : ℕ} (h : HopPath ospf stack area hop w c) : w ≠ rootNode ospf := by
  cases h with
  | first _ _ hne => exact hne
  | snoc _ _ hne => exact hne

theorem HopPath.walk {c : ℕ} (h : HopPath ospf stack area hop w c) :
    Walk (UsableEdge ospf stack area) (rootNode ospf) w c := by
  induction h with
  | @first w link hedge hhop hne =>
    rw [← Nat.zero_add link.metric.toNat]
    exact .snoc .nil ⟨link, hedge, rfl, fun _ => by rw [hhop]; rfl⟩
  | snoc hpath hedge hne ih => exact .snoc ih ⟨_, hedge, rfl, fun hroot => absurd hroot hpath.ne_root⟩

theorem FirstHop.ne_root (h : FirstHop ospf stack area w hop) : w ≠ rootNode ospf := by
  obtain ⟨_, _, hpath⟩ := h
  exact hpath.ne_root

/-- The first hops of a node come over the last links of its minimum-cost paths. -/
theorem firstHop_iff
    (hlt : ∀ d, IsDist (UsableEdge ospf stack area) (rootNode ospf) w d → d < lsInfinity) :
    FirstHop ospf stack area w hop ↔ ∃ v link, Passes ospf stack area v w link hop := by
  constructor
  · rintro ⟨d, hdist, hpath⟩
    have hinf := hlt d hdist
    cases hpath with
    | @first _ link hedge hhop hne =>
      have hedge' : UsableEdge ospf stack area (rootNode ospf) w link.metric.toNat :=
        ⟨link, hedge, rfl, fun _ => by rw [hhop]; rfl⟩
      refine ⟨rootNode ospf, link, ⟨hedge, hedge', hne, 0, isDist_root, ?_⟩, .inl ⟨rfl, hhop⟩⟩
      rw [Nat.zero_add]
      exact ⟨hdist, hinf⟩
    | @snoc v _ c link hpath hedge hne =>
      have hedge' : UsableEdge ospf stack area v w link.metric.toNat :=
        ⟨link, hedge, rfl, fun hroot => absurd hroot hpath.ne_root⟩
      have hv := hdist.of_snoc hpath.walk hedge'
      exact ⟨v, link, ⟨hedge, hedge', hne, c, hv, hdist, hinf⟩, .inr ⟨c, hv, hpath⟩⟩
  · rintro ⟨v, link, ⟨hedge, -, hne, d, hv, hw, -⟩, ⟨rfl, hhop⟩ | ⟨e, he, hpath⟩⟩
    · obtain rfl := hv.unique isDist_root
      rw [Nat.zero_add] at hw
      exact ⟨_, hw, .first hedge hhop hne⟩
    · obtain rfl := hv.unique he
      exact ⟨_, hw, .snoc hpath hedge hne⟩

/-- Links of other routers need no next hop. -/
theorem usableEdge_iff_of_ne {m : ℕ} (hv : v ≠ rootNode ospf) :
    UsableEdge ospf stack area v w m ↔ SpfEdge ospf stack area v w m := by
  constructor
  · rintro ⟨link, hedge, rfl, -⟩
    exact ⟨⟨link, hedge, rfl⟩, fun _ hroot => absurd hroot hv⟩
  · rintro ⟨⟨link, hedge, rfl⟩, -⟩
    exact ⟨link, hedge, rfl, fun hroot => absurd hroot hv⟩

/-! ## Links of the root that agree -/

section Agree

variable (hagree : RootLinksAgree ospf stack area)
include hagree

theorem usableEdge_root_iff {m : ℕ} (hw : w ≠ rootNode ospf)
    (hdist : IsDist (UsableEdge ospf stack area) (rootNode ospf) w m ∨
      IsDist (SpfEdge ospf stack area) (rootNode ospf) w m) :
    UsableEdge ospf stack area (rootNode ospf) w m ↔ SpfEdge ospf stack area (rootNode ospf) w m := by
  constructor
  · rintro ⟨link, hedge, rfl, hhop⟩
    refine ⟨⟨link, hedge, rfl⟩, ?_⟩
    intro lsa _ hlsa
    exact (hagree lsa w link hlsa hedge hw hdist).1 (hhop rfl)
  · rintro ⟨⟨link, hedge, rfl⟩, hhop⟩
    refine ⟨link, hedge, rfl, ?_⟩
    intro _
    obtain ⟨lsa, hlsa, -⟩ := hedge.mem
    exact (hagree lsa w link hlsa hedge hw hdist).2 (hhop lsa rfl hlsa)

theorem spfEdge_of_tight (v w : Node) (m : ℕ) (h : Tight (UsableEdge ospf stack area) (rootNode ospf) v w m)
    (hw : w ≠ rootNode ospf) : SpfEdge ospf stack area v w m := by
  obtain ⟨d, hv, hedge, hdist⟩ := h
  by_cases hroot : v = rootNode ospf
  · subst hroot
    obtain rfl := hv.unique isDist_root
    rw [Nat.zero_add] at hdist
    exact (usableEdge_root_iff hagree hw (.inl hdist)).1 hedge
  · exact (usableEdge_iff_of_ne hroot).1 hedge

theorem usableEdge_of_tight (v w : Node) (m : ℕ) (h : Tight (SpfEdge ospf stack area) (rootNode ospf) v w m)
    (hw : w ≠ rootNode ospf) : UsableEdge ospf stack area v w m := by
  obtain ⟨d, hv, hedge, hdist⟩ := h
  by_cases hroot : v = rootNode ospf
  · subst hroot
    obtain rfl := hv.unique isDist_root
    rw [Nat.zero_add] at hdist
    exact (usableEdge_root_iff hagree hw (.inr hdist)).2 hedge
  · exact (usableEdge_iff_of_ne hroot).2 hedge

/-- The search finds the distances. -/
theorem isDist_usableEdge_iff {d : ℕ} : IsDist (UsableEdge ospf stack area) (rootNode ospf) w d ↔
    IsDist (SpfEdge ospf stack area) (rootNode ospf) w d :=
  isDist_congr (spfEdge_of_tight hagree) (usableEdge_of_tight hagree)

/-- It follows the links on minimum-cost paths. -/
theorem shortestLink_usableEdge_iff : ShortestLink ospf area (UsableEdge ospf stack area) v w link ↔
    ShortestLink ospf area (SpfEdge ospf stack area) v w link := by
  constructor
  · rintro ⟨hlink, hedge, hne, d, hv, hw, hlt⟩
    exact ⟨hlink, spfEdge_of_tight hagree v w _ ⟨d, hv, hedge, hw⟩ hne, hne, d,
      (isDist_usableEdge_iff hagree).1 hv, (isDist_usableEdge_iff hagree).1 hw, hlt⟩
  · rintro ⟨hlink, hedge, hne, d, hv, hw, hlt⟩
    exact ⟨hlink, usableEdge_of_tight hagree v w _ ⟨d, hv, hedge, hw⟩ hne, hne, d,
      (isDist_usableEdge_iff hagree).2 hv, (isDist_usableEdge_iff hagree).2 hw, hlt⟩

end Agree

/-! ## Contributions -/

/-- A link leads to a node and gives it this distance. -/
def Leads (w : Node) (d : ℕ) (p : Vertex × RlsaLink) : Prop :=
  p.2.node? = some w ∧ p.1.distance + p.2.metric.toNat = d

theorem mem_scans_iff {l : List Vertex} :
    (x, link) ∈ scans l ↔ x ∈ l ∧ x.vertexType = .router ∧ link ∈ x.lsa.lsaInfo.rlsaLink := by
  unfold scans
  rw [List.mem_flatMap]
  constructor
  · rintro ⟨z, hz, hmem⟩
    cases htype : z.vertexType with
    | router =>
      rw [htype] at hmem
      obtain ⟨l, hl, heq⟩ := List.mem_map.1 hmem
      cases heq
      exact ⟨hz, htype, hl⟩
    | network =>
      rw [htype] at hmem
      cases hmem
  · rintro ⟨hx, htype, hlink⟩
    refine ⟨x, hx, ?_⟩
    rw [htype]
    exact List.mem_map_of_mem hlink

theorem mem_contrib {done : List (Vertex × RlsaLink)} {d : ℕ} :
    hop ∈ contrib ospf stack done w d ↔ ∃ p ∈ done, Leads w d p ∧ hop ∈ firstHops ospf stack p.1 w := by
  unfold contrib Leads
  simp only [List.mem_flatMap]
  refine exists_congr fun p => and_congr_right fun _ => ?_
  split
  · rename_i h
    exact (and_iff_right h).symm
  · rename_i h
    simp [h]

theorem contrib_nodup_iff {done : List (Vertex × RlsaLink)} {d : ℕ} :
    (contrib ospf stack done w d).Nodup ↔
      (∀ p ∈ done, Leads w d p → (firstHops ospf stack p.1 w).Nodup) ∧
        done.Pairwise fun p q => Leads w d p → Leads w d q →
          (firstHops ospf stack p.1 w).Disjoint (firstHops ospf stack q.1 w) := by
  unfold contrib
  rw [List.nodup_flatMap]
  refine and_congr (forall₂_congr fun p _ => ?_) (List.Pairwise.iff fun p q => ?_)
  · unfold Leads
    split
    · rename_i h
      exact ⟨fun hnd _ => hnd, fun hnd => hnd h⟩
    · rename_i h
      exact ⟨fun _ hl => absurd hl h, fun _ => List.nodup_nil⟩
  · unfold Leads Function.onFun
    dsimp only
    by_cases hp : p.2.node? = some w ∧ p.1.distance + p.2.metric.toNat = d
    · by_cases hq : q.2.node? = some w ∧ q.1.distance + q.2.metric.toNat = d
      · rw [if_pos hp, if_pos hq]
        exact ⟨fun h _ _ => h, fun h => h hp hq⟩
      · rw [if_neg hq]
        exact ⟨fun _ _ h => absurd h hq, fun _ => List.disjoint_nil_right _⟩
    · rw [if_neg hp]
      exact ⟨fun _ h => absurd h hp, fun _ => List.disjoint_nil_left _⟩

/-- In a list without duplicates a hop comes over one link. -/
theorem contrib_once {done : List (Vertex × RlsaLink)} {d : ℕ}
    (hnd : (contrib ospf stack done w d).Nodup) {p q : Vertex × RlsaLink} (hp : p ∈ done) (hq : q ∈ done)
    (hpl : Leads w d p) (hql : Leads w d q) (hphop : hop ∈ firstHops ospf stack p.1 w)
    (hqhop : hop ∈ firstHops ospf stack q.1 w) : p = q := by
  by_contra hne
  have hpair := (contrib_nodup_iff.1 hnd).2
  have hsymm : Std.Symm fun p q : Vertex × RlsaLink => Leads w d p → Leads w d q →
      (firstHops ospf stack p.1 w).Disjoint (firstHops ospf stack q.1 w) :=
    ⟨fun p q h hq hp => List.disjoint_symm (h hp hq)⟩
  exact hpair.forall hp hq hne hpl hql hphop hqhop

/-! ## The lists -/

/-- What is known of the lists when the links of the root agree and no path that joins another one is for free. -/
structure HopLists (ospf : Pds) (stack : Stack) (area : AreaDs) (s : SpfState) : Prop where
  ends : SpfEnds ospf stack area s
  live : (liveLsa ospf area (rootNode ospf)).isSome
  agree : RootLinksAgree ospf stack area
  positive : PositiveLinks ospf stack area

namespace HopLists

variable (h : HopLists ospf stack area s)
include h

theorem inv : SearchInv ospf stack area s.shortestPathList s.candidateList (scans s.shortestPathList) :=
  (h.ends.inv h.live).1

/-- The distances of the vertices. -/
theorem isDist (hy : y ∈ s.shortestPathList) :
    IsDist (UsableEdge ospf stack area) (rootNode ospf) y.key y.distance ∧ y.distance < lsInfinity := by
  rw [isDist_usableEdge_iff h.agree]
  exact ((mem_shortestPathList_iff h.ends _ _).1 (labels_of_mem hy)).2

/-- Only the first vertex is the root. -/
theorem head_eq (hspl : s.shortestPathList = l₁ ++ y :: l₂) (hne : y.key ≠ rootNode ospf) :
    ∃ root l, l₁ = root :: l ∧ root.key = rootNode ospf := by
  have hhead := h.inv.head
  rw [hspl] at hhead
  cases l₁ with
  | nil => exact absurd (Option.some.inj hhead) hne
  | cons root l => exact ⟨root, l, rfl, Option.some.inj hhead⟩

/-- A scanned link that leads to a vertex and passes hops lies on a minimum-cost path. -/
theorem shortestLink (hspl : s.shortestPathList = l₁ ++ y :: l₂) (hne : y.key ≠ rootNode ospf)
    (hp : (x, link) ∈ scans l₁) (hleads : Leads y.key y.distance (x, link))
    (hfirst : firstHops ospf stack x y.key ≠ []) :
    x ∈ l₁ ∧ ShortestLink ospf area (UsableEdge ospf stack area) x.key y.key link := by
  obtain ⟨hx, hrouter, hlink⟩ := mem_scans_iff.1 hp
  have hmem : ∀ a ∈ l₁, a ∈ s.shortestPathList := by
    rw [hspl]
    exact fun a ha => List.mem_append_left _ ha
  have hy : y ∈ s.shortestPathList := by
    rw [hspl]
    exact List.mem_append_right _ List.mem_cons_self
  refine ⟨hx, ?_⟩
  rw [shortestLink_usableEdge_iff h.agree]
  exact (reachedOver_iff h.ends h.live _ _ link).2
    ⟨x, y, rfl, rfl, hmem x hx, hy, hrouter, hlink, hleads.1, hne, hfirst, hleads.2.symm⟩

theorem hops_eq (hspl : s.shortestPathList = l₁ ++ y :: l₂) :
    hops y.nextHopList = contrib ospf stack (scans l₁) y.key y.distance :=
  (h.ends.hopInv h.live).spl l₁ y l₂ hspl

/-- The list of a vertex came from a vertex that was settled before, over a link on a minimum-cost path. -/
theorem exists_parent (hspl : s.shortestPathList = l₁ ++ y :: l₂) (hne : y.key ≠ rootNode ospf) :
    ∃ x ∈ l₁, ∃ link, ShortestLink ospf area (UsableEdge ospf stack area) x.key y.key link := by
  have hy : y ∈ s.shortestPathList := by
    rw [hspl]
    exact List.mem_append_right _ List.mem_cons_self
  have hsome : hops y.nextHopList ≠ [] := by
    have hlist := h.inv.hops y (List.mem_append_left _ hy) hne
    unfold hops
    rwa [ne_eq, List.map_eq_nil_iff]
  obtain ⟨hop, hhop⟩ := List.exists_mem_of_ne_nil _ hsome
  rw [h.hops_eq hspl, mem_contrib] at hhop
  obtain ⟨⟨x, link⟩, hp, hleads, hfirst⟩ := hhop
  obtain ⟨hx, hshort⟩ := h.shortestLink hspl hne hp hleads (List.ne_nil_of_mem hfirst)
  exact ⟨x, hx, link, hshort⟩

/-- A link on a minimum-cost path leaves a vertex that was settled before. -/
theorem mem_scans (hspl : s.shortestPathList = l₁ ++ y :: l₂)
    (hlink : ShortestLink ospf area (UsableEdge ospf stack area) v y.key link) :
    ∃ x ∈ l₁, x.key = v ∧ (x, link) ∈ scans l₁ ∧ Leads y.key y.distance (x, link) ∧
      firstHops ospf stack x y.key ≠ [] := by
  have hy : y ∈ s.shortestPathList := by
    rw [hspl]
    exact List.mem_append_right _ List.mem_cons_self
  have hbefore : ∀ a ∈ l₁, a ∈ s.shortestPathList := by
    rw [hspl]
    exact fun a ha => List.mem_append_left _ ha
  have hunique : ∀ a ∈ s.shortestPathList, ∀ b ∈ s.shortestPathList, a.key = b.key → a = b :=
    fun a ha b hb => h.inv.eq_of_key (List.mem_append_left _ ha) (List.mem_append_left _ hb)
  have hne := hlink.notRoot
  have hspf := (shortestLink_usableEdge_iff h.agree).1 hlink
  obtain ⟨x, y', rfl, hkey, hover⟩ := (reachedOver_iff h.ends h.live _ _ link).1 hspf
  obtain rfl := hunique y' hover.right y hy hkey
  have hx : x ∈ l₁ := by
    by_cases hroot : x.key = rootNode ospf
    · obtain ⟨root, l, rfl, hrkey⟩ := h.head_eq hspl hne
      rw [hunique x hover.left root (hbefore root List.mem_cons_self) (hroot.trans hrkey.symm)]
      exact List.mem_cons_self
    · obtain ⟨x', hx', link', hlink'⟩ := h.exists_parent hspl hne
      by_cases hparent : x.key = x'.key
      · -- the only parent
        rw [hunique x hover.left x' (hbefore x' hx') hparent]
        exact hx'
      · -- one of several: a vertex with a smaller distance stands before
        have hmetric := h.positive _ _ _ link link' hlink hlink' hparent hroot
        have hdist := hover.distance
        have hxmem := hover.left
        have hsorted := h.inv.sorted
        rw [hspl] at hxmem hsorted
        rcases List.mem_append.1 hxmem with hx | hx
        · exact hx
        · rcases List.mem_cons.1 hx with rfl | hx
          · omega
          · have := List.rel_of_pairwise_cons (List.pairwise_append.1 hsorted).2.1 hx
            omega
  exact ⟨x, hx, rfl, mem_scans_iff.2 ⟨hx, hover.router, hover.mem⟩, ⟨hover.node, hover.distance.symm⟩,
    hover.hops⟩

/-- The root has no next hops. -/
theorem root_hops (hy : y ∈ s.shortestPathList) (hroot : y.key = rootNode ospf) :
    hops y.nextHopList = [] := by
  obtain ⟨l₁, l₂, hspl⟩ := List.append_of_mem hy
  rw [h.hops_eq hspl, List.eq_nil_iff_forall_not_mem]
  cases l₁ with
  | nil => exact fun hop hhop => List.not_mem_nil hhop
  | cons x l =>
    -- another vertex before it would be the root as well
    have hhead := h.inv.head
    have hnd := h.inv.nodup
    rw [hspl] at hhead hnd
    have hx : x.key = y.key := (Option.some.inj hhead).trans hroot.symm
    rw [List.append_assoc, List.cons_append, List.map_cons, List.nodup_cons] at hnd
    refine absurd ?_ hnd.1
    rw [hx]
    exact List.mem_map_of_mem (List.mem_append_right _ (List.mem_append_left _ List.mem_cons_self))

/-- What a vertex with an exact list passes on over a link on a minimum-cost path. -/
theorem mem_firstHops_iff (hx : x ∈ s.shortestPathList)
    (hexact : ∀ hop, hop ∈ hops x.nextHopList ↔ FirstHop ospf stack area x.key hop)
    (hroot : ∀ rootLsa link, liveLsa ospf area (rootNode ospf) = some rootLsa →
      ShortestLink ospf area (UsableEdge ospf stack area) (rootNode ospf) w link →
      linkHop ospf stack link w = rootHop ospf stack rootLsa w)
    (hshort : ShortestLink ospf area (UsableEdge ospf stack area) x.key w link) :
    hop ∈ firstHops ospf stack x w ↔ Passes ospf stack area x.key w link hop := by
  have hlsa := h.inv.live x (List.mem_append_left _ hx)
  unfold firstHops
  split
  · rename_i hkey
    rw [hkey] at hlsa hshort
    rw [← hroot x.lsa link hlsa hshort, Option.mem_toList]
    constructor
    · rw [hkey]
      exact fun hhop => ⟨hshort, .inl ⟨rfl, hhop⟩⟩
    · rintro ⟨-, ⟨-, hhop⟩ | hf⟩
      · exact hhop
      · exact absurd hkey hf.ne_root
  · rename_i hkey
    rw [hexact hop]
    exact ⟨fun hf => ⟨hshort, .inr hf⟩, fun hp => hp.hop.resolve_left fun hr => hkey hr.1⟩

/-! ## Exact lists keep the first hops apart -/

/-- The vertex of a link on a minimum-cost path, with the list before it. -/
theorem exists_vertex (hlink : ShortestLink ospf area (UsableEdge ospf stack area) v w link) :
    ∃ l₁ y l₂, s.shortestPathList = l₁ ++ y :: l₂ ∧ y.key = w ∧ y ∈ s.shortestPathList := by
  obtain ⟨d, -, hw, hlt⟩ := hlink.dist
  rw [isDist_usableEdge_iff h.agree] at hw
  obtain ⟨y, hy, hkey, -⟩ := (mem_shortestPathList_iff h.ends w _).2 ⟨h.live, hw, hlt⟩
  obtain ⟨l₁, l₂, hspl⟩ := List.append_of_mem hy
  exact ⟨l₁, y, l₂, hspl, hkey, hy⟩

theorem isDist_lt (hy : y ∈ s.shortestPathList) (d : ℕ)
    (hd : IsDist (UsableEdge ospf stack area) (rootNode ospf) y.key d) : d < lsInfinity := by
  obtain ⟨hdist, hlt⟩ := h.isDist hy
  rwa [hd.unique hdist]

theorem rootLink_of_exact (hexact : NextHopsExact ospf stack area s.shortestPathList)
    (rootLsa : LsaHdr) (w : Node) (link : RlsaLink)
    (hroot : liveLsa ospf area (rootNode ospf) = some rootLsa)
    (hlink : ShortestLink ospf area (UsableEdge ospf stack area) (rootNode ospf) w link) :
    linkHop ospf stack link w = rootHop ospf stack rootLsa w := by
  obtain ⟨l₁, y, l₂, hspl, rfl, hy⟩ := h.exists_vertex hlink
  obtain ⟨x, hx, hkey, hscan, hleads, hfirst⟩ := h.mem_scans hspl hlink
  have hl₁ : ∀ a ∈ l₁, a ∈ s.shortestPathList := by
    rw [hspl]
    exact fun a ha => List.mem_append_left _ ha
  have hxlsa := h.inv.live x (List.mem_append_left _ (hl₁ x hx))
  rw [hkey, hroot] at hxlsa
  obtain rfl := Option.some.inj hxlsa
  -- the root passes one hop, which the list holds, so it is a first hop
  have hpass : firstHops ospf stack x y.key = (rootHop ospf stack x.lsa y.key).toList := if_pos hkey
  obtain ⟨hop, hhop⟩ : ∃ hop, rootHop ospf stack x.lsa y.key = some hop := by
    rw [← Option.isSome_iff_exists, Option.isSome_iff_ne_none]
    intro hnone
    rw [hpass, hnone] at hfirst
    exact hfirst rfl
  have hxhop : hop ∈ firstHops ospf stack x y.key := by
    rw [hpass, hhop]
    exact List.mem_singleton_self hop
  obtain ⟨hnd, hmem⟩ := hexact y hy
  rw [h.hops_eq hspl] at hnd hmem
  have hfirstHop := (hmem hop).1 (mem_contrib.2 ⟨_, hscan, hleads, hxhop⟩)
  -- it comes over one link only
  obtain ⟨v, link', hshort, hv⟩ := (firstHop_iff (h.isDist_lt hy)).1 hfirstHop
  obtain ⟨x', hx', rfl, hscan', hleads', hfirst'⟩ := h.mem_scans hspl hshort
  have hx'hop : hop ∈ firstHops ospf stack x' y.key := by
    rcases hv with ⟨hvroot, -⟩ | hv
    · have heq : x' = x := h.inv.eq_of_key (List.mem_append_left _ (hl₁ x' hx'))
        (List.mem_append_left _ (hl₁ x hx)) (hvroot.trans hkey.symm)
      rwa [heq]
    · unfold firstHops
      rw [if_neg hv.ne_root]
      exact ((hexact x' (hl₁ x' hx')).2 hop).2 hv
  have hsame := contrib_once hnd hscan hscan' hleads hleads' hxhop hx'hop
  rcases hv with ⟨-, hlinkHop⟩ | hv
  · cases hsame
    rw [hlinkHop, hhop]
  · have hxx := congrArg Prod.fst hsame
    dsimp only at hxx
    rw [← hxx] at hv
    exact absurd hkey hv.ne_root

theorem parallel_of_exact (hexact : NextHopsExact ospf stack area s.shortestPathList) (v w : Node)
    (lsa : LsaHdr) (hlsa : liveLsa ospf area v = some lsa) :
    lsa.lsaInfo.rlsaLink.Pairwise fun link link' =>
      ¬ (ShortestLink ospf area (UsableEdge ospf stack area) v w link ∧
        ShortestLink ospf area (UsableEdge ospf stack area) v w link') := by
  by_cases hex : ∃ link, ShortestLink ospf area (UsableEdge ospf stack area) v w link
  · obtain ⟨link, hlink⟩ := hex
    obtain ⟨l₁, y, l₂, hspl, rfl, hy⟩ := h.exists_vertex hlink
    obtain ⟨x, hx, rfl, -, -, hfirst⟩ := h.mem_scans hspl hlink
    have hxs : x ∈ s.shortestPathList := by
      rw [hspl]
      exact List.mem_append_left _ hx
    obtain rfl := Option.some.inj ((h.inv.live x (List.mem_append_left _ hxs)).symm.trans hlsa)
    have hnd := (hexact y hy).1
    rw [h.hops_eq hspl, contrib_nodup_iff] at hnd
    have hblock := (List.pairwise_flatMap.1 hnd.2).1 x hx
    have hrouter : x.vertexType = .router := hlink.linkEdge.router
    simp only [hrouter, List.pairwise_map] at hblock
    refine hblock.imp fun {l l'} hdisj hboth => ?_
    have hleads : ∀ l, ShortestLink ospf area (UsableEdge ospf stack area) x.key y.key l →
        Leads y.key y.distance (x, l) := by
      intro l hl
      obtain ⟨x', hx', hkey, -, hleads, -⟩ := h.mem_scans hspl hl
      have hx's : x' ∈ s.shortestPathList := by
        rw [hspl]
        exact List.mem_append_left _ hx'
      rwa [h.inv.eq_of_key (List.mem_append_left _ hx's) (List.mem_append_left _ hxs) hkey] at hleads
    obtain ⟨hop, hhop⟩ := List.exists_mem_of_ne_nil _ hfirst
    exact hdisj (hleads l hboth.1) (hleads l' hboth.2) hhop hhop
  · exact List.pairwise_of_forall fun l l' hboth => hex ⟨l, hboth.1⟩

theorem parents_of_exact (hexact : NextHopsExact ospf stack area s.shortestPathList) (v v' w : Node)
    (link link' : RlsaLink) (hop : ℕ × Option Ip) (hv : Passes ospf stack area v w link hop)
    (hv' : Passes ospf stack area v' w link' hop) : v = v' := by
  obtain ⟨l₁, y, l₂, hspl, rfl, hy⟩ := h.exists_vertex hv.shortest
  have hnd := (hexact y hy).1
  rw [h.hops_eq hspl] at hnd
  have hvertex : ∀ u l, Passes ospf stack area u y.key l hop → ∃ x, x.key = u ∧ (x, l) ∈ scans l₁ ∧
      Leads y.key y.distance (x, l) ∧ hop ∈ firstHops ospf stack x y.key := by
    intro u l hu
    obtain ⟨x, hx, rfl, hscan, hleads, -⟩ := h.mem_scans hspl hu.shortest
    have hxs : x ∈ s.shortestPathList := by
      rw [hspl]
      exact List.mem_append_left _ hx
    exact ⟨x, rfl, hscan, hleads, (h.mem_firstHops_iff hxs (hexact x hxs).2
      (fun rootLsa => h.rootLink_of_exact hexact rootLsa y.key) hu.shortest).2 hu⟩
  obtain ⟨x, rfl, hscan, hleads, hmem⟩ := hvertex v link hv
  obtain ⟨x', rfl, hscan', hleads', hmem'⟩ := hvertex v' link' hv'
  exact congrArg (fun p => p.1.key) (contrib_once hnd hscan hscan' hleads hleads' hmem hmem')

/-! ## First hops that are apart give exact lists -/

section Apart

variable (hapart : FirstHopsApart ospf stack area) (hspl : s.shortestPathList = l₁ ++ y :: l₂)
  (hne : y.key ≠ rootNode ospf)
  (hearlier : ∀ x ∈ l₁, (hops x.nextHopList).Nodup ∧
    ∀ hop, hop ∈ hops x.nextHopList ↔ FirstHop ospf stack area x.key hop)
include hapart hspl hne hearlier

/-- A link that passes a hop to the next vertex. -/
theorem passes_of_scan (hp : (x, link) ∈ scans l₁) (hleads : Leads y.key y.distance (x, link))
    (hhop : hop ∈ firstHops ospf stack x y.key) : Passes ospf stack area x.key y.key link hop := by
  obtain ⟨hx, hshort⟩ := h.shortestLink hspl hne hp hleads (List.ne_nil_of_mem hhop)
  have hxs : x ∈ s.shortestPathList := by
    rw [hspl]
    exact List.mem_append_left _ hx
  exact (h.mem_firstHops_iff hxs (hearlier x hx).2 (fun rootLsa => hapart.rootLink rootLsa y.key) hshort).1 hhop

theorem mem_hops_of_apart : hop ∈ hops y.nextHopList ↔ FirstHop ospf stack area y.key hop := by
  have hy : y ∈ s.shortestPathList := by
    rw [hspl]
    exact List.mem_append_right _ List.mem_cons_self
  rw [h.hops_eq hspl, mem_contrib, firstHop_iff (h.isDist_lt hy)]
  constructor
  · rintro ⟨⟨x, link⟩, hp, hleads, hhop⟩
    exact ⟨x.key, link, h.passes_of_scan hapart hspl hne hearlier hp hleads hhop⟩
  · rintro ⟨v, link, hp⟩
    obtain ⟨x, hx, rfl, hscan, hleads, -⟩ := h.mem_scans hspl hp.shortest
    have hxs : x ∈ s.shortestPathList := by
      rw [hspl]
      exact List.mem_append_left _ hx
    exact ⟨_, hscan, hleads, (h.mem_firstHops_iff hxs (hearlier x hx).2
      (fun rootLsa => hapart.rootLink rootLsa y.key) hp.shortest).2 hp⟩

theorem nodup_hops_of_apart : (hops y.nextHopList).Nodup := by
  have hlive : ∀ x ∈ l₁, liveLsa ospf area x.key = some x.lsa := by
    intro x hx
    refine h.inv.live x (List.mem_append_left _ ?_)
    rw [hspl]
    exact List.mem_append_left _ hx
  rw [h.hops_eq hspl, contrib_nodup_iff]
  constructor
  · rintro ⟨x, link⟩ hp _
    have hx := (mem_scans_iff.1 hp).1
    unfold firstHops
    split
    · cases rootHop ospf stack x.lsa y.key with
      | none => exact List.nodup_nil
      | some hop => exact List.nodup_singleton hop
    · exact (hearlier x hx).1
  · refine List.pairwise_flatMap.2 ⟨fun x hx => ?_, ?_⟩
    · -- two links of one vertex are not both on minimum-cost paths
      have hpair := hapart.parallel x.key y.key x.lsa (hlive x hx)
      cases htype : x.vertexType with
      | network => exact .nil
      | router =>
        rw [List.pairwise_map]
        refine hpair.imp_of_mem fun {l l'} hl hl' hnot hleads hleads' hop hhop _ => hnot ?_
        have hlink : ∀ l ∈ x.lsa.lsaInfo.rlsaLink, Leads y.key y.distance (x, l) →
            ShortestLink ospf area (UsableEdge ospf stack area) x.key y.key l := fun l hl hlead =>
          (h.passes_of_scan hapart hspl hne hearlier (mem_scans_iff.2 ⟨hx, htype, hl⟩) hlead hhop).shortest
        exact ⟨hlink l hl hleads, hlink l' hl' hleads'⟩
    · -- two vertices pass different hops
      have hnd := h.inv.nodup
      rw [hspl, List.append_assoc, List.map_append, List.nodup_append] at hnd
      refine (List.pairwise_map.1 hnd.1).imp_of_mem fun {a b} ha hb hkeys => ?_
      rintro ⟨x, link⟩ hp ⟨x', link'⟩ hq hleads hleads' hop hhop hhop'
      have hblock : ∀ z ∈ l₁, ∀ x l, (x, l) ∈ scans [z] → x = z ∧ (x, l) ∈ scans l₁ := by
        intro z hz x l hscan
        obtain ⟨hxz, hrest⟩ := mem_scans_iff.1 hscan
        obtain rfl := List.mem_singleton.1 hxz
        exact ⟨rfl, mem_scans_iff.2 ⟨hz, hrest⟩⟩
      have hpa : (x, link) ∈ scans [a] := by
        unfold scans
        rw [List.flatMap_singleton]
        exact hp
      have hqb : (x', link') ∈ scans [b] := by
        unfold scans
        rw [List.flatMap_singleton]
        exact hq
      obtain ⟨rfl, hscan⟩ := hblock a ha x link hpa
      obtain ⟨rfl, hscan'⟩ := hblock b hb x' link' hqb
      exact hkeys (hapart.parents _ _ _ _ _ hop
        (h.passes_of_scan hapart hspl hne hearlier hscan hleads hhop)
        (h.passes_of_scan hapart hspl hne hearlier hscan' hleads' hhop'))

end Apart

theorem exact_of_apart (hapart : FirstHopsApart ospf stack area) :
    NextHopsExact ospf stack area s.shortestPathList := by
  -- by induction on the number of vertices before
  have hind : ∀ n l₁ y l₂, l₁.length = n → s.shortestPathList = l₁ ++ y :: l₂ →
      (hops y.nextHopList).Nodup ∧ ∀ hop, hop ∈ hops y.nextHopList ↔ FirstHop ospf stack area y.key hop := by
    intro n
    induction n using Nat.strong_induction_on with
    | h n ih =>
      intro l₁ y l₂ hlen hspl
      have hy : y ∈ s.shortestPathList := by
        rw [hspl]
        exact List.mem_append_right _ List.mem_cons_self
      by_cases hroot : y.key = rootNode ospf
      · rw [h.root_hops hy hroot]
        exact ⟨List.nodup_nil, fun hop => iff_of_false List.not_mem_nil fun hf => hf.ne_root hroot⟩
      · have hearlier : ∀ x ∈ l₁, (hops x.nextHopList).Nodup ∧
            ∀ hop, hop ∈ hops x.nextHopList ↔ FirstHop ospf stack area x.key hop := by
          intro x hx
          obtain ⟨a, b, rfl⟩ := List.append_of_mem hx
          refine ih a.length ?_ a x (b ++ y :: l₂) rfl (by rw [hspl, List.append_assoc]; rfl)
          rw [← hlen, List.length_append, List.length_cons]
          omega
        exact ⟨h.nodup_hops_of_apart hapart hspl hroot hearlier,
          fun hop => h.mem_hops_of_apart hapart hspl hroot hearlier⟩
  intro y hy
  obtain ⟨l₁, l₂, hspl⟩ := List.append_of_mem hy
  exact hind _ l₁ y l₂ rfl hspl

end HopLists

/-- Router 2 leads to routers 3 and 4, and both of these lead to router 5. -/
def diamondArea : AreaDs :=
  ⟨routerIp 0, [routerLsa 1 [linkTo 2 11], routerLsa 2 [linkTo 1 12, linkTo 3 23, linkTo 4 24],
    routerLsa 3 [linkTo 2 32, linkTo 5 35], routerLsa 4 [linkTo 2 42, linkTo 5 45],
    routerLsa 5 [linkTo 3 53, linkTo 4 54]], [], [], [], [], false⟩

def diamondResult : SpfState where
  candidateList := []
  shortestPathList :=
    [⟨routerIp 1, .router, routerLsa 1 [linkTo 2 11], [], 0⟩,
      ⟨routerIp 2, .router, routerLsa 2 [linkTo 1 12, linkTo 3 23, linkTo 4 24],
        [⟨1, 1, some (routerIp 12)⟩], 10⟩,
      ⟨routerIp 3, .router, routerLsa 3 [linkTo 2 32, linkTo 5 35], [⟨1, 1, some (routerIp 12)⟩], 20⟩,
      ⟨routerIp 4, .router, routerLsa 4 [linkTo 2 42, linkTo 5 45], [⟨1, 1, some (routerIp 12)⟩], 20⟩,
      ⟨routerIp 5, .router, routerLsa 5 [linkTo 3 53, linkTo 4 54],
        [⟨1, 1, some (routerIp 12)⟩, ⟨2, 1, some (routerIp 12)⟩], 30⟩]

theorem diamondResult_ends : SpfEnds lineRouter lineStack diamondArea diamondResult := by
  have hstart : spfStart lineRouter lineStack diamondArea = some
      ⟨[⟨routerIp 2, .router, routerLsa 2 [linkTo 1 12, linkTo 3 23, linkTo 4 24],
          [⟨1, 1, some (routerIp 12)⟩], 10⟩],
        [⟨routerIp 1, .router, routerLsa 1 [linkTo 2 11], [], 0⟩]⟩ := by decide
  unfold SpfEnds
  rw [hstart]
  exact ⟨5, by decide⟩

end NetSim.Ospf
