import Mathlib.Data.List.Nodup
import Mathlib.Data.List.Perm.Subperm
import NetSim.Proof.SpfSearch

/-!
# The invariant of the shortest path search

`SearchInv` relates the two lists of the search, and the links that have been examined, to a
`Frontier` of the graph.

* `SearchInv.examine`, `SearchInv.update`: it holds after one link and after all links of a vertex.
* `SearchInv.round`: it holds after a round of the loop.
* `searchInv_ends`: the loop ends, in a state with the invariant.
-/

namespace NetSim.Ospf

open ShortestPath

/-- The distances that a list gives. -/
def Labels (l : List Vertex) (k : Node) (d : ℕ) : Prop := ∃ x ∈ l, x.key = k ∧ x.distance = d

/-- The links of the vertices of a list, in the order in which they are examined. -/
def scans (spl : List Vertex) : List (Vertex × RlsaLink) :=
  spl.flatMap fun x =>
    match x.vertexType with
    | .router => x.lsa.lsaInfo.rlsaLink.map (x, ·)
    | .network => []

/-- The edges of some links. -/
def Scanned (ospf : Pds) (stack : Stack) (area : AreaDs) (done : List (Vertex × RlsaLink)) (v w : Node)
    (m : ℕ) : Prop :=
  SpfEdge ospf stack area v w m ∧
    ∃ p ∈ done, p.1.key = v ∧ p.2.node? = some w ∧ p.2.metric.toNat = m

/-- The lists hold each node once, with its LSA; the distances are those of a search. -/
structure SearchInv (ospf : Pds) (stack : Stack) (area : AreaDs) (spl cand : List Vertex)
    (done : List (Vertex × RlsaLink)) : Prop where
  live : ∀ x ∈ spl ++ cand, liveLsa ospf area x.key = some x.lsa
  nodup : ((spl ++ cand).map Vertex.key).Nodup
  bound : ∀ x ∈ spl, x.distance < lsInfinity
  head : spl.head?.map Vertex.key = some (rootNode ospf)
  hops : ∀ x ∈ spl ++ cand, x.key ≠ rootNode ospf → x.nextHopList ≠ []
  examined : ∀ p ∈ done, p.1 ∈ spl ∧ p.1.vertexType = .router ∧ p.2 ∈ p.1.lsa.lsaInfo.rlsaLink
  sorted : spl.Pairwise fun x y => x.distance ≤ y.distance
  frontier : Frontier (SpfEdge ospf stack area) (rootNode ospf) (Labels spl) (Labels cand)
    (Scanned ospf stack area done)

variable {ospf : Pds} {stack : Stack} {area : AreaDs} {spl cand : List Vertex}
  {done : List (Vertex × RlsaLink)} {v : Vertex} {link : RlsaLink}

/-! ## Labels -/

theorem labels_of_mem {l : List Vertex} (h : v ∈ l) : Labels l v.key v.distance := ⟨v, h, rfl, rfl⟩

theorem labels_append (l l' : List Vertex) (k : Node) (d : ℕ) :
    Labels (l ++ l') k d ↔ Labels l k d ∨ Labels l' k d := by
  unfold Labels
  simp only [List.mem_append, or_and_right, exists_or]

theorem labels_singleton (x : Vertex) (k : Node) (d : ℕ) :
    Labels [x] k d ↔ k = x.key ∧ d = x.distance := by
  unfold Labels
  constructor
  · rintro ⟨y, hy, rfl, rfl⟩
    obtain rfl := List.mem_singleton.1 hy
    exact ⟨rfl, rfl⟩
  · rintro ⟨rfl, rfl⟩
    exact ⟨x, List.mem_singleton_self x, rfl, rfl⟩

/-- A node that is in the list once has one label. -/
theorem labels_of_nodup {l₁ l₂ : List Vertex} (hnd : ((l₁ ++ v :: l₂).map Vertex.key).Nodup) (k : Node)
    (d : ℕ) : Labels (l₁ ++ l₂) k d ↔ Labels (l₁ ++ v :: l₂) k d ∧ k ≠ v.key := by
  have hperm : ((l₁ ++ v :: l₂).map Vertex.key).Perm (v.key :: (l₁ ++ l₂).map Vertex.key) :=
    (List.perm_middle (a := v)).map Vertex.key
  have hnot := (List.nodup_cons.1 (hperm.nodup_iff.1 hnd)).1
  unfold Labels
  constructor
  · rintro ⟨x, hx, rfl, hd⟩
    have hmem : x ∈ l₁ ++ v :: l₂ := by
      rcases List.mem_append.1 hx with hx | hx
      · exact List.mem_append_left _ hx
      · exact List.mem_append_right _ (List.mem_cons_of_mem _ hx)
    exact ⟨⟨x, hmem, rfl, hd⟩, fun he => hnot (he ▸ List.mem_map_of_mem hx)⟩
  · rintro ⟨⟨x, hx, rfl, hd⟩, hne⟩
    have hmem : x ∈ l₁ ++ l₂ := by
      rcases List.mem_append.1 hx with hx | hx
      · exact List.mem_append_left _ hx
      · rcases List.mem_cons.1 hx with rfl | hx
        · exact absurd rfl hne
        · exact List.mem_append_right _ hx
    exact ⟨x, hmem, rfl, hd⟩

/-! ## One link -/

namespace SearchInv

theorem eq_of_key (h : SearchInv ospf stack area spl cand done) {x y : Vertex} (hx : x ∈ spl ++ cand)
    (hy : y ∈ spl ++ cand) (hkey : x.key = y.key) : x = y :=
  List.inj_on_of_nodup_map h.nodup hx hy hkey

theorem spl_ne_nil (h : SearchInv ospf stack area spl cand done) : spl ≠ [] := by
  rintro rfl
  exact Option.some_ne_none _ h.head.symm

/-- The edge of a link whose target is live and to which its router passes a next hop. -/
theorem spfEdge (h : SearchInv ospf stack area spl cand done) (hv : v ∈ spl)
    (hrouter : v.vertexType = .router) (hlink : link ∈ v.lsa.lsaInfo.rlsaLink) {w : Node}
    (hnode : link.node? = some w) (hlive : (liveLsa ospf area w).isSome)
    (hfirst : firstHops ospf stack v w ≠ []) :
    SpfEdge ospf stack area v.key w link.metric.toNat := by
  have hvlive := h.live v (List.mem_append_left _ hv)
  refine ⟨⟨link, ⟨hrouter, ⟨_, hvlive, hlink⟩, hnode, hlive⟩, rfl⟩, fun lsa hroot hlsa => ?_⟩
  obtain rfl := Option.some.inj (hvlive.symm.trans hlsa)
  unfold firstHops at hfirst
  rw [if_pos hroot] at hfirst
  cases hr : rootHop ospf stack v.lsa w with
  | none => simp [hr] at hfirst
  | some hop => rfl

/-- A vertex passes next hops to the ends of its edges. -/
theorem firstHops_ne_nil (h : SearchInv ospf stack area spl cand done) (hv : v ∈ spl) {w : Node} {m : ℕ}
    (hedge : SpfEdge ospf stack area v.key w m) : firstHops ospf stack v w ≠ [] := by
  have hmem : v ∈ spl ++ cand := List.mem_append_left _ hv
  unfold firstHops
  by_cases hroot : v.key = rootNode ospf
  · rw [if_pos hroot]
    obtain ⟨hop, hhop⟩ := Option.isSome_iff_exists.1 (hedge.2 _ hroot (h.live v hmem))
    rw [hhop]
    exact List.cons_ne_nil _ _
  · rw [if_neg hroot, ne_eq, hops_eq_nil]
    exact h.hops v hmem hroot

theorem scanned_snoc {x y : Node} {m : ℕ} :
    Scanned ospf stack area (done ++ [(v, link)]) x y m ↔ Scanned ospf stack area done x y m ∨
      SpfEdge ospf stack area x y m ∧ v.key = x ∧ link.node? = some y ∧ link.metric.toNat = m := by
  unfold Scanned
  constructor
  · rintro ⟨hedge, p, hp, hrest⟩
    rcases List.mem_append.1 hp with hp | hp
    · exact .inl ⟨hedge, p, hp, hrest⟩
    · obtain rfl := List.mem_singleton.1 hp
      exact .inr ⟨hedge, hrest⟩
  · rintro (⟨hedge, p, hp, hrest⟩ | ⟨hedge, hrest⟩)
    · exact ⟨hedge, p, List.mem_append_left _ hp, hrest⟩
    · exact ⟨hedge, _, List.mem_append_right _ (List.mem_singleton_self _), hrest⟩

/-- **One link** of the vertex that was settled last. -/
theorem examine (h : SearchInv ospf stack area spl cand done) (hv : v ∈ spl)
    (hlast : ∀ x ∈ spl, x.distance ≤ v.distance) (hrouter : v.vertexType = .router)
    (hlink : link ∈ v.lsa.lsaInfo.rlsaLink)
    (hroot : v.key = rootNode ospf → ∀ x ∈ spl, x.key = rootNode ospf) :
    SearchInv ospf stack area spl (examineLink ospf stack area spl v cand link) (done ++ [(v, link)]) := by
  have hbound : v.distance + link.metric.toNat < 4294967296 := by
    have h1 := h.bound v hv
    have h2 := link.metric.toNat_lt
    unfold lsInfinity at h1
    omega
  have hsettled := labels_of_mem hv
  have hlast' : ∀ x e, Labels spl x e → e ≤ v.distance := by
    rintro x e ⟨y, hy, -, rfl⟩
    exact hlast y hy
  have hdone : ∀ p ∈ done ++ [(v, link)],
      p.1 ∈ spl ∧ p.1.vertexType = .router ∧ p.2 ∈ p.1.lsa.lsaInfo.rlsaLink := by
    intro p hp
    rcases List.mem_append.1 hp with hp | hp
    · exact h.examined p hp
    · obtain rfl := List.mem_singleton.1 hp
      exact ⟨hv, hrouter, hlink⟩
  -- the new edge is the only one that the link adds
  have hscan : ∀ {w : Node}, link.node? = some w →
      SpfEdge ospf stack area v.key w link.metric.toNat → ∀ x y k,
      Scanned ospf stack area (done ++ [(v, link)]) x y k ↔ Scanned ospf stack area done x y k ∨
        x = v.key ∧ y = w ∧ k = link.metric.toNat := by
    intro w hnode hedge x y k
    rw [scanned_snoc]
    constructor
    · rintro (hs | ⟨-, rfl, hy, rfl⟩)
      · exact .inl hs
      · exact .inr ⟨rfl, Option.some.inj (hy.symm.trans hnode), rfl⟩
    · rintro (hs | ⟨rfl, rfl, rfl⟩)
      · exact .inl hs
      · exact .inr ⟨hedge, rfl, hnode, rfl⟩
  have hcases : Examined ospf stack area spl v cand link (examineLink ospf stack area spl v cand link) :=
    examineLink_cases hrouter hbound
  generalize examineLink ospf stack area spl v cand link = cand' at hcases ⊢
  cases hcases with
  | skip hskip =>
    refine { h with examined := hdone, frontier := h.frontier.skip (v := v.key) ?_ ?_ ⟨_, hsettled⟩ }
    · intro x y k hs
      rcases scanned_snoc.1 hs with hs | ⟨hedge, rfl, hnode, rfl⟩
      · exact .inl hs
      · refine .inr ⟨rfl, ?_⟩
        obtain ⟨⟨l, hl, -⟩, -⟩ := id hedge
        rcases hskip y hnode hl.live with ⟨x, hx, rfl⟩ | ⟨hnil, -⟩ | ⟨c, hc, rfl, hlt⟩
        · exact .inl ⟨_, labels_of_mem hx⟩
        · exact absurd hnil (h.firstHops_ne_nil hv hedge)
        · refine .inr ⟨_, labels_of_mem hc, fun dv hdv => ?_⟩
          have := h.frontier.settled_unique hdv hsettled
          omega
    · exact fun x y k hs => scanned_snoc.2 (.inl hs)
  | insert w lsa item hnode hlsa hspl hcand hfirst hkey hitem hdist hhops =>
    have hlive : (liveLsa ospf area w).isSome := by rw [hlsa]; rfl
    have hedge := h.spfEdge hv hrouter hlink hnode hlive hfirst
    have hnew : ∀ x ∈ spl ++ cand, x.key ≠ w := by
      intro x hx
      rcases List.mem_append.1 hx with hx | hx
      · exact hspl x hx
      · exact hcand x hx
    refine ⟨?_, ?_, h.bound, h.head, ?_, hdone, h.sorted, ?_⟩
    · intro x hx
      rw [← List.append_assoc] at hx
      rcases List.mem_append.1 hx with hx | hx
      · exact h.live x hx
      · obtain rfl := List.mem_singleton.1 hx
        rw [hkey, hitem, hlsa]
    · rw [← List.append_assoc, List.map_append, List.nodup_append]
      refine ⟨h.nodup, List.nodup_singleton _, ?_⟩
      rintro a ha b hb rfl
      obtain ⟨x, hx, rfl⟩ := List.mem_map.1 ha
      exact hnew x hx ((List.mem_singleton.1 hb).trans hkey)
    · intro x hx hne
      rw [← List.append_assoc] at hx
      rcases List.mem_append.1 hx with hx | hx
      · exact h.hops x hx hne
      · obtain rfl := List.mem_singleton.1 hx
        intro hnil
        rw [hnil] at hhops
        exact hfirst hhops.symm
    · refine h.frontier.label hsettled hlast' hedge ?_ ?_ ?_ (hscan hnode hedge)
      · rintro e ⟨x, hx, hxw, -⟩
        exact hspl x hx hxw
      · rintro e ⟨x, hx, hxw, -⟩
        exact absurd hxw (hcand x hx)
      · intro x e
        rw [labels_append, labels_singleton, hkey, hdist]
        refine or_congr_left ⟨fun hx => ⟨hx, ?_⟩, fun hx => hx.1⟩
        rintro rfl
        obtain ⟨c, hc, hcw, -⟩ := hx
        exact hcand c hc hcw
  | update w c item l₁ l₂ hnode hlive hspl hcand hckey hkey hitem hdist hhops =>
    subst hcand
    have hcmem : c ∈ l₁ ++ c :: l₂ := List.mem_append_right _ List.mem_cons_self
    have hclabel : Labels (l₁ ++ c :: l₂) w c.distance := ⟨c, hcmem, hckey, rfl⟩
    have hcle : item.distance ≤ c.distance := by
      rcases hhops with ⟨hlt, -⟩ | ⟨heq, -⟩ <;> omega
    -- while the root is scanned, every candidate comes from the root and has a next hop
    have hfirst : firstHops ospf stack v w ≠ [] := by
      by_cases hvroot : v.key = rootNode ospf
      · obtain ⟨x, dx, m, hx, hedge, -, -⟩ := h.frontier.attained w c.distance hclabel
        have hxv : x = v.key := by
          obtain ⟨y, hy, rfl, -⟩ := hx
          exact (hroot hvroot y hy).trans hvroot.symm
        exact h.firstHops_ne_nil hv (hxv ▸ hedge)
      · unfold firstHops
        rw [if_neg hvroot, ne_eq, hops_eq_nil]
        exact h.hops v (List.mem_append_left _ hv) hvroot
    have hedge := h.spfEdge hv hrouter hlink hnode hlive hfirst
    have hkeys : (spl ++ (l₁ ++ item :: l₂)).map Vertex.key = (spl ++ (l₁ ++ c :: l₂)).map Vertex.key := by
      simp only [List.map_append, List.map_cons, hkey, hckey]
    have hndc : ((l₁ ++ c :: l₂).map Vertex.key).Nodup := by
      have := h.nodup
      rw [List.map_append] at this
      exact (List.nodup_append.1 this).2.1
    have hndi : ((l₁ ++ item :: l₂).map Vertex.key).Nodup := by
      simpa only [List.map_append, List.map_cons, hkey, hckey] using hndc
    have hmem : ∀ x ∈ spl ++ (l₁ ++ item :: l₂), x = item ∨ x ∈ spl ++ (l₁ ++ c :: l₂) := by
      intro x hx
      simp only [List.mem_append, List.mem_cons] at hx ⊢
      rcases hx with hx | hx | hx | hx
      · exact .inr (.inl hx)
      · exact .inr (.inr (.inl hx))
      · exact .inl hx
      · exact .inr (.inr (.inr (.inr hx)))
    refine ⟨?_, by rw [hkeys]; exact h.nodup, h.bound, h.head, ?_, hdone, h.sorted, ?_⟩
    · intro x hx
      rcases hmem x hx with rfl | hx
      · have := h.live c (List.mem_append_right _ hcmem)
        rw [hckey] at this
        rw [hkey, hitem, this]
      · exact h.live x hx
    · intro x hx hne
      rcases hmem x hx with rfl | hx
      · intro hnil
        rw [hnil] at hhops
        rcases hhops with ⟨-, heq⟩ | ⟨-, heq⟩
        · exact hfirst heq.symm
        · exact hfirst (List.append_eq_nil_iff.1 heq.symm).2
      · exact h.hops x hx hne
    · refine h.frontier.label hsettled hlast' hedge ?_ ?_ ?_ (hscan hnode hedge)
      · rintro e ⟨x, hx, hxw, -⟩
        exact hspl x hx hxw
      · intro e he
        have heq : e = c.distance := by
          obtain ⟨x, hx, hxw, rfl⟩ := he
          exact congrArg _ (List.inj_on_of_nodup_map hndc hx hcmem (hxw.trans hckey.symm))
        omega
      · -- every other candidate keeps its label
        intro x e
        have hold := labels_of_nodup hndc x e
        have hnew := labels_of_nodup hndi x e
        rw [hckey] at hold
        rw [hkey] at hnew
        have hitemlabel : Labels (l₁ ++ item :: l₂) w e ↔ e = item.distance := by
          constructor
          · rintro ⟨y, hy, hyw, rfl⟩
            exact congrArg _ (List.inj_on_of_nodup_map hndi hy
              (List.mem_append_right _ List.mem_cons_self) (hyw.trans hkey.symm))
          · rintro rfl
            exact ⟨item, List.mem_append_right _ List.mem_cons_self, hkey, rfl⟩
        rw [← hold, ← hdist]
        by_cases hxw : x = w
        · subst hxw
          rw [hitemlabel]
          constructor
          · exact fun he => .inr ⟨rfl, he⟩
          · rintro (hx | ⟨-, he⟩)
            · exact absurd rfl (hnew.1 hx).2
            · exact he
        · constructor
          · exact fun he => .inl (hnew.2 ⟨he, hxw⟩)
          · rintro (hx | ⟨hx, -⟩)
            · exact (hnew.1 hx).1
            · exact absurd hx hxw

/-! ## All links of a vertex -/

theorem scans_snoc_router (h : v.vertexType = .router) :
    scans (spl ++ [v]) = scans spl ++ v.lsa.lsaInfo.rlsaLink.map (v, ·) := by
  unfold scans
  simp [h]

theorem scans_snoc_network (h : v.vertexType = .network) : scans (spl ++ [v]) = scans spl := by
  unfold scans
  simp [h]

/-- All links of a router that was settled last, together with anything else that a link keeps. -/
theorem foldl_examine {J : List Vertex → List (Vertex × RlsaLink) → Prop}
    (hstep : ∀ cand done link, link ∈ v.lsa.lsaInfo.rlsaLink →
      SearchInv ospf stack area (spl ++ [v]) cand done → J cand done →
      J (examineLink ospf stack area (spl ++ [v]) v cand link) (done ++ [(v, link)]))
    (hrouter : v.vertexType = .router) (hlast : ∀ x ∈ spl, x.distance ≤ v.distance)
    (hroot : v.key = rootNode ospf → spl = [])
    (h : SearchInv ospf stack area (spl ++ [v]) cand done) (hJ : J cand done) :
    SearchInv ospf stack area (spl ++ [v])
        (v.lsa.lsaInfo.rlsaLink.foldl (examineLink ospf stack area (spl ++ [v]) v) cand)
        (done ++ v.lsa.lsaInfo.rlsaLink.map (v, ·)) ∧
      J (v.lsa.lsaInfo.rlsaLink.foldl (examineLink ospf stack area (spl ++ [v]) v) cand)
        (done ++ v.lsa.lsaInfo.rlsaLink.map (v, ·)) := by
  have hv : v ∈ spl ++ [v] := List.mem_append_right _ (List.mem_singleton_self v)
  have hlast' : ∀ x ∈ spl ++ [v], x.distance ≤ v.distance := by
    intro x hx
    rcases List.mem_append.1 hx with hx | hx
    · exact hlast x hx
    · obtain rfl := List.mem_singleton.1 hx
      exact le_rfl
  have hroot' : v.key = rootNode ospf → ∀ x ∈ spl ++ [v], x.key = rootNode ospf := by
    intro hkey x hx
    rw [hroot hkey] at hx
    obtain rfl := List.mem_singleton.1 hx
    exact hkey
  -- by induction on the links that are left
  have hlinks : ∀ (links : List RlsaLink) (cand : List Vertex) (done : List (Vertex × RlsaLink)),
      (∀ link ∈ links, link ∈ v.lsa.lsaInfo.rlsaLink) →
      SearchInv ospf stack area (spl ++ [v]) cand done → J cand done →
      SearchInv ospf stack area (spl ++ [v])
          (links.foldl (examineLink ospf stack area (spl ++ [v]) v) cand) (done ++ links.map (v, ·)) ∧
        J (links.foldl (examineLink ospf stack area (spl ++ [v]) v) cand) (done ++ links.map (v, ·)) := by
    intro links
    induction links with
    | nil =>
      intro cand done _ h hJ
      rw [List.map_nil, List.append_nil]
      exact ⟨h, hJ⟩
    | cons link links ih =>
      intro cand done hmem h hJ
      have hlink := hmem link List.mem_cons_self
      have hnext := ih _ _ (fun l hl => hmem l (List.mem_cons_of_mem _ hl))
        (h.examine hv hlast' hrouter hlink hroot') (hstep _ _ _ hlink h hJ)
      rwa [List.append_assoc] at hnext
  exact hlinks _ cand done (fun _ hl => hl) h hJ

/-- All links of the vertex that was settled last. -/
theorem update (h : SearchInv ospf stack area (spl ++ [v]) cand (scans spl))
    (hlast : ∀ x ∈ spl, x.distance ≤ v.distance) (hroot : v.key = rootNode ospf → spl = []) :
    SearchInv ospf stack area (spl ++ [v]) (updateCandidateList ospf stack area (spl ++ [v]) v cand)
      (scans (spl ++ [v])) := by
  unfold updateCandidateList
  cases htype : v.vertexType with
  | network => rwa [scans_snoc_network htype]
  | router =>
    rw [scans_snoc_router htype]
    exact (h.foldl_examine (J := fun _ _ => True) (fun _ _ _ _ _ _ => trivial) htype hlast hroot trivial).1

end SearchInv

/-! ## The closest candidate -/

/-- One step of the loop of `closestCandidate`. -/
def keepClosest (acc : ℕ × Option Vertex) (candidateEntry : Vertex) : ℕ × Option Vertex :=
  if candidateEntry.distance < acc.1 then (candidateEntry.distance, some candidateEntry)
  else match acc.2 with
  | none => (acc.1, none)
  | some c =>
    if candidateEntry.distance == acc.1 && c.vertexType == .router &&
        candidateEntry.vertexType == .network then (acc.1, some candidateEntry)
    else (acc.1, some c)

theorem closestCandidate_eq (cand : List Vertex) :
    closestCandidate cand = (cand.foldl keepClosest (lsInfinity, none)).2 :=
  rfl

/-- The loop of `closestCandidate` keeps a candidate of the least distance below infinity. -/
theorem foldl_keepClosest_spec (rest seen : List Vertex) (acc : ℕ × Option Vertex)
    (h : match acc.2 with
      | none => acc.1 = lsInfinity ∧ ∀ c ∈ seen, lsInfinity ≤ c.distance
      | some v => acc.1 = v.distance ∧ v ∈ seen ∧ v.distance < lsInfinity ∧
        ∀ c ∈ seen, v.distance ≤ c.distance) :
    match (rest.foldl keepClosest acc).2 with
    | none => ∀ c ∈ seen ++ rest, lsInfinity ≤ c.distance
    | some v => v ∈ seen ++ rest ∧ v.distance < lsInfinity ∧
        ∀ c ∈ seen ++ rest, v.distance ≤ c.distance := by
  induction rest generalizing seen acc with
  | nil =>
    obtain ⟨low, closest⟩ := acc
    rw [List.append_nil]
    cases closest with
    | none => exact h.2
    | some v => exact h.2
  | cons x rest ih =>
    obtain ⟨low, closest⟩ := acc
    rw [List.append_cons, List.foldl_cons]
    apply ih (seen ++ [x])
    unfold keepClosest
    dsimp only
    have hx : x ∈ seen ++ [x] := List.mem_append_right _ (List.mem_singleton_self x)
    cases closest with
    | none =>
      obtain ⟨rfl, hseen⟩ := h
      by_cases hlt : x.distance < lsInfinity
      · rw [if_pos hlt]
        refine ⟨rfl, hx, hlt, fun c hc => ?_⟩
        rcases List.mem_append.1 hc with hc | hc
        · have := hseen c hc
          omega
        · rw [List.mem_singleton.1 hc]
      · rw [if_neg hlt]
        refine ⟨rfl, fun c hc => ?_⟩
        rcases List.mem_append.1 hc with hc | hc
        · exact hseen c hc
        · rw [List.mem_singleton.1 hc]
          omega
    | some v =>
      obtain ⟨rfl, hv, hinf, hmin⟩ := h
      have hv' : v ∈ seen ++ [x] := List.mem_append_left _ hv
      by_cases hlt : x.distance < v.distance
      · rw [if_pos hlt]
        refine ⟨rfl, hx, by omega, fun c hc => ?_⟩
        rcases List.mem_append.1 hc with hc | hc
        · have := hmin c hc
          omega
        · rw [List.mem_singleton.1 hc]
      · have hmin' : ∀ c ∈ seen ++ [x], v.distance ≤ c.distance := by
          intro c hc
          rcases List.mem_append.1 hc with hc | hc
          · exact hmin c hc
          · rw [List.mem_singleton.1 hc]
            omega
        rw [if_neg hlt]
        dsimp only
        by_cases hnet : (x.distance == v.distance && v.vertexType == .router &&
            x.vertexType == .network) = true
        · rw [if_pos hnet]
          simp only [Bool.and_eq_true, beq_iff_eq] at hnet
          obtain ⟨⟨heq, -⟩, -⟩ := hnet
          exact ⟨heq.symm, hx, by omega, fun c hc => heq ▸ hmin' c hc⟩
        · rw [if_neg hnet]
          exact ⟨rfl, hv', hinf, hmin'⟩

theorem closestCandidate_spec (cand : List Vertex) :
    match closestCandidate cand with
    | none => ∀ c ∈ cand, lsInfinity ≤ c.distance
    | some v => v ∈ cand ∧ v.distance < lsInfinity ∧ ∀ c ∈ cand, v.distance ≤ c.distance := by
  rw [closestCandidate_eq]
  exact foldl_keepClosest_spec cand [] (lsInfinity, none) ⟨rfl, fun _ hc => absurd hc List.not_mem_nil⟩

/-! ## The loop -/

namespace SearchInv

/-- All edges of the settled vertices have been scanned. -/
theorem full (h : SearchInv ospf stack area spl cand (scans spl)) (x : Node) (dx : ℕ) (y : Node) (m : ℕ)
    (hx : Labels spl x dx) (hedge : SpfEdge ospf stack area x y m) :
    Scanned ospf stack area (scans spl) x y m := by
  refine ⟨hedge, ?_⟩
  obtain ⟨v, hv, rfl, -⟩ := hx
  obtain ⟨⟨link, hlink, hmetric⟩, -⟩ := hedge
  obtain ⟨lsa, hlsa, hmem⟩ := hlink.mem
  obtain rfl := Option.some.inj ((h.live v (List.mem_append_left _ hv)).symm.trans hlsa)
  have hrouter : v.vertexType = .router := hlink.router
  refine ⟨(v, link), ?_, rfl, hlink.node, hmetric⟩
  unfold scans
  refine List.mem_flatMap.2 ⟨v, hv, ?_⟩
  rw [hrouter]
  exact List.mem_map_of_mem hmem

/-- The closest candidate is settled. -/
theorem settle (h : SearchInv ospf stack area spl cand (scans spl)) (hv : v ∈ cand)
    (hinf : v.distance < lsInfinity) (hmin : ∀ c ∈ cand, v.distance ≤ c.distance) :
    SearchInv ospf stack area (spl ++ [v]) (cand.erase v) (scans spl) ∧
      (∀ x ∈ spl, x.distance ≤ v.distance) ∧ v.key ≠ rootNode ospf := by
  obtain ⟨l₁, l₂, hnot, hcand, herase⟩ := List.exists_erase_eq hv
  have hndc : (cand.map Vertex.key).Nodup := by
    have := h.nodup
    rw [List.map_append] at this
    exact (List.nodup_append.1 this).2.1
  have hperm : (spl ++ [v] ++ cand.erase v).Perm (spl ++ cand) := by
    rw [List.append_assoc, herase, hcand]
    have hmid : (l₁ ++ v :: l₂).Perm (v :: (l₁ ++ l₂)) := List.perm_middle
    exact hmid.symm.append_left spl
  have hfresh : ∀ x ∈ spl, x.key ≠ v.key := by
    intro x hx hkey
    have hnd := h.nodup
    rw [List.map_append, List.nodup_append] at hnd
    exact hnd.2.2 _ (List.mem_map_of_mem hx) _ (List.mem_map_of_mem hv) hkey
  have hle : ∀ x ∈ spl, x.distance ≤ v.distance :=
    fun x hx => h.frontier.ordered _ _ _ _ (labels_of_mem hx) (labels_of_mem hv)
  have hroot : v.key ≠ rootNode ospf := by
    obtain ⟨r, hr, hrkey⟩ := Option.map_eq_some_iff.1 h.head
    intro hkey
    exact hfresh r (List.mem_of_head? hr) (hrkey.trans hkey.symm)
  refine ⟨⟨?_, ?_, ?_, ?_, ?_, ?_, ?_, ?_⟩, hle, hroot⟩
  · exact fun x hx => h.live x (hperm.mem_iff.1 hx)
  · exact (hperm.map Vertex.key).nodup_iff.2 h.nodup
  · intro x hx
    rcases List.mem_append.1 hx with hx | hx
    · exact h.bound x hx
    · rwa [List.mem_singleton.1 hx]
  · rw [List.head?_append_of_ne_nil _ h.spl_ne_nil]
    exact h.head
  · exact fun x hx => h.hops x (hperm.mem_iff.1 hx)
  · exact fun p hp => ⟨List.mem_append_left _ (h.examined p hp).1, (h.examined p hp).2⟩
  · rw [List.pairwise_append]
    refine ⟨h.sorted, List.pairwise_singleton .., fun x hx y hy => ?_⟩
    rw [List.mem_singleton.1 hy]
    exact hle x hx
  · refine h.frontier.settle (fun x dx y m => h.full x dx y m) (labels_of_mem hv) ?_ ?_ ?_
    · rintro x e ⟨c, hc, -, rfl⟩
      exact hmin c hc
    · intro x e
      rw [labels_append, labels_singleton]
    · intro x e
      rw [herase, hcand]
      exact labels_of_nodup (hcand ▸ hndc) x e

/-- **One round.** -/
theorem round {s s' : SpfState} (h : SearchInv ospf stack area s.shortestPathList s.candidateList
    (scans s.shortestPathList)) (hr : spfRound ospf stack area s = .inl s') :
    SearchInv ospf stack area s'.shortestPathList s'.candidateList (scans s'.shortestPathList) ∧
      s'.shortestPathList.length = s.shortestPathList.length + 1 := by
  unfold spfRound at hr
  split at hr
  · cases hr
  · have hspec := closestCandidate_spec s.candidateList
    split at hr
    · cases hr
    · rename_i v hv
      rw [hv] at hspec
      obtain ⟨hmem, hinf, hmin⟩ := hspec
      obtain ⟨hsettled, hle, hroot⟩ := h.settle hmem hinf hmin
      cases hr
      exact ⟨hsettled.update hle fun hkey => absurd hkey hroot, List.length_append ..⟩

/-- The loop has ended: there is no candidate below infinity. -/
theorem ended {s s' : SpfState} (hr : spfRound ospf stack area s = .inr s') :
    s' = s ∧ ∀ c ∈ s.candidateList, lsInfinity ≤ c.distance := by
  unfold spfRound at hr
  split at hr
  · rename_i hempty
    cases hr
    rw [List.isEmpty_iff] at hempty
    exact ⟨rfl, fun c hc => by rw [hempty] at hc; exact absurd hc List.not_mem_nil⟩
  · have hspec := closestCandidate_spec s.candidateList
    split at hr
    · rename_i hnone
      rw [hnone] at hspec
      cases hr
      exact ⟨rfl, hspec⟩
    · cases hr

/-- The nodes that the database has an LSA for. -/
def lsdbNodes (area : AreaDs) : List Node :=
  area.routerLSAList.map (fun lsa => (.router, lsa.linkStateId.intIp)) ++
    area.nwLSAList.map fun lsa => (.network, lsa.linkStateId.intIp)

theorem key_mem_lsdbNodes {k : Node} {lsa : LsaHdr} (h : liveLsa ospf area k = some lsa) :
    k ∈ lsdbNodes area := by
  have hfound := (liveLsa_eq_some.1 h).1
  have hid := lsaOf_linkStateId hfound
  obtain ⟨t, a⟩ := k
  have hkey : (t, lsa.linkStateId.intIp) = (t, a) := Prod.ext rfl hid
  unfold lsdbNodes
  cases t with
  | router =>
    rw [← hkey]
    exact List.mem_append_left _ (List.mem_map_of_mem (List.mem_of_find?_eq_some hfound))
  | network =>
    rw [← hkey]
    exact List.mem_append_right _ (List.mem_map_of_mem (List.mem_of_find?_eq_some hfound))

/-- The shortest path list is no longer than the database. -/
theorem length_le (h : SearchInv ospf stack area spl cand done) : spl.length ≤ (lsdbNodes area).length := by
  have hnd := h.nodup
  rw [List.map_append, List.nodup_append] at hnd
  have hsub : (spl.map Vertex.key).Subperm (lsdbNodes area) := by
    refine hnd.1.subperm fun k hk => ?_
    obtain ⟨x, hx, rfl⟩ := List.mem_map.1 hk
    exact key_mem_lsdbNodes (h.live x (List.mem_append_left _ hx))
  have := hsub.length_le
  rwa [List.length_map] at this

end SearchInv

/-- When no candidate below infinity is left, the settled vertices are those at a distance below
infinity. -/
theorem SearchInv.labels_iff (h : SearchInv ospf stack area spl cand (scans spl))
    (hinf : ∀ c ∈ cand, lsInfinity ≤ c.distance) (k : Node) (d : ℕ) :
    Labels spl k d ↔ IsDist (SpfEdge ospf stack area) (rootNode ospf) k d ∧ d < lsInfinity := by
  constructor
  · intro hk
    refine ⟨h.frontier.settled k d hk, ?_⟩
    obtain ⟨x, hx, -, rfl⟩ := hk
    exact h.bound x hx
  · rintro ⟨hdist, hlt⟩
    rcases h.frontier.exits (fun x dx y m => h.full x dx y m) hdist.walk with ⟨e, he, -⟩ | ⟨x, e, hx, hle⟩
    · have heq := (h.frontier.settled k e he).unique hdist
      rwa [heq] at he
    · obtain ⟨c, hc, -, rfl⟩ := hx
      have := hinf c hc
      omega

/-- The root of the search. -/
def rootVertex (ospf : Pds) (lsa : LsaHdr) : Vertex := ⟨ospf.routerId, .router, lsa, [], 0⟩

theorem spfStart_eq_some {s : SpfState} (h : spfStart ospf stack area = some s) :
    ∃ lsa, liveLsa ospf area (rootNode ospf) = some lsa ∧
      s = ⟨updateCandidateList ospf stack area ([] ++ [rootVertex ospf lsa]) (rootVertex ospf lsa) [],
        [] ++ [rootVertex ospf lsa]⟩ := by
  unfold spfStart at h
  split at h
  · cases h
  · rename_i lsa hfound
    split at h
    · cases h
    · rename_i hage
      cases h
      refine ⟨lsa, liveLsa_eq_some.2 ⟨?_, Bool.eq_false_iff.2 hage⟩, rfl⟩
      exact (lookupLsaList_congr rfl _).trans hfound

/-- The root alone, before its links are examined. -/
theorem searchInv_root (stack : Stack) {lsa : LsaHdr} (hlive : liveLsa ospf area (rootNode ospf) = some lsa) :
    SearchInv ospf stack area ([] ++ [rootVertex ospf lsa]) [] (scans []) := by
  have hmem : ∀ x ∈ ([] ++ [rootVertex ospf lsa] ++ [] : List Vertex), x = rootVertex ospf lsa :=
    fun x hx => List.mem_singleton.1 hx
  have hzero : 0 < lsInfinity := by decide
  have hcand : (Labels []) = fun _ _ => False := by
    funext k d
    exact propext ⟨fun ⟨_, hx, _⟩ => absurd hx List.not_mem_nil, False.elim⟩
  have hscan : Scanned ospf stack area (scans []) = fun _ _ _ => False := by
    funext x y m
    exact propext ⟨fun ⟨_, _, hp, _⟩ => absurd hp List.not_mem_nil, False.elim⟩
  have hstart : Frontier (SpfEdge ospf stack area) (rootNode ospf) (Labels ([] ++ [rootVertex ospf lsa]))
      (fun _ _ => False) (fun _ _ _ => False) := Frontier.start fun k d => labels_singleton _ k d
  refine ⟨fun x hx => ?_, List.nodup_singleton _, fun x hx => ?_, rfl, fun x hx hne => ?_,
    fun _ hp => absurd hp List.not_mem_nil, List.pairwise_singleton .., ?_⟩
  · rw [hmem x hx]
    exact hlive
  · rw [List.mem_singleton.1 hx]
    exact hzero
  · rw [hmem x hx] at hne
    exact absurd rfl hne
  · rw [hcand, hscan]
    exact hstart

/-- The search starts with the invariant. -/
theorem searchInv_start {s : SpfState} (h : spfStart ospf stack area = some s) :
    SearchInv ospf stack area s.shortestPathList s.candidateList (scans s.shortestPathList) := by
  obtain ⟨lsa, hlive, rfl⟩ := spfStart_eq_some h
  exact (searchInv_root stack hlive).update (fun _ hx => absurd hx List.not_mem_nil) fun _ => rfl

/-- **The search ends**, in a state with the invariant and without a candidate below infinity. -/
theorem searchInv_ends {s₀ : SpfState} (h : spfStart ospf stack area = some s₀) :
    ∃ n s, Loop.run (spfRound ospf stack area) n s₀ = some s ∧
      SearchInv ospf stack area s.shortestPathList s.candidateList (scans s.shortestPathList) ∧
      ∀ c ∈ s.candidateList, lsInfinity ≤ c.distance := by
  have hstart := searchInv_start h
  let inv (s : SpfState) : Prop :=
    SearchInv ospf stack area s.shortestPathList s.candidateList (scans s.shortestPathList)
  have hvariant : ∀ s s' : SpfState, inv s → spfRound ospf stack area s = .inl s' → inv s' ∧
      (SearchInv.lsdbNodes area).length - s'.shortestPathList.length <
        (SearchInv.lsdbNodes area).length - s.shortestPathList.length := by
    intro s s' hs hr
    obtain ⟨hs', hlen⟩ := SearchInv.round hs hr
    have hle := hs'.length_le
    exact ⟨hs', by omega⟩
  have hhalts : Loop.Halts (spfRound ospf stack area) s₀ :=
    Loop.halts_of_variant Nat.lt_wfRel.wf
      (fun s => (SearchInv.lsdbNodes area).length - s.shortestPathList.length) hvariant hstart
  obtain ⟨n, s, hrun⟩ := hhalts
  have hend : ∀ s b : SpfState,
      SearchInv ospf stack area s.shortestPathList s.candidateList (scans s.shortestPathList) →
      spfRound ospf stack area s = .inr b →
      SearchInv ospf stack area b.shortestPathList b.candidateList (scans b.shortestPathList) ∧
        ∀ c ∈ b.candidateList, lsInfinity ≤ c.distance := by
    intro s b hs hr
    obtain ⟨rfl, hinf⟩ := SearchInv.ended hr
    exact ⟨hs, hinf⟩
  exact ⟨n, s, hrun, Loop.run_inv (fun s s' hs hr => (SearchInv.round hs hr).1) hend hstart hrun⟩

end NetSim.Ospf
