import NetSim.Proof.OlsrTables

/-!
# What a HELLO says

* `Marked`: the neighbours with the status `MPR_NEIGH` are the relays, in every run.
* `hello_names_relays`: the HELLO of a node lists each of its neighbours once, and says which of them are its relays.
-/

namespace NetSim.Olsr

variable {α : Type} [DecidableEq α] {s s' : NodeOlsr α} {n n' : NdpNode α} {now : ℚ} {l : List (NeighborTuple α)}
  {mainAddress nwAddress address : α}

/-! ## The status of a neighbour -/

/-- **The neighbours that satisfy `Q` have the status `MPR_NEIGH`**, and no others. -/
def Marked (Q : α → Prop) (l : List (NeighborTuple α)) : Prop := ∀ y ∈ l, y.status = .mprNeigh ↔ Q y.neighborMainAddr

/-- A status that is written to the tuple of an address. -/
abbrev setStatus (address : α) (status : NeighborType) (l : List (NeighborTuple α)) : List (NeighborTuple α) :=
  FirstMatch.updateFirst (fun neighbor => neighbor.neighborMainAddr = address) (fun neighbor => { neighbor with status := status })
    1 l

theorem setStatus_addrs (address : α) (status : NeighborType) (l : List (NeighborTuple α)) :
    (setStatus address status l).map NeighborTuple.neighborMainAddr = l.map NeighborTuple.neighborMainAddr :=
  FirstMatch.map_updateFirst (by intro y; rfl) 1 l

/-- With distinct addresses, one tuple is written. -/
theorem setStatus_eq (hdistinct : (l.map NeighborTuple.neighborMainAddr).Nodup) (address : α) (status : NeighborType) :
    setStatus address status l = l.map fun y => if y.neighborMainAddr = address then { y with status := status } else y := by
  induction l with
  | nil => rfl
  | cons x l ih =>
    obtain ⟨hnew, hdistinct⟩ := List.nodup_cons.1 hdistinct
    rw [List.map_cons]
    by_cases hx : x.neighborMainAddr = address
    · have hnone : l.find? (fun neighbor => decide (neighbor.neighborMainAddr = address)) = none := by
        refine List.find?_eq_none.2 fun y hy heq => hnew ?_
        rw [hx, ← of_decide_eq_true heq]
        exact List.mem_map_of_mem hy
      have hrest : (l.map fun y => if y.neighborMainAddr = address then { y with status := status } else y) = l := by
        refine (List.map_congr_left fun y hy => if_neg fun heq => hnew ?_).trans (List.map_id l)
        rw [hx, ← heq]
        exact List.mem_map_of_mem hy
      rw [if_pos hx, hrest]
      refine (FirstMatch.updateFirst_cons_of_pos (p := fun neighbor : NeighborTuple α => decide (neighbor.neighborMainAddr = address))
        (decide_eq_true hx) _ 0 l).trans ?_
      rw [FirstMatch.updateFirst_zero]
    · rw [if_neg hx, ← ih hdistinct]
      exact FirstMatch.updateFirst_cons_of_neg (p := fun neighbor : NeighborTuple α => decide (neighbor.neighborMainAddr = address))
        (decide_eq_false hx) _ 1 l

/-- **A status is written**: `MPR_NEIGH` marks the address, and another one unmarks it. -/
theorem Marked.setStatus {Q : α → Prop} (h : Marked Q l) (hdistinct : (l.map NeighborTuple.neighborMainAddr).Nodup) (address : α)
    (status : NeighborType) :
    Marked (fun a => if a = address then status = .mprNeigh else Q a) (setStatus address status l) := by
  intro y hy
  rw [setStatus_eq hdistinct] at hy
  obtain ⟨x, hx, rfl⟩ := List.mem_map.1 hy
  by_cases heq : x.neighborMainAddr = address
  · rw [if_pos heq]
    dsimp only
    rw [if_pos heq]
  · rw [if_neg heq]
    dsimp only
    rw [if_neg heq]
    exact h x hx

omit [DecidableEq α] in
theorem Marked.congr {P Q : α → Prop} (h : Marked P l) (hiff : ∀ y ∈ l, P y.neighborMainAddr ↔ Q y.neighborMainAddr) : Marked Q l :=
  fun y hy => (h y hy).trans (hiff y hy)

/-! ## A HELLO that is received -/

theorem addNeighbor_eq (now : ℚ) (s : NodeOlsr α) (link : LinkTuple α) : ∃ status, status ≠ NeighborType.mprNeigh ∧
    (addNeighbor now s link).neighborSet = setStatus link.neighborIfaceAddr status
      (if (findNeighborSet s.neighborSet link.neighborIfaceAddr).isSome then s.neighborSet
        else s.neighborSet ++ [⟨link.neighborIfaceAddr, .notNeigh, .default⟩]) := by
  refine ⟨if now ≤ link.symTime then .symNeigh else .notNeigh, ?_, rfl⟩
  split
  · decide
  · decide

/-- **The loop over the links** unmarks their neighbours. -/
theorem foldl_addNeighbor_marked {Q : α → Prop} (now : ℚ) (links : List (LinkTuple α)) (h : Marked Q s.neighborSet)
    (hdistinct : (neighborAddrs s).Nodup) :
    Marked (fun a => Q a ∧ a ∉ links.map LinkTuple.neighborIfaceAddr) (links.foldl (addNeighbor now) s).neighborSet := by
  induction links generalizing s Q with
  | nil => exact h.congr fun y _ => (and_iff_left List.not_mem_nil).symm
  | cons link links ih =>
    obtain ⟨status, hstatus, heq⟩ := addNeighbor_eq now s link
    have hnodup : (neighborAddrs (addNeighbor now s link)).Nodup := by
      rw [addNeighbor_addrs]
      split
      · exact hdistinct
      · rename_i hnew
        exact List.nodup_append.2 ⟨hdistinct, List.nodup_cons.2 ⟨List.not_mem_nil, List.nodup_nil⟩,
          fun x hx y hy hxy => hnew (List.mem_singleton.1 hy ▸ hxy ▸ hx)⟩
    have hadded : Marked (fun a => Q a ∧ a ≠ link.neighborIfaceAddr) (addNeighbor now s link).neighborSet := by
      have haddrs := congrArg (List.map NeighborTuple.neighborMainAddr) heq
      rw [setStatus_addrs] at haddrs
      unfold neighborAddrs at hnodup
      rw [haddrs] at hnodup
      intro y hy
      rw [heq, setStatus_eq hnodup] at hy
      obtain ⟨x, hx, rfl⟩ := List.mem_map.1 hy
      by_cases hxa : x.neighborMainAddr = link.neighborIfaceAddr
      · rw [if_pos hxa]
        exact ⟨fun hmpr => absurd hmpr hstatus, fun hnot => absurd hxa hnot.2⟩
      · rw [if_neg hxa]
        have hmem : x ∈ s.neighborSet := by
          split at hx
          · exact hx
          · rcases List.mem_append.1 hx with hx | hx
            · exact hx
            · exact absurd (congrArg NeighborTuple.neighborMainAddr (List.mem_singleton.1 hx)) hxa
        exact (h x hmem).trans (and_iff_left hxa).symm
    exact (ih hadded hnodup).congr fun y _ => by
      rw [List.map_cons, List.mem_cons, not_or, and_assoc]

omit [DecidableEq α] in
theorem Marked.of_map {Q : α → Prop} {l' : List (NeighborTuple α)} (h : Marked Q l)
    (heq : (l'.map fun y => (y.neighborMainAddr, y.status)) = l.map fun y => (y.neighborMainAddr, y.status)) : Marked Q l' := by
  intro y hy
  have hmem : (y.neighborMainAddr, y.status) ∈ l.map fun y => (y.neighborMainAddr, y.status) := by
    rw [← heq]
    exact List.mem_map_of_mem hy
  obtain ⟨x, hx, hxy⟩ := List.mem_map.1 hmem
  obtain ⟨haddr, hstatus⟩ := Prod.mk.inj hxy
  rw [← haddr, ← hstatus]
  exact h x hx

/-- **The neighbours that a HELLO leaves** are not marked until the relays are chosen. -/
theorem populateNeighborSet_marked {Q : α → Prop} {hello : Hello α} (h : Marked Q s.neighborSet) (hdistinct : (neighborAddrs s).Nodup)
    (hresult : populateNeighborSet now hello s = some s') (haddrs : neighborAddrs s' = linkAddrs s) :
    Marked (fun _ => False) s'.neighborSet := by
  unfold populateNeighborSet at hresult
  dsimp only at hresult
  split at hresult
  · rw [← Option.some.inj hresult] at haddrs ⊢
    have hkept := map_foldl_keeps (f := setWillingness hello.willingness)
      (g := fun y : NeighborTuple α => (y.neighborMainAddr, y.status))
      (fun x c => FirstMatch.map_updateFirst (by intro y; rfl) 1 x) hello.link (s.linkSet.foldl (addNeighbor now) s).neighborSet
    refine (((foldl_addNeighbor_marked now s.linkSet h hdistinct).of_map hkept).congr fun y hy => ?_)
    refine iff_of_false (fun hnot => hnot.2 ?_) id
    have hmem := List.mem_map_of_mem (f := NeighborTuple.neighborMainAddr) hy
    unfold neighborAddrs at haddrs
    dsimp only at haddrs
    rw [haddrs] at hmem
    exact hmem
  · cases hresult

/-- **The relays are marked.** -/
theorem foldl_setStatus_marked {Q : α → Prop} (relays : List α) (h : Marked Q l)
    (hdistinct : (l.map NeighborTuple.neighborMainAddr).Nodup) :
    Marked (fun a => a ∈ relays ∨ Q a) (relays.foldl (fun l address => setStatus address .mprNeigh l) l) := by
  induction relays generalizing l Q with
  | nil => exact h.congr fun y _ => (or_iff_right List.not_mem_nil).symm
  | cons address relays ih =>
    have hnext := ih (h.setStatus hdistinct address .mprNeigh) (by rw [setStatus_addrs]; exact hdistinct)
    refine hnext.congr fun y _ => ?_
    rw [List.mem_cons]
    by_cases heq : y.neighborMainAddr = address
    · rw [if_pos heq]
      exact iff_of_true (.inr rfl) (.inl (.inl heq))
    · rw [if_neg heq, or_iff_right (a := y.neighborMainAddr = address) heq]

theorem populateMprSet_marked {rounds : ℕ} (hresult : populateMprSet rounds now s = some s')
    (h : Marked (fun _ => False) s.neighborSet) (hdistinct : (neighborAddrs s).Nodup) :
    Marked (fun a => a ∈ s'.mprSet) s'.neighborSet := by
  unfold populateMprSet at hresult
  simp only [Option.bind_eq_bind, Option.bind_eq_some_iff] at hresult
  obtain ⟨n2, -, s₁, -, s₂, -, hs'⟩ := hresult
  rw [← Option.some.inj hs']
  exact (foldl_setStatus_marked s₂.mprSet h hdistinct).congr fun y _ => or_iff_left id

/-! ## Runs -/

/-- What holds of the marks and of the local addresses in every run. -/
structure HelloInv (n : NdpNode α) : Prop where
  marked : Marked (fun a => a ∈ n.olsr.mprSet) n.olsr.neighborSet
  localAddr : ∀ link ∈ n.olsr.linkSet, link.localIfaceAddr = n.nwAddress

theorem populateLinkSet_local (h : ∀ link ∈ n.olsr.linkSet, link.localIfaceAddr = n.nwAddress) (now : ℚ) (hello : Hello α) :
    (∀ link ∈ (populateLinkSet now hello n).olsr.linkSet, link.localIfaceAddr = n.nwAddress) ∧
      (populateLinkSet now hello n).nwAddress = n.nwAddress := by
  unfold populateLinkSet
  dsimp only
  split
  · refine ⟨fun link hlink => ?_, rfl⟩
    have hkept : ((FirstMatch.updateFirst (fun link => decide (link.neighborIfaceAddr = hello.szSourceIp))
        (updateLink now hello n.nwAddress) 1 n.olsr.linkSet).map LinkTuple.localIfaceAddr) =
        n.olsr.linkSet.map LinkTuple.localIfaceAddr := FirstMatch.map_updateFirst (by intro link; rfl) 1 n.olsr.linkSet
    have hmem := List.mem_map_of_mem (f := LinkTuple.localIfaceAddr) hlink
    dsimp only at hmem
    rw [hkept] at hmem
    obtain ⟨x, hx, heq⟩ := List.mem_map.1 hmem
    rw [← heq]
    exact h x hx
  · refine ⟨fun link hlink => ?_, rfl⟩
    rcases List.mem_append.1 hlink with hlink | hlink
    · exact h link hlink
    · rw [List.mem_singleton.1 hlink]
      rfl

/-- **A HELLO** marks the new relays. -/
theorem HelloInv.receive {hello : Hello α} (h : HelloInv n) (hinv : NdpInv n) (hresult : Loop.Gives (receiveHello now hello n) n') :
    HelloInv n' := by
  obtain ⟨k, hk⟩ := hresult.enough
  obtain ⟨m, hm, hfinish⟩ := Option.bind_eq_some_iff.1 (hk k (le_refl k))
  obtain ⟨s', hs', rfl⟩ := Option.map_eq_some_iff.1 hfinish
  obtain ⟨m', hm', hsets⟩ := hinv.populateSets now hello
  obtain rfl := Option.some.inj (hm.symm.trans hm')
  obtain ⟨hmain, hneighbors, htwoHop, hcases⟩ := populateLinkSet_cases now hello n
  obtain ⟨hlocal, hnw⟩ := populateLinkSet_local h.localAddr now hello
  unfold populateSets at hm
  dsimp only at hm
  obtain ⟨olsr, holsr, rfl⟩ := Option.map_eq_some_iff.1 hm
  have hlinks : olsr.linkSet = (populateLinkSet now hello n).olsr.linkSet := by
    unfold populateNeighborSet at holsr
    dsimp only at holsr
    split at holsr
    · rw [← Option.some.inj holsr]
      exact (foldl_addNeighbor_keeps now _ _).1
    · cases holsr
  obtain ⟨hlinks', hneighbors'⟩ := populateTwoHopNeighbor_keeps now hello (populateLinkSet now hello n).mainAddress olsr
  have hnone : Marked (fun _ => False) olsr.neighborSet := by
    refine populateNeighborSet_marked (Q := fun a => a ∈ n.olsr.mprSet) (s := (populateLinkSet now hello n).olsr) ?_ ?_ holsr ?_
    · rw [hneighbors]
      exact h.marked
    · unfold neighborAddrs
      rw [hneighbors]
      have heq : n.olsr.neighborSet.map NeighborTuple.neighborMainAddr = linkAddrs n.olsr := hinv.sets.neighbors
      rw [heq]
      exact hinv.sets.distinct
    · have heq := hsets.sets.neighbors
      unfold neighborAddrs linkAddrs at heq
      dsimp only at heq
      rw [hneighbors', hlinks', hlinks] at heq
      exact heq
  constructor
  · have hmarks : Marked (fun a => a ∈ s'.mprSet) s'.neighborSet := by
      refine populateMprSet_marked hs' ?_ ?_
      · dsimp only
        rw [hneighbors']
        exact hnone
      · rw [hsets.sets.neighbors]
        exact hsets.sets.distinct
    exact hmarks
  · intro link hlink
    unfold finishHello at hlink
    dsimp only at hlink
    rw [(populateMprSet_keeps hs').1] at hlink
    dsimp only at hlink
    rw [hlinks', hlinks] at hlink
    exact (hlocal link hlink).trans hnw.symm

theorem HelloInv.expire (h : HelloInv n) (hresult : linkTupleExpire now address n = some n') : HelloInv n' := by
  obtain ⟨link, -, rfl⟩ := Option.map_eq_some_iff.1 hresult
  have hremoved : (removeNeighborTuple n.olsr address).neighborSet.Sublist n.olsr.neighborSet ∧
      (removeNeighborTuple n.olsr address).linkSet = n.olsr.linkSet ∧
      (removeNeighborTuple n.olsr address).mprSet = n.olsr.mprSet := by
    unfold removeNeighborTuple
    split
    · exact ⟨List.Sublist.refl _, rfl, rfl⟩
    · split
      · exact ⟨List.filter_sublist, rfl, rfl⟩
      · exact ⟨List.Sublist.refl _, rfl, rfl⟩
  obtain ⟨hneighbors, hlinks, hrelays⟩ := hremoved
  split
  · refine ⟨fun y hy => ?_, fun link hlink => h.localAddr link ?_⟩
    · dsimp only at hy ⊢
      rw [hrelays]
      exact h.marked y (hneighbors.subset hy)
    · have hmem := List.mem_of_mem_eraseP hlink
      rw [hlinks] at hmem
      exact hmem
  · exact ⟨h.marked, h.localAddr⟩

theorem NdpRun.helloInv (h : NdpRun mainAddress nwAddress n) : HelloInv n := by
  induction h with
  | start => exact ⟨fun y hy => absurd hy List.not_mem_nil, fun link hlink => absurd hlink List.not_mem_nil⟩
  | hello now hello hrun hresult ih => exact ih.receive hrun.inv hresult
  | expire hrun hevent hresult ih =>
    refine HelloInv.expire ?_ hresult
    exact ⟨ih.marked, ih.localAddr⟩

/-! ## The HELLO of the node -/

/-- The second loop adds nothing for neighbours that are listed. -/
theorem foldl_addUnspecLink_self {hello : List (LinkInfo α)}
    (h : ∀ y ∈ l, y.neighborMainAddr ∈ hello.map fun linkInfo => linkInfo.neighborInterfaceAddress) :
    l.foldl addUnspecLink hello = hello := by
  induction l with
  | nil => rfl
  | cons y l ih =>
    have hany : (hello.any fun linkInfo => linkInfo.neighborInterfaceAddress = y.neighborMainAddr) = true := by
      obtain ⟨linkInfo, hmem, heq⟩ := List.mem_map.1 (h y List.mem_cons_self)
      exact List.any_eq_true.2 ⟨linkInfo, hmem, decide_eq_true heq⟩
    have hsame : addUnspecLink hello y = hello := if_pos hany
    rw [List.foldl_cons, hsame]
    exact ih fun z hz => h z (List.mem_cons_of_mem y hz)

/-- The entry of a neighbour without a link of the main address. -/
def unspecLink (y : NeighborTuple α) : LinkInfo α := ⟨⟨y.status, y.neighborMainAddr⟩, .unspecLink⟩

/-- The second loop lists neighbours that are not listed yet. -/
theorem foldl_addUnspecLink_new {hello : List (LinkInfo α)} (hdistinct : (l.map NeighborTuple.neighborMainAddr).Nodup)
    (h : ∀ y ∈ l, y.neighborMainAddr ∉ hello.map fun linkInfo => linkInfo.neighborInterfaceAddress) :
    l.foldl addUnspecLink hello = hello ++ l.map unspecLink := by
  induction l generalizing hello with
  | nil => exact (List.append_nil hello).symm
  | cons y l ih =>
    obtain ⟨hnew, hdistinct⟩ := List.nodup_cons.1 hdistinct
    have hany : ¬ (hello.any fun linkInfo => linkInfo.neighborInterfaceAddress = y.neighborMainAddr) = true := by
      intro hany
      obtain ⟨linkInfo, hmem, heq⟩ := List.any_eq_true.1 hany
      exact h y List.mem_cons_self (List.mem_map.2 ⟨linkInfo, hmem, of_decide_eq_true heq⟩)
    have hadded : addUnspecLink hello y = hello ++ [unspecLink y] := if_neg hany
    rw [List.foldl_cons, hadded, ih hdistinct, List.append_assoc]
    · rfl
    · intro z hz hmem
      rw [List.map_append] at hmem
      rcases List.mem_append.1 hmem with hmem | hmem
      · exact h z (List.mem_cons_of_mem y hz) hmem
      · have heq : z.neighborMainAddr = y.neighborMainAddr := List.mem_singleton.1 hmem
        exact hnew (heq ▸ List.mem_map_of_mem hz)

/-- **The HELLO of a node**, in every run, lists each of its neighbours once, in the order of the links, and names as relays
exactly those that have been chosen last. -/
theorem hello_names_relays (h : NdpRun mainAddress nwAddress n) (now : ℚ) :
    ((fillLinkToHello now n).map fun linkInfo => linkInfo.neighborInterfaceAddress) = linkAddrs n.olsr ∧
      (linkAddrs n.olsr).Nodup ∧
      ∀ linkInfo ∈ fillLinkToHello now n, linkInfo.neighTypes = .mprNeigh ↔ linkInfo.neighborInterfaceAddress ∈ n.olsr.mprSet := by
  have hsets := h.inv.sets
  have hmarked := h.helloInv.marked
  have hneighbors : n.olsr.neighborSet.map NeighborTuple.neighborMainAddr = linkAddrs n.olsr := hsets.neighbors
  by_cases hlocal : n.nwAddress = n.mainAddress
  · have hall : (n.olsr.linkSet.filter fun link => link.localIfaceAddr = n.mainAddress) = n.olsr.linkSet :=
      List.filter_eq_self.2 fun link hlink => decide_eq_true ((h.helloInv.localAddr link hlink).trans hlocal)
    have hfill : fillLinkToHello now n = n.olsr.linkSet.map (helloLink now n) := by
      unfold fillLinkToHello
      rw [hall]
      refine foldl_addUnspecLink_self fun y hy => ?_
      have hmem : y.neighborMainAddr ∈ linkAddrs n.olsr := by
        rw [← hneighbors]
        exact List.mem_map_of_mem hy
      rw [List.map_map]
      exact hmem
    refine ⟨?_, hsets.distinct, fun linkInfo hinfo => ?_⟩
    · rw [hfill, List.map_map]
      rfl
    · rw [hfill] at hinfo
      obtain ⟨link, hlink, rfl⟩ := List.mem_map.1 hinfo
      have hmem : link.neighborIfaceAddr ∈ n.olsr.neighborSet.map NeighborTuple.neighborMainAddr := by
        rw [hneighbors]
        exact List.mem_map_of_mem hlink
      obtain ⟨y, hy⟩ := Option.isSome_iff_exists.1 ((findNeighborSet_isSome_iff _ _).2 hmem)
      have haddr : y.neighborMainAddr = link.neighborIfaceAddr := of_decide_eq_true (List.find?_some hy :)
      unfold helloLink
      dsimp only
      rw [hy, Option.map_some, Option.getD_some, ← haddr]
      exact hmarked y (List.mem_of_find?_eq_some hy)
  · have hnone : (n.olsr.linkSet.filter fun link => link.localIfaceAddr = n.mainAddress) = [] :=
      List.filter_eq_nil_iff.2 fun link hlink heq =>
        hlocal ((h.helloInv.localAddr link hlink).symm.trans (of_decide_eq_true heq))
    have hfill : fillLinkToHello now n = n.olsr.neighborSet.map unspecLink := by
      unfold fillLinkToHello
      rw [hnone, List.map_nil]
      exact foldl_addUnspecLink_new (hneighbors ▸ hsets.distinct) fun y _ => List.not_mem_nil
    refine ⟨?_, hsets.distinct, fun linkInfo hinfo => ?_⟩
    · rw [hfill, List.map_map]
      exact hneighbors
    · rw [hfill] at hinfo
      obtain ⟨y, hy, rfl⟩ := List.mem_map.1 hinfo
      exact hmarked y hy

/-- The node that has chosen 2 says so. -/
theorem hello_names_heard : ∃ n : NdpNode ℕ, n.olsr.mprSet = [2] ∧
    ∀ linkInfo ∈ fillLinkToHello 0 n, linkInfo.neighTypes = .mprNeigh ↔ linkInfo.neighborInterfaceAddress ∈ [2] := by
  obtain ⟨n, hrun, hmpr⟩ := exists_heard
  exact ⟨n, hmpr, hmpr ▸ (hello_names_relays hrun 0).2.2⟩

end NetSim.Olsr
