import Mathlib.Order.Bounds.Basic
import NetSim.Lib.Keyed
import NetSim.Proof.SpfDijkstra
import NetSim.Spec.OspfRoute

/-!
# One row for each stub network

The law is about networks and masks, the lookups about addresses: the longest mask whose network an
address lies in, or the address alone. As long as no lookup takes the row of another network, the table
is what `netStep` makes of it, and it has the best row of each network if and only if some cheapest link of the
network has a way out (`stubRoutes_exact`). Links to networks that lie apart are such ones
(`undisturbed_of_apart`). A network inside of another one gets no row at all if the other one is closer
(`stubRoutes_nested`).
-/

namespace NetSim.Ospf

/-! ## Networks -/

/-- A stub network as it is advertised or stored: an address, a mask and a metric. -/
structure StubNet where
  addr : UInt32
  mask : UInt32
  metric : ℕ
deriving DecidableEq, Repr

/-- The network and its mask. -/
def StubNet.net (x : StubNet) : UInt32 × UInt32 := (x.addr &&& x.mask, x.mask)

/-- What a stub link of a vertex advertises. -/
def linkNet (vertex : Vertex) (link : RlsaLink) : StubNet :=
  ⟨link.linkId.intIp, link.linkData.intIp, vertex.distance + link.metric.toNat⟩

def RouteRow.stubNet (row : RouteRow) : StubNet := ⟨row.destAddr.intIp, row.addrMask.intIp, row.metric⟩

/-- A valid row of a network. -/
def RouteRow.isValidNet (row : RouteRow) : Bool := row.destType == .network && row.flag != .invalid

/-- The stub links in the order in which they are processed. -/
def processedLinks (ospf : Pds) (stack : Stack) (spl : List Vertex) : List (Vertex × RlsaLink) :=
  spl.flatMap fun vertex => (stubLinks ospf stack vertex).map (vertex, ·)

/-- **One row for each network**, with the least metric that a router advertises, and no others. -/
def StubRoutesExact (links : List (Vertex × RlsaLink)) (rows : List RouteRow) : Prop :=
  ∀ net, ((∃ p ∈ links, (linkNet p.1 p.2).net = net) →
      ∃ row, rows.filter (fun row => row.destType == .network && decide (row.stubNet.net = net)) = [row] ∧
        IsLeast {d | ∃ p ∈ links, (linkNet p.1 p.2).net = net ∧ (linkNet p.1 p.2).metric = d} row.metric) ∧
    ((¬ ∃ p ∈ links, (linkNet p.1 p.2).net = net) →
      rows.filter (fun row => row.destType == .network && decide (row.stubNet.net = net)) = [])

/-- The test of the lookup for a stub link. -/
def LooksUp (ospf : Pds) (new old : StubNet) : Prop :=
  if new.mask = anyDest ∨ ospf.isAdvertSelfIntf = true then old.addr = new.addr
  else old.addr &&& old.mask = new.addr &&& old.mask

/-- The test of the lookup inside `ospf_rtTable_addRoute`. -/
def Routes (ospf : Pds) (new old : StubNet) : Prop :=
  if ospf.isAdvertSelfIntf = true then old.addr = new.addr
  else old.addr &&& old.mask = new.addr &&& old.mask

/-- The way out for a stub link: the interface and the next hop. -/
def stubWay (ospf : Pds) (stack : Stack) (vertex : Vertex) (link : RlsaLink) : Option (ℕ × Option Ip) :=
  if vertex.vertexId.same ospf.routerId then
    if stubInterface ospf stack link == 0 then none else some (stubInterface ospf stack link, none)
  else vertex.nextHopList.head?.map fun item => (item.outIntf, item.nextHop)

/-! ## A table by networks -/

/-- The table has a row of the network that is no worse. -/
def Kept (rows : List RouteRow) (new : StubNet) : Prop :=
  ∃ row ∈ rows, row.isValidNet = true ∧ row.stubNet.net = new.net ∧ row.metric ≤ new.metric

instance (rows : List RouteRow) (new : StubNet) : Decidable (Kept rows new) := List.decidableBEx _ _

/-- The table without the row of a network. -/
def withoutNet (rows : List RouteRow) (net : UInt32 × UInt32) : List RouteRow :=
  rows.filter fun row => !(row.isValidNet && decide (row.stubNet.net = net))

/-- A stub link, if the table is kept by networks. `none` stands for the `NULL` next hop again. -/
def netStep (ospf : Pds) (stack : Stack) (areaId : Ip) (rows : List RouteRow) (p : Vertex × RlsaLink) :
    Option (List RouteRow) :=
  let new := linkNet p.1 p.2
  if Kept rows new then some rows
  else match stubWay ospf stack p.1 p.2 with
    | none => some (withoutNet rows new.net)
    | some (outInterfaceId, nextHop) =>
      addRoute ospf (withoutNet rows new.net) (stubRow areaId p.1 p.2 new.metric outInterfaceId nextHop)

/-- The row that `ospf_rtTable_addRoute` overwrites. -/
def overwritten (ospf : Pds) (rows : List RouteRow) (link : RlsaLink) : Option RouteRow :=
  (getRoute ospf rows link.linkId .network).bind fun i => rows[i]?

/-- The lookup for a link finds the row of its network, or one that is no worse than the link if that row is not. The
lookup inside `ospf_rtTable_addRoute` finds no row of another network, and no LSA is removed. -/
structure Undisturbed (ospf : Pds) (stack : Stack) (routerLSAList : List LsaHdr) (rows : List RouteRow)
    (p : Vertex × RlsaLink) : Prop where
  kept : Kept rows (linkNet p.1 p.2) →
    ∃ i row, findStubRoute ospf rows p.2 = some (i, row) ∧ row.metric ≤ (linkNet p.1 p.2).metric
  own : ¬ Kept rows (linkNet p.1 p.2) → ∀ i row, findStubRoute ospf rows p.2 = some (i, row) →
    row.stubNet.net = (linkNet p.1 p.2).net
  found : ¬ Kept rows (linkNet p.1 p.2) → findStubRoute ospf rows p.2 = none →
    ∀ row ∈ rows, row.isValidNet = true → row.stubNet.net ≠ (linkNet p.1 p.2).net
  added : ¬ Kept rows (linkNet p.1 p.2) → (stubWay ospf stack p.1 p.2).isSome →
    ∀ row, overwritten ospf (withoutNet rows (linkNet p.1 p.2).net) p.2 = some row → row.flag = .invalid
  lsa : ¬ Kept rows (linkNet p.1 p.2) → stubWay ospf stack p.1 p.2 = none →
    p.1.vertexId.same ospf.routerId = true → lookupLsaList routerLSAList p.2.linkId p.2.linkId = none

/-- Where a row is overwritten that has the metric of the link, both next hops are there. -/
def NextHopThere (ospf : Pds) (stack : Stack) (rows : List RouteRow) (p : Vertex × RlsaLink) : Prop :=
  ¬ Kept rows (linkNet p.1 p.2) → ∀ way, stubWay ospf stack p.1 p.2 = some way →
    ∀ row, overwritten ospf (withoutNet rows (linkNet p.1 p.2).net) p.2 = some row →
      row.metric = (linkNet p.1 p.2).metric → row.nextHop.isSome ∧ way.2.isSome

/-- A condition on each link and the table before it. -/
def AtEachLink (ospf : Pds) (stack : Stack) (areaId : Ip) (P : List RouteRow → Vertex × RlsaLink → Prop) :
    List RouteRow → List (Vertex × RlsaLink) → Prop
  | _, [] => True
  | rows, p :: links => P rows p ∧
      ∀ rows', netStep ospf stack areaId rows p = some rows' → AtEachLink ospf stack areaId P rows' links

/-- Every link is undisturbed when it is processed. -/
def StubLinksUndisturbed (ospf : Pds) (stack : Stack) (area : AreaDs) (oldRows : List RouteRow)
    (links : List (Vertex × RlsaLink)) : Prop :=
  AtEachLink ospf stack area.areaId (Undisturbed ospf stack area.routerLSAList) oldRows links

/-- No `NULL` next hop is compared. -/
def NextHopsThere (ospf : Pds) (stack : Stack) (area : AreaDs) (oldRows : List RouteRow)
    (links : List (Vertex × RlsaLink)) : Prop :=
  AtEachLink ospf stack area.areaId (NextHopThere ospf stack) oldRows links

/-- Some cheapest link of each network has a way out. -/
def CheapestUsable (ospf : Pds) (stack : Stack) (links : List (Vertex × RlsaLink)) : Prop :=
  ∀ p ∈ links, ∃ q ∈ links, (stubWay ospf stack q.1 q.2).isSome = true ∧
    (linkNet q.1 q.2).net = (linkNet p.1 p.2).net ∧
    ∀ r ∈ links, (linkNet r.1 r.2).net = (linkNet p.1 p.2).net → (linkNet q.1 q.2).metric ≤ (linkNet r.1 r.2).metric

/-- The best link to each network; one without a way out is not kept. -/
def bestLinks (ospf : Pds) (stack : Stack) (links : List (Vertex × RlsaLink)) : List (Vertex × RlsaLink) :=
  KeepBest.bests (fun p => (linkNet p.1 p.2).net) (fun p => (linkNet p.1 p.2).metric)
    (fun p => (stubWay ospf stack p.1 p.2).isSome) links

instance (ospf : Pds) (new old : StubNet) : Decidable (LooksUp ospf new old) :=
  inferInstanceAs (Decidable (if new.mask = anyDest ∨ ospf.isAdvertSelfIntf = true then old.addr = new.addr
    else old.addr &&& old.mask = new.addr &&& old.mask))

instance (ospf : Pds) (new old : StubNet) : Decidable (Routes ospf new old) :=
  inferInstanceAs (Decidable (if ospf.isAdvertSelfIntf = true then old.addr = new.addr
    else old.addr &&& old.mask = new.addr &&& old.mask))

theorem looksUp_exact {ospf : Pds} {new old : StubNet}
    (h : new.mask = anyDest ∨ ospf.isAdvertSelfIntf = true) : LooksUp ospf new old ↔ old.addr = new.addr := by
  unfold LooksUp
  rw [if_pos h]

theorem looksUp_covers {ospf : Pds} {new old : StubNet}
    (h : ¬ (new.mask = anyDest ∨ ospf.isAdvertSelfIntf = true)) :
    LooksUp ospf new old ↔ old.addr &&& old.mask = new.addr &&& old.mask := by
  unfold LooksUp
  rw [if_neg h]

theorem routes_exact {ospf : Pds} {new old : StubNet} (h : ospf.isAdvertSelfIntf = true) :
    Routes ospf new old ↔ old.addr = new.addr := by
  unfold Routes
  rw [if_pos h]

theorem routes_covers {ospf : Pds} {new old : StubNet} (h : ¬ ospf.isAdvertSelfIntf = true) :
    Routes ospf new old ↔ old.addr &&& old.mask = new.addr &&& old.mask := by
  unfold Routes
  rw [if_neg h]

/-! ## Lookups -/

/-- One step of the loop of `longestMatch`. -/
def keepLongest (p : RouteRow → Bool) (longestMatchingEntry : Option (RouteRow × ℕ)) (x : RouteRow × ℕ) :
    Option (RouteRow × ℕ) :=
  if p x.1 && longestMatchingEntry.all fun y => decide (x.1.addrMask.intIp > y.1.addrMask.intIp) then some x
  else longestMatchingEntry

theorem longestMatch_eq (p : RouteRow → Bool) (rows : List RouteRow) :
    longestMatch p rows = (rows.zipIdx.foldl (keepLongest p) none).map Prod.snd :=
  rfl

/-- The loop of `longestMatch` keeps a row of the longest mask among those met. -/
theorem foldl_keepLongest_spec (p : RouteRow → Bool) (rows : List RouteRow) :
    match rows.zipIdx.foldl (keepLongest p) none with
    | none => ∀ row ∈ rows, p row = false
    | some (row, i) => rows[i]? = some row ∧ p row = true ∧
        ∀ x ∈ rows, p x = true → x.addrMask.intIp ≤ row.addrMask.intIp := by
  induction rows using List.reverseRecOn with
  | nil => exact fun _ h => absurd h List.not_mem_nil
  | append_singleton rows x ih =>
    rw [List.zipIdx_append, List.foldl_append]
    have hlast : (rows ++ [x])[rows.length]? = some x := by simp
    cases hacc : rows.zipIdx.foldl (keepLongest p) none with
    | none =>
      rw [hacc] at ih
      by_cases hx : p x = true
      · simp only [List.zipIdx_singleton, List.foldl_cons, List.foldl_nil, Nat.zero_add, keepLongest, hx,
          Option.all_none, Bool.and_self, if_true]
        refine ⟨hlast, trivial, fun y hy hpy => ?_⟩
        rcases List.mem_append.1 hy with hy | hy
        · rw [ih y hy] at hpy
          cases hpy
        · rw [List.mem_singleton.1 hy]
          exact UInt32.le_refl _
      · simp only [List.zipIdx_singleton, List.foldl_cons, List.foldl_nil, keepLongest, hx, Bool.false_and,
          Bool.false_eq_true, if_false]
        intro y hy
        rcases List.mem_append.1 hy with hy | hy
        · exact ih y hy
        · rw [List.mem_singleton.1 hy]
          exact Bool.eq_false_iff.2 hx
    | some entry =>
      obtain ⟨row, i⟩ := entry
      rw [hacc] at ih
      obtain ⟨hget, hrow, hmax⟩ := ih
      have hi : i < rows.length := (List.getElem?_eq_some_iff.1 hget).1
      by_cases hnew : p x = true ∧ row.addrMask.intIp < x.addrMask.intIp
      · obtain ⟨hx, hlt⟩ := hnew
        simp only [List.zipIdx_singleton, List.foldl_cons, List.foldl_nil, Nat.zero_add, keepLongest, hx,
          Option.all_some, gt_iff_lt, hlt, decide_true, Bool.and_self, if_true]
        refine ⟨hlast, trivial, fun y hy hpy => ?_⟩
        rcases List.mem_append.1 hy with hy | hy
        · exact UInt32.le_trans (hmax y hy hpy) (UInt32.le_of_lt hlt)
        · rw [List.mem_singleton.1 hy]
          exact UInt32.le_refl _
      · have hkeep : (p x && decide (row.addrMask.intIp < x.addrMask.intIp)) = false := by
          rw [Bool.eq_false_iff]
          simpa using hnew
        simp only [List.zipIdx_singleton, List.foldl_cons, List.foldl_nil, keepLongest, Option.all_some,
          gt_iff_lt, hkeep, Bool.false_eq_true, if_false]
        refine ⟨by rw [List.getElem?_append_left hi]; exact hget, hrow, fun y hy hpy => ?_⟩
        rcases List.mem_append.1 hy with hy | hy
        · exact hmax y hy hpy
        · rw [List.mem_singleton.1 hy] at hpy ⊢
          exact UInt32.not_lt.1 fun hlt => hnew ⟨hpy, hlt⟩

theorem longestMatch_spec (p : RouteRow → Bool) (rows : List RouteRow) :
    match longestMatch p rows with
    | none => ∀ row ∈ rows, p row = false
    | some i => ∃ row, rows[i]? = some row ∧ p row = true ∧
        ∀ x ∈ rows, p x = true → x.addrMask.intIp ≤ row.addrMask.intIp := by
  have h := foldl_keepLongest_spec p rows
  rw [longestMatch_eq]
  cases hacc : rows.zipIdx.foldl (keepLongest p) none with
  | none =>
    rw [hacc] at h
    exact h
  | some entry =>
    obtain ⟨row, i⟩ := entry
    rw [hacc] at h
    exact ⟨row, h⟩

theorem findIdx?_spec (p : RouteRow → Bool) (rows : List RouteRow) :
    match rows.findIdx? p with
    | none => ∀ row ∈ rows, p row = false
    | some i => ∃ row, rows[i]? = some row ∧ p row = true := by
  cases h : rows.findIdx? p with
  | none => exact List.findIdx?_eq_none_iff.1 h
  | some i =>
    obtain ⟨hi, hp, -⟩ := List.findIdx?_eq_some_iff_getElem.1 h
    exact ⟨rows[i], List.getElem?_eq_getElem hi, hp⟩

/-! ## The table while links are processed -/

/-- The valid rows are the best links so far; the invalid ones are from before. -/
def TableInv (rows : List RouteRow) (best : List (Vertex × RlsaLink)) : Prop :=
  ((rows.filter RouteRow.isValidNet).map RouteRow.stubNet).Perm (best.map fun p => linkNet p.1 p.2)

variable {ospf : Pds} {stack : Stack} {areaId : Ip} {oldRows rows rows' : List RouteRow}
  {best links : List (Vertex × RlsaLink)} {vertex : Vertex} {link : RlsaLink} {p : Vertex × RlsaLink}
  {row : RouteRow} {i : ℕ}

theorem compareDestType_network (row : RouteRow) :
    compareDestType row.destType .network = true ↔ row.destType = .network := by
  unfold compareDestType
  cases row.destType <;> decide

theorem isValidNet_iff (row : RouteRow) :
    row.isValidNet = true ↔ row.destType = .network ∧ row.flag ≠ .invalid := by
  unfold RouteRow.isValidNet
  simp

theorem isDest_iff (a : Ip) (row : RouteRow) : row.isDest a = true ↔ row.stubNet.addr = a.intIp := by
  unfold RouteRow.isDest
  exact Ip.same_iff _ _

theorem covers_iff (a : Ip) (row : RouteRow) :
    row.covers a = true ↔ row.stubNet.addr &&& row.stubNet.mask = a.intIp &&& row.stubNet.mask := by
  unfold RouteRow.covers
  exact beq_iff_eq

/-- The lookup for a stub link. -/
theorem findStubRoute_spec (ospf : Pds) (rows : List RouteRow) (vertex : Vertex) (link : RlsaLink) :
    match findStubRoute ospf rows link with
    | none => ∀ row ∈ rows, row.isValidNet = true → ¬ LooksUp ospf (linkNet vertex link) row.stubNet
    | some (i, row) => rows[i]? = some row ∧ row.isValidNet = true ∧
        LooksUp ospf (linkNet vertex link) row.stubNet ∧
        (¬ (link.linkData.intIp = anyDest ∨ ospf.isAdvertSelfIntf = true) → ∀ x ∈ rows,
          x.isValidNet = true → LooksUp ospf (linkNet vertex link) x.stubNet →
          x.addrMask.intIp ≤ row.addrMask.intIp) := by
  -- all lookups are of the same kind
  have hkind : ∀ (p : RouteRow → Bool) (place : Option ℕ),
      (∀ row, p row = true ↔ row.isValidNet = true ∧ LooksUp ospf (linkNet vertex link) row.stubNet) →
      (match place with
        | none => ∀ row ∈ rows, p row = false
        | some i => ∃ row, rows[i]? = some row ∧ p row = true ∧
          (¬ (link.linkData.intIp = anyDest ∨ ospf.isAdvertSelfIntf = true) → ∀ x ∈ rows, p x = true →
            x.addrMask.intIp ≤ row.addrMask.intIp)) →
      match place.bind fun i => rows[i]?.map (i, ·) with
      | none => ∀ row ∈ rows, row.isValidNet = true → ¬ LooksUp ospf (linkNet vertex link) row.stubNet
      | some (i, row) => rows[i]? = some row ∧ row.isValidNet = true ∧
          LooksUp ospf (linkNet vertex link) row.stubNet ∧
          (¬ (link.linkData.intIp = anyDest ∨ ospf.isAdvertSelfIntf = true) → ∀ x ∈ rows,
            x.isValidNet = true → LooksUp ospf (linkNet vertex link) x.stubNet →
            x.addrMask.intIp ≤ row.addrMask.intIp) := by
    intro p place hp hplace
    cases place with
    | none =>
      intro row hrow hvalid hlook
      have hfalse := hplace row hrow
      rw [(hp row).2 ⟨hvalid, hlook⟩] at hfalse
      cases hfalse
    | some i =>
      obtain ⟨row, hget, hrow, hmax⟩ := hplace
      simp only [Option.bind_some, hget, Option.map_some]
      obtain ⟨hvalid, hlook⟩ := (hp row).1 hrow
      exact ⟨trivial, hvalid, hlook, fun hmode x hx hxv hxl => hmax hmode x hx ((hp x).2 ⟨hxv, hxl⟩)⟩
  have hfirst : ∀ p : RouteRow → Bool, (link.linkData.intIp = anyDest ∨ ospf.isAdvertSelfIntf = true) →
      match rows.findIdx? p with
      | none => ∀ row ∈ rows, p row = false
      | some i => ∃ row, rows[i]? = some row ∧ p row = true ∧
          (¬ (link.linkData.intIp = anyDest ∨ ospf.isAdvertSelfIntf = true) → ∀ x ∈ rows, p x = true →
            x.addrMask.intIp ≤ row.addrMask.intIp) := by
    intro p hmode
    have hspec := findIdx?_spec p rows
    cases hidx : rows.findIdx? p with
    | none =>
      rw [hidx] at hspec
      exact hspec
    | some i =>
      rw [hidx] at hspec
      obtain ⟨row, hget, hrow⟩ := hspec
      exact ⟨row, hget, hrow, fun hnot => absurd hmode hnot⟩
  have hexact : ∀ row : RouteRow, (link.linkData.intIp = anyDest ∨ ospf.isAdvertSelfIntf = true) →
      ((row.isDest link.linkId && compareDestType row.destType .network && row.flag != .invalid) = true ↔
        row.isValidNet = true ∧ LooksUp ospf (linkNet vertex link) row.stubNet) := by
    intro row hmode
    have hlook : LooksUp ospf (linkNet vertex link) row.stubNet ↔ row.stubNet.addr = link.linkId.intIp :=
      looksUp_exact hmode
    rw [Bool.and_eq_true, Bool.and_eq_true, isDest_iff, compareDestType_network, isValidNet_iff, hlook,
      bne_iff_ne]
    tauto
  unfold findStubRoute
  by_cases hhost : link.linkData.intIp = anyDest
  · rw [if_pos (beq_iff_eq.2 hhost)]
    exact hkind _ _ (fun row => hexact row (.inl hhost)) (hfirst _ (.inl hhost))
  · rw [if_neg (by simpa using hhost)]
    unfold getValidRoute
    by_cases hself : ospf.isAdvertSelfIntf = true
    · rw [if_pos hself]
      exact hkind _ _ (fun row => hexact row (.inr hself)) (hfirst _ (.inr hself))
    · rw [if_neg hself]
      have hmode : ¬ (link.linkData.intIp = anyDest ∨ ospf.isAdvertSelfIntf = true) := not_or.2 ⟨hhost, hself⟩
      refine hkind (fun row => row.covers link.linkId && compareDestType row.destType .network &&
        row.flag != .invalid) _ (fun row => ?_) ?_
      · have hlook : LooksUp ospf (linkNet vertex link) row.stubNet ↔
            row.stubNet.addr &&& row.stubNet.mask = link.linkId.intIp &&& row.stubNet.mask :=
          looksUp_covers hmode
        rw [Bool.and_eq_true, Bool.and_eq_true, covers_iff, compareDestType_network, isValidNet_iff, hlook,
          bne_iff_ne]
        tauto
      · have hspec := longestMatch_spec (fun row => row.covers link.linkId &&
          compareDestType row.destType .network && row.flag != .invalid) rows
        cases hplace : longestMatch (fun row => row.covers link.linkId &&
            compareDestType row.destType .network && row.flag != .invalid) rows with
        | none =>
          rw [hplace] at hspec
          exact hspec
        | some i =>
          rw [hplace] at hspec
          obtain ⟨row, hget, hrow, hmax⟩ := hspec
          exact ⟨row, hget, hrow, fun _ => hmax⟩

/-- The lookup inside `ospf_rtTable_addRoute`. -/
theorem getRoute_spec (ospf : Pds) (rows : List RouteRow) (vertex : Vertex) (link : RlsaLink) :
    match getRoute ospf rows link.linkId .network with
    | none => ∀ row ∈ rows, row.destType = .network → ¬ Routes ospf (linkNet vertex link) row.stubNet
    | some i => ∃ row, rows[i]? = some row ∧ row.destType = .network ∧
        Routes ospf (linkNet vertex link) row.stubNet := by
  unfold getRoute
  by_cases hself : ospf.isAdvertSelfIntf = true
  · have hp : ∀ row : RouteRow, (row.isDest link.linkId && compareDestType row.destType .network) = true ↔
        row.destType = .network ∧ Routes ospf (linkNet vertex link) row.stubNet := by
      intro row
      have hroute : Routes ospf (linkNet vertex link) row.stubNet ↔ row.stubNet.addr = link.linkId.intIp :=
        routes_exact hself
      rw [Bool.and_eq_true, isDest_iff, compareDestType_network, hroute, and_comm]
    rw [if_pos hself]
    have hspec := findIdx?_spec (fun row => row.isDest link.linkId && compareDestType row.destType .network) rows
    cases hplace : rows.findIdx? fun row => row.isDest link.linkId && compareDestType row.destType .network with
    | none =>
      rw [hplace] at hspec
      exact fun row hrow hnet hroute => Bool.eq_false_iff.1 (hspec row hrow) ((hp row).2 ⟨hnet, hroute⟩)
    | some i =>
      rw [hplace] at hspec
      obtain ⟨row, hget, hrow⟩ := hspec
      exact ⟨row, hget, (hp row).1 hrow⟩
  · have hp : ∀ row : RouteRow, (row.covers link.linkId && compareDestType row.destType .network) = true ↔
        row.destType = .network ∧ Routes ospf (linkNet vertex link) row.stubNet := by
      intro row
      have hroute : Routes ospf (linkNet vertex link) row.stubNet ↔
          row.stubNet.addr &&& row.stubNet.mask = link.linkId.intIp &&& row.stubNet.mask :=
        routes_covers hself
      rw [Bool.and_eq_true, covers_iff, compareDestType_network, hroute, and_comm]
    rw [if_neg hself]
    have hspec := longestMatch_spec (fun row => row.covers link.linkId &&
      compareDestType row.destType .network) rows
    cases hplace : longestMatch (fun row => row.covers link.linkId &&
        compareDestType row.destType .network) rows with
    | none =>
      rw [hplace] at hspec
      exact fun row hrow hnet hroute => Bool.eq_false_iff.1 (hspec row hrow) ((hp row).2 ⟨hnet, hroute⟩)
    | some i =>
      rw [hplace] at hspec
      obtain ⟨row, hget, hrow, -⟩ := hspec
      exact ⟨row, hget, (hp row).1 hrow⟩

/-! ## One link -/

/-- A freed row is the only one of its network. -/
theorem freeRoute_eq (hnd : ((rows.filter RouteRow.isValidNet).map fun row => row.stubNet.net).Nodup)
    (hget : rows[i]? = some row) (hvalid : row.isValidNet = true) :
    freeRoute rows i = withoutNet rows row.stubNet.net := by
  unfold freeRoute withoutNet
  induction rows generalizing i with
  | nil => cases hget
  | cons x rows ih =>
    cases i with
    | zero =>
      obtain rfl : x = row := Option.some.inj hget
      rw [List.filter_cons_of_pos hvalid, List.map_cons] at hnd
      rw [List.eraseIdx_cons_zero, List.filter_cons_of_neg (by simp [hvalid])]
      refine (List.filter_eq_self.2 fun y hy => ?_).symm
      by_contra hsame
      simp only [Bool.not_eq_true', Bool.not_eq_false, Bool.and_eq_true, decide_eq_true_eq] at hsame
      refine (List.nodup_cons.1 hnd).1 ?_
      rw [← hsame.2]
      exact List.mem_map_of_mem (List.mem_filter.2 ⟨hy, hsame.1⟩)
    | succ i =>
      have hget : rows[i]? = some row := hget
      have hmem : row.stubNet.net ∈ (rows.filter RouteRow.isValidNet).map fun row => row.stubNet.net :=
        List.mem_map_of_mem (List.mem_filter.2 ⟨List.mem_of_getElem? hget, hvalid⟩)
      have hkeep : (!(x.isValidNet && decide (x.stubNet.net = row.stubNet.net))) = true := by
        by_contra hsame
        simp only [Bool.not_eq_true', Bool.not_eq_false, Bool.and_eq_true, decide_eq_true_eq] at hsame
        rw [List.filter_cons_of_pos hsame.1, List.map_cons, hsame.2] at hnd
        exact (List.nodup_cons.1 hnd).1 hmem
      have hnd' : ((rows.filter RouteRow.isValidNet).map fun row => row.stubNet.net).Nodup :=
        hnd.sublist (((List.sublist_cons_self x rows).filter _).map _)
      rw [List.eraseIdx_cons_succ, ih hnd' hget]
      exact (List.filter_cons_of_pos
        (p := fun y : RouteRow => !(y.isValidNet && decide (y.stubNet.net = row.stubNet.net))) hkeep).symm

theorem withoutNet_eq_self {net : UInt32 × UInt32}
    (h : ∀ row ∈ rows, row.isValidNet = true → row.stubNet.net ≠ net) : withoutNet rows net = rows := by
  refine List.filter_eq_self.2 fun row hrow => ?_
  by_cases hvalid : row.isValidNet = true
  · simp [h row hrow hvalid]
  · simp [hvalid]

namespace TableInv

theorem mem_best (h : TableInv rows best) (hrow : row ∈ rows) (hvalid : row.isValidNet = true) :
    ∃ p ∈ best, linkNet p.1 p.2 = row.stubNet :=
  List.mem_map.1 (h.mem_iff.1 (List.mem_map_of_mem (List.mem_filter.2 ⟨hrow, hvalid⟩)))

theorem exists_row (h : TableInv rows best) (hp : p ∈ best) :
    ∃ row ∈ rows, row.isValidNet = true ∧ row.stubNet = linkNet p.1 p.2 := by
  obtain ⟨row, hrow, heq⟩ := List.mem_map.1 (h.mem_iff.2 (List.mem_map_of_mem hp))
  obtain ⟨hmem, hvalid⟩ := List.mem_filter.1 hrow
  exact ⟨row, hmem, hvalid, heq⟩

/-- A network has one row. -/
theorem nodup (h : TableInv rows (bestLinks ospf stack links)) :
    ((rows.filter RouteRow.isValidNet).map fun row => row.stubNet.net).Nodup := by
  have hperm := h.map StubNet.net
  rw [List.map_map, List.map_map] at hperm
  exact hperm.nodup_iff.2 KeepBest.keys_nodup

theorem kept_iff_best (h : TableInv rows best) (new : StubNet) : Kept rows new ↔
    ∃ old ∈ best, (linkNet old.1 old.2).net = new.net ∧ (linkNet old.1 old.2).metric ≤ new.metric := by
  constructor
  · rintro ⟨row, hrow, hvalid, hnet, hle⟩
    obtain ⟨old, hold, heq⟩ := h.mem_best hrow hvalid
    exact ⟨old, hold, (congrArg StubNet.net heq).trans hnet, (congrArg StubNet.metric heq).trans_le hle⟩
  · rintro ⟨old, hold, hnet, hle⟩
    obtain ⟨row, hrow, hvalid, heq⟩ := h.exists_row hold
    exact ⟨row, hrow, hvalid, (congrArg StubNet.net heq).trans hnet, (congrArg StubNet.metric heq).trans_le hle⟩

theorem withoutNet (h : TableInv rows best) (net : UInt32 × UInt32) :
    TableInv (withoutNet rows net) (best.filter fun old => (linkNet old.1 old.2).net ≠ net) := by
  have hfilter := h.filter fun x => decide (x.net ≠ net)
  rw [List.filter_map, List.filter_map, List.filter_filter] at hfilter
  have hrows : (Ospf.withoutNet rows net).filter RouteRow.isValidNet =
      rows.filter fun row => decide (row.stubNet.net ≠ net) && row.isValidNet := by
    unfold Ospf.withoutNet
    rw [List.filter_filter]
    refine List.filter_congr fun row _ => ?_
    by_cases hvalid : row.isValidNet = true <;> by_cases hnet : row.stubNet.net = net <;> simp [hvalid, hnet]
  unfold TableInv
  rw [hrows]
  exact hfilter

/-- What `ospf_rtTable_addRoute` does with a row to a network. -/
theorem addRoute_network (ospf : Pds) (rows : List RouteRow) {newRow : RouteRow} {addr : Ip}
    (hnet : newRow.destType = .network) (haddr : newRow.destAddr = addr) :
    Ospf.addRoute ospf rows newRow =
      match (getRoute ospf rows addr .network).bind fun i => rows[i]?.map (i, ·) with
      | some (i, row) => (isRouteMatch newRow row).map fun same =>
          rows.set i { newRow with flag := if same then .noChange else .changed }
      | none => some (rows ++ [{ newRow with flag := .new }]) := by
  unfold Ospf.addRoute
  have hno : (newRow.destType != .network) = false := by rw [hnet]; rfl
  rw [hno, hnet, ← haddr]
  exact rfl

theorem isRouteMatch_isSome_iff (newRow row : RouteRow) : (isRouteMatch newRow row).isSome = true ↔
    (row.metric = newRow.metric → row.nextHop.isSome ∧ newRow.nextHop.isSome) := by
  unfold isRouteMatch
  by_cases hmetric : newRow.metric = row.metric
  · rw [if_pos (beq_iff_eq.2 hmetric)]
    cases newRow.nextHop <;> cases row.nextHop <;> simp [hmetric]
  · rw [if_neg (by simpa using hmetric)]
    simp [Ne.symm hmetric]

/-- The comparison of the next hops is the only one that may fail. -/
theorem addRoute_isSome_iff (ospf : Pds) (rows : List RouteRow) {newRow : RouteRow}
    (hnet : newRow.destType = .network) (haddr : newRow.destAddr = link.linkId) :
    (Ospf.addRoute ospf rows newRow).isSome = true ↔ ∀ row, overwritten ospf rows link = some row →
      row.metric = newRow.metric → row.nextHop.isSome ∧ newRow.nextHop.isSome := by
  rw [addRoute_network ospf rows hnet haddr]
  unfold overwritten
  cases getRoute ospf rows link.linkId .network with
  | none => simp
  | some i =>
    simp only [Option.bind_some]
    cases rows[i]? with
    | none => simp
    | some row =>
      simp only [Option.map_some, Option.isSome_map, Option.some.injEq, forall_eq']
      exact isRouteMatch_isSome_iff newRow row

/-- A row that takes no valid one's place is added. -/
theorem addRoute (h : TableInv rows best) {newRow : RouteRow} (hnet : newRow.destType = .network)
    (haddr : newRow.destAddr = p.2.linkId) (hstub : newRow.stubNet = linkNet p.1 p.2)
    (hfree : ∀ row, overwritten ospf rows p.2 = some row → row.flag = .invalid)
    (hadd : Ospf.addRoute ospf rows newRow = some rows') : TableInv rows' (best ++ [p]) := by
  have hvalid : ∀ flag : RouteFlag, flag ≠ .invalid →
      ({ newRow with flag } : RouteRow).isValidNet = true ∧
        ({ newRow with flag } : RouteRow).stubNet = linkNet p.1 p.2 :=
    fun flag hflag => ⟨(isValidNet_iff _).2 ⟨hnet, hflag⟩, hstub⟩
  rw [addRoute_network ospf rows hnet haddr] at hadd
  unfold TableInv
  rw [List.map_append, List.map_singleton]
  cases hplace : (getRoute ospf rows p.2.linkId .network).bind fun i => rows[i]?.map (i, ·) with
  | none =>
    rw [hplace] at hadd
    obtain rfl := Option.some.inj hadd
    obtain ⟨hv, hs⟩ := hvalid .new (by decide)
    rw [List.filter_append, List.map_append, List.filter_cons_of_pos hv, List.filter_nil, List.map_singleton, hs]
    exact h.append_right _
  | some place =>
    obtain ⟨i, row⟩ := place
    rw [hplace] at hadd
    obtain ⟨same, -, rfl⟩ := Option.map_eq_some_iff.1 hadd
    obtain ⟨i', hi', hmap⟩ := Option.bind_eq_some_iff.1 hplace
    obtain ⟨row', hget, heq⟩ := Option.map_eq_some_iff.1 hmap
    obtain ⟨rfl, rfl⟩ := Prod.mk.inj heq
    -- the row is from before
    have hinvalid : row'.flag = .invalid := hfree row' (Option.bind_eq_some_iff.2 ⟨i', hi', hget⟩)
    have hnotvalid : ¬ row'.isValidNet = true := fun hv => ((isValidNet_iff row').1 hv).2 hinvalid
    have hflag : (if same = true then RouteFlag.noChange else .changed) ≠ .invalid := by
      cases same <;> decide
    obtain ⟨hv, hs⟩ := hvalid _ hflag
    obtain ⟨hi, hrowi⟩ := List.getElem?_eq_some_iff.1 hget
    have hset := List.set_perm_cons_eraseIdx hi
      { newRow with flag := if same = true then RouteFlag.noChange else .changed }
    have herase : (row' :: rows.eraseIdx i').Perm rows := by
      rw [← hrowi]
      exact List.getElem_cons_eraseIdx_perm hi
    have hleft := (hset.filter RouteRow.isValidNet).map RouteRow.stubNet
    have hright := (herase.filter RouteRow.isValidNet).map RouteRow.stubNet
    rw [List.filter_cons_of_pos hv, List.map_cons, hs] at hleft
    rw [List.filter_cons_of_neg hnotvalid] at hright
    exact hleft.trans (((hright.trans h).cons _).trans (List.perm_append_singleton _ _).symm)

theorem bestLinks_snoc (ospf : Pds) (stack : Stack) (links : List (Vertex × RlsaLink)) (p : Vertex × RlsaLink) :
    bestLinks ospf stack (links ++ [p]) =
      if ∃ old ∈ bestLinks ospf stack links, (linkNet old.1 old.2).net = (linkNet p.1 p.2).net ∧
          (linkNet old.1 old.2).metric ≤ (linkNet p.1 p.2).metric then bestLinks ospf stack links
      else (bestLinks ospf stack links).filter (fun old => (linkNet old.1 old.2).net ≠ (linkNet p.1 p.2).net) ++
        if (stubWay ospf stack p.1 p.2).isSome then [p] else [] := KeepBest.bests_append

/-- **One link** updates the best links. -/
theorem netStep {routerLSAList : List LsaHdr} (h : TableInv rows (bestLinks ospf stack links))
    (hundisturbed : Undisturbed ospf stack routerLSAList rows p)
    (hstep : netStep ospf stack areaId rows p = some rows') :
    TableInv rows' (bestLinks ospf stack (links ++ [p])) := by
  rw [bestLinks_snoc]
  have hkeep := h.kept_iff_best (linkNet p.1 p.2)
  unfold Ospf.netStep at hstep
  dsimp only at hstep
  by_cases hkept : Kept rows (linkNet p.1 p.2)
  · rw [if_pos hkept] at hstep
    obtain rfl := Option.some.inj hstep
    rw [if_pos (hkeep.1 hkept)]
    exact h
  · rw [if_neg hkept] at hstep
    rw [if_neg (mt hkeep.2 hkept)]
    have hrest := h.withoutNet (linkNet p.1 p.2).net
    cases hway : stubWay ospf stack p.1 p.2 with
    | none =>
      rw [hway] at hstep
      obtain rfl := Option.some.inj hstep
      rw [Option.isSome_none, if_neg Bool.false_ne_true, List.append_nil]
      exact hrest
    | some way =>
      obtain ⟨outInterfaceId, nextHop⟩ := way
      rw [hway] at hstep
      rw [Option.isSome_some, if_pos rfl]
      exact hrest.addRoute rfl rfl rfl (hundisturbed.added hkept (hway ▸ rfl)) hstep

end TableInv

theorem netStep_isSome_iff (areaId : Ip) : (netStep ospf stack areaId rows p).isSome = true ↔ NextHopThere ospf stack rows p := by
  unfold netStep NextHopThere
  dsimp only
  by_cases hkept : Kept rows (linkNet p.1 p.2)
  · rw [if_pos hkept]
    exact iff_of_true rfl fun hnot => absurd hkept hnot
  · rw [if_neg hkept]
    cases hway : stubWay ospf stack p.1 p.2 with
    | none => exact iff_of_true rfl fun _ way heq => absurd heq (Option.some_ne_none way).symm
    | some way =>
      obtain ⟨outInterfaceId, nextHop⟩ := way
      refine (TableInv.addRoute_isSome_iff ospf _ rfl rfl).trans ?_
      constructor
      · rintro hadd - way' heq
        obtain rfl := Option.some.inj heq
        exact hadd
      · intro hadd
        exact hadd hkept _ rfl

/-- **One undisturbed link** does what it does by networks. -/
theorem addStubLink_eq (removeLSA : LsaHdr → List Vertex → List Vertex) (areaId : Ip) {s : StubState}
    (h : TableInv s.rows (bestLinks ospf stack links)) (hdist : vertex.distance < lsInfinity)
    (hundisturbed : Undisturbed ospf stack s.routerLSAList s.rows (vertex, link)) :
    addStubLink ospf stack removeLSA areaId vertex s link =
      (netStep ospf stack areaId s.rows (vertex, link)).map fun rows => { s with rows := rows } := by
  have hdistance : Word.u32 (link.metric.toNat + vertex.distance) = (linkNet vertex link).metric := by
    have hm := link.metric.toNat_lt
    unfold lsInfinity at hdist
    rw [Word.u32_of_lt (by omega), Nat.add_comm]
    rfl
  have hspec := findStubRoute_spec ospf s.rows vertex link
  unfold addStubLink netStep
  dsimp only
  rw [hdistance]
  by_cases hkept : Kept s.rows (linkNet vertex link)
  · obtain ⟨i, row, hfound, hle⟩ := hundisturbed.kept hkept
    have hfound : findStubRoute ospf s.rows link = some (i, row) := hfound
    rw [hfound, if_pos hkept, Option.any_some, decide_eq_true hle, if_pos rfl]
    rfl
  · rw [if_neg hkept]
    -- the row of the network is freed, if there is one
    obtain ⟨hrest, hnotany⟩ : ((findStubRoute ospf s.rows link).map fun entry => freeRoute s.rows entry.1).getD
          s.rows = withoutNet s.rows (linkNet vertex link).net ∧
        ((findStubRoute ospf s.rows link).any fun entry =>
          decide ((linkNet vertex link).metric ≥ entry.2.metric)) = false := by
      cases hfound : findStubRoute ospf s.rows link with
      | none => exact ⟨(withoutNet_eq_self (hundisturbed.found hkept hfound)).symm, rfl⟩
      | some entry =>
        obtain ⟨i, row⟩ := entry
        rw [hfound] at hspec
        obtain ⟨hget, hvalid, -, -⟩ := hspec
        have hnet : row.stubNet.net = (linkNet vertex link).net := hundisturbed.own hkept i row hfound
        refine ⟨?_, decide_eq_false fun hle => ?_⟩
        · rw [← hnet]
          exact freeRoute_eq h.nodup hget hvalid
        · exact hkept ⟨row, List.mem_of_getElem? hget, hvalid, hnet, hle⟩
    rw [hnotany, hrest]
    simp only [Bool.false_eq_true, if_false]
    have hlsa := hundisturbed.lsa hkept
    dsimp only at hlsa
    unfold stubWay at hlsa ⊢
    by_cases hroot : vertex.vertexId.same ospf.routerId = true
    · rw [if_pos hroot] at hlsa
      rw [if_pos hroot, if_pos hroot]
      by_cases hif : (stubInterface ospf stack link == 0) = true
      · rw [if_pos hif] at hlsa
        rw [if_pos hif, if_pos hif, hlsa rfl hroot]
        rfl
      · rw [if_neg hif, if_neg hif]
    · rw [if_neg hroot, if_neg hroot]
      cases vertex.nextHopList with
      | nil => rfl
      | cons item rest => rfl

/-! ## All links -/

/-- The table after some links. -/
def stubTable (ospf : Pds) (stack : Stack) (areaId : Ip) (rows : List RouteRow)
    (links : List (Vertex × RlsaLink)) : Option (List RouteRow) := links.foldlM (netStep ospf stack areaId) rows

theorem AtEachLink.append {P : List RouteRow → Vertex × RlsaLink → Prop} {l l' : List (Vertex × RlsaLink)}
    (h : AtEachLink ospf stack areaId P rows (l ++ l')) : AtEachLink ospf stack areaId P rows l ∧
      ∀ rows', stubTable ospf stack areaId rows l = some rows' → AtEachLink ospf stack areaId P rows' l' := by
  induction l generalizing rows with
  | nil =>
    refine ⟨trivial, fun rows' heq => ?_⟩
    obtain rfl := Option.some.inj heq
    exact h
  | cons p l ih =>
    refine ⟨⟨h.1, fun rows' hstep => (ih (h.2 rows' hstep)).1⟩, fun rows' heq => ?_⟩
    obtain ⟨rows₁, hstep, hrest⟩ := Option.bind_eq_some_iff.1 heq
    exact (ih (h.2 rows₁ hstep)).2 rows' hrest

theorem stubTable_isSome_iff : (stubTable ospf stack areaId rows links).isSome = true ↔
    AtEachLink ospf stack areaId (NextHopThere ospf stack) rows links := by
  induction links generalizing rows with
  | nil => exact iff_of_true rfl trivial
  | cons p links ih =>
    unfold stubTable AtEachLink
    rw [← netStep_isSome_iff areaId, List.foldlM_cons]
    cases netStep ospf stack areaId rows p with
    | none => exact iff_of_false Bool.false_ne_true fun h => Bool.false_ne_true h.1
    | some rows' =>
      simp only [Option.isSome_some, true_and, Option.some.injEq, forall_eq']
      exact ih

theorem stubTable_inv {routerLSAList : List LsaHdr} {pre : List (Vertex × RlsaLink)}
    (h : TableInv rows (bestLinks ospf stack pre))
    (hundisturbed : AtEachLink ospf stack areaId (Undisturbed ospf stack routerLSAList) rows links)
    (htable : stubTable ospf stack areaId rows links = some rows') :
    TableInv rows' (bestLinks ospf stack (pre ++ links)) := by
  induction links generalizing pre rows with
  | nil =>
    obtain rfl := Option.some.inj htable
    rwa [List.append_nil]
  | cons p links ih =>
    obtain ⟨rows₁, hstep, hrest⟩ := Option.bind_eq_some_iff.1 htable
    rw [List.append_cons]
    exact ih (h.netStep hundisturbed.1 hstep) (hundisturbed.2 rows₁ hstep) hrest

/-- The links of one vertex. -/
theorem addStubLinks_eq (removeLSA : LsaHdr → List Vertex → List Vertex) (areaId : Ip)
    (hdist : vertex.distance < lsInfinity) (links : List RlsaLink) {pre : List (Vertex × RlsaLink)}
    {s : StubState} (h : TableInv s.rows (bestLinks ospf stack pre))
    (hundisturbed : AtEachLink ospf stack areaId (Undisturbed ospf stack s.routerLSAList) s.rows
      (links.map (vertex, ·))) :
    links.foldlM (addStubLink ospf stack removeLSA areaId vertex) s =
      (stubTable ospf stack areaId s.rows (links.map (vertex, ·))).map fun rows => { s with rows := rows } := by
  induction links generalizing pre s with
  | nil => rfl
  | cons link links ih =>
    unfold stubTable
    rw [List.foldlM_cons, List.map_cons, List.foldlM_cons,
      addStubLink_eq removeLSA areaId h hdist hundisturbed.1]
    cases hstep : netStep ospf stack areaId s.rows (vertex, link) with
    | none => rfl
    | some rows' =>
      exact ih (s := { s with rows := rows' }) (h.netStep hundisturbed.1 hstep) (hundisturbed.2 rows' hstep)

/-- All vertices. -/
theorem addStubVertices_eq (removeLSA : LsaHdr → List Vertex → List Vertex) (areaId : Ip)
    (spl : List Vertex) (hdist : ∀ v ∈ spl, v.distance < lsInfinity) {pre : List (Vertex × RlsaLink)}
    {s : StubState} (hs : s.vertices = spl) (h : TableInv s.rows (bestLinks ospf stack pre))
    (hundisturbed : AtEachLink ospf stack areaId (Undisturbed ospf stack s.routerLSAList) s.rows
      (processedLinks ospf stack spl)) :
    (addStubVertices ospf stack removeLSA areaId spl.length s).map StubState.rows =
      stubTable ospf stack areaId s.rows (processedLinks ospf stack spl) := by
  induction spl generalizing pre s with
  | nil => rfl
  | cons v rest ih =>
    have hlinks : processedLinks ospf stack (v :: rest) =
        (stubLinks ospf stack v).map (v, ·) ++ processedLinks ospf stack rest := List.flatMap_cons
    rw [hlinks] at hundisturbed ⊢
    obtain ⟨hfirst, hlater⟩ := hundisturbed.append
    have hloop := addStubLinks_eq removeLSA areaId (hdist v List.mem_cons_self) (stubLinks ospf stack v)
      (s := { s with vertices := rest }) h hfirst
    unfold stubTable at hloop ⊢
    rw [List.length_cons, List.foldlM_append]
    unfold addStubVertices
    rw [hs]
    dsimp only
    rw [hloop]
    cases hrun : ((stubLinks ospf stack v).map (v, ·)).foldlM (netStep ospf stack areaId) s.rows with
    | none => rfl
    | some rows' =>
      exact ih (fun x hx => hdist x (List.mem_cons_of_mem _ hx)) (s := ⟨rows', s.routerLSAList, rest⟩) rfl
        (stubTable_inv h hfirst hrun) (hlater rows' hrun)

/-- The best links are one row for each network, if they are the cheapest. -/
theorem TableInv.exact_iff (h : TableInv rows (bestLinks ospf stack links)) :
    StubRoutesExact links (freeAllInvalidRoute rows) ↔ CheapestUsable ospf stack links := by
  have hsplit : ∀ net, (freeAllInvalidRoute rows).filter
      (fun row => row.destType == .network && decide (row.stubNet.net = net)) =
        (rows.filter RouteRow.isValidNet).filter fun row => decide (row.stubNet.net = net) := by
    intro net
    unfold freeAllInvalidRoute
    rw [List.filter_filter, List.filter_filter]
    refine List.filter_congr fun row _ => ?_
    unfold RouteRow.isValidNet
    cases row.destType == .network <;> cases row.flag != .invalid <;>
      cases decide (row.stubNet.net = net) <;> rfl
  constructor
  · intro hexact p hp
    obtain ⟨row, hrow, hleast⟩ := (hexact _).1 ⟨p, hp, rfl⟩
    rw [hsplit] at hrow
    obtain ⟨hmem, hnet⟩ := List.mem_filter.1 (hrow ▸ List.mem_singleton_self row)
    obtain ⟨hmem, hvalid⟩ := List.mem_filter.1 hmem
    obtain ⟨q, hq, heq⟩ := h.mem_best hmem hvalid
    obtain ⟨hqmem, husable⟩ := KeepBest.mem_bests hq
    refine ⟨q, hqmem, husable, ?_, fun r hr hrnet => ?_⟩
    · rw [heq]
      exact of_decide_eq_true hnet
    · rw [heq]
      exact hleast.2 ⟨r, hr, hrnet, rfl⟩
  · intro hcheapest net
    rw [hsplit]
    constructor
    · rintro ⟨p, hp, rfl⟩
      obtain ⟨q, hq, husable, hqnet, hqle⟩ := hcheapest p hp
      obtain ⟨x, hx, hkey, hcost⟩ : ∃ x ∈ bestLinks ospf stack links,
          (linkNet x.1 x.2).net = (linkNet q.1 q.2).net ∧ (linkNet x.1 x.2).metric = (linkNet q.1 q.2).metric :=
        KeepBest.exists_bests hq husable fun r hr hrnet => hqle r hr (hrnet.trans hqnet)
      obtain ⟨row, hrow, hvalid, heq⟩ := h.exists_row hx
      have hnet : row.stubNet.net = (linkNet p.1 p.2).net := by
        rw [heq]
        exact hkey.trans hqnet
      have hmetric : row.metric = (linkNet q.1 q.2).metric := (congrArg StubNet.metric heq).trans hcost
      refine ⟨row, ?_, ?_⟩
      · rw [← hnet]
        exact KeepBest.filter_eq_singleton h.nodup (List.mem_filter.2 ⟨hrow, hvalid⟩)
      · rw [hmetric]
        refine ⟨⟨q, hq, hqnet, rfl⟩, ?_⟩
        rintro d ⟨r, hr, hrnet, rfl⟩
        exact hqle r hr hrnet
    · intro hnone
      rw [List.filter_eq_nil_iff]
      intro row hrow
      obtain ⟨hmem, hvalid⟩ := List.mem_filter.1 hrow
      simp only [decide_eq_true_eq]
      rintro rfl
      obtain ⟨q, hq, heq⟩ := h.mem_best hmem hvalid
      exact hnone ⟨q, (KeepBest.mem_bests hq).1, congrArg StubNet.net heq⟩

/-- The table that the calculation starts with. -/
theorem tableInv_old (hold : ∀ row ∈ oldRows, row.destType = .network → row.flag = .invalid) :
    TableInv oldRows (bestLinks ospf stack []) := by
  have hnil : oldRows.filter RouteRow.isValidNet = [] := by
    rw [List.filter_eq_nil_iff]
    intro row hrow hvalid
    obtain ⟨hnet, hflag⟩ := (isValidNet_iff row).1 hvalid
    exact hflag (hold row hrow hnet)
  unfold TableInv
  rw [hnil]
  exact .nil

/-- **Stub routes.** As long as no lookup takes the row of another network, there is one row for each network if and only if
no `NULL` next hop is compared and some cheapest link of each network has a way out. -/
theorem stubRoutes_exact (ospf : Pds) (stack : Stack) (removeLSA : LsaHdr → List Vertex → List Vertex)
    (area : AreaDs) (oldRows : List RouteRow) (spl : List Vertex)
    (hold : ∀ row ∈ oldRows, row.destType = .network → row.flag = .invalid)
    (hdist : ∀ v ∈ spl, v.distance < lsInfinity)
    (hundisturbed : StubLinksUndisturbed ospf stack area oldRows (processedLinks ospf stack spl)) :
    (∃ rows, addStubRouteToshortestPath ospf stack removeLSA area oldRows spl = some rows ∧
      StubRoutesExact (processedLinks ospf stack spl) (freeAllInvalidRoute rows)) ↔
        NextHopsThere ospf stack area oldRows (processedLinks ospf stack spl) ∧
          CheapestUsable ospf stack (processedLinks ospf stack spl) := by
  have hstart : TableInv oldRows (bestLinks ospf stack []) := tableInv_old hold
  have hrun : addStubRouteToshortestPath ospf stack removeLSA area oldRows spl =
      stubTable ospf stack area.areaId oldRows (processedLinks ospf stack spl) :=
    addStubVertices_eq removeLSA area.areaId spl hdist (s := ⟨oldRows, area.routerLSAList, spl⟩) rfl hstart
      hundisturbed
  have hinv : ∀ rows, stubTable ospf stack area.areaId oldRows (processedLinks ospf stack spl) = some rows →
      TableInv rows (bestLinks ospf stack (processedLinks ospf stack spl)) :=
    fun rows htable => stubTable_inv hstart hundisturbed htable
  unfold NextHopsThere
  rw [hrun, ← stubTable_isSome_iff, Option.isSome_iff_exists]
  constructor
  · rintro ⟨rows, htable, hexact⟩
    exact ⟨⟨rows, htable⟩, (hinv rows htable).exact_iff.1 hexact⟩
  · rintro ⟨⟨rows, htable⟩, hcheapest⟩
    exact ⟨rows, htable, (hinv rows htable).exact_iff.2 hcheapest⟩

/-! ## Networks that lie apart -/

/-- The lookups of the links meet links of the same network only, and those always. A link without a way out names
no LSA. -/
structure Apart (ospf : Pds) (stack : Stack) (area : AreaDs) (links : List (Vertex × RlsaLink)) : Prop where
  own : ∀ p ∈ links, ∀ q ∈ links, (linkNet q.1 q.2).net = (linkNet p.1 p.2).net →
    LooksUp ospf (linkNet p.1 p.2) (linkNet q.1 q.2)
  other : ∀ p ∈ links, ∀ q ∈ links, LooksUp ospf (linkNet p.1 p.2) (linkNet q.1 q.2) ∨
    Routes ospf (linkNet p.1 p.2) (linkNet q.1 q.2) → (linkNet q.1 q.2).net = (linkNet p.1 p.2).net
  lsa : ∀ p ∈ links, stubWay ospf stack p.1 p.2 = none →
    lookupLsaList area.routerLSAList p.2.linkId p.2.linkId = none

theorem Apart.undisturbed {area : AreaDs} (h : Apart ospf stack area links) {pre : List (Vertex × RlsaLink)}
    (hinv : TableInv rows (bestLinks ospf stack pre)) (hpre : ∀ q ∈ pre, q ∈ links) (hp : p ∈ links) :
    Undisturbed ospf stack area.routerLSAList rows p := by
  have hspec := findStubRoute_spec ospf rows p.1 p.2
  -- a valid row is of one of the links
  have hrow : ∀ row ∈ rows, row.isValidNet = true → ∃ q ∈ links, linkNet q.1 q.2 = row.stubNet := by
    intro row hrow hvalid
    obtain ⟨q, hq, heq⟩ := hinv.mem_best hrow hvalid
    exact ⟨q, hpre q (KeepBest.mem_bests hq).1, heq⟩
  have hlook : ∀ row ∈ rows, row.isValidNet = true → row.stubNet.net = (linkNet p.1 p.2).net →
      LooksUp ospf (linkNet p.1 p.2) row.stubNet := by
    intro row hmem hvalid hnet
    obtain ⟨q, hq, heq⟩ := hrow row hmem hvalid
    rw [← heq] at hnet ⊢
    exact h.own p hp q hq hnet
  have hnet : ∀ row ∈ rows, row.isValidNet = true → LooksUp ospf (linkNet p.1 p.2) row.stubNet ∨
      Routes ospf (linkNet p.1 p.2) row.stubNet → row.stubNet.net = (linkNet p.1 p.2).net := by
    intro row hmem hvalid hmeet
    obtain ⟨q, hq, heq⟩ := hrow row hmem hvalid
    rw [← heq] at hmeet ⊢
    exact h.other p hp q hq hmeet
  refine ⟨?_, fun _ i row hfound => ?_, fun _ hfound row hmem hvalid hsame => ?_, fun _ _ row hover => ?_,
    fun _ hway _ => h.lsa p hp hway⟩
  · rintro ⟨row, hmem, hvalid, hsame, hle⟩
    cases hfound : findStubRoute ospf rows p.2 with
    | none =>
      rw [hfound] at hspec
      exact absurd (hlook row hmem hvalid hsame) (hspec row hmem hvalid)
    | some entry =>
      obtain ⟨i, entry⟩ := entry
      rw [hfound] at hspec
      obtain ⟨hget, hvalid', hlook', -⟩ := hspec
      have hmem' := List.mem_of_getElem? hget
      have heq : entry = row := List.inj_on_of_nodup_map hinv.nodup (List.mem_filter.2 ⟨hmem', hvalid'⟩)
        (List.mem_filter.2 ⟨hmem, hvalid⟩) ((hnet entry hmem' hvalid' (.inl hlook')).trans hsame.symm)
      exact ⟨i, entry, rfl, heq ▸ hle⟩
  · rw [hfound] at hspec
    obtain ⟨hget, hvalid, hlook', -⟩ := hspec
    exact hnet row (List.mem_of_getElem? hget) hvalid (.inl hlook')
  · rw [hfound] at hspec
    exact hspec row hmem hvalid (hlook row hmem hvalid hsame)
  · -- a valid row that is overwritten would be of the network of the link
    by_contra hflag
    obtain ⟨i, hi, hget⟩ := Option.bind_eq_some_iff.1 hover
    have hroute := getRoute_spec ospf (withoutNet rows (linkNet p.1 p.2).net) p.1 p.2
    rw [hi] at hroute
    obtain ⟨row', hget', hrnet, hroutes⟩ := hroute
    obtain rfl := Option.some.inj (hget'.symm.trans hget)
    obtain ⟨hmem, hout⟩ := List.mem_filter.1 (List.mem_of_getElem? hget)
    have hvalid := (isValidNet_iff row').2 ⟨hrnet, hflag⟩
    have hsame := hnet row' hmem hvalid (.inr hroutes)
    rw [hvalid, decide_eq_true hsame] at hout
    cases hout

/-- **Networks that lie apart** disturb no link. -/
theorem undisturbed_of_apart {area : AreaDs} (h : Apart ospf stack area links)
    (hold : ∀ row ∈ oldRows, row.destType = .network → row.flag = .invalid) :
    StubLinksUndisturbed ospf stack area oldRows links := by
  have hrun : ∀ (post pre : List (Vertex × RlsaLink)) (rows : List RouteRow),
      TableInv rows (bestLinks ospf stack pre) → (∀ q ∈ pre ++ post, q ∈ links) →
        AtEachLink ospf stack area.areaId (Undisturbed ospf stack area.routerLSAList) rows post := by
    intro post
    induction post with
    | nil => exact fun _ _ _ _ => trivial
    | cons p post ih =>
      intro pre rows hinv hsub
      have hp : p ∈ links := hsub p (List.mem_append_right _ List.mem_cons_self)
      have hund := h.undisturbed hinv (fun q hq => hsub q (List.mem_append_left _ hq)) hp
      refine ⟨hund, fun rows' hstep => ih (pre ++ [p]) rows' (hinv.netStep hund hstep) ?_⟩
      rwa [← List.append_cons]
  exact hrun links [] oldRows (tableInv_old hold) fun q hq => hq

/-! ## A network inside of another one -/

def stubLinkTo (addr mask : UInt32) : RlsaLink := ⟨routerIp addr, routerIp mask, .stub, 1⟩

/-- 10.0.0.0/8. -/
def outerLink : RlsaLink := stubLinkTo 0x0a000000 0xff000000

/-- 10.1.0.0/16. -/
def innerLink : RlsaLink := stubLinkTo 0x0a010000 0xffff0000

/-- Router 2 with stub links, as router 1 reaches it. -/
def stubVertex (links : List RlsaLink) : Vertex :=
  ⟨routerIp 2, .router, routerLsa 2 links, [⟨1, 1, some (routerIp 12)⟩], 10⟩

def outerRow : RouteRow :=
  ⟨.network, routerIp 0x0a000000, routerIp 0xff000000, routerIp 0, .intraArea, 11, some (routerIp 12), 1,
    routerIp 2, .new⟩

/-- If the outer network comes first, then the inner one gets no row. -/
theorem stubRoutes_nested :
    addStubRouteToshortestPath lineRouter lineStack (fun _ l => l) (lineArea []) []
        [stubVertex [outerLink, innerLink]] = some [outerRow] ∧
      ¬ StubRoutesExact (processedLinks lineRouter lineStack [stubVertex [outerLink, innerLink]])
        (freeAllInvalidRoute [outerRow]) := by
  refine ⟨by decide, fun h => ?_⟩
  obtain ⟨row, hrow, -⟩ := (h (0x0a010000, 0xffff0000)).1
    ⟨(stubVertex [outerLink, innerLink], innerLink), by decide, by decide⟩
  have hnone : (freeAllInvalidRoute [outerRow]).filter (fun row => row.destType == .network &&
      decide (row.stubNet.net = (0x0a010000, 0xffff0000))) = [] := by decide
  rw [hnone] at hrow
  cases hrow

/-- A stub link of router 1 itself, to the inner network, that no interface leads to. -/
def deadLink : RlsaLink := ⟨routerIp 0x0a010000, routerIp 0xffff0000, .stub, 20⟩

def ownVertex : Vertex := ⟨routerIp 1, .router, routerLsa 1 [deadLink], [], 0⟩

/-- Rows of the calculation before. The one to the outer network has no next hop. -/
def oldTable : List RouteRow :=
  [⟨.network, routerIp 0x0a010000, routerIp 0xffff0000, routerIp 0, .intraArea, 11, some (routerIp 12), 1,
      routerIp 2, .invalid⟩,
    ⟨.network, routerIp 0x0a000000, routerIp 0xff000000, routerIp 0, .intraArea, 11, none, 1, routerIp 2, .invalid⟩]

def innerLinks : List (Vertex × RlsaLink) := processedLinks lineRouter lineStack [ownVertex, stubVertex [innerLink]]

theorem innerLinks_undisturbed : StubLinksUndisturbed lineRouter lineStack (lineArea []) oldTable innerLinks := by
  refine undisturbed_of_apart ⟨?_, ?_, ?_⟩ (by decide)
  all_goals decide

/-- The row that is overwritten has the metric of the link. Both next hops are there. -/
theorem innerLinks_nextHops : NextHopsThere lineRouter lineStack (lineArea []) oldTable innerLinks := by
  have hnone : stubWay lineRouter lineStack ownVertex deadLink = none := by decide
  have hfirst : netStep lineRouter lineStack (routerIp 0) oldTable (ownVertex, deadLink) = some oldTable := by
    decide
  have hsecond : ∀ row ∈ overwritten lineRouter (withoutNet oldTable (0x0a010000, 0xffff0000)) innerLink,
      row.nextHop.isSome = true := by decide
  refine ⟨fun _ way hway => absurd (hnone.symm.trans hway) (Option.some_ne_none way).symm, fun rows' hstep => ?_⟩
  obtain rfl : oldTable = rows' := Option.some.inj (hfirst.symm.trans hstep)
  refine ⟨fun _ way hway row hover _ => ⟨hsecond row hover, ?_⟩, fun _ _ => trivial⟩
  obtain rfl : (1, some (routerIp 12)) = way := Option.some.inj hway
  rfl

/-- The cheapest link is the one of router 2. -/
theorem innerLinks_usable : CheapestUsable lineRouter lineStack innerLinks := by
  unfold CheapestUsable
  decide

theorem stubRoutes_exact_inner :
    ∃ rows, addStubRouteToshortestPath lineRouter lineStack (fun _ l => l) (lineArea []) oldTable
        [ownVertex, stubVertex [innerLink]] = some rows ∧
      StubRoutesExact innerLinks (freeAllInvalidRoute rows) :=
  (stubRoutes_exact lineRouter lineStack (fun _ l => l) (lineArea []) oldTable _ (by decide) (by decide)
    innerLinks_undisturbed).2 ⟨innerLinks_nextHops, innerLinks_usable⟩

end NetSim.Ospf
