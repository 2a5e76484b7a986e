import NetSim.Spec.IpRouting
import Mathlib.Data.Prod.Lex
import Mathlib.Order.OrderDual

/-!
# Longest prefix match

The route of a unicast packet over a table of IPv4 entries with contiguous masks, for every `LIST_ADD` that
keeps a list in the order of its comparator. An entry whose destination is that of the packet counts as a host
entry: with 32 bits, a metric of 999 for 0, and a test of the destination instead of the gateway.

* `routePacket_longestPrefix` — the route is a longest match exactly if the best of these entries is one.
-/

namespace NetSim.IpRouting

variable {lib : IpLib} {listAdd : (Match → Match → ℕ) → List Match → Match → List Match}
  {gateways : List (StruIp × GatewayState)} {tables : List IpRoutingTable} {dest : StruIp} {e : IpRoutingTable}
  {m : Match}

/-! ## Libraries -/

/-- What the libraries do for IPv4 addresses. -/
structure IpLib.Documented (lib : IpLib) : Prop where
  network : ∀ ip mask n, ip.type = 4 → mask.type = 4 →
    (lib.ipNetworkAddress ip mask n).type = 4 ∧ (lib.ipNetworkAddress ip mask n).intIp = ip.intIp &&& mask.intIp
  binary : ∀ ip, ip.type = 4 →
    lib.ipToBinary ip = (List.range 32).map fun i => if ip.intIp.toNat.testBit (31 - i) then '1' else '0'

/-- `LIST_ADD` keeps a list of matches in the order of `match_check`: no match stands before a better one. -/
structure KeepsOrder (listAdd : (Match → Match → ℕ) → List Match → Match → List Match) : Prop where
  perm : ∀ l c, (listAdd matchCheck l c).Perm (c :: l)
  sorted : ∀ l c, l.Pairwise (fun m1 m2 => matchCheck m1 m2 ≠ 2) →
    (listAdd matchCheck l c).Pairwise fun m1 m2 => matchCheck m1 m2 ≠ 2

/-! ## Masks -/

/-- The mask of `k` ones. -/
def prefixMask (k : ℕ) : UInt32 := UInt32.ofNat (2 ^ 32 - 2 ^ (32 - k))

/-- The number of ones of a mask. -/
def maskLength (mask : UInt32) : ℕ := (List.range 32).countP fun i => mask.toNat.testBit i

/-- An IPv4 entry with a contiguous mask. -/
structure IpRoutingTable.IsIPv4 (e : IpRoutingTable) : Prop where
  dest : e.networkDestination.type = 4
  mask : e.netMask.type = 4
  contiguous : ∃ k ≤ 32, e.netMask.intIp = prefixMask k

/-- The leading ones of a contiguous mask are all its ones. -/
theorem leadingOnes_prefixMask : ∀ k : Fin 33,
    (((List.range 32).map fun i => if (prefixMask k).toNat.testBit (31 - i) then '1' else '0').takeWhile
        fun b => b != '0').length = maskLength (prefixMask k) ∧
      maskLength (prefixMask k) ≤ 32 ∧ (maskLength (prefixMask k) = 32 → prefixMask k = 4294967295) := by
  decide

theorem getBitMatchCount_eq (hlib : lib.Documented) (he : e.IsIPv4) :
    getBitMatchCount lib e.netMask = maskLength e.netMask.intIp := by
  obtain ⟨k, hk, hmask⟩ := he.contiguous
  unfold getBitMatchCount
  rw [hlib.binary e.netMask he.mask, hmask]
  exact (leadingOnes_prefixMask ⟨k, by omega⟩).1

theorem maskLength_le (he : e.IsIPv4) : maskLength e.netMask.intIp ≤ 32 := by
  obtain ⟨k, hk, hmask⟩ := he.contiguous
  rw [hmask]
  exact (leadingOnes_prefixMask ⟨k, by omega⟩).2.1

theorem mask_of_maskLength (he : e.IsIPv4) (h : maskLength e.netMask.intIp = 32) :
    e.netMask.intIp = 4294967295 := by
  obtain ⟨k, hk, hmask⟩ := he.contiguous
  rw [hmask] at h ⊢
  exact (leadingOnes_prefixMask ⟨k, by omega⟩).2.2 h

/-! ## The property -/

/-- The network of an entry has the destination, and its gateway is reachable. -/
structure Eligible (gateways : List (StruIp × GatewayState)) (dest : StruIp) (e : IpRoutingTable) : Prop where
  type : dest.type = 4
  contains : dest.intIp &&& e.netMask.intIp = e.networkDestination.intIp &&& e.netMask.intIp
  reachable : icmpCheckState gateways e.gateway = true

/-- No eligible entry has a longer mask, or a smaller metric with the same mask. -/
structure Best (gateways : List (StruIp × GatewayState)) (tables : List IpRoutingTable) (dest : StruIp)
    (e : IpRoutingTable) : Prop where
  eligible : Eligible gateways dest e
  longest : ∀ e' ∈ tables, Eligible gateways dest e' → maskLength e'.netMask.intIp ≤ maskLength e.netMask.intIp
  least : ∀ e' ∈ tables, Eligible gateways dest e' →
    maskLength e'.netMask.intIp = maskLength e.netMask.intIp → e.metric ≤ e'.metric

/-- The packet takes the route of a best entry, and there is none exactly if no entry is eligible. -/
structure TakesBest (lib : IpLib) (listAdd : (Match → Match → ℕ) → List Match → Match → List Match)
    (gateways : List (StruIp × GatewayState)) (routeMulticast : StruIp → Option IpForwardRoute)
    (tables : List IpRoutingTable) (dest : StruIp) : Prop where
  taken : ∀ route, routePacket lib listAdd gateways routeMulticast tables dest = some route →
    ∃ m, (getMatchTable lib listAdd gateways tables dest false).head? = some m ∧ m.table ∈ tables ∧
      route = updateRouteEntry lib m dest ∧ Best gateways tables dest m.table
  noRoute : routePacket lib listAdd gateways routeMulticast tables dest = none ↔
    ¬ ∃ e ∈ tables, Eligible gateways dest e

/-- An entry for the destination itself. -/
def Names (dest : StruIp) (e : IpRoutingTable) : Prop := ipCompare dest e.networkDestination = 0

/-- The metric of such an entry. -/
def hostMetric (e : IpRoutingTable) : ℕ := if e.metric ≤ 0 then 999 else e.metric

/-- If the destination is not a gateway that is down, the entries for it of the least metric are best. -/
def NamedBest (gateways : List (StruIp × GatewayState)) (tables : List IpRoutingTable) (dest : StruIp) : Prop :=
  icmpCheckState gateways (some dest) = true → ∀ e ∈ tables, Names dest e →
    (∀ e' ∈ tables, Names dest e' → hostMetric e ≤ hostMetric e') → Best gateways tables dest e

/-! ## Matches -/

/-- The rank of a match: more bits first, then the smaller metric. -/
def Match.rank (m : Match) : ℕᵒᵈ ×ₗ ℕ := toLex (OrderDual.toDual m.bitsCount, m.metric)

theorem rank_le_iff (m1 m2 : Match) : m1.rank ≤ m2.rank ↔
    m2.bitsCount < m1.bitsCount ∨ m1.bitsCount = m2.bitsCount ∧ m1.metric ≤ m2.metric := by
  unfold Match.rank
  rw [Prod.Lex.toLex_le_toLex]
  exact Iff.rfl

theorem matchCheck_ne_two (m1 m2 : Match) : matchCheck m1 m2 ≠ 2 ↔ m1.rank ≤ m2.rank := by
  rw [rank_le_iff]
  unfold matchCheck
  split
  · constructor
    · exact fun h => absurd rfl h
    · rintro (h | ⟨h, -⟩) <;> omega
  · split
    · split
      · constructor
        · exact fun h => absurd rfl h
        · rintro (h | ⟨-, h⟩) <;> omega
      · constructor
        · exact fun _ => by omega
        · exact fun _ => by decide
    · constructor
      · exact fun _ => by omega
      · exact fun _ => by decide

theorem KeepsOrder.adds (h : KeepsOrder listAdd) : Ranked.Adds Match.rank (listAdd matchCheck) := by
  refine ⟨h.perm, fun l c hl => ?_⟩
  have hl' : l.Pairwise fun m1 m2 => matchCheck m1 m2 ≠ 2 := hl.imp fun hle => (matchCheck_ne_two _ _).2 hle
  exact (h.sorted l c hl').imp fun hne => (matchCheck_ne_two _ _).1 hne

theorem keepsOrder_of_adds {add : List Match → Match → List Match} (h : Ranked.Adds Match.rank add) :
    KeepsOrder fun _ => add := by
  refine ⟨h.perm, fun l c hl => ?_⟩
  have hl' : l.Pairwise fun m1 m2 => m1.rank ≤ m2.rank := hl.imp fun hne => (matchCheck_ne_two _ _).1 hne
  exact (h.sorted l c hl').imp fun hle => (matchCheck_ne_two _ _).2 hle

theorem names_iff (he : e.IsIPv4) : Names dest e ↔ dest.type = 4 ∧ dest.intIp = e.networkDestination.intIp := by
  unfold Names ipCompare
  rw [he.dest]
  split
  · rename_i htype
    split
    · rename_i hip
      exact ⟨fun _ => ⟨htype, hip⟩, fun _ => rfl⟩
    · rename_i hip
      exact ⟨fun h => absurd h (by decide), fun h => absurd h.2 hip⟩
  · rename_i htype
    exact ⟨fun h => absurd h (by decide), fun h => absurd h.1 htype⟩

/-- The match of an IPv4 entry. -/
theorem matchOf_eq (hlib : lib.Documented) (he : e.IsIPv4) :
    (Names dest e ∧ icmpCheckState gateways (some dest) = true ∧
      matchOf lib gateways dest false e = some ⟨e, 32, hostMetric e⟩) ∨
    (¬ (Names dest e ∧ icmpCheckState gateways (some dest) = true) ∧ Eligible gateways dest e ∧
      matchOf lib gateways dest false e = some ⟨e, maskLength e.netMask.intIp, e.metric⟩) ∨
    (¬ (Names dest e ∧ icmpCheckState gateways (some dest) = true) ∧ ¬ Eligible gateways dest e ∧
      matchOf lib gateways dest false e = none) := by
  have hread : (!(false && e.type == .static || !false)) = false := rfl
  unfold matchOf
  rw [hread, if_neg Bool.false_ne_true]
  by_cases hnamed : Names dest e ∧ icmpCheckState gateways (some dest) = true
  · have htype : dest.type = 4 := ((names_iff he).1 hnamed.1).1
    have hcond : ipCompare dest e.networkDestination = 0 ∧ icmpCheckState gateways (some dest) = true := hnamed
    rw [if_pos hcond, if_pos htype]
    exact .inl ⟨hnamed.1, hnamed.2, rfl⟩
  · have hcond : ¬ (ipCompare dest e.networkDestination = 0 ∧ icmpCheckState gateways (some dest) = true) := hnamed
    right
    rw [if_neg hcond, he.dest]
    by_cases htype : dest.type = 4
    · obtain ⟨ht1, hn1⟩ := hlib.network dest e.netMask e.prefixLen htype he.mask
      obtain ⟨ht2, hn2⟩ := hlib.network e.networkDestination e.netMask e.prefixLen he.dest he.mask
      have hcompare : ipCompare (lib.ipNetworkAddress dest e.netMask e.prefixLen)
          (lib.ipNetworkAddress e.networkDestination e.netMask e.prefixLen) = 0 ↔
          dest.intIp &&& e.netMask.intIp = e.networkDestination.intIp &&& e.netMask.intIp := by
        unfold ipCompare
        rw [ht1, ht2, hn1, hn2, if_pos rfl, if_pos rfl]
        split
        · rename_i heq
          exact ⟨fun _ => heq, fun _ => rfl⟩
        · rename_i hne
          exact ⟨fun h => absurd h (by decide), fun h => absurd h hne⟩
      rw [if_pos htype, if_pos htype, getBitMatchCount_eq hlib he]
      dsimp only
      by_cases hnet : dest.intIp &&& e.netMask.intIp = e.networkDestination.intIp &&& e.netMask.intIp
      · rw [if_pos (hcompare.2 hnet)]
        by_cases hgate : icmpCheckState gateways e.gateway = true
        · rw [if_pos hgate]
          exact .inl ⟨hnamed, ⟨htype, hnet, hgate⟩, rfl⟩
        · rw [if_neg hgate]
          exact .inr ⟨hnamed, fun h => hgate h.reachable, rfl⟩
      · rw [if_neg fun h => hnet (hcompare.1 h)]
        exact .inr ⟨hnamed, fun h => hnet h.contains, rfl⟩
    · rw [if_neg htype]
      exact .inr ⟨hnamed, fun h => htype h.type, rfl⟩

/-- The matches are those of the entries, added one by one. -/
theorem getMatchTable_eq : getMatchTable lib listAdd gateways tables dest false =
    (tables.filterMap (matchOf lib gateways dest false)).foldl (listAdd matchCheck) [] := by
  rw [List.foldl_filterMap]
  unfold getMatchTable
  congr 1
  funext l table
  cases matchOf lib gateways dest false table <;> rfl

/-- An eligible entry with a mask of 32 ones is one for the destination. -/
theorem names_of_full (he : e.IsIPv4) (helig : Eligible gateways dest e)
    (hfull : maskLength e.netMask.intIp = 32) : Names dest e := by
  rw [names_iff he]
  refine ⟨helig.type, ?_⟩
  have hcontains := helig.contains
  rw [mask_of_maskLength he hfull] at hcontains
  have hand : ∀ a : UInt32, a &&& 4294967295 = a := by
    intro a
    exact UInt32.and_neg_one
  rw [hand, hand] at hcontains
  exact hcontains

/-! ## Routes -/

variable {routeMulticast : StruIp → Option IpForwardRoute}

/-- A match gives a route, since its entry has an interface. -/
theorem routePacket_eq (listAdd : (Match → Match → ℕ) → List Match → Match → List Match)
    (gateways : List (StruIp × GatewayState)) (routeMulticast : StruIp → Option IpForwardRoute)
    (tables : List IpRoutingTable) (huni : lib.isMulticastIP dest = false) :
    routePacket lib listAdd gateways routeMulticast tables dest =
      (getMatchTable lib listAdd gateways tables dest false).head?.map fun m => updateRouteEntry lib (some m) dest := by
  have hnot : ¬ lib.isMulticastIP dest = true := by rw [huni]; exact Bool.false_ne_true
  unfold routePacket routeUnicast
  rw [if_neg hnot]
  cases (getMatchTable lib listAdd gateways tables dest false).head? with
  | none => rfl
  | some m =>
    have hcount : ¬ (updateRouteEntry lib (some m) dest).count = 0 := by
      intro hzero
      exact m.table.hasInterface (List.length_eq_zero_iff.1 hzero)
    dsimp only
    rw [if_neg hcount]
    rfl

/-- The first match is that of some entry, and no other match is better. -/
theorem head_getMatchTable (hlist : KeepsOrder listAdd)
    (hm : (getMatchTable lib listAdd gateways tables dest false).head? = some m) :
    (∃ e ∈ tables, matchOf lib gateways dest false e = some m) ∧
      ∀ e' ∈ tables, ∀ m', matchOf lib gateways dest false e' = some m' → m.rank ≤ m'.rank := by
  rw [getMatchTable_eq] at hm
  obtain ⟨hmem, hleast⟩ := hlist.adds.head_least hm
  refine ⟨List.mem_filterMap.1 hmem, fun e' he' m' hm' => ?_⟩
  exact hleast m' (List.mem_filterMap.2 ⟨e', he', hm'⟩)

/-- **The first match is best** if the entries for the destination are. -/
theorem best_of_head (hlib : lib.Documented) (hv4 : ∀ e ∈ tables, e.IsIPv4) (hlist : KeepsOrder listAdd)
    (hnamed : NamedBest gateways tables dest)
    (hm : (getMatchTable lib listAdd gateways tables dest false).head? = some m) :
    m.table ∈ tables ∧ Best gateways tables dest m.table := by
  obtain ⟨⟨e, he, hof⟩, hleast⟩ := head_getMatchTable hlist hm
  rcases matchOf_eq hlib (hv4 e he) with ⟨hname, hup, heq⟩ | ⟨hnot, helig, heq⟩ | ⟨-, -, heq⟩
  · -- an entry for the destination
    obtain rfl := Option.some.inj (hof.symm.trans heq)
    refine ⟨he, hnamed hup e he hname fun e' he' hname' => ?_⟩
    rcases matchOf_eq hlib (hv4 e' he') with ⟨-, -, heq'⟩ | ⟨hnot', -⟩ | ⟨hnot', -⟩
    · rcases (rank_le_iff _ _).1 (hleast e' he' _ heq') with hlt | ⟨-, hle⟩
      · exact absurd hlt (Nat.lt_irrefl 32)
      · exact hle
    · exact absurd ⟨hname', hup⟩ hnot'
    · exact absurd ⟨hname', hup⟩ hnot'
  · -- a network
    obtain rfl := Option.some.inj (hof.symm.trans heq)
    have hshort : maskLength e.netMask.intIp < 32 ∨ icmpCheckState gateways (some dest) = false := by
      by_cases hfull : maskLength e.netMask.intIp = 32
      · right
        rw [← Bool.not_eq_true]
        exact fun hup => hnot ⟨names_of_full (hv4 e he) helig hfull, hup⟩
      · left
        have hle := maskLength_le (hv4 e he)
        omega
    have hrank : ∀ e' ∈ tables, Eligible gateways dest e' →
        maskLength e'.netMask.intIp < maskLength e.netMask.intIp ∨
          maskLength e.netMask.intIp = maskLength e'.netMask.intIp ∧ e.metric ≤ e'.metric := by
      intro e' he' helig'
      rcases matchOf_eq hlib (hv4 e' he') with ⟨hname', hup, heq'⟩ | ⟨-, -, heq'⟩ | ⟨-, hno, -⟩
      · -- the match of an entry for the destination would be better
        rcases hshort with hlt | hdown
        · rcases (rank_le_iff _ _).1 (hleast e' he' _ heq') with hbad | ⟨hbad, -⟩
          · exact absurd hbad (by dsimp only; omega)
          · exact absurd hbad (by dsimp only; omega)
        · exact absurd (hup.symm.trans hdown) (by decide)
      · exact (rank_le_iff _ _).1 (hleast e' he' _ heq')
      · exact absurd helig' hno
    refine ⟨he, helig, fun e' he' helig' => ?_, fun e' he' helig' hsame => ?_⟩
    · rcases hrank e' he' helig' with hlt | ⟨heq', -⟩
      · exact Nat.le_of_lt hlt
      · exact Nat.le_of_eq heq'.symm
    · rcases hrank e' he' helig' with hlt | ⟨-, hle⟩
      · exact absurd hsame (Nat.ne_of_lt hlt)
      · exact hle
  · exact absurd (hof.symm.trans heq).symm (Option.some_ne_none m).symm

/-- Every eligible entry has a match. -/
theorem matchOf_ne_none (hlib : lib.Documented) (he : e.IsIPv4) (helig : Eligible gateways dest e) :
    matchOf lib gateways dest false e ≠ none := by
  rcases matchOf_eq hlib he with ⟨-, -, heq⟩ | ⟨-, -, heq⟩ | ⟨-, hno, -⟩
  · rw [heq]
    exact Option.some_ne_none _
  · rw [heq]
    exact Option.some_ne_none _
  · exact absurd helig hno

theorem takesBest_of_namedBest (hlib : lib.Documented) (hv4 : ∀ e ∈ tables, e.IsIPv4)
    (huni : lib.isMulticastIP dest = false) (hlist : KeepsOrder listAdd) (hnamed : NamedBest gateways tables dest) :
    TakesBest lib listAdd gateways routeMulticast tables dest := by
  refine ⟨fun route hroute => ?_, ?_⟩
  · rw [routePacket_eq listAdd gateways routeMulticast tables huni] at hroute
    obtain ⟨m, hm, rfl⟩ := Option.map_eq_some_iff.1 hroute
    obtain ⟨hmem, hbest⟩ := best_of_head hlib hv4 hlist hnamed hm
    exact ⟨m, hm, hmem, rfl, hbest⟩
  · rw [routePacket_eq listAdd gateways routeMulticast tables huni, Option.map_eq_none_iff]
    constructor
    · rintro hhead ⟨e, he, helig⟩
      rw [getMatchTable_eq, hlist.adds.head_eq_none] at hhead
      exact matchOf_ne_none hlib (hv4 e he) helig (List.filterMap_eq_nil_iff.1 hhead e he)
    · intro hno
      cases hhead : (getMatchTable lib listAdd gateways tables dest false).head? with
      | none => rfl
      | some m =>
        obtain ⟨hmem, hbest⟩ := best_of_head hlib hv4 hlist hnamed hhead
        exact absurd ⟨m.table, hmem, hbest.eligible⟩ hno

/-- An entry for the destination of the least metric can come first. -/
theorem exists_keepsOrder (hlib : lib.Documented) (hv4 : ∀ e ∈ tables, e.IsIPv4)
    (hup : icmpCheckState gateways (some dest) = true) (he : e ∈ tables) (hname : Names dest e)
    (hleast : ∀ e' ∈ tables, Names dest e' → hostMetric e ≤ hostMetric e') :
    ∃ listAdd, KeepsOrder listAdd ∧
      (getMatchTable lib listAdd gateways tables dest false).head? = some ⟨e, 32, hostMetric e⟩ := by
  have hof : matchOf lib gateways dest false e = some ⟨e, 32, hostMetric e⟩ := by
    rcases matchOf_eq hlib (hv4 e he) with ⟨-, -, heq⟩ | ⟨hnot, -⟩ | ⟨hnot, -⟩
    · exact heq
    · exact absurd ⟨hname, hup⟩ hnot
    · exact absurd ⟨hname, hup⟩ hnot
  have hmem : (⟨e, 32, hostMetric e⟩ : Match) ∈ tables.filterMap (matchOf lib gateways dest false) :=
    List.mem_filterMap.2 ⟨e, he, hof⟩
  have hrank : ∀ m' ∈ tables.filterMap (matchOf lib gateways dest false),
      (⟨e, 32, hostMetric e⟩ : Match).rank ≤ m'.rank := by
    intro m' hm'
    obtain ⟨e', he', hof'⟩ := List.mem_filterMap.1 hm'
    rw [rank_le_iff]
    rcases matchOf_eq hlib (hv4 e' he') with ⟨hname', -, heq⟩ | ⟨hnot, helig, heq⟩ | ⟨-, -, heq⟩
    · obtain rfl := Option.some.inj (hof'.symm.trans heq)
      exact .inr ⟨rfl, hleast e' he' hname'⟩
    · obtain rfl := Option.some.inj (hof'.symm.trans heq)
      left
      have hle := maskLength_le (hv4 e' he')
      have hne : maskLength e'.netMask.intIp ≠ 32 :=
        fun hfull => hnot ⟨names_of_full (hv4 e' he') helig hfull, hup⟩
      dsimp only
      omega
    · exact absurd (hof'.symm.trans heq) (Option.some_ne_none m')
  obtain ⟨add, hadds, hhead⟩ := Ranked.exists_adds hmem hrank
  refine ⟨fun _ => add, keepsOrder_of_adds hadds, ?_⟩
  rw [getMatchTable_eq]
  exact hhead

/-- **Longest prefix match.** For every table of IPv4 entries with contiguous masks and every unicast
destination, the route is that of a longest match of least metric, and there is none exactly if no entry
matches, for every `LIST_ADD` that keeps the order, if and only if the entries for the destination itself of
the least metric are best, or the destination is a gateway that is down. -/
theorem routePacket_longestPrefix (lib : IpLib) (hlib : lib.Documented) (gateways : List (StruIp × GatewayState))
    (routeMulticast : StruIp → Option IpForwardRoute) (tables : List IpRoutingTable)
    (hv4 : ∀ e ∈ tables, e.IsIPv4) (dest : StruIp) (huni : lib.isMulticastIP dest = false) :
    (∀ listAdd, KeepsOrder listAdd → TakesBest lib listAdd gateways routeMulticast tables dest) ↔
      NamedBest gateways tables dest := by
  constructor
  · intro h hup e he hname hleast
    obtain ⟨listAdd, hlist, hhead⟩ := exists_keepsOrder hlib hv4 hup he hname hleast
    have hroute := routePacket_eq listAdd gateways routeMulticast tables huni
    rw [hhead, Option.map_some] at hroute
    obtain ⟨m, hm, -, -, hbest⟩ := (h listAdd hlist).taken _ hroute
    obtain rfl := Option.some.inj (hhead.symm.trans hm)
    exact hbest
  · exact fun hnamed listAdd hlist => takesBest_of_namedBest hlib hv4 huni hlist hnamed

/-! ## Samples -/

/-- The libraries, for IPv4 addresses. -/
def plainLib : IpLib where
  ipNetworkAddress ip mask _ := { ip with intIp := ip.intIp &&& mask.intIp }
  ipToBinary ip := (List.range 32).map fun i => if ip.intIp.toNat.testBit (31 - i) then '1' else '0'
  isMulticastIP ip := decide (ip.intIp ≥ 0xE0000000)
  getDeviceIdAsIP _ := 0

theorem plainLib_documented : plainLib.Documented :=
  ⟨fun _ _ _ hip _ => ⟨hip, rfl⟩, fun _ _ => rfl⟩

/-- An addition before the first match of a greater rank. -/
def sampleAdd (_ : Match → Match → ℕ) (l : List Match) (c : Match) : List Match :=
  Ranked.insertBefore Match.rank c l c

theorem sampleAdd_keepsOrder : KeepsOrder sampleAdd := by
  refine ⟨fun l c => Ranked.insertBefore_perm Match.rank c l c, fun l c hl => ?_⟩
  have hl' : l.Pairwise fun m1 m2 => m1.rank ≤ m2.rank := hl.imp fun hne => (matchCheck_ne_two _ _).1 hne
  exact (Ranked.insertBefore_sorted hl').imp fun hle => (matchCheck_ne_two _ _).2 hle

def ipv4 (ip : UInt32) : StruIp := ⟨4, ip, 0, 0, 0⟩

/-- An entry over the first interface. -/
def entryVia (dest : UInt32) (k : ℕ) (gateway : UInt32) (metric : ℕ) : IpRoutingTable where
  networkDestination := ipv4 dest
  netMask := ipv4 (prefixMask k)
  gateway := some (ipv4 gateway)
  interfaces := [(ipv4 0x0A000001, 1)]
  prefixLen := 0
  metric := metric
  type := .static
  nGatewayId := 0
  hasInterface := List.cons_ne_nil _ _

theorem entryVia_isIPv4 {dest gateway : UInt32} {k metric : ℕ} (hk : k ≤ 32) :
    (entryVia dest k gateway metric).IsIPv4 := ⟨rfl, rfl, k, hk, rfl⟩

/-- 10.0.0.0/8 and 10.1.0.0/16 over different gateways. -/
def nestedTable : List IpRoutingTable := [entryVia 0x0A000000 8 0x0A000002 1, entryVia 0x0A010000 16 0x0A000003 5]

theorem routePacket_longestPrefix_nested :
    TakesBest plainLib sampleAdd [] (fun _ => none) nestedTable (ipv4 0x0A010203) := by
  have hv4 : ∀ e ∈ nestedTable, e.IsIPv4 := by
    intro e he
    rcases List.mem_cons.1 he with rfl | he
    · exact entryVia_isIPv4 (by decide)
    · obtain rfl := List.mem_singleton.1 he
      exact entryVia_isIPv4 (by decide)
  have hnamed : NamedBest [] nestedTable (ipv4 0x0A010203) := by
    intro _ e he hname
    have hno : ∀ e ∈ nestedTable, ipCompare (ipv4 0x0A010203) e.networkDestination ≠ 0 := by decide
    exact absurd hname (hno e he)
  exact (routePacket_longestPrefix plainLib plainLib_documented [] (fun _ => none) nestedTable hv4 (ipv4 0x0A010203)
    (by decide)).2 hnamed sampleAdd sampleAdd_keepsOrder

/-- A host entry over the gateway 10.0.0.2 and a network over 10.0.0.3. -/
def hostTable : List IpRoutingTable := [entryVia 0x0A000105 32 0x0A000002 1, entryVia 0x0A000100 24 0x0A000003 1]

/-- The gateway of the host entry is down: its route is taken all the same. -/
theorem routePacket_hostGateway_down : (∀ e ∈ hostTable, e.IsIPv4) ∧ KeepsOrder sampleAdd ∧
    plainLib.isMulticastIP (ipv4 0x0A000105) = false ∧
    ¬ TakesBest plainLib sampleAdd [(ipv4 0x0A000002, .down), (ipv4 0x0A000003, .up)] (fun _ => none) hostTable
      (ipv4 0x0A000105) := by
  refine ⟨?_, sampleAdd_keepsOrder, by decide, fun h => ?_⟩
  · intro e he
    rcases List.mem_cons.1 he with rfl | he
    · exact entryVia_isIPv4 (by decide)
    · obtain rfl := List.mem_singleton.1 he
      exact entryVia_isIPv4 (by decide)
  · have hroute : routePacket plainLib sampleAdd [(ipv4 0x0A000002, .down), (ipv4 0x0A000003, .up)] (fun _ => none)
        hostTable (ipv4 0x0A000105) =
        some ⟨1, [ipv4 0x0A000002], [ipv4 0x0A000001], [1], [0]⟩ := by decide
    obtain ⟨m, hm, -, -, hbest⟩ := h.taken _ hroute
    have hhead : (getMatchTable plainLib sampleAdd [(ipv4 0x0A000002, .down), (ipv4 0x0A000003, .up)] hostTable
        (ipv4 0x0A000105) false).head? = some ⟨entryVia 0x0A000105 32 0x0A000002 1, 32, 1⟩ := by decide
    obtain rfl := Option.some.inj (hhead.symm.trans hm)
    exact absurd hbest.eligible.reachable (by decide)

end NetSim.IpRouting
