import Mathlib.Algebra.Order.Ring.Rat
import NetSim.Spec.DsrCache

/-!
# The invariant of the route cache

* `cut_iff`: when the part of a reply that a node stores is a route from it.
* `findCache_spec`, `deleteEntries_gives`: lookups and deletions.
* `route_cache_run`: the cache in every run.
-/

namespace NetSim.Dsr

variable {ι : Type*} [DecidableEq ι] {d d' start : DeviceVar ι} {l before rest : List (RouteCache ι)} {ip1 ip2 : ι}

/-- A route from a node on: it starts there, and has a next hop. -/
def IsRouteFrom (a : ι) (address : List ι) : Prop := address.head? = some a ∧ 2 ≤ address.length

/-- **The part of a reply that is stored** is a route from the node exactly if the node is in it before its last address. -/
theorem cut_iff (a : ι) (address : List ι) : IsRouteFrom a (address.dropWhile fun x => x ≠ a) ↔ a ∈ address.dropLast := by
  induction address with
  | nil => exact ⟨fun h => absurd h.1.symm (Option.some_ne_none a), fun h => absurd h List.not_mem_nil⟩
  | cons x l ih =>
    by_cases hx : x = a
    · subst hx
      rw [List.dropWhile_cons_of_neg fun htrue => (of_decide_eq_true htrue) rfl]
      cases l with
      | nil => exact ⟨fun h => absurd h.2 (Nat.not_succ_le_self 1), fun h => absurd h List.not_mem_nil⟩
      | cons y l =>
        rw [List.dropLast_cons_cons]
        exact ⟨fun _ => List.mem_cons_self, fun _ => ⟨rfl, Nat.le_add_left 2 l.length⟩⟩
    · rw [List.dropWhile_cons_of_pos (p := fun x => decide (x ≠ a)) (decide_eq_true hx), ih]
      cases l with
      | nil => exact Iff.rfl
      | cons y l =>
        rw [List.dropLast_cons_cons, List.mem_cons]
        exact ⟨.inr, fun h => h.resolve_left (Ne.symm hx)⟩

/-- **Every cached route is one from the node.** -/
def CacheOk (d : DeviceVar ι) : Prop := ∀ c ∈ d.routeCache, IsRouteFrom d.address c.address

theorem processRrep_routeCache (d : DeviceVar ι) (address : List ι) (time : ℚ) :
    (processRrep d address time).address = d.address ∧ (processRrep d address time).routeCache =
      d.routeCache ++ [⟨time + routeCacheTimeout, address.dropWhile fun a => a ≠ d.address⟩] := by
  unfold processRrep
  dsimp only
  split
  · split
    · exact ⟨rfl, rfl⟩
    · exact ⟨rfl, rfl⟩
  · exact ⟨rfl, rfl⟩

/-- **A reply** keeps the cache in order exactly if the node is in it before its last address. -/
theorem cacheOk_processRrep_iff (h : CacheOk d) (address : List ι) (time : ℚ) :
    CacheOk (processRrep d address time) ↔ d.address ∈ address.dropLast := by
  obtain ⟨haddress, hcache⟩ := processRrep_routeCache d address time
  unfold CacheOk
  rw [haddress, hcache, ← cut_iff]
  constructor
  · exact fun hall => hall _ (List.mem_append_right _ (List.mem_singleton.2 rfl))
  · intro hroute c hc
    rcases List.mem_append.1 hc with hc | hc
    · exact h c hc
    · rw [List.mem_singleton.1 hc]
      exact hroute

/-! ## Lookups -/

/-- An entry that has not expired, with a route over the address. -/
def IsHit (dest : ι) (time : ℚ) (c : RouteCache ι) : Prop := time < c.dTimeOutTime ∧ dest ∈ c.address

theorem checkIpInIpList_iff (l : List ι) (a : ι) : checkIpInIpList l a = true ↔ a ∈ l := by
  unfold checkIpInIpList
  rw [List.any_eq_true]
  constructor
  · rintro ⟨x, hx, heq⟩
    rw [← of_decide_eq_true heq]
    exact hx
  · exact fun h => ⟨a, h, decide_eq_true rfl⟩

/-- **A lookup** finds an entry if there is one, and keeps only addresses that were there. -/
theorem findCache_spec (l : List (RouteCache ι)) (dest : ι) (time : ℚ) :
    (((∀ c ∈ l, ¬ IsHit dest time c) ∧ (findCache l dest time).1 = none) ∨
      ∃ c ∈ l, IsHit dest time c ∧ (findCache l dest time).1 = some { c with dTimeOutTime := time + routeCacheTimeout }) ∧
      ∀ c' ∈ (findCache l dest time).2, ∃ c ∈ l, c'.address = c.address := by
  induction l with
  | nil => exact ⟨.inl ⟨fun c hc => absurd hc List.not_mem_nil, rfl⟩, fun c hc => absurd hc List.not_mem_nil⟩
  | cons c l ih =>
    obtain ⟨hfound, hkept⟩ := ih
    have hlift : ((∀ x ∈ l, ¬ IsHit dest time x) ∧ (findCache l dest time).1 = none ∨
        ∃ x ∈ l, IsHit dest time x ∧ (findCache l dest time).1 = some { x with dTimeOutTime := time + routeCacheTimeout }) →
        ¬ IsHit dest time c →
        ((∀ x ∈ c :: l, ¬ IsHit dest time x) ∧ (findCache l dest time).1 = none ∨
          ∃ x ∈ c :: l, IsHit dest time x ∧
            (findCache l dest time).1 = some { x with dTimeOutTime := time + routeCacheTimeout }) := by
      rintro (⟨hnone, hresult⟩ | ⟨x, hx, hhit, hresult⟩) hc
      · refine .inl ⟨fun x hx => ?_, hresult⟩
        rcases List.mem_cons.1 hx with rfl | hx
        · exact hc
        · exact hnone x hx
      · exact .inr ⟨x, List.mem_cons_of_mem c hx, hhit, hresult⟩
    unfold findCache
    by_cases htime : c.dTimeOutTime ≤ time
    · rw [if_pos htime]
      refine ⟨hlift hfound fun hhit => absurd hhit.1 (not_lt.2 htime), fun c' hc' => ?_⟩
      obtain ⟨x, hx, heq⟩ := hkept c' hc'
      exact ⟨x, List.mem_cons_of_mem c hx, heq⟩
    · rw [if_neg htime]
      by_cases hmem : dest ∈ c.address
      · rw [if_pos ((checkIpInIpList_iff _ _).2 hmem)]
        refine ⟨.inr ⟨c, List.mem_cons_self, ⟨not_le.1 htime, hmem⟩, rfl⟩, fun c' hc' => ?_⟩
        rcases List.mem_cons.1 hc' with rfl | hc'
        · exact ⟨c, List.mem_cons_self, rfl⟩
        · exact ⟨c', List.mem_cons_of_mem c hc', rfl⟩
      · rw [if_neg fun htrue => hmem ((checkIpInIpList_iff _ _).1 htrue)]
        refine ⟨hlift hfound fun hhit => hmem hhit.2, fun c' hc' => ?_⟩
        rcases List.mem_cons.1 hc' with rfl | hc'
        · exact ⟨c', List.mem_cons_self, rfl⟩
        · obtain ⟨x, hx, heq⟩ := hkept c' hc'
          exact ⟨x, List.mem_cons_of_mem c hx, heq⟩

/-- **A lookup is right**: it returns an entry that has not expired, with its route over the destination and the next hop of
the route, if there is such an entry, and nothing otherwise. -/
def LookupRight (d : DeviceVar ι) (dest : ι) (time : ℚ) : Prop :=
  ∃ found d', checkRouteFound d dest time = some (found, d') ∧
    (((∀ c ∈ d.routeCache, ¬ IsHit dest time c) ∧ found = none) ∨ ∃ c ∈ d.routeCache, IsHit dest time c ∧
      ∃ nextHop, c.address[1]? = some nextHop ∧ found = some ({ c with dTimeOutTime := time + routeCacheTimeout }, nextHop))

theorem CacheOk.lookup (h : CacheOk d) (dest : ι) (time : ℚ) : LookupRight d dest time := by
  obtain ⟨⟨hnone, hresult⟩ | ⟨c, hc, hhit, hresult⟩, -⟩ := findCache_spec d.routeCache dest time
  · refine ⟨none, { d with routeCache := (findCache d.routeCache dest time).2 }, ?_, .inl ⟨hnone, rfl⟩⟩
    unfold checkRouteFound
    dsimp only
    rw [hresult]
  · have hnext : c.address[1]? = some (c.address.get ⟨1, (h c hc).2⟩) :=
      List.getElem?_eq_getElem (h c hc).2
    refine ⟨_, { d with routeCache := (findCache d.routeCache dest time).2 }, ?_, .inr ⟨c, hc, hhit, _, hnext, rfl⟩⟩
    unfold checkRouteFound
    dsimp only
    rw [hresult]
    dsimp only
    rw [hnext]
    rfl

theorem checkRouteFound_routeCache {dest : ι} {time : ℚ} {found : Option (RouteCache ι × ι)}
    (h : checkRouteFound d dest time = some (found, d')) :
    d'.address = d.address ∧ d'.routeCache = (findCache d.routeCache dest time).2 := by
  unfold checkRouteFound at h
  dsimp only at h
  split at h
  · obtain ⟨-, rfl⟩ := Prod.mk.inj (Option.some.inj h)
    exact ⟨rfl, rfl⟩
  · obtain ⟨nextHop, -, heq⟩ := Option.map_eq_some_iff.1 h
    obtain ⟨-, rfl⟩ := Prod.mk.inj heq
    exact ⟨rfl, rfl⟩

/-! ## Deletions -/

/-- The entries whose routes do not go over a link. -/
def withoutLink (ip1 ip2 : ι) (l : List (RouteCache ι)) : List (RouteCache ι) := l.filter fun c => !usesLink ip1 ip2 c.address

/-- The loop passes the entries that it keeps, and starts again behind each one that it deletes. -/
theorem deleteRound_yields (ip1 ip2 : ι) {n : ℕ} (hlength : (before ++ rest).length ≤ n)
    (hbefore : ∀ c ∈ before, usesLink ip1 ip2 c.address = false) (hall : ∀ c ∈ before ++ rest, c.address ≠ []) :
    Loop.Yields (deleteRound ip1 ip2) (· = some (withoutLink ip1 ip2 (before ++ rest))) (before, rest) := by
  induction n generalizing before rest with
  | zero =>
    obtain ⟨rfl, rfl⟩ := List.append_eq_nil_iff.1 (List.length_eq_zero_iff.1 (Nat.le_zero.1 hlength))
    exact .of_inr rfl rfl
  | succ n ih =>
    induction rest generalizing before with
    | nil =>
      refine .of_inr rfl ?_
      rw [List.append_nil]
      exact congrArg some (List.filter_eq_self.2 fun c hc => by rw [hbefore c hc]; rfl).symm
    | cons c rest ihrest =>
      have hc : c.address ≠ [] := hall c (List.mem_append_right _ List.mem_cons_self)
      have hfinds : findsLink ip1 ip2 c.address = some (usesLink ip1 ip2 c.address) := if_neg hc
      cases huses : usesLink ip1 ip2 c.address with
      | false =>
        have hround : deleteRound ip1 ip2 (before, c :: rest) = .inl (before ++ [c], rest) := by
          unfold deleteRound
          dsimp only
          rw [hfinds, huses]
        rw [List.append_cons] at hlength hall ⊢
        refine .of_inl hround (ihrest hlength (fun x hx => ?_) hall)
        rcases List.mem_append.1 hx with hx | hx
        · exact hbefore x hx
        · rw [List.mem_singleton.1 hx]
          exact huses
      | true =>
        have hround : deleteRound ip1 ip2 (before, c :: rest) = .inl ([], before ++ rest) := by
          unfold deleteRound
          dsimp only
          rw [hfinds, huses]
        have hsame : withoutLink ip1 ip2 (before ++ c :: rest) = withoutLink ip1 ip2 ([] ++ (before ++ rest)) := by
          unfold withoutLink
          rw [List.filter_append, List.filter_cons_of_neg (by rw [huses]; decide), ← List.filter_append]
          rfl
        rw [hsame]
        refine .of_inl hround (ih ?_ (fun x hx => absurd hx List.not_mem_nil) fun x (hx : x ∈ before ++ rest) => hall x ?_)
        · rw [List.nil_append, List.length_append]
          rw [List.length_append, List.length_cons] at hlength
          omega
        · exact (List.mem_append.1 hx).elim (List.mem_append_left _) fun hx =>
            List.mem_append_right _ (List.mem_cons_of_mem c hx)

/-- **A deletion is right**: it removes the entries with routes over the link, and no others. -/
def DeleteRight (d : DeviceVar ι) (ip1 ip2 : ι) : Prop :=
  Loop.Gives (deleteEntries ip1 ip2 d.routeCache) (some (withoutLink ip1 ip2 d.routeCache))

theorem deleteEntries_gives (h : ∀ c ∈ l, c.address ≠ []) (ip1 ip2 : ι) :
    Loop.Gives (deleteEntries ip1 ip2 l) (some (withoutLink ip1 ip2 l)) := by
  have hyields : Loop.Yields (deleteRound ip1 ip2) (· = some (withoutLink ip1 ip2 l)) ([], l) :=
    deleteRound_yields ip1 ip2 (le_refl _) (fun c hc => absurd hc List.not_mem_nil) h
  obtain ⟨result, rfl, hgives⟩ := hyields.gives
  exact hgives

theorem CacheOk.delete (h : CacheOk d) (ip1 ip2 : ι) : DeleteRight d ip1 ip2 := by
  refine deleteEntries_gives (fun c hc hnil => ?_) ip1 ip2
  have hlength := (h c hc).2
  rw [hnil] at hlength
  exact absurd hlength (Nat.not_succ_le_zero 1)

/-! ## Runs -/

theorem cacheOk_run {replies : List (List ι)} (h : CacheRun start replies d)
    (hreplies : ∀ address ∈ replies, start.address ∈ address.dropLast) : d.address = start.address ∧ CacheOk d := by
  induction h with
  | start hstart =>
    refine ⟨rfl, fun c hc => ?_⟩
    rw [hstart] at hc
    cases hc
  | reply address time _ ih =>
    obtain ⟨haddress, hok⟩ := ih fun r hr => hreplies r (List.mem_append_left _ hr)
    refine ⟨(processRrep_routeCache _ _ _).1.trans haddress, (cacheOk_processRrep_iff hok address time).2 ?_⟩
    rw [haddress]
    exact hreplies address (List.mem_append_right _ (List.mem_singleton.2 rfl))
  | lookup _ hfound ih =>
    obtain ⟨haddress, hok⟩ := ih hreplies
    obtain ⟨hsame, hcache⟩ := checkRouteFound_routeCache hfound
    refine ⟨hsame.trans haddress, fun c hc => ?_⟩
    rw [hcache] at hc
    obtain ⟨x, hx, heq⟩ := (findCache_spec _ _ _).2 c hc
    rw [heq, hsame]
    exact hok x hx
  | delete _ hcache ih =>
    obtain ⟨haddress, hok⟩ := ih hreplies
    refine ⟨haddress, fun c hc => ?_⟩
    have heq := Option.some.inj ((hok.delete _ _).eq hcache)
    dsimp only at hc
    rw [← heq] at hc
    exact hok c (List.mem_of_mem_filter hc)

/-- **The route cache**: in every run whose replies all have the node before their last address, every cached route is one from
the node, and every lookup and every deletion is right. The next reply leaves it so exactly if it is such a reply. -/
theorem route_cache_run {replies : List (List ι)} (h : CacheRun start replies d)
    (hreplies : ∀ address ∈ replies, start.address ∈ address.dropLast) :
    CacheOk d ∧ (∀ dest time, LookupRight d dest time) ∧ (∀ ip1 ip2, DeleteRight d ip1 ip2) ∧
      ∀ address time, CacheOk (processRrep d address time) ↔ start.address ∈ address.dropLast := by
  obtain ⟨haddress, hok⟩ := cacheOk_run h hreplies
  refine ⟨hok, hok.lookup, hok.delete, fun address time => ?_⟩
  rw [← haddress]
  exact cacheOk_processRrep_iff hok address time

/-- A node without routes. -/
def emptyNode (address : ℕ) : DeviceVar ℕ := ⟨address, 0, [], []⟩

/-- Two replies with the node in the middle, a lookup of the node `3` and a deletion of the link to the node `4`. -/
theorem route_cache_middle : ∃ d, CacheRun (emptyNode 2) [[1, 2, 3], [5, 2, 4]] d ∧
    d.routeCache = [⟨1 + routeCacheTimeout, [2, 3]⟩] ∧ CacheOk d ∧ LookupRight d 3 2 ∧ DeleteRight d 2 3 := by
  have hreplies : CacheRun (emptyNode 2) (([] ++ [[1, 2, 3]]) ++ [[5, 2, 4]]) _ :=
    .reply [5, 2, 4] 0 (.reply [1, 2, 3] 0 (.start rfl))
  have hlookup := hreplies.lookup (show checkRouteFound _ 3 1 = some (some (⟨1 + routeCacheTimeout, [2, 3]⟩, 3),
    ⟨2, 0, [], [⟨1 + routeCacheTimeout, [2, 3]⟩, ⟨0 + routeCacheTimeout, [2, 4]⟩]⟩) from by decide +kernel)
  have hrun := hlookup.delete ((route_cache_run hlookup (by decide)).2.2.1 2 4)
  obtain ⟨hok, hfound, hdelete, -⟩ := route_cache_run hrun (by decide)
  exact ⟨_, hrun, rfl, hok, hfound 3 2, hdelete 2 3⟩

/-- A reply of 65 addresses, whose length does not fit its 8 bits. -/
def longReply : RrepOption ℕ := ⟨rrepOptDataLen 65, List.range 65, 30⟩

/-- The node 31 sends the reply, for a request that came over 30 others, when it has a route of 34 addresses. -/
example : (generateRrepUsingRouteCache ⟨31, 0, [], [⟨routeCacheTimeout, List.range' 31 34⟩]⟩
    ⟨0, 1, 64, List.range' 1 30, by decide⟩ 0).1 = some longReply := by decide

/-- The node 30 is on the route of the reply, and stores an empty one. -/
theorem long_reply_cached : ¬ ∀ (start d : DeviceVar ℕ) (replies : List (List ℕ)), CacheRun start replies d →
    CacheOk d ∧ (∀ dest time, LookupRight d dest time) ∧ ∀ ip1 ip2, DeleteRight d ip1 ip2 := by
  intro hall
  have hrun : CacheRun (emptyNode 30) ([] ++ [longReply.route]) (processRrep (emptyNode 30) longReply.route 0) :=
    .reply longReply.route 0 (.start rfl)
  have hcached : ⟨routeCacheTimeout, []⟩ ∈ (processRrep (emptyNode 30) longReply.route 0).routeCache := by
    rw [(processRrep_routeCache _ _ _).2]
    decide +kernel
  exact absurd ((hall _ _ _ hrun).1 _ hcached).2 (Nat.not_succ_le_zero 1)

end NetSim.Dsr
