import NetSim.Spec.Dsr
import Mathlib.Algebra.Order.Field.Rat
import Mathlib.Data.List.Infix
import Mathlib.Tactic.Linarith

/-!
# Replies from the route cache of DSR

A node that has a cached route to the target of a request answers with the request's path followed by a part of the
cached route: the part behind the initiator, if the initiator is on it before the target, and else all of it up to the
target. When the request's path meets the cached route it does nothing at all.

* `cachePart_eq`: the part that is taken.
* `usable_iff`: when the spliced route is one along known links.
* `processRreq_action`: what becomes of a request that has not been seen.
* `cacheReply_iff`: so the node does as it should where the two paths do not meet, and the initiator is not on the cached
  route unless it is the neighbour that has sent the request.
* `cacheReply_wrong`: an initiator on the cached route, two hops away.
-/

namespace NetSim.Dsr

variable {ι : Type*} [DecidableEq ι]

/-! ### Parts of a route -/

/-- A route up to the first `t`. -/
def upTo (t : ι) : List ι → List ι
  | [] => []
  | a :: l => if a = t then [a] else a :: upTo t l

/-- A route behind the last `s`, or all of it. -/
def behind (s : ι) : List ι → List ι
  | [] => []
  | a :: l => if s ∈ l then behind s l else if a = s then l else a :: l

theorem upTo_append (t : ι) (l : List ι) : ∃ r, l = upTo t l ++ r := by
  induction l with
  | nil => exact ⟨[], rfl⟩
  | cons a l ih =>
    unfold upTo
    split
    · exact ⟨l, rfl⟩
    · obtain ⟨r, hr⟩ := ih
      exact ⟨r, congrArg (a :: ·) hr⟩

/-- The target ends the part up to it, and is nowhere else in it. -/
theorem upTo_concat {t : ι} {l : List ι} (h : t ∈ l) : ∃ p, upTo t l = p ++ [t] ∧ t ∉ p := by
  induction l with
  | nil => exact absurd h List.not_mem_nil
  | cons a l ih =>
    unfold upTo
    by_cases ha : a = t
    · rw [if_pos ha, ha]
      exact ⟨[], rfl, List.not_mem_nil⟩
    · rw [if_neg ha]
      have hl : t ∈ l := by
        rcases List.mem_cons.1 h with rfl | hl
        · exact absurd rfl ha
        · exact hl
      obtain ⟨p, hp, hnot⟩ := ih hl
      refine ⟨a :: p, congrArg (a :: ·) hp, ?_⟩
      intro hin
      rcases List.mem_cons.1 hin with rfl | hin
      · exact ha rfl
      · exact hnot hin

theorem behind_of_not_mem {s : ι} {l : List ι} (h : s ∉ l) : behind s l = l := by
  cases l with
  | nil => rfl
  | cons a l =>
    unfold behind
    rw [if_neg fun hs => h (List.mem_cons_of_mem _ hs), if_neg ?_]
    rintro rfl
    exact h List.mem_cons_self

/-- What is before the part behind `s` ends with `s`. -/
theorem behind_of_mem {s : ι} {l : List ι} (h : s ∈ l) : ∃ p, l = p ++ s :: behind s l := by
  induction l with
  | nil => exact absurd h List.not_mem_nil
  | cons a l ih =>
    unfold behind
    by_cases hs : s ∈ l
    · rw [if_pos hs]
      obtain ⟨p, hp⟩ := ih hs
      exact ⟨a :: p, congrArg (a :: ·) hp⟩
    · rw [if_neg hs]
      have ha : a = s := by
        rcases List.mem_cons.1 h with rfl | h
        · rfl
        · exact absurd h hs
      rw [if_pos ha]
      exact ⟨[], by rw [ha]; rfl⟩

theorem behind_append (s : ι) (l : List ι) : ∃ p, l = p ++ behind s l := by
  by_cases h : s ∈ l
  · obtain ⟨p, hp⟩ := behind_of_mem h
    exact ⟨p ++ [s], by rw [List.append_assoc]; exact hp⟩
  · exact ⟨[], by rw [behind_of_not_mem h]; rfl⟩

/-! ### The part of the cached route -/

/-- The positions that the scan finds. -/
theorem determinePosition_eq {s t : ι} {l : List ι} (h : t ∈ l) (i my de : ℤ) :
    determinePosition s t i my de l =
      (if s ∈ upTo t l then i + (upTo t l).length - (behind s (upTo t l)).length else my,
        i + (upTo t l).length) := by
  induction l generalizing i my with
  | nil => exact absurd h List.not_mem_nil
  | cons a l ih =>
    unfold determinePosition upTo
    dsimp only
    by_cases ha : a = t
    · rw [if_pos ha, if_pos ha]
      by_cases hs : a = s
      · simp [behind, hs]
      · have hs' : ¬ s = a := fun h => hs h.symm
        simp [hs, hs']
    · rw [if_neg ha, if_neg ha]
      have hl : t ∈ l := by
        rcases List.mem_cons.1 h with rfl | hl
        · exact absurd rfl ha
        · exact hl
      rw [ih hl]
      by_cases hs : s ∈ upTo t l
      · have hmem : s ∈ a :: upTo t l := List.mem_cons_of_mem _ hs
        rw [if_pos hs, if_pos hmem]
        simp only [behind, if_pos hs, List.length_cons, Prod.mk.injEq]
        omega
      · rw [if_neg hs]
        by_cases has : a = s
        · have hmem : s ∈ a :: upTo t l := has ▸ List.mem_cons_self
          rw [if_pos has, if_pos hmem]
          simp only [behind, if_neg hs, if_pos has, List.length_cons, Prod.mk.injEq]
          omega
        · have hmem : s ∉ a :: upTo t l := by
            intro h
            rcases List.mem_cons.1 h with rfl | h
            · exact has rfl
            · exact hs h
          rw [if_neg has, if_neg hmem]
          simp only [List.length_cons, Prod.mk.injEq, true_and]
          omega

/-- **The part of a cached route** that is taken: what is behind the initiator, up to the target. -/
theorem cachePart_eq {s t : ι} {l : List ι} (h : t ∈ l) : cachePart s t l = behind s (upTo t l) := by
  obtain ⟨r, hr⟩ := upTo_append t l
  unfold cachePart
  rw [determinePosition_eq h]
  generalize upTo t l = u at hr
  dsimp only
  by_cases hs : s ∈ u
  · obtain ⟨p, hp⟩ := behind_of_mem hs
    rw [if_pos hs]
    generalize behind s u = b at hp
    have hlen : u.length = p.length + 1 + b.length := by
      rw [hp, List.length_append, List.length_cons]
      omega
    have hpos : ¬ (0 + (u.length : ℤ) - b.length = -1) := by omega
    have hl : l = (p ++ [s]) ++ (b ++ r) := by
      rw [hr, hp]
      simp
    have hn : (0 + (u.length : ℤ) - b.length).toNat = (p ++ [s]).length := by
      rw [List.length_append, List.length_singleton]
      omega
    have htake : (0 + (u.length : ℤ) - (0 + (u.length : ℤ) - b.length)).toNat = b.length := by omega
    rw [if_neg hpos, if_neg hpos, hn, htake, hl, List.drop_left, List.take_left]
  · have hlen : (0 + (u.length : ℤ)).toNat = u.length := by omega
    rw [if_neg hs, if_pos rfl, if_pos rfl, behind_of_not_mem hs, hlen, Int.toNat_zero, List.drop_zero, hr,
      List.take_left]

/-! ### Usable routes -/

omit [DecidableEq ι] in
/-- The neighbours of a list that is put together. -/
theorem pair_infix_append {a b : ι} {xs ys : List ι} :
    [a, b] <:+: xs ++ ys ↔ [a, b] <:+: xs ∨ [a, b] <:+: ys ∨ xs.getLast? = some a ∧ ys.head? = some b := by
  rw [List.infix_append_iff_ne_nil]
  constructor
  · rintro (h | h | ⟨l₁, l₂, h₁, h₂, he, hs, hp⟩)
    · exact .inl h
    · exact .inr (.inl h)
    · obtain ⟨x, l₁, rfl⟩ := List.exists_cons_of_ne_nil h₁
      obtain ⟨y, l₂, rfl⟩ := List.exists_cons_of_ne_nil h₂
      have hlen := congrArg List.length he
      simp only [List.length_cons, List.length_nil, List.length_append] at hlen
      obtain rfl := List.length_eq_zero_iff.1 (show l₁.length = 0 by omega)
      obtain rfl := List.length_eq_zero_iff.1 (show l₂.length = 0 by omega)
      simp only [List.cons_append, List.nil_append, List.cons.injEq, and_true] at he
      obtain ⟨rfl, rfl⟩ := he
      obtain ⟨q, rfl⟩ := hs
      obtain ⟨q', rfl⟩ := hp
      exact .inr (.inr ⟨List.getLast?_concat, rfl⟩)
  · rintro (h | h | ⟨ha, hb⟩)
    · exact .inl h
    · exact .inr (.inl h)
    · obtain ⟨q, rfl⟩ := List.getLast?_eq_some_iff.1 ha
      obtain ⟨q', rfl⟩ := List.head?_eq_some_iff.1 hb
      exact .inr (.inr ⟨[a], [b], by simp, by simp, rfl, ⟨q, rfl⟩, ⟨q', rfl⟩⟩)

/-- A route from `s` to `t` without repeated nodes, each hop of which is a hop of the path of a request or of a cached
route. -/
structure Usable (s t : ι) (path cache route : List ι) : Prop where
  first : route.head? = some s
  last : route.getLast? = some t
  nodup : route.Nodup
  hops : ∀ a b, [a, b] <:+: route → [a, b] <:+: path ∨ [a, b] <:+: cache

section Splice

variable {s t me : ι} {l cache : List ι}

/-- The part behind the initiator is one of the cached route. -/
theorem behind_upTo_infix (s t : ι) (cache : List ι) : behind s (upTo t cache) <:+: cache := by
  obtain ⟨r, hr⟩ := upTo_append t cache
  obtain ⟨p, hp⟩ := behind_append s (upTo t cache)
  refine ⟨p, r, ?_⟩
  rw [← hp, ← hr]

/-- A part that is not empty ends with the target; an empty one is that of an initiator that is the target. -/
theorem behind_upTo_last (ht : t ∈ cache) :
    (∃ p, behind s (upTo t cache) = p ++ [t] ∧ t ∉ p) ∨ behind s (upTo t cache) = [] ∧ s = t := by
  obtain ⟨p, hp, hnot⟩ := upTo_concat ht
  obtain ⟨q, hq⟩ := behind_append s (upTo t cache)
  rcases List.eq_nil_or_concat (behind s (upTo t cache)) with hnil | ⟨b, x, hb⟩
  · right
    refine ⟨hnil, ?_⟩
    have hs : s ∈ upTo t cache := by
      by_contra hs
      rw [behind_of_not_mem hs, hp] at hnil
      simp at hnil
    obtain ⟨p', hp'⟩ := behind_of_mem hs
    rw [hnil, hp] at hp'
    have hlast := congrArg List.getLast? hp'
    rw [List.getLast?_concat, List.getLast?_concat] at hlast
    exact (Option.some.inj hlast).symm
  · left
    rw [List.concat_eq_append] at hb
    rw [hb, hp, ← List.append_assoc] at hq
    have hpx := List.append_inj' hq rfl
    have hx : t = x := by simpa using hpx.2
    refine ⟨b, by rw [hb, hx], ?_⟩
    intro hin
    apply hnot
    rw [hpx.1]
    exact List.mem_append_right _ hin

omit [DecidableEq ι] in
/-- A hop of the request's path leads to a listed node or to the node itself. -/
theorem hop_of_path {a b : ι} (h : [a, b] <:+: s :: l ++ [me]) : b ∈ l ∨ b = me := by
  have hmem : ∀ (x y z : ι) (q : List ι), [x, y] <:+: z :: q → y ∈ q := by
    intro x y z q hq
    obtain ⟨u, v, huv⟩ := hq
    cases u with
    | nil =>
      simp only [List.nil_append, List.cons_append, List.cons.injEq] at huv
      rw [← huv.2]
      exact List.mem_cons_self
    | cons w u =>
      simp only [List.cons_append, List.cons.injEq] at huv
      rw [← huv.2]
      simp
  have hin : b ∈ l ++ [me] := hmem a b s (l ++ [me]) h
  simpa using hin

/-- **The spliced route** is usable if it repeats no node, and either the request has come from its initiator or the
cached part starts at the node itself. -/
theorem usable_iff (hstart : cache.head? = some me) (ht : t ∈ cache) (hl : ∀ a ∈ l, a ∉ cache) :
    Usable s t (s :: l ++ [me]) cache (s :: l ++ behind s (upTo t cache)) ↔
      (s :: l ++ behind s (upTo t cache)).Nodup ∧ (l = [] ∨ (behind s (upTo t cache)).head? = some me) := by
  have hinf := behind_upTo_infix s t cache
  constructor
  · intro h
    refine ⟨h.nodup, ?_⟩
    by_cases hnil : l = []
    · exact .inl hnil
    right
    -- the last listed node is on the request's path only, and goes on to the node itself
    obtain ⟨x, hx⟩ : ∃ x, l.getLast? = some x := ⟨_, List.getLast?_eq_some_getLast hnil⟩
    have hxl : x ∈ l := List.mem_of_getLast? hx
    cases hb : behind s (upTo t cache) with
    | nil =>
      have hlast := h.last
      have htx : (s :: l ++ []).getLast? = some x := by
        rw [List.append_nil, List.getLast?_cons, hx]
        rfl
      rw [hb, htx] at hlast
      obtain rfl := Option.some.inj hlast
      exact absurd ht (hl _ hxl)
    | cons y b =>
      have hsx : (s :: l).getLast? = some x := by
        rw [List.getLast?_cons, hx]
        rfl
      have hhop : [x, y] <:+: s :: l ++ behind s (upTo t cache) :=
        pair_infix_append.2 (.inr (.inr ⟨hsx, by rw [hb]; rfl⟩))
      have hyc : y ∈ cache := by
        have hyb : y ∈ behind s (upTo t cache) := by
          rw [hb]
          exact List.mem_cons_self
        exact hinf.subset hyb
      rcases h.hops x y hhop with hpath | hcache
      · rcases hop_of_path hpath with hyl | rfl
        · exact absurd hyc (hl y hyl)
        · rfl
      · have hxc : x ∈ cache := hcache.subset List.mem_cons_self
        exact absurd hxc (hl x hxl)
  · rintro ⟨hnd, hjoin⟩
    refine ⟨rfl, ?_, hnd, ?_⟩
    · rcases behind_upTo_last (s := s) ht with ⟨p, hp, -⟩ | ⟨hnil, rfl⟩
      · rw [hp, ← List.append_assoc, List.getLast?_concat]
      · rw [hnil] at hjoin ⊢
        rcases hjoin with rfl | hjoin
        · rfl
        · exact absurd hjoin (by simp)
    · intro a b hab
      rcases pair_infix_append.1 hab with h | h | ⟨ha, hb⟩
      · exact .inl (h.trans List.infix_append_left)
      · exact .inr (h.trans hinf)
      · by_cases hme : (behind s (upTo t cache)).head? = some me
        · rw [hme] at hb
          obtain rfl := Option.some.inj hb
          exact .inl (pair_infix_append.2 (.inr (.inr ⟨ha, rfl⟩)))
        · -- the initiator is a neighbour, and on the cached route just before the part
          obtain rfl : l = [] := hjoin.resolve_right hme
          obtain rfl : s = a := Option.some.inj ha
          have hs : s ∈ upTo t cache := by
            by_contra hs
            apply hme
            obtain ⟨r, hr⟩ := upTo_append t cache
            obtain ⟨p, hp, -⟩ := upTo_concat ht
            rw [behind_of_not_mem hs]
            rw [hr, List.head?_append] at hstart
            cases hu : upTo t cache with
            | nil =>
              rw [hp] at hu
              simp at hu
            | cons z u =>
              rw [hu] at hstart
              exact hstart
          obtain ⟨p, hp⟩ := behind_of_mem hs
          obtain ⟨r, hr⟩ := upTo_append t cache
          obtain ⟨q, hq⟩ := List.head?_eq_some_iff.1 hb
          right
          refine ⟨p, q ++ r, ?_⟩
          rw [hr, hp, hq]
          simp

end Splice

/-! ### What a request becomes -/

/-- The route that is found is cached, and has the target. -/
theorem findCache_mem {l l' : List (RouteCache ι)} {t : ι} {time : ℚ} {c : RouteCache ι}
    (h : findCache l t time = (some c, l')) : (∃ c₀ ∈ l, c₀.address = c.address) ∧ t ∈ c.address := by
  induction l generalizing l' with
  | nil => simp [findCache] at h
  | cons c₀ l ih =>
    unfold findCache at h
    split at h
    · obtain ⟨⟨c₁, hc₁, ha⟩, ht⟩ := ih h
      exact ⟨⟨c₁, List.mem_cons_of_mem _ hc₁, ha⟩, ht⟩
    · split at h
      · rename_i hin
        simp only [Prod.mk.injEq, Option.some.injEq] at h
        obtain ⟨rfl, -⟩ := h
        exact ⟨⟨c₀, List.mem_cons_self, rfl⟩, by simpa [checkIpInIpList] using hin⟩
      · dsimp only at h
        simp only [Prod.mk.injEq] at h
        have h' : findCache l t time = (some c, (findCache l t time).2) := by rw [← h.1]
        obtain ⟨⟨c₁, hc₁, ha⟩, ht⟩ := ih h'
        exact ⟨⟨c₁, List.mem_cons_of_mem _ hc₁, ha⟩, ht⟩

/-- A second search finds the same route. -/
theorem findCache_again {l l' : List (RouteCache ι)} {t : ι} {time : ℚ} {c : RouteCache ι}
    (h : findCache l t time = (some c, l')) : (findCache l' t time).1 = some c := by
  induction l generalizing l' with
  | nil => simp [findCache] at h
  | cons c₀ l ih =>
    unfold findCache at h
    split at h
    · exact ih h
    · rename_i hexp
      split at h
      · rename_i hin
        simp only [Prod.mk.injEq, Option.some.injEq] at h
        obtain ⟨rfl, rfl⟩ := h
        unfold findCache
        have hfresh : ¬ time + routeCacheTimeout ≤ time := by
          unfold routeCacheTimeout
          linarith
        dsimp only
        rw [if_neg hfresh, if_pos hin]
      · rename_i hin
        dsimp only at h
        simp only [Prod.mk.injEq] at h
        obtain ⟨hc, rfl⟩ := h
        unfold findCache
        rw [if_neg hexp, if_neg hin]
        exact ih (Prod.ext hc rfl)

/-- What becomes of a request for a target on a cached route. -/
def cacheAction (rreq : RreqOption ι) (cache : List ι) : Action ι :=
  if !validateRouteCache cache rreq.address then .ignored
  else
    let part := cachePart rreq.initiator rreq.targetAddress cache
    .replyFromCache {
      nOptDataLen := rrepOptDataLen (rreq.address.length + part.length + 1)
      address := rreq.initiator :: rreq.address ++ part
      nextHop := rreq.lastHop }

/-- **What becomes of a request** that has not been seen. -/
theorem processRreq_action {d : DeviceVar ι} {rreq : RreqOption ι} (time : ℚ)
    (hseen : checkEntryInRreqTable rreq d.rreqTable = false) :
    (processRreq d rreq time).2 =
      if rreq.targetAddress = d.address then .reply (generateRrep d rreq)
      else if checkIpInIpList rreq.address d.address then .discard
      else
        match (findCache d.routeCache rreq.targetAddress time).1 with
        | some c => cacheAction rreq c.address
        | none => .forward (rreq.address ++ [d.address]) ((4 * rreq.address.length + 6 + 4) % 256) := by
  unfold processRreq
  rw [hseen, if_neg Bool.false_ne_true]
  dsimp only
  have haddr : (addRreqTable d rreq 1).address = d.address := rfl
  have haddr' : (addRreqTable (addRreqTable d rreq 1) rreq 0).address = d.address := rfl
  have hcache : (addRreqTable (addRreqTable d rreq 1) rreq 0).routeCache = d.routeCache := rfl
  rw [haddr, haddr', hcache]
  split
  · rfl
  · split
    · rfl
    · cases hfind : findCache d.routeCache rreq.targetAddress time with
      | mk found l =>
        cases found with
        | none => rfl
        | some c =>
          have hagain := findCache_again hfind
          dsimp only
          unfold generateRrepUsingRouteCache cacheAction
          dsimp only
          rw [hagain]
          dsimp only
          cases validateRouteCache c.address rreq.address <;> rfl

/-! ### When it is as it should be -/

/-- A request that has not been seen is answered from the cache with a usable route, or else treated as without a cached
route. -/
def AnsweredWell (d : DeviceVar ι) (rreq : RreqOption ι) (time : ℚ) : Prop :=
  (∃ c rrep, (findCache d.routeCache rreq.targetAddress time).1 = some c ∧
    (processRreq d rreq time).2 = .replyFromCache rrep ∧
    Usable rreq.initiator rreq.targetAddress (rreq.initiator :: rreq.address ++ [d.address]) c.address rrep.route) ∨
  (processRreq d rreq time).2 = (processRreq { d with routeCache := [] } rreq time).2

/-- No listed node is on the cached route; the request's path and the part of the route behind the initiator repeat no
node and have at most 64 of them; and the request has come from its initiator, or the part starts at the node itself. -/
def Joins (me : ι) (rreq : RreqOption ι) (cache : List ι) : Prop :=
  (∀ a ∈ rreq.address, a ∉ cache) ∧
    (rreq.initiator :: rreq.address ++ behind rreq.initiator (upTo rreq.targetAddress cache)).Nodup ∧
    (rreq.address = [] ∨ (behind rreq.initiator (upTo rreq.targetAddress cache)).head? = some me) ∧
    rreq.address.length + (behind rreq.initiator (upTo rreq.targetAddress cache)).length + 1 ≤ 64

instance (me : ι) (rreq : RreqOption ι) (cache : List ι) : Decidable (Joins me rreq cache) := by
  unfold Joins
  infer_instance

theorem validate_iff {cache l : List ι} : validateRouteCache cache l = true ↔ ∀ a ∈ l, a ∉ cache := by
  simp only [validateRouteCache, List.all_eq_true, decide_eq_true_eq]
  constructor
  · intro h a ha hc
    exact h a hc a ha rfl
  · intro h x hx b hb hxb
    exact h b hb (hxb ▸ hx)

omit [DecidableEq ι] in
/-- What a receiver reads of a reply: all of it up to 64 addresses. -/
theorem route_eq (rreq : RreqOption ι) (part : List ι) :
    RrepOption.route (ι := ι) {
      nOptDataLen := rrepOptDataLen (rreq.address.length + part.length + 1)
      address := rreq.initiator :: rreq.address ++ part
      nextHop := rreq.lastHop } =
    (rreq.initiator :: rreq.address ++ part).take ((rreq.address.length + part.length) % 64 + 1) := by
  unfold RrepOption.route rrepOptDataLen
  dsimp only
  congr 1
  omega

/-- A route that does not fit is cut off before the target. -/
theorem not_usable_of_long {s t me : ι} {l cache : List ι} (ht : t ∈ cache) (hl : ∀ a ∈ l, a ∉ cache)
    (hshort : l.length ≤ 62) (hlong : 64 < l.length + (behind s (upTo t cache)).length + 1) :
    ¬ Usable s t (s :: l ++ [me]) cache
      ((s :: l ++ behind s (upTo t cache)).take ((l.length + (behind s (upTo t cache)).length) % 64 + 1)) := by
  intro h
  rcases behind_upTo_last (s := s) ht with ⟨p, hp, hnot⟩ | ⟨hnil, -⟩
  · have hst : s ≠ t := by
      rintro rfl
      obtain ⟨q, hq, hq'⟩ := upTo_concat ht
      have hmem : s ∈ upTo s cache := by
        rw [hq]
        exact List.mem_append_right _ (List.mem_singleton_self s)
      obtain ⟨q₁, hq₁⟩ := behind_of_mem hmem
      rw [hp, hq, ← List.cons_append, ← List.append_assoc] at hq₁
      have hqq := (List.append_inj' hq₁ rfl).1
      apply hq'
      rw [hqq]
      simp
    -- what is read ends before the last address, which alone is the target
    have hlast := h.last
    rw [hp] at hlast hlong
    rw [List.length_append, List.length_singleton] at hlast hlong
    have hcut : (s :: l ++ (p ++ [t])).take ((l.length + (p.length + 1)) % 64 + 1) =
        (s :: l ++ p).take ((l.length + (p.length + 1)) % 64 + 1) := by
      rw [← List.append_assoc, List.take_append_of_le_length]
      rw [List.length_append, List.length_cons]
      omega
    rw [hcut] at hlast
    have hin : t ∈ s :: l ++ p := List.mem_of_mem_take (List.mem_of_getLast? hlast)
    rcases List.mem_append.1 hin with hin | hin
    · rcases List.mem_cons.1 hin with rfl | hin
      · exact hst rfl
      · exact hl t hin ht
    · exact hnot hin
  · rw [hnil, List.length_nil] at hlong
    omega

/-- **The cached part joins the request's path** if and only if the reply is usable. -/
theorem cacheAction_usable_iff {me : ι} {rreq : RreqOption ι} {cache : List ι} (hstart : cache.head? = some me)
    (ht : rreq.targetAddress ∈ cache) :
    (∃ rrep, cacheAction rreq cache = .replyFromCache rrep ∧
      Usable rreq.initiator rreq.targetAddress (rreq.initiator :: rreq.address ++ [me]) cache rrep.route) ↔
    Joins me rreq cache := by
  unfold cacheAction Joins
  by_cases hv : validateRouteCache cache rreq.address = true
  · have hl := validate_iff.1 hv
    rw [hv, Bool.not_true, if_neg Bool.false_ne_true, cachePart_eq ht]
    have hroute := route_eq rreq (behind rreq.initiator (upTo rreq.targetAddress cache))
    constructor
    · rintro ⟨rrep, he, hu⟩
      obtain rfl := Action.replyFromCache.inj he
      rw [hroute] at hu
      by_cases hlen : rreq.address.length + (behind rreq.initiator (upTo rreq.targetAddress cache)).length + 1 ≤ 64
      · rw [Nat.mod_eq_of_lt (by omega), List.take_of_length_le (by simp)] at hu
        have h := (usable_iff hstart ht hl).1 hu
        exact ⟨hl, h.1, h.2, hlen⟩
      · exact absurd hu (not_usable_of_long ht hl rreq.length_le (by omega))
    · rintro ⟨-, hnd, hjoin, hlen⟩
      refine ⟨_, rfl, ?_⟩
      rw [hroute, Nat.mod_eq_of_lt (by omega), List.take_of_length_le (by simp)]
      exact (usable_iff hstart ht hl).2 ⟨hnd, hjoin⟩
  · have hv' : validateRouteCache cache rreq.address = false := by simpa using hv
    constructor
    · rintro ⟨rrep, he, -⟩
      rw [hv'] at he
      exact absurd he (by simp)
    · rintro ⟨hl, -⟩
      exact absurd (validate_iff.2 hl) hv

/-- **Replies from the cache.** A request that has not been seen is answered from the cache with a usable route, or
treated as without a cached route, if and only if there is no cached route for it or the one that is found joins its
path. -/
theorem cacheReply_iff (d : DeviceVar ι) (rreq : RreqOption ι) (time : ℚ)
    (hstart : ∀ c ∈ d.routeCache, c.address.head? = some d.address)
    (hseen : checkEntryInRreqTable rreq d.rreqTable = false) :
    AnsweredWell d rreq time ↔
      rreq.targetAddress = d.address ∨ d.address ∈ rreq.address ∨
        ∀ c, (findCache d.routeCache rreq.targetAddress time).1 = some c → Joins d.address rreq c.address := by
  have hwith := processRreq_action (d := d) time hseen
  have hwithout := processRreq_action (d := { d with routeCache := [] }) time hseen
  unfold AnsweredWell
  by_cases ht : rreq.targetAddress = d.address
  · rw [if_pos ht] at hwith hwithout
    refine ⟨fun _ => .inl ht, fun _ => .inr ?_⟩
    rw [hwith, hwithout]
    rfl
  rw [if_neg ht] at hwith hwithout
  by_cases hown : checkIpInIpList rreq.address d.address = true
  · rw [if_pos hown] at hwith hwithout
    refine ⟨fun _ => .inr (.inl (by simpa [checkIpInIpList] using hown)), fun _ => .inr ?_⟩
    rw [hwith, hwithout]
  have hnot : d.address ∉ rreq.address := by
    intro h
    apply hown
    simpa [checkIpInIpList] using h
  rw [if_neg hown] at hwith hwithout
  cases hfind : findCache d.routeCache rreq.targetAddress time with
  | mk found l =>
    rw [hfind] at hwith
    cases found with
    | none =>
      refine ⟨fun _ => .inr (.inr fun c hc => absurd hc (by simp)), fun _ => .inr ?_⟩
      rw [hwith, hwithout]
      rfl
    | some c =>
      obtain ⟨⟨c₀, hc₀, haddr⟩, hmem⟩ := findCache_mem hfind
      have hhead : c.address.head? = some d.address := by
        rw [← haddr]
        exact hstart c₀ hc₀
      have hiff := cacheAction_usable_iff hhead hmem
      dsimp only at hwith hwithout
      rw [hwith, hwithout]
      constructor
      · rintro (⟨c', rrep, hc', he, hu⟩ | he)
        · obtain rfl := Option.some.inj hc'
          refine .inr (.inr fun c'' hc'' => ?_)
          obtain rfl := Option.some.inj hc''
          exact hiff.1 ⟨rrep, he, hu⟩
        · exfalso
          have hne : cacheAction rreq c.address ≠
              .forward (rreq.address ++ [d.address]) ((4 * rreq.address.length + 6 + 4) % 256) := by
            unfold cacheAction
            split <;> simp
          exact hne he
      · rintro (h | h | h)
        · exact absurd h ht
        · exact absurd h hnot
        · obtain ⟨rrep, he, hu⟩ := hiff.2 (h c rfl)
          exact .inl ⟨c, rrep, rfl, he, hu⟩

/-! ### Samples -/

/-- Node `5` with a cached route. -/
def cachingDevice (address : List ℕ) : DeviceVar ℕ := ⟨5, 0, [], [⟨100, address⟩]⟩

/-- A request of node `1` for node `9` that has come by node `2`. -/
def relayedRreq : RreqOption ℕ := ⟨1, 1, 9, [2], by decide⟩

/-- The cached route leads away from the request. -/
theorem cacheReply_sample :
    (processRreq (cachingDevice [5, 3, 9]) relayedRreq 0).2 = .replyFromCache ⟨19, [1, 2, 5, 3, 9], 2⟩ ∧
      AnsweredWell (cachingDevice [5, 3, 9]) relayedRreq 0 := by
  refine ⟨by decide +kernel, (cacheReply_iff (cachingDevice [5, 3, 9]) relayedRreq 0 ?_ (by decide)).2 ?_⟩
  · intro c hc
    obtain rfl := List.mem_singleton.1 hc
    rfl
  · right
    right
    intro c hc
    have hfind : (findCache (cachingDevice [5, 3, 9]).routeCache relayedRreq.targetAddress 0).1 =
        some ⟨routeCacheTimeout, [5, 3, 9]⟩ := by decide +kernel
    rw [hfind] at hc
    obtain rfl := Option.some.inj hc
    decide

/-- **The initiator is on the cached route, and not a neighbour**: the reply joins node `2` to node `3`, and no one has
heard of such a hop. -/
theorem cacheReply_wrong :
    ¬ ∀ (d : DeviceVar ℕ) (rreq : RreqOption ℕ) (time : ℚ),
      (∀ c ∈ d.routeCache, c.address.head? = some d.address) →
      checkEntryInRreqTable rreq d.rreqTable = false → AnsweredWell d rreq time := by
  intro hall
  have h := hall (cachingDevice [5, 1, 3, 9]) relayedRreq 0 (by
    intro c hc
    obtain rfl := List.mem_singleton.1 hc
    rfl) (by decide)
  have hact : (processRreq (cachingDevice [5, 1, 3, 9]) relayedRreq 0).2 =
      .replyFromCache ⟨15, [1, 2, 3, 9], 2⟩ := by decide +kernel
  have hfind : (findCache (cachingDevice [5, 1, 3, 9]).routeCache relayedRreq.targetAddress 0).1 =
      some ⟨routeCacheTimeout, [5, 1, 3, 9]⟩ := by decide +kernel
  rcases h with ⟨c, rrep, hc, he, hu⟩ | he
  · rw [hfind] at hc
    obtain rfl := Option.some.inj hc
    rw [hact] at he
    obtain rfl := Action.replyFromCache.inj he
    have hhop := hu.hops 2 3 (by decide)
    exact absurd hhop (by decide)
  · rw [hact] at he
    exact absurd he (by decide)

end NetSim.Dsr
