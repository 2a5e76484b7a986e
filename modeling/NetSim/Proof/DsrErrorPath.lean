import NetSim.Spec.Dsr
import Mathlib.Data.List.Nodup

/-!
# The path of a DSR route error

No node takes anything off `nSegsLeft` of a packet that it forwards. A node that cannot forward a packet finds as many
segments left as the route has, so that its error has no way back; with 16 addresses or more, of which `nSegsLeft` holds
the last 4 bits, the error goes along the route forwards.

* `deleteEntryFromRouteCache_eq`: the routes that are deleted are those over the link.
* `processRerr_caches`: the caches of the nodes that the error comes to are cleaned, and no others.
* `processRerr_length`, `processRerr_head`: how far the error goes, and where first.
* `errorPath_iff`: so it goes back as it should only from the source itself, over less than 16 addresses.
* `errorPath_lost`: the error of the second node of a route.
-/

namespace NetSim.Dsr

variable {ι : Type*} [DecidableEq ι]

/-! ### The caches -/

omit [DecidableEq ι] in
theorem filter_eraseP (p : List ι → Bool) (l : List (List ι)) :
    (l.eraseP p).filter (fun r => !p r) = l.filter fun r => !p r := by
  induction l with
  | nil => rfl
  | cons r l ih =>
    by_cases h : p r = true
    · rw [List.eraseP_cons_of_pos h, List.filter_cons_of_neg (by simp [h])]
    · rw [List.eraseP_cons_of_neg h, List.filter_cons_of_pos (by simp [h]), List.filter_cons_of_pos (by simp [h]), ih]

/-- **The routes that are deleted** are those over the link, and an empty route is read beyond its end. -/
theorem deleteEntryFromRouteCache_eq (ip1 ip2 : ι) {fuel : ℕ} {l : List (List ι)} (h : l.length ≤ fuel) :
    deleteEntryFromRouteCache ip1 ip2 fuel l =
      if [] ∈ l then none else some (l.filter fun r => !usesLink ip1 ip2 r) := by
  induction fuel generalizing l with
  | zero =>
    obtain rfl := List.length_eq_zero_iff.1 (Nat.le_zero.1 h)
    rfl
  | succ fuel ih =>
    unfold deleteEntryFromRouteCache
    cases hfind : l.find? fun r => r.isEmpty || usesLink ip1 ip2 r with
    | none =>
      have hnone := List.find?_eq_none.1 hfind
      have hempty : [] ∉ l := fun hmem => hnone [] hmem rfl
      have hkeep : ∀ r ∈ l, (!usesLink ip1 ip2 r) = true := by
        intro r hr
        have hr := hnone r hr
        rw [Bool.or_eq_true, not_or, Bool.not_eq_true] at hr
        rw [Bool.not_eq_true', Bool.eq_false_iff]
        exact hr.2
      rw [if_neg hempty, List.filter_eq_self.2 hkeep]
    | some r =>
      have hr := List.mem_of_find?_eq_some hfind
      have hp := List.find?_some hfind
      cases r with
      | nil => rw [if_pos hr]
      | cons a r =>
        -- the first route over the link goes, and the loop starts again
        have hlen := List.length_eraseP_of_mem hr hp
        have hpos := List.length_pos_of_mem hr
        have hempty : [] ∈ l.eraseP (usesLink ip1 ip2) ↔ [] ∈ l := List.mem_eraseP_of_neg Bool.false_ne_true
        dsimp only
        rw [ih (by omega), filter_eraseP]
        simp only [hempty]

/-- A cache without the routes over a link. -/
def cleaned (ip1 ip2 : ι) (cache : List (List ι)) : List (List ι) := cache.filter fun r => !usesLink ip1 ip2 r

theorem cleaned_cleaned (ip1 ip2 : ι) (cache : List (List ι)) :
    cleaned ip1 ip2 (cleaned ip1 ip2 cache) = cleaned ip1 ip2 cache := by
  unfold cleaned
  rw [List.filter_filter]
  simp

omit [DecidableEq ι] in
theorem forwardRerr_cases {rerr rerr' : RerrPacket ι} {nextHop : ι} (h : forwardRerr rerr = some (nextHop, rerr')) :
    rerr.nSegsLeft = rerr'.nSegsLeft + 1 ∧ rerr'.errorSourceAddress = rerr.errorSourceAddress ∧
      rerr'.typeSpecificInformation = rerr.typeSpecificInformation ∧
      (rerr'.nSegsLeft ≠ 0 → nextHop = rerr.address[rerr'.nSegsLeft]?.getD rerr.szDestIp) := by
  unfold forwardRerr at h
  split at h
  · exact absurd h (by simp)
  · simp only [Option.some.injEq, Prod.mk.injEq] at h
    obtain ⟨rfl, rfl⟩ := h
    refine ⟨?_, rfl, rfl, ?_⟩
    · dsimp only
      omega
    · intro hne
      exact if_pos hne

/-- What one node does with an error. -/
theorem processRerr_succ {fuel : ℕ} {d : ι} {rerr : RerrPacket ι} {caches : ι → List (List ι)}
    {r : List ι × (ι → List (List ι))} (h : processRerr (fuel + 1) d rerr caches = some r) :
    [] ∉ caches d ∧ ∃ caches', caches' = Function.update caches d
        (cleaned rerr.errorSourceAddress rerr.typeSpecificInformation (caches d)) ∧
      (forwardRerr rerr = none ∧ r = ([d], caches') ∨ ∃ nextHop rerr' r', forwardRerr rerr = some (nextHop, rerr') ∧
        processRerr fuel nextHop rerr' caches' = some r' ∧ r = (d :: r'.1, r'.2)) := by
  unfold processRerr at h
  obtain ⟨cache, hdel, h⟩ := Option.bind_eq_some_iff.1 h
  rw [deleteEntryFromRouteCache_eq _ _ (Nat.le_refl _)] at hdel
  obtain ⟨hempty, hclean⟩ := Option.ite_none_left_eq_some.1 hdel
  obtain rfl := Option.some.inj hclean
  refine ⟨hempty, _, rfl, ?_⟩
  dsimp only at h
  cases hf : forwardRerr rerr with
  | none =>
    rw [hf] at h
    exact .inl ⟨rfl, (Option.some.inj h).symm⟩
  | some p =>
    rw [hf] at h
    obtain ⟨r', hr', h⟩ := Option.bind_eq_some_iff.1 h
    exact .inr ⟨p.1, p.2, r', rfl, hr', (Option.some.inj h).symm⟩

/-- **The caches** of the nodes that an error comes to are cleaned, and no others. -/
theorem processRerr_caches {fuel : ℕ} {d : ι} {rerr : RerrPacket ι} {caches : ι → List (List ι)}
    {r : List ι × (ι → List (List ι))} (h : processRerr fuel d rerr caches = some r) (v : ι) :
    r.2 v = if v ∈ r.1 then cleaned rerr.errorSourceAddress rerr.typeSpecificInformation (caches v) else caches v := by
  induction fuel generalizing d rerr caches r with
  | zero =>
    obtain rfl := Option.some.inj h
    rfl
  | succ fuel ih =>
    obtain ⟨-, caches', rfl, ⟨-, rfl⟩ | ⟨nextHop, rerr', r', hf, hrun, rfl⟩⟩ := processRerr_succ h
    · dsimp only
      by_cases hv : v = d
      · rw [hv, Function.update_self, if_pos (List.mem_singleton_self d)]
      · rw [Function.update_of_ne hv, if_neg (by simpa using hv)]
    · obtain ⟨-, hsrc, htype, -⟩ := forwardRerr_cases hf
      dsimp only
      rw [ih hrun, hsrc, htype]
      by_cases hv : v = d
      · rw [hv, Function.update_self, if_pos (List.mem_cons_self)]
        split
        · exact cleaned_cleaned _ _ _
        · rfl
      · rw [Function.update_of_ne hv]
        simp only [List.mem_cons, hv, false_or]

/-! ### The way of the error -/

omit [DecidableEq ι] in
theorem forwardRerr_eq_none {rerr : RerrPacket ι} : forwardRerr rerr = none ↔ rerr.nSegsLeft = 0 := by
  unfold forwardRerr
  split
  · rename_i h0
    exact ⟨fun _ => h0, fun _ => rfl⟩
  · rename_i h0
    exact ⟨fun h => absurd h (Option.some_ne_none _), fun h => absurd h h0⟩

theorem processRerr_length {fuel : ℕ} {d : ι} {rerr : RerrPacket ι} {caches : ι → List (List ι)}
    {r : List ι × (ι → List (List ι))} (h : processRerr fuel d rerr caches = some r) (hfuel : rerr.nSegsLeft < fuel) :
    r.1.length = rerr.nSegsLeft + 1 := by
  induction fuel generalizing d rerr caches r with
  | zero => omega
  | succ fuel ih =>
    obtain ⟨-, caches', -, ⟨hnone, rfl⟩ | ⟨nextHop, rerr', r', hf, hrun, rfl⟩⟩ := processRerr_succ h
    · rw [forwardRerr_eq_none.1 hnone]
      rfl
    · obtain ⟨hseg, -⟩ := forwardRerr_cases hf
      rw [List.length_cons, ih hrun (by omega), hseg]

theorem processRerr_head {fuel : ℕ} {d : ι} {rerr : RerrPacket ι} {caches : ι → List (List ι)}
    {r : List ι × (ι → List (List ι))} (h : processRerr (fuel + 1) d rerr caches = some r) : r.1[0]? = some d := by
  obtain ⟨-, caches', -, ⟨-, rfl⟩ | ⟨nextHop, rerr', r', -, -, rfl⟩⟩ := processRerr_succ h
  · rfl
  · rfl

/-- Where an error with more than one segment left goes first. -/
theorem processRerr_next {d : ι} {rerr : RerrPacket ι} {caches : ι → List (List ι)} {r : List ι × (ι → List (List ι))}
    {k : ℕ} (hk : rerr.nSegsLeft = k + 2) (h : processRerr (rerr.nSegsLeft + 1) d rerr caches = some r) :
    r.1[1]? = some (rerr.address[k + 1]?.getD rerr.szDestIp) := by
  obtain ⟨-, caches', -, ⟨hnone, -⟩ | ⟨nextHop, rerr', r', hf, hrun, rfl⟩⟩ := processRerr_succ h
  · have h0 := forwardRerr_eq_none.1 hnone
    omega
  · obtain ⟨hseg, -, -, hnext⟩ := forwardRerr_cases hf
    have hk' : rerr'.nSegsLeft = k + 1 := by omega
    rw [hk] at hrun
    rw [List.getElem?_cons_succ, processRerr_head hrun, hnext (by omega), hk']

/-! ### When it is the way back -/

/-- What `fn_NetSim_DSR_FillAddress` fills in: the addresses between the source and the destination. -/
def FillsBetween (fillAddress : List ι → ι → ι → List ι) : Prop :=
  ∀ (src : ι) (mid : List ι) (dest : ι) (rest : List ι), (src :: mid ++ dest :: rest).Nodup →
    fillAddress (src :: mid ++ dest :: rest) src dest = mid

/-- The error has come to the nodes of the route up to the failing one, backwards, and their caches have lost the routes
over the link; all else is as it was. -/
def ErrorReported (route : List ι) (j : ℕ) (ip1 ip2 : ι) (caches : ι → List (List ι))
    (r : List ι × (ι → List (List ι))) : Prop :=
  r.1 = (route.take (j + 1)).reverse ∧
    ∀ v, r.2 v = if v ∈ route.take (j + 1) then cleaned ip1 ip2 (caches v) else caches v

omit [DecidableEq ι] in
/-- The segments that an error starts with. -/
theorem generateRerr_nSegsLeft {fillAddress : List ι → ι → ι → List ι} {route mid : List ι} {src dest : ι}
    (h : fillAddress route src dest = mid) (d nextHop : ι) :
    (generateRerr d nextHop (addSourceRouteOption fillAddress route src dest)).nSegsLeft =
      mid.length % 64 - mid.length % 16 := by
  unfold generateRerr addSourceRouteOption
  dsimp only
  rw [h]
  omega

omit [DecidableEq ι] in
/-- The last address of an error is the first of the source route. -/
theorem generateRerr_last {fillAddress : List ι → ι → ι → List ι} {route mid : List ι} {src dest : ι}
    (h : fillAddress route src dest = mid) (d nextHop : ι) {k : ℕ}
    (hk : (generateRerr d nextHop (addSourceRouteOption fillAddress route src dest)).nSegsLeft = k + 2) :
    (generateRerr d nextHop (addSourceRouteOption fillAddress route src dest)).address[k + 1]? =
      some (mid[0]?.getD src) := by
  unfold generateRerr addSourceRouteOption at hk ⊢
  dsimp only at hk ⊢
  rw [hk, h, List.getElem?_map, List.getElem?_range (by omega), Option.map_some]
  have h0 : k + 2 - (k + 1) - 1 = 0 := by omega
  rw [h0]

/-- **The error goes back as it should** if and only if the source itself has found the link broken, the addresses between
it and the destination are less than 16, but for multiples of 64, and the source has no empty route. -/
theorem errorPath_iff {fillAddress : List ι → ι → ι → List ι} (hfill : FillsBetween fillAddress) {src dest : ι}
    {mid rest : List ι} (hnd : (src :: mid ++ dest :: rest).Nodup) {j : ℕ} {d nextHop : ι} (hj : j ≤ mid.length)
    (hd : (src :: mid ++ dest :: rest)[j]? = some d) (caches : ι → List (List ι)) :
    (∃ r, reportError fillAddress (src :: mid ++ dest :: rest) src dest d nextHop caches = some r ∧
        ErrorReported (src :: mid ++ dest :: rest) j d nextHop caches r) ↔
      j = 0 ∧ mid.length % 64 < 16 ∧ [] ∉ caches src := by
  have hmid := hfill src mid dest rest hnd
  have hseg := generateRerr_nSegsLeft hmid d nextHop
  have hlast := fun k => generateRerr_last hmid d nextHop (k := k)
  unfold reportError
  dsimp only
  have hsrc : (generateRerr d nextHop (addSourceRouteOption fillAddress (src :: mid ++ dest :: rest) src
      dest)).errorSourceAddress = d := rfl
  have htype : (generateRerr d nextHop (addSourceRouteOption fillAddress (src :: mid ++ dest :: rest) src
      dest)).typeSpecificInformation = nextHop := rfl
  generalize generateRerr d nextHop (addSourceRouteOption fillAddress (src :: mid ++ dest :: rest) src dest) = rerr
    at hseg hlast hsrc htype
  have htake : ((src :: mid ++ dest :: rest).take (j + 1)).length = j + 1 := by
    rw [List.length_take, List.length_append, List.length_cons, List.length_cons]
    omega
  constructor
  · rintro ⟨r, hrun, hway, -⟩
    have hlen := processRerr_length hrun (Nat.lt_succ_self rerr.nSegsLeft)
    have hlenj := congrArg List.length hway
    rw [hlen, List.length_reverse, htake] at hlenj
    -- the way is as long as it should be only if the segments are those of the hops
    rcases Nat.eq_zero_or_pos rerr.nSegsLeft with h0 | hpos
    · obtain rfl : j = 0 := by omega
      obtain rfl : src = d := Option.some.inj hd
      exact ⟨rfl, by omega, (processRerr_succ hrun).1⟩
    · exfalso
      obtain ⟨k, hk⟩ : ∃ k, rerr.nSegsLeft = k + 2 := ⟨rerr.nSegsLeft - 2, by omega⟩
      have hk14 : 14 ≤ k := by omega
      have hnext := processRerr_next hk hrun
      rw [hway, hlast k hk, Option.getD_some, List.getElem?_reverse (by omega), htake] at hnext
      have hidx : j + 1 - 1 - 1 = k + 1 := by omega
      rw [hidx, List.getElem?_take_of_lt (by omega)] at hnext
      have hk1 : (src :: mid ++ dest :: rest)[k + 1]? = mid[k]? := by
        rw [List.cons_append, List.getElem?_cons_succ, List.getElem?_append_left (by omega)]
      rw [hk1, List.getElem?_eq_getElem (show k < mid.length by omega),
        List.getElem?_eq_getElem (show 0 < mid.length by omega), Option.getD_some, Option.some.injEq] at hnext
      have hmidnd : mid.Nodup := by
        have h1 : (mid ++ dest :: rest).Nodup := (List.nodup_cons.1 hnd).2
        exact h1.sublist (List.sublist_append_left _ _)
      have := (List.Nodup.getElem_inj_iff hmidnd).1 hnext
      omega
  · rintro ⟨rfl, hshort, hempty⟩
    have h0 : rerr.nSegsLeft = 0 := by omega
    obtain rfl : src = d := Option.some.inj hd
    have hrun : processRerr (rerr.nSegsLeft + 1) src rerr caches =
        some ([src], Function.update caches src (cleaned src nextHop (caches src))) := by
      unfold processRerr
      rw [deleteEntryFromRouteCache_eq _ _ (Nat.le_refl _), if_neg hempty, hsrc, htype]
      dsimp only [Option.bind_eq_bind, Option.bind_some]
      rw [forwardRerr_eq_none.2 h0]
      rfl
    refine ⟨_, hrun, rfl, fun v => ?_⟩
    have hcaches := processRerr_caches hrun v
    rwa [hsrc, htype] at hcaches

/-! ### Samples -/

/-- The addresses behind the source and before the destination. -/
def fillBetween (cache : List ι) (src dest : ι) : List ι :=
  ((cache.dropWhile fun a => a ≠ src).drop 1).takeWhile fun a => a ≠ dest

theorem fillBetween_fills : FillsBetween (fillBetween (ι := ι)) := by
  intro src mid dest rest hnd
  unfold fillBetween
  rw [List.cons_append, List.dropWhile_cons_of_neg (by simp), List.drop_one, List.tail_cons]
  have h1 : (mid ++ dest :: rest).Nodup := (List.nodup_cons.1 hnd).2
  have hmid : ∀ a ∈ mid, decide (a ≠ dest) = true := by
    intro a ha
    rw [decide_eq_true_eq]
    rintro rfl
    exact (List.disjoint_of_nodup_append h1) ha List.mem_cons_self
  rw [List.takeWhile_append_of_pos hmid, List.takeWhile_cons_of_neg (by simp), List.append_nil]

/-- The source of a route over two nodes does not reach the first. -/
theorem errorPath_sample :
    ∃ r, reportError fillBetween [1, 2, 3, 4] 1 4 1 2 (fun v => if v = 1 then [[1, 2, 3, 4], [1, 5]] else []) = some r ∧
      ErrorReported [1, 2, 3, 4] 0 1 2 (fun v => if v = 1 then [[1, 2, 3, 4], [1, 5]] else []) r :=
  (@errorPath_iff ℕ _ fillBetween fillBetween_fills 1 4 [2, 3] [] (by decide) 0 1 2 (by decide) rfl _).2
    ⟨rfl, by decide, by decide⟩

/-- **The error of the second node stays there**: the source never hears of it. -/
theorem errorPath_lost :
    ¬ ∀ (src dest : ℕ) (mid rest : List ℕ) (j d nextHop : ℕ) (caches : ℕ → List (List ℕ)),
      (src :: mid ++ dest :: rest).Nodup → j ≤ mid.length → (src :: mid ++ dest :: rest)[j]? = some d →
      (src :: mid ++ dest :: rest)[j + 1]? = some nextHop → (∀ v, [] ∉ caches v) →
      ∃ r, reportError fillBetween (src :: mid ++ dest :: rest) src dest d nextHop caches = some r ∧
        ErrorReported (src :: mid ++ dest :: rest) j d nextHop caches r := by
  intro hall
  obtain ⟨r, hrun, hway, -⟩ :=
    hall 1 3 [2] [] 1 2 3 (fun _ => []) (by decide) (by decide) rfl rfl fun _ => List.not_mem_nil
  have hstays : (reportError fillBetween [1, 2, 3] 1 3 2 3 (fun _ => [])).map Prod.fst = some [2] := by decide
  have hback : (([1, 2, 3] : List ℕ).take (1 + 1)).reverse = [2, 1] := rfl
  have hrun' : reportError fillBetween [1, 2, 3] 1 3 2 3 (fun _ => []) = some r := hrun
  rw [hrun', Option.map_some, hway] at hstays
  exact absurd (hback.symm.trans (Option.some.inj hstays)) (by decide)

end NetSim.Dsr
