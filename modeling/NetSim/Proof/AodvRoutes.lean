import Mathlib.Data.Prod.Lex
import NetSim.Spec.Aodv

/-!
# AODV routes
-/

/-!
## The route table of an AODV node

What an insertion leaves in the table, and the changes that insert nothing: they keep the routes, and make none
of them valid.

* `insert_none`, `insert_some`: an insertion that creates an entry, and one that overwrites one.
* `inserted_of_accepts`: both, where the next hop that stays is the sender.
* `Tame`: the other changes.
-/

namespace NetSim.Aodv

variable {ν : Type} {dev dev' : Device ν} {e e' : RouteEntry ν} {table : List (RouteEntry ν)}
  {now lifeTime : ℚ} {ip last : ν} {seq hop : ℕ}

/-! ## The order of routes -/

/-- A newer sequence number is better, and with the same number fewer hops are. -/
def routeKey (seq hop : ℕ) : ℕ ×ₗ ℕᵒᵈ := toLex (seq, OrderDual.toDual hop)

theorem routeKey_lt {seq' hop' : ℕ} :
    routeKey seq hop < routeKey seq' hop' ↔ seq < seq' ∨ seq = seq' ∧ hop' < hop := by
  unfold routeKey
  rw [Prod.Lex.toLex_lt_toLex, OrderDual.toDual_lt_toDual]

theorem routeKey_le {seq' hop' : ℕ} :
    routeKey seq hop ≤ routeKey seq' hop' ↔ seq < seq' ∨ seq = seq' ∧ hop' ≤ hop := by
  unfold routeKey
  rw [Prod.Lex.toLex_le_toLex, OrderDual.toDual_le_toDual]

/-- A valid entry for the destination. -/
def RouteEntry.IsFor (e : RouteEntry ν) (ip : ν) : Prop :=
  e.destinationIPAddress = ip ∧ e.routingFlags = .valid

/-- No destination has two valid entries. -/
def Unique (table : List (RouteEntry ν)) : Prop :=
  table.Pairwise fun e e' => ∀ ip, e.IsFor ip → ¬ e'.IsFor ip

/-- A valid entry that does not give way is not worse than what is inserted. -/
theorem le_of_not_isOutdated (h : e.isOutdated seq hop = false) :
    routeKey seq (hop + 1) ≤ routeKey e.destinationSequenceNumber e.hopCount := by
  unfold RouteEntry.isOutdated at h
  rw [routeKey_le]
  split at h
  · cases h
  · split at h
    · cases h
    · split at h
      · omega
      · have hhop := of_decide_eq_false h
        omega

/-- The number of valid entries for destinations of a kind. -/
def validFor (p : ν → Bool) (table : List (RouteEntry ν)) : ℕ :=
  table.countP fun e => p e.destinationIPAddress && decide (e.routingFlags = .valid)

/-! ## Changes that insert nothing -/

/-- The same route, which is valid only if it was. -/
structure RouteEntry.Weakens (e e' : RouteEntry ν) : Prop where
  destination : e'.destinationIPAddress = e.destinationIPAddress
  seq : e'.destinationSequenceNumber = e.destinationSequenceNumber
  hop : e'.hopCount = e.hopCount
  nextHop : e'.nextHop = e.nextHop
  learntFrom : e'.learntFrom = e.learntFrom
  valid : e'.routingFlags = .valid → e.routingFlags = .valid

theorem RouteEntry.Weakens.refl (e : RouteEntry ν) : e.Weakens e := ⟨rfl, rfl, rfl, rfl, rfl, id⟩

theorem RouteEntry.Weakens.isFor (h : e.Weakens e') (hfor : e'.IsFor ip) : e.IsFor ip :=
  ⟨h.destination ▸ hfor.1, h.valid hfor.2⟩

/-- **A change that inserts nothing.** -/
structure Tame (dev dev' : Device ν) : Prop where
  stored : dev'.stored = dev.stored
  entries : ∀ e' ∈ dev'.routeTable, ∃ e ∈ dev.routeTable, e.Weakens e'
  unique : Unique dev.routeTable → Unique dev'.routeTable
  validFor_le : ∀ p, validFor p dev'.routeTable ≤ validFor p dev.routeTable

theorem Tame.of_eq (hstored : dev'.stored = dev.stored) (htable : dev'.routeTable = dev.routeTable) :
    Tame dev dev' where
  stored := hstored
  entries e he := ⟨e, htable ▸ he, .refl e⟩
  unique h := htable.symm ▸ h
  validFor_le p := by rw [htable]

theorem Tame.of_map {f : RouteEntry ν → RouteEntry ν} (hf : ∀ e : RouteEntry ν, e.Weakens (f e))
    (hstored : dev'.stored = dev.stored) (htable : dev'.routeTable = dev.routeTable.map f) : Tame dev dev' where
  stored := hstored
  entries e' he' := by
    rw [htable] at he'
    obtain ⟨e, he, rfl⟩ := List.mem_map.1 he'
    exact ⟨e, he, hf e⟩
  unique h := by
    unfold Unique
    rw [htable]
    refine List.pairwise_map.2 (h.imp fun {a b} hab ip ha hb => ?_)
    exact hab ip ((hf a).isFor ha) ((hf b).isFor hb)
  validFor_le p := by
    unfold validFor
    rw [htable, List.countP_map]
    refine List.countP_mono_left fun e _ he => ?_
    obtain ⟨hp, hvalid⟩ := Bool.and_eq_true_iff.1 he
    rw [(hf e).destination] at hp
    exact Bool.and_eq_true_iff.2 ⟨hp, decide_eq_true ((hf e).valid (of_decide_eq_true hvalid))⟩

theorem Tame.of_sublist (hstored : dev'.stored = dev.stored) (htable : dev'.routeTable.Sublist dev.routeTable) :
    Tame dev dev' where
  stored := hstored
  entries e he := ⟨e, htable.subset he, .refl e⟩
  unique h := h.sublist htable
  validFor_le _ := htable.countP_le

theorem tame_breakRoutes (now : ℚ) (hit : RouteEntry ν → Bool) (dev : Device ν) :
    Tame dev (dev.breakRoutes now hit) := by
  refine Tame.of_map (fun e => ?_) rfl rfl
  unfold RouteEntry.breakIf
  split
  · exact ⟨rfl, rfl, rfl, rfl, rfl, fun h => by cases h⟩
  · exact .refl e

/-- An entry may give way to one that is valid for no other destination. -/
theorem unique_replace {l₁ l₂ : List (RouteEntry ν)} (hu : Unique (l₁ ++ e :: l₂)) (hsame : ∀ ip, e'.IsFor ip → e.IsFor ip) :
    Unique (l₁ ++ e' :: l₂) := by
  obtain ⟨hu₁, hu₂, hu₁₂⟩ := List.pairwise_append.1 hu
  obtain ⟨hafter, hu₂⟩ := List.pairwise_cons.1 hu₂
  refine List.pairwise_append.2 ⟨hu₁, List.pairwise_cons.2 ⟨fun x hx ip hip => ?_, hu₂⟩, fun x hx y hy => ?_⟩
  · exact hafter x hx ip (hsame ip hip)
  · intro ip hip hy'
    rcases List.mem_cons.1 hy with rfl | hy
    · exact hu₁₂ x hx e List.mem_cons_self ip hip (hsame ip hy')
    · exact hu₁₂ x hx y (List.mem_cons_of_mem e hy) ip hip hy'

variable [DecidableEq ν]

theorem tame_updateRouteTable (ip : ν) (lifetime : ℚ) (dev : Device ν) :
    Tame dev (dev.updateRouteTable ip lifetime) := by
  refine Tame.of_map (fun e => ?_) rfl rfl
  split
  · exact ⟨rfl, rfl, rfl, rfl, rfl, id⟩
  · exact .refl e

theorem dropExpired_sublist (dest : ν) (now : ℚ) (table : List (RouteEntry ν)) :
    (Device.dropExpired dest now table).Sublist table := by
  induction table generalizing now with
  | nil => exact .slnil
  | cons e table ih =>
    unfold Device.dropExpired
    split
    · split
      · exact (ih now).cons e
      · exact (ih e.lifetime).cons_cons e
    · exact (ih now).cons_cons e

theorem tame_activeRouteTimeoutEvent (now : ℚ) (dest : ν) (dev : Device ν) :
    Tame dev (dev.activeRouteTimeoutEvent now dest) := Tame.of_sublist rfl (dropExpired_sublist dest now _)

/-! ## Insertion -/

/-- Whether `fn_NetSim_AODV_InsertInRouteTable` puts a route into the table. -/
def Device.accepts (dev : Device ν) (ip : ν) (seqNumber hopCount : ℕ) : Bool :=
  (findValid dev.routeTable ip).all fun entry => entry.isOutdated seqNumber hopCount

theorem findValid_isFor (h : findValid table ip = some e) : e ∈ table ∧ e.IsFor ip :=
  ⟨List.mem_of_find?_eq_some h, by simpa [RouteEntry.IsFor] using List.find?_some h⟩

theorem findValid_eq_none : findValid table ip = none ↔ ∀ e ∈ table, ¬ e.IsFor ip := by
  unfold findValid
  rw [List.find?_eq_none]
  exact forall_congr' fun e => forall_congr' fun _ => not_congr decide_eq_true_iff

theorem findValid_of_mem (hu : Unique table) (he : e ∈ table) (hfor : e.IsFor ip) :
    findValid table ip = some e := by
  induction table with
  | nil => cases he
  | cons x table ih =>
    obtain ⟨hx, hu⟩ := List.pairwise_cons.1 hu
    unfold findValid
    rcases List.mem_cons.1 he with rfl | he
    · exact List.find?_cons_of_pos (decide_eq_true hfor)
    · have hne : ¬ x.IsFor ip := fun h => hx e he ip h hfor
      rw [List.find?_cons_of_neg (by rw [decide_eq_true_iff]; exact hne)]
      exact ih hu he

/-- The entry that an insertion leaves, with what else is in the table. -/
structure Inserted (dev dev' : Device ν) (ip : ν) (seq hop : ℕ) (last : ν) (n : RouteEntry ν) : Prop where
  stored : dev'.stored = dev.stored ++ [⟨ip, seq, hop⟩]
  unique : Unique dev'.routeTable
  others : ∀ e ∈ dev'.routeTable, e = n ∨ e ∈ dev.routeTable ∧ ¬ e.IsFor ip
  isFor : n.IsFor ip
  seq_eq : n.destinationSequenceNumber = seq
  hop_eq : n.hopCount = hop
  nextHop : n.nextHop = last
  learntFrom : n.learntFrom = last

theorem insert_none (hu : Unique dev.routeTable) (h : findValid dev.routeTable ip = none) :
    Inserted dev (dev.insertInRouteTable now ip seq hop last lifeTime) ip seq hop last
      (newEntry now ip seq hop last lifeTime) := by
  have hinsert : dev.insertInRouteTable now ip seq hop last lifeTime = { dev with
      routeTable := dev.routeTable ++ [newEntry now ip seq hop last lifeTime]
      stored := dev.stored ++ [⟨ip, seq, hop⟩] } := by
    unfold Device.insertInRouteTable
    rw [h]
  have hfor : (newEntry now ip seq hop last lifeTime).IsFor ip := ⟨rfl, rfl⟩
  have hnone := findValid_eq_none.1 h
  rw [hinsert]
  refine ⟨rfl, ?_, fun e he => ?_, hfor, rfl, rfl, rfl, rfl⟩
  · refine List.pairwise_append.2 ⟨hu, List.pairwise_singleton _ _, fun e he e' he' ip' hip hip' => ?_⟩
    rw [List.mem_singleton.1 he'] at hip'
    have heq : ip = ip' := hip'.1
    exact hnone e he (heq ▸ hip)
  · rcases List.mem_append.1 he with he | he
    · exact .inr ⟨he, hnone e he⟩
    · exact .inl (List.mem_singleton.1 he)

theorem insert_some (hu : Unique dev.routeTable) (h : findValid dev.routeTable ip = some e)
    (hout : e.isOutdated seq hop = true) (hnext : e.nextHop = last) :
    Inserted dev (dev.insertInRouteTable now ip seq hop last lifeTime) ip seq hop last
      (e.insert seq hop last lifeTime) := by
  have hinsert : dev.insertInRouteTable now ip seq hop last lifeTime = { dev with
      routeTable := FirstMatch.replaceFirst
        (fun entry => entry.destinationIPAddress = ip ∧ entry.routingFlags = .valid)
        (e.insert seq hop last lifeTime) dev.routeTable
      stored := dev.stored ++ [⟨ip, seq, hop⟩] } := by
    unfold Device.insertInRouteTable
    rw [h]
    exact if_pos hout
  obtain ⟨-, hfor⟩ := findValid_isFor h
  have hfor' : (e.insert seq hop last lifeTime).IsFor ip := ⟨hfor.1, rfl⟩
  -- the entry is replaced by one that is valid for the same destination
  obtain ⟨l₁, l₂, hfirst, hsplit, hrep⟩ := FirstMatch.replaceFirst_of_find? h (e.insert seq hop last lifeTime)
  rw [hinsert]
  rw [hsplit] at hu
  have hsame : ∀ ip', (e.insert seq hop last lifeTime).IsFor ip' → e.IsFor ip' := by
    intro ip' hip'
    exact ⟨hip'.1, hfor.2⟩
  obtain ⟨hafter, -⟩ := List.pairwise_cons.1 (List.pairwise_append.1 hu).2.1
  refine ⟨rfl, ?_, fun x hx => ?_, hfor', rfl, rfl, hnext, rfl⟩
  · show Unique (FirstMatch.replaceFirst _ _ _)
    rw [hrep]
    exact unique_replace hu hsame
  · have hx' : x ∈ FirstMatch.replaceFirst _ _ _ := hx
    rw [hrep] at hx'
    rw [hsplit]
    rcases List.mem_append.1 hx' with hx | hx
    · exact .inr ⟨List.mem_append_left _ hx, fun hip => of_decide_eq_false (hfirst x hx) hip⟩
    · rcases List.mem_cons.1 hx with rfl | hx
      · exact .inl rfl
      · exact .inr ⟨List.mem_append_right _ (List.mem_cons_of_mem e hx), fun hip => hafter x hx ip hfor hip⟩

/-- **An insertion**, where an entry that is overwritten has the sender as its next hop. -/
theorem inserted_of_accepts (now lifeTime : ℚ) (hu : Unique dev.routeTable) (hacc : dev.accepts ip seq hop = true)
    (hnext : ∀ e ∈ findValid dev.routeTable ip, e.nextHop = last) :
    ∃ n, Inserted dev (dev.insertInRouteTable now ip seq hop last lifeTime) ip seq hop last n := by
  unfold Device.accepts at hacc
  cases h : findValid dev.routeTable ip with
  | none => exact ⟨_, insert_none hu h⟩
  | some e =>
    rw [h, Option.all_some] at hacc
    exact ⟨_, insert_some hu h hacc (hnext e h)⟩

theorem insert_of_not_accepts (now lifeTime : ℚ) (last : ν) (hacc : dev.accepts ip seq hop = false) :
    dev.insertInRouteTable now ip seq hop last lifeTime = dev ∧
      ∃ e ∈ dev.routeTable, e.IsFor ip ∧
        routeKey seq (hop + 1) ≤ routeKey e.destinationSequenceNumber e.hopCount := by
  unfold Device.accepts at hacc
  cases h : findValid dev.routeTable ip with
  | none =>
    rw [h] at hacc
    cases hacc
  | some e =>
    rw [h, Option.all_some] at hacc
    refine ⟨?_, e, (findValid_isFor h).1, (findValid_isFor h).2, le_of_not_isOutdated hacc⟩
    unfold Device.insertInRouteTable
    rw [h]
    exact if_neg (by rw [hacc]; decide)

theorem insertInRouteTable_insertInRreqSeenTable (originator nextHop : ν) (rreqId : ℕ) (dev : Device ν) :
    (dev.insertInRreqSeenTable originator rreqId).insertInRouteTable now ip seq hop nextHop lifeTime =
      (dev.insertInRouteTable now ip seq hop nextHop lifeTime).insertInRreqSeenTable originator rreqId := by
  unfold Device.insertInRouteTable Device.insertInRreqSeenTable
  dsimp only
  split
  · rfl
  · split <;> rfl

end NetSim.Aodv

/-!
## The routes of a network of AODV nodes

Where every insertion keeps the next hop and puts in more than the node ever knew, the key of the entries does not
fall from a node to its next hop, and where it stays the same, the route of the next hop was inserted before.

* `LoopInv`: the invariant.
* `LoopInv.of_tame`, `LoopInv.of_inserted`: it is kept by the two kinds of change.
-/

namespace NetSim.Aodv

open Net

variable {ν : Type} {s s' : Net ν} {d ip last u w : ν} {seq hop : ℕ} {e n : RouteEntry ν}

/-! ## The invariant -/

/-- The key of what is in an entry. -/
def RouteEntry.key (e : RouteEntry ν) : ℕ ×ₗ ℕᵒᵈ := routeKey e.destinationSequenceNumber e.hopCount

/-- What the entries of one table have to do with what was put into it. -/
structure TableInv (dev : Device ν) : Prop where
  unique : Unique dev.routeTable
  recorded : ∀ e ∈ dev.routeTable,
    ⟨e.destinationIPAddress, e.destinationSequenceNumber, e.hopCount⟩ ∈ dev.stored
  hop : ∀ e ∈ dev.routeTable, e.hopCount < 256
  learnt : ∀ e ∈ dev.routeTable, e.nextHop = e.learntFrom
  best : ∀ d, ∀ e ∈ dev.routeTable, e.IsFor d → e.nextHop ≠ d → ∀ k ∈ dev.stored, k.destination = d →
    routeKey k.seq k.hop ≤ e.key

/-- The node is the destination, or it has put a route into its table that is as good. -/
def Vouched (s : Net ν) (d : ν) (seq hop : ℕ) (w : ν) : Prop :=
  w = d ∨ ∃ k ∈ (s.dev w).stored, k.destination = d ∧ routeKey seq hop ≤ routeKey k.seq k.hop

/-- The node that has sent a packet vouches for the route in it. -/
def Body.IsVouched (s : Net ν) : Body ν → Prop
  | .rreq r => Vouched s r.originatorIPAddress r.originatorSequenceNumber r.hopCount.toNat r.lastAddress
  | .rrep r => Vouched s r.destinationIPaddress r.destinationSequenceNumber r.hopCount.toNat r.lastAddress
  | .rerr _ => True

/-- Where the key stays the same along a next hop, a rank falls. -/
def Ranked (s : Net ν) (d : ν) : Prop :=
  ∃ (rank : ν → ℕ) (N : ℕ), (∀ v, rank v < N) ∧ ∀ u, ∀ e ∈ (s.dev u).routeTable, e.IsFor d → e.nextHop ≠ d →
    ∀ f ∈ (s.dev e.nextHop).routeTable, f.IsFor d → f.nextHop ≠ d → e.key = f.key → rank e.nextHop < rank u

structure LoopInv (s : Net ν) : Prop where
  tables : ∀ u, TableInv (s.dev u)
  vouched : ∀ u, ∀ e ∈ (s.dev u).routeTable,
    Vouched s e.destinationIPAddress e.destinationSequenceNumber e.hopCount e.nextHop
  packets : ∀ p ∈ s.network, p.body.IsVouched s
  ranked : ∀ d, Ranked s d

theorem Vouched.mono (h : Vouched s d seq hop w) (hgrow : (s.dev w).stored ⊆ (s'.dev w).stored) :
    Vouched s' d seq hop w := by
  rcases h with h | ⟨k, hk, hkey⟩
  · exact .inl h
  · exact .inr ⟨k, hgrow hk, hkey⟩

theorem Body.IsVouched.mono {body : Body ν} (h : body.IsVouched s) (hgrow : ∀ w, (s.dev w).stored ⊆ (s'.dev w).stored) :
    body.IsVouched s' := by
  cases body with
  | rreq r => exact Vouched.mono h (hgrow _)
  | rrep r => exact Vouched.mono h (hgrow _)
  | rerr r => trivial

/-! ## Changes that insert nothing -/

theorem RouteEntry.Weakens.key {e e' : RouteEntry ν} (h : e.Weakens e') : e'.key = e.key := by
  unfold RouteEntry.key
  rw [h.seq, h.hop]

theorem Tame.grow {dev dev' : Device ν} (ht : Tame dev dev') : dev.stored ⊆ dev'.stored := by
  rw [ht.stored]
  exact List.Subset.refl _

theorem TableInv.of_tame {dev dev' : Device ν} (h : TableInv dev) (ht : Tame dev dev') : TableInv dev' where
  unique := ht.unique h.unique
  recorded e' he' := by
    obtain ⟨e, he, hw⟩ := ht.entries e' he'
    rw [ht.stored, hw.destination, hw.seq, hw.hop]
    exact h.recorded e he
  hop e' he' := by
    obtain ⟨e, he, hw⟩ := ht.entries e' he'
    rw [hw.hop]
    exact h.hop e he
  learnt e' he' := by
    obtain ⟨e, he, hw⟩ := ht.entries e' he'
    rw [hw.nextHop, hw.learntFrom]
    exact h.learnt e he
  best d e' he' hfor hne := by
    obtain ⟨e, he, hw⟩ := ht.entries e' he'
    rw [ht.stored, hw.key]
    rw [hw.nextHop] at hne
    exact h.best d e he (hw.isFor hfor) hne

theorem Ranked.of_tame (h : Ranked s d) (ht : ∀ u, Tame (s.dev u) (s'.dev u)) : Ranked s' d := by
  obtain ⟨rank, N, hN, hrank⟩ := h
  refine ⟨rank, N, hN, fun u e' he' hfor hne f' hf' hfor' hne' hkey => ?_⟩
  obtain ⟨e, he, hw⟩ := (ht u).entries e' he'
  obtain ⟨f, hf, hw'⟩ := (ht _).entries f' hf'
  rw [hw.nextHop] at hne hf ⊢
  rw [hw'.nextHop] at hne'
  rw [hw.key, hw'.key] at hkey
  exact hrank u e he (hw.isFor hfor) hne f hf (hw'.isFor hfor') hne' hkey

/-- **A step that inserts nothing**, and that sends only what the sender vouches for. -/
theorem LoopInv.of_tame (h : LoopInv s) (ht : ∀ u, Tame (s.dev u) (s'.dev u))
    (hp : ∀ p ∈ s'.network, p ∈ s.network ∨ p.body.IsVouched s') : LoopInv s' where
  tables u := (h.tables u).of_tame (ht u)
  vouched u e' he' := by
    obtain ⟨e, he, hw⟩ := (ht u).entries e' he'
    rw [hw.destination, hw.seq, hw.hop, hw.nextHop]
    exact (h.vouched u e he).mono (ht _).grow
  packets p hpn := by
    rcases hp p hpn with hold | hnew
    · exact (h.packets p hold).mono fun w => (ht w).grow
    · exact hnew
  ranked d := (h.ranked d).of_tame ht

/-! ## Insertion -/

/-- An insertion puts in more than the node ever knew, or the sender is the destination. -/
def Exceeds (dev : Device ν) (ip last : ν) (seq hop : ℕ) : Prop :=
  last ≠ ip → ∀ k ∈ dev.stored, k.destination = ip → routeKey k.seq k.hop < routeKey seq hop

theorem Inserted.key {dev dev' : Device ν} (hi : Inserted dev dev' ip seq hop last n) : n.key = routeKey seq hop := by
  unfold RouteEntry.key
  rw [hi.seq_eq, hi.hop_eq]

/-- An entry for another destination was there before. -/
theorem Inserted.old {dev dev' : Device ν} (hi : Inserted dev dev' ip seq hop last n) (he : e ∈ dev'.routeTable)
    (hfor : e.IsFor d) (hd : d ≠ ip) : e ∈ dev.routeTable := by
  rcases hi.others e he with rfl | ⟨he, -⟩
  · exact absurd (hfor.1.symm.trans hi.isFor.1) hd
  · exact he

/-- The entry for the destination is the one that the insertion leaves. -/
theorem Inserted.eq {dev dev' : Device ν} (hi : Inserted dev dev' ip seq hop last n) (he : e ∈ dev'.routeTable)
    (hfor : e.IsFor ip) : e = n := by
  rcases hi.others e he with rfl | ⟨-, hnot⟩
  · rfl
  · exact absurd hfor hnot

theorem TableInv.of_inserted {dev dev' : Device ν} (h : TableInv dev) (hi : Inserted dev dev' ip seq hop last n)
    (hhop : hop < 256) (hex : Exceeds dev ip last seq hop) : TableInv dev' where
  unique := hi.unique
  recorded e he := by
    rw [hi.stored]
    rcases hi.others e he with rfl | ⟨he, -⟩
    · rw [hi.isFor.1, hi.seq_eq, hi.hop_eq]
      exact List.mem_append_right _ List.mem_cons_self
    · exact List.mem_append_left _ (h.recorded e he)
  hop e he := by
    rcases hi.others e he with rfl | ⟨he, -⟩
    · rw [hi.hop_eq]
      exact hhop
    · exact h.hop e he
  learnt e he := by
    rcases hi.others e he with rfl | ⟨he, -⟩
    · rw [hi.nextHop, hi.learntFrom]
    · exact h.learnt e he
  best d e he hfor hne k hk hkd := by
    rw [hi.stored] at hk
    by_cases hd : d = ip
    · subst hd
      obtain rfl := hi.eq he hfor
      rw [hi.nextHop] at hne
      rw [hi.key]
      rcases List.mem_append.1 hk with hk | hk
      · exact (hex hne k hk hkd).le
      · rw [List.mem_singleton.1 hk]
    · have hk' : k ∈ dev.stored := by
        rcases List.mem_append.1 hk with hk | hk
        · exact hk
        · rw [List.mem_singleton.1 hk] at hkd
          exact absurd hkd.symm hd
      exact h.best d e (hi.old he hfor hd) hfor hne k hk' hkd

theorem Ranked.of_inserted [DecidableEq ν] (h : LoopInv s) (hother : ∀ w, w ≠ u → s'.dev w = s.dev w)
    (hi : Inserted (s.dev u) (s'.dev u) ip seq hop last n) (hv : Vouched s ip seq hop last)
    (hex : Exceeds (s.dev u) ip last seq hop) : Ranked s' d := by
  obtain ⟨rank, N, hN, hrank⟩ := h.ranked d
  by_cases hd : d = ip
  · subst hd
    -- the node that inserts gets the highest rank
    refine ⟨Function.update rank u N, N + 1, fun v => ?_, fun x e he hfor hne f hf hfor' hne' hkey => ?_⟩
    · by_cases hv : v = u
      · rw [hv, Function.update_self]
        omega
      · rw [Function.update_of_ne hv]
        have hlt := hN v
        omega
    · by_cases hx : x = u
      · subst hx
        obtain rfl := hi.eq he hfor
        have hlast : e.nextHop ≠ x := by
          intro heq
          have hself : last = x := hi.nextHop.symm.trans heq
          rw [hi.nextHop] at hne
          rcases hv with hv | ⟨k, hk, hkd, hle⟩
          · exact hne hv
          · rw [hself] at hk
            exact absurd (hex hne k hk hkd) (not_lt_of_ge hle)
        rw [Function.update_of_ne hlast, Function.update_self]
        exact hN _
      · rw [hother x hx] at he
        by_cases hnext : e.nextHop = u
        · -- a node that sends to the one that inserts has a key that is lower now
          have hvold := h.vouched x e he
          rw [hnext] at hf
          obtain rfl := hi.eq hf hfor'
          rw [hnext, hfor.1] at hvold
          rw [hi.nextHop] at hne'
          rcases hvold with hvold | ⟨k, hk, hkd, hle⟩
          · exact absurd (hnext.trans hvold) hne
          · have hlt := lt_of_le_of_lt hle (hex hne' k hk hkd)
            rw [← hi.key] at hlt
            exact absurd hkey hlt.ne
        · rw [hother _ hnext] at hf
          rw [Function.update_of_ne hx, Function.update_of_ne hnext]
          exact hrank x e he hfor hne f hf hfor' hne' hkey
  · have hold : ∀ x, ∀ e ∈ (s'.dev x).routeTable, e.IsFor d → e ∈ (s.dev x).routeTable := by
      intro x e he hfor
      by_cases hx : x = u
      · subst hx
        exact hi.old he hfor hd
      · rw [← hother x hx]
        exact he
    refine ⟨rank, N, hN, fun x e he hfor hne f hf hfor' hne' hkey => ?_⟩
    exact hrank x e (hold x e he hfor) hfor hne f (hold _ f hf hfor') hfor' hne' hkey

/-- **A step that inserts a route** for which the sender vouches. -/
theorem LoopInv.of_inserted [DecidableEq ν] (h : LoopInv s) (hother : ∀ w, w ≠ u → s'.dev w = s.dev w)
    (hi : Inserted (s.dev u) (s'.dev u) ip seq hop last n) (hv : Vouched s ip seq hop last) (hhop : hop < 256)
    (hex : Exceeds (s.dev u) ip last seq hop) (hp : s'.network = s.network) : LoopInv s' := by
  have hgrow : ∀ w, (s.dev w).stored ⊆ (s'.dev w).stored := by
    intro w
    by_cases hw : w = u
    · rw [hw, hi.stored]
      exact List.subset_append_left _ _
    · rw [hother w hw]
      exact List.Subset.refl _
  refine ⟨fun w => ?_, fun w e he => ?_, fun p hpn => ?_, fun d => Ranked.of_inserted h hother hi hv hex⟩
  · by_cases hw : w = u
    · rw [hw]
      exact (h.tables u).of_inserted hi hhop hex
    · rw [hother w hw]
      exact h.tables w
  · by_cases hw : w = u
    · subst hw
      rcases hi.others e he with rfl | ⟨he, -⟩
      · rw [hi.isFor.1, hi.seq_eq, hi.hop_eq, hi.nextHop]
        exact hv.mono (hgrow _)
      · exact (h.vouched w e he).mono (hgrow _)
    · rw [hother w hw] at he
      exact (h.vouched w e he).mono (hgrow _)
  · rw [hp] at hpn
    exact (h.packets p hpn).mono hgrow

end NetSim.Aodv
