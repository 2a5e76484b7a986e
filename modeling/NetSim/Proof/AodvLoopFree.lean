import NetSim.Lib.ParentTree
import NetSim.Proof.AodvRoutes

/-!
# Loops of AODV routes

`fn_NetSim_AODV_InsertInRouteTable` never writes `NextHop` of an entry that exists, and it creates an entry
without looking at those that are not valid any more. Both can close a loop.

* `LoopInv.insert`: an insertion that meets the condition.
* `LoopInv.step`: a step whose insertions do.
* `routes_loopFree`: the routes in every run of such steps.
* `routes_loop`: a run in which two nodes send to each other.
-/

namespace NetSim.Aodv

open Net

variable {ν : Type} [DecidableEq ν] {s s' : Net ν} {dev : Device ν} {d ip last u : ν} {seq hop : ℕ} {now lifeTime : ℚ}
  {findSequenceNumber : Device ν → ν → ℕ} {rreq : Rreq ν} {rrep : Rrep ν}

/-! ## The condition -/

/-- What an insertion overwrites has the sender as its next hop. Unless the sender is the destination, what is
inserted is newer than all that this node has ever put into its table, or as new and with fewer hops. -/
def InsertOk (dev : Device ν) (ip last : ν) (seq hop : ℕ) : Prop :=
  dev.accepts ip seq hop = true → (∀ e ∈ findValid dev.routeTable ip, e.nextHop = last) ∧
    (last ≠ ip → ∀ k ∈ dev.stored, k.destination = ip → k.seq < seq ∨ k.seq = seq ∧ hop < k.hop)

/-- The insertion is as it should be, and a hop count that grows further does not wrap. -/
def DeliverOk (dev : Device ν) (u : ν) (packet : Packet ν) : Prop :=
  match packet.body with
  | .rreq rreq => (rreq.originatorIPAddress, rreq.rreqId) ∉ dev.rreqSeenTable →
      InsertOk dev rreq.originatorIPAddress rreq.lastAddress rreq.originatorSequenceNumber rreq.hopCount.toNat ∧
        (u ≠ rreq.destinationIPAddress → rreq.hopCount ≠ 255)
  | .rrep rrep =>
      InsertOk dev rrep.destinationIPaddress rrep.lastAddress rrep.destinationSequenceNumber rrep.hopCount.toNat ∧
        (u ≠ rrep.originatorIPaddress → packet.receiver.isSome = true → rrep.hopCount ≠ 255)
  | .rerr _ => True

/-- The condition on a step. -/
def StepOk (s : Net ν) : Event ν → Prop
  | .deliver _ u place _ => ∀ packet ∈ s.network[place]?, DeliverOk (s.dev u) u packet
  | _ => True

/-! ## Pieces of a step -/

@[simp] theorem setDev_self (dev : Device ν) (s : Net ν) : (s.setDev u dev).dev u = dev := Function.update_self ..

theorem setDev_of_ne {w : ν} (h : w ≠ u) (dev : Device ν) (s : Net ν) : (s.setDev u dev).dev w = s.dev w :=
  Function.update_of_ne h ..

theorem setDev_eq_self (s : Net ν) : s.setDev u (s.dev u) = s := by
  unfold setDev
  rw [Function.update_eq_self]

theorem setDev_setDev (dev dev' : Device ν) (s : Net ν) : (s.setDev u dev).setDev u dev' = s.setDev u dev' := by
  unfold setDev
  simp only [Function.update_idem]

omit [DecidableEq ν] in
theorem Tame.refl (dev : Device ν) : Tame dev dev := .of_eq rfl rfl

theorem LoopInv.setDev (h : LoopInv s) (ht : Tame (s.dev u) dev) : LoopInv (s.setDev u dev) := by
  refine h.of_tame (fun w => ?_) fun p hp => .inl hp
  by_cases hw : w = u
  · rw [hw, setDev_self]
    exact ht
  · rw [setDev_of_ne hw]
    exact .refl _

/-- A change that inserts nothing, behind one that inserts. -/
theorem LoopInv.setDev_tame {dev' : Device ν} (h : LoopInv (s.setDev u dev))
    (hv : Vouched (s.setDev u dev) ip seq hop u) (ht : Tame dev dev') :
    LoopInv (s.setDev u dev') ∧ Vouched (s.setDev u dev') ip seq hop u := by
  have ht' : Tame ((s.setDev u dev).dev u) dev' := by
    rw [setDev_self]
    exact ht
  have h' := h.setDev ht'
  rw [setDev_setDev] at h'
  refine ⟨h', hv.mono ?_⟩
  rw [setDev_self, setDev_self]
  exact ht.grow

omit [DecidableEq ν] in
theorem LoopInv.send {receiver : Option ν} {body : Body ν} (h : LoopInv s) (hb : body.IsVouched s) :
    LoopInv (s.send receiver body) := by
  refine h.of_tame (fun w => .refl _) fun p hp => ?_
  rcases List.mem_append.1 hp with hp | hp
  · exact .inl hp
  · rw [List.mem_singleton.1 hp]
    exact .inr (hb.mono fun w => List.Subset.refl _)

omit [DecidableEq ν] in
theorem LoopInv.take {place : ℕ} (h : LoopInv s) : LoopInv (s.take place) :=
  h.of_tame (fun _ => .refl _) fun _ hp => .inl (List.mem_of_mem_eraseIdx hp)

/-- **An insertion**: the node then vouches for the route with one hop more. -/
theorem LoopInv.insert (h : LoopInv s) (hv : Vouched s ip seq hop last) (hhop : hop < 256)
    (hok : InsertOk (s.dev u) ip last seq hop) :
    LoopInv (s.setDev u ((s.dev u).insertInRouteTable now ip seq hop last lifeTime)) ∧
      Vouched (s.setDev u ((s.dev u).insertInRouteTable now ip seq hop last lifeTime)) ip seq (hop + 1) u := by
  cases hacc : (s.dev u).accepts ip seq hop with
  | true =>
    obtain ⟨hnext, hex⟩ := hok hacc
    obtain ⟨n, hi⟩ := inserted_of_accepts now lifeTime (h.tables u).unique hacc hnext
    rw [← setDev_self (u := u) (Device.insertInRouteTable ..) s] at hi
    have hexceeds : Exceeds (s.dev u) ip last seq hop := by
      intro hne k hk hkd
      exact routeKey_lt.2 (hex hne k hk hkd)
    refine ⟨h.of_inserted (fun w hw => setDev_of_ne hw _ _) hi hv hhop hexceeds rfl, .inr ⟨⟨ip, seq, hop⟩, ?_, rfl, ?_⟩⟩
    · rw [hi.stored]
      exact List.mem_append_right _ List.mem_cons_self
    · exact routeKey_le.2 (.inr ⟨rfl, Nat.le_succ hop⟩)
  | false =>
    obtain ⟨heq, e, he, hfor, hle⟩ := insert_of_not_accepts now lifeTime last hacc
    rw [heq, setDev_eq_self]
    exact ⟨h, .inr ⟨_, (h.tables u).recorded e he, hfor.1, hle⟩⟩

theorem toNat_add_one {a : UInt8} (h : a ≠ 255) : (a + 1).toNat = a.toNat + 1 := by
  have hne : a.toNat ≠ 255 := fun heq => h (UInt8.toNat_inj.1 heq)
  have hlt := UInt8.toNat_lt a
  have hone : (1 : UInt8).toNat = 1 := rfl
  rw [UInt8.toNat_add, hone]
  omega

/-! ## The packets -/

theorem LoopInv.generateRreq {dest : ν} (h : LoopInv s) : LoopInv (s.generateRreq findSequenceNumber u dest) := by
  have hcounter : LoopInv { s with nRREQId := s.nRREQId + 1 } := h.of_tame (fun _ => .refl _) fun p hp => .inl hp
  have hdev : LoopInv ({ s with nRREQId := s.nRREQId + 1 }.setDev u
      ({ s.dev u with nSequenceNumber := (s.dev u).nSequenceNumber + 1 }.insertInRreqSeenTable u (s.nRREQId + 1))) :=
    hcounter.setDev (.of_eq rfl rfl)
  exact hdev.send (.inl rfl)

omit [DecidableEq ν] in
theorem LoopInv.transmitHello (h : LoopInv s) : LoopInv (s.transmitHello now u) := by
  unfold Net.transmitHello
  split
  · exact h
  · exact h.send (.inl rfl)

omit [DecidableEq ν] in
theorem LoopInv.forwardRreq (h : LoopInv s)
    (hv : Vouched s rreq.originatorIPAddress rreq.originatorSequenceNumber (rreq.hopCount.toNat + 1) u)
    (hhop : rreq.hopCount ≠ 255) : LoopInv (s.forwardRreq findSequenceNumber u rreq) := by
  refine h.send ?_
  show Vouched s rreq.originatorIPAddress rreq.originatorSequenceNumber (rreq.hopCount + 1).toNat u
  rw [toNat_add_one hhop]
  exact hv

theorem LoopInv.generateRrep (h : LoopInv s) (hu : u = rreq.destinationIPAddress) :
    LoopInv (s.generateRrep u rreq) := by
  have hdev : LoopInv (s.setDev u { s.dev u with nSequenceNumber := (s.dev u).nSequenceNumber + 1 }) :=
    h.setDev (.of_eq rfl rfl)
  exact hdev.send (.inl hu)

/-- The number that the library finds is the one of the entry that `fnFindRouteTable` finds. -/
def FindsRoute (findSequenceNumber : Device ν → ν → ℕ) : Prop :=
  ∀ dev ip, ∀ e ∈ dev.findRouteTable ip, findSequenceNumber dev ip = e.destinationSequenceNumber

theorem LoopInv.generateRrepByIntermediate (hfind : FindsRoute findSequenceNumber) (h : LoopInv s)
    (hv : Vouched s rreq.originatorIPAddress rreq.originatorSequenceNumber (rreq.hopCount.toNat + 1) u)
    (hhop : rreq.hopCount ≠ 255) : LoopInv (s.generateRrepByIntermediate findSequenceNumber now u rreq) := by
  unfold Net.generateRrepByIntermediate
  split
  · exact h
  · rename_i e he
    split
    · exact h.forwardRreq hv hhop
    · have hmem : e ∈ (s.dev u).routeTable := List.mem_of_find?_eq_some he
      have hdest : e.destinationIPAddress = rreq.destinationIPAddress := of_decide_eq_true (List.find?_some he :)
      have hrecorded := (h.tables u).recorded e hmem
      have hbyte : (UInt8.ofNat e.hopCount).toNat = e.hopCount := UInt8.toNat_ofNat_of_lt' ((h.tables u).hop e hmem)
      refine h.send (.inr ⟨_, hrecorded, hdest, ?_⟩)
      show routeKey (findSequenceNumber (s.dev u) rreq.destinationIPAddress) (UInt8.ofNat e.hopCount).toNat ≤
        routeKey e.destinationSequenceNumber e.hopCount
      rw [hbyte, hfind _ _ e he]

theorem LoopInv.insertReverse (now : ℚ) (h : LoopInv s)
    (hv : Vouched s rreq.originatorIPAddress rreq.originatorSequenceNumber rreq.hopCount.toNat rreq.lastAddress)
    (hok : InsertOk (s.dev u) rreq.originatorIPAddress rreq.lastAddress rreq.originatorSequenceNumber
      rreq.hopCount.toNat) : LoopInv (s.insertReverse now u rreq) ∧ Vouched (s.insertReverse now u rreq)
        rreq.originatorIPAddress rreq.originatorSequenceNumber (rreq.hopCount.toNat + 1) u := by
  unfold Net.insertReverse
  rw [insertInRouteTable_insertInRreqSeenTable]
  obtain ⟨h', hv'⟩ := h.insert hv (UInt8.toNat_lt _) hok
  exact h'.setDev_tame hv' (.of_eq rfl rfl)

theorem LoopInv.processRreq (hfind : FindsRoute findSequenceNumber) (h : LoopInv s)
    (hv : Vouched s rreq.originatorIPAddress rreq.originatorSequenceNumber rreq.hopCount.toNat rreq.lastAddress)
    (hok : (rreq.originatorIPAddress, rreq.rreqId) ∉ (s.dev u).rreqSeenTable →
      InsertOk (s.dev u) rreq.originatorIPAddress rreq.lastAddress rreq.originatorSequenceNumber
        rreq.hopCount.toNat ∧ (u ≠ rreq.destinationIPAddress → rreq.hopCount ≠ 255)) :
    LoopInv (s.processRreq findSequenceNumber now u rreq) := by
  unfold Net.processRreq
  split
  · exact h
  · rename_i hseen
    obtain ⟨hinsert, hhop⟩ := hok hseen
    obtain ⟨h', hv'⟩ := h.insertReverse now hv hinsert
    dsimp only
    split
    · rename_i hu
      exact h'.generateRrep hu
    · rename_i hne
      split
      · exact h'.generateRrepByIntermediate hfind hv' (hhop hne)
      · exact h'.forwardRreq hv' (hhop hne)

theorem LoopInv.insertForward (now : ℚ) (h : LoopInv s)
    (hv : Vouched s rrep.destinationIPaddress rrep.destinationSequenceNumber rrep.hopCount.toNat rrep.lastAddress)
    (hok : InsertOk (s.dev u) rrep.destinationIPaddress rrep.lastAddress rrep.destinationSequenceNumber
      rrep.hopCount.toNat) : LoopInv (s.insertForward now u rrep) ∧ Vouched (s.insertForward now u rrep)
        rrep.destinationIPaddress rrep.destinationSequenceNumber (rrep.hopCount.toNat + 1) u := by
  unfold Net.insertForward
  obtain ⟨h', hv'⟩ := h.insert hv (UInt8.toNat_lt _) hok
  exact h'.setDev_tame hv' (tame_updateRouteTable ..)

theorem LoopInv.forwardRrep {receiver : Option ν} (h : LoopInv s)
    (hv : Vouched s rrep.destinationIPaddress rrep.destinationSequenceNumber (rrep.hopCount.toNat + 1) u)
    (hhop : receiver.isSome = true → rrep.hopCount ≠ 255) : LoopInv (s.forwardRrep now u receiver rrep) := by
  unfold Net.forwardRrep
  split
  · rename_i hforward
    have hsome := (Bool.and_eq_true_iff.1 hforward).2
    refine h.send ?_
    show Vouched s rrep.destinationIPaddress rrep.destinationSequenceNumber (rrep.hopCount + 1).toNat u
    rw [toNat_add_one (hhop hsome)]
    exact hv
  · exact h

theorem LoopInv.processRrep {receiver : Option ν} (h : LoopInv s)
    (hv : Vouched s rrep.destinationIPaddress rrep.destinationSequenceNumber rrep.hopCount.toNat rrep.lastAddress)
    (hok : InsertOk (s.dev u) rrep.destinationIPaddress rrep.lastAddress rrep.destinationSequenceNumber
      rrep.hopCount.toNat ∧ (u ≠ rrep.originatorIPaddress → receiver.isSome = true → rrep.hopCount ≠ 255)) :
    LoopInv (s.processRrep now u receiver rrep) := by
  obtain ⟨hinsert, hhop⟩ := hok
  obtain ⟨h', hv'⟩ := h.insertForward now hv hinsert
  unfold Net.processRrep
  dsimp only
  split
  · exact h'
  · rename_i hne
    exact h'.forwardRrep hv' (hhop hne)

theorem LoopInv.processRerr {rerr : Rerr ν} (h : LoopInv s) : LoopInv (s.processRerr now u rerr) := by
  have h' : LoopInv (s.setDev u ((s.dev u).breakRoutes now (isHit rerr))) := h.setDev (tame_breakRoutes ..)
  unfold Net.processRerr
  dsimp only
  split
  · exact h'.send trivial
  · exact h'

theorem LoopInv.generateRerr {unreachableIP : ν} (h : LoopInv s) : LoopInv (s.generateRerr now u unreachableIP) := by
  have h' : LoopInv (s.setDev u ((s.dev u).breakRoutes now fun entry => entry.nextHop = unreachableIP)) :=
    h.setDev (tame_breakRoutes ..)
  unfold Net.generateRerr
  dsimp only
  split
  · exact h'
  · exact h'.send trivial

/-! ## Runs -/

theorem LoopInv.process (hfind : FindsRoute findSequenceNumber) {packet : Packet ν} (h : LoopInv s)
    (hv : packet.body.IsVouched s) (hok : DeliverOk (s.dev u) u packet) :
    LoopInv (s.process findSequenceNumber now u packet) := by
  obtain ⟨receiver, body⟩ := packet
  cases body with
  | rreq rreq => exact h.processRreq hfind hv hok
  | rrep rrep => exact h.processRrep hv hok
  | rerr rerr => exact h.processRerr

/-- **A step** keeps the invariant. -/
theorem LoopInv.step (hfind : FindsRoute findSequenceNumber) {e : Event ν} (h : LoopInv s) (hok : StepOk s e)
    (hstep : s.step findSequenceNumber e = some s') : LoopInv s' := by
  cases e with
  | discover u dest => exact Option.some.inj hstep ▸ h.generateRreq
  | hello now u => exact Option.some.inj hstep ▸ h.transmitHello
  | deliver now u place again =>
    obtain ⟨packet, hpacket, hstep⟩ := Option.bind_eq_some_iff.1 hstep
    have hv : packet.body.IsVouched s := h.packets packet (List.mem_of_getElem? hpacket)
    have hdeliver : DeliverOk (s.dev u) u packet := hok packet hpacket
    split at hstep
    · rw [← Option.some.inj hstep]
      cases again with
      | true => exact h.process hfind hv hdeliver
      | false =>
        have hv' : packet.body.IsVouched (s.take place) := hv.mono fun _ => List.Subset.refl _
        exact h.take.process hfind hv' hdeliver
    · cases hstep
  | lose place => exact Option.some.inj hstep ▸ h.take
  | linkBreak now u unreachableIP => exact Option.some.inj hstep ▸ h.generateRerr
  | routeTimeout now u dest =>
    exact Option.some.inj hstep ▸ h.setDev (tame_activeRouteTimeoutEvent ..)
  | routeUsed u ip lifetime => exact Option.some.inj hstep ▸ h.setDev (tame_updateRouteTable ..)

omit [DecidableEq ν] in
theorem loopInv_start : LoopInv (start : Net ν) := by
  have hnone : ∀ u, ∀ e ∈ (start.dev u : Device ν).routeTable, False := fun u e he => List.not_mem_nil he
  refine ⟨fun u => ⟨List.Pairwise.nil, ?_, ?_, ?_, fun d => ?_⟩, fun u => ?_, ?_, fun d => ?_⟩
  · exact fun e he => (hnone u e he).elim
  · exact fun e he => (hnone u e he).elim
  · exact fun e he => (hnone u e he).elim
  · exact fun e he => (hnone u e he).elim
  · exact fun e he => (hnone u e he).elim
  · exact fun p hp => absurd hp List.not_mem_nil
  · exact ⟨fun _ => 0, 1, fun _ => Nat.zero_lt_one, fun u e he => (hnone u e he).elim⟩

/-- A packet for the destination goes from one node to the next. -/
def Follows (s : Net ν) (now : ℚ) (d u v : ν) : Prop :=
  u ≠ d ∧ ∃ e ∈ (s.dev u).routeTable, e.IsFor d ∧ now < e.lifetime ∧ e.nextHop = v

/-- The routes lead nowhere twice, and each next hop is the neighbour from which the route came. -/
def RoutesOk (s : Net ν) : Prop :=
  (∀ now d, LoopFree.Acyclic (Follows s now d)) ∧ ∀ u, ∀ e ∈ (s.dev u).routeTable, e.nextHop = e.learntFrom

/-- The key of the valid entry for the destination. -/
def validKey (s : Net ν) (d u : ν) : ℕ ×ₗ ℕᵒᵈ :=
  ((findValid (s.dev u).routeTable d).map RouteEntry.key).getD (routeKey 0 0)

theorem LoopInv.validKey_eq {e : RouteEntry ν} (h : LoopInv s) (he : e ∈ (s.dev u).routeTable) (hfor : e.IsFor d) :
    validKey s d u = e.key := by
  unfold validKey
  rw [findValid_of_mem (h.tables u).unique he hfor]
  rfl

omit [DecidableEq ν] in
/-- From a node to its next hop the key does not fall, where the route goes on from there. -/
theorem LoopInv.key_le {e f : RouteEntry ν} (h : LoopInv s) (he : e ∈ (s.dev u).routeTable) (hfor : e.IsFor d)
    (hne : e.nextHop ≠ d) (hf : f ∈ (s.dev e.nextHop).routeTable) (hfor' : f.IsFor d) (hne' : f.nextHop ≠ d) :
    e.key ≤ f.key := by
  have hv := h.vouched u e he
  rw [hfor.1] at hv
  rcases hv with hv | ⟨k, hk, hkd, hle⟩
  · exact absurd hv hne
  · exact hle.trans ((h.tables _).best d f hf hfor' hne' k hk hkd)

theorem LoopInv.routesOk (h : LoopInv s) : RoutesOk s := by
  refine ⟨fun now d => ?_, fun u e he => (h.tables u).learnt e he⟩
  obtain ⟨rank, -, -, hrank⟩ := h.ranked d
  have hcore : LoopFree.Acyclic fun u v => Follows s now d u v ∧ v ≠ d := by
    refine LoopFree.acyclic_of_progress (validKey s d) rank ?_
    rintro u v w ⟨⟨-, e, he, hfor, -, rfl⟩, hne⟩ ⟨⟨-, f, hf, hfor', -, rfl⟩, hne'⟩
    rw [h.validKey_eq he hfor, h.validKey_eq hf hfor']
    rcases (h.key_le he hfor hne hf hfor' hne').lt_or_eq with hlt | heq
    · exact .inl hlt
    · exact .inr ⟨heq, hrank u e he hfor hne f hf hfor' hne' heq⟩
  exact LoopFree.acyclic_of_core (fun u v w huv hvw => ⟨huv, hvw.1⟩) hcore

/-- **The routes are free of loops** in every run in which all insertions are as they should be. -/
theorem routes_loopFree (hfind : FindsRoute findSequenceNumber)
    (h : (machine findSequenceNumber).ReachOn StepOk s) : RoutesOk s := by
  have hinv : LoopInv s := by
    refine Machine.ReachOn.inv ?_ ?_ h
    · rintro s rfl
      exact loopInv_start
    · intro s e s' hs hok hstep
      exact hs.step hfind hok hstep
  exact hinv.routesOk

/-! ## Samples -/

instance (s : Net ℕ) (now : ℚ) (d u v : ℕ) : Decidable (Follows s now d u v) :=
  inferInstanceAs (Decidable (_ ≠ _ ∧ ∃ e ∈ (s.dev u).routeTable, (_ = _ ∧ _ = _) ∧ _ < _ ∧ _ = _))

instance (dev : Device ℕ) (ip last seq hop : ℕ) : Decidable (InsertOk dev ip last seq hop) :=
  inferInstanceAs (Decidable (_ = _ → (∀ e ∈ findValid dev.routeTable ip, _ = _) ∧
    (_ ≠ _ → ∀ k ∈ dev.stored, _ = _ → _ < _ ∨ _ = _ ∧ _ < _)))

instance (dev : Device ℕ) (u : ℕ) (packet : Packet ℕ) : Decidable (DeliverOk dev u packet) :=
  match packet with
  | ⟨_, .rreq _⟩ => inferInstanceAs (Decidable (_ ∉ _ → InsertOk _ _ _ _ _ ∧ (_ ≠ _ → _ ≠ _)))
  | ⟨_, .rrep _⟩ => inferInstanceAs (Decidable (InsertOk _ _ _ _ _ ∧ (_ ≠ _ → _ = _ → _ ≠ _)))
  | ⟨_, .rerr _⟩ => isTrue trivial

instance (s : Net ℕ) (e : Event ℕ) : Decidable (StepOk s e) :=
  match e with
  | .deliver _ u place _ => inferInstanceAs (Decidable (∀ packet ∈ s.network[place]?, DeliverOk (s.dev u) u packet))
  | .discover _ _ | .hello _ _ | .lose _ | .linkBreak _ _ _ | .routeTimeout _ _ _ | .routeUsed _ _ _ => isTrue trivial

/-- A library that finds the number of the first entry. -/
def firstSequenceNumber (dev : Device ℕ) (ip : ℕ) : ℕ :=
  ((dev.findRouteTable ip).map RouteEntry.destinationSequenceNumber).getD 0

theorem findsRoute_first : FindsRoute firstSequenceNumber := by
  intro dev ip e he
  unfold firstSequenceNumber
  rw [he]
  rfl

/-- The RREQ of node 0 reaches node 1, and node 2 behind it. -/
theorem routes_loopFree_chain : ∃ s : Net ℕ, Follows s 0 0 2 1 ∧ Follows s 0 0 1 0 ∧ RoutesOk s := by
  have hreach : ∃ s : Net ℕ, (machine firstSequenceNumber).ReachOn StepOk s ∧ Follows s 0 0 2 1 ∧ Follows s 0 0 1 0 :=
    Machine.ReachOn.exists_of_execOn StepOk [.discover 0 9, .deliver 0 1 0 false, .deliver 0 2 0 false]
      (.init rfl) (by decide +kernel)
  obtain ⟨s, hs, h2, h1⟩ := hreach
  exact ⟨s, h2, h1, routes_loopFree findsRoute_first hs⟩

/-- Node 2 has a route over node 1, whose link to node 0 breaks. Node 2 then hears a newer RREQ from node 0 itself,
keeps node 1 as next hop, and node 1 takes the route over node 2. -/
theorem routes_loop : ¬ ∀ s : Net ℕ, (machine firstSequenceNumber).Reach s → RoutesOk s := by
  intro hall
  have hreach : ∃ s : Net ℕ, (machine firstSequenceNumber).Reach s ∧ Follows s 0 0 2 1 ∧ Follows s 0 0 1 2 :=
    Machine.Reach.exists_of_exec [.discover 0 9, .deliver 0 1 0 false, .deliver 0 2 0 false, .lose 0,
      .linkBreak 0 1 0, .lose 0, .discover 0 9, .deliver 0 2 0 false, .deliver 0 1 0 false]
      (.init rfl) (by decide +kernel)
  obtain ⟨s, hs, h21, h12⟩ := hreach
  exact (hall s hs).1 0 0 2 (.tail (.single h21) h12)

end NetSim.Aodv
