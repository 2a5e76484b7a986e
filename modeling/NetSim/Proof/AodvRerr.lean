import NetSim.Proof.AodvRoutes

/-!
# Route errors of AODV

`fn_NetSim_AODV_ProcessRERR` sends a RERR on as soon as an entry has a listed destination and the sender as next
hop, also where the entry is invalid already.

* `sendsOn_iff`, `invalidates_iff`: when a RERR is sent on, and when it changes an entry.
* `validFor_lt`: a RERR that hits a valid entry leaves fewer of them.
* `rerr_discipline`: the condition, and the number of copies in a run that meets it.
* `rerr_repeated`: a copy that is sent on twice for one entry.
-/

namespace NetSim.Aodv

open Net

variable {ν : Type} [DecidableEq ν] {s s' : Net ν} {dev : Device ν} {u v : ν} {now : ℚ} {e : RouteEntry ν}
  {rerr : Rerr ν} {findSequenceNumber : Device ν → ν → ℕ}

/-! ## One RERR -/

/-- The processing of a RERR hands it to the network again. -/
def SendsOn (s : Net ν) (now : ℚ) (u : ν) (rerr : Rerr ν) : Prop :=
  ⟨none, .rerr { rerr with sourceIP := u }⟩ ∈ (s.processRerr now u rerr).network.drop s.network.length

instance (s : Net ν) (now : ℚ) (u : ν) (rerr : Rerr ν) : Decidable (SendsOn s now u rerr) :=
  inferInstanceAs (Decidable (_ ∈ _))

/-- The processing of a RERR makes an entry invalid that was valid. -/
def Invalidates (s : Net ν) (now : ℚ) (u : ν) (rerr : Rerr ν) : Prop :=
  ∃ (i : ℕ) (e e' : RouteEntry ν), (s.dev u).routeTable[i]? = some e ∧
    ((s.processRerr now u rerr).dev u).routeTable[i]? = some e' ∧
    e.routingFlags = .valid ∧ e'.routingFlags = .invalid

/-- If the RERR hits an entry, then it hits one that is valid. -/
def HitOk (dev : Device ν) (rerr : Rerr ν) : Prop :=
  (∃ e ∈ dev.routeTable, isHit rerr e = true) →
    ∃ e ∈ dev.routeTable, isHit rerr e = true ∧ e.routingFlags = .valid

theorem processRerr_network : (s.processRerr now u rerr).network =
    s.network ++ if (s.dev u).routeTable.any (isHit rerr) then [⟨none, .rerr { rerr with sourceIP := u }⟩] else [] := by
  unfold Net.processRerr
  dsimp only
  split
  · rfl
  · exact (List.append_nil _).symm

theorem processRerr_dev : ((s.processRerr now u rerr).dev u) = (s.dev u).breakRoutes now (isHit rerr) := by
  unfold Net.processRerr
  dsimp only
  split <;> exact Function.update_self ..

theorem sendsOn_iff : SendsOn s now u rerr ↔ ∃ e ∈ (s.dev u).routeTable, isHit rerr e = true := by
  unfold SendsOn
  rw [processRerr_network, List.drop_left, ← List.any_eq_true]
  split
  · rename_i h
    exact iff_of_true List.mem_cons_self h
  · rename_i h
    exact iff_of_false List.not_mem_nil h

theorem invalidates_iff : Invalidates s now u rerr ↔
    ∃ e ∈ (s.dev u).routeTable, isHit rerr e = true ∧ e.routingFlags = .valid := by
  unfold Invalidates
  rw [processRerr_dev]
  constructor
  · rintro ⟨i, e, e', he, he', hvalid, hinvalid⟩
    refine ⟨e, List.mem_of_getElem? he, ?_, hvalid⟩
    have hbreak : RouteEntry.breakIf now (isHit rerr) e = e' := by
      have hmap := List.getElem?_map (f := RouteEntry.breakIf now (isHit rerr)) (l := (s.dev u).routeTable) (i := i)
      rw [he] at hmap
      exact Option.some.inj (hmap.symm.trans he')
    by_contra hnot
    unfold RouteEntry.breakIf at hbreak
    rw [if_neg hnot] at hbreak
    rw [← hbreak, hvalid] at hinvalid
    cases hinvalid
  · rintro ⟨e, he, hhit, hvalid⟩
    obtain ⟨i, hi⟩ := List.mem_iff_getElem?.1 he
    refine ⟨i, e, e.invalidate now, hi, ?_, hvalid, rfl⟩
    show ((s.dev u).routeTable.map (RouteEntry.breakIf now (isHit rerr)))[i]? = _
    rw [List.getElem?_map, hi]
    exact congrArg some (if_pos hhit)

/-! ## The valid entries -/

/-- The destinations that a RERR lists. -/
def isListed (list : List (ν × ℕ)) (ip : ν) : Bool := decide (ip ∈ list.map Prod.fst)

theorem isListed_of_isHit (h : isHit rerr e = true) : isListed rerr.unreachable e.destinationIPAddress = true := by
  obtain ⟨destination, hmem, hdest⟩ := List.any_eq_true.1 h
  have hip := (of_decide_eq_true hdest).1
  exact decide_eq_true (List.mem_map.2 ⟨destination, hmem, hip⟩)

theorem countP_map_lt {α : Type*} {p : α → Bool} {f : α → α} {l : List α} {a : α} (ha : a ∈ l)
    (hmono : ∀ x, p (f x) = true → p x = true) (hpa : p a = true) (hfa : p (f a) = false) :
    (l.map f).countP p < l.countP p := by
  obtain ⟨l₁, l₂, rfl⟩ := List.append_of_mem ha
  have hle : ∀ l : List α, (l.map f).countP p ≤ l.countP p := by
    intro l
    rw [List.countP_map]
    exact List.countP_mono_left fun x _ hx => hmono x hx
  have h₁ := hle l₁
  have h₂ := hle l₂
  rw [List.map_append, List.map_cons, List.countP_append, List.countP_append, List.countP_cons_of_pos hpa,
    List.countP_cons_of_neg (by rw [hfa]; exact Bool.false_ne_true)]
  omega

/-- **A RERR that hits a valid entry** leaves fewer valid entries for what it lists. -/
theorem validFor_lt (he : e ∈ dev.routeTable) (hhit : isHit rerr e = true) (hvalid : e.routingFlags = .valid) :
    validFor (isListed rerr.unreachable) (dev.breakRoutes now (isHit rerr)).routeTable <
      validFor (isListed rerr.unreachable) dev.routeTable := by
  refine countP_map_lt he (fun x hx => ?_) ?_ ?_
  · unfold RouteEntry.breakIf at hx
    split at hx
    · have hinvalid := (Bool.and_eq_true_iff.1 hx).2
      cases of_decide_eq_true hinvalid
    · exact hx
  · rw [isListed_of_isHit hhit, hvalid]
    rfl
  · have hbreak : RouteEntry.breakIf now (isHit rerr) e = e.invalidate now := if_pos hhit
    rw [hbreak]
    exact Bool.and_false _

/-! ## Steps that insert no route -/

/-- Whether a packet makes a node put a route into its table. -/
def Device.inserts (dev : Device ν) : Body ν → Bool
  | .rreq rreq =>
    !dev.rreqSeenTable.contains (rreq.originatorIPAddress, rreq.rreqId) &&
      dev.accepts rreq.originatorIPAddress rreq.originatorSequenceNumber rreq.hopCount.toNat
  | .rrep rrep => dev.accepts rrep.destinationIPaddress rrep.destinationSequenceNumber rrep.hopCount.toNat
  | .rerr _ => false

/-- Whether a step puts a route into a table. -/
def inserts (s : Net ν) : Event ν → Bool
  | .deliver _ v place _ => s.network[place]?.any fun packet => (s.dev v).inserts packet.body
  | _ => false

/-- The copies of a RERR with this list that the processing of a packet sends on. -/
def sentOn (list : List (ν × ℕ)) (s : Net ν) (now : ℚ) (v : ν) : Body ν → ℕ
  | .rerr rerr => if rerr.unreachable = list ∧ SendsOn s now v rerr then 1 else 0
  | _ => 0

/-- The copies of a RERR with this list that a step sends on from a node. -/
def copies (u : ν) (list : List (ν × ℕ)) (s : Net ν) : Event ν → ℕ
  | .deliver now v place _ =>
    if v = u then (s.network[place]?.map fun packet => sentOn list s now v packet.body).getD 0 else 0
  | _ => 0

/-- A RERR hits no entry, or one that is valid. -/
def Device.RerrOk (dev : Device ν) : Body ν → Prop
  | .rerr rerr => HitOk dev rerr
  | _ => True

/-- The condition on a step. -/
def RerrOk (s : Net ν) : Event ν → Prop
  | .deliver _ v place _ => ∀ packet ∈ s.network[place]?, (s.dev v).RerrOk packet.body
  | _ => True

variable {p : ν → Bool}

theorem validFor_setDev (hle : validFor p dev.routeTable ≤ validFor p (s.dev u).routeTable) (v : ν) :
    validFor p ((s.setDev u dev).dev v).routeTable ≤ validFor p (s.dev v).routeTable := by
  show validFor p (Function.update s.dev u dev v).routeTable ≤ _
  by_cases hv : v = u
  · rw [hv, Function.update_self]
    exact hle
  · rw [Function.update_of_ne hv]

theorem routeTable_setDev {dev : Device ν} (htable : dev.routeTable = (s.dev u).routeTable) (v : ν) :
    ((s.setDev u dev).dev v).routeTable = (s.dev v).routeTable := by
  show (Function.update s.dev u dev v).routeTable = _
  by_cases hv : v = u
  · rw [hv, Function.update_self]
    exact htable
  · rw [Function.update_of_ne hv]

theorem generateRrep_routeTable {rreq : Rreq ν} (v : ν) :
    ((s.generateRrep u rreq).dev v).routeTable = (s.dev v).routeTable := by
  show ((s.setDev u { s.dev u with nSequenceNumber := (s.dev u).nSequenceNumber + 1 }).dev v).routeTable = _
  refine routeTable_setDev ?_ v
  rfl

theorem generateRreq_routeTable {dest : ν} (v : ν) :
    ((s.generateRreq findSequenceNumber u dest).dev v).routeTable = (s.dev v).routeTable := by
  show ((s.setDev u ({ s.dev u with nSequenceNumber := (s.dev u).nSequenceNumber + 1 }.insertInRreqSeenTable u
    (s.nRREQId + 1))).dev v).routeTable = _
  refine routeTable_setDev ?_ v
  rfl

theorem validFor_processRreq {rreq : Rreq ν}
    (hno : (rreq.originatorIPAddress, rreq.rreqId) ∉ (s.dev u).rreqSeenTable →
      (s.dev u).accepts rreq.originatorIPAddress rreq.originatorSequenceNumber rreq.hopCount.toNat = false) (v : ν) :
    validFor p ((s.processRreq findSequenceNumber now u rreq).dev v).routeTable ≤
      validFor p (s.dev v).routeTable := by
  unfold Net.processRreq
  split
  · exact le_rfl
  · rename_i hseen
    have hreverse : validFor p ((s.insertReverse now u rreq).dev v).routeTable ≤ validFor p (s.dev v).routeTable := by
      unfold Net.insertReverse
      rw [insertInRouteTable_insertInRreqSeenTable]
      obtain ⟨hsame, -⟩ := insert_of_not_accepts now
        (now + 2 * netTraversalTime - 2 * rreq.hopCount.toNat * nodeTraversalTime) rreq.lastAddress (hno hseen)
      rw [hsame]
      refine (congrArg (validFor p) (routeTable_setDev ?_ v)).le
      rfl
    dsimp only
    split
    · rw [generateRrep_routeTable]
      exact hreverse
    · split
      · unfold Net.generateRrepByIntermediate
        split
        · exact hreverse
        · split <;> exact hreverse
      · exact hreverse

theorem validFor_processRrep {receiver : Option ν} {rrep : Rrep ν}
    (hno : (s.dev u).accepts rrep.destinationIPaddress rrep.destinationSequenceNumber rrep.hopCount.toNat = false)
    (v : ν) : validFor p ((s.processRrep now u receiver rrep).dev v).routeTable ≤
      validFor p (s.dev v).routeTable := by
  have hforward : validFor p ((s.insertForward now u rrep).dev v).routeTable ≤ validFor p (s.dev v).routeTable := by
    unfold Net.insertForward
    obtain ⟨hsame, -⟩ := insert_of_not_accepts now (now + activeRouteTimeout) rrep.lastAddress hno
    rw [hsame]
    exact validFor_setDev ((tame_updateRouteTable ..).validFor_le p) v
  unfold Net.processRrep
  dsimp only
  split
  · exact hforward
  · unfold Net.forwardRrep
    split <;> exact hforward

theorem validFor_generateRerr {unreachableIP : ν} (v : ν) :
    validFor p ((s.generateRerr now u unreachableIP).dev v).routeTable ≤ validFor p (s.dev v).routeTable := by
  have hbreak : validFor p ((s.setDev u ((s.dev u).breakRoutes now fun entry => entry.nextHop = unreachableIP)).dev
      v).routeTable ≤ validFor p (s.dev v).routeTable := validFor_setDev ((tame_breakRoutes ..).validFor_le p) v
  unfold Net.generateRerr
  dsimp only
  split <;> exact hbreak

theorem processRerr_dev_of_ne (hv : v ≠ u) : (s.processRerr now u rerr).dev v = s.dev v := by
  unfold Net.processRerr
  dsimp only
  split <;> exact Function.update_of_ne hv ..

theorem validFor_processRerr (v : ν) :
    validFor p ((s.processRerr now u rerr).dev v).routeTable ≤ validFor p (s.dev v).routeTable := by
  by_cases hv : v = u
  · rw [hv, processRerr_dev]
    exact (tame_breakRoutes ..).validFor_le p
  · rw [processRerr_dev_of_ne hv]

theorem validFor_process {receiver : Option ν} {body : Body ν} (hno : (s.dev v).inserts body = false) (u : ν) :
    validFor p ((s.process findSequenceNumber now v ⟨receiver, body⟩).dev u).routeTable ≤
      validFor p (s.dev u).routeTable := by
  cases body with
  | rreq rreq =>
    refine validFor_processRreq (fun hseen => ?_) u
    refine (Bool.and_eq_false_iff.1 hno).resolve_left fun h => ?_
    rw [Bool.not_eq_false', List.contains_iff_mem] at h
    exact hseen h
  | rrep rrep => exact validFor_processRrep hno u
  | rerr rerr => exact validFor_processRerr u

/-- **One packet**: what is sent on is paid for by a valid entry. -/
theorem sentOn_add_le {receiver : Option ν} {body : Body ν} (hno : (s.dev v).inserts body = false)
    (hok : (s.dev v).RerrOk body) (list : List (ν × ℕ)) :
    sentOn list s now v body + validFor (isListed list)
      ((s.process findSequenceNumber now v ⟨receiver, body⟩).dev v).routeTable ≤
        validFor (isListed list) (s.dev v).routeTable := by
  have hle : validFor (isListed list) ((s.process findSequenceNumber now v ⟨receiver, body⟩).dev v).routeTable ≤
    validFor (isListed list) (s.dev v).routeTable := validFor_process hno v
  cases body with
  | rreq rreq => exact (Nat.zero_add _).trans_le hle
  | rrep rrep => exact (Nat.zero_add _).trans_le hle
  | rerr rerr =>
    unfold sentOn
    dsimp only
    split
    · rename_i h
      obtain ⟨rfl, hsends⟩ := h
      obtain ⟨e, he, hhit, hvalid⟩ := hok (sendsOn_iff.1 hsends)
      have hlt : validFor _ ((s.dev v).breakRoutes now (isHit rerr)).routeTable < _ := validFor_lt he hhit hvalid
      show 1 + validFor _ ((s.processRerr now v rerr).dev v).routeTable ≤ _
      rw [processRerr_dev]
      omega
    · exact (Nat.zero_add _).trans_le hle

theorem sentOn_congr (hdev : s'.dev = s.dev) (list : List (ν × ℕ)) (body : Body ν) :
    sentOn list s' now v body = sentOn list s now v body := by
  cases body with
  | rreq rreq => rfl
  | rrep rrep => rfl
  | rerr rerr =>
    have hsends : SendsOn s' now v rerr ↔ SendsOn s now v rerr := by
      rw [sendsOn_iff, sendsOn_iff, hdev]
    exact if_congr (and_congr_right fun _ => hsends) rfl rfl

/-- **A step**: each copy that is sent on is paid for by a valid entry. -/
theorem copies_add_le {e : Event ν} (hno : inserts s e = false) (hok : RerrOk s e)
    (hstep : s.step findSequenceNumber e = some s') (u : ν) (list : List (ν × ℕ)) :
    copies u list s e + validFor (isListed list) (s'.dev u).routeTable ≤
      validFor (isListed list) (s.dev u).routeTable := by
  cases e with
  | discover v dest =>
    rw [← Option.some.inj hstep]
    refine (Nat.zero_add _).trans_le ?_
    rw [generateRreq_routeTable]
  | hello now v =>
    rw [← Option.some.inj hstep]
    refine (Nat.zero_add _).trans_le ?_
    unfold Net.transmitHello
    split <;> exact le_rfl
  | deliver now v place again =>
    obtain ⟨⟨receiver, body⟩, hpacket, hstep⟩ := Option.bind_eq_some_iff.1 hstep
    have hno' : (s.dev v).inserts body = false := by
      unfold inserts at hno
      dsimp only at hno
      rw [hpacket] at hno
      exact hno
    have hok' : (s.dev v).RerrOk body := hok _ hpacket
    -- the packet may stay on its way, which no table sees
    have hdev : (if again then s else s.take place).dev = s.dev := by split <;> rfl
    have hcopies : copies u list s (.deliver now v place again) =
        if v = u then sentOn list s now v body else 0 := by
      unfold copies
      dsimp only
      rw [hpacket]
      rfl
    split at hstep
    · rw [← Option.some.inj hstep, hcopies, ← sentOn_congr hdev]
      rw [← hdev] at hno' hok' ⊢
      split
      · rename_i hv
        rw [← hv]
        exact sentOn_add_le hno' hok' list
      · exact (Nat.zero_add _).trans_le (validFor_process hno' u)
    · cases hstep
  | lose place =>
    rw [← Option.some.inj hstep]
    exact (Nat.zero_add _).le
  | linkBreak now v unreachableIP =>
    rw [← Option.some.inj hstep]
    exact (Nat.zero_add _).trans_le (validFor_generateRerr u)
  | routeTimeout now v dest =>
    rw [← Option.some.inj hstep]
    exact (Nat.zero_add _).trans_le (validFor_setDev ((tame_activeRouteTimeoutEvent ..).validFor_le _) u)
  | routeUsed v ip lifetime =>
    rw [← Option.some.inj hstep]
    exact (Nat.zero_add _).trans_le (validFor_setDev ((tame_updateRouteTable ..).validFor_le _) u)

/-! ## Runs -/

/-- The runs from a state, with the number of copies that the node has sent on. -/
def countingMachine (findSequenceNumber : Device ν → ν → ℕ) (s₀ : Net ν) (u : ν) (list : List (ν × ℕ)) :
    Machine (Net ν × ℕ) (Event ν) where
  init x := x = (s₀, 0)
  step x e := (x.1.step findSequenceNumber e).map fun s' => (s', x.2 + copies u list x.1 e)

/-- The runs that insert no route, and in which each RERR hits no entry or one that is valid. -/
def CalmStep (x : Net ν × ℕ) (e : Event ν) : Prop := inserts x.1 e = false ∧ RerrOk x.1 e

theorem count_add_le {s₀ : Net ν} {list : List (ν × ℕ)} {x : Net ν × ℕ}
    (h : (countingMachine findSequenceNumber s₀ u list).ReachOn CalmStep x) :
    x.2 + validFor (isListed list) (x.1.dev u).routeTable ≤ validFor (isListed list) (s₀.dev u).routeTable := by
  refine Machine.ReachOn.inv (I := fun x => x.2 + validFor (isListed list) (x.1.dev u).routeTable ≤
    validFor (isListed list) (s₀.dev u).routeTable) ?_ ?_ h
  · rintro x rfl
    exact (Nat.zero_add _).le
  · rintro x e x' hx ⟨hno, hok⟩ hstep
    obtain ⟨s', hs', rfl⟩ := Option.map_eq_some_iff.1 hstep
    have hle := copies_add_le hno hok hs' u list
    show x.2 + copies u list x.1 e + validFor (isListed list) (s'.dev u).routeTable ≤ _
    omega

/-- **A RERR that is sent on changes an entry** if and only if it hits no entry, or one that is valid. In a run of
such steps that inserts no route, a node sends on no more copies than it had valid entries for what they list. -/
theorem rerr_discipline (findSequenceNumber : Device ν → ν → ℕ) (s₀ : Net ν) (u : ν) :
    (∀ now rerr, (SendsOn s₀ now u rerr → Invalidates s₀ now u rerr) ↔ HitOk (s₀.dev u) rerr) ∧
    ∀ list x, (countingMachine findSequenceNumber s₀ u list).ReachOn CalmStep x →
      x.2 ≤ validFor (isListed list) (s₀.dev u).routeTable := by
  refine ⟨fun now rerr => ?_, fun list x h => ?_⟩
  · rw [sendsOn_iff, invalidates_iff]
    exact Iff.rfl
  · have hle := count_add_le h
    omega

/-! ## Samples -/

/-- Node 1 has two routes over node 2, which lists both destinations. -/
def sampleNet (flag : RoutingFlag) : Net ℕ where
  dev := Function.update (fun _ => ⟨0, [], [], []⟩) 1
    ⟨0, [⟨8, 4, true, flag, 1, 2, 100, 2⟩, ⟨9, 5, true, .valid, 1, 2, 100, 2⟩], [], []⟩
  nRREQId := 0
  network := [⟨none, .rerr ⟨2, [(8, 4), (9, 5)]⟩⟩]

instance (dev : Device ℕ) (body : Body ℕ) : Decidable (dev.RerrOk body) :=
  match body with
  | .rreq _ | .rrep _ => isTrue trivial
  | .rerr rerr => inferInstanceAs (Decidable ((∃ e ∈ dev.routeTable, isHit rerr e = true) →
      ∃ e ∈ dev.routeTable, isHit rerr e = true ∧ e.routingFlags = .valid))

instance (x : Net ℕ × ℕ) (e : Event ℕ) : Decidable (CalmStep x e) :=
  match e with
  | .deliver _ v place _ =>
    inferInstanceAs (Decidable (_ = false ∧ ∀ packet ∈ x.1.network[place]?, (x.1.dev v).RerrOk packet.body))
  | .discover _ _ | .hello _ _ | .lose _ | .linkBreak _ _ _ | .routeTimeout _ _ _ | .routeUsed _ _ _ =>
    inferInstanceAs (Decidable (_ = false ∧ True))

/-- The first copy is sent on. -/
theorem rerr_discipline_once : ∃ x, (countingMachine (fun _ _ => 0) (sampleNet .valid) 1 [(8, 4), (9, 5)]).ReachOn
    CalmStep x ∧ x.2 = 1 ∧ x.2 ≤ 2 := by
  have hreach := Machine.ReachOn.exists_of_execOn (M := countingMachine (fun _ _ => 0) (sampleNet .valid) 1
    [(8, 4), (9, 5)]) (P := fun x => x.2 = 1) CalmStep [.deliver 0 1 0 false] (.init rfl) (by decide)
  obtain ⟨x, hx, hcount⟩ := hreach
  exact ⟨x, hx, hcount, (rerr_discipline (fun _ _ => 0) (sampleNet .valid) 1).2 [(8, 4), (9, 5)] x hx⟩

/-- A copy that comes a second time is sent on again, though no entry is valid any more; and one valid entry is
enough for two copies. -/
theorem rerr_repeated :
    (¬ ∀ (s : Net ℕ) now u rerr, SendsOn s now u rerr → Invalidates s now u rerr) ∧
    ¬ ∀ (s₀ : Net ℕ) u list x,
      (countingMachine (fun _ _ => 0) s₀ u list).ReachOn (fun x e => inserts x.1 e = false) x →
        x.2 ≤ validFor (isListed list) (s₀.dev u).routeTable := by
  refine ⟨fun hall => ?_, fun hall => ?_⟩
  · obtain ⟨e, he, hhit, hvalid⟩ := invalidates_iff.1
      (hall ((sampleNet .valid).processRerr 0 1 ⟨2, [(8, 4), (9, 5)]⟩) 0 1 ⟨2, [(8, 4), (9, 5)]⟩ (by decide))
    revert e
    decide
  · have hreach := Machine.ReachOn.exists_of_execOn (M := countingMachine (fun _ _ => 0) (sampleNet .invalid) 1
      [(8, 4), (9, 5)]) (P := fun x => x.2 = 2) (fun x e => inserts x.1 e = false)
      [.deliver 0 1 0 true, .deliver 0 1 0 false] (.init rfl) (by decide)
    obtain ⟨x, hx, hcount⟩ := hreach
    have hle := hall (sampleNet .invalid) 1 [(8, 4), (9, 5)] x hx
    rw [hcount] at hle
    revert hle
    decide

end NetSim.Aodv
