import NetSim.Spec.DsrSendBuffer

/-!
# Packets that wait for a route

* `checkSendBuffer_spec`: a check transmits the packets of the first entry, if there is a route, and nothing else.
* `BufferRun.inv`: what holds of the send buffer in every run.
* `check_send_buffer_iff`: when a check transmits all the packets that it should.
* `buffer_conserves`: no packet is lost, and none leaves twice.
-/

namespace NetSim.Dsr

variable {ι : Type*} [DecidableEq ι] {n : SendNode ι} {arrived : List (WaitingPacket ι)} {left : List (Departure ι)}
  {routeCache : List (RouteCache ι)} {before l : List (SendBuffer ι)} {e : SendBuffer ι}

/-- Whether a destination is in a cached route. -/
def isRouted (routeCache : List (RouteCache ι)) (target : ι) : Bool := routeCache.any fun cache => checkIpInIpList cache.address target

/-! ## One check -/

/-- **The cursor** is at the end of the route cache after an entry, and its packets are transmitted once, if there is a route. -/
theorem scanRouteCache_eq (device : Device) (dTime : ℚ) (routeCache : List (RouteCache ι)) (e : SendBuffer ι) (ntxflag : Bool) :
    scanRouteCache device dTime routeCache e ntxflag =
      ⟨if isRouted routeCache e.target then { e with packet := [] } else e,
        if isRouted routeCache e.target then e.packet.map (networkOut device dTime) else [],
        ntxflag || isRouted routeCache e.target, []⟩ := by
  induction routeCache generalizing e ntxflag with
  | nil =>
    unfold scanRouteCache isRouted
    rw [List.any_nil, Bool.or_false]
    rfl
  | cons cache routeCache ih =>
    unfold scanRouteCache
    have hany : isRouted (cache :: routeCache) e.target = (checkIpInIpList cache.address e.target || isRouted routeCache e.target) :=
      List.any_cons
    cases hfound : checkIpInIpList cache.address e.target with
    | true =>
      rw [if_pos rfl, hany, hfound, Bool.true_or, if_pos rfl, if_pos rfl, Bool.or_true]
      dsimp only [transmitPacketFromSendBuffer]
      rw [ih, Bool.true_or]
      dsimp only
      rw [List.map_nil, ite_self, ite_self, List.append_nil]
    | false =>
      rw [if_neg Bool.false_ne_true, hany, hfound, Bool.false_or]
      exact ih e ntxflag

/-- With the cursor at the end, the entries are passed as they are. -/
theorem scanSendBuffer_nil (device : Device) (dTime : ℚ) (l : List (SendBuffer ι)) (r : BufferScan ι) :
    scanSendBuffer device dTime l [] r = ⟨r.passed ++ l, r.freed, r.events⟩ := by
  induction l generalizing r with
  | nil =>
    rw [List.append_nil]
    rfl
  | cons e l ih =>
    unfold scanSendBuffer
    dsimp only [scanRouteCache]
    rw [if_neg Bool.false_ne_true, ih, List.append_nil, ← List.append_cons]

/-- **A check** looks at the first entry only. -/
theorem checkSendBuffer_spec (n : SendNode ι) (routeCache : List (RouteCache ι)) (dTime : ℚ) :
    checkSendBuffer n routeCache dTime = (n, []) ∧
        (∀ e ∈ n.pstruSendBuffer.head?, isRouted routeCache e.target = false) ∨
      ∃ e l, n.pstruSendBuffer = e :: l ∧ isRouted routeCache e.target = true ∧
        checkSendBuffer n routeCache dTime =
          ({ n with pstruSendBuffer := l }, e.packet.map (networkOut n.device dTime)) := by
  unfold checkSendBuffer
  obtain ⟨device, buffer, packetDropped⟩ := n
  dsimp only
  cases buffer with
  | nil => exact .inl ⟨rfl, fun e he => absurd he (Option.not_mem_none e)⟩
  | cons e l =>
    unfold scanSendBuffer
    rw [scanRouteCache_eq]
    dsimp only
    rw [Bool.false_or]
    cases hrouted : isRouted routeCache e.target with
    | false =>
      rw [if_neg Bool.false_ne_true, if_neg Bool.false_ne_true, if_neg Bool.false_ne_true, scanSendBuffer_nil]
      refine .inl ⟨rfl, fun x hx => ?_⟩
      rw [← Option.some.inj hx]
      exact hrouted
    | true =>
      rw [if_pos rfl, if_pos rfl, if_pos rfl, scanSendBuffer_nil]
      have hremoved : emptyEntries e.target ([] ++ [{ e with packet := [] }]) = ([], []) := if_pos rfl
      rw [hremoved]
      exact .inr ⟨e, l, rfl, hrouted, rfl⟩

/-! ## The packets to one destination -/

/-- The packets to a destination, in their order. -/
def toDest (a : ι) (packets : List (WaitingPacket ι)) : List (WaitingPacket ι) := packets.filter fun p => p.szDestIp = a

/-- The packets that wait. -/
def waiting (l : List (SendBuffer ι)) : List (WaitingPacket ι) := l.flatMap SendBuffer.packet

theorem toDest_append (a : ι) (p q : List (WaitingPacket ι)) : toDest a (p ++ q) = toDest a p ++ toDest a q := List.filter_append ..

omit [DecidableEq ι] in
theorem waiting_cons (e : SendBuffer ι) (l : List (SendBuffer ι)) : waiting (e :: l) = e.packet ++ waiting l := List.flatMap_cons

theorem toDest_none {a : ι} {packets : List (WaitingPacket ι)} (h : ∀ p ∈ packets, p.szDestIp ≠ a) : toDest a packets = [] :=
  List.filter_eq_nil_iff.2 fun p hp hdest => h p hp (of_decide_eq_true hdest)

/-- **The entries** of a send buffer: one for each destination, with packets to it. -/
structure EntriesOk (l : List (SendBuffer ι)) : Prop where
  nodup : (l.map SendBuffer.target).Nodup
  packets : ∀ e ∈ l, e.packet ≠ [] ∧ ∀ p ∈ e.packet, p.szDestIp = e.target

omit [DecidableEq ι] in
theorem EntriesOk.tail (h : EntriesOk (e :: l)) : EntriesOk l where
  nodup := (List.nodup_cons.1 h.nodup).2
  packets x hx := h.packets x (List.mem_cons_of_mem e hx)

omit [DecidableEq ι] in
theorem EntriesOk.not_mem (h : EntriesOk (e :: l)) : e.target ∉ l.map SendBuffer.target := (List.nodup_cons.1 h.nodup).1

/-- Without an entry, nothing waits for a destination. -/
theorem EntriesOk.toDest_waiting (h : EntriesOk l) {a : ι} (ha : a ∉ l.map SendBuffer.target) : toDest a (waiting l) = [] := by
  refine toDest_none fun p hp heq => ha ?_
  obtain ⟨e, he, hpe⟩ := List.mem_flatMap.1 hp
  rw [← heq, (h.packets e he).2 p hpe]
  exact List.mem_map_of_mem he

/-- **An entry that is removed** takes all the packets to its destination with it. -/
theorem EntriesOk.remove (h : EntriesOk (before ++ e :: l)) (a : ι) :
    toDest a (waiting (before ++ e :: l)) = toDest a e.packet ++ toDest a (waiting (before ++ l)) := by
  induction before with
  | nil => rw [List.nil_append, List.nil_append, waiting_cons, toDest_append]
  | cons x before ih =>
    rw [List.cons_append, List.cons_append, waiting_cons, waiting_cons, toDest_append, toDest_append, ih h.tail]
    have hx : toDest a x.packet = [] ∨ toDest a e.packet = [] := by
      by_cases ha : x.target = a
      · refine .inr (toDest_none fun p hp heq => h.not_mem ?_)
        rw [ha, ← heq, (h.packets e (List.mem_append_right _ List.mem_cons_self)).2 p hp]
        exact List.mem_map_of_mem (List.mem_append_right _ List.mem_cons_self)
      · refine .inl (toDest_none fun p hp heq => ha ?_)
        rw [← heq, (h.packets x List.mem_cons_self).2 p hp]
    rcases hx with hx | hx
    · rw [hx, List.nil_append, List.nil_append]
    · rw [hx, List.nil_append, List.nil_append]

omit [DecidableEq ι] in
theorem EntriesOk.sublist {l' : List (SendBuffer ι)} (h : EntriesOk l) (hsub : l'.Sublist l) : EntriesOk l' where
  nodup := h.nodup.sublist (hsub.map SendBuffer.target)
  packets x hx := h.packets x (hsub.subset hx)

/-! ## Additions and removals -/

theorem addToEntries_target (packet : WaitingPacket ι) (dTime : ℚ) (l : List (SendBuffer ι)) :
    (addToEntries packet dTime l).map SendBuffer.target =
      if packet.szDestIp ∈ l.map SendBuffer.target then l.map SendBuffer.target
      else l.map SendBuffer.target ++ [packet.szDestIp] := by
  induction l with
  | nil => rfl
  | cons e l ih =>
    unfold addToEntries
    by_cases heq : packet.szDestIp = e.target
    · have hmem : packet.szDestIp ∈ (e :: l).map SendBuffer.target := heq ▸ List.mem_cons_self
      rw [if_pos heq, if_pos hmem, List.map_cons, List.map_cons]
      congr 1
      split
      · exact heq
      · rfl
    · have hmem : packet.szDestIp ∈ (e :: l).map SendBuffer.target ↔ packet.szDestIp ∈ l.map SendBuffer.target := by
        rw [List.map_cons, List.mem_cons]
        exact or_iff_right heq
      rw [if_neg heq, List.map_cons, ih]
      by_cases hl : packet.szDestIp ∈ l.map SendBuffer.target
      · rw [if_pos hl, if_pos (hmem.2 hl)]
        rfl
      · rw [if_neg hl, if_neg (mt hmem.1 hl)]
        rfl

/-- **An addition** puts the packet behind those that wait for its destination. -/
theorem EntriesOk.add (h : EntriesOk l) (packet : WaitingPacket ι) (dTime : ℚ) :
    EntriesOk (addToEntries packet dTime l) ∧
      ∀ a, toDest a (waiting (addToEntries packet dTime l)) = toDest a (waiting l) ++ toDest a [packet] := by
  refine ⟨⟨?_, ?_⟩, ?_⟩
  · rw [addToEntries_target]
    split
    · exact h.nodup
    · rename_i hnew
      exact List.nodup_append.2 ⟨h.nodup, List.nodup_cons.2 ⟨List.not_mem_nil, List.nodup_nil⟩,
        fun x hx y hy heq => hnew (by rw [← List.mem_singleton.1 hy, ← heq]; exact hx)⟩
  · induction l with
    | nil =>
      intro e he
      rw [List.mem_singleton.1 he]
      exact ⟨List.cons_ne_nil _ _, fun p hp => by rw [List.mem_singleton.1 hp]⟩
    | cons x l ih =>
      unfold addToEntries
      split
      · rename_i heq
        rw [if_neg (h.packets x List.mem_cons_self).1]
        intro e he
        rcases List.mem_cons.1 he with rfl | he
        · refine ⟨List.append_ne_nil_of_right_ne_nil _ (List.cons_ne_nil _ _), fun p hp => ?_⟩
          rcases List.mem_append.1 hp with hp | hp
          · exact (h.packets x List.mem_cons_self).2 p hp
          · rw [List.mem_singleton.1 hp]
            exact heq
        · exact h.packets e (List.mem_cons_of_mem x he)
      · intro e he
        rcases List.mem_cons.1 he with rfl | he
        · exact h.packets e List.mem_cons_self
        · exact ih h.tail e he
  · intro a
    induction l with
    | nil =>
      exact toDest_append a [] [packet]
    | cons x l ih =>
      unfold addToEntries
      split
      · rename_i heq
        rw [if_neg (h.packets x List.mem_cons_self).1, waiting_cons, waiting_cons]
        dsimp only
        rw [toDest_append, toDest_append, toDest_append, List.append_assoc, List.append_assoc]
        congr 1
        by_cases ha : packet.szDestIp = a
        · rw [h.tail.toDest_waiting (by rw [← ha, heq]; exact h.not_mem), List.append_nil, List.nil_append]
        · have hnone : toDest a [packet] = [] := toDest_none fun p hp => by rw [List.mem_singleton.1 hp]; exact ha
          rw [hnone, List.append_nil, List.nil_append]
      · rw [waiting_cons, waiting_cons, toDest_append, toDest_append, List.append_assoc, ih h.tail]

/-- What `fn_NetSim_DSR_EmptySendBuffer` removes. -/
theorem emptyEntries_spec (a : ι) (l : List (SendBuffer ι)) :
    emptyEntries a l = (l, []) ∨ ∃ before e rest, l = before ++ e :: rest ∧ emptyEntries a l = (before ++ rest, e.packet) := by
  induction l with
  | nil => exact .inl rfl
  | cons x l ih =>
    unfold emptyEntries
    split
    · exact .inr ⟨[], x, l, rfl, rfl⟩
    · rcases ih with heq | ⟨before, e, rest, rfl, heq⟩
      · rw [heq]
        exact .inl rfl
      · rw [heq]
        exact .inr ⟨x :: before, e, rest, rfl, rfl⟩

/-! ## Runs -/

/-- **The invariant of a run**: the packets to a destination that have arrived are those that have left, and behind them
those that wait. -/
structure BufferInv (arrived : List (WaitingPacket ι)) (left : List (Departure ι)) (n : SendNode ι) : Prop where
  entries : EntriesOk n.pstruSendBuffer
  split : ∀ a, toDest a arrived = toDest a (left.map Departure.packet) ++ toDest a (waiting n.pstruSendBuffer)

/-- An entry leaves. -/
theorem BufferInv.leave {gone : List (Departure ι)} {n' : SendNode ι} (h : BufferInv arrived left n)
    (hl : n.pstruSendBuffer = before ++ e :: l) (hl' : n'.pstruSendBuffer = before ++ l)
    (hgone : gone.map Departure.packet = e.packet) : BufferInv arrived (left ++ gone) n' where
  entries := by
    rw [hl']
    refine h.entries.sublist ?_
    rw [hl]
    exact (List.sublist_cons_self e l).append_left before
  split a := by
    have hok : EntriesOk (before ++ e :: l) := hl ▸ h.entries
    rw [h.split a, hl, hl', hok.remove a, List.map_append, hgone, toDest_append, List.append_assoc]

theorem BufferRun.inv (h : BufferRun arrived left n) : BufferInv arrived left n := by
  induction h with
  | start device => exact ⟨⟨List.nodup_nil, fun e he => absurd he List.not_mem_nil⟩, fun _ => rfl⟩
  | add packet dTime _ ih =>
    obtain ⟨hok, hadd⟩ := ih.entries.add packet dTime
    refine ⟨hok, fun a => ?_⟩
    dsimp only [addToSendBuffer]
    rw [toDest_append, ih.split a, hadd a, List.append_assoc]
  | @empty arrived left n targetAddress _ ih =>
    rcases emptyEntries_spec targetAddress n.pstruSendBuffer with heq | ⟨before, e, rest, hl, heq⟩
    · unfold emptySendBuffer
      rw [heq, List.map_nil, List.append_nil]
      exact ⟨ih.entries, ih.split⟩
    · refine ih.leave hl ?_ ?_
      · exact congrArg Prod.fst heq
      · rw [heq, List.map_map]
        exact List.map_id e.packet
  | @check arrived left n routeCache dTime _ ih =>
    rcases checkSendBuffer_spec n routeCache dTime with ⟨heq, -⟩ | ⟨e, l, hl, -, heq⟩
    · rw [heq, List.map_nil, List.append_nil]
      exact ih
    · have hfirst : n.pstruSendBuffer = [] ++ e :: l := hl
      rw [heq]
      refine ih.leave hfirst rfl ?_
      rw [List.map_map, List.map_map]
      exact List.map_id e.packet

/-! ## What a check should do -/

/-- **A check is right**: it removes the entries with a route and leaves the others, and it schedules to each destination with
a route the packets to it that have arrived and not left yet, in that order, and to the others none. -/
def FlushRight (arrived : List (WaitingPacket ι)) (left : List (Departure ι)) (n : SendNode ι) (routeCache : List (RouteCache ι))
    (dTime : ℚ) : Prop :=
  (checkSendBuffer n routeCache dTime).1.pstruSendBuffer = (n.pstruSendBuffer.filter fun e => !isRouted routeCache e.target) ∧
    ∀ a, toDest a ((checkSendBuffer n routeCache dTime).2.map NetworkOut.pPacket) =
      if isRouted routeCache a then (toDest a arrived).drop (toDest a (left.map Departure.packet)).length else []

/-- **When a check is right**: in every run, exactly if no destination behind the first one has a route. -/
theorem check_send_buffer_iff (h : BufferRun arrived left n) (routeCache : List (RouteCache ι)) (dTime : ℚ) :
    FlushRight arrived left n routeCache dTime ↔ ∀ e ∈ n.pstruSendBuffer.tail, isRouted routeCache e.target = false := by
  have hinv := h.inv
  have hwait : ∀ a, (toDest a arrived).drop (toDest a (left.map Departure.packet)).length = toDest a (waiting n.pstruSendBuffer) :=
    fun a => by rw [hinv.split a, List.drop_left]
  unfold FlushRight
  rcases checkSendBuffer_spec n routeCache dTime with ⟨heq, hfirst⟩ | ⟨e, l, hl, hrouted, heq⟩
  · rw [heq]
    dsimp only
    constructor
    · rintro ⟨hfilter, -⟩ e he
      exact (Bool.not_eq_true' _).mp (List.filter_eq_self.1 hfilter.symm e (List.mem_of_mem_tail he))
    · intro htail
      have hnone : ∀ e ∈ n.pstruSendBuffer, isRouted routeCache e.target = false := by
        intro e he
        cases hbuffer : n.pstruSendBuffer with
        | nil =>
          rw [hbuffer] at he
          cases he
        | cons x l =>
          rw [hbuffer] at he htail hfirst
          rcases List.mem_cons.1 he with rfl | he
          · exact hfirst e rfl
          · exact htail e he
      refine ⟨(List.filter_eq_self.2 fun e he => by rw [hnone e he]; rfl).symm, fun a => ?_⟩
      rw [hwait]
      split
      · rename_i ha
        refine (hinv.entries.toDest_waiting fun hmem => ?_).symm
        obtain ⟨e, he, rfl⟩ := List.mem_map.1 hmem
        rw [hnone e he] at ha
        cases ha
      · rfl
  · rw [heq, hl]
    dsimp only
    rw [List.filter_cons_of_neg (by rw [hrouted]; exact Bool.false_ne_true), List.tail_cons]
    have hok : EntriesOk (e :: l) := hl ▸ hinv.entries
    have hsent : (e.packet.map (networkOut n.device dTime)).map NetworkOut.pPacket = e.packet := by
      rw [List.map_map]
      exact List.map_id e.packet
    constructor
    · rintro ⟨hfilter, -⟩ x hx
      exact (Bool.not_eq_true' _).mp (List.filter_eq_self.1 hfilter.symm x hx)
    · intro htail
      refine ⟨(List.filter_eq_self.2 fun x hx => by rw [htail x hx]; rfl).symm, fun a => ?_⟩
      have hdest := (hok.packets e List.mem_cons_self).2
      rw [hsent, hwait, hl, waiting_cons, toDest_append]
      by_cases ha : a = e.target
      · subst ha
        rw [if_pos hrouted, hok.tail.toDest_waiting hok.not_mem, List.append_nil]
      · have hother : toDest a e.packet = [] := toDest_none fun p hp heq => ha (by rw [← heq, hdest p hp])
        rw [hother, List.nil_append]
        split
        · rename_i hroute
          refine (hok.tail.toDest_waiting fun hmem => ?_).symm
          obtain ⟨x, hx, rfl⟩ := List.mem_map.1 hmem
          rw [htail x hx] at hroute
          cases hroute
        · rfl

/-! ## Conservation -/

def Departure.isDropped : Departure ι → Bool
  | .scheduled _ => false
  | .dropped _ => true

theorem BufferRun.packetDropped (h : BufferRun arrived left n) : n.packetDropped = left.countP Departure.isDropped := by
  induction h with
  | start device => rfl
  | add packet dTime _ ih => exact ih
  | @empty arrived left n targetAddress _ ih =>
    have hall : ∀ packets : List (WaitingPacket ι), (packets.map Departure.dropped).countP Departure.isDropped = packets.length := by
      intro packets
      rw [List.countP_map]
      exact List.countP_eq_length.2 fun p _ => rfl
    rw [List.countP_append, hall, ← ih]
    rfl
  | @check arrived left n routeCache dTime _ ih =>
    have hnone : ∀ events : List (NetworkOut ι), (events.map Departure.scheduled).countP Departure.isDropped = 0 := by
      intro events
      rw [List.countP_map]
      exact List.countP_eq_zero.2 fun e _ => Bool.false_ne_true
    rw [List.countP_append, hnone, Nat.add_zero, ← ih]
    rcases checkSendBuffer_spec n routeCache dTime with ⟨heq, -⟩ | ⟨e, l, hl, -, heq⟩
    · rw [heq]
    · rw [heq]

/-- Lists with the same packets to each destination, in order, have the same packets. -/
theorem perm_of_toDest {p q : List (WaitingPacket ι)} (h : ∀ a, toDest a p = toDest a q) : p.Perm q := by
  refine List.perm_iff_count.2 fun x => ?_
  have hcount : ∀ l : List (WaitingPacket ι), (toDest x.szDestIp l).count x = l.count x := fun l =>
    List.count_filter (decide_eq_true rfl)
  rw [← hcount p, ← hcount q, h]

/-- **No packet is lost, and none leaves twice**: in every run, the packets that have arrived are those that have left and those
that wait, to each destination in the order in which they have arrived, and the count is that of the packets dropped. -/
theorem buffer_conserves (h : BufferRun arrived left n) :
    arrived.Perm (left.map Departure.packet ++ waiting n.pstruSendBuffer) ∧
      (∀ a, toDest a arrived = toDest a (left.map Departure.packet) ++ toDest a (waiting n.pstruSendBuffer)) ∧
      n.packetDropped = left.countP Departure.isDropped := by
  refine ⟨perm_of_toDest fun a => ?_, h.inv.split, h.packetDropped⟩
  rw [h.inv.split a, toDest_append]

/-! ## Two destinations -/

def packetTo (nPacketId : ℤ) (szDestIp : ℕ) : WaitingPacket ℕ := ⟨nPacketId, szDestIp, 1460, some (1, 0)⟩

/-- A node where packets to 5 and to 7 wait. -/
def twoWait : SendNode ℕ := ⟨⟨1, 1, 1⟩, [⟨5, 0, [packetTo 1 5, packetTo 3 5]⟩, ⟨7, 0, [packetTo 2 7]⟩], 0⟩

theorem bufferRun_twoWait : BufferRun [packetTo 1 5, packetTo 2 7, packetTo 3 5] [] twoWait :=
  .add (packetTo 3 5) 0 (.add (packetTo 2 7) 0 (.add (packetTo 1 5) 0 (.start ⟨1, 1, 1⟩)))

/-- The three packets wait. -/
theorem buffer_conserves_two : [packetTo 1 5, packetTo 2 7, packetTo 3 5].Perm (waiting twoWait.pstruSendBuffer) :=
  (buffer_conserves bufferRun_twoWait).1

/-- A route to 5 that does not lead over 7. -/
theorem check_send_buffer_first : FlushRight [packetTo 1 5, packetTo 2 7, packetTo 3 5] [] twoWait [⟨routeCacheTimeout, [1, 5]⟩] 0 :=
  (check_send_buffer_iff bufferRun_twoWait _ 0).2 (by decide)

/-- A route to 7 over 5: the packet to 7 stays. -/
theorem second_destination_waits : ¬ ∀ (arrived : List (WaitingPacket ℕ)) (left : List (Departure ℕ)) (n : SendNode ℕ),
    BufferRun arrived left n → ∀ routeCache dTime, FlushRight arrived left n routeCache dTime :=
  fun hall => absurd (hall _ _ _ bufferRun_twoWait [⟨routeCacheTimeout, [1, 5, 7]⟩] 0).1 (by decide)

end NetSim.Dsr
