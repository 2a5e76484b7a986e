import Mathlib.Algebra.Order.Ring.Rat
import Mathlib.Algebra.BigOperators.Group.List.Basic
import Mathlib.Tactic.Ring
import NetSim.Lib.Chain
import NetSim.Spec.EdcaQueue

/-!
# The queues of EDCA

* `getPacketFromQoslist_found`: a packet is taken out of a queue, and the other queues stay as they are.
* `run_gives`, `getPacketFromQueue_gives`: a retrieval is one pass over the queue, `retrieve`.
* `retrieve_order`, `oneReceiver_iff`: the order of the packets that leave, and when those that are returned have one receiver.
* `getFromQueue_refines`: the queue as a list of packets does the same.
-/

namespace NetSim.Wlan

open Chain

variable {P : Type*} [DecidableEq P]

namespace EdcaMem

variable {cfg : EdcaConfig P} {m m' : EdcaMem P} {queues : ℕ → List P} {list : QosList P} {v recvId : ℕ} {a : P} {l front rest : List P}

/-- The bits of some packets. -/
def bits (cfg : EdcaConfig P) (l : List P) : ℚ := (l.map cfg.siz).sum

omit [DecidableEq P] in
theorem bits_append (cfg : EdcaConfig P) (l l' : List P) : bits cfg (l ++ l') = bits cfg l + bits cfg l' := by
  unfold bits
  rw [List.map_append, List.sum_append]

omit [DecidableEq P] in
theorem bits_cons (cfg : EdcaConfig P) (a : P) (l : List P) : bits cfg (a :: l) = cfg.siz a + bits cfg l := by
  unfold bits
  rw [List.map_cons, List.sum_cons]

/-- **The memory holds the queues**: each has its head, its tail and its size, and no packet is in two of them. -/
structure Linked (cfg : EdcaConfig P) (m : EdcaMem P) (queues : ℕ → List P) : Prop where
  ended : ∀ v, Ended m.pstruNextPacket (m.qosList v).head (m.qosList v).tail (queues v)
  size : ∀ v, (m.qosList v).dCurrentSize = bits cfg (queues v)
  disjoint : ∀ v w x, x ∈ queues v → x ∈ queues w → v = w

omit [DecidableEq P] in
/-- A queue is replaced, and the links of the other packets stay as they are. -/
theorem Linked.replace (h : Linked cfg m queues) (hlist : m'.qosList = Function.update m.qosList v list)
    (hended : Ended m'.pstruNextPacket list.head list.tail l) (hsize : list.dCurrentSize = bits cfg l)
    (hframe : ∀ x, x ∉ queues v → m'.pstruNextPacket x = m.pstruNextPacket x)
    (hold : ∀ x ∈ l, x ∈ queues v ∨ ∀ w, x ∉ queues w) : Linked cfg m' (Function.update queues v l) where
  ended w := by
    rw [hlist]
    by_cases hw : w = v
    · subst hw
      rw [Function.update_self, Function.update_self]
      exact hended
    · rw [Function.update_of_ne hw, Function.update_of_ne hw]
      have hother := h.ended w
      exact ⟨hother.seg.congr fun x hx => hframe x fun hxv => hw (h.disjoint w v x hx hxv), hother.last⟩
  size w := by
    rw [hlist]
    by_cases hw : w = v
    · subst hw
      rw [Function.update_self, Function.update_self]
      exact hsize
    · rw [Function.update_of_ne hw, Function.update_of_ne hw]
      exact h.size w
  disjoint := by
    have hl : ∀ w x, w ≠ v → x ∈ l → x ∉ queues w := fun w x hw hx hxw =>
      (hold x hx).elim (fun hxv => hw (h.disjoint w v x hxw hxv)) fun hnew => hnew w hxw
    intro u w x hu hw
    by_cases huv : u = v
    · by_cases hwv : w = v
      · rw [huv, hwv]
      · rw [huv, Function.update_self] at hu
        rw [Function.update_of_ne hwv] at hw
        exact absurd hw (hl w x hwv hu)
    · rw [Function.update_of_ne huv] at hu
      by_cases hwv : w = v
      · rw [hwv, Function.update_self] at hw
        exact absurd hu (hl u x huv hw)
      · rw [Function.update_of_ne hwv] at hw
        exact h.disjoint u w x hu hw

/-- A write to the link of a packet that is in no queue. -/
theorem Linked.setNext (h : Linked cfg m queues) (ha : ∀ v, a ∉ queues v) (q : Option P) : Linked cfg (m.setNext a q) queues where
  ended v := (h.ended v).update_other (ha v) q
  size := h.size
  disjoint := h.disjoint

/-- The packet `a` is no longer linked, and only packets of its queue have changed. -/
structure Taken (m : EdcaMem P) (l : List P) (a : P) (m' : EdcaMem P) : Prop where
  out : m'.pstruNextPacket a = none
  frame : ∀ x, x ∉ l → m'.pstruNextPacket x = m.pstruNextPacket x
  dEventTime : m'.dEventTime = m.dEventTime
  bufferLog : m'.bufferLog = m.bufferLog

theorem takeHead_linked (h : Linked cfg m queues) (hq : queues v = a :: rest) :
    Linked cfg (m.takeHead cfg v a) (Function.update queues v rest) ∧ Taken m (queues v) a (m.takeHead cfg v a) := by
  have hended := h.ended v
  have hsize := h.size v
  rw [hq] at hended hsize
  have ha : a ∉ rest := (List.nodup_cons.1 hended.seg.nodup).1
  have hnext : (m.takeHead cfg v a).pstruNextPacket = Function.update m.pstruNextPacket a none := rfl
  have hout : (m.takeHead cfg v a).pstruNextPacket a = none := by rw [hnext, Function.update_self]
  have hframe : ∀ x, x ∉ queues v → (m.takeHead cfg v a).pstruNextPacket x = m.pstruNextPacket x := by
    intro x hx
    rw [hq, List.mem_cons, not_or] at hx
    rw [hnext, Function.update_of_ne hx.1]
  refine ⟨h.replace rfl (hended.remove_head.update_other ha none) ?_ hframe fun x hx => .inl ?_, hout, hframe, rfl, rfl⟩
  · dsimp only
    rw [hsize, bits_cons]
    ring
  · rw [hq]
    exact List.mem_cons_of_mem a hx

theorem takeBehind_linked {prev : P} (h : Linked cfg m queues) (hq : queues v = front ++ prev :: a :: rest) :
    Linked cfg (m.takeBehind cfg v prev a) (Function.update queues v (front ++ prev :: rest)) ∧
      Taken m (queues v) a (m.takeBehind cfg v prev a) := by
  have hended := h.ended v
  have hsize := h.size v
  rw [hq] at hended hsize
  have hsplit : front ++ prev :: a :: rest = (front ++ [prev]) ++ a :: rest := List.append_cons front prev (a :: rest)
  have hlast : some a = (m.qosList v).tail ↔ m.pstruNextPacket a = none := by
    rw [hsplit] at hended
    exact hended.last_iff
  have ha : a ∉ front ++ prev :: rest := by
    have hnodup := hended.seg.nodup
    rw [hsplit] at hnodup
    obtain ⟨-, hbehind, hbefore⟩ := List.nodup_append.1 hnodup
    rw [List.append_cons, List.mem_append, not_or]
    exact ⟨fun hmem => hbefore a hmem a List.mem_cons_self rfl, (List.nodup_cons.1 hbehind).1⟩
  have hnext : (m.takeBehind cfg v prev a).pstruNextPacket =
      Function.update (Function.update m.pstruNextPacket prev (m.pstruNextPacket a)) a none := rfl
  have hout : (m.takeBehind cfg v prev a).pstruNextPacket a = none := by rw [hnext, Function.update_self]
  have hframe : ∀ x, x ∉ queues v → (m.takeBehind cfg v prev a).pstruNextPacket x = m.pstruNextPacket x := by
    intro x hx
    rw [hq, List.mem_append, List.mem_cons, List.mem_cons, not_or, not_or, not_or] at hx
    rw [hnext, Function.update_of_ne hx.2.2.1, Function.update_of_ne hx.2.1]
  refine ⟨h.replace rfl ?_ ?_ hframe fun x hx => .inl ?_, hout, hframe, rfl, rfl⟩
  · have hremoved := hended.remove.update_other ha none
    rw [if_congr hlast.symm rfl rfl] at hremoved
    exact hremoved
  · dsimp only
    rw [hsize, bits_append, bits_append, bits_cons, bits_cons, bits_cons]
    ring
  · rw [hq]
    rw [List.mem_append, List.mem_cons] at hx ⊢
    exact hx.imp_right (Or.imp_right (List.mem_cons_of_mem a))

/-! ## One packet -/

/-- What `get_packet_from_qoslist` looks for. -/
def Wants (cfg : EdcaConfig P) (recvId : ℕ) (x : P) : Prop := recvId = 0 ∨ cfg.nReceiverId x = recvId

omit [DecidableEq P] in
theorem searchRound_found {start : Option P} (prev : Option P) (h : Seg m.pstruNextPacket start (front ++ a :: rest) none)
    (hfront : ∀ x ∈ front, cfg.nReceiverId x ≠ recvId) (ha : cfg.nReceiverId a = recvId) :
    Loop.Yields (m.searchRound cfg recvId) (· = (some a, front.getLast?.or prev)) (start, prev) := by
  induction front generalizing start prev with
  | nil =>
    obtain ⟨rfl, -⟩ := h
    exact .of_inr (if_neg (not_not.2 ha)) rfl
  | cons x front ih =>
    obtain ⟨rfl, hrest⟩ := h
    have hlast : (x :: front).getLast?.or prev = front.getLast?.or (some x) := by
      rw [List.getLast?_cons, Option.some_or]
      cases front.getLast? with
      | none => rfl
      | some z => rfl
    rw [hlast]
    exact .of_inl (if_pos (hfront x List.mem_cons_self))
      (ih (some x) hrest fun y hy => hfront y (List.mem_cons_of_mem x hy))

omit [DecidableEq P] in
theorem searchRound_missing {start : Option P} (prev : Option P) (h : Seg m.pstruNextPacket start l none)
    (hl : ∀ x ∈ l, cfg.nReceiverId x ≠ recvId) : Loop.Yields (m.searchRound cfg recvId) (·.1 = none) (start, prev) := by
  induction l generalizing start prev with
  | nil =>
    obtain rfl : start = none := h
    exact .of_inr rfl rfl
  | cons x l ih =>
    obtain ⟨rfl, hrest⟩ := h
    exact .of_inl (if_pos (hl x List.mem_cons_self)) (ih (some x) hrest fun y hy => hl y (List.mem_cons_of_mem x hy))

/-- The first packet that is wanted is taken out. -/
theorem getPacketFromQoslist_found (h : Linked cfg m queues) (hq : queues v = front ++ a :: rest)
    (hfront : ∀ x ∈ front, ¬ Wants cfg recvId x) (ha : Wants cfg recvId a) :
    ∃ m', Loop.Gives (fun rounds => m.getPacketFromQoslist cfg v recvId rounds) (m', some a) ∧
      Linked cfg m' (Function.update queues v (front ++ rest)) ∧ Taken m (queues v) a m' := by
  have hended := h.ended v
  have hhead : (m.qosList v).head = (queues v).head? := hended.seg.head_eq
  by_cases hany : recvId = 0
  · obtain rfl : front = [] := List.eq_nil_iff_forall_not_mem.2 fun x hx => hfront x hx (.inl hany)
    rw [hq] at hhead
    refine ⟨m.takeHead cfg v a, ?_, takeHead_linked h hq⟩
    have hget : (fun rounds => m.getPacketFromQoslist cfg v recvId rounds) = fun _ => some (m.takeHead cfg v a, some a) := by
      funext rounds
      unfold getPacketFromQoslist
      rw [hhead]
      exact if_pos hany
    rw [hget]
    exact .const _
  · have hfront' : ∀ x ∈ front, cfg.nReceiverId x ≠ recvId := fun x hx heq => hfront x hx (.inr heq)
    have hsearch := searchRound_found none (hq ▸ hended.seg) hfront' (ha.resolve_left hany)
    obtain ⟨found, hfound, hgives⟩ := hsearch.gives
    obtain ⟨first, hfirst⟩ : ∃ first, (m.qosList v).head = some first := by
      rw [hhead, hq]
      cases front with
      | nil => exact ⟨a, rfl⟩
      | cons x front => exact ⟨x, rfl⟩
    have hget : (fun rounds => m.getPacketFromQoslist cfg v recvId rounds) = fun rounds =>
        (Loop.run (m.searchRound cfg recvId) rounds ((m.qosList v).head, none)).map (m.takeFound cfg v) := by
      funext rounds
      unfold getPacketFromQoslist
      rw [hfirst]
      exact if_neg hany
    rw [hget]
    rcases List.eq_nil_or_concat' front with rfl | ⟨front, prev, rfl⟩
    · refine ⟨m.takeHead cfg v a, ?_, takeHead_linked h hq⟩
      rw [hfound] at hgives
      exact hgives.map (m.takeFound cfg v)
    · rw [← List.append_cons] at hq ⊢
      refine ⟨m.takeBehind cfg v prev a, ?_, takeBehind_linked h hq⟩
      rw [hfound, List.getLast?_concat] at hgives
      exact hgives.map (m.takeFound cfg v)

/-- No packet is wanted. -/
theorem getPacketFromQoslist_missing (h : Linked cfg m queues) (hq : ∀ x ∈ queues v, ¬ Wants cfg recvId x) :
    Loop.Gives (fun rounds => m.getPacketFromQoslist cfg v recvId rounds) (m, none) := by
  have hended := h.ended v
  have hhead : (m.qosList v).head = (queues v).head? := hended.seg.head_eq
  cases hl : queues v with
  | nil =>
    rw [hl] at hhead
    have hget : (fun rounds => m.getPacketFromQoslist cfg v recvId rounds) = fun _ => some (m, none) := by
      funext rounds
      unfold getPacketFromQoslist
      rw [hhead]
      rfl
    rw [hget]
    exact .const _
  | cons x l =>
    have hany : recvId ≠ 0 := by
      intro hany
      refine hq x ?_ (.inl hany)
      rw [hl]
      exact List.mem_cons_self
    have hsearch := searchRound_missing none hended.seg fun y hy heq => hq y hy (.inr heq)
    obtain ⟨⟨found, prev⟩, hfound, hgives⟩ := hsearch.gives
    obtain rfl : found = none := hfound
    rw [hl] at hhead
    have hget : (fun rounds => m.getPacketFromQoslist cfg v recvId rounds) = fun rounds =>
        (Loop.run (m.searchRound cfg recvId) rounds ((m.qosList v).head, none)).map (m.takeFound cfg v) := by
      funext rounds
      unfold getPacketFromQoslist
      rw [hhead]
      exact if_neg hany
    rw [hget]
    exact hgives.map (m.takeFound cfg v)

/-! ## A retrieval -/

omit [DecidableEq P] in
instance (cfg : EdcaConfig P) (recvId : ℕ) (x : P) : Decidable (Wants cfg recvId x) :=
  inferInstanceAs (Decidable (recvId = 0 ∨ cfg.nReceiverId x = recvId))

/-- **A retrieval as one pass over the queue**, when `p` is the first packet so far and `k` packets are required: the packets that
leave the queue, and the others. -/
def retrieve (cfg : EdcaConfig P) (expired : P → Bool) : Option P → ℕ → List P → List P × List P
  | _, _, [] => ([], [])
  | p, k, a :: l =>
    if k = 0 then ([], a :: l)
    else if Wants cfg (p.elim 0 cfg.nReceiverId) a then
      let r := if expired a then retrieve cfg expired p k l else retrieve cfg expired (p.or (some a)) (k - 1) l
      (a :: r.1, r.2)
    else
      let r := retrieve cfg expired p k l
      (r.1, a :: r.2)

section Retrieve

variable {expired : P → Bool} {p : Option P} {k : ℕ}

omit [DecidableEq P]

theorem retrieve_zero (p : Option P) (l : List P) : retrieve cfg expired p 0 l = ([], l) := by
  cases l with
  | nil => rfl
  | cons a l => exact if_pos rfl

theorem retrieve_skip (hk : k ≠ 0) (ha : ¬ Wants cfg (p.elim 0 cfg.nReceiverId) a) :
    retrieve cfg expired p k (a :: l) = ((retrieve cfg expired p k l).1, a :: (retrieve cfg expired p k l).2) :=
  (if_neg hk).trans (if_neg ha)

theorem retrieve_expired (hk : k ≠ 0) (ha : Wants cfg (p.elim 0 cfg.nReceiverId) a) (hexp : expired a = true) :
    retrieve cfg expired p k (a :: l) = (a :: (retrieve cfg expired p k l).1, (retrieve cfg expired p k l).2) := by
  rw [retrieve, if_neg hk, if_pos ha]
  dsimp only
  rw [if_pos hexp]

theorem retrieve_returned (hk : k ≠ 0) (ha : Wants cfg (p.elim 0 cfg.nReceiverId) a) (hexp : expired a = false) :
    retrieve cfg expired p k (a :: l) =
      (a :: (retrieve cfg expired (p.or (some a)) (k - 1) l).1, (retrieve cfg expired (p.or (some a)) (k - 1) l).2) := by
  rw [retrieve, if_neg hk, if_pos ha]
  dsimp only
  rw [if_neg (by rw [hexp]; exact Bool.false_ne_true)]

end Retrieve

/-- The packets whose lifetime is not over. -/
def unexpired (expired : P → Bool) (l : List P) : List P := l.filter fun x => !expired x

section Unexpired

variable {expired : P → Bool}

omit [DecidableEq P]

theorem unexpired_append (l l' : List P) : unexpired expired (l ++ l') = unexpired expired l ++ unexpired expired l' :=
  List.filter_append l l'

theorem unexpired_cons_of_true (h : expired a = true) (l : List P) : unexpired expired (a :: l) = unexpired expired l :=
  List.filter_cons_of_neg (by rw [h]; exact Bool.false_ne_true)

theorem unexpired_cons_of_false (h : expired a = false) (l : List P) : unexpired expired (a :: l) = a :: unexpired expired l :=
  List.filter_cons_of_pos (by rw [h]; rfl)

end Unexpired

/-- The line of the buffer log for a packet that has left the queue. -/
def leaveLine (now : ℚ) (v : ℕ) (expired : P → Bool) (x : P) : BufferLine P :=
  ⟨now, v, x, if expired x then .lifeTimeExpired else .dequeue⟩

/-- From the memory `m`, the packets `taken` have left the queue and `l` is what stays; the packets `out` and those of `taken`
whose lifetime was not over are linked. -/
structure Passed (cfg : EdcaConfig P) (now : ℚ) (v : ℕ) (expired : P → Bool) (m : EdcaMem P) (queues : ℕ → List P)
    (out taken l : List P) (m' : EdcaMem P) (p : Option P) : Prop where
  linked : Linked cfg m' (Function.update queues v l)
  chain : Seg m'.pstruNextPacket p (out ++ unexpired expired taken) none
  bufferLog : m'.bufferLog = m.bufferLog ++ taken.map (leaveLine now v expired)
  dEventTime : m'.dEventTime = m.dEventTime

section Loop

variable {now : ℚ} {n : ℕ} {s s₁ s' : GetLoop P} {expired : P → Bool} {out : List P}

theorem run_turn (hi : s.i < n) {m₁ : EdcaMem P}
    (hfound : Loop.Gives (fun rounds => s.mem.getPacketFromQoslist cfg v (s.p.elim 0 cfg.nReceiverId) rounds) (m₁, some a))
    (hreceive : GetLoop.receive cfg now v a { s with mem := m₁ } = some s₁)
    (hrun : Loop.Gives (fun rounds => GetLoop.run cfg now v n rounds s₁) s') :
    Loop.Gives (fun rounds => GetLoop.run cfg now v n rounds s) s' := by
  have hnext : Loop.Gives (fun rounds => (GetLoop.receive cfg now v a { s with mem := m₁ }).bind
      (GetLoop.run cfg now v n rounds)) s' := by
    rw [hreceive]
    exact hrun
  exact .succ rfl (fun rounds => if_pos hi) (hfound.bind hnext)

omit [DecidableEq P] in
/-- Nothing leaves the queue. -/
theorem Passed.nothing (h : Linked cfg m queues) (hq : queues v = l) {p pl : Option P} (hchain : Ended m.pstruNextPacket p pl out) :
    Passed cfg now v expired m queues out [] l m p := by
  refine ⟨?_, ?_, (List.append_nil _).symm, rfl⟩
  · rw [← hq, Function.update_eq_self]
    exact h
  · rw [show unexpired expired ([] : List P) = [] from rfl, List.append_nil]
    exact hchain.seg

omit [DecidableEq P] in
/-- A packet has left the queue, and then others. -/
theorem Passed.cons {m₁ : EdcaMem P} {out' taken : List P} {p : Option P}
    (h : Passed cfg now v expired m₁ (Function.update queues v rest) out' taken l m' p)
    (hlog : m₁.bufferLog = m.bufferLog ++ [leaveLine now v expired a]) (htime : m₁.dEventTime = m.dEventTime)
    (hout : out' = out ++ unexpired expired [a]) :
    Passed cfg now v expired m queues out (a :: taken) l m' p := by
  refine ⟨?_, ?_, ?_, h.dEventTime.trans htime⟩
  · have hlinked := h.linked
    rw [Function.update_idem] at hlinked
    exact hlinked
  · have hchain := h.chain
    rw [hout, List.append_assoc, ← unexpired_append] at hchain
    exact hchain
  · rw [h.bufferLog, hlog, List.append_assoc, List.map_cons]
    rfl

theorem receive_first (hexp : s.mem.isExpired cfg now v a = false) (hp : s.p = none) : GetLoop.receive cfg now v a s =
    some ⟨s.mem.write ⟨now, v, a, .dequeue⟩, some a, some a, s.i + 1, s.nPacketCount + 1⟩ := by
  unfold GetLoop.receive
  rw [if_neg (by rw [hexp]; exact Bool.false_ne_true), hp]

theorem receive_next {b z : P} (hexp : s.mem.isExpired cfg now v a = false) (hp : s.p = some b) (hpl : s.pl = some z) :
    GetLoop.receive cfg now v a s = some ⟨(s.mem.write ⟨now, v, a, .dequeue⟩).setNext z (some a), some b, some a, s.i + 1,
      s.nPacketCount + 1⟩ := by
  unfold GetLoop.receive
  rw [if_neg (by rw [hexp]; exact Bool.false_ne_true), hp, hpl]
  rfl

/-- **The loop of a retrieval is one pass** over the packets behind those that are not wanted. -/
theorem run_gives (h : Linked cfg s.mem queues) (hq : queues v = front ++ rest)
    (hfront : ∀ x ∈ front, ¬ Wants cfg (s.p.elim 0 cfg.nReceiverId) x) (hchain : Ended s.mem.pstruNextPacket s.p s.pl out)
    (hout : ∀ x ∈ out, ∀ w, x ∉ queues w) (hexp : ∀ x, s.mem.isExpired cfg now v x = expired x) :
    ∃ s', Loop.Gives (fun rounds => GetLoop.run cfg now v n rounds s) s' ∧
      Passed cfg now v expired s.mem queues out (retrieve cfg expired s.p (n - s.i) rest).1
        (front ++ (retrieve cfg expired s.p (n - s.i) rest).2) s'.mem s'.p := by
  induction rest generalizing s queues front out with
  | nil =>
    refine ⟨s, ?_, .nothing h hq hchain⟩
    by_cases hi : s.i < n
    · rw [List.append_nil] at hq
      have hmissing := getPacketFromQoslist_missing (v := v) h (by rw [hq]; exact hfront)
      exact .succ rfl (fun rounds => if_pos hi) (hmissing.bind (.const s))
    · exact .succ rfl (fun rounds => if_neg hi) (.const s)
  | cons a rest ih =>
    by_cases hi : s.i < n
    case neg =>
      rw [Nat.sub_eq_zero_of_le (not_lt.1 hi), retrieve_zero]
      exact ⟨s, .succ rfl (fun rounds => if_neg hi) (.const s), .nothing h hq hchain⟩
    have hk : n - s.i ≠ 0 := Nat.sub_ne_zero_of_lt hi
    by_cases ha : Wants cfg (s.p.elim 0 cfg.nReceiverId) a
    case neg =>
      rw [List.append_cons] at hq
      rw [retrieve_skip hk ha, List.append_cons]
      refine ih h hq (fun x hx => ?_) hchain hout hexp
      rcases List.mem_append.1 hx with hx | hx
      · exact hfront x hx
      · rw [List.mem_singleton.1 hx]
        exact ha
    obtain ⟨m₁, hfound, hlinked, htaken⟩ := getPacketFromQoslist_found h hq hfront ha
    -- what the other packets and the chain see of it
    have haq : a ∈ queues v := by
      rw [hq]
      exact List.mem_append_right front List.mem_cons_self
    have hrest : ∀ x w, x ∈ Function.update queues v (front ++ rest) w → x ∈ queues w := by
      intro x w hx
      by_cases hw : w = v
      · rw [hw, Function.update_self] at hx
        rw [hw, hq]
        exact (List.mem_append.1 hx).elim (List.mem_append_left _) fun hx =>
          List.mem_append_right _ (List.mem_cons_of_mem a hx)
      · rw [Function.update_of_ne hw] at hx
        exact hx
    have haout : ∀ w, a ∉ Function.update queues v (front ++ rest) w := by
      have hnodup := (h.ended v).seg.nodup
      rw [hq] at hnodup
      obtain ⟨-, hbehind, hbefore⟩ := List.nodup_append.1 hnodup
      intro w hw
      obtain rfl := h.disjoint w v a (hrest a w hw) haq
      rw [Function.update_self] at hw
      rcases List.mem_append.1 hw with hw | hw
      · exact hbefore a hw a List.mem_cons_self rfl
      · exact (List.nodup_cons.1 hbehind).1 hw
    have hout₁ : ∀ x ∈ out, ∀ w, x ∉ Function.update queues v (front ++ rest) w := fun x hx w hw => hout x hx w (hrest x w hw)
    have hchain₁ : Ended m₁.pstruNextPacket s.p s.pl out :=
      ⟨hchain.seg.congr fun x hx => htaken.frame x (hout x hx v), hchain.last⟩
    have hexp₁ : ∀ x, m₁.isExpired cfg now v x = expired x := by
      intro x
      rw [← hexp x]
      unfold isExpired
      rw [htaken.dEventTime]
    have hq₁ : Function.update queues v (front ++ rest) v = front ++ rest := Function.update_self v _ queues
    cases hexpired : expired a with
    | true =>
      rw [retrieve_expired hk ha hexpired]
      have hreceive : GetLoop.receive cfg now v a { s with mem := m₁ } =
          some { s with mem := m₁.write ⟨now, v, a, .lifeTimeExpired⟩ } := if_pos ((hexp₁ a).trans hexpired)
      obtain ⟨s', hgives, hpassed⟩ := @ih _ front { s with mem := m₁.write ⟨now, v, a, .lifeTimeExpired⟩ } out
        ⟨hlinked.ended, hlinked.size, hlinked.disjoint⟩ hq₁ hfront hchain₁ hout₁ hexp₁
      refine ⟨s', run_turn hi hfound hreceive hgives, hpassed.cons ?_ htaken.dEventTime ?_⟩
      · show m₁.bufferLog ++ _ = _
        rw [htaken.bufferLog, leaveLine, hexpired]
        rfl
      · exact (List.append_nil out).symm.trans (congrArg (out ++ ·) (unexpired_cons_of_true hexpired []).symm)
    | false =>
      rw [retrieve_returned hk ha hexpired, Nat.sub_sub]
      have hnotexp : m₁.isExpired cfg now v a = false := (hexp₁ a).trans hexpired
      have hline : m₁.bufferLog ++ [⟨now, v, a, .dequeue⟩] = s.mem.bufferLog ++ [leaveLine now v expired a] := by
        rw [htaken.bufferLog, leaveLine, hexpired]
        rfl
      have hreturned : unexpired expired [a] = [a] := unexpired_cons_of_false hexpired []
      have hwritten : Linked cfg (m₁.write ⟨now, v, a, .dequeue⟩) (Function.update queues v (front ++ rest)) :=
        ⟨hlinked.ended, hlinked.size, hlinked.disjoint⟩
      cases hp : s.p with
      | none =>
        rw [hp] at hfront hchain
        obtain rfl : front = [] := List.eq_nil_iff_forall_not_mem.2 fun x hx => hfront x hx (.inl rfl)
        have hnone : out = [] := by
          cases out with
          | nil => rfl
          | cons x out => exact absurd hchain.seg.1 (Option.some_ne_none x).symm
        obtain ⟨s', hgives, hpassed⟩ := @ih _ [] ⟨m₁.write ⟨now, v, a, .dequeue⟩, some a, some a, s.i + 1, s.nPacketCount + 1⟩ [a]
          hwritten hq₁ (fun x hx => absurd hx List.not_mem_nil) ⟨⟨rfl, htaken.out⟩, rfl⟩
          (fun x hx w => by rw [List.mem_singleton.1 hx]; exact haout w) hexp₁
        refine ⟨s', run_turn hi hfound (receive_first hnotexp hp) hgives, hpassed.cons hline htaken.dEventTime ?_⟩
        rw [hreturned, hnone, List.nil_append]
      | some b =>
        have hlast := hchain.last
        have hne : out ≠ [] := by
          rintro rfl
          exact absurd (hchain.seg.symm.trans hp) (Option.some_ne_none b).symm
        obtain ⟨z, hz⟩ := Option.ne_none_iff_exists'.1 (mt List.getLast?_eq_none_iff.1 hne)
        rw [hz] at hlast
        have hzout : z ∈ out := List.mem_of_getLast? hz
        have hza : z ≠ a := fun heq => hout z hzout v (heq ▸ haq)
        have hended : Ended m₁.pstruNextPacket (some b) (some z) out := by
          rw [hp, hlast] at hchain₁
          exact hchain₁
        have hlink : Seg m₁.pstruNextPacket (some a) [a] none := ⟨rfl, htaken.out⟩
        have hnew : ∀ x ∈ [a], x ∉ out := by
          intro x hx hxout
          rw [List.mem_singleton.1 hx] at hxout
          exact hout a hxout v haq
        have hlinked₁ := hwritten.setNext (hout₁ z hzout) (some a)
        obtain ⟨s', hgives, hpassed⟩ := @ih _ front
          ⟨(m₁.write ⟨now, v, a, .dequeue⟩).setNext z (some a), some b, some a, s.i + 1, s.nPacketCount + 1⟩ (out ++ [a])
          hlinked₁ hq₁ (by rw [hp] at hfront; exact hfront) (hended.append hlink (List.cons_ne_nil a []) hnew)
          (fun x hx w => by
            rcases List.mem_append.1 hx with hx | hx
            · exact hout₁ x hx w
            · rw [List.mem_singleton.1 hx]
              exact haout w) hexp₁
        refine ⟨s', run_turn hi hfound (receive_next hnotexp hp hlast) hgives, hpassed.cons hline htaken.dEventTime ?_⟩
        rw [hreturned]

end Loop

/-- **A retrieval ends**, and is one pass over the queue. -/
theorem getPacketFromQueue_gives (h : Linked cfg m queues) (now : ℚ) (v n nPacketCount : ℕ) :
    ∃ m' p count, Loop.Gives (fun rounds => m.getPacketFromQueue cfg now v n nPacketCount rounds) (m', p, count) ∧
      Passed cfg now v (m.isExpired cfg now v) m queues [] (retrieve cfg (m.isExpired cfg now v) none n (queues v)).1
        (retrieve cfg (m.isExpired cfg now v) none n (queues v)).2 m' p := by
  have hhead : (m.qosList v).head = (queues v).head? := (h.ended v).seg.head_eq
  cases hl : queues v with
  | nil =>
    rw [hl] at hhead
    refine ⟨m, none, 0, ?_, .nothing h hl (⟨rfl, rfl⟩ : Ended m.pstruNextPacket none none [])⟩
    have hget : (fun rounds => m.getPacketFromQueue cfg now v n nPacketCount rounds) = fun _ => some (m, none, 0) := by
      funext rounds
      unfold getPacketFromQueue
      rw [hhead]
      rfl
    rw [hget]
    exact .const _
  | cons a l =>
    obtain ⟨s', hgives, hpassed⟩ := run_gives (s := ⟨m, none, none, 0, nPacketCount⟩) (n := n) h (hl : queues v = [] ++ a :: l)
      (fun x hx => absurd hx List.not_mem_nil) (⟨rfl, rfl⟩ : Ended m.pstruNextPacket none none [])
      (fun x hx => absurd hx List.not_mem_nil) fun _ => rfl
    rw [hl] at hhead
    refine ⟨s'.mem, s'.p, s'.nPacketCount, ?_, hpassed⟩
    have hget : (fun rounds => m.getPacketFromQueue cfg now v n nPacketCount rounds) = fun rounds =>
        (GetLoop.run cfg now v n rounds ⟨m, none, none, 0, nPacketCount⟩).map fun s => (s.mem, s.p, s.nPacketCount) := by
      funext rounds
      unfold getPacketFromQueue
      rw [hhead]
      rfl
    rw [hget]
    exact hgives.map fun s => (s.mem, s.p, s.nPacketCount)

/-! ## The receivers -/

/-- The packets to a receiver. -/
def toReceiver (cfg : EdcaConfig P) (r : ℕ) (l : List P) : List P := l.filter fun x => cfg.nReceiverId x = r

section Receivers

variable {expired : P → Bool} {p : Option P} {k r : ℕ}

omit [DecidableEq P]

theorem toReceiver_append (l l' : List P) : toReceiver cfg r (l ++ l') = toReceiver cfg r l ++ toReceiver cfg r l' :=
  List.filter_append l l'

theorem toReceiver_cons_of_eq (h : cfg.nReceiverId a = r) (l : List P) : toReceiver cfg r (a :: l) = a :: toReceiver cfg r l :=
  List.filter_cons_of_pos (decide_eq_true h)

theorem toReceiver_cons_of_ne (h : cfg.nReceiverId a ≠ r) (l : List P) : toReceiver cfg r (a :: l) = toReceiver cfg r l :=
  List.filter_cons_of_neg fun htrue => h (of_decide_eq_true htrue)

/-- Behind a packet to one receiver, only packets to it leave the queue. -/
theorem retrieve_receiver {b : P} (hb : cfg.nReceiverId b ≠ 0) (l : List P) :
    ∀ x ∈ (retrieve cfg expired (some b) k l).1, cfg.nReceiverId x = cfg.nReceiverId b := by
  induction l generalizing k with
  | nil => exact fun x hx => absurd hx List.not_mem_nil
  | cons a l ih =>
    intro x hx
    by_cases hk : k = 0
    · rw [hk, retrieve_zero] at hx
      exact absurd hx List.not_mem_nil
    by_cases ha : Wants cfg ((some b).elim 0 cfg.nReceiverId) a
    · have hab : cfg.nReceiverId a = cfg.nReceiverId b := ha.resolve_left hb
      cases hexp : expired a with
      | true =>
        rw [retrieve_expired hk ha hexp] at hx
        rcases List.mem_cons.1 hx with rfl | hx
        · exact hab
        · exact ih x hx
      | false =>
        rw [retrieve_returned hk ha hexp] at hx
        rcases List.mem_cons.1 hx with rfl | hx
        · exact hab
        · exact ih x hx
    · rw [retrieve_skip hk ha] at hx
      exact ih x hx

/-- Behind a broadcast, the first packets leave the queue. -/
theorem retrieve_broadcast {b : P} (hb : cfg.nReceiverId b = 0) (l : List P) :
    unexpired expired (retrieve cfg expired (some b) k l).1 = (unexpired expired l).take k := by
  induction l generalizing k with
  | nil => exact List.take_nil.symm
  | cons a l ih =>
    by_cases hk : k = 0
    · rw [hk, retrieve_zero]
      rfl
    have ha : Wants cfg ((some b).elim 0 cfg.nReceiverId) a := .inl hb
    cases hexp : expired a with
    | true =>
      rw [retrieve_expired hk ha hexp, unexpired_cons_of_true hexp, unexpired_cons_of_true hexp, ih]
    | false =>
      obtain ⟨k, rfl⟩ := Nat.exists_eq_succ_of_ne_zero hk
      rw [retrieve_returned hk ha hexp, unexpired_cons_of_false hexp, unexpired_cons_of_false hexp, List.take_succ_cons]
      exact congrArg (a :: ·) ih

/-- **The packets to one receiver leave the queue in their order.** -/
theorem retrieve_order (r : ℕ) (l : List P) : toReceiver cfg r (retrieve cfg expired p k l).1 ++
    toReceiver cfg r (retrieve cfg expired p k l).2 = toReceiver cfg r l := by
  induction l generalizing p k with
  | nil => rfl
  | cons a l ih =>
    by_cases hk : k = 0
    · rw [hk, retrieve_zero]
      rfl
    have hcons : ∀ taken l', toReceiver cfg r taken ++ toReceiver cfg r l' = toReceiver cfg r l →
        toReceiver cfg r (a :: taken) ++ toReceiver cfg r l' = toReceiver cfg r (a :: l) := by
      intro taken l' heq
      by_cases har : cfg.nReceiverId a = r
      · rw [toReceiver_cons_of_eq har, toReceiver_cons_of_eq har, List.cons_append, heq]
      · rw [toReceiver_cons_of_ne har, toReceiver_cons_of_ne har, heq]
    by_cases ha : Wants cfg (p.elim 0 cfg.nReceiverId) a
    · cases hexp : expired a with
      | true =>
        rw [retrieve_expired hk ha hexp]
        exact hcons _ _ ih
      | false =>
        rw [retrieve_returned hk ha hexp]
        exact hcons _ _ ih
    · rw [retrieve_skip hk ha]
      have hrest := @ih p k
      by_cases har : cfg.nReceiverId a = r
      · cases p with
        | none => exact absurd (.inl rfl) ha
        | some b =>
          -- nothing to this receiver leaves
          have hb : cfg.nReceiverId b ≠ 0 := fun hzero => ha (.inl hzero)
          have hnone : toReceiver cfg r (retrieve cfg expired (some b) k l).1 = [] := by
            refine List.filter_eq_nil_iff.2 fun x hx htrue => ha (.inr ?_)
            rw [har, ← of_decide_eq_true htrue]
            exact retrieve_receiver hb l x hx
          rw [hnone, List.nil_append] at hrest ⊢
          rw [toReceiver_cons_of_eq har, toReceiver_cons_of_eq har, hrest]
      · rw [toReceiver_cons_of_ne har, toReceiver_cons_of_ne har, hrest]

theorem retrieve_sublist (l : List P) : (retrieve cfg expired p k l).2.Sublist l := by
  induction l generalizing p k with
  | nil => exact .slnil
  | cons a l ih =>
    by_cases hk : k = 0
    · rw [hk, retrieve_zero]
    by_cases ha : Wants cfg (p.elim 0 cfg.nReceiverId) a
    · cases hexp : expired a with
      | true =>
        rw [retrieve_expired hk ha hexp]
        exact ih.cons a
      | false =>
        rw [retrieve_returned hk ha hexp]
        exact ih.cons a
    · rw [retrieve_skip hk ha]
      exact ih.cons_cons a

/-- The packets have one receiver. -/
def OneReceiver (cfg : EdcaConfig P) (l : List P) : Prop := ∀ x ∈ l, ∀ y ∈ l, cfg.nReceiverId x = cfg.nReceiverId y

/-- If the first packet whose lifetime is not over is a broadcast, so are the first `n` of these packets. -/
def Unmixed (cfg : EdcaConfig P) (expired : P → Bool) (n : ℕ) (l : List P) : Prop :=
  ∀ b, (unexpired expired l).head? = some b → cfg.nReceiverId b = 0 →
    ∀ x ∈ (unexpired expired l).take n, cfg.nReceiverId x = 0

/-- **The packets that are returned have one receiver** exactly if they are not mixed. -/
theorem oneReceiver_iff (n : ℕ) (l : List P) :
    OneReceiver cfg (unexpired expired (retrieve cfg expired none n l).1) ↔ Unmixed cfg expired n l := by
  by_cases hn : n = 0
  · rw [hn, retrieve_zero]
    exact ⟨fun _ b _ _ x hx => absurd hx List.not_mem_nil, fun _ x hx => absurd hx List.not_mem_nil⟩
  induction l with
  | nil => exact ⟨fun _ b hb => absurd hb.symm (Option.some_ne_none b), fun _ x hx => absurd hx List.not_mem_nil⟩
  | cons a l ih =>
    have ha : Wants cfg ((none : Option P).elim 0 cfg.nReceiverId) a := .inl rfl
    cases hexp : expired a with
    | true =>
      rw [retrieve_expired hn ha hexp, unexpired_cons_of_true hexp, ih, Unmixed, Unmixed, unexpired_cons_of_true hexp]
    | false =>
      rw [retrieve_returned hn ha hexp, unexpired_cons_of_false hexp, Unmixed, unexpired_cons_of_false hexp, Option.none_or]
      obtain ⟨n, rfl⟩ := Nat.exists_eq_succ_of_ne_zero hn
      rw [List.take_succ_cons]
      by_cases hzero : cfg.nReceiverId a = 0
      · rw [retrieve_broadcast hzero]
        constructor
        · intro hone b _ _ x hx
          exact (hone x hx a List.mem_cons_self).trans hzero
        · intro hall x hx y hy
          rw [hall a rfl hzero x hx, hall a rfl hzero y hy]
      · have hsame : ∀ x ∈ a :: unexpired expired (retrieve cfg expired (some a) n l).1,
            cfg.nReceiverId x = cfg.nReceiverId a := by
          intro x hx
          rcases List.mem_cons.1 hx with rfl | hx
          · rfl
          · exact retrieve_receiver hzero l x (List.mem_of_mem_filter hx)
        constructor
        · intro _ b hb hb0
          obtain rfl := Option.some.inj hb
          exact absurd hb0 hzero
        · exact fun _ x hx y hy => (hsame x hx).trans (hsame y hy).symm

end Receivers

end EdcaMem

open EdcaMem

variable {cfg : EdcaConfig P} {m : EdcaMem P}

/-! ## The queue as a list of packets -/

/-- The station `c` has the parameters of the queue, and `packet` the fields of the packets. -/
structure QueueView (cfg : EdcaConfig P) (v : ℕ) (m : EdcaMem P) (c : MacConfig) (packet : P → Packet) : Prop where
  mediumAccessProtocol : c.mediumAccessProtocol = cfg.mediumAccessProtocol
  msduLifeTime : c.msduLifeTime = cfg.msduLifeTime v
  nReceiverId : ∀ x, (packet x).nReceiverId = cfg.nReceiverId x
  dEventTime : ∀ x, (packet x).dEventTime = m.dEventTime x

section Refinement

variable {v k recvId fuel : ℕ} {c : MacConfig} {packet : P → Packet} {now : ℚ} {a : P} {p : Option P} {front rest out : List P}
  (h : QueueView cfg v m c packet)
include h

omit [DecidableEq P]

theorem QueueView.isExpired (x : P) : c.isExpired now (packet x) = m.isExpired cfg now v x := by
  unfold MacConfig.isExpired EdcaMem.isExpired
  rw [h.mediumAccessProtocol, h.msduLifeTime, h.dEventTime]

theorem QueueView.first (hp : out.head? = p) :
    (out.map packet).head?.elim 0 Packet.nReceiverId = p.elim 0 cfg.nReceiverId := by
  rw [List.head?_map, hp]
  cases p with
  | none => rfl
  | some b => exact h.nReceiverId b

theorem QueueView.skip (hfront : ∀ x ∈ front, ¬ Wants cfg recvId x) (list : List Packet) :
    getPacketFromQoslist recvId (front.map packet ++ list) =
      (getPacketFromQoslist recvId list).map fun r => (r.1, front.map packet ++ r.2) := by
  induction front with
  | nil =>
    show Wlan.getPacketFromQoslist recvId list = (Wlan.getPacketFromQoslist recvId list).map id
    rw [Option.map_id]
    rfl
  | cons x front ih =>
    have hx : ¬ (recvId = 0 ∨ (packet x).nReceiverId = recvId) := by
      rw [h.nReceiverId]
      exact hfront x List.mem_cons_self
    rw [List.map_cons, List.cons_append, getPacketFromQoslist, if_neg hx,
      ih fun y hy => hfront y (List.mem_cons_of_mem x hy), Option.map_map]
    rfl

/-- The list of packets is passed over in the same way. -/
theorem QueueView.getPackets (hfuel : rest.length ≤ fuel) (hp : out.head? = p)
    (hfront : ∀ x ∈ front, ¬ Wants cfg (p.elim 0 cfg.nReceiverId) x) :
    getPackets c now fuel k (out.map packet) ((front ++ rest).map packet) =
      ((out ++ unexpired (m.isExpired cfg now v) (retrieve cfg (m.isExpired cfg now v) p k rest).1).map packet,
        (front ++ (retrieve cfg (m.isExpired cfg now v) p k rest).2).map packet) := by
  induction rest generalizing fuel k p out front with
  | nil =>
    have hmissing : getPacketFromQoslist ((out.map packet).head?.elim 0 Packet.nReceiverId) ((front ++ []).map packet) = none := by
      rw [h.first hp, List.map_append, h.skip hfront]
      rfl
    refine (?_ : _ = (out.map packet, (front ++ []).map packet)).trans
      (congrArg (fun l => (List.map packet l, (front ++ []).map packet)) (List.append_nil out).symm)
    cases fuel with
    | zero => rfl
    | succ fuel =>
      cases k with
      | zero => rfl
      | succ k => rw [Wlan.getPackets, hmissing]
  | cons a rest ih =>
    obtain ⟨fuel, rfl⟩ : ∃ n, fuel = n + 1 := ⟨fuel - 1, by rw [List.length_cons] at hfuel; omega⟩
    have hfuel' : rest.length ≤ fuel := Nat.le_of_succ_le_succ hfuel
    cases k with
    | zero =>
      rw [retrieve_zero]
      exact congrArg (·.map packet, _) (List.append_nil out).symm
    | succ k =>
      by_cases ha : Wants cfg (p.elim 0 cfg.nReceiverId) a
      case neg =>
        rw [retrieve_skip (Nat.succ_ne_zero k) ha]
        dsimp only
        rw [List.append_cons front a rest, List.append_cons front a (retrieve cfg (m.isExpired cfg now v) p (k + 1) rest).2]
        refine ih (Nat.le_succ_of_le hfuel') hp fun x hx => ?_
        rcases List.mem_append.1 hx with hx | hx
        · exact hfront x hx
        · rw [List.mem_singleton.1 hx]
          exact ha
      have hfound : getPacketFromQoslist ((out.map packet).head?.elim 0 Packet.nReceiverId) ((front ++ a :: rest).map packet) =
          some (packet a, (front ++ rest).map packet) := by
        have hwanted : p.elim 0 cfg.nReceiverId = 0 ∨ (packet a).nReceiverId = p.elim 0 cfg.nReceiverId := by
          rw [h.nReceiverId]
          exact ha
        rw [h.first hp, List.map_append, h.skip hfront, List.map_cons, Wlan.getPacketFromQoslist, if_pos hwanted, List.map_append]
        rfl
      rw [Wlan.getPackets, hfound]
      dsimp only
      rw [h.isExpired]
      cases hexp : m.isExpired cfg now v a with
      | true =>
        rw [if_pos rfl, retrieve_expired (Nat.succ_ne_zero k) ha hexp, unexpired_cons_of_true hexp]
        exact ih hfuel' hp hfront
      | false =>
        rw [if_neg Bool.false_ne_true, retrieve_returned (Nat.succ_ne_zero k) ha hexp, unexpired_cons_of_false hexp,
          List.append_cons out]
        have hfront' : ∀ x ∈ front, ¬ Wants cfg ((p.or (some a)).elim 0 cfg.nReceiverId) x := by
          cases p with
          | none => exact fun x hx => absurd (.inl rfl) (hfront x hx)
          | some b => exact hfront
        have hmap : out.map packet ++ [packet a] = (out ++ [a]).map packet := by
          rw [List.map_append]
          rfl
        rw [hmap]
        exact ih hfuel' (by rw [List.head?_append, hp]; rfl) hfront'

end Refinement

/-- **The queue as a list of packets does the same**: it returns and keeps the packets that the memory returns and keeps. -/
theorem getFromQueue_refines {queues : ℕ → List P} (hlinked : Linked cfg m queues) (v : ℕ) (c : MacConfig) (packet : P → Packet)
    (h : QueueView cfg v m c packet) (now : ℚ) (nPacketCount : ℕ) : ∃ m' p count out l,
    Loop.Gives (fun rounds => m.getPacketFromQueue cfg now v c.nNumberOfAggregatedPackets nPacketCount rounds) (m', p, count) ∧
      Seg m'.pstruNextPacket p out none ∧ Linked cfg m' (Function.update queues v l) ∧
      getFromQueue c now ((queues v).map packet) = (out.map packet, l.map packet) := by
  obtain ⟨m', p, count, hgives, hpassed⟩ := getPacketFromQueue_gives hlinked now v c.nNumberOfAggregatedPackets nPacketCount
  have hfuel : (queues v).length ≤ ((queues v).map packet).length := le_of_eq (List.length_map packet).symm
  have hskip : ∀ x ∈ ([] : List P), ¬ Wants cfg ((none : Option P).elim 0 cfg.nReceiverId) x := fun x hx => absurd hx List.not_mem_nil
  have hpackets : getFromQueue c now ((queues v).map packet) = _ := h.getPackets hfuel List.head?_nil hskip
  exact ⟨m', p, count, _, _, hgives, hpassed.chain, hpassed.linked, hpackets⟩

end NetSim.Wlan
