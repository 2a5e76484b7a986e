import NetSim.Proof.EdcaQueue

/-!
# Runs of the queues of EDCA

* `Accounted`: the buffer log accounts for the packets of each queue, in every run.
* `addToQueue_spec`, `Accounted.passed`: additions and retrievals keep the queues in order.
* `edca_queue_iff`: when the packets of a retrieval have one receiver.
-/

namespace NetSim.Wlan

open Chain

variable {P : Type*} [DecidableEq P]

namespace EdcaMem

variable {cfg : EdcaConfig P} {m m' : EdcaMem P} {queues : ℕ → List P} {v : ℕ} {a : P} {l : List P}

def IsEntry (v : ℕ) (line : BufferLine P) : Bool := line.interface = v ∧ line.action = .enqueue

def IsExit (v : ℕ) (line : BufferLine P) : Bool := line.interface = v ∧ (line.action = .dequeue ∨ line.action = .lifeTimeExpired)

/-- The packets that have come into the queue of an interface. -/
def entered (log : List (BufferLine P)) (v : ℕ) : List P := (log.filter (IsEntry v)).map BufferLine.packet

/-- The packets that have left it, as they were returned or their lifetime was over. -/
def left (log : List (BufferLine P)) (v : ℕ) : List P := (log.filter (IsExit v)).map BufferLine.packet

/-- **What the buffer log accounts for**: for each receiver, the packets that have come in are those that have left and then those
of the queue, and a packet that has expired had exceeded its lifetime. -/
structure Accounted (cfg : EdcaConfig P) (m : EdcaMem P) (queues : ℕ → List P) : Prop where
  logged : ∀ v x, x ∈ queues v → ∃ line ∈ m.bufferLog, line.packet = x
  order : ∀ v r, toReceiver cfg r (entered m.bufferLog v) =
    toReceiver cfg r (left m.bufferLog v) ++ toReceiver cfg r (queues v)
  expired : ∀ line ∈ m.bufferLog, line.action = .lifeTimeExpired →
    m.isExpired cfg line.dEventTime line.interface line.packet = true

section Log

variable {log : List (BufferLine P)} {line : BufferLine P} {lines : List (BufferLine P)} {now : ℚ} {w : ℕ} {expired : P → Bool}

omit [DecidableEq P]

theorem entered_append (log lines : List (BufferLine P)) (v : ℕ) :
    entered (log ++ lines) v = entered log v ++ entered lines v := by
  unfold entered
  rw [List.filter_append, List.map_append]

theorem left_append (log lines : List (BufferLine P)) (v : ℕ) : left (log ++ lines) v = left log v ++ left lines v := by
  unfold left
  rw [List.filter_append, List.map_append]

theorem entered_singleton (h : line.interface = v ∧ line.action = .enqueue) : entered [line] v = [line.packet] :=
  congrArg (List.map BufferLine.packet) (List.filter_cons_of_pos (p := IsEntry v) (decide_eq_true h))

theorem entered_other (h : ¬ (line.interface = v ∧ line.action = .enqueue)) : entered [line] v = [] :=
  congrArg (List.map BufferLine.packet) (List.filter_cons_of_neg (p := IsEntry v) fun htrue => h (of_decide_eq_true htrue))

theorem left_other (h : line.action = .drop ∨ line.action = .enqueue) : left [line] v = [] := by
  unfold left
  rw [List.map_eq_nil_iff, List.filter_eq_nil_iff]
  intro x hx htrue
  rw [List.mem_singleton.1 hx] at htrue
  have haction := (of_decide_eq_true htrue).2
  rcases h with heq | heq
  · rw [heq] at haction
    exact haction.elim (fun hno => absurd hno (by decide)) fun hno => absurd hno (by decide)
  · rw [heq] at haction
    exact haction.elim (fun hno => absurd hno (by decide)) fun hno => absurd hno (by decide)

theorem entered_leaveLine (taken : List P) (w : ℕ) : entered (taken.map (leaveLine now v expired)) w = [] := by
  unfold entered
  rw [List.map_eq_nil_iff, List.filter_eq_nil_iff]
  intro line hline htrue
  obtain ⟨x, -, rfl⟩ := List.mem_map.1 hline
  have haction := (of_decide_eq_true htrue).2
  unfold leaveLine at haction
  dsimp only at haction
  split at haction
  · cases haction
  · cases haction

theorem left_leaveLine (taken : List P) : left (taken.map (leaveLine now v expired)) v = taken := by
  unfold left
  rw [List.filter_eq_self.2, List.map_map]
  · exact List.map_id' taken
  · intro line hline
    obtain ⟨x, -, rfl⟩ := List.mem_map.1 hline
    refine decide_eq_true ⟨rfl, ?_⟩
    unfold leaveLine
    dsimp only
    split
    · exact .inr rfl
    · exact .inl rfl

theorem left_leaveLine_of_ne (taken : List P) (hw : w ≠ v) : left (taken.map (leaveLine now v expired)) w = [] := by
  unfold left
  rw [List.map_eq_nil_iff, List.filter_eq_nil_iff]
  intro line hline htrue
  obtain ⟨x, -, rfl⟩ := List.mem_map.1 hline
  exact hw (of_decide_eq_true htrue).1.symm

theorem isExpired_congr (h : m'.dEventTime a = m.dEventTime a) (now : ℚ) (v : ℕ) :
    m'.isExpired cfg now v a = m.isExpired cfg now v a := by
  unfold isExpired
  rw [h]

/-- A retrieval is accounted for. -/
theorem Accounted.passed {out : List P} {p q : Option P} {k : ℕ} (h : Accounted cfg m queues)
    (hpassed : Passed cfg now v (m.isExpired cfg now v) m queues out (retrieve cfg (m.isExpired cfg now v) q k (queues v)).1
      (retrieve cfg (m.isExpired cfg now v) q k (queues v)).2 m' p) :
    Accounted cfg m' (Function.update queues v (retrieve cfg (m.isExpired cfg now v) q k (queues v)).2) where
  logged w x hx := by
    have hold : x ∈ queues w := by
      by_cases hw : w = v
      · subst hw
        rw [Function.update_self] at hx
        exact (retrieve_sublist _).subset hx
      · rw [Function.update_of_ne hw] at hx
        exact hx
    obtain ⟨line, hline, hpacket⟩ := h.logged w x hold
    rw [hpassed.bufferLog]
    exact ⟨line, List.mem_append_left _ hline, hpacket⟩
  order w r := by
    rw [hpassed.bufferLog, entered_append, left_append, entered_leaveLine, List.append_nil, h.order w r]
    by_cases hw : w = v
    · subst hw
      rw [left_leaveLine, Function.update_self, toReceiver_append, List.append_assoc, retrieve_order]
    · rw [left_leaveLine_of_ne _ hw, Function.update_of_ne hw, List.append_nil]
  expired line hline haction := by
    rw [isExpired_congr (congrFun hpassed.dEventTime _)]
    rw [hpassed.bufferLog] at hline
    rcases List.mem_append.1 hline with hline | hline
    · exact h.expired line hline haction
    · obtain ⟨x, -, rfl⟩ := List.mem_map.1 hline
      by_contra hnot
      unfold leaveLine at haction hnot
      dsimp only at haction hnot
      rw [if_neg hnot] at haction
      cases haction

end Log

omit [DecidableEq P] in
/-- A new packet is accounted for. -/
theorem Accounted.write {m : EdcaMem P} {line : BufferLine P} (h : Accounted cfg m queues)
    (hnew : ∀ old ∈ m.bufferLog, old.packet ≠ line.packet)
    (hlog : m'.bufferLog = m.bufferLog ++ [line]) (htime : ∀ x, x ≠ line.packet → m'.dEventTime x = m.dEventTime x)
    (haction : line.action = .drop ∧ l = queues v ∨
      line.action = .enqueue ∧ line.interface = v ∧ l = queues v ++ [line.packet]) :
    Accounted cfg m' (Function.update queues v l) where
  logged w x hx := by
    rw [hlog]
    have hold : x ∈ queues w ∨ x = line.packet := by
      by_cases hw : w = v
      · subst hw
        rw [Function.update_self] at hx
        rcases haction with ⟨-, hl⟩ | ⟨-, -, hl⟩
        · rw [hl] at hx
          exact .inl hx
        · rw [hl] at hx
          exact (List.mem_append.1 hx).imp_right List.mem_singleton.1
      · rw [Function.update_of_ne hw] at hx
        exact .inl hx
    rcases hold with hold | rfl
    · obtain ⟨old, hmem, hpacket⟩ := h.logged w x hold
      exact ⟨old, List.mem_append_left _ hmem, hpacket⟩
    · exact ⟨line, List.mem_append_right _ (List.mem_singleton.2 rfl), rfl⟩
  order w r := by
    have hleft : left [line] w = [] := left_other (haction.imp And.left And.left)
    rw [hlog, entered_append, left_append, hleft, List.append_nil, toReceiver_append, h.order w r]
    rcases haction with ⟨hact, rfl⟩ | ⟨hact, rfl, rfl⟩
    · have hentered : entered [line] w = [] := by
        refine entered_other fun hand => ?_
        rw [hact] at hand
        exact absurd hand.2 (by decide)
      rw [hentered, Function.update_eq_self]
      exact List.append_nil _
    · by_cases hw : w = line.interface
      · subst hw
        rw [entered_singleton ⟨rfl, hact⟩, Function.update_self, toReceiver_append, List.append_assoc]
      · rw [entered_other fun hand => hw hand.1.symm, Function.update_of_ne hw]
        exact List.append_nil _
  expired old hold haction' := by
    rw [hlog] at hold
    rcases List.mem_append.1 hold with hold | hold
    · rw [isExpired_congr (htime _ (hnew old hold))]
      exact h.expired old hold haction'
    · rw [List.mem_singleton.1 hold] at haction'
      rcases haction with ⟨hact, -⟩ | ⟨hact, -, -⟩
      · exact absurd (haction'.symm.trans hact) (by decide)
      · exact absurd (haction'.symm.trans hact) (by decide)

/-- **A packet is added**, or the queue has no room for it. -/
theorem addToQueue_spec (h : Linked cfg m queues) (hacc : Accounted cfg m queues) (hnew : m.IsNew a) (now : ℚ) (interface : ℕ) :
    ∃ m' vin queues', m.addToQueue cfg now interface a = some (m', vin) ∧ Linked cfg m' queues' ∧ Accounted cfg m' queues' := by
  obtain ⟨hlink, hlog⟩ := hnew
  obtain ⟨vin, hvin⟩ : ∃ vin, cfg.findVirtualMacInterface interface (getAcFromQos (cfg.nQOS a)) = vin := ⟨_, rfl⟩
  have hended := h.ended vin
  have haq : ∀ w, a ∉ queues w := by
    intro w hw
    obtain ⟨line, hline, hpacket⟩ := hacc.logged w a hw
    exact hlog line hline hpacket
  have htime : ∀ x, x ≠ a → Function.update m.dEventTime a now x = m.dEventTime x := fun x hx => by
    rw [Function.update_of_ne hx]
  have hsize : (m.qosList vin).dCurrentSize + cfg.siz a = bits cfg (queues vin ++ [a]) := by
    rw [h.size vin, bits_append, bits_cons]
    exact congrArg (bits cfg (queues vin) + ·) (add_zero _).symm
  have hold : ∀ x ∈ queues vin ++ [a], x ∈ queues vin ∨ ∀ w, x ∉ queues w := fun x hx =>
    (List.mem_append.1 hx).imp_right fun hx => by
      rw [List.mem_singleton.1 hx]
      exact haq
  unfold addToQueue
  dsimp only
  rw [hvin]
  split
  · refine ⟨_, _, queues, rfl, ⟨h.ended, h.size, h.disjoint⟩, ?_⟩
    have hwrite : Accounted cfg ({ m with dEventTime := Function.update m.dEventTime a now }.write ⟨now, vin, a, .drop⟩)
      (Function.update queues vin (queues vin)) := hacc.write hlog rfl htime (.inl ⟨rfl, rfl⟩)
    rw [Function.update_eq_self] at hwrite
    exact hwrite
  · have hhead := hended.seg.head_eq
    have hlast := hended.last
    cases hl : queues vin with
    | nil =>
      rw [hl] at hhead
      refine ⟨_, _, Function.update queues vin (queues vin ++ [a]), by rw [hhead]; rfl, ?_,
        hacc.write hlog rfl htime (.inr ⟨rfl, rfl, rfl⟩)⟩
      have hended' : Ended m.pstruNextPacket (some a) (some a) (queues vin ++ [a]) := by
        rw [hl]
        exact ⟨⟨rfl, hlink⟩, rfl⟩
      exact h.replace rfl hended' hsize (fun x _ => rfl) hold
    | cons x l =>
      rw [hl] at hhead
      obtain ⟨z, hz⟩ := Option.ne_none_iff_exists'.1 (mt List.getLast?_eq_none_iff.1 (hl ▸ List.cons_ne_nil x l))
      rw [hz] at hlast
      have hzq : z ∈ queues vin := List.mem_of_getLast? hz
      refine ⟨_, _, Function.update queues vin (queues vin ++ [a]), by rw [hhead, hlast]; rfl, ?_,
        hacc.write hlog rfl htime (.inr ⟨rfl, rfl, rfl⟩)⟩
      have hlinka : Seg m.pstruNextPacket (some a) [a] none := ⟨rfl, hlink⟩
      have hended' : Ended (Function.update m.pstruNextPacket z (some a)) (some x) (some a) (queues vin ++ [a]) := by
        rw [hlast] at hended
        have happended := hended.append hlinka (List.cons_ne_nil a []) fun y hy => by
          rw [List.mem_singleton.1 hy]
          exact haq vin
        rw [hhead] at happended
        exact happended
      refine h.replace rfl hended' hsize (fun y hy => ?_) hold
      have hyz : y ≠ z := fun heq => hy (heq ▸ hzq)
      show Function.update m.pstruNextPacket z (some a) y = m.pstruNextPacket y
      rw [Function.update_of_ne hyz]

end EdcaMem

open EdcaMem

variable {cfg : EdcaConfig P} {start m : EdcaMem P} {retrievals : List (Retrieval P)}

namespace Retrieval

variable {r : Retrieval P} {l out out' : List P}

/-- What the retrieval has returned, and what it has written for the packets that have left the queue. -/
structure Returns (cfg : EdcaConfig P) (r : Retrieval P) (out : List P) : Prop where
  chain : Seg r.after.pstruNextPacket r.packet out none
  bufferLog : ∃ taken, out = unexpired (r.before.isExpired cfg r.now r.interface) taken ∧
    r.after.bufferLog = r.before.bufferLog ++ taken.map (leaveLine r.now r.interface (r.before.isExpired cfg r.now r.interface))

/-- The packets that have left the queue were returned, all of them to one receiver, or their lifetime was over. -/
def Right (cfg : EdcaConfig P) (r : Retrieval P) : Prop := ∃ out, r.Returns cfg out ∧ OneReceiver cfg out

/-- If the first packet in the queue whose lifetime is not over is a broadcast, so are the first `nPacketRequire` of these
packets. -/
def Unmixed (cfg : EdcaConfig P) (r : Retrieval P) : Prop :=
  ∀ l, Ended r.before.pstruNextPacket (r.before.qosList r.interface).head (r.before.qosList r.interface).tail l →
    EdcaMem.Unmixed cfg (r.before.isExpired cfg r.now r.interface) r.nPacketRequire l

omit [DecidableEq P] in
theorem right_iff_unmixed {queues : ℕ → List P} (h : Linked cfg r.before queues)
    (hpassed : Passed cfg r.now r.interface (r.before.isExpired cfg r.now r.interface) r.before queues []
      (retrieve cfg (r.before.isExpired cfg r.now r.interface) none r.nPacketRequire (queues r.interface)).1
      (retrieve cfg (r.before.isExpired cfg r.now r.interface) none r.nPacketRequire (queues r.interface)).2 r.after r.packet) :
    r.Right cfg ↔ r.Unmixed cfg := by
  have hended := h.ended r.interface
  have hchain := hpassed.chain
  rw [List.nil_append] at hchain
  have hright : r.Right cfg ↔ OneReceiver cfg (unexpired (r.before.isExpired cfg r.now r.interface)
      (retrieve cfg (r.before.isExpired cfg r.now r.interface) none r.nPacketRequire (queues r.interface)).1) := by
    constructor
    · rintro ⟨out, hreturns, hone⟩
      rw [← hreturns.chain.unique hchain]
      exact hone
    · exact fun hone => ⟨_, ⟨hchain, _, rfl, hpassed.bufferLog⟩, hone⟩
  rw [hright, oneReceiver_iff]
  constructor
  · intro hunmixed l hl
    rw [hl.seg.unique hended.seg]
    exact hunmixed
  · exact fun hunmixed => hunmixed _ hended

end Retrieval

/-- **The queue of an interface is in order**: `dCurrentSize` is the size of its packets, the tail is the last one, for each
receiver the packets that have come in are those that have left and then those of the queue, and a packet that has left
because of its lifetime had exceeded it. -/
structure InOrder (cfg : EdcaConfig P) (m : EdcaMem P) (v : ℕ) (l : List P) : Prop where
  ended : Ended m.pstruNextPacket (m.qosList v).head (m.qosList v).tail l
  size : (m.qosList v).dCurrentSize = bits cfg l
  order : ∀ r, toReceiver cfg r (entered m.bufferLog v) = toReceiver cfg r (left m.bufferLog v) ++ toReceiver cfg r l
  expired : ∀ line ∈ m.bufferLog, line.interface = v → line.action = .lifeTimeExpired →
    m.isExpired cfg line.dEventTime v line.packet = true

/-- **The invariant of a run**, and what its retrievals return. -/
theorem EdcaRun.inv (hstart : start.IsStart) (h : EdcaRun cfg start retrievals m) :
    (∃ queues, Linked cfg m queues ∧ Accounted cfg m queues) ∧ ∀ r ∈ retrievals, (r.Right cfg ↔ r.Unmixed cfg) := by
  induction h with
  | start =>
    obtain ⟨hlog, hlists⟩ := hstart
    refine ⟨⟨fun _ => [], ⟨fun v => ?_, fun v => (hlists v).2.2, fun _ _ x hx => absurd hx List.not_mem_nil⟩,
      fun _ x hx => absurd hx List.not_mem_nil, fun v r => ?_, fun line hline => ?_⟩, fun r hr => absurd hr List.not_mem_nil⟩
    · rw [(hlists v).1, (hlists v).2.1]
      exact ⟨rfl, rfl⟩
    · rw [hlog]
      rfl
    · rw [hlog] at hline
      exact absurd hline List.not_mem_nil
  | add _ hnew hadd ih =>
    obtain ⟨⟨queues, hlinked, haccounted⟩, hall⟩ := ih
    obtain ⟨m', vin, queues', hadd', hlinked', haccounted'⟩ := addToQueue_spec hlinked haccounted hnew _ _
    obtain ⟨rfl, -⟩ := Prod.mk.inj (Option.some.inj (hadd.symm.trans hadd'))
    exact ⟨⟨queues', hlinked', haccounted'⟩, hall⟩
  | @get _ m m' now v n nPacketCount _ p _ hget ih =>
    obtain ⟨⟨queues, hlinked, haccounted⟩, hall⟩ := ih
    obtain ⟨_, _, _, hgives, hpassed⟩ := getPacketFromQueue_gives hlinked now v n nPacketCount
    obtain ⟨rfl, heq⟩ := Prod.mk.inj (hgives.eq hget)
    obtain ⟨rfl, -⟩ := Prod.mk.inj heq
    refine ⟨⟨_, hpassed.linked, haccounted.passed hpassed⟩, fun r hr => ?_⟩
    rcases List.mem_append.1 hr with hr | hr
    · exact hall r hr
    · rw [List.mem_singleton.1 hr]
      exact Retrieval.right_iff_unmixed hlinked hpassed

/-- **The queues of EDCA**, in every run of additions and retrievals: each queue is in order, the next addition and the next
retrieval have a result, and a retrieval is right exactly if the packets that it meets are not mixed. -/
theorem edca_queue_iff (cfg : EdcaConfig P) {start m : EdcaMem P} {retrievals : List (Retrieval P)} (hstart : start.IsStart)
    (h : EdcaRun cfg start retrievals m) :
    (∀ v, ∃ l, InOrder cfg m v l) ∧ (∀ r ∈ retrievals, (r.Right cfg ↔ r.Unmixed cfg)) ∧
      (∀ now interface p, m.IsNew p → ∃ r, m.addToQueue cfg now interface p = some r) ∧
      ∀ now v n nPacketCount, ∃ r, Loop.Gives (fun rounds => m.getPacketFromQueue cfg now v n nPacketCount rounds) r := by
  obtain ⟨⟨queues, hlinked, haccounted⟩, hall⟩ := h.inv hstart
  refine ⟨fun v => ⟨queues v, hlinked.ended v, hlinked.size v, haccounted.order v, ?_⟩, hall, ?_, ?_⟩
  · rintro line hline rfl haction
    exact haccounted.expired line hline haction
  · intro now interface p hnew
    obtain ⟨m', vin, -, hadd, -⟩ := addToQueue_spec hlinked haccounted hnew now interface
    exact ⟨_, hadd⟩
  · intro now v n nPacketCount
    obtain ⟨m', p, count, hgives, -⟩ := getPacketFromQueue_gives hlinked now v n nPacketCount
    exact ⟨_, hgives⟩

/-! ## Two packets -/

/-- Packet 1 is a broadcast, the others are addressed to device 7. -/
def edcaConfig : EdcaConfig ℕ where
  mediumAccessProtocol := .edcaf
  msduLifeTime _ := 500000
  findVirtualInterface ac := ac
  nQOS _ := 5
  nReceiverId p := if p = 1 then 0 else 7
  packetSize _ := 1500

def emptyQueues : EdcaMem ℕ := ⟨fun _ => ⟨none, none, 0, 0⟩, fun _ => none, fun _ => 0, []⟩

/-- A packet is added at the time 0. -/
def addAtZero (m : EdcaMem ℕ) (p : ℕ) : EdcaMem ℕ := ((m.addToQueue edcaConfig 0 1 p).getD (m, 0)).1

/-- Two packets are added, and two are required. -/
theorem twoPackets_run (a b : ℕ) (h : (addAtZero emptyQueues a).IsNew b) : ∃ m p,
    EdcaRun edcaConfig emptyQueues [⟨addAtZero (addAtZero emptyQueues a) b, 0, 1, 2, m, p⟩] m := by
  have hfirst : EdcaRun edcaConfig emptyQueues [] (addAtZero emptyQueues a) :=
    .add .start ⟨rfl, fun line hline => absurd hline List.not_mem_nil⟩
      (rfl : emptyQueues.addToQueue edcaConfig 0 1 a = some (addAtZero emptyQueues a, 1))
  have hsecond : EdcaRun edcaConfig emptyQueues [] (addAtZero (addAtZero emptyQueues a) b) :=
    .add hfirst h (rfl : (addAtZero emptyQueues a).addToQueue edcaConfig 0 1 b = some (addAtZero (addAtZero emptyQueues a) b, 1))
  obtain ⟨⟨queues, hlinked, -⟩, -⟩ := hsecond.inv ⟨rfl, fun _ => ⟨rfl, rfl, rfl⟩⟩
  obtain ⟨m, p, count, hgives, -⟩ := getPacketFromQueue_gives hlinked 0 1 2 0
  exact ⟨m, p, .get hsecond hgives⟩

theorem twoPackets_ended (a b : ℕ) (h : a ≠ b) : Ended (addAtZero (addAtZero emptyQueues a) b).pstruNextPacket
    ((addAtZero (addAtZero emptyQueues a) b).qosList 1).head ((addAtZero (addAtZero emptyQueues a) b).qosList 1).tail [a, b] := by
  have hnext : (addAtZero (addAtZero emptyQueues a) b).pstruNextPacket = Function.update (fun _ => none) a (some b) := rfl
  rw [hnext]
  refine ⟨⟨rfl, ?_, ?_⟩, rfl⟩
  · rw [Function.update_self]
  · exact Function.update_of_ne h.symm _ _

/-- A packet to a device, and behind it a broadcast: the retrieval is right. -/
theorem edca_queue_unicast : ∃ m p, EdcaRun edcaConfig emptyQueues [⟨addAtZero (addAtZero emptyQueues 2) 1, 0, 1, 2, m, p⟩] m ∧
    Retrieval.Right edcaConfig ⟨addAtZero (addAtZero emptyQueues 2) 1, 0, 1, 2, m, p⟩ := by
  have hnew : (addAtZero emptyQueues 2).IsNew 1 := ⟨rfl, fun line hline => by
    rw [List.mem_singleton.1 (show line ∈ [(⟨0, 1, 2, .enqueue⟩ : BufferLine ℕ)] from hline)]
    decide⟩
  obtain ⟨m, p, hrun⟩ := twoPackets_run 2 1 hnew
  have hall := (edca_queue_iff edcaConfig ⟨rfl, fun _ => ⟨rfl, rfl, rfl⟩⟩ hrun).2.1
  refine ⟨m, p, hrun, (hall _ (List.mem_singleton.2 rfl)).2 fun l hl b hb hb0 => ?_⟩
  rw [hl.seg.unique (twoPackets_ended 2 1 (by decide)).seg] at hb
  have hfirst : (unexpired ((addAtZero (addAtZero emptyQueues 2) 1).isExpired edcaConfig 0 1) [2, 1]).head? = some 2 := by
    decide +kernel
  rw [← Option.some.inj (hfirst.symm.trans hb)] at hb0
  exact absurd hb0 (by decide)

/-- The station of the queues. -/
def edcaStation : MacConfig where
  deviceId := 1
  dot11ShortRetryLimit := 7
  dot11LongRetryLimit := 4
  dot11RTSThreshold := 2347
  mediumAccessProtocol := .edcaf
  macAggregationStatus := true
  nNumberOfAggregatedPackets := 2
  cwMin := 15
  cwMax := 1023
  txopLimit := 3008
  msduLifeTime := 500000
  aSIFSTime := 16

/-- The fields of the packets, with the times that the memory has. -/
def edcaPacket (m : EdcaMem ℕ) (p : ℕ) : Packet := ⟨p, .data, edcaConfig.nReceiverId p, false, 1500, m.dEventTime p⟩

/-- The list of the two packets, and the queue that holds them. -/
theorem getFromQueue_refines_two : ∃ (m m' : EdcaMem ℕ) (p : Option ℕ) (count : ℕ) (out l : List ℕ),
    Loop.Gives (fun rounds => m.getPacketFromQueue edcaConfig 0 1 2 0 rounds) (m', p, count) ∧
      Seg m'.pstruNextPacket p out none ∧
      getFromQueue edcaStation 0 ([2, 1].map (edcaPacket m)) = (out.map (edcaPacket m), l.map (edcaPacket m)) := by
  have hnew : (addAtZero emptyQueues 2).IsNew 1 := ⟨rfl, fun line hline => by
    rw [List.mem_singleton.1 (show line ∈ [(⟨0, 1, 2, .enqueue⟩ : BufferLine ℕ)] from hline)]
    decide⟩
  have hfirst : EdcaRun edcaConfig emptyQueues [] (addAtZero emptyQueues 2) :=
    .add .start ⟨rfl, fun line hline => absurd hline List.not_mem_nil⟩
      (rfl : emptyQueues.addToQueue edcaConfig 0 1 2 = some (addAtZero emptyQueues 2, 1))
  have hsecond : EdcaRun edcaConfig emptyQueues [] (addAtZero (addAtZero emptyQueues 2) 1) :=
    .add hfirst hnew (rfl : (addAtZero emptyQueues 2).addToQueue edcaConfig 0 1 1 = some (addAtZero (addAtZero emptyQueues 2) 1, 1))
  obtain ⟨⟨queues, hlinked, -⟩, -⟩ := hsecond.inv ⟨rfl, fun _ => ⟨rfl, rfl, rfl⟩⟩
  obtain ⟨m', p, count, out, l, hgives, hseg, -, hlist⟩ :=
    getFromQueue_refines hlinked 1 edcaStation (edcaPacket (addAtZero (addAtZero emptyQueues 2) 1))
      ⟨rfl, rfl, fun _ => rfl, fun _ => rfl⟩ 0 0
  rw [(hlinked.ended 1).seg.unique (twoPackets_ended 2 1 (by decide)).seg] at hlist
  exact ⟨_, m', p, count, out, l, hgives, hseg, hlist⟩

/-- A broadcast, and behind it a packet to a device: both are returned. -/
theorem edca_mixes_receivers : ¬ ∀ (cfg : EdcaConfig ℕ) (start m : EdcaMem ℕ) (retrievals : List (Retrieval ℕ)), start.IsStart →
    EdcaRun cfg start retrievals m → ∀ r ∈ retrievals, r.Right cfg := by
  intro hall
  have hnew : (addAtZero emptyQueues 1).IsNew 2 := ⟨rfl, fun line hline => by
    rw [List.mem_singleton.1 (show line ∈ [(⟨0, 1, 1, .enqueue⟩ : BufferLine ℕ)] from hline)]
    decide⟩
  have hstart : emptyQueues.IsStart := ⟨rfl, fun _ => ⟨rfl, rfl, rfl⟩⟩
  obtain ⟨m, p, hrun⟩ := twoPackets_run 1 2 hnew
  have hmem : (⟨addAtZero (addAtZero emptyQueues 1) 2, 0, 1, 2, m, p⟩ : Retrieval ℕ) ∈
      [(⟨addAtZero (addAtZero emptyQueues 1) 2, 0, 1, 2, m, p⟩ : Retrieval ℕ)] := List.mem_singleton.2 rfl
  have hunmixed := ((hrun.inv hstart).2 _ hmem).1 (hall _ _ _ _ hstart hrun _ hmem)
  have hboth : unexpired ((addAtZero (addAtZero emptyQueues 1) 2).isExpired edcaConfig 0 1) [1, 2] = [1, 2] := by
    decide +kernel
  have hzero := hunmixed [1, 2] (twoPackets_ended 1 2 (by decide)) 1
  rw [hboth] at hzero
  exact absurd (hzero rfl rfl 2 (List.mem_cons_of_mem 1 List.mem_cons_self)) (by decide)

end NetSim.Wlan
