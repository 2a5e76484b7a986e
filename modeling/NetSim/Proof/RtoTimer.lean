import NetSim.Proof.TcpQueue
import NetSim.Spec.TcpRto
import Mathlib.Tactic.Linarith

/-!
# The retransmission timer

A connection that is opened passively has exactly one timeout pending while segments are outstanding,
and none otherwise; and that timeout is at least the RTO behind the time at which the oldest of them was
queued and behind the last restart of the timer. An active opener loses this when its SYN is
acknowledged: `packet_arrives_at_synsent_state` takes the SYN from the queue and leaves its timer running.

* `TimerOk.step`: what every step keeps.
* `disciplined_of_reachOn`: the discipline, in runs that acknowledge no SYN in `SYN_SENT`, and in every
  state whose timeout is not the one of a SYN that has left the queue.
-/

namespace NetSim.Tcp

/-! ## Runs -/

/-- The packet is a SYN-ACK that acknowledges the SYN. -/
def RtoSocket.IsAcceptedSynAck (s : RtoSocket) (p : Packet) : Prop :=
  p.hdr.ack = true ∧ p.hdr.syn = true ∧ p.hdr.rst = false ∧ s.tcb.iss < p.hdr.ackNum ∧
    p.hdr.ackNum ≤ s.tcb.snd.nxt

instance (s : RtoSocket) (p : Packet) : Decidable (s.IsAcceptedSynAck p) :=
  inferInstanceAs (Decidable (_ ∧ _ ∧ _ ∧ _ ∧ _))

/-- A socket, the time, and the time of the last restart of the timer by an acknowledgement. -/
structure RtoRun where
  socket : RtoSocket
  now : ℚ
  restarted : Option ℚ
deriving DecidableEq, Repr

/-- What happens to a sender. -/
inductive RtoEvent
  | send (p : AppPacket)
  | retransmit (seq : UInt32)
  | synSentReceives (p : Packet)
  | ackArrives (p : Packet)
  | expire
deriving DecidableEq, Repr

namespace RtoRun

/-- A timeout is not passed over: the simulation takes its events in the order of their times. -/
def CanHappenAt (r : RtoRun) (time : ℚ) : Prop :=
  r.now ≤ time ∧ ∀ timeout ∈ r.socket.events, time ≤ timeout.time

instance (r : RtoRun) (time : ℚ) : Decidable (r.CanHappenAt time) := inferInstanceAs (Decidable (_ ∧ _))

def step (maxSynRetries : ℕ) (r : RtoRun) (e : ℚ × RtoEvent) : Option RtoRun :=
  let (time, event) := e
  let state := r.socket.tcb.tcpState
  if ¬ r.CanHappenAt time then none
  else
    match event with
    | .send p =>
      if state = .established then some ⟨r.socket.sendPacket time p, time, r.restarted⟩ else none
    | .retransmit seq =>
      if state = .established then some ⟨r.socket.resendSegmentWithoutTimeout seq, time, r.restarted⟩ else none
    | .synSentReceives p =>
      if state = .synSent then
        (r.socket.packetArrivesAtSynsentState p).map fun s => ⟨s, time, r.restarted⟩
      else none
    | .ackArrives p =>
      if state = .synReceived ∨ state = .established then
        let (s, isNew) := r.socket.ackArrives time p
        some ⟨s, time, if isNew then some time else r.restarted⟩
      else none
    | .expire =>
      match r.socket.events.find? fun timeout => timeout.time = time with
      | none => none
      | some timeout =>
        ({ r.socket with events := r.socket.events.erase timeout }.handleRtoTimer maxSynRetries time
          timeout.packet).map fun s => ⟨s, time, r.restarted⟩

/-- A connection that is just being opened, actively or passively. -/
def Opened (r : RtoRun) : Prop :=
  ∃ t now id, t.retransmissionQueue = .empty ∧
    (r = ⟨(RtoSocket.create t id).sendSyn now, now, none⟩ ∨ r = ⟨(RtoSocket.create t id).rcvSyn now, now, none⟩)

def machine (maxSynRetries : ℕ) : Machine RtoRun (ℚ × RtoEvent) := ⟨Opened, step maxSynRetries⟩

/-- The bytes in the queue fit its counter. -/
def Fits (r : RtoRun) (e : ℚ × RtoEvent) : Prop :=
  match e.2 with
  | .send p => TcpQueue.bytes r.socket.queue + (addTcpHdr r.socket.tcb p).packetSize < 4294967296
  | .retransmit _ | .synSentReceives _ | .ackArrives _ | .expire => True

instance (r : RtoRun) (e : ℚ × RtoEvent) : Decidable (Fits r e) :=
  match e with
  | (_, .send _) => inferInstanceAs (Decidable (_ < _))
  | (_, .retransmit _) | (_, .synSentReceives _) | (_, .ackArrives _) | (_, .expire) =>
    inferInstanceAs (Decidable True)

/-- No SYN is acknowledged in `SYN_SENT`. -/
def KeepsSyn (r : RtoRun) (e : ℚ × RtoEvent) : Prop :=
  match e.2 with
  | .synSentReceives p => ¬ r.socket.IsAcceptedSynAck p
  | .send _ | .retransmit _ | .ackArrives _ | .expire => True

instance (r : RtoRun) (e : ℚ × RtoEvent) : Decidable (KeepsSyn r e) :=
  match e with
  | (_, .synSentReceives _) => inferInstanceAs (Decidable (¬ _))
  | (_, .send _) | (_, .retransmit _) | (_, .ackArrives _) | (_, .expire) => inferInstanceAs (Decidable True)

/-- **The discipline of the timer.** -/
structure Disciplined (r : RtoRun) : Prop where
  pending : r.socket.queue ≠ [] → ∃ timeout, r.socket.events = [timeout]
  idle : r.socket.queue = [] → r.socket.events = []
  oldest : ∀ timeout ∈ r.socket.events, ∃ info ∈ r.socket.queue, info.time + r.socket.rto ≤ timeout.time
  restart : ∀ timeout ∈ r.socket.events, ∀ time, r.restarted = some time → time + r.socket.rto ≤ timeout.time

/-- The timeout of a SYN is pending, and no SYN is in the queue. -/
def SynTimerLeft (r : RtoRun) : Prop :=
  ∃ timeout ∈ r.socket.events, timeout.packet.hdr.syn = true ∧
    ∀ info ∈ r.socket.queue, info.packet.hdr.syn = false

end RtoRun

/-! ## The queue -/

namespace TcpQueue

variable {q : TcpQueue} {info : QueueInfo} {p : Packet} {now : ℚ}

/-- The queue is in the order of the numbers, and its counter tells whether it is empty. -/
structure Counted (q : TcpQueue) : Prop where
  order : q.queue.Pairwise fun a b => a.seqNum ≤ b.seqNum
  size : q.size.toNat = bytes q.queue
  pos : ∀ info ∈ q.queue, 0 < info.packet.packetSize

theorem counted_empty : empty.Counted := ⟨.nil, rfl, fun _ h => absurd h List.not_mem_nil⟩

theorem mem_insertNode {ninfo : QueueInfo} {l : List QueueInfo} :
    info ∈ insertNode ninfo l ↔ info = ninfo ∨ info ∈ l := by
  rw [(insertNode_perm ninfo l).mem_iff, List.mem_cons]

/-- The new node is at the head, or the head stays. -/
theorem insertNode_head (ninfo first : QueueInfo) (l : List QueueInfo) :
    insertNode ninfo (first :: l) = ninfo :: first :: l ∨
      insertNode ninfo (first :: l) = first :: insertNode ninfo l := by
  rw [insertNode]
  split
  · exact .inr rfl
  · exact .inl rfl

theorem insertNode_order {ninfo : QueueInfo} {l : List QueueInfo}
    (h : l.Pairwise fun a b => a.seqNum ≤ b.seqNum) :
    (insertNode ninfo l).Pairwise fun a b => a.seqNum ≤ b.seqNum := by
  induction l with
  | nil => exact List.pairwise_singleton ..
  | cons first l ih =>
    obtain ⟨hhead, htail⟩ := List.pairwise_cons.1 h
    unfold insertNode
    by_cases hlt : first.seqNum < ninfo.seqNum
    · rw [if_pos hlt, List.pairwise_cons]
      refine ⟨fun b hb => ?_, ih htail⟩
      rcases mem_insertNode.1 hb with rfl | hb
      · exact UInt32.le_of_lt hlt
      · exact hhead b hb
    · have hle : ninfo.seqNum ≤ first.seqNum := UInt32.not_lt.1 hlt
      rw [if_neg hlt, List.pairwise_cons]
      refine ⟨fun b hb => ?_, h⟩
      rcases List.mem_cons.1 hb with rfl | hb
      · exact hle
      · exact UInt32.le_trans hle (hhead b hb)

theorem Counted.isAny_iff (h : q.Counted) : q.isAnySegmentInQueue = true ↔ q.queue ≠ [] := by
  have hsize := h.size
  unfold isAnySegmentInQueue
  rw [decide_eq_true_iff, gt_iff_lt, UInt32.lt_iff_toNat_lt, hsize, UInt32.toNat_zero]
  cases hq : q.queue with
  | nil => simp [bytes]
  | cons info rest =>
    have hpos := h.pos info (by rw [hq]; exact List.mem_cons_self)
    rw [bytes_cons]
    simp
    omega

theorem Counted.add (h : q.Counted) (hfits : bytes q.queue + p.packetSize < 4294967296) (hp : 0 < p.packetSize) :
    (q.addPacketToQueue p now).Counted := by
  refine ⟨insertNode_order h.order, size_add h.size hfits, fun info hinfo => ?_⟩
  rcases mem_insertNode.1 hinfo with rfl | hold
  · exact hp
  · exact h.pos info hold

theorem Counted.acked (h : q.Counted) (ackNo : UInt32) : (q.deleteSegmentFromQueue ackNo).Counted :=
  ⟨h.order.sublist List.filter_sublist, size_acked h.size ackNo,
    fun info hinfo => h.pos info (List.mem_of_mem_filter hinfo)⟩

/-- The segment at the head is taken out by its number and queued again, at the head. -/
theorem Counted.requeue {rest : List QueueInfo} (h : q.Counted) (now : ℚ) (hq : q.queue = info :: rest) :
    ∃ q', q.getSegmentFromQueue info.seqNum = (some info.packet, q') ∧
      (q'.addPacketToQueue info.packet now).Counted ∧
      (q'.addPacketToQueue info.packet now).queue = ⟨info.packet, now, false⟩ :: rest := by
  have hget : q.getSegmentFromQueue info.seqNum =
      (some info.packet, { q with size := q.size - info.packetSize, queue := rest }) := by
    unfold getSegmentFromQueue
    rw [hq]
    simp
  have hsize := h.size
  have horder := h.order
  rw [hq, bytes_cons] at hsize
  rw [hq, List.pairwise_cons] at horder
  have hlt := q.size.toNat_lt
  have hrest : Counted { q with size := q.size - info.packetSize, queue := rest } :=
    ⟨horder.2, size_sub hsize, fun x hx => h.pos x (by rw [hq]; exact List.mem_cons_of_mem _ hx)⟩
  have hpos := h.pos info (by rw [hq]; exact List.mem_cons_self)
  refine ⟨_, hget, hrest.add ?_ hpos, ?_⟩
  · dsimp only
    omega
  · unfold addPacketToQueue
    dsimp only
    cases rest with
    | nil => rfl
    | cons second rest =>
      unfold insertNode
      exact if_neg (UInt32.not_lt.2 (horder.1 second List.mem_cons_self))

end TcpQueue

/-! ## The timer -/

namespace RtoSocket

variable {s s' : RtoSocket} {left : Prop} {restarted : Option ℚ} {now now' : ℚ} {p : Packet}
  {timeout : TimeoutEvent}

/-- The timeout belongs to a segment that was queued an RTO before it, and is an RTO behind the restart. -/
structure Fresh (restarted : Option ℚ) (s : RtoSocket) (timeout : TimeoutEvent) : Prop where
  queued : ∃ info ∈ s.queue, info.packet = timeout.packet ∧ info.time + s.rto ≤ timeout.time
  restart : ∀ time, restarted = some time → time + s.rto ≤ timeout.time

/-- The timeout is the one of a SYN that has left the queue. -/
def IsLeft (s : RtoSocket) (timeout : TimeoutEvent) : Prop :=
  timeout.packet.hdr.syn = true ∧ ∀ info ∈ s.queue, info.packet.hdr.syn = false

/-- The timer runs for one timeout. -/
structure Runs (s : RtoSocket) (timeout : TimeoutEvent) : Prop where
  running : s.isRTOTimerRunning = true
  events : s.events = [timeout]
  id : timeout.id = s.rtoEventId

/-- The queue and the timer, where `left` says whether the timeout of an acknowledged SYN may be left. -/
structure Timer (left : Prop) (restarted : Option ℚ) (now : ℚ) (s : RtoSocket) : Prop where
  counted : s.tcb.retransmissionQueue.Counted
  queued : ∀ info ∈ s.queue, info.time ≤ now
  past : ∀ time, restarted = some time → time ≤ now
  timer : (s.isRTOTimerRunning = false ∧ s.events = [] ∧ s.queue = []) ∨
    ∃ timeout, s.Runs timeout ∧ (Fresh restarted s timeout ∨ left ∧ s.IsLeft timeout)

theorem Timer.later (h : Timer left restarted now s) (hnow : now ≤ now') : Timer left restarted now' s :=
  ⟨h.counted, fun info hinfo => (h.queued info hinfo).trans hnow,
    fun time htime => (h.past time htime).trans hnow, h.timer⟩

/-- Nothing but the queue of the control block matters. -/
theorem Timer.withTcb (h : Timer left restarted now s) {t : Tcb}
    (hq : t.retransmissionQueue = s.tcb.retransmissionQueue) : Timer left restarted now { s with tcb := t } := by
  have hqueue : RtoSocket.queue { s with tcb := t } = s.queue := congrArg TcpQueue.queue hq
  refine ⟨?_, ?_, h.past, ?_⟩
  · dsimp only
    rw [hq]
    exact h.counted
  · rw [hqueue]
    exact h.queued
  · rcases h.timer with ⟨hrun, hev, hnil⟩ | ⟨timeout, hruns, hfresh⟩
    · exact .inl ⟨hrun, hev, hqueue.trans hnil⟩
    · refine .inr ⟨timeout, ⟨hruns.running, hruns.events, hruns.id⟩, ?_⟩
      rcases hfresh with hfresh | ⟨hleft, hsyn, hnone⟩
      · refine .inl ⟨?_, hfresh.restart⟩
        rw [hqueue]
        exact hfresh.queued
      · refine .inr ⟨hleft, hsyn, ?_⟩
        rw [hqueue]
        exact hnone

/-- A timer that starts for a queued segment. -/
theorem Timer.started (hidle : s.isRTOTimerRunning = false) (hev : s.events = [])
    (hcounted : (s.tcb.retransmissionQueue.addPacketToQueue p now).Counted)
    (hqueued : ∀ info ∈ (s.tcb.retransmissionQueue.addPacketToQueue p now).queue, info.time ≤ now)
    (hrestarted : ∀ time, restarted = some time → time ≤ now) :
    Timer left restarted now (s.addTimeoutEvent now p) ∧
      (s.addTimeoutEvent now p).events = [⟨s.nextEventId, now + s.rto, p⟩] := by
  have heq : s.addTimeoutEvent now p = { s with tcb := s.tcb.addTimeoutEvent p now }.startTimer now p := by
    unfold addTimeoutEvent
    dsimp only
    rw [if_neg (by rw [hidle]; exact Bool.false_ne_true)]
  have hevents : (s.addTimeoutEvent now p).events = [⟨s.nextEventId, now + s.rto, p⟩] := by
    rw [heq]
    unfold startTimer
    dsimp only
    rw [hev, List.nil_append]
  refine ⟨?_, hevents⟩
  rw [heq] at hevents ⊢
  refine ⟨hcounted, hqueued, hrestarted, .inr ⟨_, ⟨rfl, hevents, rfl⟩, .inl ⟨?_, ?_⟩⟩⟩
  · exact ⟨⟨p, now, false⟩, TcpQueue.mem_insertNode.2 (.inl rfl), rfl, le_refl _⟩
  · intro time htime
    have hle := hrestarted time htime
    change time + s.rto ≤ now + s.rto
    linarith

/-- A packet is queued: a running timer goes on. -/
theorem Timer.add (h : Timer left restarted now s) (hsyn : s.isRTOTimerRunning = true → p.hdr.syn = false)
    (hfits : TcpQueue.bytes s.queue + p.packetSize < 4294967296) (hp : 0 < p.packetSize) :
    Timer left restarted now (s.addTimeoutEvent now p) := by
  have hcounted : (s.tcb.retransmissionQueue.addPacketToQueue p now).Counted := h.counted.add hfits hp
  have hqueued : ∀ info ∈ (s.tcb.retransmissionQueue.addPacketToQueue p now).queue, info.time ≤ now := by
    intro info hinfo
    rcases TcpQueue.mem_insertNode.1 hinfo with rfl | hold
    · exact le_refl now
    · exact h.queued info hold
  rcases h.timer with ⟨hidle, hev, -⟩ | ⟨timeout, hruns, hfresh⟩
  · exact (Timer.started hidle hev hcounted hqueued h.past).1
  · have heq : s.addTimeoutEvent now p = { s with tcb := s.tcb.addTimeoutEvent p now } := by
      unfold addTimeoutEvent
      dsimp only
      rw [if_pos hruns.running]
    rw [heq]
    refine ⟨hcounted, hqueued, h.past, .inr ⟨timeout, ⟨hruns.running, hruns.events, hruns.id⟩, ?_⟩⟩
    rcases hfresh with hfresh | ⟨hleft, hpacket, hnone⟩
    · obtain ⟨info, hinfo, hsame, htime⟩ := hfresh.queued
      exact .inl ⟨⟨info, TcpQueue.mem_insertNode.2 (.inr hinfo), hsame, htime⟩, hfresh.restart⟩
    · refine .inr ⟨hleft, hpacket, fun info hinfo => ?_⟩
      rcases TcpQueue.mem_insertNode.1 hinfo with rfl | hold
      · exact hsyn hruns.running
      · exact hnone info hold

/-- An acknowledgement restarts the timer for the segment at the head. -/
theorem Timer.restart (hcounted : s.tcb.retransmissionQueue.Counted) (hqueued : ∀ info ∈ s.queue, info.time ≤ now)
    (hev : ∀ timeout ∈ s.events, timeout.id = s.rtoEventId) :
    Timer left (some now) now (s.restartRtoTimer now) := by
  have hnone : s.events.filter (fun event => event.id ≠ s.rtoEventId) = [] := by
    rw [List.filter_eq_nil_iff]
    intro timeout htimeout
    simpa using hev timeout htimeout
  have hrestarted : ∀ time, some now = some time → time ≤ now := by
    intro time htime
    exact le_of_eq (Option.some.inj htime).symm
  unfold restartRtoTimer
  dsimp only
  rw [hnone]
  by_cases hany : s.tcb.retransmissionQueue.isAnySegmentInQueue = true
  · rw [if_pos hany]
    cases hq : s.queue with
    | nil => exact absurd hq (hcounted.isAny_iff.1 hany)
    | cons info rest =>
      have hq' : RtoSocket.queue { s with events := [], isRTOTimerRunning := false } = info :: rest := hq
      rw [hq']
      dsimp only
      have hmem : info ∈ s.queue := by rw [hq]; exact List.mem_cons_self
      refine ⟨hcounted, hqueued, hrestarted, .inr ⟨⟨s.nextEventId, now + s.rto, info.packet⟩, ⟨rfl, rfl, rfl⟩,
        .inl ⟨⟨info, hmem, rfl, ?_⟩, ?_⟩⟩⟩
      · have hle := hqueued info hmem
        change info.time + s.rto ≤ now + s.rto
        linarith
      · rintro time htime
        obtain rfl := Option.some.inj htime
        exact le_refl _
  · rw [if_neg hany]
    have hnil : s.queue = [] := by
      by_contra hne
      exact hany (hcounted.isAny_iff.2 hne)
    exact ⟨hcounted, hqueued, hrestarted, .inl ⟨rfl, rfl, hnil⟩⟩

/-! ## The SYN -/

@[simp]
theorem addTimeoutEvent_tcb : (s.addTimeoutEvent now p).tcb = s.tcb.addTimeoutEvent p now := by
  unfold addTimeoutEvent
  dsimp only
  split
  · rfl
  · rfl

theorem addTimeoutEvent_events (hrun : s.isRTOTimerRunning = true) : (s.addTimeoutEvent now p).events = s.events := by
  unfold addTimeoutEvent
  dsimp only
  rw [if_pos hrun]

@[simp]
theorem restartRtoTimer_tcb : (s.restartRtoTimer now).tcb = s.tcb := by
  unfold restartRtoTimer
  dsimp only
  split
  · split
    · rfl
    · rfl
  · rfl

/-- Of the control packets a SYN only is queued, and during the handshake nothing else is. -/
structure SynOk (s : RtoSocket) : Prop where
  control : ∀ info ∈ s.queue, info.packet.isTCPControl = true →
    info.packet.hdr.syn = true ∧ info.seqNum = s.tcb.iss ∧ s.tcb.snd.una = s.tcb.iss
  head : ∀ info rest, s.queue = info :: rest → info.packet.isTCPControl = true →
    ∀ timeout ∈ s.events, timeout.packet.hdr.syn = true
  handshake : s.tcb.tcpState = .synSent ∨ s.tcb.tcpState = .synReceived →
    ∃ info, s.queue = [info] ∧ info.packet.isTCPControl = true ∧ ∀ timeout ∈ s.events, timeout.packet = info.packet

/-- A SYN is all that is queued. -/
theorem SynOk.of_syn {info : QueueInfo} (hq : s.queue = [info]) (hcontrol : info.packet.isTCPControl = true)
    (hsyn : info.packet.hdr.syn = true) (hseq : info.seqNum = s.tcb.iss) (huna : s.tcb.snd.una = s.tcb.iss)
    (hev : ∀ timeout ∈ s.events, timeout.packet = info.packet) : SynOk s := by
  refine ⟨fun x hx _ => ?_, fun x rest hx _ timeout ht => ?_, fun _ => ⟨info, hq, hcontrol, hev⟩⟩
  · rw [hq, List.mem_singleton] at hx
    subst hx
    exact ⟨hsyn, hseq, huna⟩
  · rw [hev timeout ht]
    exact hsyn

/-- Data is all that is queued. -/
theorem SynOk.of_data (hdata : ∀ info ∈ s.queue, ¬ info.packet.isTCPControl = true)
    (hstate : s.tcb.tcpState = .established) : SynOk s := by
  refine ⟨fun x hx hc => absurd hc (hdata x hx), fun x rest hx hc => ?_, fun h => ?_⟩
  · exact absurd hc (hdata x (by rw [hx]; exact List.mem_cons_self))
  · rw [hstate] at h
    rcases h with h | h
    · cases h
    · cases h

theorem SynOk.withTcb (h : SynOk s) {t : Tcb} (hq : t.retransmissionQueue = s.tcb.retransmissionQueue)
    (hiss : t.iss = s.tcb.iss) (huna : t.snd.una = s.tcb.snd.una)
    (hstate : t.tcpState = s.tcb.tcpState ∨ t.tcpState = .established) : SynOk { s with tcb := t } := by
  have hqueue : RtoSocket.queue { s with tcb := t } = s.queue := congrArg TcpQueue.queue hq
  refine ⟨?_, ?_, ?_⟩
  · rw [hqueue]
    dsimp only
    rw [hiss, huna]
    exact h.control
  · rw [hqueue]
    exact h.head
  · rw [hqueue]
    intro hsyn
    dsimp only at hsyn ⊢
    rcases hstate with hsame | hestablished
    · rw [hsame] at hsyn
      exact h.handshake hsyn
    · rw [hestablished] at hsyn
      rcases hsyn with hsyn | hsyn
      · cases hsyn
      · cases hsyn

/-! ## The handlers -/

theorem changeState_frame (t : Tcb) (state : TcpConnectionState) :
    (t.changeState state).retransmissionQueue = t.retransmissionQueue ∧ (t.changeState state).iss = t.iss ∧
      (t.changeState state).snd = t.snd ∧ (t.changeState state).tcpState = state := by
  unfold Tcb.changeState
  split
  · rename_i h
    exact ⟨rfl, rfl, rfl, h⟩
  · exact ⟨rfl, rfl, rfl, rfl⟩

/-- The queue and the timer of a socket, and its SYN. -/
structure TimerOk (left : Prop) (restarted : Option ℚ) (now : ℚ) (s : RtoSocket) : Prop
    extends Timer left restarted now s, SynOk s

theorem TimerOk.withTcb (h : TimerOk left restarted now s) {t : Tcb}
    (hq : t.retransmissionQueue = s.tcb.retransmissionQueue) (hiss : t.iss = s.tcb.iss)
    (huna : t.snd.una = s.tcb.snd.una) (hstate : t.tcpState = s.tcb.tcpState ∨ t.tcpState = .established) :
    TimerOk left restarted now { s with tcb := t } :=
  ⟨h.toTimer.withTcb hq, h.toSynOk.withTcb hq hiss huna hstate⟩

/-- A SYN that is queued alone, with its timer. -/
theorem TimerOk.syn (hidle : s.isRTOTimerRunning = false) (hev : s.events = [])
    (hcounted : (s.tcb.retransmissionQueue.addPacketToQueue p now).Counted)
    (hqueue : (s.tcb.retransmissionQueue.addPacketToQueue p now).queue = [⟨p, now, false⟩])
    (hpast : ∀ time, restarted = some time → time ≤ now) (hcontrol : p.isTCPControl = true)
    (hsyn : p.hdr.syn = true) (hseq : p.hdr.seqNum = s.tcb.iss) (huna : s.tcb.snd.una = s.tcb.iss) :
    TimerOk left restarted now (s.addTimeoutEvent now p) := by
  have hqueued : ∀ info ∈ (s.tcb.retransmissionQueue.addPacketToQueue p now).queue, info.time ≤ now := by
    intro info hinfo
    rw [hqueue, List.mem_singleton] at hinfo
    subst hinfo
    exact le_refl now
  obtain ⟨htimer, hevents⟩ : Timer left restarted now (s.addTimeoutEvent now p) ∧ _ :=
    Timer.started hidle hev hcounted hqueued hpast
  have honly : (s.addTimeoutEvent now p).queue = [⟨p, now, false⟩] := by
    unfold queue
    rw [addTimeoutEvent_tcb]
    exact hqueue
  refine ⟨htimer, SynOk.of_syn honly hcontrol hsyn ?_ ?_ ?_⟩
  · rw [addTimeoutEvent_tcb]
    exact hseq
  · rw [addTimeoutEvent_tcb]
    exact huna
  · rw [hevents]
    intro timeout ht
    rw [List.mem_singleton] at ht
    subst ht
    rfl

theorem paddedHdrLength_bounds (n : ℕ) : n ≤ paddedHdrLength n ∧ paddedHdrLength n ≤ n + 3 := by
  unfold paddedHdrLength
  split
  · omega
  · omega

theorem synOptionsLen_le (t : Tcb) : synOptionsLen t ≤ 21 := by
  unfold synOptionsLen timestampOptionLen
  have hsack : (if t.isSackPermitted then 2 else 0) ≤ 2 := by split <;> omega
  have hts : (if t.isTsOpt then 11 else 0) ≤ 11 := by split <;> omega
  have hscale : (if t.isWindowScaling then 4 else 0) ≤ 4 := by split <;> omega
  omega

/-- The connection is opened. -/
theorem TimerOk.opened {t : Tcb} (hempty : t.retransmissionQueue = .empty) (id : ℕ) :
    TimerOk left none now ((create t id).sendSyn now) ∧ TimerOk left none now ((create t id).rcvSyn now) := by
  have hlen := paddedHdrLength_bounds (tcpHdrSize + synOptionsLen t)
  have hopt := synOptionsLen_le t
  have hhdr : tcpHdrSize = 20 := rfl
  have hcounted : ∀ q p, q = TcpQueue.empty → p.packetSize = paddedHdrLength (tcpHdrSize + synOptionsLen t) →
      (q.addPacketToQueue p now).Counted := by
    rintro q p rfl hp
    have hbytes : TcpQueue.bytes TcpQueue.empty.queue = 0 := rfl
    exact TcpQueue.counted_empty.add (by omega) (by omega)
  have hqueue : ∀ q p, q = TcpQueue.empty → (q.addPacketToQueue p now).queue = [⟨p, now, false⟩] := by
    rintro q p rfl
    rfl
  have hnone : ∀ time, (none : Option ℚ) = some time → time ≤ now := fun time h => nomatch h
  have hframe := changeState_frame { t with snd := synSnd t }
  constructor
  · have hq : (({ t with snd := synSnd t } : Tcb).changeState .synSent).retransmissionQueue = .empty :=
      (hframe .synSent).1.trans hempty
    refine TimerOk.syn rfl rfl (hcounted _ _ hq rfl) (hqueue _ _ hq) hnone rfl rfl ?_ ?_
    · exact (hframe .synSent).2.1.symm
    · exact (congrArg SendSeqVar.una (hframe .synSent).2.2.1).trans (hframe .synSent).2.1.symm
  · have hq : (({ t with snd := synSnd t } : Tcb).changeState .synReceived).retransmissionQueue = .empty :=
      (hframe .synReceived).1.trans hempty
    refine TimerOk.syn rfl rfl (hcounted _ _ hq rfl) (hqueue _ _ hq) hnone rfl rfl ?_ ?_
    · exact (hframe .synReceived).2.1.symm
    · exact (congrArg SendSeqVar.una (hframe .synReceived).2.2.1).trans (hframe .synReceived).2.1.symm

/-- A packet of the application is sent. -/
theorem TimerOk.send (h : TimerOk left restarted now s) (hstate : s.tcb.tcpState = .established) (p : AppPacket)
    (hfits : TcpQueue.bytes s.queue + (addTcpHdr s.tcb p).packetSize < 4294967296) :
    TimerOk left restarted now (s.sendPacket now p) := by
  have hpos : 0 < (addTcpHdr s.tcb p).packetSize := by
    have hlen := (paddedHdrLength_bounds (tcpHdrSize + if s.tcb.isTsOpt then timestampOptionLen else 0)).1
    have hhdr : tcpHdrSize = 20 := rfl
    change 0 < p.packetSize + paddedHdrLength (tcpHdrSize + if s.tcb.isTsOpt then timestampOptionLen else 0)
    omega
  have hdata : ¬ (addTcpHdr s.tcb p).isTCPControl = true := Bool.false_ne_true
  have h' := h.withTcb (t := { s.tcb with snd.nxt := s.tcb.snd.nxt + UInt32.ofNat p.packetSize })
    rfl rfl rfl (.inl rfl)
  have hadd := h'.toTimer.add (p := addTcpHdr s.tcb p) (fun _ => rfl) hfits hpos
  unfold sendPacket
  refine ⟨hadd, ?_, ?_, ?_⟩
  · unfold queue
    rw [addTimeoutEvent_tcb]
    intro info hinfo hcontrol
    rcases TcpQueue.mem_insertNode.1 hinfo with rfl | hold
    · exact absurd hcontrol hdata
    · exact h'.control info hold hcontrol
  · unfold queue
    rw [addTimeoutEvent_tcb]
    intro info rest hq hcontrol
    cases hold : s.queue with
    | nil =>
      have hq' : TcpQueue.insertNode ⟨addTcpHdr s.tcb p, now, false⟩ s.queue = info :: rest := hq
      rw [hold] at hq'
      obtain ⟨rfl, -⟩ := List.cons.inj hq'
      exact absurd hcontrol hdata
    | cons first others =>
      have hq' : TcpQueue.insertNode ⟨addTcpHdr s.tcb p, now, false⟩ s.queue = info :: rest := hq
      rw [hold] at hq'
      rcases TcpQueue.insertNode_head ⟨addTcpHdr s.tcb p, now, false⟩ first others with hnew | hfirst
      · rw [hnew] at hq'
        obtain ⟨rfl, -⟩ := List.cons.inj hq'
        exact absurd hcontrol hdata
      · rw [hfirst] at hq'
        obtain ⟨rfl, -⟩ := List.cons.inj hq'
        -- the queue is not empty, so that the timer runs already
        rcases h'.timer with ⟨-, -, hnil⟩ | ⟨timeout, hruns, -⟩
        · have hnil' : s.queue = [] := hnil
          rw [hold] at hnil'
          cases hnil'
        · rw [addTimeoutEvent_events hruns.running]
          exact h.head first others hold hcontrol
  · rw [addTimeoutEvent_tcb]
    intro hsyn
    change s.tcb.tcpState = .synSent ∨ s.tcb.tcpState = .synReceived at hsyn
    rw [hstate] at hsyn
    rcases hsyn with hsyn | hsyn
    · cases hsyn
    · cases hsyn

/-! ### Acknowledgements -/

/-- A SYN is acknowledged by every number above its own. -/
theorem syn_acked {info : QueueInfo} {ack : UInt32} (hsyn : info.packet.hdr.syn = true) (hlt : info.seqNum < ack) :
    info.seqNum + info.segLen ≤ ack := by
  have hlen : info.segLen = 1 := if_pos hsyn
  rw [hlen, UInt32.le_iff_toNat_le, UInt32.toNat_add, UInt32.toNat_one]
  rw [UInt32.lt_iff_toNat_lt] at hlt
  have hle := Nat.mod_le (info.seqNum.toNat + 1) 4294967296
  omega

theorem TimerOk.processAck (h : TimerOk left restarted now s) (hstate : s.tcb.tcpState = .established) :
    TimerOk left (if (s.processAckInEstablishedState now).2 then some now else restarted) now
      (s.processAckInEstablishedState now).1 := by
  unfold processAckInEstablishedState
  cases hbranch : s.tcb.ackBranch with
  | new isWindowUpdated =>
    have hlt : s.tcb.snd.una < s.tcb.seg.ack := by
      unfold Tcb.ackBranch at hbranch
      split at hbranch
      · rename_i hnew
        exact hnew.1
      · split at hbranch
        · cases hbranch
        · cases hbranch
    have hack : s.tcb.acknowledge = { s.tcb with
        snd := s.tcb.ackSnd
        retransmissionQueue := s.tcb.retransmissionQueue.deleteSegmentFromQueue s.tcb.seg.ack } := by
      unfold Tcb.acknowledge
      rw [hbranch]
    dsimp only
    rw [hack, if_pos rfl]
    refine ⟨Timer.restart (h.counted.acked _) ?_ ?_, SynOk.of_data ?_ ?_⟩
    · exact fun info hinfo => h.queued info (List.mem_of_mem_filter hinfo)
    · intro timeout ht
      have ht' : timeout ∈ s.events := ht
      rcases h.timer with ⟨-, hev, -⟩ | ⟨timeout', hruns, -⟩
      · rw [hev] at ht'
        cases ht'
      · rw [hruns.events, List.mem_singleton] at ht'
        subst ht'
        exact hruns.id
    · -- a SYN that is left would have the number `SND.UNA`, which is acknowledged
      unfold queue
      rw [restartRtoTimer_tcb]
      intro info hinfo hcontrol
      obtain ⟨hmem, hkept⟩ := List.mem_filter.1 hinfo
      obtain ⟨hsyn, hseq, huna⟩ := h.control info hmem hcontrol
      rw [huna, ← hseq] at hlt
      have hacked := syn_acked hsyn hlt
      dsimp only at hkept
      rw [decide_eq_true hacked] at hkept
      cases hkept
    · rw [restartRtoTimer_tcb]
      exact hstate
  | duplicate => exact h
  | notSent => exact h

theorem TimerOk.processAckPacket (h : TimerOk left restarted now s) :
    TimerOk left (if (s.processAckPacket now).2 then some now else restarted) now (s.processAckPacket now).1 := by
  unfold RtoSocket.processAckPacket
  dsimp only
  by_cases hrcv : s.tcb.tcpState = .synReceived
  · rw [if_pos hrcv]
    split
    · have hframe := changeState_frame (setSndWnd s.tcb) .established
      have huna := congrArg SendSeqVar.una hframe.2.2.1
      have hest := h.withTcb hframe.1 hframe.2.1 huna (.inr hframe.2.2.2)
      exact hest.processAck hframe.2.2.2
    · exact h
  · rw [if_neg hrcv]
    split
    · rename_i hest
      exact h.processAck hest
    · exact h

theorem TimerOk.ack (h : TimerOk left restarted now s) (p : Packet) :
    TimerOk left (if (s.ackArrives now p).2 then some now else restarted) now (s.ackArrives now p).1 := by
  have hseg : TimerOk left restarted now { s with tcb := s.tcb.updateSeqNumOnReceiving p } :=
    h.withTcb rfl rfl rfl (.inl rfl)
  unfold ackArrives
  dsimp only
  split
  · exact hseg.processAckPacket
  · exact hseg

/-! ### The SYN-ACK -/

/-- What a packet does in `SYN_SENT`. -/
theorem packetArrivesAtSynsentState_cases (h : TimerOk left restarted now s) (hstate : s.tcb.tcpState = .synSent)
    (hrun : s.packetArrivesAtSynsentState p = some s') :
    ¬ s.IsAcceptedSynAck p ∧ s' = { s with tcb := s.tcb.updateSeqNumOnReceiving p } ∨
      s.IsAcceptedSynAck p ∧ ∃ t, s' = { s with tcb := t } ∧ t.tcpState = .established ∧
        t.retransmissionQueue = s.tcb.retransmissionQueue.deleteSegmentFromQueue p.hdr.ackNum := by
  obtain ⟨info, hq, hcontrol, -⟩ := h.handshake (.inl hstate)
  have huna := (h.control info (by rw [hq]; exact List.mem_cons_self) hcontrol).2.2
  unfold packetArrivesAtSynsentState at hrun
  dsimp only at hrun
  have hack : (s.tcb.updateSeqNumOnReceiving p).seg.ack = p.hdr.ackNum := rfl
  have hiss : (s.tcb.updateSeqNumOnReceiving p).iss = s.tcb.iss := rfl
  have hnxt : (s.tcb.updateSeqNumOnReceiving p).snd.nxt = s.tcb.snd.nxt := rfl
  have huna' : (s.tcb.updateSeqNumOnReceiving p).snd.una = s.tcb.iss := huna
  rw [hack, hiss, hnxt, huna'] at hrun
  cases hflag : p.hdr.ack with
  | false =>
    rw [hflag, Bool.false_and, Bool.false_and, Bool.false_and, if_neg Bool.false_ne_true] at hrun
    refine .inl ⟨fun hall => Bool.false_ne_true (hflag.symm.trans hall.1), ?_⟩
    split at hrun
    · exact (Option.some.inj hrun).symm
    · exact (Option.some.inj hrun).symm
  | true =>
    rw [hflag, Bool.true_and, Bool.true_and] at hrun
    by_cases hbad : p.hdr.ackNum ≤ s.tcb.iss ∨ p.hdr.ackNum > s.tcb.snd.nxt
    · rw [if_pos (by simpa using hbad)] at hrun
      refine .inl ⟨fun hok => ?_, (Option.some.inj hrun).symm⟩
      rcases hbad with hle | hgt
      · exact absurd hok.2.2.2.1 (UInt32.not_lt.2 hle)
      · exact absurd hok.2.2.2.2 (UInt32.not_le.2 hgt)
    · rw [if_neg (by simpa using hbad)] at hrun
      rw [not_or, UInt32.not_le, gt_iff_lt, UInt32.not_lt] at hbad
      rw [decide_eq_true (UInt32.le_of_lt hbad.1), decide_eq_true hbad.2] at hrun
      cases hrst : p.hdr.rst with
      | true =>
        rw [hrst] at hrun
        cases hrun
      | false =>
        rw [hrst, if_neg Bool.false_ne_true] at hrun
        cases hsyn : p.hdr.syn with
        | false =>
          rw [hsyn] at hrun
          exact .inl ⟨fun hall => Bool.false_ne_true (hsyn.symm.trans hall.2.1), (Option.some.inj hrun).symm⟩
        | true =>
          have hgt : (synAckAccepted (s.tcb.updateSeqNumOnReceiving p)).snd.una >
              (synAckAccepted (s.tcb.updateSeqNumOnReceiving p)).iss := hbad.1
          rw [hsyn, Bool.true_and, Bool.and_self, if_pos rfl, if_pos hgt] at hrun
          have hframe := changeState_frame (setSndWnd (synAckAccepted (s.tcb.updateSeqNumOnReceiving p))) .established
          exact .inr ⟨⟨hflag, hsyn, hrst, hbad.1, hbad.2⟩, _, (Option.some.inj hrun).symm, hframe.2.2.2, hframe.1⟩

/-- An acknowledged SYN leaves an empty queue and its timer. -/
theorem TimerOk.synAcked (h : TimerOk left restarted now s) (hstate : s.tcb.tcpState = .synSent) {ack : UInt32}
    (hlt : s.tcb.iss < ack) :
    (s.tcb.retransmissionQueue.deleteSegmentFromQueue ack).queue = [] ∧
      ∃ timeout, s.Runs timeout ∧ timeout.packet.hdr.syn = true := by
  obtain ⟨info, hq, hcontrol, -⟩ := h.handshake (.inl hstate)
  have hmem : info ∈ s.queue := by rw [hq]; exact List.mem_cons_self
  obtain ⟨hsyn, hseq, -⟩ := h.control info hmem hcontrol
  constructor
  · unfold TcpQueue.deleteSegmentFromQueue
    dsimp only
    rw [List.filter_eq_nil_iff]
    intro x hx
    have hx' : x ∈ s.queue := hx
    rw [hq, List.mem_singleton] at hx'
    subst hx'
    rw [← hseq] at hlt
    rw [decide_eq_true (syn_acked hsyn hlt)]
    exact Bool.false_ne_true
  · rcases h.timer with ⟨-, -, hnil⟩ | ⟨timeout, hruns, -⟩
    · rw [hq] at hnil
      cases hnil
    · refine ⟨timeout, hruns, h.head info [] hq hcontrol timeout ?_⟩
      rw [hruns.events]
      exact List.mem_cons_self

theorem TimerOk.synSent (h : TimerOk left restarted now s) (hstate : s.tcb.tcpState = .synSent)
    (hleft : s.IsAcceptedSynAck p → left) (hrun : s.packetArrivesAtSynsentState p = some s') :
    TimerOk left restarted now s' := by
  rcases packetArrivesAtSynsentState_cases h hstate hrun with ⟨-, rfl⟩ | ⟨haccepted, t, rfl, hest, hq⟩
  · exact h.withTcb rfl rfl rfl (.inl rfl)
  · obtain ⟨hnil, timeout, hruns, hsyn⟩ := h.synAcked hstate haccepted.2.2.2.1
    have hempty : RtoSocket.queue { s with tcb := t } = [] := (congrArg TcpQueue.queue hq).trans hnil
    refine ⟨⟨?_, ?_, h.past, .inr ⟨timeout, ⟨hruns.running, hruns.events, hruns.id⟩, .inr ⟨hleft haccepted, hsyn, ?_⟩⟩⟩,
      SynOk.of_data ?_ hest⟩
    · dsimp only
      rw [hq]
      exact h.counted.acked _
    · rw [hempty]
      exact fun info hinfo => absurd hinfo List.not_mem_nil
    · rw [hempty]
      exact fun info hinfo => absurd hinfo List.not_mem_nil
    · rw [hempty]
      exact fun info hinfo => absurd hinfo List.not_mem_nil

/-! ### The timeout -/

theorem rtoTimeout_frame (t : Tcb) :
    t.rtoTimeout.retransmissionQueue = t.retransmissionQueue ∧ t.rtoTimeout.iss = t.iss ∧
      t.rtoTimeout.snd = t.snd ∧ t.rtoTimeout.tcpState = t.tcpState := by
  unfold Tcb.rtoTimeout
  dsimp only
  split
  · exact ⟨rfl, rfl, rfl, rfl⟩
  · exact ⟨rfl, rfl, rfl, rfl⟩

/-- The segment at the head is sent again, with a timer of its own. -/
theorem TimerOk.expired (h : TimerOk left restarted now s) (hruns : s.Runs timeout) {maxSynRetries : ℕ}
    (hrun : RtoSocket.handleRtoTimer maxSynRetries now timeout.packet
      { s with events := s.events.erase timeout } = some s') :
    TimerOk left restarted now s' := by
  have hev : s.events.erase timeout = [] := by
    rw [hruns.events]
    simp
  unfold handleRtoTimer at hrun
  rw [hev] at hrun
  dsimp only at hrun
  by_cases hany : s.tcb.retransmissionQueue.isAnySegmentInQueue = true
  · rw [if_pos hany] at hrun
    cases hq : s.queue with
    | nil => exact absurd hq (h.counted.isAny_iff.1 hany)
    | cons segment rest =>
      have hq' : RtoSocket.queue { s with events := [], isRTOTimerRunning := false } = segment :: rest := hq
      rw [hq'] at hrun
      dsimp only at hrun
      by_cases hcontrol : segment.packet.isTCPControl = true
      · -- the handshake: the SYN is all that is queued
        rw [if_pos hcontrol] at hrun
        obtain ⟨hsyn, hseq, huna⟩ := h.control segment (by rw [hq]; exact List.mem_cons_self) hcontrol
        have hpsyn : timeout.packet.hdr.syn = true := by
          refine h.head segment rest hq hcontrol timeout ?_
          rw [hruns.events]
          exact List.mem_cons_self
        rw [if_pos hpsyn] at hrun
        unfold resendSyn at hrun
        dsimp only at hrun
        split at hrun
        · cases hrun
        · rename_i hstate
          have hhandshake : s.tcb.tcpState = .synSent ∨ s.tcb.tcpState = .synReceived := by
            by_contra hnot
            exact hstate (not_or.1 hnot)
          obtain ⟨info, hone, -, hpacket⟩ := h.handshake hhandshake
          rw [hq] at hone
          obtain ⟨rfl, rfl⟩ := List.cons.inj hone
          have hsame : timeout.packet = segment.packet := by
            refine hpacket timeout ?_
            rw [hruns.events]
            exact List.mem_cons_self
          obtain ⟨q', hget, hcounted, hqueue⟩ := h.counted.requeue now hq
          have hnum : timeout.packet.hdr.seqNum = segment.seqNum := congrArg (fun p => p.hdr.seqNum) hsame
          rw [hnum, hget] at hrun
          dsimp only at hrun
          split at hrun
          · obtain rfl := Option.some.inj hrun
            exact TimerOk.syn rfl rfl hcounted hqueue h.past hcontrol hsyn hseq rfl
          · cases hrun
      · rw [if_neg hcontrol] at hrun
        obtain rfl := Option.some.inj hrun
        obtain ⟨hqueue', hiss, hsnd, hstate⟩ := rtoTimeout_frame s.tcb
        obtain ⟨q', hget, hcounted, hqueue⟩ := h.counted.requeue now hq
        unfold resendSegment
        dsimp only
        rw [hqueue', hget]
        dsimp only
        have hqueued : ∀ info ∈ (q'.addPacketToQueue segment.packet now).queue, info.time ≤ now := by
          rw [hqueue]
          intro info hinfo
          rcases List.mem_cons.1 hinfo with rfl | hold
          · exact le_refl now
          · exact h.queued info (by rw [hq]; exact List.mem_cons_of_mem _ hold)
        refine ⟨(Timer.started rfl rfl hcounted hqueued h.past).1, ?_, ?_, ?_⟩
        · unfold queue
          rw [addTimeoutEvent_tcb]
          intro info hinfo hinfocontrol
          have hmem : info ∈ (q'.addPacketToQueue segment.packet now).queue := hinfo
          rw [hqueue] at hmem
          rcases List.mem_cons.1 hmem with rfl | hold
          · exact absurd hinfocontrol hcontrol
          · obtain ⟨hsyn, hseq, huna⟩ := h.control info (by rw [hq]; exact List.mem_cons_of_mem _ hold) hinfocontrol
            exact ⟨hsyn, hseq.trans hiss.symm, (congrArg SendSeqVar.una hsnd).trans (huna.trans hiss.symm)⟩
        · unfold queue
          rw [addTimeoutEvent_tcb]
          intro info rest' hcons hinfocontrol
          have hcons' : (q'.addPacketToQueue segment.packet now).queue = info :: rest' := hcons
          rw [hqueue] at hcons'
          obtain ⟨rfl, -⟩ := List.cons.inj hcons'
          exact absurd hinfocontrol hcontrol
        · rw [addTimeoutEvent_tcb]
          intro hsyn
          obtain ⟨info, hone, honecontrol, -⟩ := h.handshake (by rw [← hstate]; exact hsyn)
          rw [hq] at hone
          obtain ⟨rfl, -⟩ := List.cons.inj hone
          exact absurd honecontrol hcontrol
  · rw [if_neg hany] at hrun
    obtain rfl := Option.some.inj hrun
    have hnil : s.queue = [] := by
      by_contra hne
      exact hany (h.counted.isAny_iff.2 hne)
    refine ⟨⟨h.counted, h.queued, h.past, .inl ⟨rfl, rfl, hnil⟩⟩, h.control, fun _ _ _ _ timeout ht => ?_, fun hsyn => ?_⟩
    · cases ht
    · obtain ⟨info, hone, -⟩ := h.handshake hsyn
      rw [hnil] at hone
      cases hone

end RtoSocket

/-! ## The discipline -/

namespace RtoRun

open RtoSocket

variable {maxSynRetries : ℕ} {left : Prop} {r r' : RtoRun} {e : ℚ × RtoEvent}

/-- **What every step keeps.** -/
theorem TimerOk.step (h : TimerOk left r.restarted r.now r.socket) (hfits : Fits r e)
    (hleft : ¬ KeepsSyn r e → left) (hstep : step maxSynRetries r e = some r') :
    TimerOk left r'.restarted r'.now r'.socket := by
  obtain ⟨time, event⟩ := e
  unfold RtoRun.step at hstep
  dsimp only at hstep
  split at hstep
  · cases hstep
  rename_i hcan
  have hnow := (not_not.1 hcan).1
  have hlater : TimerOk left r.restarted time r.socket := ⟨h.toTimer.later hnow, h.toSynOk⟩
  cases event with
  | send p =>
    dsimp only at hstep
    split at hstep
    · rename_i hstate
      obtain rfl := Option.some.inj hstep
      exact hlater.send hstate p hfits
    · cases hstep
  | retransmit seq =>
    dsimp only at hstep
    split at hstep
    · obtain rfl := Option.some.inj hstep
      dsimp only
      unfold resendSegmentWithoutTimeout
      split
      · exact hlater.withTcb rfl rfl rfl (.inl rfl)
      · exact hlater
    · cases hstep
  | synSentReceives p =>
    dsimp only at hstep
    split at hstep
    · rename_i hstate
      obtain ⟨s', hrun, rfl⟩ := Option.map_eq_some_iff.1 hstep
      exact hlater.synSent hstate (fun hacc => hleft fun hkeeps => hkeeps hacc) hrun
    · cases hstep
  | ackArrives p =>
    dsimp only at hstep
    split at hstep
    · obtain rfl := Option.some.inj hstep
      exact hlater.ack p
    · cases hstep
  | expire =>
    dsimp only at hstep
    split at hstep
    · cases hstep
    · rename_i timeout hfind
      obtain ⟨s', hrun, rfl⟩ := Option.map_eq_some_iff.1 hstep
      have hmem := List.mem_of_find?_eq_some hfind
      rcases hlater.timer with ⟨-, hnone, -⟩ | ⟨timeout', hruns, -⟩
      · rw [hnone] at hmem
        cases hmem
      · rw [hruns.events, List.mem_singleton] at hmem
        subst hmem
        exact hlater.expired hruns hrun

theorem timerOk_of_opened (h : Opened r) : TimerOk left r.restarted r.now r.socket := by
  obtain ⟨t, now, id, hempty, rfl | rfl⟩ := h
  · exact (TimerOk.opened hempty id).1
  · exact (TimerOk.opened hempty id).2

theorem Disciplined.of_fresh (h : TimerOk left r.restarted r.now r.socket)
    (hfresh : ∀ timeout ∈ r.socket.events, Fresh r.restarted r.socket timeout) : Disciplined r := by
  refine ⟨fun hq => ?_, fun hq => ?_, fun timeout ht => ?_, fun timeout ht => (hfresh timeout ht).restart⟩
  · rcases h.timer with ⟨-, -, hnil⟩ | ⟨timeout, hruns, -⟩
    · exact absurd hnil hq
    · exact ⟨timeout, hruns.events⟩
  · rw [List.eq_nil_iff_forall_not_mem]
    intro timeout ht
    obtain ⟨info, hinfo, -⟩ := (hfresh timeout ht).queued
    rw [hq] at hinfo
    cases hinfo
  · obtain ⟨info, hinfo, -, htime⟩ := (hfresh timeout ht).queued
    exact ⟨info, hinfo, htime⟩

theorem fresh_of_timer (h : TimerOk left r.restarted r.now r.socket) (hnot : left → ¬ SynTimerLeft r) :
    ∀ timeout ∈ r.socket.events, Fresh r.restarted r.socket timeout := by
  intro timeout ht
  rcases h.timer with ⟨-, hev, -⟩ | ⟨timeout', hruns, hfresh⟩
  · rw [hev] at ht
    cases ht
  · have ht' := ht
    rw [hruns.events, List.mem_singleton] at ht'
    subst ht'
    rcases hfresh with hfresh | ⟨hleft, hgone⟩
    · exact hfresh
    · exact absurd ⟨timeout, ht, hgone⟩ (hnot hleft)

/-- **The discipline of the retransmission timer** holds in every run that acknowledges no SYN in `SYN_SENT`,
and in every state whose timeout is not the one of a SYN that has left the queue. Where a SYN is
acknowledged in `SYN_SENT` it does not hold. -/
theorem disciplined_of_reachOn (maxSynRetries : ℕ) (r : RtoRun) :
    ((machine maxSynRetries).ReachOn (fun r e => Fits r e ∧ KeepsSyn r e) r → Disciplined r) ∧
    ((machine maxSynRetries).ReachOn Fits r → ¬ SynTimerLeft r → Disciplined r) ∧
    ((machine maxSynRetries).ReachOn Fits r → ∀ e r', step maxSynRetries r e = some r' → ¬ KeepsSyn r e →
      ¬ Disciplined r') := by
  have hreach : (machine maxSynRetries).ReachOn Fits r → TimerOk True r.restarted r.now r.socket := by
    intro hrun
    exact hrun.inv (I := fun r => TimerOk True r.restarted r.now r.socket) (fun r h => timerOk_of_opened h)
      fun r e r' h hok hstep => TimerOk.step h hok (fun _ => trivial) hstep
  refine ⟨fun hrun => ?_, fun hrun hnot => ?_, fun hrun e r' hstep hsyn hdisc => ?_⟩
  · have h : TimerOk False r.restarted r.now r.socket :=
      hrun.inv (I := fun r => TimerOk False r.restarted r.now r.socket) (fun r h => timerOk_of_opened h)
        fun r e r' h hok hstep => TimerOk.step h hok.1 (fun hnot => hnot hok.2) hstep
    exact .of_fresh h (fresh_of_timer h fun hfalse => hfalse.elim)
  · exact .of_fresh (hreach hrun) (fresh_of_timer (hreach hrun) fun _ => hnot)
  · -- the timeout of the SYN is pending, with nothing in the queue
    obtain ⟨time, event⟩ := e
    have hex : ∃ p, event = .synSentReceives p ∧ r.socket.IsAcceptedSynAck p := by
      cases event with
      | synSentReceives p => exact ⟨p, rfl, not_not.1 hsyn⟩
      | send p => exact absurd trivial hsyn
      | retransmit seq => exact absurd trivial hsyn
      | ackArrives p => exact absurd trivial hsyn
      | expire => exact absurd trivial hsyn
    obtain ⟨p, rfl, hacc⟩ := hex
    unfold step at hstep
    dsimp only at hstep
    split at hstep
    · cases hstep
    split at hstep
    · rename_i hstate
      obtain ⟨s', hs, rfl⟩ := Option.map_eq_some_iff.1 hstep
      rcases packetArrivesAtSynsentState_cases (hreach hrun) hstate hs with ⟨hnot, -⟩ | ⟨-, t, rfl, -, hq⟩
      · exact hnot hacc
      · obtain ⟨hnil, timeout, hruns, -⟩ := (hreach hrun).synAcked hstate hacc.2.2.2.1
        have hidle := hdisc.idle ((congrArg TcpQueue.queue hq).trans hnil)
        have hev : r.socket.events = [] := hidle
        rw [hruns.events] at hev
        cases hev
    · cases hstep

/-! ## Samples -/

/-- A block with initial number 100 and a receive window. -/
def openingTcb : Tcb := { Tcb.calloc .reno with iss := 100, rcv := ⟨1, 1000⟩ }

/-- A packet from the peer, with the numbers 1 and 101 and without data. -/
def reply (syn : Bool) (ack : UInt32) : Packet :=
  ⟨⟨1, ack, 20, false, syn, false, true, 65535, none⟩, 0, 20, none⟩

/-- A passive open: the SYN-ACK is acknowledged, a segment is sent, times out and is acknowledged. -/
theorem disciplined_of_reachOn_passive :
    ∃ r, (machine 5).ReachOn (fun r e => Fits r e ∧ KeepsSyn r e) r ∧ r.socket.tcb.snd.una = 201 ∧ Disciplined r := by
  have hreach : ∃ r, (machine 5).ReachOn (fun r e => Fits r e ∧ KeepsSyn r e) r ∧ r.socket.tcb.snd.una = 201 :=
    Machine.ReachOn.exists_of_execOn (fun r e => Fits r e ∧ KeepsSyn r e)
      [(200, .ackArrives (reply false 101)), (300, .send ⟨100, false⟩), (500500, .expire),
        (500700, .ackArrives (reply false 201))]
      (.init ⟨openingTcb, 0, 0, rfl, .inr rfl⟩) (by decide +kernel)
  obtain ⟨r, hr, huna⟩ := hreach
  exact ⟨r, hr, huna, (disciplined_of_reachOn 5 r).1 hr⟩

/-- An active open: the timeout of the SYN, set for one second, stays when the SYN is acknowledged, and the
segment sent 100 milliseconds before it times out then. -/
theorem disciplined_active :
    (¬ ∀ r, (machine 5).ReachOn Fits r → Disciplined r) ∧
      ((machine 5).exec ⟨(create openingTcb 0).sendSyn 0, 0, none⟩
        [(200, .synSentReceives (reply true 101)), (900000, .send ⟨100, false⟩), (1000000, .expire)]).map
          (fun r => (r.now, r.socket.rto, r.socket.events.map TimeoutEvent.time)) =
        some (1000000, 2000000, [3000000]) := by
  constructor
  · intro hall
    have hreach : ∃ r, (machine 5).ReachOn Fits r ∧ r.socket.queue = [] ∧ r.socket.events.length = 1 :=
      Machine.ReachOn.exists_of_execOn Fits [(200, .synSentReceives (reply true 101))]
        (.init ⟨openingTcb, 0, 0, rfl, .inl rfl⟩) (by decide +kernel)
    obtain ⟨r, hr, hq, hev⟩ := hreach
    rw [(hall r hr).idle hq] at hev
    cases hev
  · decide +kernel

end RtoRun

end NetSim.Tcp
