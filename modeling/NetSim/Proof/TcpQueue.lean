import NetSim.Lib.Machine
import NetSim.Spec.TcpQueue
import Mathlib.Data.List.Sort
import Mathlib.Algebra.BigOperators.Group.List.Basic
import Mathlib.Algebra.Ring.Nat

/-!
# TCP queues keep their order and their size

Every helper but one keeps a queue sorted by sequence number and its counter equal to the bytes
that wait, as long as no number is added twice and the bytes fit the counter. The one that
deletes all segments frees the nodes but keeps the head and the counter, so it is right on an
empty queue only (`sound_iff_proper`).
-/

namespace NetSim.Tcp

namespace TcpQueue

/-- The bytes of the packets of some nodes. -/
def bytes (l : List QueueInfo) : ℕ := (l.map fun info => info.packet.packetSize).sum

/-- The queue is live, sorted without duplicates, and its size is the sum of the packet sizes. -/
structure Sorted (q : TcpQueue) : Prop where
  live : q.isFreed = false
  sorted : q.queue.Pairwise fun a b => a.seqNum < b.seqNum
  size : q.size.toNat = bytes q.queue

variable {q : TcpQueue} {l : List QueueInfo} {info : QueueInfo}

theorem sorted_empty : empty.Sorted := ⟨rfl, .nil, rfl⟩

/-! ## The nodes -/

theorem insertNode_eq (ninfo : QueueInfo) (l : List QueueInfo) :
    insertNode ninfo l = l.orderedInsert (fun a b => ¬ b.seqNum < a.seqNum) ninfo := by
  induction l with
  | nil => rfl
  | cons info l ih =>
    unfold insertNode
    by_cases h : info.seqNum < ninfo.seqNum
    · rw [if_pos h, List.orderedInsert_of_not_le _ _ (not_not.2 h), ih]
    · rw [if_neg h, List.orderedInsert_cons_of_le _ _ h]

theorem insertNode_perm (ninfo : QueueInfo) (l : List QueueInfo) :
    (insertNode ninfo l).Perm (ninfo :: l) := by
  rw [insertNode_eq]
  exact List.perm_orderedInsert ..

theorem insertNode_sorted {ninfo : QueueInfo} (hnew : ∀ info ∈ l, info.seqNum ≠ ninfo.seqNum)
    (h : l.Pairwise fun a b => a.seqNum < b.seqNum) :
    (insertNode ninfo l).Pairwise fun a b => a.seqNum < b.seqNum := by
  induction l with
  | nil => exact List.pairwise_singleton ..
  | cons info l ih =>
    obtain ⟨hhead, htail⟩ := List.pairwise_cons.1 h
    unfold insertNode
    by_cases hlt : info.seqNum < ninfo.seqNum
    · rw [if_pos hlt, List.pairwise_cons]
      refine ⟨fun b hb => ?_, ih (fun b hb => hnew b (List.mem_cons_of_mem _ hb)) htail⟩
      rcases List.mem_cons.1 ((insertNode_perm ninfo l).mem_iff.1 hb) with rfl | hb
      · exact hlt
      · exact hhead b hb
    · -- the new node comes first
      have hgt : ninfo.seqNum < info.seqNum := by
        have hne := hnew info List.mem_cons_self
        rw [UInt32.lt_iff_toNat_lt] at hlt ⊢
        rw [ne_eq, ← UInt32.toNat_inj] at hne
        omega
      rw [if_neg hlt, List.pairwise_cons]
      refine ⟨fun b hb => ?_, h⟩
      rcases List.mem_cons.1 hb with rfl | hb
      · exact hgt
      · exact UInt32.lt_trans hgt (hhead b hb)

theorem bytes_cons : bytes (info :: l) = info.packet.packetSize + bytes l := List.sum_cons ..

theorem bytes_perm {l' : List QueueInfo} (h : l.Perm l') : bytes l = bytes l' := (h.map _).sum_eq

theorem bytes_filter (p : QueueInfo → Bool) (l : List QueueInfo) :
    bytes (l.filter p) + bytes (l.filter fun info => !p info) = bytes l := by
  have hperm := bytes_perm (List.filter_append_perm p l)
  unfold bytes at *
  rw [List.map_append, List.sum_append] at hperm
  exact hperm

theorem bytes_eraseP {p : QueueInfo → Bool} (h : l.find? p = some info) :
    info.packet.packetSize + bytes (l.eraseP p) = bytes l := by
  induction l with
  | nil => cases h
  | cons a l ih =>
    by_cases hp : p a = true
    · rw [List.find?_cons_of_pos hp] at h
      obtain rfl := Option.some.inj h
      rw [List.eraseP_cons_of_pos hp, bytes_cons]
    · rw [List.find?_cons_of_neg hp] at h
      rw [List.eraseP_cons_of_neg hp, bytes_cons, bytes_cons, ← ih h]
      omega

/-- The size after segments of a queue have been taken off it. -/
theorem size_sub {size : UInt32} {n : ℕ} (h : size.toNat = info.packet.packetSize + n) :
    (size - info.packetSize).toNat = n := by
  have hsize : info.packetSize.toNat = info.packet.packetSize := by
    have hlt := size.toNat_lt
    exact UInt32.toNat_ofNat_of_lt' (by unfold UInt32.size; omega)
  rw [UInt32.toNat_sub_of_le _ _ (by rw [UInt32.le_iff_toNat_le]; omega)]
  omega

theorem size_foldl {size : UInt32} {n : ℕ} (h : size.toNat = bytes l + n) :
    (l.foldl (fun size info => size - info.packetSize) size).toNat = n := by
  induction l generalizing size with
  | nil => simpa [bytes] using h
  | cons info l ih =>
    rw [bytes_cons, Nat.add_assoc] at h
    exact ih (size_sub h)

/-! ## The counter -/

theorem size_add {packet : Packet} {time : ℚ} (h : q.size.toNat = bytes q.queue)
    (hfits : bytes q.queue + packet.packetSize < 4294967296) :
    (q.addPacketToQueue packet time).size.toNat = bytes (q.addPacketToQueue packet time).queue := by
  have hpacket : (UInt32.ofNat packet.packetSize).toNat = packet.packetSize :=
    UInt32.toNat_ofNat_of_lt' (by unfold UInt32.size; omega)
  unfold addPacketToQueue
  dsimp only
  rw [bytes_perm (insertNode_perm ..), bytes_cons]
  unfold QueueInfo.packetSize
  rw [UInt32.toNat_add, hpacket]
  dsimp only
  omega

theorem size_take (h : q.size.toNat = bytes q.queue) (seqNo : UInt32) :
    (q.getSegmentFromQueue seqNo).2.size.toNat = bytes (q.getSegmentFromQueue seqNo).2.queue := by
  unfold getSegmentFromQueue
  split
  · rename_i info hfind
    refine size_sub ?_
    rw [h, bytes_eraseP hfind]
  · exact h

theorem size_acked (h : q.size.toNat = bytes q.queue) (ackNo : UInt32) :
    (q.deleteSegmentFromQueue ackNo).size.toNat = bytes (q.deleteSegmentFromQueue ackNo).queue := by
  refine size_foldl ?_
  rw [h]
  exact (bytes_filter _ q.queue).symm

/-! ## The helpers -/

theorem Sorted.add (h : q.Sorted) {packet : Packet} {time : ℚ} (hnew : q.isSegmentInQueue packet = false)
    (hfits : bytes q.queue + packet.packetSize < 4294967296) : (q.addPacketToQueue packet time).Sorted := by
  have hne : ∀ info ∈ q.queue, info.seqNum ≠ packet.hdr.seqNum := by
    intro info hmem heq
    unfold isSegmentInQueue at hnew
    rw [List.any_eq_false] at hnew
    exact hnew info hmem (by simpa using heq.symm)
  exact ⟨h.live, insertNode_sorted hne h.sorted, size_add h.size hfits⟩

/-- An addition that keeps the queue sorted is of a new number, and the bytes fit. -/
theorem Sorted.of_add {packet : Packet} {time : ℚ} (h : (q.addPacketToQueue packet time).Sorted) :
    q.isSegmentInQueue packet = false ∧ bytes q.queue + packet.packetSize < 4294967296 := by
  have hperm := insertNode_perm ⟨packet, time, false⟩ q.queue
  constructor
  · have hnodup : ((insertNode ⟨packet, time, false⟩ q.queue).map (·.seqNum)).Nodup :=
      List.pairwise_map.2 (h.sorted.imp UInt32.ne_of_lt)
    rw [(hperm.map _).nodup_iff, List.map_cons, List.nodup_cons] at hnodup
    unfold isSegmentInQueue
    rw [List.any_eq_false]
    intro info hmem heq
    exact hnodup.1 (List.mem_map.2 ⟨info, hmem, (of_decide_eq_true heq).symm⟩)
  · have hsize : (q.addPacketToQueue packet time).size.toNat =
        bytes (insertNode ⟨packet, time, false⟩ q.queue) := h.size
    have hlt := (q.addPacketToQueue packet time).size.toNat_lt
    rw [hsize, bytes_perm hperm, bytes_cons] at hlt
    dsimp only at hlt
    omega

theorem Sorted.take (h : q.Sorted) (seqNo : UInt32) : (q.getSegmentFromQueue seqNo).2.Sorted := by
  have hsize := size_take h.size seqNo
  unfold getSegmentFromQueue at hsize ⊢
  split at hsize
  · exact ⟨h.live, h.sorted.sublist List.eraseP_sublist, hsize⟩
  · exact h

/-- The head is taken out. -/
theorem Sorted.tail (h : q.Sorted) {rest : List QueueInfo} (hq : q.queue = info :: rest) :
    Sorted { q with size := q.size - info.packetSize, queue := rest } := by
  have hsorted := h.sorted
  have hsize := h.size
  rw [hq] at hsorted hsize
  exact ⟨h.live, hsorted.of_cons, size_sub (hsize.trans bytes_cons)⟩

theorem Sorted.takeEarliest (h : q.Sorted) : q.getEarliestSegmentFromQueue.2.Sorted := by
  unfold getEarliestSegmentFromQueue
  split
  · rename_i hq
    exact h.tail hq
  · exact h

theorem Sorted.takeBelow (h : q.Sorted) (rcvNxt : UInt32) :
    (q.checkForOtherSegmentToSendFromQueue rcvNxt).2.Sorted := by
  unfold checkForOtherSegmentToSendFromQueue
  split
  · rename_i hq
    split
    · exact h.tail hq
    · exact h
  · exact h

theorem Sorted.acked (h : q.Sorted) (ackNo : UInt32) : (q.deleteSegmentFromQueue ackNo).Sorted :=
  ⟨h.live, h.sorted.sublist List.filter_sublist, size_acked h.size ackNo⟩

end TcpQueue

/-! ## Runs -/

/-- The operations on a queue. -/
inductive QueueEvent
  | add (packet : Packet) (time : ℚ)
  | ack (ackNo : UInt32)
  | take (seqNo : UInt32)
  | takeEarliest
  | takeBelow (rcvNxt : UInt32)
  | deleteAll
deriving DecidableEq, Repr

/-- A queue, and whether the last operation has deleted all segments. -/
structure QueueRun where
  queue : TcpQueue
  isDeleted : Bool

namespace QueueRun

def initial : QueueRun := ⟨.empty, false⟩

/-- An operation on freed nodes has no defined result. -/
def step (s : QueueRun) (e : QueueEvent) : Option QueueRun :=
  if s.queue.isFreed then none
  else
    match e with
    | .add packet time => some ⟨s.queue.addPacketToQueue packet time, false⟩
    | .ack ackNo => some ⟨s.queue.deleteSegmentFromQueue ackNo, false⟩
    | .take seqNo => some ⟨(s.queue.getSegmentFromQueue seqNo).2, false⟩
    | .takeEarliest => some ⟨s.queue.getEarliestSegmentFromQueue.2, false⟩
    | .takeBelow rcvNxt => some ⟨(s.queue.checkForOtherSegmentToSendFromQueue rcvNxt).2, false⟩
    | .deleteAll => some ⟨s.queue.deleteAllSegmentFromQueue, true⟩

def machine : Machine QueueRun QueueEvent := ⟨(· = initial), step⟩

/-- **What the operations are to keep.** -/
structure Sound (s : QueueRun) : Prop where
  sorted : s.queue.Sorted
  deleted : s.isDeleted = true →
    s.queue.queue = [] ∧ s.queue.size = 0 ∧ s.queue.isAnySegmentInQueue = false

/-- A number is added once, the bytes fit the counter, and only an empty queue is deleted. -/
def Proper (s : QueueRun) : QueueEvent → Prop
  | .add packet _ => s.queue.isSegmentInQueue packet = false ∧
      TcpQueue.bytes s.queue.queue + packet.packetSize < 4294967296
  | .deleteAll => s.queue.queue = []
  | _ => True

instance (s : QueueRun) (e : QueueEvent) : Decidable (Proper s e) :=
  match e with
  | .add _ _ => inferInstanceAs (Decidable (_ ∧ _))
  | .deleteAll => inferInstanceAs (Decidable (_ = _))
  | .ack _ | .take _ | .takeEarliest | .takeBelow _ => inferInstanceAs (Decidable True)

/-- Each of the conditions is needed. -/
theorem proper_of_step {s s' : QueueRun} {e : QueueEvent} (hs : step s e = some s') (h : s'.Sound) :
    Proper s e := by
  unfold step at hs
  split at hs
  · cases hs
  · cases e with
    | add packet time =>
      obtain rfl := Option.some.inj hs
      exact h.sorted.of_add
    | deleteAll =>
      obtain rfl := Option.some.inj hs
      exact (h.deleted rfl).1
    | ack | take | takeEarliest | takeBelow => trivial

theorem step_sound {s s' : QueueRun} {e : QueueEvent} (h : s.Sound) (hok : Proper s e)
    (hs : step s e = some s') : s'.Sound := by
  have hsorted := h.sorted
  unfold step at hs
  rw [hsorted.live] at hs
  cases e with
  | add packet time =>
    obtain rfl := Option.some.inj hs
    exact ⟨hsorted.add hok.1 hok.2, fun hd => absurd hd Bool.false_ne_true⟩
  | ack ackNo =>
    obtain rfl := Option.some.inj hs
    exact ⟨hsorted.acked ackNo, fun hd => absurd hd Bool.false_ne_true⟩
  | take seqNo =>
    obtain rfl := Option.some.inj hs
    exact ⟨hsorted.take seqNo, fun hd => absurd hd Bool.false_ne_true⟩
  | takeEarliest =>
    obtain rfl := Option.some.inj hs
    exact ⟨hsorted.takeEarliest, fun hd => absurd hd Bool.false_ne_true⟩
  | takeBelow rcvNxt =>
    obtain rfl := Option.some.inj hs
    exact ⟨hsorted.takeBelow rcvNxt, fun hd => absurd hd Bool.false_ne_true⟩
  | deleteAll =>
    obtain rfl := Option.some.inj hs
    have hnil : s.queue.queue = [] := hok
    have hzero : s.queue.size = 0 := by
      have hsize := hsorted.size
      rw [hnil] at hsize
      exact UInt32.toNat_inj.1 hsize
    refine ⟨⟨?_, hsorted.sorted, hsorted.size⟩, fun _ => ⟨hnil, hzero, ?_⟩⟩
    · unfold TcpQueue.deleteAllSegmentFromQueue
      rw [hsorted.live, hnil]
      rfl
    · unfold TcpQueue.isAnySegmentInQueue TcpQueue.deleteAllSegmentFromQueue
      rw [hzero]
      rfl

theorem sound_of_reachOn {s : QueueRun} (h : machine.ReachOn Proper s) : s.Sound := by
  apply h.inv
  · intro s h0
    have h0 : s = initial := h0
    subst h0
    exact ⟨TcpQueue.sorted_empty, fun hd => absurd hd Bool.false_ne_true⟩
  · intro s e s' hi hok hs
    exact step_sound hi hok hs

/-- **The operations keep the queue sound** in every run that adds no number twice, stays below
`2 ^ 32` bytes, and deletes all segments of an empty queue only; and every other operation ends
that. -/
theorem sound_iff_proper {s : QueueRun} (h : machine.ReachOn Proper s) :
    s.Sound ∧ ∀ e s', step s e = some s' → (s'.Sound ↔ Proper s e) := by
  have hsound := sound_of_reachOn h
  refine ⟨hsound, fun e s' hs => ?_⟩
  exact ⟨proper_of_step hs, fun hok => step_sound hsound hok hs⟩

/-- A data segment of 100 bytes. -/
def dataSegment (seqNum : UInt32) : Packet :=
  ⟨⟨seqNum, 0, 20, false, false, false, false, 0, none⟩, 100, 120, some (100, false)⟩

theorem sound_iff_proper_addAckTake : ∃ s, machine.ReachOn Proper s ∧ s.Sound ∧
    ∀ e s', step s e = some s' → (s'.Sound ↔ Proper s e) := by
  have hreach : ∃ s, machine.ReachOn Proper s ∧ s.queue.queue.length = 1 :=
    Machine.ReachOn.exists_of_execOn Proper
      [.add (dataSegment 101) 0, .add (dataSegment 1) 1, .add (dataSegment 201) 2, .ack 101, .take 201]
      (.init rfl) (by decide)
  obtain ⟨s, hs, -⟩ := hreach
  exact ⟨s, hs, sound_iff_proper hs⟩

/-- After the deletion of a segment, the queue is not empty. -/
theorem deleteAll_keeps : ¬ ∀ s, machine.Reach s → s.Sound := by
  intro hall
  have hreach : ∃ s, machine.Reach s ∧ s.isDeleted = true ∧ s.queue.size ≠ 0 :=
    Machine.Reach.exists_of_exec [.add (dataSegment 1) 0, .deleteAll] (.init rfl) (by decide)
  obtain ⟨s, hs, hdeleted, hsize⟩ := hreach
  exact hsize ((hall s hs).deleted hdeleted).2.1

end QueueRun

end NetSim.Tcp
