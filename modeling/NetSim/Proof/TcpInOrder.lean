import NetSim.Lib.Reorder
import NetSim.Spec.TcpIncoming
import Mathlib.Algebra.BigOperators.Group.List.Basic
import Mathlib.Algebra.Ring.Nat
import Mathlib.Data.List.GetD

/-!
# Data segments reach the application in order and once

`process_segment_text` is an in-order receiver with a reorder buffer: `RCV.NXT` is the number of the
first segment that has not arrived, the out-of-order queue holds those above it
(`Mirrors.segmentArrives`). So after any arrivals the application has got the longest contiguous
prefix, in order and each segment once (`delivered_inOrder`); what the acceptance test turns away
counts as not received.
-/

namespace NetSim.Tcp

variable {σ : Type}

/-! ## The segments of a stream -/

/-- The lengths of the segments of a byte stream whose first octet has the number `start`. -/
structure Division where
  start : UInt32
  lens : List ℕ
  pos : ∀ n ∈ lens, 0 < n
  fits : start.toNat + lens.sum < 4294967296

namespace Division

variable (div : Division)

/-- The number of the octet at which a segment starts. -/
def offset (k : ℕ) : ℕ := div.start.toNat + (div.lens.take k).sum

def seqAt (k : ℕ) : UInt32 := UInt32.ofNat (div.offset k)

/-- A packet that carries the segment, without control bits. -/
structure IsSegment (k : ℕ) (p : Packet) : Prop where
  lt : k < div.lens.length
  seqNum : p.hdr.seqNum = div.seqAt k
  payload : p.payload = div.lens.getD k 0
  syn : p.hdr.syn = false
  fin : p.hdr.fin = false
  appData : p.appData.isSome = true

variable {div} {j k : ℕ}

theorem offset_succ (h : k < div.lens.length) : div.offset (k + 1) = div.offset k + div.lens.getD k 0 := by
  unfold offset
  rw [List.take_add_one, List.getElem?_eq_getElem h, Option.toList_some, List.sum_append,
    List.sum_singleton, List.getD_eq_getElem _ _ h, Nat.add_assoc]

theorem offset_lt (k : ℕ) : div.offset k < 4294967296 := by
  have hsum : (div.lens.take k ++ div.lens.drop k).sum = (div.lens.take k).sum + (div.lens.drop k).sum :=
    List.sum_append
  rw [List.take_append_drop] at hsum
  have hfits := div.fits
  unfold offset
  omega

theorem offset_strictMono (hk : k ≤ div.lens.length) (h : j < k) : div.offset j < div.offset k := by
  induction k with
  | zero => omega
  | succ k ih =>
    have hpos : 0 < div.lens.getD k 0 := by
      rw [List.getD_eq_getElem _ _ hk]
      exact div.pos _ (List.getElem_mem hk)
    have hlast : div.offset k < div.offset (k + 1) := by
      rw [offset_succ hk]
      omega
    rcases Nat.lt_succ_iff_lt_or_eq.1 h with hlt | rfl
    · exact (ih (by omega) hlt).trans hlast
    · exact hlast

theorem seqAt_toNat (k : ℕ) : (div.seqAt k).toNat = div.offset k :=
  UInt32.toNat_ofNat_of_lt' (offset_lt k)

theorem seqAt_lt_iff (hj : j ≤ div.lens.length) (hk : k ≤ div.lens.length) :
    div.seqAt j < div.seqAt k ↔ j < k := by
  rw [UInt32.lt_iff_toNat_lt, seqAt_toNat, seqAt_toNat]
  constructor
  · intro h
    by_contra hge
    rcases Nat.lt_or_eq_of_le (not_lt.1 hge) with hlt | rfl
    · exact absurd (offset_strictMono hj hlt) h.not_gt
    · exact lt_irrefl _ h
  · exact offset_strictMono hk

theorem seqAt_inj (hj : j ≤ div.lens.length) (hk : k ≤ div.lens.length) :
    div.seqAt j = div.seqAt k ↔ j = k := by
  constructor
  · intro h
    rcases Nat.lt_trichotomy j k with hlt | heq | hlt
    · exact absurd h (UInt32.ne_of_lt ((seqAt_lt_iff hj hk).2 hlt))
    · exact heq
    · exact absurd h.symm (UInt32.ne_of_lt ((seqAt_lt_iff hk hj).2 hlt))
  · rintro rfl
    rfl

theorem IsSegment.seqAt_succ {p : Packet} (h : div.IsSegment k p) :
    div.seqAt k + p.segLen = div.seqAt (k + 1) := by
  unfold Packet.segLen seqAt
  rw [h.syn, if_neg Bool.false_ne_true, h.payload, offset_succ h.lt, UInt32.ofNat_add]

end Division

/-! ## The out-of-order queue -/

section Queue

variable {div : Division} {q : TcpQueue} {l : List QueueInfo} {js : List ℕ} {i k : ℕ} {p : Packet}

/-- The nodes carry the segments, in this order. -/
def Carries (div : Division) (js : List ℕ) (l : List QueueInfo) : Prop :=
  List.Forall₂ (fun j info => div.IsSegment j info.packet) js l

theorem Carries.isSegmentInQueue (h : Carries div js q.queue) (hp : div.IsSegment i p) :
    q.isSegmentInQueue p = true ↔ i ∈ js := by
  have hany : ∀ {js l}, Carries div js l →
      ((l.any fun info => p.hdr.seqNum = info.seqNum) = true ↔ i ∈ js) := by
    intro js l h
    induction h with
    | nil => simp
    | @cons j info js l hj _ ih =>
      have heq : p.hdr.seqNum = info.seqNum ↔ i = j := by
        rw [hp.seqNum, show info.seqNum = div.seqAt j from hj.seqNum,
          Division.seqAt_inj hp.lt.le hj.lt.le]
      rw [List.any_cons, Bool.or_eq_true, decide_eq_true_iff, heq, ih, List.mem_cons]
  exact hany h

theorem Carries.insertNode (h : Carries div js l) (hp : div.IsSegment i p) (now : ℚ) :
    Carries div (js.orderedInsert (· ≤ ·) i) (TcpQueue.insertNode ⟨p, now, false⟩ l) := by
  induction h with
  | nil => exact .cons hp .nil
  | @cons j info js l hj hrest ih =>
    have hlt : info.seqNum < p.hdr.seqNum ↔ j < i := by
      rw [hp.seqNum, show info.seqNum = div.seqAt j from hj.seqNum,
        Division.seqAt_lt_iff hj.lt.le hp.lt.le]
    unfold TcpQueue.insertNode
    by_cases hji : j < i
    · rw [List.orderedInsert_of_not_le _ _ (by omega)]
      exact (if_pos (hlt.2 hji)) ▸ .cons hj ih
    · rw [List.orderedInsert_cons_of_le _ _ (by omega)]
      exact (if_neg (mt hlt.1 hji)) ▸ .cons hp (.cons hj hrest)

/-- The pass over the queue moves `RCV.NXT` as the pass over the numbers. -/
theorem Carries.checkSegmentInQueue (h : Carries div js q.queue) (hk : k ≤ div.lens.length) :
    Reorder.advance k js ≤ div.lens.length ∧
      q.checkSegmentInQueue (div.seqAt k) = div.seqAt (Reorder.advance k js) := by
  have hfold : ∀ {js l}, Carries div js l → ∀ k, k ≤ div.lens.length →
      Reorder.advance k js ≤ div.lens.length ∧
        l.foldl (fun nxt info => if info.seqNum = nxt then nxt + info.segLen else nxt) (div.seqAt k) =
          div.seqAt (Reorder.advance k js) := by
    intro js l h
    induction h with
    | nil => exact fun k hk => ⟨hk, rfl⟩
    | @cons j info js l hj _ ih =>
      intro k hk
      have hseq : info.seqNum = div.seqAt j := hj.seqNum
      unfold Reorder.advance
      rw [List.foldl_cons, List.foldl_cons]
      by_cases hjk : j = k
      · subst hjk
        rw [if_pos rfl, if_pos hseq, show info.segLen = info.packet.segLen from rfl, hj.seqAt_succ]
        exact ih (j + 1) hj.lt
      · rw [if_neg hjk, if_neg (fun heq => hjk ((Division.seqAt_inj hj.lt.le hk).1 (hseq ▸ heq)))]
        exact ih k hk
  exact hfold h k hk

end Queue

/-! ## One arrival -/

/-- The number of the first missing segment, the kept ones and the delivered ones, as the socket
shows them. -/
structure Mirrors (div : Division) (b : Reorder) (s : Socket σ) : Prop where
  established : s.tcb.tcpState = .established
  le : b.next ≤ div.lens.length
  nxt : s.tcb.rcv.nxt = div.seqAt b.next
  queue : Carries div b.pending s.tcb.outOfOrderSegment.queue
  application : List.Forall₂ div.IsSegment b.delivered s.application

namespace Socket

/-- A segment passes to the processing of its text. -/
def segmentArrives (now : ℚ) (s : Socket σ) (p : Packet) : Socket σ :=
  ({ s with tcb := s.tcb.updateSeqNumOnReceiving p }.processSegmentText now p).2

end Socket

variable {div : Division} {b : Reorder} {s : Socket σ} {i : ℕ} {p : Packet}

/-- What an arrival does besides: the current segment, the log of the network, and when the last
acknowledgement was sent. -/
theorem Mirrors.congr {s' : Socket σ} (h : Mirrors div b s) (hstate : s'.tcb.tcpState = s.tcb.tcpState)
    (hrcv : s'.tcb.rcv = s.tcb.rcv) (hqueue : s'.tcb.outOfOrderSegment = s.tcb.outOfOrderSegment)
    (happ : s'.application = s.application) : Mirrors div b s' :=
  ⟨hstate ▸ h.established, h.le, hrcv ▸ h.nxt, hqueue ▸ h.queue, happ ▸ h.application⟩

theorem Mirrors.updateSeqNum (h : Mirrors div b s) (p : Packet) :
    Mirrors div b { s with tcb := s.tcb.updateSeqNumOnReceiving p } := h.congr rfl rfl rfl rfl

theorem Mirrors.sendAck (h : Mirrors div b s) (seqNo ackNo : UInt32) :
    Mirrors div b (s.sendAck seqNo ackNo) := h.congr rfl rfl rfl rfl

theorem Mirrors.sendAckOrNot (h : Mirrors div b s) (now : ℚ) : Mirrors div b (s.sendAckOrNot now).2 := by
  unfold Socket.sendAckOrNot
  dsimp only
  split
  · exact h
  · split
    · exact h.congr rfl rfl rfl rfl
    · split <;> exact h.congr rfl rfl rfl rfl

theorem Mirrors.passOn (h : Mirrors div b s) (hp : div.IsSegment i p) :
    Mirrors div { b with delivered := b.delivered ++ [i] } (s.passOn p) := by
  unfold Socket.passOn
  rw [if_pos hp.appData]
  exact ⟨h.established, h.le, h.nxt, h.queue, List.rel_append h.application (.cons hp .nil)⟩

/-- The kept segments below `RCV.NXT` leave the queue for the application. -/
theorem Mirrors.sendQueued (h : Mirrors div b s) {rounds : ℕ}
    (hrounds : s.tcb.outOfOrderSegment.queue.length ≤ rounds) :
    Mirrors div
      { b with
        pending := b.pending.dropWhile (· < b.next)
        delivered := b.delivered ++ b.pending.takeWhile (· < b.next) }
      (s.sendQueued rounds) := by
  induction rounds generalizing b s with
  | zero =>
    have hnil : s.tcb.outOfOrderSegment.queue = [] := List.eq_nil_of_length_eq_zero (by omega)
    have hpending : b.pending = [] := by
      have hqueue := h.queue
      rw [hnil] at hqueue
      cases hb : b.pending with
      | nil => rfl
      | cons j js => exact absurd (hb ▸ hqueue) (by rintro ⟨⟩)
    rw [hpending, List.dropWhile_nil, List.takeWhile_nil, List.append_nil]
    exact ⟨h.established, h.le, h.nxt, hpending ▸ h.queue, h.application⟩
  | succ rounds ih =>
    obtain ⟨next, pending, delivered⟩ := b
    have hqueue := h.queue
    dsimp only at hqueue ⊢
    unfold Socket.sendQueued TcpQueue.checkForOtherSegmentToSendFromQueue
    cases hl : s.tcb.outOfOrderSegment.queue with
    | nil =>
      rw [hl] at hqueue
      obtain rfl : pending = [] := by
        cases hqueue
        rfl
      rw [List.dropWhile_nil, List.takeWhile_nil, List.append_nil]
      exact h
    | cons info rest =>
      rw [hl] at hqueue
      cases hqueue with
      | @cons j _ js _ hj hrest =>
        have hlt : info.seqNum < s.tcb.rcv.nxt ↔ j < next := by
          rw [show info.seqNum = div.seqAt j from hj.seqNum, h.nxt,
            Division.seqAt_lt_iff hj.lt.le h.le]
        by_cases hjn : j < next
        · -- the head is passed on
          rw [List.dropWhile_cons_of_pos (by simpa using hjn),
            List.takeWhile_cons_of_pos (by simpa using hjn), List.append_cons]
          simp only [hlt.2 hjn, if_true]
          have hpop : Mirrors div ⟨next, js, delivered⟩
              { s with tcb := { s.tcb with outOfOrderSegment :=
                { s.tcb.outOfOrderSegment with
                  size := s.tcb.outOfOrderSegment.size - info.packetSize, queue := rest } } } :=
            ⟨h.established, h.le, h.nxt, hrest, h.application⟩
          have hlen : rest.length ≤ rounds := by
            rw [hl, List.length_cons] at hrounds
            omega
          refine ih (hpop.passOn hj) ?_
          unfold Socket.passOn
          rw [if_pos hj.appData]
          exact hlen
        · rw [List.dropWhile_cons_of_neg (by simpa using hjn),
            List.takeWhile_cons_of_neg (by simpa using hjn), List.append_nil]
          simp only [mt hlt.1 hjn, if_false]
          exact h

theorem Mirrors.sendToApplication (h : Mirrors div b s) (hp : div.IsSegment i p) :
    Mirrors div
      { b with
        pending := b.pending.dropWhile (· < b.next)
        delivered := b.delivered ++ i :: b.pending.takeWhile (· < b.next) }
      (s.sendToApplication p) := by
  have hqueue : (s.passOn p).tcb.outOfOrderSegment.queue = s.tcb.outOfOrderSegment.queue := by
    unfold Socket.passOn
    split <;> rfl
  rw [List.append_cons]
  exact (h.passOn hp).sendQueued (by rw [hqueue])

/-- `check_segment` for the segment waited for. -/
theorem Mirrors.checkSegment_next (h : Mirrors div b s) (hp : div.IsSegment b.next p)
    (hlen : s.tcb.seg.len = p.segLen) (now : ℚ) : (s.checkSegment now p).1 = true ∧
      Mirrors div { b with next := Reorder.advance (b.next + 1) b.pending }
        (s.checkSegment now p).2 := by
  have hnxt : s.tcb.rcv.nxt = p.hdr.seqNum := h.nxt.trans hp.seqNum.symm
  have hpass := h.queue.checkSegmentInQueue (k := b.next + 1) hp.lt
  have hend : s.tcb.rcv.nxt + s.tcb.seg.len = div.seqAt (b.next + 1) := by
    rw [h.nxt, hlen, hp.seqAt_succ]
  unfold Socket.checkSegment
  dsimp only
  rw [if_pos hnxt, hend]
  exact ⟨rfl, h.established, hpass.1, hpass.2, h.queue, h.application⟩

/-- `check_segment` for any other segment. -/
theorem Mirrors.checkSegment_other (h : Mirrors div b s) (hp : div.IsSegment i p) (hi : i ≠ b.next)
    (now : ℚ) : (s.checkSegment now p).1 = false ∧
      Mirrors div (b.accept i) (s.checkSegment now p).2 := by
  have hne : ¬ s.tcb.rcv.nxt = p.hdr.seqNum := by
    rw [h.nxt, hp.seqNum, Division.seqAt_inj h.le hp.lt.le]
    exact hi.symm
  have hold : s.tcb.rcv.nxt > p.hdr.seqNum ↔ i < b.next := by
    rw [h.nxt, hp.seqNum]
    exact Division.seqAt_lt_iff hp.lt.le h.le
  have hin := h.queue.isSegmentInQueue hp
  unfold Socket.checkSegment Reorder.accept
  dsimp only
  rw [if_neg hne, if_neg hi]
  by_cases hlt : i < b.next
  · rw [if_pos (hold.2 hlt), if_pos (.inl hlt)]
    exact ⟨rfl, h⟩
  · rw [if_neg (mt hold.1 hlt)]
    by_cases hmem : i ∈ b.pending
    · rw [if_pos (hin.2 hmem), if_pos (.inr hmem)]
      exact ⟨rfl, h⟩
    · rw [if_neg (mt hin.1 hmem), if_neg (not_or.2 ⟨hlt, hmem⟩)]
      exact ⟨rfl, h.established, h.le, h.nxt, h.queue.insertNode hp now, h.application⟩

/-- **`process_segment_text` is an arrival at the reorder buffer.** -/
theorem Mirrors.segmentArrives (h : Mirrors div b s) (hp : div.IsSegment i p) (now : ℚ) :
    Mirrors div (b.accept i) (s.segmentArrives now p) := by
  have hupdated := h.updateSeqNum p
  unfold Socket.segmentArrives Socket.processSegmentText
  rw [hupdated.established]
  dsimp only
  by_cases hi : i = b.next
  · subst hi
    obtain ⟨hfst, hsnd⟩ := hupdated.checkSegment_next hp rfl now
    have haccept : b.accept b.next =
        { next := Reorder.advance (b.next + 1) b.pending
          pending := b.pending.dropWhile (· < Reorder.advance (b.next + 1) b.pending)
          delivered := b.delivered ++
            b.next :: b.pending.takeWhile (· < Reorder.advance (b.next + 1) b.pending) } := if_pos rfl
    rw [haccept]
    simp only [hfst, if_true]
    split
    · exact ((hsnd.sendAckOrNot now).sendAck _ _).sendToApplication hp
    · exact (hsnd.sendAckOrNot now).sendToApplication hp
  · obtain ⟨hfst, hsnd⟩ := hupdated.checkSegment_other hp hi now
    simp only [hfst, Bool.false_eq_true, if_false, hp.fin]
    exact hsnd.sendAck _ _

theorem Mirrors.dataArrives (h : Mirrors div b s) (hp : div.IsSegment i p) (now : ℚ) :
    Mirrors div
      (if (s.tcb.updateSeqNumOnReceiving p).validateSegment then b.accept i else b)
      (s.dataArrives now p) := by
  unfold Socket.dataArrives
  dsimp only
  split
  · exact h.segmentArrives hp now
  · exact (h.updateSeqNum p).sendAck _ _

/-! ## Any arrivals -/

/-- A segment that arrives. -/
structure Arrival where
  index : ℕ
  packet : Packet
  time : ℚ
deriving DecidableEq, Repr

/-- The text of all segments is processed. -/
def textRun (s : Socket σ) (l : List Arrival) : Socket σ :=
  l.foldl (fun s a => s.segmentArrives a.time a.packet) s

/-- An arrival, beside the numbers of the segments that have passed the acceptance test. -/
def acceptStep (r : List ℕ × Socket σ) (a : Arrival) : List ℕ × Socket σ :=
  (if (r.2.tcb.updateSeqNumOnReceiving a.packet).validateSegment then a.index :: r.1 else r.1,
    r.2.dataArrives a.time a.packet)

/-- The segments that pass the acceptance test, latest first, and the socket after all arrivals. -/
def acceptedRun (s : Socket σ) (l : List Arrival) : List ℕ × Socket σ := l.foldl acceptStep ([], s)

/-- An established receiver that waits for the first segment. -/
structure Waiting (div : Division) (s : Socket σ) : Prop where
  established : s.tcb.tcpState = .established
  nxt : s.tcb.rcv.nxt = div.start
  queue : s.tcb.outOfOrderSegment.queue = []
  application : s.application = []

/-- **Delivery in order and once**, of the longest contiguous prefix of the received segments: `RCV.NXT`
is its end, the application has got its segments, and the queue keeps the others. -/
def DeliveredInOrder (div : Division) (received : List ℕ) (s : Socket σ) : Prop :=
  ∃ k, (∀ i < k, i ∈ received) ∧ k ∉ received ∧
    s.tcb.rcv.nxt = div.seqAt k ∧
    List.Forall₂ div.IsSegment (List.range k) s.application ∧
    ∃ js : List ℕ, js.Pairwise (· < ·) ∧ (∀ j, j ∈ js ↔ j ∈ received ∧ k < j) ∧
      Carries div js s.tcb.outOfOrderSegment.queue

theorem Mirrors.deliveredInOrder (h : Mirrors div b s) {received : List ℕ}
    (hb : Reorder.InOrder received b) : DeliveredInOrder div received s :=
  ⟨b.next, hb.below, hb.missing, h.nxt, hb.delivered ▸ h.application, b.pending, hb.sorted, hb.pending,
    h.queue⟩

theorem Waiting.mirrors (h : Waiting div s) : Mirrors div Reorder.start s where
  established := h.established
  le := Nat.zero_le _
  nxt := by
    rw [h.nxt, ← UInt32.toNat_inj, Division.seqAt_toNat]
    exact (Nat.add_zero _).symm
  queue := h.queue ▸ .nil
  application := h.application ▸ .nil

theorem Mirrors.textRun {l : List Arrival} (h : Mirrors div b s)
    (hl : ∀ a ∈ l, div.IsSegment a.index a.packet) :
    Mirrors div ((l.map (·.index)).foldl Reorder.accept b) (textRun s l) := by
  induction l generalizing b s with
  | nil => exact h
  | cons a l ih =>
    exact ih (h.segmentArrives (hl a List.mem_cons_self) a.time)
      fun a' ha' => hl a' (List.mem_cons_of_mem _ ha')

theorem Mirrors.acceptedRun {l : List Arrival} {received : List ℕ} (h : Mirrors div b s)
    (hb : Reorder.InOrder received b) (hl : ∀ a ∈ l, div.IsSegment a.index a.packet) :
    ∃ b', Reorder.InOrder (l.foldl acceptStep (received, s)).1 b' ∧
      Mirrors div b' (l.foldl acceptStep (received, s)).2 := by
  induction l generalizing received s b with
  | nil => exact ⟨b, hb, h⟩
  | cons a l ih =>
    refine ih (h.dataArrives (hl a List.mem_cons_self) a.time) ?_
      fun a' ha' => hl a' (List.mem_cons_of_mem _ ha')
    split
    · exact hb.accept a.index
    · exact hb

/-- **Data segments are delivered in order and once**, for every division of a stream and all arrivals
of its segments: if the text of each is processed, and if each passes the acceptance test first. -/
theorem delivered_inOrder (div : Division) {s : Socket σ} (hs : Waiting div s) (l : List Arrival)
    (hl : ∀ a ∈ l, div.IsSegment a.index a.packet) :
    DeliveredInOrder div (l.map (·.index)) (textRun s l) ∧
      DeliveredInOrder div (acceptedRun s l).1 (acceptedRun s l).2 := by
  constructor
  · have horder := Reorder.inOrder_start.run (l.map (·.index))
    rw [List.append_nil] at horder
    obtain ⟨k, hbelow, hmissing, hnxt, happ, js, hsorted, hjs, hqueue⟩ :=
      (hs.mirrors.textRun hl).deliveredInOrder horder
    simp only [List.mem_reverse] at hbelow hmissing hjs
    exact ⟨k, hbelow, hmissing, hnxt, happ, js, hsorted, hjs, hqueue⟩
  · obtain ⟨b, hb, h⟩ := hs.mirrors.acceptedRun Reorder.inOrder_start hl
    exact h.deliveredInOrder hb

theorem threeSegments_pos : ∀ n ∈ [100, 100, 50], 0 < n := by decide

theorem threeSegments_fits : (1000 : UInt32).toNat + [100, 100, 50].sum < 4294967296 := by decide

/-- Three segments, of 100, 100 and 50 octets. -/
def threeSegments : Division := ⟨1000, [100, 100, 50], threeSegments_pos, threeSegments_fits⟩

/-- A packet of one of the three segments. -/
def threeSegmentsPacket (k : ℕ) : Packet :=
  let len := threeSegments.lens.getD k 0
  ⟨⟨threeSegments.seqAt k, 0, 20, false, false, false, false, 0, none⟩, len, len + 20,
    some (len, false)⟩

theorem threeSegmentsPacket_isSegment {k : ℕ} (h : k < 3) :
    threeSegments.IsSegment k (threeSegmentsPacket k) := ⟨h, rfl, rfl, rfl, rfl, rfl⟩

def waitingSocket : Socket (List AppPacket) where
  tcb := { Tcb.calloc .reno with tcpState := .established, rcv := ⟨1000, 65535⟩ }
  sId := []
  waitFromApp := false
  isAppClose := false
  network := []
  application := []

/-- The last segment, the first one twice, and the second one. -/
def lateArrivals : List Arrival :=
  [2, 0, 0, 1].map fun k => ⟨k, threeSegmentsPacket k, 0⟩

theorem delivered_inOrder_late :
    DeliveredInOrder threeSegments (lateArrivals.map (·.index)) (textRun waitingSocket lateArrivals) ∧
      DeliveredInOrder threeSegments (acceptedRun waitingSocket lateArrivals).1
        (acceptedRun waitingSocket lateArrivals).2 := by
  refine delivered_inOrder threeSegments ⟨rfl, rfl, rfl, rfl⟩ lateArrivals fun a ha => ?_
  obtain ⟨k, hk, rfl⟩ := List.mem_map.1 ha
  refine threeSegmentsPacket_isSegment ?_
  simp only [List.mem_cons, List.not_mem_nil, or_false] at hk
  rcases hk with rfl | rfl | rfl | rfl <;> decide

example : (textRun waitingSocket lateArrivals).application.map (·.hdr.seqNum) = [1000, 1100, 1200] := by
  decide

end NetSim.Tcp
