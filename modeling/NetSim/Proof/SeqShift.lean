import NetSim.Lib.Word
import NetSim.Spec.TcpIncoming

/-!
# Shifting the sequence space

The acceptance test and the processing of an acknowledgement compare sequence numbers with the plain
order of the words. `sameOutcome_iff` says for which offsets they nevertheless do the same when
the offset is added to all sequence variables: the receive window stays in one piece, and of two
numbers that are compared both wrap or neither.
-/

namespace NetSim.Tcp

open SeqSpace

/-! ## The shift -/

def SackData.shift (d : UInt32) (data : SackData) : SackData :=
  ⟨data.leftEdge + d, data.rightEdge + d⟩

def SegmentHdr.shift (d : UInt32) (hdr : SegmentHdr) : SegmentHdr :=
  { hdr with
    seqNum := hdr.seqNum + d
    ackNum := hdr.ackNum + d
    sack := hdr.sack.map fun blocks => blocks.map (.shift d) }

def QueueInfo.shift (d : UInt32) (info : QueueInfo) : QueueInfo :=
  { info with packet := { info.packet with hdr := info.packet.hdr.shift d } }

def TcpQueue.shift (d : UInt32) (q : TcpQueue) : TcpQueue :=
  { q with queue := q.queue.map (.shift d) }

def SendSeqVar.shift (d : UInt32) (snd : SendSeqVar) : SendSeqVar :=
  { snd with una := snd.una + d, nxt := snd.nxt + d, wl1 := snd.wl1 + d, wl2 := snd.wl2 + d }

/-- The offset is added to every sequence variable of the state and of the segment. -/
def Tcb.shift (d : UInt32) (t : Tcb) : Tcb :=
  { t with
    snd := t.snd.shift d
    rcv := { t.rcv with nxt := t.rcv.nxt + d }
    seg := { t.seg with seq := t.seg.seq + d, ack := t.seg.ack + d }
    iss := t.iss + d
    retransmissionQueue := t.retransmissionQueue.shift d
    outOfOrderSegment := t.outOfOrderSegment.shift d
    congestion.recover := t.congestion.recover + d
    scoreboard := t.scoreboard.map (.shift d)
    prevScoreboard := t.prevScoreboard.map (.shift d)
    highRxt := t.highRxt + d
    rescueRxt := t.rescueRxt + d
    recoveryPoint := t.recoveryPoint + d }

variable {t : Tcb} {d : UInt32}

theorem SackData.shift_injective : Function.Injective (SackData.shift d) := by
  rintro ⟨l, r⟩ ⟨l', r'⟩ h
  simp only [shift, SackData.mk.injEq, UInt32.add_left_inj] at h
  rw [h.1, h.2]

theorem SegmentHdr.shift_injective : Function.Injective (SegmentHdr.shift d) := by
  have hsack : Function.Injective (Option.map (List.map (SackData.shift d))) :=
    Option.map_injective (List.map_injective_iff.2 SackData.shift_injective)
  rintro ⟨_, _, _, _, _, _, _, _, sack⟩ ⟨_, _, _, _, _, _, _, _, sack'⟩ h
  simp only [shift, SegmentHdr.mk.injEq, UInt32.add_left_inj] at h
  obtain ⟨rfl, rfl, rfl, rfl, rfl, rfl, rfl, rfl, heq⟩ := h
  rw [hsack heq]

theorem QueueInfo.shift_injective : Function.Injective (QueueInfo.shift d) := by
  rintro ⟨⟨hdr, _, _, _⟩, _, _⟩ ⟨⟨hdr', _, _, _⟩, _, _⟩ h
  simp only [shift, QueueInfo.mk.injEq, Packet.mk.injEq] at h
  obtain ⟨⟨heq, rfl, rfl, rfl⟩, rfl, rfl⟩ := h
  rw [SegmentHdr.shift_injective heq]

/-! ## The acceptance test -/

namespace Tcb

/-- Some octet at an end of the segment lies in the receive window, with wrapping. -/
def Acceptable (t : Tcb) : Prop :=
  InWindow t.rcv.nxt t.rcv.wnd t.seg.seq ∨
    (t.seg.len ≠ 0 ∧ InWindow t.rcv.nxt t.rcv.wnd (t.seg.seq + t.seg.len - 1))

instance (t : Tcb) : Decidable t.Acceptable :=
  inferInstanceAs (Decidable (_ < _ ∨ (_ ∧ _ < _)))

/-- The end of the receive window has not wrapped. -/
def IsWindowWhole (t : Tcb) : Prop := t.rcv.nxt ≤ t.rcv.nxt + t.rcv.wnd

instance (t : Tcb) : Decidable t.IsWindowWhole := inferInstanceAs (Decidable (_ ≤ _))

theorem not_acceptable (hwnd : t.rcv.wnd = 0) : ¬ t.Acceptable := by
  rintro (hin | ⟨-, hin⟩) <;>
    exact absurd (hwnd ▸ hin) (by simp [InWindow, UInt32.lt_iff_toNat_lt])

theorem validateSegment_iff (t : Tcb) : t.validateSegment = true ↔
    (t.seg.len = 0 ∧ t.rcv.wnd = 0 ∧ t.seg.seq = t.rcv.nxt) ∨ (t.Acceptable ∧ t.IsWindowWhole) := by
  have hpos : ∀ {a : UInt32}, a > 0 ↔ a ≠ 0 := by
    intro a
    rw [gt_iff_lt, UInt32.lt_iff_toNat_lt, ne_eq, ← UInt32.toNat_inj]
    exact Nat.pos_iff_ne_zero
  unfold validateSegment
  simp only [hpos]
  by_cases hwnd : t.rcv.wnd = 0
  · have hnone := not_acceptable hwnd
    by_cases hlen : t.seg.len = 0 <;> simp [hwnd, hlen, hnone]
  · unfold Acceptable IsWindowWhole
    by_cases hlen : t.seg.len = 0
    · simp [hwnd, hlen, plain_window_iff]
    · simp only [hwnd, hlen, and_self, and_false, false_and, if_false, plain_window_iff, ne_eq,
        not_false_iff, true_and, decide_eq_true_eq, false_or]
      exact or_and_right.symm

theorem acceptable_shift : (t.shift d).Acceptable ↔ t.Acceptable := by
  have hend : t.seg.seq + d + t.seg.len - 1 = t.seg.seq + t.seg.len - 1 + d := by
    grind
  unfold Acceptable
  simp only [shift]
  rw [inWindow_add, hend, inWindow_add]

theorem validateSegment_shift_iff : (t.shift d).validateSegment = t.validateSegment ↔
    (t.Acceptable → ((t.shift d).IsWindowWhole ↔ t.IsWindowWhole)) := by
  have hzero : ((t.shift d).seg.len = 0 ∧ (t.shift d).rcv.wnd = 0 ∧
      (t.shift d).seg.seq = (t.shift d).rcv.nxt) ↔
      (t.seg.len = 0 ∧ t.rcv.wnd = 0 ∧ t.seg.seq = t.rcv.nxt) := by
    simp only [shift, UInt32.add_left_inj]
  rw [Bool.eq_iff_iff, validateSegment_iff, validateSegment_iff, acceptable_shift, hzero]
  by_cases hacc : t.Acceptable
  · have hnot : ¬ (t.seg.len = 0 ∧ t.rcv.wnd = 0 ∧ t.seg.seq = t.rcv.nxt) := by
      rintro ⟨-, hwnd, -⟩
      exact not_acceptable hwnd hacc
    simp only [hacc, hnot, true_and, false_or, forall_const]
  · simp only [hacc, false_and, or_false, false_imp_iff]

/-! ## The comparisons of an acknowledgement -/

/-- The numbers compared for an update of the send window lie on the same sides. -/
def WindowSides (t : Tcb) (d : UInt32) : Prop :=
  if t.snd.wl1 = t.seg.seq then SameSide d t.snd.wl2 t.seg.ack else SameSide d t.snd.wl1 t.seg.seq

instance (t : Tcb) (d : UInt32) : Decidable (t.WindowSides d) := by
  unfold WindowSides
  infer_instance

/-- The numbers that `ackBranch` compares lie on the same sides. -/
def AckSides (t : Tcb) (d : UInt32) : Prop :=
  SameSide d t.seg.ack t.snd.una ∧
    (t.snd.una < t.seg.ack → SameSide d t.seg.ack t.snd.nxt ∧
      (t.seg.ack ≤ t.snd.nxt → t.WindowSides d))

theorem isWindowUpdated_shift_iff :
    (t.shift d).isWindowUpdated = t.isWindowUpdated ↔ t.WindowSides d := by
  unfold isWindowUpdated WindowSides
  simp only [decide_eq_decide, shift, SendSeqVar.shift, UInt32.add_left_inj]
  by_cases heq : t.snd.wl1 = t.seg.seq
  · simp only [heq, if_true, UInt32.lt_irrefl, false_or, true_and]
    exact add_le_add_iff ..
  · simp only [heq, if_false, false_and, or_false]
    exact add_lt_add_iff ..

theorem ackBranch_shift_iff : (t.shift d).ackBranch = t.ackBranch ↔ t.AckSides d := by
  have hnot : ∀ {a b : UInt32}, a < b ↔ ¬ b ≤ a := fun {a b} => UInt32.not_le.symm
  unfold ackBranch AckSides
  rw [← isWindowUpdated_shift_iff, ← add_le_add_iff, ← add_le_add_iff]
  have hack : (t.shift d).seg.ack = t.seg.ack + d := rfl
  have huna : (t.shift d).snd.una = t.snd.una + d := rfl
  have hnxt : (t.shift d).snd.nxt = t.snd.nxt + d := rfl
  rw [hack, huna, hnxt]
  simp only [hnot]
  by_cases hold : t.seg.ack ≤ t.snd.una <;> by_cases hold' : t.seg.ack + d ≤ t.snd.una + d <;>
    by_cases hsent : t.seg.ack ≤ t.snd.nxt <;> by_cases hsent' : t.seg.ack + d ≤ t.snd.nxt + d <;>
    simp [hold, hold', hsent, hsent']

end Tcb

/-! ## The retransmission queue -/

/-- The number that acknowledges the segment. -/
def QueueInfo.endSeq (info : QueueInfo) : UInt32 := info.seqNum + info.segLen

namespace TcpQueue

variable {q : TcpQueue} {ackNo : UInt32}

theorem endSeq_shift (info : QueueInfo) : (info.shift d).endSeq = info.endSeq + d := by
  have hend : (info.shift d).endSeq = info.seqNum + d + info.segLen := rfl
  rw [hend]
  unfold QueueInfo.endSeq
  rw [← UInt32.toNat_inj]
  simp only [UInt32.toNat_add]
  omega

/-- The numbers compared when the acknowledged segments are deleted lie on the same sides. -/
theorem deleteSegmentFromQueue_shift_iff :
    (q.shift d).deleteSegmentFromQueue (ackNo + d) = (q.deleteSegmentFromQueue ackNo).shift d ↔
      ∀ info ∈ q.queue, SameSide d info.endSeq ackNo := by
  have hside : ∀ info : QueueInfo, SameSide d info.endSeq ackNo ↔
      (decide ((info.shift d).endSeq ≤ ackNo + d) = decide (info.endSeq ≤ ackNo)) := by
    intro info
    rw [endSeq_shift, decide_eq_decide, add_le_add_iff]
  have hfilter : (q.shift d).deleteSegmentFromQueue (ackNo + d) =
      { q with
        size := ((q.queue.filter fun info => (info.shift d).endSeq ≤ ackNo + d).map
          (QueueInfo.shift d)).foldl (fun size (info : QueueInfo) => size - info.packetSize) q.size
        queue := (q.queue.filter fun info => !decide ((info.shift d).endSeq ≤ ackNo + d)).map
          (QueueInfo.shift d) } := by
    unfold deleteSegmentFromQueue shift
    simp only [List.filter_map]
    rfl
  rw [hfilter]
  constructor
  · intro heq info hmem
    have hqueue := congrArg TcpQueue.queue heq
    have hkept := List.map_injective_iff.2 QueueInfo.shift_injective hqueue
    have hiff := Iff.of_eq (congrArg (info ∈ ·) hkept)
    rw [hside, ← Bool.not_inj_iff, Bool.eq_iff_iff]
    unfold QueueInfo.endSeq
    unfold deleteSegmentFromQueue QueueInfo.endSeq at hiff
    simpa only [List.mem_filter, hmem, true_and] using hiff
  · intro hsides
    have hsame : ∀ info ∈ q.queue,
        decide ((info.shift d).endSeq ≤ ackNo + d) = decide (info.endSeq ≤ ackNo) :=
      fun info hmem => (hside info).1 (hsides info hmem)
    rw [List.filter_congr hsame, List.filter_congr fun info hmem => congrArg _ (hsame info hmem),
      List.foldl_map]
    rfl

end TcpQueue

/-! ## The outcome -/

namespace Tcb

/-- **The segment is accepted and acknowledges the same** when the offset is added: the result of the
acceptance test, the branch of the acknowledgement, and the state it leaves. -/
def SameOutcome (t : Tcb) (d : UInt32) : Prop :=
  (t.shift d).validateSegment = t.validateSegment ∧
    (t.shift d).ackBranch = t.ackBranch ∧
    (t.shift d).acknowledge = t.acknowledge.shift d

/-- No comparison sees exactly one of its numbers wrap. -/
def NoneWraps (t : Tcb) (d : UInt32) : Prop :=
  (t.Acceptable → ((t.shift d).IsWindowWhole ↔ t.IsWindowWhole)) ∧
    t.AckSides d ∧
    (t.snd.una < t.seg.ack ∧ t.seg.ack ≤ t.snd.nxt →
      ∀ info ∈ t.retransmissionQueue.queue, SameSide d info.endSeq t.seg.ack)

theorem acknowledge_shift_iff (hbranch : (t.shift d).ackBranch = t.ackBranch) :
    (t.shift d).acknowledge = t.acknowledge.shift d ↔
      (t.snd.una < t.seg.ack ∧ t.seg.ack ≤ t.snd.nxt →
        ∀ info ∈ t.retransmissionQueue.queue, SameSide d info.endSeq t.seg.ack) := by
  rw [← TcpQueue.deleteSegmentFromQueue_shift_iff]
  unfold acknowledge
  by_cases hnew : t.snd.una < t.seg.ack ∧ t.seg.ack ≤ t.snd.nxt
  · have hb : t.ackBranch = .new t.isWindowUpdated := if_pos hnew
    have hupdated : (t.shift d).isWindowUpdated = t.isWindowUpdated := by
      have hb' := hbranch.trans hb
      unfold ackBranch at hb'
      split at hb'
      · exact AckBranch.new.inj hb'
      · split at hb' <;> cases hb'
    have hsnd : (t.shift d).ackSnd = t.ackSnd.shift d := by
      unfold ackSnd
      rw [hupdated]
      split <;> rfl
    rw [hbranch, hb]
    simp only [hnew, and_self, forall_const, hsnd]
    constructor
    · intro heq
      exact congrArg Tcb.retransmissionQueue heq
    · intro hqueue
      have hack : (t.shift d).seg.ack = t.seg.ack + d := rfl
      have hq : (t.shift d).retransmissionQueue = t.retransmissionQueue.shift d := rfl
      rw [hack, hq, hqueue]
      rfl
  · have hb : t.ackBranch = .duplicate ∨ t.ackBranch = .notSent := by
      unfold ackBranch
      rw [if_neg hnew]
      split
      · exact .inl rfl
      · exact .inr rfl
    rw [hbranch]
    rcases hb with hb | hb <;> simp only [hb, hnew, false_imp_iff]

/-- **When a shift of the sequence space is not seen.** -/
theorem sameOutcome_iff (t : Tcb) (d : UInt32) : t.SameOutcome d ↔ t.NoneWraps d := by
  unfold SameOutcome NoneWraps
  rw [validateSegment_shift_iff]
  constructor
  · rintro ⟨hvalid, hbranch, hack⟩
    exact ⟨hvalid, ackBranch_shift_iff.1 hbranch, (acknowledge_shift_iff hbranch).1 hack⟩
  · rintro ⟨hvalid, hsides, hqueue⟩
    have hbranch := ackBranch_shift_iff.2 hsides
    exact ⟨hvalid, hbranch, (acknowledge_shift_iff hbranch).2 hqueue⟩

/-- An acknowledgement of new data counts as a duplicate if it lies behind the wrap and `SND.UNA` in
front of it. -/
theorem shift_new_to_duplicate : ¬ ∀ (t : Tcb) (d : UInt32), t.SameOutcome d := by
  intro hall
  have hsame := hall
    { calloc .reno with tcpState := .established, snd := ⟨100, 300, 0, 0, 0⟩, seg := ⟨1, 200, 0, 0⟩ }
    4294967146
  exact absurd hsame.2.1 (by decide)

end Tcb

end NetSim.Tcp
