import Mathlib.Data.List.Pairwise
import NetSim.Lib.Grid
import NetSim.Lib.Word
import NetSim.Spec.Sack

/-!
# The queue under selective acknowledgement
-/

/-!
## SACK flags

A received option sets the flag of every segment that starts in a block or at its right edge
(`receiveSackOption_queue`). These are the segments whose octets have been reported only if no
segment is cut by a right edge or starts at one (`flagsReported_iff`).
-/

namespace NetSim.Tcp

open SeqSpace

variable {t : Tcb} {hdr : SegmentHdr} {info : QueueInfo} {b b' : SackData} {blocks : List SackData}

/-! ## What the option does -/

/-- `update_sack_flag` sets the flag for the block. -/
def SackData.Hits (b : SackData) (info : QueueInfo) : Prop :=
  b.leftEdge ≤ info.seqNum ∧ info.seqNum ≤ b.rightEdge

instance (b : SackData) (info : QueueInfo) : Decidable (b.Hits info) :=
  inferInstanceAs (Decidable (_ ∧ _))

namespace Tcb

theorem updateScoreboard_queue (t : Tcb) (left right : UInt32) (i : ℕ) :
    (t.updateScoreboard left right i).retransmissionQueue = t.retransmissionQueue := by
  unfold updateScoreboard
  dsimp only
  split <;> rfl

theorem clearScoreboard_queue (t : Tcb) (i : ℕ) :
    (t.clearScoreboard i).retransmissionQueue = t.retransmissionQueue := by
  have hfold : ∀ (l : List ℕ) (t : Tcb),
      (l.foldl (fun t i => t.updateScoreboard 0 0 i) t).retransmissionQueue =
        t.retransmissionQueue := by
    intro l
    induction l with
    | nil => exact fun _ => rfl
    | cons i l ih => exact fun t => (ih _).trans (updateScoreboard_queue t 0 0 i)
  exact hfold _ t

end Tcb

/-- The segment with its flag set if the condition holds. -/
def QueueInfo.flag (info : QueueInfo) (c : Bool) : QueueInfo :=
  { info with isSacked := info.isSacked || c }

theorem QueueInfo.updateSackFlag_eq (b : SackData) (info : QueueInfo) :
    info.updateSackFlag b.leftEdge b.rightEdge = info.flag (decide (b.Hits info)) := by
  unfold updateSackFlag flag
  by_cases h : b.Hits info
  · rw [decide_eq_true h, Bool.or_true]
    exact if_pos h
  · rw [decide_eq_false h, Bool.or_false]
    exact if_neg h

theorem QueueInfo.flag_flag (info : QueueInfo) (c c' : Bool) :
    (info.flag c).flag c' = info.flag (c || c') := by
  unfold flag
  rw [Bool.or_assoc]

theorem receiveBlocks_queue (blocks : List SackData) (t : Tcb) (i : ℕ) :
    (t.receiveBlocks blocks i).retransmissionQueue.queue =
      t.retransmissionQueue.queue.map fun info => info.flag (blocks.any fun b => b.Hits info) := by
  induction blocks generalizing t i with
  | nil =>
    unfold Tcb.receiveBlocks QueueInfo.flag
    simp only [List.any_nil, Bool.or_false, List.map_id']
  | cons b blocks ih =>
    unfold Tcb.receiveBlocks
    rw [ih, Tcb.updateScoreboard_queue]
    unfold Tcb.updateSackFlag
    dsimp only
    rw [List.map_map]
    refine List.map_congr_left fun info _ => ?_
    rw [Function.comp_apply, QueueInfo.updateSackFlag_eq, QueueInfo.flag_flag]
    rfl

theorem receiveSackOption_queue (hpermitted : t.isSackPermitted = true) (hsack : hdr.sack = some blocks) :
    (t.receiveSackOption hdr).retransmissionQueue.queue =
      t.retransmissionQueue.queue.map fun info => info.flag (blocks.any fun b => b.Hits info) := by
  unfold Tcb.receiveSackOption
  simp only [hpermitted, hsack, Bool.not_true, Bool.false_eq_true, if_false]
  cases blocks with
  | nil =>
    unfold QueueInfo.flag
    simp only [List.any_nil, Bool.or_false, List.map_id']
  | cons b blocks =>
    dsimp only
    rw [Tcb.clearScoreboard_queue, receiveBlocks_queue]

/-! ## What it is to do -/

namespace SackData

/-- The octet lies in the block, with wrapping: the right edge does not belong to it. -/
def Contains (b : SackData) (x : UInt32) : Prop := InWindow b.leftEdge (b.rightEdge - b.leftEdge) x

/-- All octets of the segment lie in the block. -/
def Covers (b : SackData) (info : QueueInfo) : Prop :=
  (info.seqNum - b.leftEdge).toNat + info.segLen.toNat ≤ (b.rightEdge - b.leftEdge).toNat

instance (b : SackData) (info : QueueInfo) : Decidable (b.Covers info) :=
  inferInstanceAs (Decidable (_ ≤ _))

def Disjoint (b b' : SackData) : Prop := ∀ x, ¬ (b.Contains x ∧ b'.Contains x)

instance : Std.Symm Disjoint := ⟨fun _ _ h x hx => h x ⟨hx.2, hx.1⟩⟩

end SackData

/-- **A segment is flagged iff it was before or all of its octets lie in one of the blocks.** -/
def FlagsReported (t : Tcb) (hdr : SegmentHdr) (blocks : List SackData) : Prop :=
  (t.receiveSackOption hdr).retransmissionQueue.queue =
    t.retransmissionQueue.queue.map fun info => info.flag (blocks.any fun b => b.Covers info)

/-- The blocks meet the segment in no place where the code and the edges disagree. -/
structure Clear (blocks : List SackData) (info : QueueInfo) : Prop where
  /-- The segment does not cross the right edge of the block that it starts in. -/
  inside : ∀ b ∈ blocks, b.leftEdge ≤ info.seqNum → info.seqNum < b.rightEdge →
    info.seqNum.toNat + info.segLen.toNat ≤ b.rightEdge.toNat
  /-- It does not start at a right edge, unless another block reports it. -/
  edge : ∀ b ∈ blocks, b.leftEdge ≤ info.seqNum → info.seqNum = b.rightEdge →
    info.segLen ≠ 0 → ∃ b' ∈ blocks, b'.Covers info
  /-- It does not lie in a block that wraps, unless another block flags it. -/
  whole : ∀ b ∈ blocks, b.rightEdge < b.leftEdge → b.Covers info → ∃ b' ∈ blocks, b'.Hits info

namespace SackData

/-- In a block that does not wrap, `Covers` compares the edges. -/
theorem covers_iff_of_hits (h : b.Hits info) :
    b.Covers info ↔ info.seqNum.toNat + info.segLen.toNat ≤ b.rightEdge.toNat := by
  obtain ⟨hleft, hright⟩ := h
  have hr := b.rightEdge.toNat_lt
  unfold Covers
  rw [UInt32.le_iff_toNat_le] at hleft hright
  rw [UInt32.toNat_sub_of_le _ _ (UInt32.le_iff_toNat_le.2 hleft),
    UInt32.toNat_sub_of_le _ _ (UInt32.le_iff_toNat_le.2 (hleft.trans hright))]
  omega

/-- A block that covers a segment and does not wrap flags it. -/
theorem Covers.hits (h : b.Covers info) (hwhole : b.leftEdge ≤ b.rightEdge) : b.Hits info := by
  have hseq := info.seqNum.toNat_lt
  have hl := b.leftEdge.toNat_lt
  have hr := b.rightEdge.toNat_lt
  unfold Covers at h
  unfold Hits
  rw [UInt32.le_iff_toNat_le] at hwhole
  rw [UInt32.le_iff_toNat_le, UInt32.le_iff_toNat_le]
  rw [UInt32.toNat_sub, UInt32.toNat_sub] at h
  omega

theorem Covers.contains (h : b.Covers info) (hlen : info.segLen ≠ 0) : b.Contains info.seqNum := by
  have hpos : 0 < info.segLen.toNat := by
    rw [ne_eq, ← UInt32.toNat_inj] at hlen
    exact Nat.pos_of_ne_zero hlen
  unfold Covers at h
  unfold Contains InWindow
  rw [UInt32.lt_iff_toNat_lt]
  omega

theorem contains_of_lt (hleft : b.leftEdge ≤ info.seqNum) (hright : info.seqNum < b.rightEdge) :
    b.Contains info.seqNum := by
  have hseq := info.seqNum.toNat_lt
  have hr := b.rightEdge.toNat_lt
  unfold Contains InWindow
  rw [UInt32.le_iff_toNat_le] at hleft
  rw [UInt32.lt_iff_toNat_lt] at hright ⊢
  rw [UInt32.toNat_sub, UInt32.toNat_sub]
  omega

end SackData

/-- Two blocks of the option that share an octet are one block. -/
theorem eq_of_contains (hdisjoint : blocks.Pairwise SackData.Disjoint) (hb : b ∈ blocks)
    (hb' : b' ∈ blocks) {x : UInt32} (hx : b.Contains x) (hx' : b'.Contains x) : b = b' := by
  by_contra hne
  exact hdisjoint.forall hb hb' hne x ⟨hx, hx'⟩

theorem clear_iff (hdisjoint : blocks.Pairwise SackData.Disjoint) :
    ((∃ b ∈ blocks, b.Hits info) ↔ ∃ b ∈ blocks, b.Covers info) ↔ Clear blocks info := by
  constructor
  · intro h
    refine ⟨fun b hb hleft hright => ?_, fun b hb hleft hright _ => ?_, fun b hb _ hcov => ?_⟩
    · by_cases hlen : info.segLen = 0
      · rw [UInt32.lt_iff_toNat_lt] at hright
        rw [hlen]
        exact hright.le
      · obtain ⟨b', hb', hcov⟩ := h.1 ⟨b, hb, hleft, UInt32.le_of_lt hright⟩
        -- both blocks contain the first octet
        have heq := eq_of_contains hdisjoint hb hb' (SackData.contains_of_lt hleft hright)
          (hcov.contains hlen)
        rw [← heq] at hcov
        exact (SackData.covers_iff_of_hits ⟨hleft, UInt32.le_of_lt hright⟩).1 hcov
    · exact h.1 ⟨b, hb, hleft, hright ▸ UInt32.le_refl _⟩
    · exact h.2 ⟨b, hb, hcov⟩
  · intro h
    constructor
    · rintro ⟨b, hb, hhits⟩
      rcases UInt32.lt_or_eq_of_le hhits.2 with hlt | heq
      · exact ⟨b, hb, (SackData.covers_iff_of_hits hhits).2 (h.inside b hb hhits.1 hlt)⟩
      · by_cases hlen : info.segLen = 0
        · refine ⟨b, hb, (SackData.covers_iff_of_hits hhits).2 ?_⟩
          rw [heq, hlen]
          exact le_rfl
        · exact h.edge b hb hhits.1 heq hlen
    · rintro ⟨b, hb, hcov⟩
      by_cases hwhole : b.leftEdge ≤ b.rightEdge
      · exact ⟨b, hb, hcov.hits hwhole⟩
      · exact h.whole b hb (UInt32.not_le.1 hwhole) hcov

/-- **When the option flags what it reports.** -/
theorem flagsReported_iff (hpermitted : t.isSackPermitted = true) (hsack : hdr.sack = some blocks)
    (hdisjoint : blocks.Pairwise SackData.Disjoint) : FlagsReported t hdr blocks ↔
      ∀ info ∈ t.retransmissionQueue.queue, info.isSacked = false → Clear blocks info := by
  unfold FlagsReported
  rw [receiveSackOption_queue hpermitted hsack, List.map_inj_left]
  refine forall₂_congr fun info _ => ?_
  rw [← clear_iff hdisjoint]
  unfold QueueInfo.flag
  simp only [QueueInfo.mk.injEq, true_and]
  cases info.isSacked with
  | true => simp only [Bool.true_or, reduceCtorEq, false_imp_iff]
  | false =>
    rw [Bool.false_or, Bool.false_or, eq_self false, true_imp_iff, Bool.eq_iff_iff]
    simp only [List.any_eq_true, decide_eq_true_eq]

/-- A sender with two segments of 100 octets, from 100 and from 200 on. -/
def sackSender : Tcb :=
  let segment (seq : UInt32) : QueueInfo :=
    ⟨⟨⟨seq, 0, 20, false, false, false, false, 0, none⟩, 100, 120, some (100, false)⟩, 0, false⟩
  { Tcb.calloc .reno with
    tcpState := .established
    isSackPermitted := true
    retransmissionQueue := ⟨240, [segment 100, segment 200], false⟩ }

/-- An acknowledgement with the given blocks. -/
def sackHdr (blocks : List SackData) : SegmentHdr := ⟨1, 100, 32, false, false, false, true, 0, some blocks⟩

theorem flagsReported_iff_second : FlagsReported sackSender (sackHdr [⟨200, 300⟩]) [⟨200, 300⟩] ↔
    ∀ info ∈ sackSender.retransmissionQueue.queue, info.isSacked = false → Clear [⟨200, 300⟩] info :=
  flagsReported_iff rfl rfl (List.pairwise_singleton ..)

/-- The report of the first segment flags the second one as well. -/
theorem flags_next_segment : ¬ ∀ (t : Tcb) (hdr : SegmentHdr) (blocks : List SackData),
    t.isSackPermitted = true → hdr.sack = some blocks → blocks.Pairwise SackData.Disjoint →
      FlagsReported t hdr blocks := by
  intro hall
  have h := hall sackSender (sackHdr [⟨100, 200⟩]) _ rfl rfl (List.pairwise_singleton ..)
  exact absurd h (by unfold FlagsReported; decide)

end NetSim.Tcp

/-!
## The octets in flight

`tcp_sack_setPipe` visits the octets from `SND.UNA` to `SND.NXT` in steps of `SMSS` and counts a full
segment at each of them, with no look at the retransmission queue.

* `setPipe_grid`: the loop ends, with the octets that the steps stand for.
* `setPipe_of_exact`, `setPipe_iff`: these are those of RFC 6675 if every octet is in flight as often as the
  octet that stands for it, and only then unless errors in both directions add up to nothing.
* `setPipe_fullSized`: if all segments are full, no SACKed one may be counted.
* `setPipe_stuck`: with a zero `SMSS` the loop does not end.
-/

namespace NetSim.Tcp

open Finset

/-- The octet belongs to the segment. -/
def QueueInfo.carries (info : QueueInfo) (x : ℕ) : Bool :=
  info.seqNum.toNat ≤ x ∧ x < info.seqNum.toNat + info.segLen.toNat

namespace Tcb

variable {t : Tcb}

/-! ## What RFC 6675 counts -/

/-- How often a segment is in flight: it has not been lost, or it has been retransmitted, or both. -/
def weight (t : Tcb) (seq : UInt32) : ℕ := (if t.isLost seq then 0 else 1) + if seq ≤ t.highRxt then 1 else 0

/-- How often an octet is in flight. It is SACKed, lost or retransmitted with its segment. -/
def octetWeight (t : Tcb) (x : ℕ) : ℕ :=
  match t.retransmissionQueue.queue.find? (·.carries x) with
  | some info => if info.isSacked then 0 else t.weight info.seqNum
  | none => 0

/-- The number of octets between `HighACK` and `HighData`. -/
def flight (t : Tcb) : ℕ := (t.snd.nxt - t.snd.una).toNat

/-- `SetPipe` of RFC 6675. -/
def rfcPipe (t : Tcb) : ℕ := ∑ i ∈ range t.flight, t.octetWeight (t.snd.una.toNat + i)

/-! ## What the code counts -/

/-- `SMSS`. -/
def mss (t : Tcb) : ℕ := t.getMss.toUInt32.toNat

/-- The number of steps that the loop makes. -/
def pipeSteps (t : Tcb) : ℕ := Grid.blocks t.flight t.mss

/-- The octet at which a step stands. -/
def stepSeq (t : Tcb) (k : ℕ) : UInt32 := t.snd.una + UInt32.ofNat (k * t.mss)

/-- How often the octet that stands for the given one is in flight. Octets are counted from `SND.UNA` on. -/
def gridWeight (t : Tcb) (i : ℕ) : ℕ := t.weight (t.stepSeq (i / t.mss))

/-- How often RFC 6675 counts the octet; those from `SND.NXT` on are not in flight. -/
def flightWeight (t : Tcb) (i : ℕ) : ℕ := if i < t.flight then t.octetWeight (t.snd.una.toNat + i) else 0

/-- Some octet is counted too often: its segment is SACKed, or it is beyond `SND.NXT` or in no segment, or its segment is
in flight less often than the octet that stands for it. -/
def CountsTooOften (t : Tcb) : Prop := ∃ i < t.pipeSteps * t.mss, t.flightWeight i < t.gridWeight i

/-- Some octet is not counted, or not often enough. -/
def CountsTooRarely (t : Tcb) : Prop := ∃ i < t.pipeSteps * t.mss, t.gridWeight i < t.flightWeight i

/-- The steps of the loop end before the sequence numbers wrap. -/
structure Steps (t : Tcb) : Prop where
  mss : 0 < t.flight → 0 < t.mss
  noWrap : t.snd.una.toNat + t.pipeSteps * t.mss < 4294967296

/-- The queue is made of full segments, from `SND.UNA` to `SND.NXT`. -/
structure FullSized (t : Tcb) : Prop where
  whole : t.flight = t.pipeSteps * t.mss
  queue : t.retransmissionQueue.queue.map (fun info => (info.seqNum, info.segLen.toNat)) =
    (List.range t.pipeSteps).map fun k => (t.stepSeq k, t.mss)

/-! ## The loop -/

theorem mss_lt (t : Tcb) : t.mss < 65536 := by
  unfold mss
  rw [UInt16.toNat_toUInt32]
  exact t.getMss.toNat_lt

theorem weight_le (t : Tcb) (seq : UInt32) : t.weight seq ≤ 2 := by
  unfold weight
  split <;> split <;> omega

theorem pipeWeight_toNat (t : Tcb) (s1 : UInt32) : (t.pipeWeight s1).toNat = t.mss * t.weight s1 := by
  have hlt := t.mss_lt
  have hzero : (0 : UInt32).toNat = 0 := rfl
  have hsmss : t.getMss.toUInt32.toNat = t.mss := rfl
  unfold pipeWeight weight
  rw [UInt32.toNat_add, apply_ite UInt32.toNat, apply_ite UInt32.toNat, hzero, hsmss]
  split <;> split <;> omega

/-- Nothing is in flight, or the steps are not in place. -/
theorem Steps.pos_or (h : t.Steps) : 0 < t.mss ∨ t.flight = 0 ∧ t.pipeSteps = 0 := by
  rcases Nat.eq_zero_or_pos t.flight with hzero | hpos
  · refine .inr ⟨hzero, ?_⟩
    unfold pipeSteps
    rw [hzero, Grid.blocks_zero]
  · exact .inl (h.mss hpos)

theorem Steps.flight_le (h : t.Steps) : t.flight ≤ t.pipeSteps * t.mss := by
  rcases h.pos_or with hmss | ⟨hzero, -⟩
  · exact Grid.le_blocks_mul hmss
  · rw [hzero]
    exact Nat.zero_le _

theorem Steps.nxt_toNat (h : t.Steps) : t.snd.nxt.toNat = t.snd.una.toNat + t.flight := by
  have hle := h.flight_le
  have hwrap := h.noWrap
  have hnxt := t.snd.nxt.toNat_lt
  unfold flight at hle ⊢
  rw [UInt32.toNat_sub] at hle ⊢
  omega

theorem Steps.stepSeq_toNat (h : t.Steps) {k : ℕ} (hk : k ≤ t.pipeSteps) :
    (t.stepSeq k).toNat = t.snd.una.toNat + k * t.mss := by
  have hle := Nat.mul_le_mul_right t.mss hk
  have hwrap := h.noWrap
  unfold stepSeq
  rw [UInt32.toNat_add, UInt32.toNat_ofNat']
  omega

/-- The number of octets that the first steps stand for. -/
def stepSum (t : Tcb) (k : ℕ) : ℕ := ∑ j ∈ range k, t.mss * t.weight (t.stepSeq j)

theorem Steps.stepSeq_lt_iff (h : t.Steps) {k : ℕ} (hk : k ≤ t.pipeSteps) :
    t.stepSeq k < t.snd.nxt ↔ k < t.pipeSteps := by
  rw [UInt32.lt_iff_toNat_lt, h.stepSeq_toNat hk, h.nxt_toNat]
  rcases h.pos_or with hmss | ⟨hzero, hnone⟩
  · unfold pipeSteps
    rw [Grid.lt_blocks_iff hmss]
    omega
  · rw [hzero, hnone]
    omega

/-- The loop from a step on, with what has been counted before. -/
theorem Steps.run_setPipeRound (h : t.Steps) (n : ℕ) {k : ℕ} (hk : k + n = t.pipeSteps) :
    Loop.run t.setPipeRound (n + 1) (t.stepSeq k, UInt32.ofNat (t.stepSum k)) =
      some (UInt32.ofNat (t.stepSum t.pipeSteps)) := by
  induction n generalizing k with
  | zero =>
    obtain rfl : k = t.pipeSteps := hk
    refine Loop.run_inr (if_neg ?_)
    rw [h.stepSeq_lt_iff le_rfl]
    exact lt_irrefl _
  | succ n ih =>
    have hlt : t.stepSeq k < t.snd.nxt := (h.stepSeq_lt_iff (by omega)).2 (by omega)
    have hseq : t.stepSeq k + t.getMss.toUInt32 = t.stepSeq (k + 1) := by
      rw [← UInt32.toNat_inj, UInt32.toNat_add, h.stepSeq_toNat (by omega), h.stepSeq_toNat (by omega),
        Nat.add_one_mul]
      have hle := Nat.mul_le_mul_right t.mss (show k + 1 ≤ t.pipeSteps by omega)
      have hwrap := h.noWrap
      have hsmss : t.getMss.toUInt32.toNat = t.mss := rfl
      rw [Nat.add_one_mul] at hle
      omega
    have hsum : UInt32.ofNat (t.stepSum k) + t.pipeWeight (t.stepSeq k) =
        UInt32.ofNat (t.stepSum (k + 1)) := by
      have hweight := t.pipeWeight_toNat (t.stepSeq k)
      rw [← UInt32.toNat_inj, UInt32.toNat_add, UInt32.toNat_ofNat', UInt32.toNat_ofNat', hweight,
        stepSum, stepSum, sum_range_succ, Nat.mod_add_mod]
    have hround : t.setPipeRound (t.stepSeq k, UInt32.ofNat (t.stepSum k)) =
        .inl (t.stepSeq (k + 1), UInt32.ofNat (t.stepSum (k + 1))) := by
      unfold setPipeRound
      rw [if_pos hlt, hseq, hsum]
    rw [Loop.run_inl hround]
    exact ih (by omega)

theorem stepSum_eq (h : t.Steps) :
    t.stepSum t.pipeSteps = ∑ i ∈ range (t.pipeSteps * t.mss), t.gridWeight i := by
  rcases h.pos_or with hmss | ⟨-, hnone⟩
  · exact (Grid.sum_range_mul_div (fun j => t.weight (t.stepSeq j)) hmss _).symm
  · unfold stepSum
    rw [hnone, Nat.zero_mul]
    rfl

/-- **The loop ends**, with the octets that its steps stand for. -/
theorem setPipe_grid (h : t.Steps) : t.setPipe (t.pipeSteps + 1) =
    some { t with pipe := UInt32.ofNat (∑ i ∈ range (t.pipeSteps * t.mss), t.gridWeight i) } := by
  have hrun := h.run_setPipeRound t.pipeSteps (Nat.zero_add _)
  have hstart : t.stepSeq 0 = t.snd.una := by
    rw [← UInt32.toNat_inj, h.stepSeq_toNat (Nat.zero_le _), Nat.zero_mul, Nat.add_zero]
  rw [hstart, stepSum_eq h] at hrun
  unfold setPipe
  exact congrArg (Option.map _) hrun

theorem rfcPipe_eq (h : t.Steps) :
    t.rfcPipe = ∑ i ∈ range (t.pipeSteps * t.mss), t.flightWeight i := by
  have hin : ∀ i ∈ range t.flight, t.flightWeight i = t.octetWeight (t.snd.una.toNat + i) :=
    fun i hi => if_pos (mem_range.1 hi)
  have hout : ∀ i ∈ range (t.pipeSteps * t.mss), i ∉ range t.flight → t.flightWeight i = 0 :=
    fun i _ hi => if_neg fun hlt => hi (mem_range.2 hlt)
  rw [← sum_subset (range_subset_range.2 h.flight_le) hout, sum_congr rfl hin]
  rfl

/-! ## The two counts -/

/-- `tcp_sack_setPipe` ends with the octets in flight of RFC 6675. -/
def PipeExact (t : Tcb) : Prop := ∃ rounds t', t.setPipe rounds = some t' ∧ t'.pipe.toNat = t.rfcPipe

theorem pipeExact_iff (h : t.Steps) :
    t.PipeExact ↔ (∑ i ∈ range (t.pipeSteps * t.mss), t.gridWeight i) % 4294967296 = t.rfcPipe := by
  have hgrid := setPipe_grid h
  constructor
  · rintro ⟨rounds, t', hset, heq⟩
    obtain ⟨pipe, hrun, rfl⟩ := Option.map_eq_some_iff.1 hset
    obtain ⟨pipe', hrun', hpipe'⟩ := Option.map_eq_some_iff.1 hgrid
    obtain rfl := Loop.run_unique hrun hrun'
    have heq' : pipe = UInt32.ofNat (∑ i ∈ range (t.pipeSteps * t.mss), t.gridWeight i) :=
      congrArg Tcb.pipe hpipe'
    have heq : pipe.toNat = t.rfcPipe := heq
    rw [heq', UInt32.toNat_ofNat'] at heq
    exact heq
  · intro hmod
    exact ⟨_, _, hgrid, (UInt32.toNat_ofNat' ..).trans hmod⟩

/-- If no octet is counted too often or too rarely, the count is right. -/
theorem setPipe_of_exact (h : t.Steps) (hpipe : t.rfcPipe < 4294967296) (hoften : ¬ t.CountsTooOften)
    (hrarely : ¬ t.CountsTooRarely) : t.PipeExact := by
  have hsame : ∑ i ∈ range (t.pipeSteps * t.mss), t.gridWeight i = t.rfcPipe := by
    rw [rfcPipe_eq h]
    refine sum_congr rfl fun i hi => ?_
    have hlt := mem_range.1 hi
    exact le_antisymm (not_lt.1 fun hgt => hoften ⟨i, hlt, hgt⟩) (not_lt.1 fun hgt => hrarely ⟨i, hlt, hgt⟩)
  rw [pipeExact_iff h, hsame]
  exact Nat.mod_eq_of_lt hpipe

/-- If less than 2 GiB are in flight, the sum is a word. -/
theorem sum_gridWeight_lt (hsmall : 2 * (t.pipeSteps * t.mss) < 4294967296) :
    ∑ i ∈ range (t.pipeSteps * t.mss), t.gridWeight i < 4294967296 := by
  have hle : ∑ i ∈ range (t.pipeSteps * t.mss), t.gridWeight i ≤ ∑ _i ∈ range (t.pipeSteps * t.mss), 2 :=
    sum_le_sum fun i _ => t.weight_le _
  rw [sum_const_nat fun _ _ => rfl, card_range] at hle
  omega

/-- **When the octets in flight are those of RFC 6675**, unless errors in both directions add up to nothing. -/
theorem setPipe_iff (h : t.Steps) (hpipe : t.rfcPipe < 4294967296)
    (hsmall : 2 * (t.pipeSteps * t.mss) < 4294967296) (hone : ¬ (t.CountsTooOften ∧ t.CountsTooRarely)) :
    t.PipeExact ↔ ¬ t.CountsTooOften ∧ ¬ t.CountsTooRarely := by
  constructor
  · intro hexact
    rw [pipeExact_iff h, Nat.mod_eq_of_lt (sum_gridWeight_lt hsmall), rfcPipe_eq h] at hexact
    by_cases hoften : t.CountsTooOften
    · -- nothing is counted too rarely, so the sums agree everywhere
      have hle : ∀ i < t.pipeSteps * t.mss, t.flightWeight i ≤ t.gridWeight i :=
        fun i hi => not_lt.1 fun hgt => hone ⟨hoften, i, hi, hgt⟩
      have hall := (Grid.sum_eq_iff_of_le hle).1 hexact.symm
      obtain ⟨i, hi, hlt⟩ := hoften
      exact absurd (hall i hi) hlt.ne
    · have hle : ∀ i < t.pipeSteps * t.mss, t.gridWeight i ≤ t.flightWeight i :=
        fun i hi => not_lt.1 fun hgt => hoften ⟨i, hi, hgt⟩
      have hall := (Grid.sum_eq_iff_of_le hle).1 hexact
      refine ⟨hoften, ?_⟩
      rintro ⟨i, hi, hlt⟩
      exact absurd (hall i hi) hlt.ne
  · rintro ⟨hoften, hrarely⟩
    exact setPipe_of_exact h hpipe hoften hrarely

/-! ## Full segments -/

namespace FullSized

variable (h : t.FullSized)
include h

theorem length : t.retransmissionQueue.queue.length = t.pipeSteps := by
  have hlen := congrArg List.length h.queue
  rw [List.length_map, List.length_map, List.length_range] at hlen
  exact hlen

/-- The segment at a place of the queue. -/
theorem getElem? {k : ℕ} {info : QueueInfo} (hk : t.retransmissionQueue.queue[k]? = some info) :
    k < t.pipeSteps ∧ info.seqNum = t.stepSeq k ∧ info.segLen.toNat = t.mss := by
  obtain ⟨hlt, -⟩ := List.getElem?_eq_some_iff.1 hk
  rw [h.length] at hlt
  have hget := congrArg (·[k]?) h.queue
  simp only [List.getElem?_map, hk, Option.map_some, List.getElem?_range hlt, Option.some.injEq,
    Prod.mk.injEq] at hget
  exact ⟨hlt, hget⟩

/-- An octet belongs to the segment at the step that stands for it. -/
theorem find? (hsteps : t.Steps) {i : ℕ} (hi : i < t.flight) : ∃ info,
    t.retransmissionQueue.queue.find? (·.carries (t.snd.una.toNat + i)) = some info ∧
      t.retransmissionQueue.queue[i / t.mss]? = some info := by
  have hmss := hsteps.mss (Nat.zero_lt_of_lt hi)
  have hstep : i / t.mss < t.pipeSteps := by
    rw [Nat.div_lt_iff_lt_mul hmss, ← h.whole]
    exact hi
  have hdiv := Nat.div_add_mod' i t.mss
  have hmod := Nat.mod_lt i hmss
  obtain ⟨info, hinfo⟩ : ∃ info, t.retransmissionQueue.queue[i / t.mss]? = some info := by
    rw [← h.length] at hstep
    exact ⟨_, List.getElem?_eq_getElem hstep⟩
  -- only the segment at this step carries the octet
  have hcarries : ∀ k info', t.retransmissionQueue.queue[k]? = some info' →
      (info'.carries (t.snd.una.toNat + i) = true ↔ k = i / t.mss) := by
    intro k info' hk
    obtain ⟨hlt, hseq, hlen⟩ := h.getElem? hk
    unfold QueueInfo.carries
    rw [decide_eq_true_eq, hseq, hlen, hsteps.stepSeq_toNat hlt.le, eq_comm (a := k), Nat.div_eq_iff hmss]
    omega
  refine ⟨info, ?_, hinfo⟩
  cases hfind : t.retransmissionQueue.queue.find? (·.carries (t.snd.una.toNat + i)) with
  | none =>
    have hnone := List.find?_eq_none.1 hfind info (List.mem_of_getElem? hinfo)
    exact absurd ((hcarries _ _ hinfo).2 rfl) hnone
  | some info' =>
    obtain ⟨k, hk⟩ := List.mem_iff_getElem?.1 (List.mem_of_find?_eq_some hfind)
    have hself := List.find?_some hfind
    have heq := (hcarries k info' hk).1 hself
    rw [heq, hinfo] at hk
    exact hk.symm

/-- An octet is counted with its own segment, SACKed or not. -/
theorem flightWeight_eq (hsteps : t.Steps) {i : ℕ} (hi : i < t.flight) : ∃ info,
    t.retransmissionQueue.queue[i / t.mss]? = some info ∧ t.gridWeight i = t.weight info.seqNum ∧
      t.flightWeight i = if info.isSacked then 0 else t.weight info.seqNum := by
  obtain ⟨info, hfind, hget⟩ := h.find? hsteps hi
  refine ⟨info, hget, ?_, ?_⟩
  · rw [(h.getElem? hget).2.1]
    rfl
  · unfold flightWeight octetWeight
    rw [if_pos hi, hfind]

theorem not_countsTooRarely (hsteps : t.Steps) : ¬ t.CountsTooRarely := by
  rintro ⟨i, hi, hlt⟩
  rw [← h.whole] at hi
  obtain ⟨info, -, hgrid, hflight⟩ := h.flightWeight_eq hsteps hi
  rw [hgrid, hflight] at hlt
  split at hlt
  · exact absurd hlt (Nat.not_lt_zero _)
  · exact lt_irrefl _ hlt

theorem not_countsTooOften_iff (hsteps : t.Steps) : ¬ t.CountsTooOften ↔
    ∀ info ∈ t.retransmissionQueue.queue, info.isSacked = true → t.weight info.seqNum = 0 := by
  constructor
  · intro hnot info hinfo hsacked
    obtain ⟨k, hk⟩ := List.mem_iff_getElem?.1 hinfo
    obtain ⟨hlt, hseq, -⟩ := h.getElem? hk
    -- the first octet of the segment
    have hmss : 0 < t.mss := (hsteps.pos_or).resolve_right fun hzero => by omega
    have hi : k * t.mss < t.flight := by
      rw [h.whole]
      exact Nat.mul_lt_mul_of_pos_right hlt hmss
    obtain ⟨info', hget, hgrid, hflight⟩ := h.flightWeight_eq hsteps hi
    rw [Nat.mul_div_cancel _ hmss, hk] at hget
    obtain rfl := Option.some.inj hget
    by_contra hpos
    refine hnot ⟨k * t.mss, by rwa [← h.whole], ?_⟩
    rw [hflight, hgrid, if_pos hsacked]
    exact Nat.pos_of_ne_zero hpos
  · rintro hzero ⟨i, hi, hlt⟩
    rw [← h.whole] at hi
    obtain ⟨info, hget, hgrid, hflight⟩ := h.flightWeight_eq hsteps hi
    rw [hgrid, hflight] at hlt
    split at hlt
    · rename_i hsacked
      rw [hzero info (List.mem_of_getElem? hget) hsacked] at hlt
      exact lt_irrefl _ hlt
    · exact lt_irrefl _ hlt

end FullSized

/-- **Full segments** are counted right if and only if the SACKed ones are lost and above `HighRxt`. -/
theorem setPipe_fullSized (h : t.Steps) (hpipe : t.rfcPipe < 4294967296)
    (hsmall : 2 * (t.pipeSteps * t.mss) < 4294967296) (hfull : t.FullSized) :
    t.PipeExact ↔ ∀ info ∈ t.retransmissionQueue.queue, info.isSacked = true → t.weight info.seqNum = 0 := by
  have hrarely := hfull.not_countsTooRarely h
  rw [setPipe_iff h hpipe hsmall fun hboth => hrarely hboth.2, hfull.not_countsTooOften_iff h]
  exact and_iff_left hrarely

theorem setPipe_of_le {t' : Tcb} {rounds rounds' : ℕ} (h : t.setPipe rounds = some t')
    (hle : rounds ≤ rounds') : t.setPipe rounds' = some t' := by
  obtain ⟨pipe, hrun, rfl⟩ := Option.map_eq_some_iff.1 h
  exact Option.map_eq_some_iff.2 ⟨pipe, Loop.run_of_le hrun hle, rfl⟩

/-- With a zero `SMSS` the loop does not end while something is in flight. -/
theorem setPipe_stuck (hmss : t.getMss = 0) (hflight : t.snd.una < t.snd.nxt) (rounds : ℕ) :
    t.setPipe rounds = none := by
  have hstuck : ¬ Loop.Halts t.setPipeRound (t.snd.una, 0) := by
    refine Loop.not_halts (I := fun s => s.1 = t.snd.una) (fun s hs => ?_) rfl
    refine ⟨_, if_pos (hs ▸ hflight), ?_⟩
    rw [hmss]
    exact (UInt32.add_zero _).trans hs
  cases hset : t.setPipe rounds with
  | none => rfl
  | some t' =>
    obtain ⟨pipe, hrun, -⟩ := Option.map_eq_some_iff.1 hset
    exact absurd ⟨rounds, pipe, hrun⟩ hstuck

end Tcb

end NetSim.Tcp
