import NetSim.Lib.Machine
import NetSim.Lib.Runs
import NetSim.Proof.SackQueue
import NetSim.Proof.TcpQueue
import NetSim.Spec.TcpIncoming

/-!
# The blocks of the SACK option

`set_sack_option` makes one pass over the segments that are out of order and merges neighbours. It takes a
block to be in work if the last sequence number is not 0. That number never comes into the queue, for
`check_segment` queues only what is above `RCV.NXT` (`OutOfOrder.of_reach`), and so the blocks are the first
maximal runs of the queue (`sackBlocks_eq`, `sack_blocks_are_runs`).
-/

namespace NetSim.Tcp

open SeqSpace Runs

variable {σ : Type}

/-! ## The queue of the segments out of order -/

/-- What changes the queue: a segment is checked by a socket, which may be in any state otherwise, or a
segment is taken out by `send_to_application`. -/
inductive OutOfOrderEvent (σ : Type)
  | checkSegment (s : Socket σ) (now : ℚ) (p : Packet)
  | takeOut (rcvNxt : UInt32)

/-- `outOfOrderSegment` of a control block, from its creation on. -/
def outOfOrderQueue (σ : Type) : Machine TcpQueue (OutOfOrderEvent σ) where
  init q := q = .empty
  step q
    | .checkSegment s now p =>
      some ({ s with tcb := { s.tcb with outOfOrderSegment := q } }.checkSegment now
        p).2.tcb.outOfOrderSegment
    | .takeOut rcvNxt => some (q.checkForOtherSegmentToSendFromQueue rcvNxt).2

/-- The segments are in the order of their numbers, and none has the number 0. -/
structure OutOfOrder (queue : List QueueInfo) : Prop where
  ascending : queue.Pairwise fun a b => a.seqNum < b.seqNum
  pos : ∀ info ∈ queue, info.seqNum ≠ 0

/-- **Only a segment above `RCV.NXT` is queued, and only one of each number.** -/
theorem OutOfOrder.checkSegment {s : Socket σ} (now : ℚ) (p : Packet)
    (h : OutOfOrder s.tcb.outOfOrderSegment.queue) :
    OutOfOrder (s.checkSegment now p).2.tcb.outOfOrderSegment.queue := by
  unfold Socket.checkSegment
  dsimp only
  split
  · exact h
  split
  · exact h
  split
  · exact h
  rename_i hne hgt hqueued
  have hpos : p.hdr.seqNum ≠ 0 := by
    intro hzero
    rw [hzero, ← UInt32.toNat_inj] at hne
    rw [hzero, gt_iff_lt, UInt32.lt_iff_toNat_lt] at hgt
    have h0 : (0 : UInt32).toNat = 0 := rfl
    omega
  have hnew : ∀ info ∈ s.tcb.outOfOrderSegment.queue, info.seqNum ≠ p.hdr.seqNum := by
    intro info hinfo heq
    apply hqueued
    unfold TcpQueue.isSegmentInQueue
    exact List.any_eq_true.2 ⟨info, hinfo, decide_eq_true heq.symm⟩
  constructor
  · exact TcpQueue.insertNode_sorted hnew h.ascending
  · intro info hinfo
    rcases List.mem_cons.1 ((TcpQueue.insertNode_perm _ _).mem_iff.1 hinfo) with rfl | hinfo
    · exact hpos
    · exact h.pos info hinfo

theorem OutOfOrder.takeOut {q : TcpQueue} (rcvNxt : UInt32) (h : OutOfOrder q.queue) :
    OutOfOrder (q.checkForOtherSegmentToSendFromQueue rcvNxt).2.queue := by
  unfold TcpQueue.checkForOtherSegmentToSendFromQueue
  split
  · rename_i info rest hq
    rw [hq] at h
    split
    · exact ⟨(List.pairwise_cons.1 h.ascending).2, fun b hb => h.pos b (.tail _ hb)⟩
    · rw [← hq] at h
      exact h
  · exact h

theorem OutOfOrder.of_reach {q : TcpQueue} (h : (outOfOrderQueue σ).Reach q) : OutOfOrder q.queue := by
  refine h.inv (I := fun q => OutOfOrder q.queue) ?_ ?_
  · intro q hq
    have hnil : q.queue = [] := by
      rw [show q = TcpQueue.empty from hq]
      rfl
    rw [hnil]
    exact ⟨.nil, fun info hinfo => by cases hinfo⟩
  · intro q e q' hinv _ hstep
    cases e with
    | checkSegment s now p =>
      cases hstep
      exact OutOfOrder.checkSegment now p hinv
    | takeOut rcvNxt =>
      cases hstep
      exact hinv.takeOut rcvNxt

/-! ## The blocks are runs -/

/-- The second segment begins where the first one ends. -/
def Adjoins (a b : QueueInfo) : Bool := b.seqNum = a.seqNum + a.segLen

/-- The block of some segments that follow each other. -/
def blockOf (run : List QueueInfo) : SackData :=
  ⟨(run.head?.map fun info => info.seqNum).getD 0,
    (run.getLast?.map fun info => info.seqNum + info.segLen).getD 0⟩

theorem blockOf_append_singleton (run : List QueueInfo) (a b : QueueInfo) :
    blockOf (run ++ [a] ++ [b]) = ⟨(blockOf (run ++ [a])).leftEdge, b.seqNum + b.segLen⟩ := by
  unfold blockOf
  congr 1
  · rw [List.head?_append_of_ne_nil _ (List.append_ne_nil_of_right_ne_nil _ (List.cons_ne_nil _ _))]
  · rw [List.getLast?_append_of_ne_nil _ (List.cons_ne_nil _ _)]
    rfl

/-- **The pass over the queue**, with the segments `front ++ [last]` of the block in work: the runs of what is
left are written behind the blocks that are done, up to the limit. -/
theorem sackBlocks_eq {maxData : ℕ} (rest : List QueueInfo) (done : List SackData)
    (front : List QueueInfo) (last : QueueInfo)
    (hchain : (front ++ [last]).IsChain fun a b => Adjoins a b)
    (hpos : ∀ info ∈ last :: rest, info.seqNum ≠ 0) (hroom : done.length < maxData) :
    sackBlocks maxData (done ++ [blockOf (front ++ [last])]) last.seqNum last.segLen rest =
      (done ++ ((front ++ last :: rest).splitBy Adjoins).map blockOf).take maxData := by
  induction rest generalizing done front last with
  | nil =>
    have hrun : (front ++ [last]).splitBy Adjoins = [front ++ [last]] :=
      List.splitBy_of_isChain (by simp) hchain
    unfold sackBlocks
    rw [hrun, List.take_of_length_le]
    · rfl
    · rw [List.length_append]
      exact hroom
  | cons info rest ih =>
    have hlast : last.seqNum ≠ 0 := hpos last (.head _)
    have hpos' : ∀ a ∈ info :: rest, a.seqNum ≠ 0 := fun a ha => hpos a (.tail _ ha)
    unfold sackBlocks
    rw [if_neg hlast]
    split
    · -- the segment is merged into the block in work
      rename_i hadj
      have hchain' : (front ++ [last] ++ [info]).IsChain fun a b => Adjoins a b := by
        refine List.isChain_append.2 ⟨hchain, List.isChain_singleton _, ?_⟩
        intro a ha b hb
        rw [List.getLast?_concat, Option.mem_some_iff] at ha
        rw [List.head?_cons, Option.mem_some_iff] at hb
        rw [← ha, ← hb]
        exact decide_eq_true hadj
      have h := ih done (front ++ [last]) info hchain' hpos' hroom
      rw [List.dropLast_concat, List.getLastD_concat, ← blockOf_append_singleton, h]
      simp only [List.append_assoc, List.singleton_append]
    · rename_i hadj
      have hcut : ((front ++ [last]) ++ info :: rest).splitBy Adjoins =
          (front ++ [last]) :: (info :: rest).splitBy Adjoins := by
        refine splitBy_run_append (by simp) hchain ?_
        intro a ha b hb
        rw [List.getLast?_concat, Option.mem_some_iff] at ha
        rw [List.head?_cons, Option.mem_some_iff] at hb
        rw [← ha, ← hb]
        exact decide_eq_false hadj
      have hsplit : front ++ last :: info :: rest = (front ++ [last]) ++ info :: rest := by simp
      have hmore : done ++ blockOf (front ++ [last]) :: ((info :: rest).splitBy Adjoins).map blockOf =
          done ++ [blockOf (front ++ [last])] ++ ((info :: rest).splitBy Adjoins).map blockOf := by simp
      rw [hsplit, hcut, List.map_cons, hmore]
      split
      · -- a new block is begun
        rename_i hlen
        exact ih (done ++ [blockOf (front ++ [last])]) [] info (List.isChain_singleton _) hpos' hlen
      · -- the limit is reached
        rename_i hlen
        have hfull : maxData = (done ++ [blockOf (front ++ [last])]).length := by
          rw [List.length_append, List.length_singleton] at hlen ⊢
          omega
        rw [List.take_append_of_le_length hfull.le, List.take_of_length_le hfull.ge]

/-- The blocks in the option that is written. -/
def sackOption (t : Tcb) (hdr : SegmentHdr) : List SackData := (setSackOption t hdr).sack.getD []

theorem sackOption_eq {t : Tcb} {hdr : SegmentHdr} (hq : OutOfOrder t.outOfOrderSegment.queue)
    (hnew : hdr.sack = none) :
    sackOption t hdr = [] ∨ sackOption t hdr =
      ((t.outOfOrderSegment.queue.splitBy Adjoins).map blockOf).take (getMaxSackData hdr) := by
  unfold sackOption setSackOption
  split
  · rw [hnew]
    exact .inl rfl
  split
  · rw [hnew]
    exact .inl rfl
  split
  · rw [hnew]
    exact .inl rfl
  rename_i hmax
  split
  · rw [hnew]
    exact .inl rfl
  · rename_i info rest hqueue
    rw [hqueue] at hq ⊢
    have h := sackBlocks_eq rest [] [] info (List.isChain_singleton _) hq.pos (Nat.pos_of_ne_zero hmax)
    exact .inr h

/-! ## What they report -/

/-- Two segments in the order of their numbers: the second begins no earlier than the first ends, and
ends within a turn of the first one's start. -/
def Apart (a b : QueueInfo) : Prop :=
  a.seqNum.toNat + a.segLen.toNat ≤ b.seqNum.toNat ∧
    b.seqNum.toNat + b.segLen.toNat ≤ a.seqNum.toNat + 4294967296

instance (a b : QueueInfo) : Decidable (Apart a b) := inferInstanceAs (Decidable (_ ∧ _))

/-- The octet lies in the segment, with wrapping. -/
def QueueInfo.Contains (info : QueueInfo) (x : UInt32) : Prop := InWindow info.seqNum info.segLen x

/-- Every octet of a block of neighbours lies in one of them. -/
theorem exists_contains {run : List QueueInfo} (hne : run ≠ [])
    (hchain : run.IsChain fun a b => Adjoins a b) {x : UInt32} (hx : (blockOf run).Contains x) :
    ∃ info ∈ run, info.Contains x := by
  induction run with
  | nil => exact absurd rfl hne
  | cons a run ih =>
    cases run with
    | nil =>
      refine ⟨a, .head _, ?_⟩
      have hlen : a.seqNum + a.segLen - a.seqNum = a.segLen := by
        rw [UInt32.add_comm, UInt32.add_sub_cancel]
      unfold SackData.Contains blockOf at hx
      simp only [List.head?_cons, List.getLast?_singleton, Option.map_some, Option.getD_some, hlen] at hx
      exact hx
    | cons b run =>
      obtain ⟨hadj, hchain⟩ := List.isChain_cons_cons.1 hchain
      have hb : b.seqNum = a.seqNum + a.segLen := of_decide_eq_true hadj
      have hright : (blockOf (a :: b :: run)).rightEdge = (blockOf (b :: run)).rightEdge := rfl
      have hsplit := inWindow_split a.segLen hx
      rw [hright] at hsplit
      rcases hsplit with h | h
      · exact ⟨a, .head _, h⟩
      · have hx' : (blockOf (b :: run)).Contains x := by
          unfold SackData.Contains
          rw [show (blockOf (b :: run)).leftEdge = a.seqNum + a.segLen from hb]
          exact h
        obtain ⟨info, hinfo, hcontains⟩ := ih (List.cons_ne_nil _ _) hchain hx'
        exact ⟨info, .tail _ hinfo, hcontains⟩

/-- **What the option may say of the queue.** -/
structure SackReport (queue : List QueueInfo) (maxData : ℕ) (blocks : List SackData) : Prop where
  /-- Each block is a maximal run of segments that follow each other. -/
  runs : ∀ b ∈ blocks, ∃ run, IsMaximalRun Adjoins queue run ∧ b = blockOf run
  /-- The blocks are those of the first runs. -/
  first : blocks = [] ∨ blocks = ((queue.splitBy Adjoins).map blockOf).take maxData
  /-- No two of them have an octet in common. -/
  disjoint : blocks.Pairwise SackData.Disjoint
  /-- They are in order, and there is a gap in front of each one. -/
  gap : blocks.Pairwise fun b b' => b.rightEdge < b'.leftEdge
  count : blocks.length ≤ maxData
  /-- Every octet that is reported is in the queue. -/
  inside : ∀ b ∈ blocks, ∀ x, b.Contains x → ∃ info ∈ queue, info.Contains x

theorem SackReport.nil (queue : List QueueInfo) (maxData : ℕ) : SackReport queue maxData [] where
  runs := fun b hb => by cases hb
  first := .inl rfl
  disjoint := .nil
  gap := .nil
  count := Nat.zero_le _
  inside := fun b hb => by cases hb

/-- The octets of a block, with wrapping. -/
def SackData.octets (b : SackData) : ℕ := (b.rightEdge - b.leftEdge).toNat

/-- Two blocks as a receiver reports them: the second begins behind a gap, and ends within a turn of
the first one's start. -/
def SackData.Before (b b' : SackData) : Prop :=
  b.leftEdge.toNat + b.octets < b'.leftEdge.toNat ∧
    b'.leftEdge.toNat + b'.octets ≤ b.leftEdge.toNat + 4294967296

instance (b b' : SackData) : Decidable (b.Before b') := inferInstanceAs (Decidable (_ ∧ _))

theorem SackData.Before.disjoint {b b' : SackData} (h : b.Before b') : b.Disjoint b' := by
  intro x hx
  exact not_inWindow_of_le h.1.le h.2 hx.1 hx.2

theorem SackData.Before.gap {b b' : SackData} (h : b.Before b') : b.rightEdge < b'.leftEdge := by
  have hlt := h.1
  have hleft := b.leftEdge.toNat_lt
  have hright := b.rightEdge.toNat_lt
  have hleft' := b'.leftEdge.toNat_lt
  unfold SackData.octets at hlt
  rw [UInt32.toNat_sub] at hlt
  rw [UInt32.lt_iff_toNat_lt]
  omega

/-- A block ends where its last segment does. -/
theorem octets_blockOf_le {run : List QueueInfo} (hasc : run.Pairwise fun a b => a.seqNum < b.seqNum)
    {a z : QueueInfo} (ha : a ∈ run.head?) (hz : z ∈ run.getLast?) :
    (blockOf run).leftEdge = a.seqNum ∧
      a.seqNum.toNat + (blockOf run).octets ≤ z.seqNum.toNat + z.segLen.toNat := by
  have hle : a.seqNum.toNat ≤ z.seqNum.toNat := by
    cases run with
    | nil => cases ha
    | cons b run =>
      obtain rfl : b = a := Option.some.inj ha
      rcases List.mem_cons.1 (List.mem_of_getLast? hz) with rfl | hmem
      · exact le_rfl
      · exact (UInt32.lt_iff_toNat_lt.1 ((List.pairwise_cons.1 hasc).1 z hmem)).le
  have hblock : blockOf run = ⟨a.seqNum, z.seqNum + z.segLen⟩ := by
    unfold blockOf
    rw [Option.mem_def.1 ha, Option.mem_def.1 hz]
    rfl
  rw [hblock]
  refine ⟨rfl, ?_⟩
  have hlt := a.seqNum.toNat_lt
  unfold SackData.octets
  simp only [UInt32.toNat_sub, UInt32.toNat_add]
  omega

/-- **The blocks of the runs lie one behind the other**, with gaps, in one turn. -/
theorem blocks_before {queue : List QueueInfo} (hasc : queue.Pairwise fun a b => a.seqNum < b.seqNum)
    (h : queue.Pairwise Apart) :
    ((queue.splitBy Adjoins).map blockOf).Pairwise SackData.Before := by
  have hends := pairwise_ends_splitBy (r := Adjoins)
    (R := fun a b : QueueInfo => a.seqNum < b.seqNum ∧ Apart a b)
    (S := fun a b : QueueInfo => a.seqNum.toNat + a.segLen.toNat < b.seqNum.toNat) ?_ ?_ (hasc.and h)
  · rw [List.pairwise_map]
    refine (hends.and (pairwise_pieces_splitBy (r := Adjoins) h)).imp_of_mem ?_
    rintro m n hm hn ⟨hstrict, hcross⟩
    have hsub : ∀ run ∈ queue.splitBy Adjoins, run.Pairwise fun a b => a.seqNum < b.seqNum := by
      rw [← List.flatten_splitBy Adjoins queue, List.pairwise_flatten] at hasc
      exact hasc.1
    have hm' := List.ne_nil_of_mem_splitBy hm
    have hn' := List.ne_nil_of_mem_splitBy hn
    have hfirst := Option.mem_def.2 (List.head?_eq_some_head hm')
    have hlast := Option.mem_def.2 (List.getLast?_eq_some_getLast hm')
    have hfirst' := Option.mem_def.2 (List.head?_eq_some_head hn')
    have hlast' := Option.mem_def.2 (List.getLast?_eq_some_getLast hn')
    obtain ⟨hleft, hend⟩ := octets_blockOf_le (hsub m hm) hfirst hlast
    obtain ⟨hleft', hend'⟩ := octets_blockOf_le (hsub n hn) hfirst' hlast'
    have hlt := hstrict _ hlast _ hfirst'
    have hturn := (hcross _ (List.head_mem hm') _ (List.getLast_mem hn')).2
    unfold SackData.Before
    rw [hleft, hleft']
    exact ⟨by omega, by omega⟩
  · rintro a b c ⟨_, hab⟩ ⟨hbc, _⟩
    have hle := hab.1
    rw [UInt32.lt_iff_toNat_lt] at hbc
    omega
  · rintro a b ⟨_, hab⟩ hoff
    have hne : b.seqNum ≠ a.seqNum + a.segLen := of_decide_eq_false hoff
    have hle := hab.1
    have hb := b.seqNum.toNat_lt
    rw [Ne, ← UInt32.toNat_inj, UInt32.toNat_add] at hne
    omega

theorem sackOption_before {t : Tcb} {hdr : SegmentHdr} (hq : (outOfOrderQueue σ).Reach t.outOfOrderSegment)
    (hapart : t.outOfOrderSegment.queue.Pairwise Apart) (hnew : hdr.sack = none) :
    (sackOption t hdr).Pairwise SackData.Before := by
  have hsorted := OutOfOrder.of_reach hq
  rcases sackOption_eq hsorted hnew with hnil | hfirst
  · rw [hnil]
    exact .nil
  · rw [hfirst]
    exact (blocks_before hsorted.ascending hapart).sublist (List.take_sublist _ _)

/-- **The option reports the first maximal runs of the queue and nothing else.** -/
theorem sack_blocks_are_runs (t : Tcb) (hdr : SegmentHdr)
    (hq : (outOfOrderQueue σ).Reach t.outOfOrderSegment)
    (hapart : t.outOfOrderSegment.queue.Pairwise Apart) (hnew : hdr.sack = none) :
    SackReport t.outOfOrderSegment.queue (getMaxSackData hdr) (sackOption t hdr) := by
  have hsorted := OutOfOrder.of_reach hq
  have hbefore := sackOption_before hq hapart hnew
  rcases sackOption_eq hsorted hnew with hnil | hfirst
  · rw [hnil]
    exact .nil _ _
  have hmem : ∀ b ∈ sackOption t hdr,
      ∃ run ∈ t.outOfOrderSegment.queue.splitBy Adjoins, blockOf run = b := by
    intro b hb
    rw [hfirst] at hb
    exact List.mem_map.1 (List.mem_of_mem_take hb)
  constructor
  · intro b hb
    obtain ⟨run, hrun, heq⟩ := hmem b hb
    exact ⟨run, isMaximalRun_of_mem_splitBy hrun, heq.symm⟩
  · exact .inr hfirst
  · exact hbefore.imp fun h => h.disjoint
  · exact hbefore.imp fun h => h.gap
  · rw [hfirst]
    exact List.length_take_le _ _
  · intro b hb x hx
    obtain ⟨run, hrun, rfl⟩ := hmem b hb
    obtain ⟨info, hinfo, hcontains⟩ :=
      exists_contains (List.ne_nil_of_mem_splitBy hrun) (List.isChain_of_mem_splitBy hrun) hx
    refine ⟨info, ?_, hcontains⟩
    rw [← List.flatten_splitBy Adjoins t.outOfOrderSegment.queue]
    exact List.mem_flatten.2 ⟨run, hrun, hinfo⟩

/-- A receiver that waits for the number 100, with a segment to arrive. -/
def waitingReceiver (queue : TcpQueue) : Tcb :=
  { Tcb.calloc .reno with rcv := ⟨100, 0⟩, isSackPermitted := true, outOfOrderSegment := queue }

/-- A segment of 50 octets that arrives there. -/
def arrival (seq : UInt32) : OutOfOrderEvent Unit :=
  .checkSegment ⟨waitingReceiver .empty, (), false, false, [], []⟩ 0
    ⟨⟨seq, 0, 20, false, false, false, false, 0, none⟩, 50, 70, none⟩

/-- The header of an acknowledgement without options. -/
def bareAck : SegmentHdr := ⟨1, 100, 20, false, false, false, true, 0, none⟩

/-- The segments at 150, 200 and 400 arrive out of order: two runs. -/
theorem sack_blocks_of_three : ∃ q, (outOfOrderQueue Unit).Reach q ∧
    SackReport q.queue (getMaxSackData bareAck) (sackOption (waitingReceiver q) bareAck) ∧
    sackOption (waitingReceiver q) bareAck = [⟨150, 250⟩, ⟨400, 450⟩] := by
  obtain ⟨q, hreach, hapart, hblocks⟩ := Machine.Reach.exists_of_exec (M := outOfOrderQueue Unit)
    (P := fun q => q.queue.Pairwise Apart ∧
      sackOption (waitingReceiver q) bareAck = [⟨150, 250⟩, ⟨400, 450⟩])
    [arrival 400, arrival 150, arrival 200] (.init rfl) (by decide)
  exact ⟨q, hreach, sack_blocks_are_runs (waitingReceiver q) bareAck hreach hapart rfl, hblocks⟩

end NetSim.Tcp
