import NetSim.Proof.AmSender

/-!
# When the last data is guarded by a poll

`sendPduToMac` polls by its counters only: the test for empty buffers compares pointers
that are never null. A PDU that leaves both buffers empty may so go out without a poll.

* `guarded_of_lastPolled`: if each PDU that leaves both buffers empty is due for a poll by
  the counters, the guard holds in every state of the run.
* `last_unguarded`: a lone SDU goes out without a poll.
-/

namespace NetSim.Rlc.AmTx

open Word

/-- Unacknowledged data with nothing more to send has the poll-retransmit timer running. -/
def Guarded (tx : AmTx) : Prop :=
  tx.transmissionBuffer = [] → tx.retransmissionBuffer = [] → tx.transmittedBuffer ≠ [] →
    tx.isPollRetransmitTimerStarted = true

/-- The PDU of this call is the last that the two buffers held. -/
def MacCall.LeavesEmpty (c : MacCall) : Prop :=
  c.entity.transmissionBuffer = [] ∧
    c.entity.retransmissionBuffer.length = if c.isRetransmission then 1 else 0

instance (c : MacCall) : Decidable c.LeavesEmpty := by
  unfold MacCall.LeavesEmpty
  infer_instance

/-- The PDU of this call ends its SDU, and brings `PDU_WITHOUT_POLL` or `BYTE_WITHOUT_POLL` to
its limit. -/
def MacCall.BringsToLimit (cfg : AmConfig) (c : MacCall) : Prop :=
  c.pdu.si.endsSdu = true ∧ (cfg.pollPdu ≤ u32 (c.entity.pduWithoutPoll + 1) ∨
    cfg.pollByte ≤ u32 (c.entity.byteWithoutPoll + ofInt32 c.pdu.mac.packetSize))

instance (cfg : AmConfig) (c : MacCall) : Decidable (c.BringsToLimit cfg) := by
  unfold MacCall.BringsToLimit
  infer_instance

theorem MacCall.BringsToLimit.isPollIncluded {cfg : AmConfig} {c : MacCall} (h : c.BringsToLimit cfg) :
    isPollIncluded cfg c.entity c.pdu = true := by
  obtain ⟨hends, hlimit⟩ := h
  unfold AmTx.isPollIncluded
  rw [hends]
  simpa using hlimit

/-- Each PDU of a grant that leaves both buffers empty ends its SDU and brings a counter to
its limit. -/
def LastPolled (H : HdrLib) (cfg : AmConfig) (tx : AmTx) : Event → Prop
  | .grant size ch => ∀ c ∈ tx.grantCalls H cfg size ch, c.LeavesEmpty → c.BringsToLimit cfg
  | _ => True

instance (H : HdrLib) (cfg : AmConfig) (tx : AmTx) (e : Event) : Decidable (LastPolled H cfg tx e) :=
  match e with
  | .enqueue _ _ | .grant _ _ | .pollRetransmit | .status _ => by
    dsimp only [LastPolled]
    infer_instance

/-- The guard, with a poll SN that covers everything unacknowledged. -/
structure PollOk (tx : AmTx) : Prop where
  high : ∀ b, b ∈ tx.transmittedBuffer ∨ b ∈ tx.retransmissionBuffer → b.sn ≤ tx.txHighestSn
  guard : tx.transmissionBuffer = [] → tx.retransmissionBuffer = [] → tx.transmittedBuffer ≠ [] →
    tx.isPollRetransmitTimerStarted = true ∧ ∀ b ∈ tx.transmittedBuffer, b.sn ≤ tx.pollSn

theorem pollOk_init : PollOk init := ⟨by simp [init], by simp [init]⟩

variable {H : HdrLib} {cfg : AmConfig} {ch : LogicalChannel}

/-- A retransmission that is polled when it is the last PDU. -/
theorem PollOk.sendRetransmission {tx : AmTx} {pre post : List BufferData} {b : BufferData} (h : PollOk tx)
    (hb : tx.retransmissionBuffer = pre ++ b :: post)
    (hcall : (sendRetransmission cfg ch tx (pre ++ post) b).2.LeavesEmpty →
      isPollIncluded cfg (sendRetransmission cfg ch tx (pre ++ post) b).2.entity
        (sendRetransmission cfg ch tx (pre ++ post) b).2.pdu = true) :
    PollOk (sendRetransmission cfg ch tx (pre ++ post) b).1 := by
  have hent : (AmTx.sendRetransmission cfg ch tx (pre ++ post) b).2.entity =
      { tx with bufferStatus := tx.bufferStatus.subOrZero ch b.size } := rfl
  obtain ⟨_, _, poll, hpoll, heq⟩ := sendRetransmission_eq cfg ch tx (pre ++ post) b
  rw [← hpoll] at hcall
  rw [heq]
  have hhigh : ∀ c, c ∈ tx.transmittedBuffer ++ [b] ∨ c ∈ pre ++ post → c.sn ≤ max tx.txHighestSn b.sn := by
    intro c hc
    rw [List.mem_append, List.mem_singleton] at hc
    rcases hc with (hc | rfl) | hc
    · exact Nat.le_trans (h.high c (Or.inl hc)) (Nat.le_max_left _ _)
    · exact Nat.le_max_right _ _
    · exact Nat.le_trans (h.high c (Or.inr (mem_of_mem_others hb hc))) (Nat.le_max_left _ _)
  refine ⟨hhigh, ?_⟩
  intro ht hr _
  dsimp only at ht hr ⊢
  -- nothing is left, so this call polls
  have hpolled : poll = true := by
    refine hcall ⟨?_, ?_⟩
    · rw [hent]
      exact ht
    · obtain ⟨rfl, rfl⟩ := List.append_eq_nil_iff.1 hr
      rw [hent, hb]
      rfl
  rw [hpolled, if_pos rfl]
  exact ⟨rfl, fun c hc => hhigh c (Or.inl hc)⟩

/-- A first transmission that is polled when it is the last PDU. -/
theorem PollOk.sendTransmission {tx : AmTx} (h : PollOk tx) (buffer : List BufferData) (ret : BufferData)
    (hcall : (sendTransmission H cfg ch tx buffer ret).2.LeavesEmpty →
      isPollIncluded cfg (sendTransmission H cfg ch tx buffer ret).2.entity
        (sendTransmission H cfg ch tx buffer ret).2.pdu = true) :
    PollOk (sendTransmission H cfg ch tx buffer ret).1 := by
  have hent : (AmTx.sendTransmission H cfg ch tx buffer ret).2.entity =
      { tx with
        transmissionBuffer := buffer
        bufferStatus := tx.bufferStatus.sub ch ret.payload } := rfl
  obtain ⟨_, _, poll, hpoll, heq⟩ := sendTransmission_eq H cfg ch tx buffer ret
  rw [← hpoll] at hcall
  rw [heq]
  have hhigh : ∀ c, c ∈ tx.transmittedBuffer ++ [amHdrAdd H ret] ∨ c ∈ tx.retransmissionBuffer →
      c.sn ≤ max tx.txHighestSn ret.sn := by
    intro c hc
    rw [List.mem_append, List.mem_singleton] at hc
    rcases hc with (hc | rfl) | hc
    · exact Nat.le_trans (h.high c (Or.inl hc)) (Nat.le_max_left _ _)
    · exact Nat.le_max_right _ _
    · exact Nat.le_trans (h.high c (Or.inr hc)) (Nat.le_max_left _ _)
  refine ⟨hhigh, ?_⟩
  intro ht hr _
  dsimp only at ht hr ⊢
  have hpolled : poll = true := by
    refine hcall ⟨?_, ?_⟩
    · rw [hent]
      exact ht
    · rw [hent]
      exact List.length_eq_zero_iff.2 hr
  rw [hpolled, if_pos rfl]
  exact ⟨rfl, fun c hc => hhigh c (Or.inl hc)⟩

/-- **A grant keeps the guard** if its last PDU polls. -/
theorem PollOk.moves {tx tx' : AmTx} {calls : List MacCall} (hm : Moves H cfg ch tx calls tx')
    (hok : ∀ c ∈ calls, c.LeavesEmpty → isPollIncluded cfg c.entity c.pdu = true) (h : PollOk tx) :
    PollOk tx' := by
  -- `hok` speaks of all calls of the grant, so it stands inside the invariant
  refine hm.inv
    (I := fun tx cs => (∀ c ∈ cs, c.LeavesEmpty → isPollIncluded cfg c.entity c.pdu = true) → PollOk tx)
    (J := fun tx cs => (∀ c ∈ cs, c.LeavesEmpty → isPollIncluded cfg c.entity c.pdu = true) → PollOk tx)
    (fun _ _ h => h) ?_ ?_ ?_ [] (fun _ => h) hok
  · intro tx cs pre b post hb _ _ hi hok
    exact (hi fun c hc => hok c (List.mem_append_left _ hc)).sendRetransmission hb
      (hok _ (List.mem_append_right _ (List.mem_singleton_self _)))
  · intro tx cs pre b post left ret _ _ _ _ hi hok
    exact (hi fun c hc => hok c (List.mem_append_left _ hc)).sendTransmission _ ret
      (hok _ (List.mem_append_right _ (List.mem_singleton_self _)))
  · intro tx cs pre b post left ret b' _ _ _ _ hi hok
    exact (hi fun c hc => hok c (List.mem_append_left _ hc)).sendTransmission _ ret
      (hok _ (List.mem_append_right _ (List.mem_singleton_self _)))

/-- **An expiry** with nothing more to send takes every entry out of the transmitted buffer. -/
theorem PollOk.poll {tx tx' : AmTx} (h : PollOk tx) (hs : tx.handlePollRetransmitTimer cfg = some tx') :
    PollOk tx' := by
  unfold handlePollRetransmitTimer at hs
  split at hs
  · simp only [Option.some.injEq] at hs
    subst hs
    constructor
    · intro b hb
      rcases hb with hb | hb
      · exact h.high b (Or.inl (List.mem_of_mem_filter hb))
      · rcases List.mem_append.1 hb with hb | hb
        · exact h.high b (Or.inr hb)
        · obtain ⟨c, hc, rfl⟩ := List.mem_map.1 (List.mem_of_mem_filter hb)
          exact h.high c (Or.inl (List.mem_of_mem_filter hc))
    · intro ht hr hne
      obtain ⟨hr, -⟩ := List.append_eq_nil_iff.1 hr
      obtain ⟨b, hb⟩ := List.exists_mem_of_ne_nil _ hne
      -- an entry that stays is above the poll SN, where the guard leaves none
      obtain ⟨hb, hsn⟩ := List.mem_filter.1 hb
      have hle := (h.guard ht hr (List.ne_nil_of_mem hb)).2 b hb
      exact absurd hle (of_decide_eq_true hsn)
  · exact absurd hs (by simp)

/-- **A STATUS PDU** that stops the timer has acknowledged everything up to the poll SN. -/
theorem PollOk.status {tx tx' : AmTx} {pdu : StatusPdu} (h : PollOk tx)
    (hs : tx.receiveStatusPdu cfg pdu = some tx') : PollOk tx' := by
  obtain ⟨hit, rest, hfind, rfl⟩ := receiveStatusPdu_cases hs
  have hperm := nackFindAll_perm hfind
  have hrest : ∀ b ∈ rest, b ∈ tx.transmittedBuffer := fun b hb =>
    hperm.subset (List.mem_append_right _ hb)
  constructor
  · intro b hb
    rcases hb with hb | hb
    · exact h.high b (Or.inl (hrest b (List.mem_of_mem_filter hb)))
    · rcases List.mem_append.1 hb with hb | hb
      · exact h.high b (Or.inr hb)
      · obtain ⟨c, hc, rfl⟩ := List.mem_map.1 hb
        exact h.high c (Or.inl (hperm.subset (List.mem_append_left _ (List.mem_of_mem_filter hc))))
  · intro ht hr hne
    obtain ⟨hr, -⟩ := List.append_eq_nil_iff.1 hr
    obtain ⟨b, hb⟩ := List.exists_mem_of_ne_nil _ hne
    obtain ⟨hb, hsn⟩ := List.mem_filter.1 hb
    obtain ⟨hstarted, hle⟩ := h.guard ht hr (List.ne_nil_of_mem (hrest b hb))
    have hack : ¬ b.sn < pdu.ackSn := of_decide_eq_true hsn
    have hpoll := hle b (hrest b hb)
    -- `b` is not below `Ack_SN`, so neither is the poll SN, and the timer goes on
    have hrun : ¬ tx.pollSn < pdu.ackSn := by omega
    refine ⟨?_, fun c hc => hle c (hrest c (List.mem_of_mem_filter hc))⟩
    dsimp only
    rw [if_neg hrun]
    exact hstarted

theorem PollOk.enqueue {tx : AmTx} (h : PollOk tx) (p : Packet) :
    PollOk (tx.handlePduFromUpperLayer p ch) :=
  ⟨h.high, fun ht => absurd ht (by simp [handlePduFromUpperLayer, addPacket])⟩

/-- **The last data is guarded.** In every run whose grants poll with each PDU that leaves the
transmission and retransmission buffers empty, unacknowledged data with nothing more to
send has the poll-retransmit timer running in every state. -/
theorem guarded_of_lastPolled (H : HdrLib) (cfg : AmConfig) {tx : AmTx}
    (h : (machine H cfg).ReachOn (LastPolled H cfg) tx) : Guarded tx := by
  have hi : PollOk tx := by
    apply h.inv
    · intro tx h0
      have h0 : tx = init := h0
      exact h0 ▸ pollOk_init
    · intro tx e tx' hi hok hs
      cases e with
      | enqueue p ch =>
        simp only [machine, step, Option.some.injEq] at hs
        subst hs
        split
        · exact hi.enqueue p
        · exact hi
      | grant size ch =>
        simp only [machine, step, Option.some.injEq] at hs
        subst hs
        split
        · rename_i hch
          simp only [LastPolled, grantCalls, if_pos hch] at hok
          exact hi.moves (sendPdu_moves H cfg tx size ch) fun c hc he => (hok c hc he).isPollIncluded
        · exact hi
      | pollRetransmit => exact hi.poll hs
      | status pdu => exact hi.status hs
  exact fun ht hr hne => (hi.guard ht hr hne).1

/-- Four SDUs in one grant: the fourth polls. -/
def fourInOneGrant : List Event :=
  [.enqueue (userSdu 0) .dtch, .enqueue (userSdu 1) .dtch, .enqueue (userSdu 2) .dtch,
    .enqueue (userSdu 3) .dtch, .grant 1000 .dtch]

theorem guarded_fourInOneGrant :
    ∃ tx, (machine .overhead .shipped).ReachOn (LastPolled .overhead .shipped) tx ∧
      tx.transmittedBuffer.length = 4 ∧ Guarded tx := by
  obtain ⟨tx, htx, hlen⟩ := Machine.ReachOn.exists_of_execOn (M := machine .overhead .shipped)
    (P := fun tx => tx.transmittedBuffer.length = 4) (LastPolled .overhead .shipped)
    fourInOneGrant (.init rfl) (by decide)
  exact ⟨tx, htx, hlen, guarded_of_lastPolled .overhead .shipped htx⟩

/-- **Unguarded.** One SDU is the last data there is, and it goes out without a poll. -/
theorem last_unguarded : ∃ tx, (machine .overhead .shipped).Reach tx ∧ ¬ Guarded tx := by
  obtain ⟨tx, htx, h⟩ := Machine.Reach.exists_of_exec (M := machine .overhead .shipped)
    (P := fun tx => tx.transmissionBuffer = [] ∧ tx.retransmissionBuffer = [] ∧
      tx.transmittedBuffer ≠ [] ∧ tx.isPollRetransmitTimerStarted = false)
    [.enqueue (userSdu 0) .dtch, .grant 1000 .dtch] (.init rfl) (by decide)
  refine ⟨tx, htx, ?_⟩
  intro hg
  have := hg h.1 h.2.1 h.2.2.1
  rw [h.2.2.2] at this
  exact absurd this (by simp)

end NetSim.Rlc.AmTx
