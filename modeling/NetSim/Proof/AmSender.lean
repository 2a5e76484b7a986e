import Mathlib.Data.List.Perm.Basic
import NetSim.Spec.RlcAm

/-!
# What one event does to an RLC AM sender

* `sendPdu_moves`: a grant is a sequence of moves. Each takes an entry out of the
  retransmission buffer, or takes an entry or cuts a segment out of the transmission
  buffer, sends it, and puts it into the transmitted buffer. `Moves.inv` is the
  induction over them.
* `receiveStatusPdu_cases`: a STATUS PDU moves the NACKed entries below the
  retransmission limit and clears the others below `Ack_SN`.
-/

namespace NetSim.Rlc.AmTx

open Word

/-! ## Sending -/

/-- Sending a PDU touches only the highest SN, the counters, and on a poll the poll SN and
the timer. -/
theorem sendPduToMac_eq (cfg : AmConfig) (tx : AmTx) (pdu : AmdPdu) : ∃ pdus bytes,
    (sendPduToMac cfg tx pdu).1 =
      { tx with
        txHighestSn := max tx.txHighestSn pdu.sn
        pduWithoutPoll := pdus
        byteWithoutPoll := bytes
        pollSn := if isPollIncluded cfg tx pdu then max tx.txHighestSn pdu.sn else tx.pollSn
        isPollRetransmitTimerStarted :=
          isPollIncluded cfg tx pdu || tx.isPollRetransmitTimerStarted } := by
  unfold sendPduToMac
  cases isPollIncluded cfg tx pdu with
  | false => exact ⟨_, _, rfl⟩
  | true =>
    refine ⟨0, 0, ?_⟩
    dsimp only
    rw [if_pos rfl]
    split <;> rfl

/-- The PDU that MAC gets has the header fields of the entry. -/
theorem sendPduToMac_snd (cfg : AmConfig) (tx : AmTx) (pdu : AmdPdu) :
    ∃ p, (sendPduToMac cfg tx pdu).2 = { pdu with p := p } := by
  unfold sendPduToMac
  cases isPollIncluded cfg tx pdu with
  | false => exact ⟨pdu.p, rfl⟩
  | true => exact ⟨true, rfl⟩

/-- **A retransmission.** -/
theorem sendRetransmission_eq (cfg : AmConfig) (ch : LogicalChannel) (tx : AmTx) (buffer : List BufferData)
    (b : BufferData) : ∃ pdus bytes poll,
    (poll = isPollIncluded cfg (sendRetransmission cfg ch tx buffer b).2.entity
      (sendRetransmission cfg ch tx buffer b).2.pdu) ∧
    (sendRetransmission cfg ch tx buffer b).1 =
      { tx with
        txHighestSn := max tx.txHighestSn b.sn
        pduWithoutPoll := pdus
        byteWithoutPoll := bytes
        pollSn := if poll then max tx.txHighestSn b.sn else tx.pollSn
        isPollRetransmitTimerStarted := poll || tx.isPollRetransmitTimerStarted
        transmittedBuffer := tx.transmittedBuffer ++ [b]
        retransmissionBuffer := buffer
        bufferStatus := tx.bufferStatus.subOrZero ch b.size } := by
  obtain ⟨pdus, bytes, h⟩ := sendPduToMac_eq cfg
    { tx with bufferStatus := tx.bufferStatus.subOrZero ch b.size } (amdPdu b)
  refine ⟨pdus, bytes, _, rfl, ?_⟩
  unfold sendRetransmission
  dsimp only
  rw [h]
  rfl

/-- **A first transmission.** -/
theorem sendTransmission_eq (H : HdrLib) (cfg : AmConfig) (ch : LogicalChannel) (tx : AmTx)
    (buffer : List BufferData) (ret : BufferData) : ∃ pdus bytes poll,
    (poll = isPollIncluded cfg (sendTransmission H cfg ch tx buffer ret).2.entity
      (sendTransmission H cfg ch tx buffer ret).2.pdu) ∧
    (sendTransmission H cfg ch tx buffer ret).1 =
      { tx with
        txHighestSn := max tx.txHighestSn ret.sn
        pduWithoutPoll := pdus
        byteWithoutPoll := bytes
        pollSn := if poll then max tx.txHighestSn ret.sn else tx.pollSn
        isPollRetransmitTimerStarted := poll || tx.isPollRetransmitTimerStarted
        transmissionBuffer := buffer
        transmittedBuffer := tx.transmittedBuffer ++ [amHdrAdd H ret]
        bufferStatus := tx.bufferStatus.sub ch ret.payload } := by
  obtain ⟨pdus, bytes, h⟩ := sendPduToMac_eq cfg
    { tx with transmissionBuffer := buffer, bufferStatus := tx.bufferStatus.sub ch ret.payload }
    (amdPdu (amHdrAdd H ret))
  refine ⟨pdus, bytes, _, rfl, ?_⟩
  unfold sendTransmission
  dsimp only
  rw [h]
  rfl

/-- **Taking an entry whole.** -/
theorem fragmentPacket_whole {b ret : BufferData} {size : ℕ} (h : fragmentPacket b size = .whole ret) :
    ret = { b with si := if b.isFragmented then .last else .all } := by
  unfold fragmentPacket at h
  dsimp only at h
  split at h
  · exact absurd h (by simp)
  · split at h
    · exact absurd h (by simp)
    · simp only [Fragment.whole.injEq] at h
      exact h.symm

/-- **Cutting a segment** of `n` bytes off an entry. -/
theorem fragmentPacket_cut {b ret b' : BufferData} {size : ℕ} (h : fragmentPacket b size = .cut ret b') :
    ∃ n : ℕ, 0 < n ∧ n < b.payload ∧
      ret =
        { si := if b.isFragmented then .middle else .first
          sn := b.sn
          so := if b.isFragmented then b.so else 0
          retxCount := 0
          channel := b.channel
          packet := { b.packet with mac := ⟨n, b.packet.mac.overhead, n + b.packet.mac.overhead⟩ }
          isMarkedForRemoval := false
          isFragmented := true } ∧
      b' =
        { b with
          si := .last
          so := if b.isFragmented then u16 (b.so + 1) else 1
          isFragmented := true
          packet := { b.packet with
            mac := ⟨b.packet.mac.payload - n, b.packet.mac.overhead, b.packet.mac.packetSize - n⟩ } } := by
  unfold fragmentPacket at h
  dsimp only at h
  split at h
  · exact absurd h (by simp)
  · rename_i hsize
    split at h
    · rename_i hlt
      simp only [Fragment.cut.injEq] at h
      exact ⟨size - (b.packet.mac.overhead + amdHdrSizeWithSo), by omega, hlt, h.1.symm, h.2.symm⟩
    · exact absurd h (by simp)

/-- The entry left after a cut gives nothing for the bytes left of the grant. -/
theorem fragmentPacket_left {b ret b' : BufferData} {size : ℕ} (hs : size < 4294967296)
    (h : fragmentPacket b size = .cut ret b') : fragmentPacket b' (sub32 size ret.payload) = .none := by
  unfold fragmentPacket at h
  dsimp only at h
  split at h
  · exact absurd h (by simp)
  · rename_i hsize
    split at h
    · simp only [Fragment.cut.injEq] at h
      obtain ⟨rfl, rfl⟩ := h
      have hpay : (ofInt32 ((size - (b.packet.mac.overhead + amdHdrSizeWithSo) : ℕ) : ℤ)) =
          size - (b.packet.mac.overhead + amdHdrSizeWithSo) := by
        unfold ofInt32
        omega
      -- what is left of the grant is the overhead and the header of the next segment
      unfold fragmentPacket BufferData.payload
      dsimp only
      rw [if_pos]
      rw [hpay, sub32_of_le (by omega) hs]
      omega
    · exact absurd h (by simp)

/-! ## An entry in its place in a buffer -/

section split

variable {l pre post : List BufferData} {b b' c : BufferData}

theorem mem_split (h : l = pre ++ b :: post) : b ∈ l := by
  rw [h]
  exact List.mem_append_right _ (List.mem_cons_self ..)

/-- The other entries. -/
theorem mem_of_mem_others (h : l = pre ++ b :: post) (hc : c ∈ pre ++ post) : c ∈ l := by
  rw [h]
  exact ((List.sublist_cons_self b post).append_left pre).subset hc

/-- The entries where `b'` took the place of another. -/
theorem mem_replaced : c ∈ pre ++ b' :: post ↔ c = b' ∨ c ∈ pre ++ post := by
  rw [List.perm_middle.mem_iff, List.mem_cons]

end split

/-! ## A grant as a sequence of moves -/

/-- The moves of a grant on channel `ch`, with the calls they make. A cut ends the grant. -/
inductive Moves (H : HdrLib) (cfg : AmConfig) (ch : LogicalChannel) : AmTx → List MacCall → AmTx → Prop
  | done (tx : AmTx) : Moves H cfg ch tx [] tx
  | retransmission {tx tx' : AmTx} {pre post : List BufferData} {b : BufferData} {calls : List MacCall}
      (hb : tx.retransmissionBuffer = pre ++ b :: post) (hch : b.channel = ch)
      (hw : tx.isSnInTransmittingWindow b.sn = true)
      (next : Moves H cfg ch (sendRetransmission cfg ch tx (pre ++ post) b).1 calls tx') :
      Moves H cfg ch tx ((sendRetransmission cfg ch tx (pre ++ post) b).2 :: calls) tx'
  | whole {tx tx' : AmTx} {pre post : List BufferData} {b ret : BufferData} {left : ℕ}
      {calls : List MacCall}
      (hb : tx.transmissionBuffer = pre ++ b :: post) (hch : b.channel = ch)
      (hw : tx.isSnInTransmittingWindow b.sn = true) (hf : fragmentPacket b left = .whole ret)
      (next : Moves H cfg ch (sendTransmission H cfg ch tx (pre ++ post) ret).1 calls tx') :
      Moves H cfg ch tx ((sendTransmission H cfg ch tx (pre ++ post) ret).2 :: calls) tx'
  | cut {tx : AmTx} {pre post : List BufferData} {b ret b' : BufferData} {left : ℕ}
      (hb : tx.transmissionBuffer = pre ++ b :: post) (hch : b.channel = ch)
      (hw : tx.isSnInTransmittingWindow b.sn = true) (hf : fragmentPacket b left = .cut ret b') :
      Moves H cfg ch tx [(sendTransmission H cfg ch tx (pre ++ b' :: post) ret).2]
        (sendTransmission H cfg ch tx (pre ++ b' :: post) ret).1

variable {H : HdrLib} {cfg : AmConfig} {ch : LogicalChannel}

/-- **The rule for a grant**: `I` is kept by every move but the cut, after which `J` holds. -/
theorem Moves.inv {I J : AmTx → List MacCall → Prop} (hdone : ∀ tx cs, I tx cs → J tx cs)
    (hretx : ∀ tx cs pre b post, tx.retransmissionBuffer = pre ++ b :: post → b.channel = ch →
      tx.isSnInTransmittingWindow b.sn = true → I tx cs →
      I (sendRetransmission cfg ch tx (pre ++ post) b).1
        (cs ++ [(sendRetransmission cfg ch tx (pre ++ post) b).2]))
    (hwhole : ∀ tx cs pre b post left ret, tx.transmissionBuffer = pre ++ b :: post → b.channel = ch →
      tx.isSnInTransmittingWindow b.sn = true → fragmentPacket b left = .whole ret → I tx cs →
      I (sendTransmission H cfg ch tx (pre ++ post) ret).1
        (cs ++ [(sendTransmission H cfg ch tx (pre ++ post) ret).2]))
    (hcut : ∀ tx cs pre b post left ret b', tx.transmissionBuffer = pre ++ b :: post → b.channel = ch →
      tx.isSnInTransmittingWindow b.sn = true → fragmentPacket b left = .cut ret b' → I tx cs →
      J (sendTransmission H cfg ch tx (pre ++ b' :: post) ret).1
        (cs ++ [(sendTransmission H cfg ch tx (pre ++ b' :: post) ret).2]))
    {tx tx' : AmTx} {calls : List MacCall} (h : Moves H cfg ch tx calls tx') :
    ∀ cs, I tx cs → J tx' (cs ++ calls) := by
  have hassoc : ∀ (cs ds : List MacCall) (c : MacCall), cs ++ c :: ds = cs ++ [c] ++ ds := by simp
  -- `cs` are the calls made before, which grow with every move
  induction h with
  | done tx =>
    intro cs hi
    rw [List.append_nil]
    exact hdone tx cs hi
  | retransmission hb hch hw _ ih =>
    intro cs hi
    rw [hassoc]
    exact ih _ (hretx _ _ _ _ _ hb hch hw hi)
  | whole hb hch hw hf _ ih =>
    intro cs hi
    rw [hassoc]
    exact ih _ (hwhole _ _ _ _ _ _ _ hb hch hw hf hi)
  | cut hb hch hw hf =>
    intro cs hi
    exact hcut _ _ _ _ _ _ _ _ hb hch hw hf hi

/-- The retransmissions come before the moves of the rest of the grant. -/
theorem retransmissionLoop_moves (l kept : List BufferData) (tx : AmTx) (left : ℕ)
    (hb : tx.retransmissionBuffer = kept ++ l) {calls : List MacCall} {tx' : AmTx}
    (h : Moves H cfg ch (retransmissionLoop cfg ch kept l tx left).tx calls tx') :
    Moves H cfg ch tx ((retransmissionLoop cfg ch kept l tx left).calls ++ calls) tx' := by
  induction l generalizing kept tx left with
  | nil => exact h
  | cons b rest ih =>
    -- an entry that is passed over joins those kept
    have hskip : tx.retransmissionBuffer = kept ++ [b] ++ rest := by simpa using hb
    unfold retransmissionLoop at h ⊢
    split at h
    · rename_i hch
      rw [if_pos hch]
      exact ih _ _ _ hskip h
    · rename_i hch
      rw [if_neg hch]
      split at h
      · rename_i hleft
        rw [if_pos hleft]
        exact h
      · rename_i hleft
        rw [if_neg hleft]
        split at h
        · rename_i hw
          rw [if_pos hw]
          exact ih _ _ _ hskip h
        · rename_i hw
          rw [if_neg hw]
          split at h
          · rename_i hsize
            rw [if_pos hsize]
            exact ih _ _ _ hskip h
          · rename_i hsize
            rw [if_neg hsize]
            have hw' : tx.isSnInTransmittingWindow b.sn = true := by simpa using hw
            have hb' : (sendRetransmission cfg ch tx (kept ++ rest) b).1.retransmissionBuffer = kept ++ rest := by
              obtain ⟨_, _, _, -, heq⟩ := sendRetransmission_eq cfg ch tx (kept ++ rest) b
              rw [heq]
            exact .retransmission hb (not_not.1 hch) hw' (ih _ _ _ hb' h)

theorem transmissionLoop_moves (l kept : List BufferData) (tx : AmTx) (left : ℕ)
    (hb : tx.transmissionBuffer = kept ++ l) :
    Moves H cfg ch tx (transmissionLoop H cfg ch kept l tx left).calls
      (transmissionLoop H cfg ch kept l tx left).tx := by
  induction l generalizing kept tx left with
  | nil => exact .done tx
  | cons b rest ih =>
    have hskip : tx.transmissionBuffer = kept ++ [b] ++ rest := by simpa using hb
    unfold transmissionLoop
    split
    · exact ih _ _ _ hskip
    · rename_i hch
      split
      · exact .done tx
      · split
        · exact ih _ _ _ hskip
        · rename_i hw
          have hw' : tx.isSnInTransmittingWindow b.sn = true := by simpa using hw
          split
          · exact .done tx
          · rename_i ret hf
            have hb' : (sendTransmission H cfg ch tx (kept ++ rest) ret).1.transmissionBuffer = kept ++ rest := by
              obtain ⟨_, _, _, -, heq⟩ := sendTransmission_eq H cfg ch tx (kept ++ rest) ret
              rw [heq]
            exact .whole hb (not_not.1 hch) hw' hf (ih _ _ _ hb')
          · rename_i ret b' hf
            exact .cut hb (not_not.1 hch) hw' hf

/-- **A grant is a sequence of moves.** -/
theorem sendPdu_moves (H : HdrLib) (cfg : AmConfig) (tx : AmTx) (size : ℕ) (ch : LogicalChannel) :
    Moves H cfg ch tx (tx.sendPdu H cfg size ch).2 (tx.sendPdu H cfg size ch).1 :=
  retransmissionLoop_moves _ [] tx size rfl (transmissionLoop_moves _ [] _ _ rfl)

/-! ## STATUS PDUs -/

theorem findAndRemoveAllBySN_perm (l : List BufferData) (sn : ℕ) :
    ((findAndRemoveAllBySN l sn).1 ++ (findAndRemoveAllBySN l sn).2).Perm l := by
  unfold findAndRemoveAllBySN
  rw [List.partition_eq_filter_filter]
  exact List.filter_append_perm _ l

theorem findAndRemoveBySNSO_perm (l : List BufferData) (sn so : ℕ) :
    ((findAndRemoveBySNSO l sn so).1 ++ (findAndRemoveBySNSO l sn so).2).Perm l := by
  unfold findAndRemoveBySNSO
  induction l with
  | nil => exact .refl _
  | cons b bs ih =>
    by_cases h : b.sn = sn ∧ b.so = so
    · rw [List.find?_cons_of_pos (by simpa using h), List.eraseP_cons_of_pos (by simpa using h)]
      exact .refl _
    · rw [List.find?_cons_of_neg (by simpa using h), List.eraseP_cons_of_neg (by simpa using h)]
      exact List.perm_middle.trans (ih.cons b)

theorem findAndRemoveAll_perm {find : List BufferData → ℕ → List BufferData × List BufferData}
    (hf : ∀ l k, ((find l k).1 ++ (find l k).2).Perm l) (ks : List ℕ) (l : List BufferData) :
    ((findAndRemoveAll find ks l).1 ++ (findAndRemoveAll find ks l).2).Perm l := by
  induction ks generalizing l with
  | nil => exact .refl _
  | cons k ks ih =>
    unfold findAndRemoveAll
    dsimp only
    rw [List.append_assoc]
    exact ((ih (find l k).2).append_left _).trans (hf l k)

theorem nackFind_perm {n : Nack} {l hit rest : List BufferData} (h : nackFind n l = some (hit, rest)) :
    (hit ++ rest).Perm l := by
  unfold nackFind at h
  dsimp only at h
  split at h
  · split at h
    · exact absurd h (by simp)
    · have hperm := findAndRemoveAll_perm findAndRemoveAllBySN_perm
        (List.range' n.nackSn (u32 (n.nackSn + n.nackRange) + 1 - n.nackSn)) l
      rw [Option.some.inj h] at hperm
      exact hperm
  · split at h
    · split at h
      · exact absurd h (by simp)
      · have hperm := findAndRemoveAll_perm (fun l so => findAndRemoveBySNSO_perm l n.nackSn so)
          (List.range' n.soStart (n.soEnd + 1 - n.soStart)) l
        rw [Option.some.inj h] at hperm
        exact hperm
    · have hperm := findAndRemoveAllBySN_perm l n.nackSn
      rw [Option.some.inj h] at hperm
      exact hperm

/-- The NACKs split the transmitted buffer. -/
theorem nackFindAll_perm {ns : List Nack} {l hit rest : List BufferData}
    (h : nackFindAll ns l = some (hit, rest)) : (hit ++ rest).Perm l := by
  induction ns generalizing l hit rest with
  | nil =>
    simp only [nackFindAll, Option.some.injEq, Prod.mk.injEq] at h
    obtain ⟨rfl, rfl⟩ := h
    exact .refl _
  | cons n ns ih =>
    obtain ⟨⟨hit₁, rest₁⟩, h₁, h⟩ := Option.bind_eq_some_iff.1 h
    obtain ⟨⟨hit₂, rest₂⟩, h₂, h⟩ := Option.bind_eq_some_iff.1 h
    simp only [Option.pure_def, Option.some.injEq, Prod.mk.injEq] at h
    obtain ⟨rfl, rfl⟩ := h
    rw [List.append_assoc]
    exact ((ih h₂).append_left _).trans (nackFind_perm h₁)

/-- What the NACKs put into the retransmission buffer. -/
def nackMoved (cfg : AmConfig) (hit : List BufferData) : List BufferData :=
  hit.filter fun b => b.retxCount ≠ cfg.maxRetxThreshold

theorem foldl_movePacket (cfg : AmConfig) (hit : List BufferData) (tx : AmTx) :
    hit.foldl (movePacketFromTransmittedBuffer cfg) tx =
      { tx with
        retransmissionBuffer := tx.retransmissionBuffer ++ (nackMoved cfg hit).map countRetx
        bufferStatus := (nackMoved cfg hit).foldl (fun s b => s.add b.channel b.payload) tx.bufferStatus } := by
  induction hit generalizing tx with
  | nil => simp [nackMoved]
  | cons b bs ih =>
    rw [List.foldl_cons, ih]
    unfold movePacketFromTransmittedBuffer
    by_cases h : b.retxCount = cfg.maxRetxThreshold
    · simp [nackMoved, h]
    · simp [nackMoved, h]

/-- Where the transmission window starts after a STATUS PDU: the SN at the head of the
transmission buffer, or `TX_Next`. -/
def headSn (tx : AmTx) : ℕ :=
  match tx.transmissionBuffer with
  | b :: _ => b.sn
  | [] => tx.txNext

/-- **A STATUS PDU.** The NACKed entries leave the transmitted buffer, for the retransmission
buffer unless they are at the limit; of the others those below `Ack_SN` are cleared. -/
theorem receiveStatusPdu_cases {tx tx' : AmTx} {pdu : StatusPdu}
    (h : tx.receiveStatusPdu cfg pdu = some tx') : ∃ hit rest,
    nackFindAll pdu.nacks tx.transmittedBuffer = some (hit, rest) ∧
      tx' = { tx with
        txNextAck := tx.headSn
        isPollRetransmitTimerStarted :=
          if tx.pollSn < pdu.ackSn then false else tx.isPollRetransmitTimerStarted
        transmittedBuffer := rest.filter fun b => ¬ b.sn < pdu.ackSn
        retransmissionBuffer := tx.retransmissionBuffer ++ (nackMoved cfg hit).map countRetx
        bufferStatus := (nackMoved cfg hit).foldl (fun s b => s.add b.channel b.payload) tx.bufferStatus } := by
  unfold receiveStatusPdu at h
  -- a restart leaves a running timer running
  have hrestart : (if statusPduFindSn pdu tx.pollSn && tx.isPollRetransmitTimerStarted then
      tx.stopPollRetransmitTimer.startPollRetransmitTimer else tx) = tx := by
    split
    · rename_i hc
      have hstarted : tx.isPollRetransmitTimerStarted = true := by
        simp only [Bool.and_eq_true] at hc
        exact hc.2
      unfold stopPollRetransmitTimer startPollRetransmitTimer
      rw [← hstarted]
    · rfl
  rw [hrestart] at h
  obtain ⟨⟨hit, rest⟩, hr, h⟩ := Option.bind_eq_some_iff.1 h
  refine ⟨hit, rest, hr, ?_⟩
  rw [foldl_movePacket] at h
  simp only [Option.pure_def, Option.some.injEq] at h
  rw [← h]
  split
  · rfl
  · rfl

end NetSim.Rlc.AmTx
