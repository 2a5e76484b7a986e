import NetSim.Lib.Machine
import NetSim.Spec.IfBuffer
import Mathlib.Algebra.BigOperators.Group.List.Basic
import Mathlib.Algebra.Ring.Nat

/-!
# The occupancy of an interface buffer

The counter of the buffer is the size of the packets that wait, for every queuing technique and scheduler,
as long as the chains that are added are counted as what is kept of them, and EDF drops no packet whose
deadline has passed: that is done without the counter.

* `schedulerAdd_bytes`, `schedulerGet_bytes`: what the schedulers put into the queues and take out.
* `occupancy_exact`: the counter in every such run, and the admission by drop tail.
-/

namespace NetSim.Scheduling

/-- The size of some packets. -/
def bytes (l : List BufPacket) : ℕ := (l.map BufPacket.size).sum

/-- The packets in the lists of round robin and WFQ. -/
def PrioLists.packets (lists : PrioLists) : List BufPacket :=
  (lists.entry .low).packets ++ (lists.entry .normal).packets ++ (lists.entry .medium).packets ++
    (lists.entry .high).packets

variable {l l' rest : List BufPacket} {p : BufPacket} {lists : PrioLists}

@[simp]
theorem bytes_nil : bytes [] = 0 := rfl

@[simp]
theorem bytes_cons : bytes (p :: l) = p.size + bytes l := List.sum_cons ..

@[simp]
theorem bytes_append : bytes (l ++ l') = bytes l + bytes l' := by
  unfold bytes
  rw [List.map_append, List.sum_append]

theorem bytes_filter (f : BufPacket → Bool) (l : List BufPacket) :
    bytes (l.filter f) + bytes (l.filter fun p => !f p) = bytes l := by
  induction l with
  | nil => rfl
  | cons p l ih =>
    cases h : f p with
    | true =>
      rw [List.filter_cons_of_pos h, List.filter_cons_of_neg (by rw [h]; decide)]
      simp only [bytes_cons]
      omega
    | false =>
      rw [List.filter_cons_of_neg (by rw [h]; decide), List.filter_cons_of_pos (by rw [h]; decide)]
      simp only [bytes_cons]
      omega

theorem bytes_eraseIdx {i : ℕ} (h : l[i]? = some p) : bytes l = bytes (l.eraseIdx i) + p.size := by
  induction l generalizing i with
  | nil => cases h
  | cons q l ih =>
    cases i with
    | zero =>
      obtain rfl := Option.some.inj h
      rw [List.eraseIdx_cons_zero, bytes_cons, Nat.add_comm]
    | succ i =>
      have hi := ih h
      rw [List.eraseIdx_cons_succ, bytes_cons, bytes_cons]
      omega

namespace IfBuffer

variable {b b' : IfBuffer} {now random : ℚ} {nFlag : Bool} {pow : ℚ → ℚ → ℚ}

/-- The packets that wait. -/
def queued (b : IfBuffer) : List BufPacket :=
  b.packetList ++ (b.prioLists.map PrioLists.packets).getD []

/-- The size of the packets that wait. -/
def queuedBytes (b : IfBuffer) : ℕ := bytes b.queued

/-- The bytes that the buffer has room for. -/
def capacity (b : IfBuffer) : ℚ := b.withMax.dMaxBufferSize * 1024 * 1024

/-- What is kept of a chain: in front of a packet of lower priority the priority scheduler keeps the first
packet. -/
def kept (p : BufPacket) (rest : List BufPacket) (b : IfBuffer) : List BufPacket :=
  if b.nSchedulingType = .priority ∧ ∃ q ∈ b.packetList, q.priority < p.priority then [p] else p :: rest

/-! ## The schedulers -/

theorem queuedBytes_eq (b : IfBuffer) :
    b.queuedBytes = bytes b.packetList + bytes ((b.prioLists.map PrioLists.packets).getD []) := bytes_append

theorem insertByPriority_bytes (p : BufPacket) (rest l : List BufPacket) :
    bytes (insertByPriority p rest l) =
      bytes l + bytes (if ∃ q ∈ l, q.priority < p.priority then [p] else p :: rest) := by
  induction l with
  | nil => simp [insertByPriority]
  | cons q l ih =>
    unfold insertByPriority
    by_cases h : q.priority < p.priority
    · have hex : ∃ x ∈ q :: l, x.priority < p.priority := ⟨q, List.mem_cons_self, h⟩
      rw [if_pos h, if_pos hex]
      simp only [bytes_cons, bytes_nil]
      omega
    · have hiff : (∃ x ∈ q :: l, x.priority < p.priority) ↔ ∃ x ∈ l, x.priority < p.priority := by
        simp [h]
      rw [if_neg h, bytes_cons, ih, bytes_cons]
      simp only [hiff]
      omega

theorem packets_update (level : Level) (list : PrioList) (lists : PrioLists) :
    bytes (PrioLists.packets { lists with entry := Function.update lists.entry level list }) +
        bytes (lists.entry level).packets =
      bytes lists.packets + bytes list.packets := by
  unfold PrioLists.packets
  cases level with
  | low => simp [Function.update]; omega
  | normal => simp [Function.update]; omega
  | medium => simp [Function.update]; omega
  | high => simp [Function.update]; omega

theorem appendToLevel_bytes (isCounted : Bool) (p : BufPacket) (rest : List BufPacket) (b : IfBuffer) :
    (b.appendToLevel isCounted p rest).queuedBytes = b.queuedBytes + bytes (p :: rest) := by
  rw [queuedBytes_eq, queuedBytes_eq]
  unfold appendToLevel
  dsimp only
  have hlists : bytes ((b.prioLists.map PrioLists.packets).getD []) = bytes (b.prioLists.getD .calloc).packets := by
    cases b.prioLists with
    | none => rfl
    | some lists => rfl
  rw [hlists, Option.map_some, Option.getD_some]
  have hupdate := packets_update (levelOf p) ⟨((b.prioLists.getD .calloc).entry (levelOf p)).packets ++ p :: rest,
    if isCounted then ((b.prioLists.getD .calloc).entry (levelOf p)).nPacketId + 1
    else ((b.prioLists.getD .calloc).entry (levelOf p)).nPacketId⟩ (b.prioLists.getD .calloc)
  rw [bytes_append] at hupdate
  omega

/-- **A scheduler queues what is kept of a chain.** -/
theorem schedulerAdd_bytes (p : BufPacket) (rest : List BufPacket) (b : IfBuffer) :
    (b.schedulerAdd p rest).queuedBytes = b.queuedBytes + bytes (b.kept p rest) := by
  have happend : queuedBytes { b with packetList := b.packetList ++ p :: rest } =
      b.queuedBytes + bytes (p :: rest) := by
    rw [queuedBytes_eq, queuedBytes_eq]
    dsimp only
    rw [bytes_append]
    omega
  unfold schedulerAdd kept
  cases htype : b.nSchedulingType with
  | priority =>
    simp only [true_and]
    rw [queuedBytes_eq, queuedBytes_eq]
    dsimp only
    rw [insertByPriority_bytes]
    omega
  | roundRobin => exact appendToLevel_bytes ..
  | wfq => exact appendToLevel_bytes ..
  | none => exact happend
  | fifo => exact happend
  | edf => exact happend
  | classBased => exact happend

/-- The size of what the scheduler drops because its deadline has passed. -/
def dropped (now : ℚ) (b : IfBuffer) : ℕ :=
  if b.nSchedulingType = .edf then bytes (b.packetList.filter (b.isExpired now)) else 0

/-- The size of a packet that is taken out. -/
def taken (nFlag : Bool) (r : Option BufPacket) : ℕ := if nFlag then (r.map BufPacket.size).getD 0 else 0

/-- A change of the queues by some bytes. -/
structure Less (b b' : IfBuffer) (amount : ℕ) : Prop where
  bytes : b.queuedBytes = b'.queuedBytes + amount
  current : b'.dCurrentBufferSize = b.dCurrentBufferSize
  max : b'.dMaxBufferSize = b.dMaxBufferSize

theorem less_getHead (nFlag : Bool) (b : IfBuffer) :
    Less b (b.getHead nFlag).1 (taken nFlag (b.getHead nFlag).2) := by
  unfold getHead taken
  cases hl : b.packetList with
  | nil => exact ⟨by simp, rfl, rfl⟩
  | cons p l =>
    cases nFlag with
    | false => exact ⟨by simp, rfl, rfl⟩
    | true =>
      refine ⟨?_, rfl, rfl⟩
      rw [queuedBytes_eq, queuedBytes_eq, hl]
      simp
      omega

theorem bytes_dropHead {isCounted : Bool} {level : Level} {l : List BufPacket}
    (h : (lists.entry level).packets = p :: l) :
    bytes lists.packets = bytes (PrioLists.dropHead isCounted level lists).packets + p.size := by
  have hupdate := packets_update level ⟨(lists.entry level).packets.tail,
    if isCounted then (lists.entry level).nPacketId - 1 else (lists.entry level).nPacketId⟩ lists
  rw [h, List.tail_cons, bytes_cons] at hupdate
  dsimp only at hupdate
  unfold PrioLists.dropHead
  dsimp only
  rw [h, List.tail_cons]
  omega

theorem bytes_roundRobinTry (nFlag : Bool) (start : Option Level) (n : ℕ) (lists : PrioLists) :
    bytes lists.packets = bytes (roundRobinTry nFlag start n lists).1.packets +
      taken nFlag (roundRobinTry nFlag start n lists).2 := by
  induction n generalizing lists with
  | zero =>
    unfold roundRobinTry taken
    simp
  | succ n ih =>
    unfold roundRobinTry
    dsimp only
    cases hq : (lists.entry (nextLevel lists.nPacketPriority)).packets with
    | nil => exact ih { lists with nPacketPriority := some (nextLevel lists.nPacketPriority) }
    | cons p l =>
      cases nFlag with
      | false => exact (Nat.add_zero _).symm
      | true =>
        have hq' : (PrioLists.entry { lists with nPacketPriority := some (nextLevel lists.nPacketPriority) }
          (nextLevel lists.nPacketPriority)).packets = p :: l := hq
        exact bytes_dropHead hq'

theorem less_withLists {lists' : PrioLists} {amount : ℕ} (h : b.prioLists = some lists)
    (hbytes : bytes lists.packets = bytes lists'.packets + amount) :
    Less b { b with prioLists := some lists' } amount := by
  refine ⟨?_, rfl, rfl⟩
  rw [queuedBytes_eq, queuedBytes_eq, h]
  simp only [Option.map_some, Option.getD_some]
  omega

theorem less_roundRobinGet (nFlag : Bool) (b : IfBuffer) :
    Less b (b.roundRobinGet nFlag).1 (taken nFlag (b.roundRobinGet nFlag).2) := by
  unfold roundRobinGet
  cases hl : b.prioLists with
  | none =>
    refine ⟨?_, rfl, rfl⟩
    unfold taken
    simp
  | some lists => exact less_withLists hl (bytes_roundRobinTry nFlag lists.nPacketPriority 4 lists)

theorem less_wfqGet (nFlag : Bool) (b : IfBuffer) :
    Less b (b.wfqGet nFlag).1 (taken nFlag (b.wfqGet nFlag).2) := by
  unfold wfqGet
  cases hl : b.prioLists with
  | none =>
    refine ⟨?_, rfl, rfl⟩
    unfold taken
    simp
  | some lists =>
    dsimp only
    cases hq : (lists.entry (wfqLevel lists)).packets with
    | nil =>
      refine ⟨?_, rfl, rfl⟩
      unfold taken
      simp
    | cons p l =>
      cases nFlag with
      | false => exact ⟨(Nat.add_zero _).symm, rfl, rfl⟩
      | true => exact less_withLists hl (bytes_dropHead hq)

theorem less_dropExpired (now : ℚ) (b : IfBuffer) :
    Less b (b.dropExpired now) (bytes (b.packetList.filter (b.isExpired now))) := by
  refine ⟨?_, rfl, rfl⟩
  have hfilter := bytes_filter (b.isExpired now) b.packetList
  rw [queuedBytes_eq, queuedBytes_eq]
  unfold dropExpired
  dsimp only
  omega

theorem less_edfGet (now : ℚ) (nFlag : Bool) (b : IfBuffer) :
    Less b (b.edfGet now nFlag).1 (taken nFlag (b.edfGet now nFlag).2 +
      bytes (b.packetList.filter (b.isExpired now))) := by
  have hdrop := less_dropExpired now b
  unfold edfGet
  dsimp only
  generalize b.dropExpired now = d at hdrop ⊢
  cases hfind : earliestFrom now d 0 none 18446744073709551616 d.packetList with
  | none =>
    refine ⟨?_, hdrop.current, hdrop.max⟩
    have hbytes := hdrop.bytes
    unfold taken
    simp
    omega
  | some i =>
    cases nFlag with
    | false =>
      refine ⟨?_, hdrop.current, hdrop.max⟩
      have hbytes := hdrop.bytes
      unfold taken
      simp
      omega
    | true =>
      refine ⟨?_, hdrop.current, hdrop.max⟩
      have hbytes := hdrop.bytes
      rw [hbytes, queuedBytes_eq, queuedBytes_eq]
      unfold taken
      dsimp only
      cases hi : d.packetList[i]? with
      | none =>
        have hlen := List.getElem?_eq_none_iff.1 hi
        rw [List.eraseIdx_of_length_le hlen]
        simp
      | some p =>
        rw [bytes_eraseIdx hi]
        simp
        omega

/-- **A scheduler takes out what it returns**, and EDF besides what it drops. -/
theorem schedulerGet_bytes (now : ℚ) (nFlag : Bool) (b : IfBuffer) :
    Less b (b.schedulerGet now nFlag).1 (taken nFlag (b.schedulerGet now nFlag).2 + b.dropped now) := by
  unfold schedulerGet dropped
  cases htype : b.nSchedulingType with
  | roundRobin => exact less_roundRobinGet nFlag b
  | wfq => exact less_wfqGet nFlag b
  | edf => exact less_edfGet now nFlag b
  | none => exact less_getHead nFlag b
  | fifo => exact less_getHead nFlag b
  | priority => exact less_getHead nFlag b
  | classBased => exact less_getHead nFlag b

/-! ## The counter -/

/-- The counter is the size of the packets that wait, and a limit is set when packets wait. -/
structure Occupied (b : IfBuffer) : Prop where
  exact : b.dCurrentBufferSize = b.queuedBytes
  small : b.dCurrentBufferSize < 2147483648
  limited : b.queuedBytes ≠ 0 → b.dMaxBufferSize ≠ 0

theorem castInt_natCast {n : ℕ} (h : n < 2147483648) : castInt n = n := by
  unfold castInt
  exact if_pos ⟨by omega, by omega⟩

theorem withMax_frame (b : IfBuffer) : b.withMax.queuedBytes = b.queuedBytes ∧
    b.withMax.dCurrentBufferSize = b.dCurrentBufferSize ∧ b.withMax.dMaxBufferSize ≠ 0 ∧
      b.withMax.nSchedulingType = b.nSchedulingType ∧ b.withMax.packetList = b.packetList := by
  unfold withMax
  split
  · exact ⟨rfl, rfl, OfNat.ofNat_ne_zero _, rfl, rfl⟩
  · rename_i h
    exact ⟨rfl, rfl, h, rfl, rfl⟩

theorem noteEmpty_frame (now : ℚ) (b : IfBuffer) : (b.noteEmpty now).queuedBytes = b.queuedBytes ∧
    (b.noteEmpty now).dCurrentBufferSize = b.dCurrentBufferSize ∧
      (b.noteEmpty now).dMaxBufferSize = b.dMaxBufferSize := by
  unfold noteEmpty
  split
  · split
    · exact ⟨rfl, rfl, rfl⟩
    · exact ⟨rfl, rfl, rfl⟩
  · split
    · exact ⟨rfl, rfl, rfl⟩
    · exact ⟨rfl, rfl, rfl⟩
  · exact ⟨rfl, rfl, rfl⟩
  · exact ⟨rfl, rfl, rfl⟩

theorem schedulerAdd_frame (p : BufPacket) (rest : List BufPacket) (b : IfBuffer) :
    (b.schedulerAdd p rest).dCurrentBufferSize = b.dCurrentBufferSize ∧
      (b.schedulerAdd p rest).dMaxBufferSize = b.dMaxBufferSize := by
  unfold schedulerAdd appendToLevel
  split
  · exact ⟨rfl, rfl⟩
  · exact ⟨rfl, rfl⟩
  · exact ⟨rfl, rfl⟩
  · exact ⟨rfl, rfl⟩
  · exact ⟨rfl, rfl⟩
  · exact ⟨rfl, rfl⟩
  · exact ⟨rfl, rfl⟩

/-- The chain fits by the test of `fn_NetSim_CheckBuffer`. -/
def IsRoomFor (p : BufPacket) (rest : List BufPacket) (b : IfBuffer) : Prop :=
  ((b.dCurrentBufferSize + chainSize p rest : ℤ) : ℚ) ≤ b.capacity

/-- If a chain fits, the counter does not overflow, what is counted is what is kept, and RED and WRED see one
packet (or no bytes) only. -/
def AddOk (p : BufPacket) (rest : List BufPacket) (b : IfBuffer) : Prop :=
  b.IsRoomFor p rest → b.dCurrentBufferSize + chainSize p rest < 2147483648 ∧
    bytes (b.kept p rest) = chainSize p rest ∧
      (b.queuingTechnique = .red ∨ b.queuingTechnique = .wred → rest.length * p.size = 0)

theorem checkBuffer_pos (h : b.IsRoomFor p rest) : b.checkBuffer p rest =
    ({ b.withMax with dCurrentBufferSize := castInt (b.dCurrentBufferSize + chainSize p rest) }, true) := by
  unfold checkBuffer
  dsimp only
  rw [(withMax_frame b).2.1]
  exact if_pos h

theorem checkBuffer_neg (h : ¬ b.IsRoomFor p rest) : b.checkBuffer p rest = (b.withMax, false) := by
  unfold checkBuffer
  dsimp only
  rw [(withMax_frame b).2.1]
  exact if_neg h

/-- The counter after the queuing technique, and the queues as they were. -/
structure Queued (p : BufPacket) (rest : List BufPacket) (b b' : IfBuffer) (isAdmitted : Bool) : Prop where
  bytes : b'.queuedBytes = b.queuedBytes
  kept : b'.kept p rest = b.kept p rest
  max : b'.dMaxBufferSize ≠ 0
  current : b'.dCurrentBufferSize = if isAdmitted then b.dCurrentBufferSize + chainSize p rest else b.dCurrentBufferSize

theorem Queued.of_withMax {v : QueuingVar} {current : ℤ} {isAdmitted : Bool}
    (h : current = if isAdmitted then b.dCurrentBufferSize + chainSize p rest else b.dCurrentBufferSize) :
    Queued p rest b { b.withMax with dCurrentBufferSize := current, queuingParam := v } isAdmitted := by
  obtain ⟨hbytes, -, hmax, htype, hlist⟩ := withMax_frame b
  refine ⟨hbytes, ?_, hmax, h⟩
  unfold IfBuffer.kept
  dsimp only
  rw [htype, hlist]

theorem queued_checkBuffer (hb : b.Occupied) (hok : b.AddOk p rest) :
    Queued p rest b (b.checkBuffer p rest).1 (b.checkBuffer p rest).2 := by
  by_cases hroom : b.IsRoomFor p rest
  · have hexact := hb.exact
    have hsmall := (hok hroom).1
    have hcast : castInt (b.dCurrentBufferSize + chainSize p rest) = b.dCurrentBufferSize + chainSize p rest := by
      rw [hexact, ← Nat.cast_add]
      exact castInt_natCast (by omega)
    rw [checkBuffer_pos hroom, hcast]
    exact Queued.of_withMax (v := b.withMax.queuingParam) rfl
  · rw [checkBuffer_neg hroom]
    obtain ⟨hbytes, hcurrent, hmax, htype, hlist⟩ := withMax_frame b
    refine ⟨hbytes, ?_, hmax, hcurrent⟩
    unfold IfBuffer.kept
    rw [htype, hlist]

theorem queued_randomEarly {algorithm : QueuingVar → QueuingVar × Bool} (hb : b.Occupied) (hok : b.AddOk p rest)
    (hred : b.queuingTechnique = .red ∨ b.queuingTechnique = .wred) {r : IfBuffer × Bool}
    (hrun : b.randomEarly algorithm pow now p rest = some r) : Queued p rest b r.1 r.2 := by
  unfold randomEarly at hrun
  by_cases hroom : b.IsRoomFor p rest
  · obtain ⟨hsmall, -, hone⟩ := hok hroom
    have hexact := hb.exact
    -- RED takes the size of the first packet off again: with one packet, that is what was added
    have hchain : chainSize p rest = p.size := by
      have hzero := hone hred
      unfold chainSize
      rw [Nat.add_mul, hzero]
      omega
    have hcast : castInt (b.dCurrentBufferSize + chainSize p rest) = b.dCurrentBufferSize + chainSize p rest := by
      rw [hexact, ← Nat.cast_add]
      exact castInt_natCast (by omega)
    have hsize : castInt p.size = p.size := castInt_natCast (by omega)
    rw [checkBuffer_pos hroom, hcast] at hrun
    unfold reduceCurrentSize at hrun
    dsimp only at hrun
    rw [hsize, hchain, add_sub_cancel_right, if_neg (by omega)] at hrun
    cases halg : (algorithm (averageQueueSize pow now b.dCurrentBufferSize b.withMax.queuingParam)).2 with
    | false =>
      simp only [Option.bind_eq_bind, Option.bind_some, halg] at hrun
      obtain rfl := Option.some.inj hrun
      exact Queued.of_withMax rfl
    | true =>
      simp only [Option.bind_eq_bind, Option.bind_some, halg] at hrun
      obtain rfl := Option.some.inj hrun
      unfold addCurrentSize
      dsimp only
      rw [hcast]
      exact Queued.of_withMax rfl
  · rw [checkBuffer_neg hroom] at hrun
    obtain rfl := Option.some.inj hrun
    obtain ⟨hbytes, hcurrent, hmax, htype, hlist⟩ := withMax_frame b
    refine ⟨hbytes, ?_, hmax, hcurrent⟩
    unfold IfBuffer.kept
    rw [htype, hlist]

/-! ## Runs -/

/-- The calls on a buffer. -/
inductive BufferEvent
  | add (now random : ℚ) (p : BufPacket) (rest : List BufPacket)
  | get (now : ℚ) (nFlag : Bool)

def step (pow : ℚ → ℚ → ℚ) (b : IfBuffer) : BufferEvent → Option IfBuffer
  | .add now random p rest => (b.addPacketToBuffer pow now random p rest).map Prod.fst
  | .get now nFlag => (b.getPacketFromBuffer now nFlag).map Prod.fst

/-- An empty buffer, with any settings. -/
def Empty (b : IfBuffer) : Prop := b.packetList = [] ∧ b.prioLists = none ∧ b.dCurrentBufferSize = 0

def machine (pow : ℚ → ℚ → ℚ) : Machine IfBuffer BufferEvent := ⟨Empty, step pow⟩

/-- The chain is counted as what is kept of it, and EDF drops no bytes. -/
def StepOk (b : IfBuffer) : BufferEvent → Prop
  | .add _ _ p rest => b.AddOk p rest
  | .get now _ => b.dropped now = 0

theorem queued_queuing (hb : b.Occupied) (hok : b.AddOk p rest) {r : IfBuffer × Bool}
    (hrun : b.queuing pow now random p rest = some r) : Queued p rest b r.1 r.2 := by
  unfold queuing at hrun
  cases htech : b.queuingTechnique with
  | red =>
    rw [htech] at hrun
    exact queued_randomEarly hb hok (.inl htech) hrun
  | wred =>
    rw [htech] at hrun
    exact queued_randomEarly hb hok (.inr htech) hrun
  | null =>
    rw [htech] at hrun
    obtain rfl := Option.some.inj hrun
    exact queued_checkBuffer hb hok
  | dropTail =>
    rw [htech] at hrun
    obtain rfl := Option.some.inj hrun
    exact queued_checkBuffer hb hok

theorem Occupied.add (hb : b.Occupied) (hok : b.AddOk p rest) {r : IfBuffer × Bool}
    (hroom : r.2 = true → b.IsRoomFor p rest) (hq : Queued p rest b r.1 r.2) :
    Occupied (if r.2 then r.1.schedulerAdd p rest else r.1) := by
  have hexact := hb.exact
  have hbytes := hq.bytes
  have hcurrent := hq.current
  cases hadm : r.2 with
  | true =>
    obtain ⟨hsmall, hkept, -⟩ := hok (hroom hadm)
    have hadd := schedulerAdd_bytes p rest r.1
    obtain ⟨hcur, hmax⟩ := schedulerAdd_frame p rest r.1
    rw [hq.kept, hkept, hbytes] at hadd
    rw [hadm, if_pos rfl] at hcurrent
    rw [if_pos rfl]
    refine ⟨?_, ?_, fun _ => ?_⟩
    · rw [hcur, hcurrent, hadd, hexact, Nat.cast_add]
    · rw [hcur, hcurrent]
      exact hsmall
    · rw [hmax]
      exact hq.max
  | false =>
    rw [hadm, if_neg Bool.false_ne_true] at hcurrent
    rw [if_neg Bool.false_ne_true]
    refine ⟨?_, ?_, fun _ => hq.max⟩
    · rw [hcurrent, hexact, hbytes]
    · rw [hcurrent]
      exact hb.small

/-- An admitted chain fits. -/
theorem isRoomFor_of_admitted {r : IfBuffer × Bool} (hrun : b.queuing pow now random p rest = some r)
    (hadm : r.2 = true) : b.IsRoomFor p rest := by
  by_contra hroom
  have hfalse : r.2 = false := by
    unfold queuing at hrun
    split at hrun
    · unfold red randomEarly at hrun
      rw [checkBuffer_neg hroom] at hrun
      obtain rfl := Option.some.inj hrun
      rfl
    · unfold wred randomEarly at hrun
      rw [checkBuffer_neg hroom] at hrun
      obtain rfl := Option.some.inj hrun
      rfl
    · unfold dropTail at hrun
      rw [checkBuffer_neg hroom] at hrun
      obtain rfl := Option.some.inj hrun
      rfl
    · unfold dropTail at hrun
      rw [checkBuffer_neg hroom] at hrun
      obtain rfl := Option.some.inj hrun
      rfl
  rw [hadm] at hfalse
  cases hfalse

theorem dropped_of_empty (now : ℚ) (h : b.getBufferStatus = false) : b.dropped now = 0 := by
  unfold dropped
  split
  · rename_i htype
    unfold getBufferStatus at h
    rw [htype] at h
    have hnil : b.packetList = [] := by simpa using h
    rw [hnil]
    rfl
  · rfl

/-- What a retrieval leaves: the counter goes down by what is taken, the queues by what is taken and what
is dropped. -/
theorem get_spec (hb : b.Occupied) (hrun : (b.getPacketFromBuffer now nFlag).map Prod.fst = some b') :
    ∃ amount, b.queuedBytes = b'.queuedBytes + amount + b.dropped now ∧
      b'.dCurrentBufferSize = b.dCurrentBufferSize - amount ∧ b'.dMaxBufferSize = b.dMaxBufferSize := by
  have hexact := hb.exact
  have hsmall := hb.small
  unfold getPacketFromBuffer at hrun
  by_cases hstatus : b.getBufferStatus = true
  · rw [if_pos hstatus] at hrun
    have hless := schedulerGet_bytes now nFlag b
    cases hget : b.schedulerGet now nFlag with
    | mk d r =>
      rw [hget] at hrun hless
      obtain ⟨hbytes, hcurrent, hmax⟩ := hless
      cases r with
      | none =>
        obtain rfl := Option.some.inj hrun
        refine ⟨0, ?_, by rw [hcurrent]; simp, hmax⟩
        unfold taken at hbytes
        simp at hbytes
        omega
      | some p =>
        obtain ⟨hnbytes, hncurrent, hnmax⟩ := noteEmpty_frame now d
        dsimp only at hbytes hrun hcurrent hmax
        by_cases hflag : nFlag = true ∧ d.dMaxBufferSize ≠ 0
        · rw [if_pos hflag] at hrun
          unfold taken at hbytes
          rw [if_pos hflag.1, Option.map_some, Option.getD_some] at hbytes
          have hle : p.size < 2147483648 := by omega
          unfold reduceCurrentSize at hrun
          rw [castInt_natCast hle] at hrun
          dsimp only at hrun
          split at hrun
          · cases hrun
          · obtain rfl := Option.some.inj hrun
            obtain ⟨hnbytes', hncurrent', hnmax'⟩ :=
              noteEmpty_frame now { d with dCurrentBufferSize := d.dCurrentBufferSize - p.size }
            refine ⟨p.size, ?_, ?_, ?_⟩
            · rw [hnbytes', hbytes]
              exact (Nat.add_assoc _ _ _).symm
            · rw [hncurrent', ← hcurrent]
            · rw [hnmax', ← hmax]
        · rw [if_neg hflag] at hrun
          obtain rfl := Option.some.inj hrun
          refine ⟨taken nFlag (some p), ?_, ?_, by rw [hnmax, hmax]⟩
          · rw [hnbytes, hbytes]
            exact (Nat.add_assoc _ _ _).symm
          · -- without a limit there are no bytes in the buffer
            rw [hncurrent, hcurrent]
            cases nFlag with
            | false =>
              unfold taken
              simp
            | true =>
              have hzero : d.dMaxBufferSize = 0 := by
                by_contra hne
                exact hflag ⟨rfl, hne⟩
              have hnone : b.queuedBytes = 0 := by
                by_contra hne
                exact hb.limited hne (by rw [← hmax]; exact hzero)
              have htaken : taken true (some p) = 0 := by omega
              rw [htaken]
              simp
  · rw [if_neg hstatus] at hrun
    obtain rfl := Option.some.inj hrun
    refine ⟨0, ?_, by simp, rfl⟩
    have hdrop := dropped_of_empty now (Bool.not_eq_true _ ▸ hstatus)
    dsimp only
    omega

/-- **A retrieval or a peek keeps the counter exact exactly if nothing is dropped.** -/
theorem get_exact_iff (hb : b.Occupied) (hrun : (b.getPacketFromBuffer now nFlag).map Prod.fst = some b') :
    b'.dCurrentBufferSize = b'.queuedBytes ↔ b.dropped now = 0 := by
  obtain ⟨amount, hbytes, hcurrent, -⟩ := get_spec hb hrun
  have hexact := hb.exact
  rw [hcurrent, hexact, hbytes]
  push_cast
  omega

theorem Occupied.get (hb : b.Occupied) (hok : b.dropped now = 0)
    (hrun : (b.getPacketFromBuffer now nFlag).map Prod.fst = some b') : b'.Occupied := by
  obtain ⟨amount, hbytes, hcurrent, hmax⟩ := get_spec hb hrun
  have hsmall := hb.small
  refine ⟨(get_exact_iff hb hrun).2 hok, by omega, fun hne => ?_⟩
  rw [hmax]
  exact hb.limited (by omega)

theorem occupied_of_reachOn (h : (machine pow).ReachOn StepOk b) : b.Occupied := by
  refine h.inv (I := Occupied) ?_ ?_
  · rintro b ⟨hlist, hlists, hzero⟩
    have hnone : b.queuedBytes = 0 := by
      rw [queuedBytes_eq, hlist, hlists]
      rfl
    exact ⟨by rw [hzero, hnone]; rfl, by rw [hzero]; decide, fun hne => absurd hnone hne⟩
  · intro b e b' hb hok hstep
    cases e with
    | get now nFlag => exact hb.get hok hstep
    | add now random p rest =>
      obtain ⟨r, hr, rfl⟩ := Option.map_eq_some_iff.1 hstep
      obtain ⟨r', hr', rfl⟩ := Option.map_eq_some_iff.1 hr
      exact hb.add hok (isRoomFor_of_admitted hr') (queued_queuing hb hok hr')

theorem addPacketToBuffer_dropTail (htech : b.queuingTechnique = .null ∨ b.queuingTechnique = .dropTail) :
    b.addPacketToBuffer pow now random p rest = some (if (b.checkBuffer p rest).2 then
      (b.checkBuffer p rest).1.schedulerAdd p rest else (b.checkBuffer p rest).1, (b.checkBuffer p rest).2) := by
  unfold addPacketToBuffer queuing dropTail
  rcases htech with h | h
  · rw [h]
    rfl
  · rw [h]
    rfl

/-- **An addition by drop tail keeps the counter exact exactly if what is counted is what is kept.** -/
theorem add_exact_iff (hb : b.Occupied) (htech : b.queuingTechnique = .null ∨ b.queuingTechnique = .dropTail)
    (hrun : (b.addPacketToBuffer pow now random p rest).map Prod.fst = some b') :
    b'.dCurrentBufferSize = b'.queuedBytes ↔ b.AddOk p rest := by
  have hexact := hb.exact
  rw [addPacketToBuffer_dropTail htech] at hrun
  obtain rfl := Option.some.inj hrun
  obtain ⟨hbytes, hcurrent, hmax, htype, hlist⟩ := withMax_frame b
  by_cases hroom : b.IsRoomFor p rest
  · rw [checkBuffer_pos hroom]
    dsimp only
    rw [if_pos rfl, (schedulerAdd_frame _ _ _).1, schedulerAdd_bytes]
    have hkept : kept p rest { b.withMax with
        dCurrentBufferSize := castInt (b.dCurrentBufferSize + chainSize p rest) } = b.kept p rest := by
      unfold kept
      dsimp only
      rw [htype, hlist]
    have hsame : queuedBytes { b.withMax with
        dCurrentBufferSize := castInt (b.dCurrentBufferSize + chainSize p rest) } = b.queuedBytes := hbytes
    rw [hkept, hsame, hexact]
    have hplain : ¬ (b.queuingTechnique = .red ∨ b.queuingTechnique = .wred) := by
      rcases htech with h | h
      · rw [h]
        decide
      · rw [h]
        decide
    constructor
    · intro hcast _
      unfold castInt at hcast
      dsimp only at hcast
      split at hcast
      · refine ⟨by omega, by omega, fun hred => absurd hred hplain⟩
      · omega
    · intro hok
      obtain ⟨hsmall, hcounted, -⟩ := hok hroom
      rw [← Nat.cast_add, castInt_natCast (by omega), hcounted]
  · rw [checkBuffer_neg hroom]
    dsimp only
    rw [if_neg Bool.false_ne_true, hcurrent, hbytes, hexact]
    exact iff_of_true rfl fun h => absurd h hroom

/-- **The occupancy of the buffer is exact**, never negative, and 0 for an empty buffer in every run whose
chains are counted as what is kept of them and in which EDF drops no bytes; and drop tail admits exactly
what fits. A retrieval that drops bytes, and an addition by drop tail of a chain that is counted as
something else, end that. -/
theorem occupancy_exact (pow : ℚ → ℚ → ℚ) (b : IfBuffer) :
    ((machine pow).ReachOn StepOk b → b.dCurrentBufferSize = b.queuedBytes ∧ 0 ≤ b.dCurrentBufferSize ∧
      (b.queued = [] → b.dCurrentBufferSize = 0)) ∧
    ((machine pow).ReachOn StepOk b → (b.queuingTechnique = .null ∨ b.queuingTechnique = .dropTail) →
      (∀ now random p rest, chainSize p rest = bytes (p :: rest) →
        (b.addPacketToBuffer pow now random p rest).map Prod.snd =
          some (decide (((b.queuedBytes + bytes (p :: rest) : ℕ) : ℚ) ≤ b.capacity))) ∧
      ∀ now random p rest b', step pow b (.add now random p rest) = some b' →
        (b'.dCurrentBufferSize = b'.queuedBytes ↔ StepOk b (.add now random p rest))) ∧
    ((machine pow).ReachOn StepOk b → ∀ now nFlag b', step pow b (.get now nFlag) = some b' →
      (b'.dCurrentBufferSize = b'.queuedBytes ↔ StepOk b (.get now nFlag))) := by
  refine ⟨fun hrun => ?_, fun hrun htech => ⟨fun now random p rest hsize => ?_, fun now random p rest b' hstep => ?_⟩,
    fun hrun now nFlag b' hstep => ?_⟩
  · have hexact := (occupied_of_reachOn hrun).exact
    refine ⟨hexact, by omega, fun hnil => ?_⟩
    have hzero : b.queuedBytes = 0 := by
      unfold queuedBytes
      rw [hnil]
      rfl
    rw [hexact, hzero]
    rfl
  · have hexact := (occupied_of_reachOn hrun).exact
    have hroom : b.IsRoomFor p rest ↔ ((b.queuedBytes + bytes (p :: rest) : ℕ) : ℚ) ≤ b.capacity := by
      unfold IsRoomFor
      rw [hexact, hsize, ← Nat.cast_add, Int.cast_natCast]
    rw [addPacketToBuffer_dropTail htech, Option.map_some]
    by_cases h : b.IsRoomFor p rest
    · rw [checkBuffer_pos h, decide_eq_true (hroom.1 h)]
    · rw [checkBuffer_neg h, decide_eq_false fun hle => h (hroom.2 hle)]
  · exact add_exact_iff (occupied_of_reachOn hrun) htech hstep
  · exact get_exact_iff (occupied_of_reachOn hrun) hstep

/-! ## Samples -/

instance (b : IfBuffer) (e : BufferEvent) : Decidable (StepOk b e) :=
  match e with
  | .add _ _ _ _ => inferInstanceAs (Decidable (_ ≤ _ → _ ∧ _ ∧ (_ → _)))
  | .get _ _ => inferInstanceAs (Decidable (_ = _))

/-- An empty buffer of 1 MB; the latency of EDF is 100 ms for each class. -/
def sampleBuffer (nSchedulingType : SchedulingType) : IfBuffer where
  nSchedulingType := nSchedulingType
  queuingTechnique := .dropTail
  dMaxBufferSize := 1
  dCurrentBufferSize := 0
  queuingParam := ⟨0, 0, 0, ⟨0, 0, 0, -1, 0⟩, fun _ => ⟨0, 0, 0, -1, 0⟩⟩
  maxLatency := fun _ => 100
  packetList := []
  prioLists := none

/-- A packet of some bytes of QoS class 1, that came at time 0. -/
def samplePacket (size : ℕ) (priority : Option Level) : BufPacket := ⟨some size, 0, priority, 1, 0⟩

/-- Round robin with a packet of low priority and a chain of two of high priority, one of which is taken. -/
theorem occupancy_exact_roundRobin :
    ∃ b, (machine fun _ _ => 1).ReachOn StepOk b ∧ b.queuedBytes = 150 ∧ b.dCurrentBufferSize = b.queuedBytes := by
  have hreach : ∃ b, (machine fun _ _ => 1).ReachOn StepOk b ∧ b.queuedBytes = 150 :=
    Machine.ReachOn.exists_of_execOn StepOk
      [.add 0 0 (samplePacket 50 (some .low)) [], .add 1 0 (samplePacket 100 (some .high)) [samplePacket 100 none],
        .get 2 false, .get 2 true]
      (.init (show Empty (sampleBuffer .roundRobin) from ⟨rfl, rfl, rfl⟩)) (by decide +kernel)
  obtain ⟨b, hb, hbytes⟩ := hreach
  exact ⟨b, hb, hbytes, ((occupancy_exact (fun _ _ => 1) b).1 hb).1⟩

/-- A packet that EDF drops stays in the counter; a chain of 100 and 50 bytes is counted as 200. -/
theorem occupancy_drifts :
    (¬ ∀ b, (machine fun _ _ => 1).Reach b → b.dCurrentBufferSize = b.queuedBytes) ∧
      ((machine fun _ _ => 1).exec (sampleBuffer .edf) [.add 0 0 (samplePacket 100 none) [], .get 200000 false]).map
        (fun b => (b.dCurrentBufferSize, b.queued)) = some (100, []) ∧
      ((machine fun _ _ => 1).exec (sampleBuffer .fifo) [.add 0 0 (samplePacket 100 none) [samplePacket 50 none]]).map
        (fun b => (b.dCurrentBufferSize, b.queuedBytes)) = some (200, 150) := by
  refine ⟨fun hall => ?_, by decide +kernel, by decide +kernel⟩
  have hreach : ∃ b, (machine fun _ _ => 1).Reach b ∧ b.dCurrentBufferSize = 100 ∧ b.queuedBytes = 0 :=
    Machine.Reach.exists_of_exec [.add 0 0 (samplePacket 100 none) [], .get 200000 false]
      (.init (show Empty (sampleBuffer .edf) from ⟨rfl, rfl, rfl⟩)) (by decide +kernel)
  obtain ⟨b, hb, hcurrent, hbytes⟩ := hreach
  have hexact := hall b hb
  rw [hcurrent, hbytes] at hexact
  cases hexact

end IfBuffer

end NetSim.Scheduling
