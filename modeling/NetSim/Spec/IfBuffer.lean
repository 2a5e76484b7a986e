import Mathlib.Algebra.Order.Ring.Rat
import Mathlib.Data.Int.Order.Basic
import Mathlib.Data.List.Basic
import Mathlib.Logic.Function.Basic
import Mathlib.Tactic.Common
import NetSim.Lib.Loop

/-!
# The buffer of an interface

`Scheduling.c`: the queuing techniques that admit a packet, and the schedulers that keep the packets. The
sizes of the packets are doubles that hold integers; they are natural numbers here, and the counter of
the buffer is an integer. A chain of packets is its first packet and the others. Where an assertion fails
there is no result. The logs and the counts of packets are left out.
-/

namespace NetSim.Scheduling

/-- `PACKET_PRIORITY`. -/
inductive Level
  | low
  | normal
  | medium
  | high
deriving DecidableEq, Repr

/-- The numbers of `PACKET_PRIORITY`. -/
def Level.number : Level → ℕ
  | .low => 2
  | .normal => 4
  | .medium => 6
  | .high => 8

/-- `SCHEDULING_TYPE`. -/
inductive SchedulingType
  | none
  | fifo
  | priority
  | roundRobin
  | wfq
  | edf
  | classBased
deriving DecidableEq, Repr

/-- `QUEUINGTECHNIQUE`. -/
inductive QueuingTechnique
  | null
  | dropTail
  | red
  | wred
deriving DecidableEq, Repr

/-- The fields of a packet that the buffer reads; no priority is 0. -/
structure BufPacket where
  /-- `pstruNetworkData->dPacketSize`, if there is network data. -/
  networkSize : Option ℕ
  /-- `pstruMacData->dPacketSize`. -/
  macSize : ℕ
  nPacketPriority : Option Level
  nQOS : ℕ
  dEventTime : ℚ
deriving DecidableEq, Repr

/-- `d_NN_DataSize` of one packet. -/
def BufPacket.size (p : BufPacket) : ℕ := p.networkSize.getD p.macSize

/-- The number of the priority. -/
def BufPacket.priority (p : BufPacket) : ℕ := (p.nPacketPriority.map Level.number).getD 0

/-- The thresholds of RED, or of a class of WRED. -/
structure RedClass where
  minTh : ℚ
  maxTh : ℚ
  maxP : ℚ
  count : ℤ
  randomValue : ℚ
deriving DecidableEq, Repr

/-- `QUEUING_RED_VAR` and `QUEUING_WRED_VAR`. -/
structure QueuingVar where
  avgQueueSize : ℚ
  wq : ℚ
  qTime : ℚ
  red : RedClass
  wred : Level → RedClass

/-- One of the lists of round robin and WFQ; WFQ counts in `nPacketId`. -/
structure PrioList where
  packets : List BufPacket
  nPacketId : ℤ
deriving DecidableEq, Repr

/-- The lists that round robin and WFQ allocate, with the priority in entry 0. -/
structure PrioLists where
  nPacketPriority : Option Level
  entry : Level → PrioList

/-- The lists after their allocation. -/
def PrioLists.calloc : PrioLists := ⟨.none, fun _ => ⟨[], 0⟩⟩

/-- `NetSim_BUFFER`. `pstruPacketlist` is a list of packets, or the lists by priority. -/
structure IfBuffer where
  nSchedulingType : SchedulingType
  queuingTechnique : QueuingTechnique
  /-- In units of 2^20 bytes. -/
  dMaxBufferSize : ℚ
  dCurrentBufferSize : ℤ
  queuingParam : QueuingVar
  /-- `max_latency` of EDF, by `nQOS - 1`. -/
  maxLatency : ℕ → ℚ
  packetList : List BufPacket
  prioLists : Option PrioLists

/-- `(double)((int)x)`. C leaves the conversion undefined out of the range of `int`; it gives the least
`int` then. -/
def castInt (x : ℤ) : ℤ := if -2147483648 ≤ x ∧ x < 2147483648 then x else -2147483648

namespace IfBuffer

/-! ## Queuing -/

/-- `d_NN_DataSize` of a chain in `fn_NetSim_CheckBuffer` and `add_current_size_buffer`: for each packet of
the chain the size of the first one is added. -/
def chainSize (p : BufPacket) (rest : List BufPacket) : ℕ := (rest.length + 1) * p.size

/-- The buffer with its size limit set. -/
def withMax (b : IfBuffer) : IfBuffer :=
  if b.dMaxBufferSize = 0 then { b with dMaxBufferSize := 18446744073709551616 } else b

/-- `fn_NetSim_CheckBuffer`, with whether the chain is admitted. -/
def checkBuffer (p : BufPacket) (rest : List BufPacket) (b : IfBuffer) : IfBuffer × Bool :=
  let b := b.withMax
  let current := b.dCurrentBufferSize + chainSize p rest
  if (current : ℚ) ≤ b.dMaxBufferSize * 1024 * 1024 then
    ({ b with dCurrentBufferSize := castInt current }, true)
  else (b, false)

/-- `add_current_size_buffer`. -/
def addCurrentSize (p : BufPacket) (rest : List BufPacket) (b : IfBuffer) : IfBuffer :=
  { b with dCurrentBufferSize := castInt (b.dCurrentBufferSize + chainSize p rest) }

/-- `reduce_current_size_buffer`. -/
def reduceCurrentSize (p : BufPacket) (b : IfBuffer) : Option IfBuffer :=
  let current := b.dCurrentBufferSize - castInt p.size
  if current < 0 then none else some { b with dCurrentBufferSize := current }

/-- The decision that `red_algorithm` and `wred_algorithm` make; `random` is the next random number. A
quotient by 0 is infinite, and no count exceeds it. -/
def redDecision (avgQueueSize random : ℚ) (c : RedClass) : RedClass × Bool :=
  if c.minTh ≤ avgQueueSize ∧ avgQueueSize < c.maxTh then
    let c := { c with count := c.count + 1 }
    let pb := c.maxP * (avgQueueSize - c.minTh) / (c.maxTh - c.minTh)
    if 0 < c.count ∧ pb ≠ 0 ∧ c.randomValue / pb < c.count then
      ({ c with count := 0, randomValue := random }, false)
    else (c, true)
  else if c.maxTh ≤ avgQueueSize then ({ c with count := -1 }, false)
  else ({ c with count := -1 }, true)

/-- `red_algorithm`. -/
def redAlgorithm (random : ℚ) (v : QueuingVar) : QueuingVar × Bool :=
  let (c, isAdmitted) := redDecision v.avgQueueSize random v.red
  ({ v with red := c }, isAdmitted)

/-- `wred_algorithm`, and the admission of control packets. -/
def wredAlgorithm (random : ℚ) (priority : Option Level) (v : QueuingVar) : QueuingVar × Bool :=
  match priority with
  | none => (v, true)
  | some level =>
    let (c, isAdmitted) := redDecision v.avgQueueSize random (v.wred level)
    ({ v with wred := Function.update v.wred level c }, isAdmitted)

/-- The new `avg_queue_size`, for a power function. -/
def averageQueueSize (pow : ℚ → ℚ → ℚ) (now : ℚ) (current : ℤ) (v : QueuingVar) : QueuingVar :=
  let size := (current : ℚ) / 1048576
  { v with avgQueueSize :=
      if size = 0 then pow (1 - v.wq) (now - v.qTime) * v.avgQueueSize
      else v.avgQueueSize + v.wq * (size - v.avgQueueSize) }

/-- What `fn_NetSim_RED` and `fn_NetSim_WRED` do, given the algorithm. -/
def randomEarly (algorithm : QueuingVar → QueuingVar × Bool) (pow : ℚ → ℚ → ℚ) (now : ℚ) (p : BufPacket)
    (rest : List BufPacket) (b : IfBuffer) : Option (IfBuffer × Bool) :=
  match b.checkBuffer p rest with
  | (b, false) => some (b, false)
  | (b, true) => do
    let b ← b.reduceCurrentSize p
    let (v, isAdmitted) := algorithm (averageQueueSize pow now b.dCurrentBufferSize b.queuingParam)
    let b := { b with queuingParam := v }
    return (if isAdmitted then b.addCurrentSize p rest else b, isAdmitted)

/-- `fn_NetSim_RED`. -/
def red (pow : ℚ → ℚ → ℚ) (now random : ℚ) : BufPacket → List BufPacket → IfBuffer → Option (IfBuffer × Bool) :=
  randomEarly (redAlgorithm random) pow now

/-- `fn_NetSim_WRED`. -/
def wred (pow : ℚ → ℚ → ℚ) (now random : ℚ) (p : BufPacket) :
    List BufPacket → IfBuffer → Option (IfBuffer × Bool) :=
  randomEarly (wredAlgorithm random p.nPacketPriority) pow now p

/-- `fn_NetSim_DropTail`. -/
def dropTail (p : BufPacket) (rest : List BufPacket) (b : IfBuffer) : Option (IfBuffer × Bool) :=
  some (b.checkBuffer p rest)

/-- `fn_NetSim_Queuing`. -/
def queuing (pow : ℚ → ℚ → ℚ) (now random : ℚ) (p : BufPacket) (rest : List BufPacket) (b : IfBuffer) :
    Option (IfBuffer × Bool) :=
  match b.queuingTechnique with
  | .red => b.red pow now random p rest
  | .wred => b.wred pow now random p rest
  | .null | .dropTail => b.dropTail p rest

/-! ## Scheduling -/

/-- The place of a chain in the list of the priority scheduler. In front of a packet of lower priority the
first packet gets a new successor, and the others are lost. -/
def insertByPriority (p : BufPacket) (rest : List BufPacket) : List BufPacket → List BufPacket
  | [] => p :: rest
  | q :: l => if q.priority < p.priority then p :: q :: l else q :: insertByPriority p rest l

/-- The list of a priority in round robin and WFQ. -/
def levelOf (p : BufPacket) : Level := p.nPacketPriority.getD .low

/-- A chain is put behind a list; WFQ counts it. -/
def appendToLevel (isCounted : Bool) (p : BufPacket) (rest : List BufPacket) (b : IfBuffer) : IfBuffer :=
  let lists := b.prioLists.getD .calloc
  let list := lists.entry (levelOf p)
  let list := { list with
    packets := list.packets ++ p :: rest
    nPacketId := if isCounted then list.nPacketId + 1 else list.nPacketId }
  { b with prioLists := some { lists with entry := Function.update lists.entry (levelOf p) list } }

/-- The schedulers, with type `ADD`. -/
def schedulerAdd (p : BufPacket) (rest : List BufPacket) (b : IfBuffer) : IfBuffer :=
  match b.nSchedulingType with
  | .priority => { b with packetList := insertByPriority p rest b.packetList }
  | .roundRobin => b.appendToLevel false p rest
  | .wfq => b.appendToLevel true p rest
  | .none | .fifo | .edf | .classBased => { b with packetList := b.packetList ++ p :: rest }

/-- `fn_NetSim_Packet_AddPacketToBuffer`, with whether the chain is admitted. -/
def addPacketToBuffer (pow : ℚ → ℚ → ℚ) (now random : ℚ) (p : BufPacket) (rest : List BufPacket) (b : IfBuffer) :
    Option (IfBuffer × Bool) :=
  (b.queuing pow now random p rest).map fun (b, isAdmitted) =>
    (if isAdmitted then b.schedulerAdd p rest else b, isAdmitted)

/-- `fn_NetSim_GetBufferStatus`. -/
def getBufferStatus (b : IfBuffer) : Bool :=
  match b.nSchedulingType with
  | .none | .priority | .edf | .fifo => !b.packetList.isEmpty
  | .roundRobin | .wfq =>
    match b.prioLists with
    | none => false
    | some lists => [Level.high, .medium, .normal, .low].any fun level => !(lists.entry level).packets.isEmpty
  | .classBased => false

/-- The first packet of the list; with the flag it is taken out. -/
def getHead (nFlag : Bool) (b : IfBuffer) : IfBuffer × Option BufPacket :=
  match b.packetList with
  | [] => (b, none)
  | p :: l => (if nFlag then { b with packetList := l } else b, some p)

/-- The priority that round robin tries next. -/
def nextLevel : Option Level → Level
  | none => .high
  | some .high => .medium
  | some .medium => .normal
  | some .normal => .low
  | some .low => .high

/-- The first packet of a list is taken out; WFQ counts it. -/
def PrioLists.dropHead (isCounted : Bool) (level : Level) (lists : PrioLists) : PrioLists :=
  let list := lists.entry level
  let list := { list with
    packets := list.packets.tail
    nPacketId := if isCounted then list.nPacketId - 1 else list.nPacketId }
  { lists with entry := Function.update lists.entry level list }

/-- The tries of `fn_NetSim_RoundRobin` with type `GET`, from the priority `start`. -/
def roundRobinTry (nFlag : Bool) (start : Option Level) : ℕ → PrioLists → PrioLists × Option BufPacket
  | 0, lists => (lists, none)
  | n + 1, lists =>
    let level := nextLevel lists.nPacketPriority
    let lists := { lists with nPacketPriority := some level }
    match (lists.entry level).packets with
    | [] => roundRobinTry nFlag start n lists
    | p :: _ => (if nFlag then PrioLists.dropHead false level lists else { lists with nPacketPriority := start }, some p)

/-- `fn_NetSim_RoundRobin`, with type `GET`. -/
def roundRobinGet (nFlag : Bool) (b : IfBuffer) : IfBuffer × Option BufPacket :=
  match b.prioLists with
  | none => (b, none)
  | some lists =>
    let (lists, p) := roundRobinTry nFlag lists.nPacketPriority 4 lists
    ({ b with prioLists := some lists }, p)

/-- `nCount` of a list: 64 bits without sign. -/
def wfqCount (lists : PrioLists) (level : Level) (weight : ℤ) : ℤ :=
  (lists.entry level).nPacketId * weight % 18446744073709551616

/-- The list that `fn_NetSim_GetPosition_MaximumNumber` chooses: the last one with the largest count. -/
def wfqLevel (lists : PrioLists) : Level :=
  let choose (best : ℤ × Level) (next : ℤ × Level) : ℤ × Level := if next.1 ≥ best.1 then next else best
  ([(wfqCount lists .normal 2, Level.normal), (wfqCount lists .medium 3, .medium),
    (wfqCount lists .high 4, .high)].foldl choose (wfqCount lists .low 1, .low)).2

/-- `fn_NetSim_WFQ`, with type `GET`. -/
def wfqGet (nFlag : Bool) (b : IfBuffer) : IfBuffer × Option BufPacket :=
  match b.prioLists with
  | none => (b, none)
  | some lists =>
    match (lists.entry (wfqLevel lists)).packets with
    | [] => (b, none)
    | p :: _ =>
      (if nFlag then { b with prioLists := some (PrioLists.dropHead true (wfqLevel lists) lists) } else b, some p)

/-- `curr_deadline`, for a packet with a QoS class. -/
def deadline (now : ℚ) (b : IfBuffer) (p : BufPacket) : ℚ :=
  b.maxLatency (p.nQOS - 1) * 1000 - (now - p.dEventTime)

/-- A packet whose deadline has passed. -/
def isExpired (now : ℚ) (b : IfBuffer) (p : BufPacket) : Bool := p.nQOS ≠ 0 ∧ b.deadline now p < 0

/-- `edf_algorithm_drop_expired_packets`. -/
def dropExpired (now : ℚ) (b : IfBuffer) : IfBuffer :=
  { b with packetList := b.packetList.filter fun p => !b.isExpired now p }

/-- The loop of `edf_algorithm_get_earliest_deadline_packet`: the place of the packet, given the best one so
far and its deadline. -/
def earliestFrom (now : ℚ) (b : IfBuffer) (i : ℕ) (best : Option ℕ) (earliest : ℚ) :
    List BufPacket → Option ℕ
  | [] => best
  | p :: l =>
    if p.nQOS = 0 then some i
    else if b.deadline now p < earliest then earliestFrom now b (i + 1) (some i) (b.deadline now p) l
    else earliestFrom now b (i + 1) best earliest l

/-- `fn_NetSim_EDF`, with type `GET`. -/
def edfGet (now : ℚ) (nFlag : Bool) (b : IfBuffer) : IfBuffer × Option BufPacket :=
  let b := b.dropExpired now
  match earliestFrom now b 0 none 18446744073709551616 b.packetList with
  | none => (b, none)
  | some i => (if nFlag then { b with packetList := b.packetList.eraseIdx i } else b, b.packetList[i]?)

/-- The schedulers, with type `GET`. -/
def schedulerGet (now : ℚ) (nFlag : Bool) (b : IfBuffer) : IfBuffer × Option BufPacket :=
  match b.nSchedulingType with
  | .roundRobin => b.roundRobinGet nFlag
  | .wfq => b.wfqGet nFlag
  | .edf => b.edfGet now nFlag
  | .none | .fifo | .priority | .classBased => b.getHead nFlag

/-- The times at which `fn_NetSim_GetPacketFromBuffer` notes an empty buffer. -/
def noteEmpty (now : ℚ) (b : IfBuffer) : IfBuffer :=
  match b.queuingTechnique with
  | .red | .wred =>
    if b.dCurrentBufferSize = 0 then { b with queuingParam := { b.queuingParam with qTime := now } } else b
  | .null | .dropTail => b

/-- `fn_NetSim_GetPacketFromBuffer`, with the packet; without the flag it stays. -/
def getPacketFromBuffer (now : ℚ) (nFlag : Bool) (b : IfBuffer) : Option (IfBuffer × Option BufPacket) :=
  if b.getBufferStatus then
    match b.schedulerGet now nFlag with
    | (b, none) => some (b, none)
    | (b, some p) =>
      if nFlag ∧ b.dMaxBufferSize ≠ 0 then
        (b.reduceCurrentSize p).map fun b => (b.noteEmpty now, some p)
      else some (b.noteEmpty now, some p)
  else some (b, none)

end IfBuffer

end NetSim.Scheduling

/-!
## The list of the priority scheduler

`fn_NetSim_Priority` of `Scheduling.c` over the packets in memory, where a packet is its address, and how
`fn_NetSim_GetPacketFromBuffer` calls it. `none` stands for a read through `NULL`.
-/

namespace NetSim.Scheduling

/-- The list of the buffer and the fields of the packets that the scheduler reads. -/
structure PacketMem (P : Type*) where
  pstruPacketlist : Option P
  pstruNextPacket : P → Option P
  nPacketPriority : P → ℤ

variable {P : Type*} [DecidableEq P]

namespace PacketMem

/-- `p->pstruNextPacket = q`. -/
def setNext (m : PacketMem P) (p : P) (q : Option P) : PacketMem P :=
  { m with pstruNextPacket := Function.update m.pstruNextPacket p q }

/-- A round of the loop of `ADD`, over `pstruPrevPacketList` and `pstruTmpBufferPacketList`. -/
def addRound (pstruData : P) (m : PacketMem P) : P × P → (P × P) ⊕ PacketMem P
  | (prev, tmp) =>
    if m.nPacketPriority tmp < m.nPacketPriority pstruData then
      .inr ((m.setNext pstruData (some tmp)).setNext prev (some pstruData))
    else
      match m.pstruNextPacket tmp with
      | none => .inr (m.setNext tmp (some pstruData))
      | some next => .inl (tmp, next)

/-- `fn_NetSim_Priority` with type `ADD`, with at most the given number of rounds. -/
def priorityAdd (rounds : ℕ) (pstruData : P) (m : PacketMem P) : Option (PacketMem P) :=
  match m.pstruPacketlist with
  | none => some { m with pstruPacketlist := some pstruData }
  | some first =>
    if m.nPacketPriority first < m.nPacketPriority pstruData then
      some { m.setNext pstruData (some first) with pstruPacketlist := some pstruData }
    else Loop.run (m.addRound pstruData) rounds (first, first)

/-- `fn_NetSim_Priority` with type `GET`. -/
def priorityGet (nFlag : Bool) (m : PacketMem P) : Option (PacketMem P × Option P) :=
  match m.pstruPacketlist with
  | none => if nFlag then none else some (m, none)
  | some p => some (if nFlag then { m.setNext p none with pstruPacketlist := m.pstruNextPacket p } else m, some p)

/-- `fn_NetSim_GetBufferStatus`, for this scheduler. -/
def getBufferStatus (m : PacketMem P) : Bool := m.pstruPacketlist.isSome

/-- What `fn_NetSim_GetPacketFromBuffer` retrieves. -/
def getPacketFromBuffer (nFlag : Bool) (m : PacketMem P) : Option (PacketMem P × Option P) :=
  if m.getBufferStatus then m.priorityGet nFlag else some (m, none)

end PacketMem

end NetSim.Scheduling

/-!
## The list of EDF

`fn_NetSim_EDF` of `Scheduling.c` over the packets in memory. `none` stands for a read through `NULL`.
-/

namespace NetSim.Scheduling

/-- The list of the buffer with its last packet, the fields of the packets that EDF reads, and its parameter. -/
structure EdfMem (P : Type*) where
  pstruPacketlist : Option P
  last : Option P
  pstruNextPacket : P → Option P
  nQOS : P → ℕ
  dEventTime : P → ℚ
  /-- `max_latency`, by `nQOS - 1`. -/
  maxLatency : ℕ → ℚ

variable {P : Type*} [DecidableEq P]

namespace EdfMem

/-- `p->pstruNextPacket = q`. -/
def setNext (m : EdfMem P) (p : P) (q : Option P) : EdfMem P :=
  { m with pstruNextPacket := Function.update m.pstruNextPacket p q }

/-- `curr_deadline`, for a packet with a QoS class. -/
def deadline (now : ℚ) (m : EdfMem P) (p : P) : ℚ := m.maxLatency (m.nQOS p - 1) * 1000 - (now - m.dEventTime p)

/-- A packet whose deadline has passed. -/
def isExpired (now : ℚ) (m : EdfMem P) (p : P) : Bool := m.nQOS p ≠ 0 ∧ m.deadline now p < 0

/-- A round of `edf_algorithm_drop_expired_packets`, over the list, `pstruPacket_prev` and `pstruPacket_itr`. -/
def dropRound (now : ℚ) : EdfMem P × Option P × Option P → (EdfMem P × Option P × Option P) ⊕ Option (EdfMem P)
  | (m, _, none) => .inr (some m)
  | (m, prev, some itr) =>
    let next := m.pstruNextPacket itr
    if m.isExpired now itr then
      if m.pstruPacketlist = some itr then
        .inl ({ m with pstruPacketlist := next, last := if next = none then none else m.last }, next, next)
      else
        match prev with
        | none => .inr none
        | some before =>
          .inl ({ m.setNext before next with last := if next = none then some before else m.last }, some before, next)
    else .inl (m, some itr, next)

/-- A round of `edf_algorithm_get_earliest_deadline_packet`, over `pstruPacket_itr`, `pstruPacket` and
`earliest_deadline`. -/
def earliestRound (now : ℚ) (m : EdfMem P) : Option P × Option P × ℚ → (Option P × Option P × ℚ) ⊕ Option P
  | (none, best, _) => .inr best
  | (some itr, best, earliest) =>
    if m.nQOS itr = 0 then .inr (some itr)
    else if m.deadline now itr < earliest then .inl (m.pstruNextPacket itr, some itr, m.deadline now itr)
    else .inl (m.pstruNextPacket itr, best, earliest)

/-- A round of the search for the packet in front of `p`. -/
def beforeRound (p : P) (m : EdfMem P) : Option P → Option P ⊕ Option P
  | none => .inr none
  | some itr => if m.pstruNextPacket itr = some p then .inr (some itr) else .inl (m.pstruNextPacket itr)

/-- The packet is taken out of the list. -/
def takeOut (rounds : ℕ) (p : P) (m : EdfMem P) : Option (EdfMem P) :=
  let next := m.pstruNextPacket p
  if m.pstruPacketlist = some p then
    some { m.setNext p none with pstruPacketlist := next, last := if next = none then none else m.last }
  else do
    let itr ← ← Loop.run (m.beforeRound p) rounds m.pstruPacketlist
    return { (m.setNext itr next).setNext p none with last := if next = none then some itr else m.last }

/-- With the flag the packet that is found is taken out, if there is one. -/
def answer (rounds : ℕ) (nFlag : Bool) (m : EdfMem P) : Option P → Option (EdfMem P × Option P)
  | none => some (m, none)
  | some p => if nFlag then (m.takeOut rounds p).map fun m => (m, some p) else some (m, some p)

/-- `fn_NetSim_EDF` with type `GET`, with at most the given number of rounds of each loop. -/
def edfGet (rounds : ℕ) (now : ℚ) (nFlag : Bool) (m : EdfMem P) : Option (EdfMem P × Option P) := do
  let m ← ← Loop.run (dropRound now) rounds (m, m.pstruPacketlist, m.pstruPacketlist)
  let p ← Loop.run (m.earliestRound now) rounds (m.pstruPacketlist, none, 18446744073709551616)
  m.answer rounds nFlag p

/-- A round of the search for the last packet of a chain. -/
def lastRound (m : EdfMem P) (p : P) : P ⊕ P :=
  match m.pstruNextPacket p with
  | none => .inr p
  | some next => .inl next

/-- `fn_NetSim_EDF` with type `ADD`. -/
def edfAdd (rounds : ℕ) (pstruData : P) (m : EdfMem P) : Option (EdfMem P) := do
  let p ← Loop.run m.lastRound rounds pstruData
  match m.pstruPacketlist with
  | none => return { m with pstruPacketlist := some pstruData, last := some p }
  | some _ =>
    let last ← m.last
    return { m.setNext last (some pstruData) with last := some p }

end EdfMem

end NetSim.Scheduling
