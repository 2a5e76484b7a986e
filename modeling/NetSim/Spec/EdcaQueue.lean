import NetSim.Lib.Loop
import NetSim.Spec.Csmaca

/-!
# The queues of EDCA

`fn_NetSim_IEEE802_11e_AddtoQueue` and `fn_NetSim_IEEE802_11e_GetPacketFromQueue` of `IEEE802_11_EDCAF.c`, over the packets in
memory. `none` stands for a read through `NULL`, or for a loop that has not ended after the given number of rounds.
-/

namespace NetSim.Wlan

/-- `QOS_LIST`. -/
structure QosList (P : Type*) where
  head : Option P
  tail : Option P
  dMaximumSize : ℚ
  dCurrentSize : ℚ

/-- What a line of the buffer log says of a packet. -/
inductive BufferAction
  | enqueue
  | drop
  | dequeue
  | lifeTimeExpired
deriving DecidableEq, Repr

/-- A line that `fnNetSim_buffer_log_write` writes: the time, the interface of the queue and the packet. -/
structure BufferLine (P : Type*) where
  dEventTime : ℚ
  interface : ℕ
  packet : P
  action : BufferAction

/-- What a run does not change: the protocol, `MSDULifeTime * TU` for the queue of each interface, the virtual interface of each
access category, and the fields of the packets. -/
structure EdcaConfig (P : Type*) where
  mediumAccessProtocol : MediumAccessProtocol
  msduLifeTime : ℕ → ℚ
  findVirtualInterface : ℕ → ℕ
  nQOS : P → ℕ
  nReceiverId : P → ℕ
  packetSize : P → ℚ

/-- The queues of a device, the links and times of the packets, and the buffer log. -/
structure EdcaMem (P : Type*) where
  qosList : ℕ → QosList P
  pstruNextPacket : P → Option P
  dEventTime : P → ℚ
  bufferLog : List (BufferLine P)

variable {P : Type*} [DecidableEq P]

/-- `get_ac_from_qos`: 3 for `QOS_UGS` and `QOS_rtPS`, 2 for `QOS_ertPS` and `QOS_nrtPS`. -/
def getAcFromQos (qos : ℕ) : ℕ :=
  if qos = 1 ∨ qos = 2 then 3
  else if qos = 3 ∨ qos = 4 then 2
  else 1

namespace EdcaConfig

/-- `find_virtual_mac_interface`. -/
def findVirtualMacInterface (cfg : EdcaConfig P) (interface ac : ℕ) : ℕ :=
  match cfg.mediumAccessProtocol with
  | .dcf => interface
  | .edcaf => cfg.findVirtualInterface ac

/-- `fnGetPacketSize(packet) * 8.0`. -/
def siz (cfg : EdcaConfig P) (p : P) : ℚ := cfg.packetSize p * 8

end EdcaConfig

namespace EdcaMem

/-- `p->pstruNextPacket = q`. -/
def setNext (m : EdcaMem P) (p : P) (q : Option P) : EdcaMem P :=
  { m with pstruNextPacket := Function.update m.pstruNextPacket p q }

def setList (m : EdcaMem P) (interface : ℕ) (list : QosList P) : EdcaMem P :=
  { m with qosList := Function.update m.qosList interface list }

/-- `fnNetSim_buffer_log_write`. -/
def write (m : EdcaMem P) (line : BufferLine P) : EdcaMem P := { m with bufferLog := m.bufferLog ++ [line] }

/-- `fn_NetSim_IEEE802_11e_AddtoQueue`, with what it returns. -/
def addToQueue (cfg : EdcaConfig P) (now : ℚ) (interface : ℕ) (packet : P) (m : EdcaMem P) : Option (EdcaMem P × ℕ) :=
  let vin := cfg.findVirtualMacInterface interface (getAcFromQos (cfg.nQOS packet))
  let siz := cfg.siz packet
  let list := m.qosList vin
  let m := { m with dEventTime := Function.update m.dEventTime packet now }
  if list.dMaximumSize ≠ 0 ∧ list.dMaximumSize < list.dCurrentSize + siz then
    some (m.write ⟨now, vin, packet, .drop⟩, 0)
  else
    let list := { list with dCurrentSize := list.dCurrentSize + siz }
    match list.head with
    | some _ => do
      let tail ← list.tail
      return (((m.setNext tail (some packet)).setList vin { list with tail := some packet }).write
        ⟨now, vin, packet, .enqueue⟩, vin)
    | none =>
      some ((m.setList vin { list with head := some packet, tail := some packet }).write ⟨now, vin, packet, .enqueue⟩, vin)

/-- A round of the search in `get_packet_from_qoslist`, over `packet` and `prev`. -/
def searchRound (cfg : EdcaConfig P) (recvId : ℕ) (m : EdcaMem P) : Option P × Option P → (Option P × Option P) ⊕ (Option P × Option P)
  | (none, prev) => .inr (none, prev)
  | (some packet, prev) =>
    if cfg.nReceiverId packet ≠ recvId then .inl (m.pstruNextPacket packet, some packet) else .inr (some packet, prev)

/-- The first packet is taken out of the list. -/
def takeHead (cfg : EdcaConfig P) (interface : ℕ) (p : P) (m : EdcaMem P) : EdcaMem P :=
  let list := m.qosList interface
  let next := m.pstruNextPacket p
  (m.setNext p none).setList interface { list with
    head := next
    tail := if next = none then none else list.tail
    dCurrentSize := list.dCurrentSize - cfg.siz p }

/-- A packet behind `prev` is taken out of the list. -/
def takeBehind (cfg : EdcaConfig P) (interface : ℕ) (prev p : P) (m : EdcaMem P) : EdcaMem P :=
  let list := m.qosList interface
  ((m.setNext prev (m.pstruNextPacket p)).setNext p none).setList interface { list with
    tail := if some p = list.tail then some prev else list.tail
    dCurrentSize := list.dCurrentSize - cfg.siz p }

/-- What the search has found is taken out of the list. -/
def takeFound (cfg : EdcaConfig P) (interface : ℕ) (m : EdcaMem P) : Option P × Option P → EdcaMem P × Option P
  | (none, _) => (m, none)
  | (some packet, some prev) => (m.takeBehind cfg interface prev packet, some packet)
  | (some packet, none) => (m.takeHead cfg interface packet, some packet)

/-- `get_packet_from_qoslist`. -/
def getPacketFromQoslist (cfg : EdcaConfig P) (interface recvId rounds : ℕ) (m : EdcaMem P) : Option (EdcaMem P × Option P) :=
  match (m.qosList interface).head with
  | none => some (m, none)
  | some head =>
    if recvId = 0 then some (m.takeHead cfg interface head, some head)
    else (Loop.run (m.searchRound cfg recvId) rounds (some head, none)).map (m.takeFound cfg interface)

/-- Whether the lifetime of a packet is over. -/
def isExpired (cfg : EdcaConfig P) (now : ℚ) (interface : ℕ) (m : EdcaMem P) (t : P) : Bool :=
  cfg.mediumAccessProtocol = .edcaf ∧ m.dEventTime t + cfg.msduLifeTime interface < now

end EdcaMem

/-- The variables of the loop of `fn_NetSim_IEEE802_11e_GetPacketFromQueue`, with the memory. -/
structure GetLoop (P : Type*) where
  mem : EdcaMem P
  p : Option P
  pl : Option P
  i : ℕ
  nPacketCount : ℕ

namespace GetLoop

/-- What the loop does with a packet `t`: one whose lifetime is over is freed and does not count, another one is linked behind
`pl`. -/
def receive (cfg : EdcaConfig P) (now : ℚ) (interface : ℕ) (t : P) (s : GetLoop P) : Option (GetLoop P) :=
  if s.mem.isExpired cfg now interface t then some { s with mem := s.mem.write ⟨now, interface, t, .lifeTimeExpired⟩ }
  else
    let mem := s.mem.write ⟨now, interface, t, .dequeue⟩
    match s.p with
    | some _ => do
      let pl ← s.pl
      return { s with mem := mem.setNext pl (some t), pl := some t, i := s.i + 1, nPacketCount := s.nPacketCount + 1 }
    | none => some { mem := mem, p := some t, pl := some t, i := s.i + 1, nPacketCount := s.nPacketCount + 1 }

/-- The loop. -/
def run (cfg : EdcaConfig P) (now : ℚ) (interface nPacketRequire : ℕ) : ℕ → GetLoop P → Option (GetLoop P)
  | 0, _ => none
  | rounds + 1, s =>
    if s.i < nPacketRequire then do
      let (mem, t) ← s.mem.getPacketFromQoslist cfg interface (s.p.elim 0 cfg.nReceiverId) rounds
      match t with
      | none => return { s with mem }
      | some t => do
        let s ← receive cfg now interface t { s with mem }
        run cfg now interface nPacketRequire rounds s
    else return s

end GetLoop

namespace EdcaMem

/-- `fn_NetSim_IEEE802_11e_GetPacketFromQueue`: the first of the packets that it returns, and `*nPacketCount`. -/
def getPacketFromQueue (cfg : EdcaConfig P) (now : ℚ) (interface nPacketRequire nPacketCount rounds : ℕ) (m : EdcaMem P) :
    Option (EdcaMem P × Option P × ℕ) :=
  match (m.qosList interface).head with
  | none => some (m, none, 0)
  | some _ => (GetLoop.run cfg now interface nPacketRequire rounds ⟨m, none, none, 0, nPacketCount⟩).map fun s =>
      (s.mem, s.p, s.nPacketCount)

/-! ## Runs -/

/-- A packet that has not been in a queue, and is not linked to another one. -/
def IsNew (m : EdcaMem P) (p : P) : Prop := m.pstruNextPacket p = none ∧ ∀ line ∈ m.bufferLog, line.packet ≠ p

/-- No packet has been added. -/
def IsStart (m : EdcaMem P) : Prop :=
  m.bufferLog = [] ∧ ∀ interface, (m.qosList interface).head = none ∧ (m.qosList interface).tail = none ∧
    (m.qosList interface).dCurrentSize = 0

end EdcaMem

/-- A retrieval of a run: the memory before and after it, its arguments and what it returns. -/
structure Retrieval (P : Type*) where
  before : EdcaMem P
  now : ℚ
  interface : ℕ
  nPacketRequire : ℕ
  after : EdcaMem P
  packet : Option P

/-- A run: additions of new packets, and retrievals. -/
inductive EdcaRun (cfg : EdcaConfig P) (start : EdcaMem P) : List (Retrieval P) → EdcaMem P → Prop
  | start : EdcaRun cfg start [] start
  | add {retrievals : List (Retrieval P)} {m m' : EdcaMem P} {now : ℚ} {interface vin : ℕ} {p : P}
      (h : EdcaRun cfg start retrievals m) (hnew : m.IsNew p)
      (hadd : m.addToQueue cfg now interface p = some (m', vin)) : EdcaRun cfg start retrievals m'
  | get {retrievals : List (Retrieval P)} {m m' : EdcaMem P} {now : ℚ} {interface nPacketRequire nPacketCount count : ℕ}
      {p : Option P} (h : EdcaRun cfg start retrievals m)
      (hget : Loop.Gives (fun rounds => m.getPacketFromQueue cfg now interface nPacketRequire nPacketCount rounds) (m', p, count)) :
      EdcaRun cfg start (retrievals ++ [⟨m, now, interface, nPacketRequire, m', p⟩]) m'

end NetSim.Wlan
