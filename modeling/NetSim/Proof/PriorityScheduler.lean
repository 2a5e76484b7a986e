import Mathlib.Data.List.Nodup
import NetSim.Lib.Chain
import NetSim.Lib.Machine
import NetSim.Lib.Keyed
import NetSim.Spec.IfBuffer

/-!
# The priority scheduler

The list in memory is the stable sort by priority of the packets that wait. A packet that arrives goes behind those of no
lower priority (`add_yields`), and a retrieval returns the head (`get_eq`). In every run of arrivals and retrievals this
makes the buffer a stable priority queue (`priority_scheduler`).
-/

namespace NetSim.Scheduling

open Chain Loop StableQueue

variable {P : Type*} [DecidableEq P] {m m' : PacketMem P} {p q prev tmp : P} {list waiting front rest : List P}

namespace PacketMem

/-- The list of the buffer. -/
def Lists (m : PacketMem P) (list : List P) : Prop := Seg m.pstruNextPacket m.pstruPacketlist list none

/-! ## Arrivals -/

/-- What an arrival is to do. -/
structure Inserts (p : P) (list : List P) (m m' : PacketMem P) : Prop where
  lists : m'.Lists (StableQueue.insert m.nPacketPriority p list)
  priorities : m'.nPacketPriority = m.nPacketPriority

/-- In front of `tmp`, behind `prev`. -/
theorem lists_insert_between (hlists : m.Lists (front ++ [prev] ++ tmp :: rest)) (hnew : p ∉ front ++ [prev] ++ tmp :: rest) :
    ((m.setNext p (some tmp)).setNext prev (some p)).Lists (front ++ [prev] ++ p :: tmp :: rest) := by
  have hnodup : (front ++ [prev] ++ tmp :: rest).Nodup := hlists.nodup
  have hprev : prev ∉ front ++ tmp :: rest := by
    rw [List.append_assoc, List.singleton_append, List.nodup_middle, List.nodup_cons] at hnodup
    exact hnodup.1
  obtain ⟨mid, hfront, hmid⟩ := seg_append.1 hlists
  have hlink := hfront.insert_after hmid hnew hprev
  rw [hmid.1] at hlink
  rw [List.append_assoc]
  exact hlink

/-- Behind the last packet. -/
theorem lists_concat (hlists : m.Lists (front ++ [tmp])) (hsingle : m.pstruNextPacket p = none) (hnew : p ∉ front ++ [tmp]) :
    (m.setNext tmp (some p)).Lists (front ++ [tmp, p]) := by
  have hnodup : (front ++ [tmp]).Nodup := hlists.nodup
  have htmp : tmp ∉ front ++ [] := by
    rw [List.append_nil]
    rw [List.nodup_append] at hnodup
    exact fun hmem => hnodup.2.2 tmp hmem tmp (List.mem_singleton.2 rfl) rfl
  have hnil : Seg m.pstruNextPacket none [] none := rfl
  have hlink := Seg.insert_after hlists hnil (by rwa [List.append_nil]) htmp
  have hkeep := Function.update_eq_self p m.pstruNextPacket
  rw [hsingle] at hkeep
  rw [hkeep] at hlink
  exact hlink

/-- The loop, at `tmp` behind the packets of `front`; where it can end in front of `tmp`, `prev` is the last one of
them. -/
theorem addRound_yields (hlists : m.Lists (front ++ tmp :: rest)) (hsingle : m.pstruNextPacket p = none)
    (hnew : p ∉ front ++ tmp :: rest)
    (hprev : m.nPacketPriority p ≤ m.nPacketPriority tmp ∨ ∃ front', front = front' ++ [prev]) :
    Yields (m.addRound p) (fun m' => m'.Lists (front ++ StableQueue.insert m.nPacketPriority p (tmp :: rest)) ∧
      m'.nPacketPriority = m.nPacketPriority) (prev, tmp) := by
  induction rest generalizing front prev tmp with
  | nil =>
    by_cases hlt : m.nPacketPriority tmp < m.nPacketPriority p
    · obtain ⟨front', rfl⟩ := hprev.resolve_left (not_le.2 hlt)
      refine .of_inr (if_pos hlt) ⟨?_, rfl⟩
      rw [insert_cons_of_lt hlt]
      exact lists_insert_between hlists hnew
    · have hend : m.pstruNextPacket tmp = none := by
        obtain ⟨mid, -, hmid⟩ := seg_append.1 hlists
        exact hmid.2
      have hround : m.addRound p (prev, tmp) = .inr (m.setNext tmp (some p)) := by
        unfold addRound
        dsimp only
        rw [if_neg hlt, hend]
      refine .of_inr hround ⟨?_, rfl⟩
      rw [insert_cons_of_le (not_lt.1 hlt)]
      exact lists_concat hlists hsingle hnew
  | cons next rest ih =>
    by_cases hlt : m.nPacketPriority tmp < m.nPacketPriority p
    · obtain ⟨front', rfl⟩ := hprev.resolve_left (not_le.2 hlt)
      refine .of_inr (if_pos hlt) ⟨?_, rfl⟩
      rw [insert_cons_of_lt hlt]
      exact lists_insert_between hlists hnew
    · have hnext : m.pstruNextPacket tmp = some next := by
        obtain ⟨mid, -, hmid⟩ := seg_append.1 hlists
        exact hmid.2.1
      have hround : m.addRound p (prev, tmp) = .inl (tmp, next) := by
        unfold addRound
        dsimp only
        rw [if_neg hlt, hnext]
      have hsplit : ∀ l, front ++ tmp :: l = front ++ [tmp] ++ l := fun l => List.append_cons front tmp l
      rw [insert_cons_of_le (not_lt.1 hlt), hsplit]
      rw [hsplit] at hlists hnew
      exact .of_inl hround (ih hlists hnew (.inr ⟨front, rfl⟩))

theorem priorityAdd_of_none (hhead : m.pstruPacketlist = none) (rounds : ℕ) :
    m.priorityAdd rounds p = some { m with pstruPacketlist := some p } := by
  unfold priorityAdd
  rw [hhead]

theorem priorityAdd_of_lt {first : P} (hhead : m.pstruPacketlist = some first)
    (hlt : m.nPacketPriority first < m.nPacketPriority p) (rounds : ℕ) :
    m.priorityAdd rounds p = some { m.setNext p (some first) with pstruPacketlist := some p } := by
  unfold priorityAdd
  rw [hhead]
  exact if_pos hlt

theorem priorityAdd_of_le {first : P} (hhead : m.pstruPacketlist = some first)
    (hle : m.nPacketPriority p ≤ m.nPacketPriority first) (rounds : ℕ) :
    m.priorityAdd rounds p = run (m.addRound p) rounds (first, first) := by
  unfold priorityAdd
  rw [hhead]
  exact if_neg (not_lt.2 hle)

/-- **An arrival** ends and links the packet in, whatever number of rounds it takes. -/
theorem priorityAdd_inserts (hlists : m.Lists list) (hsingle : m.pstruNextPacket p = none) (hnew : p ∉ list) :
    (∃ rounds m', m.priorityAdd rounds p = some m') ∧
      ∀ rounds m', m.priorityAdd rounds p = some m' → Inserts p list m m' := by
  cases list with
  | nil =>
    have hadd := priorityAdd_of_none (p := p) (m := m) hlists
    refine ⟨⟨0, _, hadd 0⟩, fun rounds m' hm' => ?_⟩
    rw [hadd rounds] at hm'
    cases hm'
    exact ⟨⟨rfl, hsingle⟩, rfl⟩
  | cons first rest =>
    by_cases hlt : m.nPacketPriority first < m.nPacketPriority p
    · have hadd := priorityAdd_of_lt hlists.1 hlt
      refine ⟨⟨0, _, hadd 0⟩, fun rounds m' hm' => ?_⟩
      rw [hadd rounds] at hm'
      cases hm'
      refine ⟨?_, rfl⟩
      rw [insert_cons_of_lt hlt]
      have hwhole : Seg m.pstruNextPacket (some first) (first :: rest) none := ⟨rfl, hlists.2⟩
      have hself : (m.setNext p (some first)).pstruNextPacket p = some first := Function.update_self ..
      refine ⟨rfl, ?_⟩
      rw [hself]
      exact hwhole.update_other hnew (some first)
    · have hle := not_lt.1 hlt
      have hadd := priorityAdd_of_le hlists.1 hle
      have hstart : m.Lists ([] ++ first :: rest) := hlists
      have hyields : Yields (m.addRound p) _ (first, first) := addRound_yields hstart hsingle hnew (.inl hle)
      obtain ⟨rounds₀, m₀, hrun, hm₀, hpriorities⟩ := hyields
      refine ⟨⟨rounds₀, m₀, (hadd rounds₀).trans hrun⟩, fun rounds m' hm' => ?_⟩
      rw [hadd rounds] at hm'
      rw [← run_unique hrun hm']
      exact ⟨hm₀, hpriorities⟩

/-! ## Retrievals -/

/-- The head is returned, and with the flag taken out. -/
theorem get_eq (hlists : m.Lists (p :: rest)) (nFlag : Bool) : ∃ m', m.getPacketFromBuffer nFlag = some (m', some p) ∧
    m'.Lists (if nFlag then rest else p :: rest) ∧ m'.nPacketPriority = m.nPacketPriority := by
  have hhead : m.pstruPacketlist = some p := hlists.1
  unfold getPacketFromBuffer getBufferStatus priorityGet
  rw [hhead]
  cases nFlag with
  | false => exact ⟨m, rfl, hlists, rfl⟩
  | true =>
    refine ⟨_, rfl, ?_, rfl⟩
    have hnodup : (p :: rest).Nodup := hlists.nodup
    have hrest : Seg m.pstruNextPacket (m.pstruNextPacket p) rest none := hlists.2
    exact hrest.update_other (List.nodup_cons.1 hnodup).1 none

theorem get_empty (hlists : m.Lists []) (nFlag : Bool) : m.getPacketFromBuffer nFlag = some (m, none) := by
  have hhead : m.pstruPacketlist = none := hlists
  unfold getPacketFromBuffer getBufferStatus
  rw [hhead]
  rfl

/-- A packet comes alone, with its priority. -/
def receive (p : P) (priority : ℤ) (m : PacketMem P) : PacketMem P :=
  { m with
    pstruNextPacket := Function.update m.pstruNextPacket p none
    nPacketPriority := Function.update m.nPacketPriority p priority }

theorem Lists.receive (h : m.Lists list) (hnew : p ∉ list) (priority : ℤ) : (m.receive p priority).Lists list :=
  h.update_other hnew none

theorem receive_single (m : PacketMem P) (p : P) (priority : ℤ) : (m.receive p priority).pstruNextPacket p = none :=
  Function.update_self ..

end PacketMem

/-- The insertion into a list of packets is that of the memory. -/
theorem insertByPriority_eq (p : BufPacket) (l : List BufPacket) :
    IfBuffer.insertByPriority p [] l = StableQueue.insert BufPacket.priority p l := by
  induction l with
  | nil => rfl
  | cons q l ih =>
    unfold IfBuffer.insertByPriority StableQueue.insert
    rw [ih]

/-! ## Runs -/

/-- The memory, and the packets that wait, in the order of their arrival. -/
structure PriorityRun (P : Type*) where
  mem : PacketMem P
  waiting : List P

/-- A packet that is not in the buffer arrives with a priority, or `fn_NetSim_GetPacketFromBuffer` is called. -/
inductive PriorityEvent (P : Type*)
  | add (pstruData : P) (priority : ℤ) (rounds : ℕ)
  | get (nFlag : Bool)

namespace PriorityRun

/-- What waits behind a retrieval. -/
def leave (nFlag : Bool) (waiting : List P) : Option P → List P
  | some p => if nFlag then waiting.erase p else waiting
  | none => waiting

def step (s : PriorityRun P) : PriorityEvent P → Option (PriorityRun P)
  | .add pstruData priority rounds =>
    if pstruData ∈ s.waiting then none
    else ((s.mem.receive pstruData priority).priorityAdd rounds pstruData).map fun mem =>
      ⟨mem, s.waiting ++ [pstruData]⟩
  | .get nFlag => (s.mem.getPacketFromBuffer nFlag).map fun result => ⟨result.1, leave nFlag s.waiting result.2⟩

/-- The buffer is empty at the start. -/
def machine : Machine (PriorityRun P) (PriorityEvent P) where
  init s := s.mem.pstruPacketlist = none ∧ s.waiting = []
  step := step

/-- **The invariant**: the list in memory is the stable sort of what waits. -/
def Ordered (s : PriorityRun P) : Prop :=
  ∃ list, s.mem.Lists list ∧ IsStableSort s.mem.nPacketPriority s.waiting list

variable {s s' : PriorityRun P}

theorem ordered_add {priority : ℤ} {rounds : ℕ} (h : s.Ordered) (hstep : s.step (.add p priority rounds) = some s') :
    s'.Ordered := by
  obtain ⟨list, hlists, hsort⟩ := h
  unfold step at hstep
  dsimp only at hstep
  split_ifs at hstep with hmem
  obtain ⟨m', hadd, rfl⟩ := Option.map_eq_some_iff.1 hstep
  have hnew : p ∉ list := fun hp => hmem (hsort.perm.mem_iff.1 hp)
  have hinserts := (PacketMem.priorityAdd_inserts (hlists.receive hnew priority) (PacketMem.receive_single s.mem p priority)
    hnew).2 rounds m' hadd
  have hkeys : ∀ q ∈ s.waiting, (s.mem.receive p priority).nPacketPriority q = s.mem.nPacketPriority q := by
    intro q hq
    have hne : q ≠ p := fun heq => hmem (heq ▸ hq)
    exact Function.update_of_ne hne priority s.mem.nPacketPriority
  refine ⟨_, hinserts.lists, ?_⟩
  rw [hinserts.priorities]
  exact (hsort.congr hkeys).insert p

/-- **What is retrieved**: the packet of the highest priority that came first. -/
def IsFirstHighest (s : PriorityRun P) (p : P) : Prop :=
  ∃ before behind, s.waiting = before ++ p :: behind ∧
    (∀ q ∈ before, s.mem.nPacketPriority q < s.mem.nPacketPriority p) ∧
    ∀ q ∈ behind, s.mem.nPacketPriority q ≤ s.mem.nPacketPriority p

/-- A retrieval from an empty buffer returns nothing and changes nothing. -/
theorem get_of_empty (h : s.Ordered) (hempty : s.waiting = []) (nFlag : Bool) :
    s.mem.getPacketFromBuffer nFlag = some (s.mem, none) := by
  obtain ⟨list, hlists, hsort⟩ := h
  have hperm := hsort.perm
  rw [hempty] at hperm
  rw [hperm.eq_nil] at hlists
  exact PacketMem.get_empty hlists nFlag

theorem get_of_waiting (h : s.Ordered) (hwaiting : s.waiting ≠ []) (nFlag : Bool) :
    ∃ m' p, s.mem.getPacketFromBuffer nFlag = some (m', some p) ∧ s.IsFirstHighest p ∧
      PriorityRun.Ordered ⟨m', leave nFlag s.waiting (some p)⟩ := by
  obtain ⟨list, hlists, hsort⟩ := h
  cases list with
  | nil => exact absurd hsort.perm.symm.eq_nil hwaiting
  | cons p rest =>
    obtain ⟨m', hget, hlists', hpriorities⟩ := PacketMem.get_eq hlists nFlag
    obtain ⟨before, behind, hsplit, hbefore, hbehind, hrest⟩ := hsort.head
    refine ⟨m', p, hget, ⟨before, behind, hsplit, hbefore, hbehind⟩, if nFlag then rest else p :: rest, hlists', ?_⟩
    dsimp only
    rw [hpriorities]
    cases nFlag with
    | false => exact hsort
    | true =>
      have hp : p ∉ before := fun hmem => lt_irrefl _ (hbefore p hmem)
      have herase : s.waiting.erase p = before ++ behind := by
        rw [hsplit, List.erase_append_right _ hp, List.erase_cons_head]
      have hleave : leave true s.waiting (some p) = before ++ behind := herase
      rw [if_pos rfl, hleave]
      exact hrest

theorem ordered_get {nFlag : Bool} (h : s.Ordered) (hstep : s.step (.get nFlag) = some s') : s'.Ordered := by
  obtain ⟨result, hget, rfl⟩ := Option.map_eq_some_iff.1 hstep
  by_cases hempty : s.waiting = []
  · rw [get_of_empty h hempty nFlag] at hget
    cases hget
    exact h
  · obtain ⟨m', p, hget', -, hordered⟩ := get_of_waiting h hempty nFlag
    rw [hget'] at hget
    cases hget
    exact hordered

theorem ordered_of_reach (h : machine.Reach s) : s.Ordered := by
  have hinit : ∀ s : PriorityRun P, machine.init s → s.Ordered := by
    rintro s ⟨hlist, hwaiting⟩
    refine ⟨[], hlist, ?_⟩
    rw [hwaiting]
    exact .nil
  refine h.inv (I := Ordered) hinit fun s e s' hs _ hstep => ?_
  cases e with
  | add p priority rounds => exact ordered_add hs hstep
  | get nFlag => exact ordered_get hs hstep

end PriorityRun

/-- **The priority scheduler**: after every history of arrivals and retrievals, the list in memory is the stable sort of the
packets that wait, an arrival ends, and a retrieval returns the packet of the highest priority that came first. -/
theorem priority_scheduler (s : PriorityRun P) (h : PriorityRun.machine.Reach s) :
    s.Ordered ∧ s.waiting.Nodup ∧
      (∀ p priority, p ∉ s.waiting → ∃ rounds s', s.step (.add p priority rounds) = some s' ∧
        s'.waiting = s.waiting ++ [p]) ∧
      ∀ nFlag, (s.waiting = [] → s.mem.getPacketFromBuffer nFlag = some (s.mem, none)) ∧
        (s.waiting ≠ [] → ∃ m' p, s.mem.getPacketFromBuffer nFlag = some (m', some p) ∧ s.IsFirstHighest p) := by
  have hordered := PriorityRun.ordered_of_reach h
  obtain ⟨list, hlists, hsort⟩ := hordered
  have hnodup : list.Nodup := hlists.nodup
  refine ⟨⟨list, hlists, hsort⟩, hsort.perm.nodup_iff.1 hnodup, fun p priority hnew => ?_, fun nFlag => ⟨?_, ?_⟩⟩
  · have hnewList : p ∉ list := fun hp => hnew (hsort.perm.mem_iff.1 hp)
    obtain ⟨⟨rounds, m', hadd⟩, -⟩ := PacketMem.priorityAdd_inserts (hlists.receive hnewList priority)
      (PacketMem.receive_single s.mem p priority) hnewList
    refine ⟨rounds, ⟨m', s.waiting ++ [p]⟩, ?_, rfl⟩
    unfold PriorityRun.step
    dsimp only
    rw [if_neg hnew, hadd]
    rfl
  · exact fun hempty => PriorityRun.get_of_empty ⟨list, hlists, hsort⟩ hempty nFlag
  · intro hwaiting
    obtain ⟨m', p, hget, hfirst, -⟩ := PriorityRun.get_of_waiting ⟨list, hlists, hsort⟩ hwaiting nFlag
    exact ⟨m', p, hget, hfirst⟩

/-- An empty buffer. -/
def emptyRun : PriorityRun ℕ := ⟨⟨none, fun _ => none, fun _ => 0⟩, []⟩

/-- Two packets of one priority, one of a higher and one of a lower one, and a retrieval. -/
theorem priority_scheduler_four : ∃ s : PriorityRun ℕ, PriorityRun.machine.Reach s ∧ s.waiting = [10, 12, 13] ∧
    s.mem.pstruPacketlist = some 10 ∧ s.Ordered := by
  have hrun := Machine.Reach.of_exec [.add 10 4 0, .add 11 8 0, .add 12 4 2, .add 13 2 3, .get true]
    (Machine.ReachOn.init (M := PriorityRun.machine) (s := emptyRun) ⟨rfl, rfl⟩) rfl
  exact ⟨_, hrun, rfl, rfl, (priority_scheduler _ hrun).1⟩

end NetSim.Scheduling
