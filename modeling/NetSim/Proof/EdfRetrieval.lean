import Mathlib.Data.List.InsertIdx
import Mathlib.Data.List.Nodup
import NetSim.Lib.Chain
import NetSim.Spec.IfBuffer

/-!
# Retrievals of EDF

* `dropRound_yields`: the first pass takes the expired packets out of the list, and keeps the pointer to the last packet.
* `earliestRound_yields`, `earliest_cases`: the second pass finds the first control packet, or else the first packet with the
  least remaining time, if that is less than 2^64.
* `edf_retrieval`: a retrieval as a whole.
-/

namespace NetSim.Scheduling

open Chain Loop

variable {P : Type*} [DecidableEq P]

namespace EdfMem

variable {m m' : EdfMem P} {now : ℚ} {p : P} {l front rest chain : List P}

/-- The list of the buffer. -/
def Holds (m : EdfMem P) (l : List P) : Prop := Ended m.pstruNextPacket m.pstruPacketlist m.last l

/-- Only the list differs. -/
def SamePackets (m m' : EdfMem P) : Prop :=
  m'.nQOS = m.nQOS ∧ m'.dEventTime = m.dEventTime ∧ m'.maxLatency = m.maxLatency

omit [DecidableEq P] in
theorem SamePackets.deadline (h : m.SamePackets m') (now : ℚ) : m'.deadline now = m.deadline now := by
  obtain ⟨hqos, htime, hlatency⟩ := h
  unfold EdfMem.deadline
  rw [hqos, htime, hlatency]

/-! ## The expired packets -/

/-- What stays of some packets. -/
def kept (now : ℚ) (m : EdfMem P) (l : List P) : List P := l.filter fun p => !m.isExpired now p

/-- The first pass, at the first packet of `rest` and behind the packets of `front`. -/
theorem dropRound_yields (now : ℚ) (prev : Option P) (h : m.Holds (front ++ rest)) (hprev : front ≠ [] → prev = front.getLast?) :
    Yields (dropRound now) (fun r => ∃ m', r = some m' ∧ m'.Holds (front ++ m.kept now rest) ∧ m.SamePackets m')
      (m, prev, rest.head?) := by
  induction rest generalizing m front prev with
  | nil => exact .of_inr rfl ⟨m, rfl, h, rfl, rfl, rfl⟩
  | cons a rest ih =>
    have hnext : m.pstruNextPacket a = rest.head? := h.seg.next_eq
    cases hexp : m.isExpired now a with
    | false =>
      have hround : dropRound now (m, prev, (a :: rest).head?) = .inl (m, some a, rest.head?) := by
        rw [← hnext]
        exact if_neg (by rw [hexp]; exact Bool.false_ne_true)
      have hkept : m.kept now (a :: rest) = a :: m.kept now rest := List.filter_cons_of_pos (by rw [hexp]; rfl)
      rw [List.append_cons] at h
      rw [hkept, List.append_cons]
      exact .of_inl hround (ih (some a) h fun _ => List.getLast?_concat.symm)
    | true =>
      have hkept : m.kept now (a :: rest) = m.kept now rest := List.filter_cons_of_neg (by rw [hexp]; exact Bool.false_ne_true)
      rw [hkept]
      by_cases hfront : front = []
      · subst hfront
        have hhead : m.pstruPacketlist = some a := h.seg.1
        have hround : dropRound now (m, prev, (a :: rest).head?) = .inl ({ m with
            pstruPacketlist := rest.head?, last := if rest.head? = none then none else m.last }, rest.head?, rest.head?) := by
          rw [← hnext]
          exact (if_pos hexp).trans (if_pos hhead)
        have hended : Ended m.pstruNextPacket (some a) m.last (a :: rest) := hhead ▸ h
        have hremoved := hended.remove_head
        rw [hnext] at hremoved
        have hholds : EdfMem.Holds { m with pstruPacketlist := rest.head?, last := if rest.head? = none then none else m.last }
          ([] ++ rest) := hremoved
        exact .of_inl hround (ih _ hholds fun hne => absurd rfl hne)
      · obtain ⟨front', before, rfl⟩ := (List.eq_nil_or_concat' front).resolve_left hfront
        have hprev' : prev = some before := (hprev hfront).trans List.getLast?_concat
        -- the list does not begin with `a`
        have hhead : m.pstruPacketlist ≠ some a := by
          intro heq
          have hnodup := h.seg.nodup
          have hfirst := h.seg.head_eq
          rw [List.nodup_append] at hnodup
          rw [heq, List.head?_append_of_ne_nil _ hfront] at hfirst
          exact hnodup.2.2 a (List.mem_of_head? hfirst.symm) a List.mem_cons_self rfl
        have hround : dropRound now (m, prev, (a :: rest).head?) = .inl ({ m.setNext before rest.head? with
            last := if rest.head? = none then some before else m.last }, some before, rest.head?) := by
          rw [hprev', ← hnext]
          exact (if_pos hexp).trans (if_neg hhead)
        have hended : Ended m.pstruNextPacket m.pstruPacketlist m.last (front' ++ before :: a :: rest) := by
          rw [List.append_cons]
          exact h
        have hremoved := hended.remove
        rw [hnext, List.append_cons] at hremoved
        have hholds : EdfMem.Holds { m.setNext before rest.head? with
          last := if rest.head? = none then some before else m.last } (front' ++ [before] ++ rest) := hremoved
        exact .of_inl hround (ih _ hholds fun _ => List.getLast?_concat.symm)

/-! ## The earliest deadline -/

/-- The second pass over a list, given the best packet so far and its deadline. -/
def earliest (now : ℚ) (m : EdfMem P) (best : Option P) (bound : ℚ) : List P → Option P
  | [] => best
  | p :: l =>
    if m.nQOS p = 0 then some p
    else if m.deadline now p < bound then earliest now m (some p) (m.deadline now p) l
    else earliest now m best bound l

omit [DecidableEq P] in
theorem earliestRound_yields (now : ℚ) (h : Seg m.pstruNextPacket rest.head? rest none) (best : Option P) (bound : ℚ) :
    Yields (m.earliestRound now) (· = m.earliest now best bound rest) (rest.head?, best, bound) := by
  induction rest generalizing best bound with
  | nil => exact .of_inr rfl rfl
  | cons a rest ih =>
    have hrest : Seg m.pstruNextPacket rest.head? rest none := h.2.head_eq ▸ h.2
    have hnext : m.pstruNextPacket a = rest.head? := h.2.head_eq
    unfold earliest
    by_cases hqos : m.nQOS a = 0
    · rw [if_pos hqos]
      exact .of_inr (if_pos hqos) rfl
    · rw [if_neg hqos]
      by_cases hlt : m.deadline now a < bound
      · rw [if_pos hlt]
        have hround : m.earliestRound now (some a, best, bound) = .inl (rest.head?, some a, m.deadline now a) := by
          rw [← hnext]
          exact (if_neg hqos).trans (if_pos hlt)
        exact .of_inl hround (ih hrest (some a) (m.deadline now a))
      · rw [if_neg hlt]
        have hround : m.earliestRound now (some a, best, bound) = .inl (rest.head?, best, bound) := by
          rw [← hnext]
          exact (if_neg hqos).trans (if_neg hlt)
        exact .of_inl hround (ih hrest best bound)

/-- The first control packet. -/
def IsFirstControl (m : EdfMem P) (l : List P) (p : P) : Prop :=
  ∃ before behind, l = before ++ p :: behind ∧ m.nQOS p = 0 ∧ ∀ q ∈ before, m.nQOS q ≠ 0

/-- The first packet with the least remaining time; there are no control packets. -/
def IsFirstEarliest (now : ℚ) (m : EdfMem P) (l : List P) (p : P) : Prop :=
  (∀ q ∈ l, m.nQOS q ≠ 0) ∧ ∃ before behind, l = before ++ p :: behind ∧
    (∀ q ∈ before, m.deadline now p < m.deadline now q) ∧ ∀ q ∈ behind, m.deadline now p ≤ m.deadline now q

section Earliest

variable {bound : ℚ}

omit [DecidableEq P]

theorem earliest_control (now : ℚ) (best : Option P) (bound : ℚ) (h : ∃ p ∈ l, m.nQOS p = 0) :
    ∃ p, m.earliest now best bound l = some p ∧ m.IsFirstControl l p := by
  induction l generalizing best bound with
  | nil =>
    obtain ⟨p, hp, -⟩ := h
    cases hp
  | cons a l ih =>
    unfold earliest
    by_cases hqos : m.nQOS a = 0
    · rw [if_pos hqos]
      exact ⟨a, rfl, [], l, rfl, hqos, fun q hq => absurd hq List.not_mem_nil⟩
    · rw [if_neg hqos]
      have hrest : ∃ p ∈ l, m.nQOS p = 0 := by
        obtain ⟨p, hp, hp0⟩ := h
        rcases List.mem_cons.1 hp with rfl | hp
        · exact absurd hp0 hqos
        · exact ⟨p, hp, hp0⟩
      have hfirst : ∀ p, m.IsFirstControl l p → m.IsFirstControl (a :: l) p := by
        rintro p ⟨before, behind, rfl, hp0, hbefore⟩
        refine ⟨a :: before, behind, rfl, hp0, fun q hq => ?_⟩
        rcases List.mem_cons.1 hq with rfl | hq
        · exact hqos
        · exact hbefore q hq
      split
      · obtain ⟨p, hp, hcontrol⟩ := ih (some a) (m.deadline now a) hrest
        exact ⟨p, hp, hfirst p hcontrol⟩
      · obtain ⟨p, hp, hcontrol⟩ := ih best bound hrest
        exact ⟨p, hp, hfirst p hcontrol⟩

theorem earliest_late (best : Option P) (hqos : ∀ q ∈ l, m.nQOS q ≠ 0) (hlate : ∀ q ∈ l, bound ≤ m.deadline now q) :
    m.earliest now best bound l = best := by
  induction l with
  | nil => rfl
  | cons a l ih =>
    unfold earliest
    rw [if_neg (hqos a List.mem_cons_self), if_neg (not_lt.2 (hlate a List.mem_cons_self))]
    exact ih (fun q hq => hqos q (List.mem_cons_of_mem a hq)) fun q hq => hlate q (List.mem_cons_of_mem a hq)

theorem earliest_least (best : Option P) (hqos : ∀ q ∈ l, m.nQOS q ≠ 0) (h : ∃ q ∈ l, m.deadline now q < bound) :
    ∃ p, m.earliest now best bound l = some p ∧ m.IsFirstEarliest now l p ∧ m.deadline now p < bound := by
  induction l generalizing best bound with
  | nil =>
    obtain ⟨q, hq, -⟩ := h
    cases hq
  | cons a l ih =>
    have hqos' : ∀ q ∈ l, m.nQOS q ≠ 0 := fun q hq => hqos q (List.mem_cons_of_mem a hq)
    -- the first of the least of the others comes before `a` if it is less
    have hfirst : ∀ p, m.IsFirstEarliest now l p → m.deadline now p < m.deadline now a →
        m.IsFirstEarliest now (a :: l) p := by
      rintro p ⟨-, before, behind, rfl, hbefore, hbehind⟩ hlt
      refine ⟨hqos, a :: before, behind, rfl, fun q hq => ?_, hbehind⟩
      rcases List.mem_cons.1 hq with rfl | hq
      · exact hlt
      · exact hbefore q hq
    unfold earliest
    rw [if_neg (hqos a List.mem_cons_self)]
    by_cases hlt : m.deadline now a < bound
    · rw [if_pos hlt]
      by_cases hless : ∃ q ∈ l, m.deadline now q < m.deadline now a
      · obtain ⟨p, hp, hleast, hpa⟩ := ih (some a) hqos' hless
        exact ⟨p, hp, hfirst p hleast hpa, hpa.trans hlt⟩
      · have hlate : ∀ q ∈ l, m.deadline now a ≤ m.deadline now q :=
          fun q hq => not_lt.1 fun hqa => hless ⟨q, hq, hqa⟩
        exact ⟨a, earliest_late (some a) hqos' hlate, ⟨hqos, [], l, rfl, fun q hq => absurd hq List.not_mem_nil, hlate⟩, hlt⟩
    · rw [if_neg hlt]
      have hrest : ∃ q ∈ l, m.deadline now q < bound := by
        obtain ⟨q, hq, hqb⟩ := h
        rcases List.mem_cons.1 hq with rfl | hq
        · exact absurd hqb hlt
        · exact ⟨q, hq, hqb⟩
      obtain ⟨p, hp, hleast, hpb⟩ := ih best hqos' hrest
      exact ⟨p, hp, hfirst p hleast (hpb.trans_le (not_lt.1 hlt)), hpb⟩

end Earliest

/-! ## The packet that is taken out -/

theorem beforeRound_yields {start : Option P} {prev : P}
    (h : Seg m.pstruNextPacket start (front ++ prev :: p :: rest) none) :
    Yields (m.beforeRound p) (· = some prev) start := by
  induction front generalizing start with
  | nil =>
    obtain ⟨rfl, hnext, -⟩ := h
    exact .of_inr (if_pos hnext) rfl
  | cons a front ih =>
    obtain ⟨rfl, hrest⟩ := h
    have hne : m.pstruNextPacket a ≠ some p := by
      intro heq
      -- the list from `p` would be its own proper part
      obtain ⟨-, -, -, hbehind⟩ := seg_append.1 hrest
      rw [heq] at hrest
      have hpart : Seg m.pstruNextPacket (some p) (p :: rest) none := ⟨rfl, hbehind.2⟩
      have hsame : front ++ prev :: p :: rest = p :: rest := hrest.unique hpart
      have hlength := congrArg List.length hsame
      rw [List.length_append, List.length_cons, List.length_cons] at hlength
      omega
    exact .of_inl (if_neg hne) (ih hrest)

/-- The packet leaves, and the others stay as they are. -/
theorem takeOut_gives (h : m.Holds l) (hp : p ∈ l) :
    ∃ m', Gives (fun rounds => m.takeOut rounds p) m' ∧ m'.Holds (l.erase p) := by
  have hnodup := h.seg.nodup
  obtain ⟨front, rest, rfl⟩ := List.append_of_mem hp
  have hnext : m.pstruNextPacket p = rest.head? := h.seg.next_eq
  have hfront : p ∉ front := by
    rw [List.nodup_append] at hnodup
    exact fun hmem => hnodup.2.2 p hmem p List.mem_cons_self rfl
  have herase : (front ++ p :: rest).erase p = front ++ rest := by
    rw [List.erase_append_right _ hfront, List.erase_cons_head]
  have hout : p ∉ front ++ rest := by
    rw [← herase]
    exact hnodup.not_mem_erase
  rw [herase]
  rcases List.eq_nil_or_concat' front with rfl | ⟨front, prev, rfl⟩
  · have hhead : m.pstruPacketlist = some p := h.seg.1
    refine ⟨{ m.setNext p none with
      pstruPacketlist := m.pstruNextPacket p, last := if m.pstruNextPacket p = none then none else m.last }, ?_, ?_⟩
    · have htake : ∀ rounds, m.takeOut rounds p = some _ := fun rounds => if_pos hhead
      rw [funext htake]
      exact .const _
    · have hended : Ended m.pstruNextPacket (some p) m.last (p :: rest) := hhead ▸ h
      exact hended.remove_head.update_other hout none
  · have hhead : m.pstruPacketlist ≠ some p := by
      intro heq
      have hfirst := h.seg.head_eq
      rw [heq, List.head?_append_of_ne_nil _ (List.append_ne_nil_of_right_ne_nil front (List.cons_ne_nil prev []))] at hfirst
      exact hfront (List.mem_of_head? hfirst.symm)
    have hended : Ended m.pstruNextPacket m.pstruPacketlist m.last (front ++ prev :: p :: rest) := by
      rw [List.append_cons]
      exact h
    refine ⟨{ (m.setNext prev (m.pstruNextPacket p)).setNext p none with
      last := if m.pstruNextPacket p = none then some prev else m.last }, ?_, ?_⟩
    · have htake : (fun rounds => m.takeOut rounds p) = fun rounds => (Loop.run (m.beforeRound p) rounds m.pstruPacketlist).bind
          fun r => r.bind fun itr => some { (m.setNext itr (m.pstruNextPacket p)).setNext p none with
            last := if m.pstruNextPacket p = none then some itr else m.last } := funext fun rounds => if_neg hhead
      obtain ⟨r, rfl, hgives⟩ := (beforeRound_yields hended.seg).gives
      rw [htake]
      exact hgives.bind (.const _)
    · have hremoved := hended.remove
      rw [List.append_cons] at hremoved
      exact hremoved.update_other hout none

/-! ## Retrievals as a whole -/

/-- What is left without the packet that is returned. -/
def without (l : List P) : Option P → List P
  | none => l
  | some p => l.erase p

/-- **The packet that is due**: the first control packet, or else the first one with the least remaining time. -/
def IsDue (now : ℚ) (m : EdfMem P) (l : List P) : Option P → Prop
  | none => l = []
  | some p => m.IsFirstControl l p ∨ m.IsFirstEarliest now l p

/-- **A retrieval**, from the list `l`: the expired packets are dropped, the packet that is due is returned, the others stay
as they are, and a chain that is added then comes behind them. -/
structure Retrieves (now : ℚ) (m : EdfMem P) (l : List P) (m' : EdfMem P) (r : Option P) : Prop where
  due : m.IsDue now (m.kept now l) r
  ended : m'.Holds (without (m.kept now l) r)
  appends : ∀ p chain, Seg m'.pstruNextPacket (some p) chain none → (∀ x ∈ chain, x ∉ without (m.kept now l) r) →
    ∃ m'', Gives (fun rounds => m'.edfAdd rounds p) m'' ∧ m''.Holds (without (m.kept now l) r ++ chain)

/-- Among the packets that stay there is one that the bound of 2^64 lets through, if there is one at all. -/
def InRange (now : ℚ) (m : EdfMem P) (l : List P) : Prop :=
  m.kept now l ≠ [] → ∃ p ∈ m.kept now l, m.nQOS p = 0 ∨ m.deadline now p < 18446744073709551616

omit [DecidableEq P] in
theorem earliest_congr (h : m.SamePackets m') (best : Option P) (bound : ℚ) :
    m'.earliest now best bound l = m.earliest now best bound l := by
  induction l generalizing best bound with
  | nil => rfl
  | cons a l ih =>
    unfold earliest
    rw [h.deadline, h.1, ih, ih]

omit [DecidableEq P] in
/-- The second pass finds the packet that is due if the bound lets one through. -/
theorem isDue_earliest_iff (now : ℚ) (m : EdfMem P) (l : List P) :
    m.IsDue now l (m.earliest now none 18446744073709551616 l) ↔
      (l ≠ [] → ∃ p ∈ l, m.nQOS p = 0 ∨ m.deadline now p < 18446744073709551616) := by
  by_cases hcontrol : ∃ p ∈ l, m.nQOS p = 0
  · obtain ⟨p, hp, hfirst⟩ := earliest_control now none 18446744073709551616 hcontrol
    rw [hp]
    refine iff_of_true (.inl hfirst) fun _ => ?_
    obtain ⟨q, hq, hq0⟩ := hcontrol
    exact ⟨q, hq, .inl hq0⟩
  · have hqos : ∀ q ∈ l, m.nQOS q ≠ 0 := fun q hq hq0 => hcontrol ⟨q, hq, hq0⟩
    by_cases hless : ∃ q ∈ l, m.deadline now q < 18446744073709551616
    · obtain ⟨p, hp, hleast, -⟩ := earliest_least none hqos hless
      rw [hp]
      refine iff_of_true (.inr hleast) fun _ => ?_
      obtain ⟨q, hq, hq64⟩ := hless
      exact ⟨q, hq, .inr hq64⟩
    · have hlate : ∀ q ∈ l, 18446744073709551616 ≤ m.deadline now q :=
        fun q hq => not_lt.1 fun hlt => hless ⟨q, hq, hlt⟩
      rw [earliest_late none hqos hlate]
      constructor
      · exact fun hnil hne => absurd hnil hne
      · intro hrange
        by_contra hne
        obtain ⟨q, hq, hq0 | hq64⟩ := hrange hne
        · exact hqos q hq hq0
        · exact hless ⟨q, hq, hq64⟩

omit [DecidableEq P] in
/-- The packet that the second pass finds is one of them. -/
theorem mem_of_earliest {best : Option P} {bound : ℚ} (h : m.earliest now best bound l = some p) : p ∈ l ∨ best = some p := by
  induction l generalizing best bound with
  | nil => exact .inr h
  | cons a l ih =>
    unfold earliest at h
    split at h
    · obtain rfl := Option.some.inj h
      exact .inl List.mem_cons_self
    · split at h
      · rcases ih h with hp | hp
        · exact .inl (List.mem_cons_of_mem a hp)
        · obtain rfl := Option.some.inj hp
          exact .inl List.mem_cons_self
      · rcases ih h with hp | hp
        · exact .inl (List.mem_cons_of_mem a hp)
        · exact .inr hp

omit [DecidableEq P] in
theorem lastRound_yields {start : P} (h : Seg m.pstruNextPacket (some start) chain none) :
    Yields m.lastRound (fun p => some p = chain.getLast?) start := by
  induction chain generalizing start with
  | nil => cases h
  | cons a chain ih =>
    obtain ⟨hstart, hrest⟩ := h
    obtain rfl := Option.some.inj hstart
    have hnext : m.pstruNextPacket start = chain.head? := hrest.head_eq
    cases chain with
    | nil =>
      have hround : m.lastRound start = .inr start := by
        unfold lastRound
        rw [hnext]
        rfl
      exact .of_inr hround rfl
    | cons b chain =>
      have hround : m.lastRound start = .inl b := by
        unfold lastRound
        rw [hnext]
        rfl
      rw [hnext] at hrest
      rw [List.getLast?_cons_cons]
      exact .of_inl hround (ih hrest)

/-- **A chain is added** behind the last packet. -/
theorem edfAdd_gives (h : m.Holds l) (hchain : Seg m.pstruNextPacket (some p) chain none) (hnew : ∀ x ∈ chain, x ∉ l) :
    ∃ m', Gives (fun rounds => m.edfAdd rounds p) m' ∧ m'.Holds (l ++ chain) := by
  have hne : chain ≠ [] := by
    rintro rfl
    cases hchain
  obtain ⟨z, hz, hgives⟩ := (lastRound_yields hchain).gives
  have hhead := h.seg.head_eq
  have hlast := h.last
  cases l with
  | nil =>
    refine ⟨{ m with pstruPacketlist := some p, last := some z }, ?_, hchain, hz⟩
    have hadd : (fun rounds => m.edfAdd rounds p) = fun rounds => (run m.lastRound rounds p).bind fun z =>
        some { m with pstruPacketlist := some p, last := some z } := by
      funext rounds
      unfold edfAdd
      rw [hhead]
      rfl
    rw [hadd]
    exact hgives.bind (.const _)
  | cons a l =>
    obtain ⟨y, hy⟩ := Option.ne_none_iff_exists'.1 (mt List.getLast?_eq_none_iff.1 (List.cons_ne_nil a l))
    rw [hy] at hlast
    refine ⟨{ m.setNext y (some p) with last := some z }, ?_, ?_⟩
    · have hadd : (fun rounds => m.edfAdd rounds p) = fun rounds => (run m.lastRound rounds p).bind fun z =>
          some { m.setNext y (some p) with last := some z } := by
        funext rounds
        unfold edfAdd
        rw [hhead, hlast]
        rfl
      rw [hadd]
      exact hgives.bind (.const _)
    · have hended : Ended m.pstruNextPacket m.pstruPacketlist (some y) (a :: l) := hlast ▸ h
      have happended := hended.append hchain hne hnew
      rw [← hz] at happended
      exact happended

/-- The packet that is returned has left the list. -/
theorem answer_gives {r : Option P} (h : m.Holds l) (hr : ∀ p, r = some p → p ∈ l) :
    ∃ m', Gives (fun rounds => m.answer rounds true r) (m', r) ∧ m'.Holds (without l r) := by
  cases r with
  | none => exact ⟨m, .const _, h⟩
  | some p =>
    obtain ⟨m', hgives, hended⟩ := takeOut_gives h (hr p rfl)
    have hanswer : (fun rounds => m.answer rounds true (some p)) = fun rounds =>
        (m.takeOut rounds p).bind fun m' => some (m', some p) := by
      funext rounds
      exact Option.map_eq_bind
    rw [hanswer]
    exact ⟨m', hgives.bind (.const _), hended⟩

/-- A retrieval ends with what the second pass finds among the packets that stay. -/
theorem edfGet_gives (h : m.Holds l) (now : ℚ) :
    ∃ m' r, Gives (fun rounds => m.edfGet rounds now true) (m', r) ∧
      r = m.earliest now none 18446744073709551616 (m.kept now l) ∧ m'.Holds (without (m.kept now l) r) := by
  have hholds : m.Holds ([] ++ l) := h
  have hdrop := dropRound_yields now m.pstruPacketlist hholds fun hne => absurd rfl hne
  rw [← h.seg.head_eq] at hdrop
  obtain ⟨-, ⟨m₁, rfl, hheld, hsame⟩, hfirst⟩ := hdrop.gives
  rw [List.nil_append] at hheld
  have hstart : Seg m₁.pstruNextPacket (m.kept now l).head? (m.kept now l) none := hheld.seg.head_eq ▸ hheld.seg
  have hsecond := earliestRound_yields now hstart none 18446744073709551616
  rw [← hheld.seg.head_eq, earliest_congr hsame] at hsecond
  obtain ⟨r, hr, hgives⟩ := hsecond.gives
  have hmem : ∀ p, r = some p → p ∈ m.kept now l := by
    intro p hp
    rw [hp] at hr
    exact (mem_of_earliest hr.symm).resolve_right (Option.some_ne_none p).symm
  obtain ⟨m', hanswer, hended⟩ := answer_gives hheld hmem
  exact ⟨m', r, hfirst.bind (hgives.bind hanswer), hr, hended⟩

end EdfMem

open EdfMem in
/-- **EDF**: a retrieval ends, drops exactly the packets whose deadline has passed, keeps the order of the others and the
pointer to the last one; it returns the packet that is due, for every queue, time and table of latencies for which one of the
packets that stay is a control packet or has a remaining time below 2^64, and for no others. -/
theorem edf_retrieval (m : EdfMem P) (l : List P) (now : ℚ) (h : m.Holds l) :
    ∃ m' r, Gives (fun rounds => m.edfGet rounds now true) (m', r) ∧ m'.Holds (without (m.kept now l) r) ∧
      (m.Retrieves now l m' r ↔ m.InRange now l) := by
  obtain ⟨m', r, hgives, hr, hended⟩ := edfGet_gives h now
  refine ⟨m', r, hgives, hended, ?_⟩
  rw [InRange, ← isDue_earliest_iff, ← hr]
  exact ⟨fun h => h.due, fun hdue => ⟨hdue, hended, fun p chain hchain hnew => edfAdd_gives hended hchain hnew⟩⟩

/-! ## The buffer as a list of packets -/

namespace EdfMem

variable {m m' : EdfMem P} {now : ℚ} {p : P} {l front : List P} {b : IfBuffer} {packet : P → BufPacket}

/-- The buffer `b` has the parameters of EDF, and `packet` the fields of the packets. -/
structure Views (m : EdfMem P) (b : IfBuffer) (packet : P → BufPacket) : Prop where
  latency : b.maxLatency = m.maxLatency
  qos : ∀ p, (packet p).nQOS = m.nQOS p
  time : ∀ p, (packet p).dEventTime = m.dEventTime p

omit [DecidableEq P]

theorem Views.deadline (h : m.Views b packet) (now : ℚ) (p : P) : b.deadline now (packet p) = m.deadline now p := by
  unfold IfBuffer.deadline EdfMem.deadline
  rw [h.latency, h.qos, h.time]

theorem Views.kept (h : m.Views b packet) (now : ℚ) (l : List P) :
    (l.map packet).filter (fun p => !b.isExpired now p) = (m.kept now l).map packet := by
  have hexpired : ∀ p, b.isExpired now (packet p) = m.isExpired now p := by
    intro p
    unfold IfBuffer.isExpired EdfMem.isExpired
    rw [h.qos, h.deadline]
  rw [List.filter_map]
  unfold EdfMem.kept
  have hsame : (fun p => !b.isExpired now p) ∘ packet = fun p => !m.isExpired now p := by
    funext p
    rw [Function.comp_apply, hexpired]
  rw [hsame]

/-- The place that the list has for the packet which the second pass finds. -/
theorem Views.earliestFrom (h : m.Views b packet) (now : ℚ) (front l : List P) (place : Option ℕ) (best : Option P) (bound : ℚ)
    (hbest : best = place.bind fun i => (front ++ l)[i]?) :
    m.earliest now best bound l =
      (b.earliestFrom now front.length place bound (l.map packet)).bind fun i => (front ++ l)[i]? := by
  induction l generalizing front place best bound with
  | nil => exact hbest
  | cons a l ih =>
    have hat : (front ++ a :: l)[front.length]? = some a := by
      rw [List.getElem?_append_right (le_refl _), Nat.sub_self, List.getElem?_cons_zero]
    have hsplit : front ++ a :: l = (front ++ [a]) ++ l := List.append_cons front a l
    have hlength : front.length + 1 = (front ++ [a]).length := by
      rw [List.length_append, List.length_singleton]
    rw [List.map_cons]
    unfold earliest IfBuffer.earliestFrom
    rw [h.qos, h.deadline]
    split
    · exact hat.symm
    · split
      · rw [hsplit, hlength]
        refine ih (front ++ [a]) (some front.length) (some a) (m.deadline now a) ?_
        rw [← hsplit]
        exact hat.symm
      · rw [hsplit, hlength]
        refine ih (front ++ [a]) place best bound ?_
        rw [← hsplit]
        exact hbest

end EdfMem

open EdfMem in
/-- **The buffer as a list of packets does the same**: what it returns and keeps are the packets that the memory returns and
keeps. -/
theorem edfGet_refines (m : EdfMem P) (b : IfBuffer) (packet : P → BufPacket) (l : List P) (now : ℚ) (h : m.Holds l)
    (hviews : m.Views b packet) (hlist : b.packetList = l.map packet) :
    ∃ m' r l', Gives (fun rounds => m.edfGet rounds now true) (m', r) ∧ m'.Holds l' ∧
      (b.edfGet now true).2 = r.map packet ∧ (b.edfGet now true).1.packetList = l'.map packet := by
  obtain ⟨m', r, hgives, hr, hended⟩ := edfGet_gives h now
  refine ⟨m', r, _, hgives, hended, ?_⟩
  have hdropped : (b.dropExpired now).packetList = (m.kept now l).map packet := by
    have hkept := hviews.kept now l
    rw [← hlist] at hkept
    exact hkept
  have hviews' : m.Views (b.dropExpired now) packet := ⟨hviews.latency, hviews.qos, hviews.time⟩
  have hfound := hviews'.earliestFrom now [] (m.kept now l) none none 18446744073709551616 rfl
  rw [← hr, ← hdropped] at hfound
  unfold IfBuffer.edfGet
  dsimp only
  cases hplace : (b.dropExpired now).earliestFrom now 0 none 18446744073709551616 (b.dropExpired now).packetList with
  | none =>
    rw [List.length_nil, hplace] at hfound
    rw [hfound]
    exact ⟨rfl, hdropped⟩
  | some i =>
    rw [List.length_nil, hplace] at hfound
    have hat : r = (m.kept now l)[i]? := hfound
    dsimp only
    rw [if_pos rfl, hdropped, List.getElem?_map, ← hat]
    refine ⟨rfl, ?_⟩
    dsimp only
    rw [List.eraseIdx_map]
    cases r with
    | none =>
      rw [List.eraseIdx_of_length_le (List.getElem?_eq_none_iff.1 hat.symm)]
      rfl
    | some p =>
      obtain ⟨hi, hp⟩ := List.getElem?_eq_some_iff.1 hat.symm
      have hnodup : (m.kept now l).Nodup := h.seg.nodup.filter _
      rw [without, ← hp, hnodup.erase_getElem]

/-- An expired packet, one with some time left, and a control packet, with 100 ms for each class. -/
def edfQueue : EdfMem ℕ where
  pstruPacketlist := some 1
  last := some 3
  pstruNextPacket p := if p = 1 then some 2 else if p = 2 then some 3 else none
  nQOS p := if p = 3 then 0 else 1
  dEventTime p := if p = 1 then 0 else 150000
  maxLatency _ := 100

/-- The control packet is returned, and one packet is left. -/
theorem edf_retrieval_control : ∃ m', Gives (fun rounds => edfQueue.edfGet rounds 200000 true) (m', some 3) ∧
    edfQueue.Retrieves 200000 [1, 2, 3] m' (some 3) ∧ m'.Holds [2] := by
  have hholds : edfQueue.Holds [1, 2, 3] := ⟨⟨rfl, rfl, rfl, rfl⟩, rfl⟩
  obtain ⟨m', r, hgives, hended, hiff⟩ := edf_retrieval edfQueue [1, 2, 3] 200000 hholds
  have hreturned : (edfQueue.edfGet 5 200000 true).map Prod.snd = some (some 3) := by decide +kernel
  obtain ⟨result, hresult, hthird⟩ := Option.map_eq_some_iff.1 hreturned
  have hr : r = some 3 := by
    rw [hgives.unique 5 result hresult] at hthird
    exact hthird
  have hkept : edfQueue.kept 200000 [1, 2, 3] = [2, 3] := by decide +kernel
  subst hr
  rw [hkept] at hended
  refine ⟨m', hgives, hiff.2 fun _ => ⟨3, ?_, .inl rfl⟩, hended⟩
  rw [hkept]
  decide

/-- The fields of the packets. -/
def edfPacket (p : ℕ) : BufPacket := ⟨some 1000, 0, none, edfQueue.nQOS p, edfQueue.dEventTime p⟩

def edfBuffer : IfBuffer where
  nSchedulingType := .edf
  queuingTechnique := .dropTail
  dMaxBufferSize := 1
  dCurrentBufferSize := 3000
  queuingParam := ⟨0, 0, 0, ⟨0, 0, 0, -1, 0⟩, fun _ => ⟨0, 0, 0, -1, 0⟩⟩
  maxLatency := fun _ => 100
  packetList := [1, 2, 3].map edfPacket
  prioLists := none

/-- The list of the three packets is what the memory holds. -/
theorem edfGet_refines_control : ∃ m' r l', Gives (fun rounds => edfQueue.edfGet rounds 200000 true) (m', r) ∧ m'.Holds l' ∧
    (edfBuffer.edfGet 200000 true).2 = r.map edfPacket ∧ (edfBuffer.edfGet 200000 true).1.packetList = l'.map edfPacket :=
  edfGet_refines edfQueue edfBuffer edfPacket [1, 2, 3] 200000 ⟨⟨rfl, rfl, rfl, rfl⟩, rfl⟩ ⟨rfl, fun _ => rfl, fun _ => rfl⟩ rfl

/-- A packet with a latency of 2^64 ms is not served. -/
theorem edf_keeps_late : ¬ ∀ (m : EdfMem ℕ) (l : List ℕ) (now : ℚ) (m' : EdfMem ℕ) (r : Option ℕ), m.Holds l →
    Gives (fun rounds => m.edfGet rounds now true) (m', r) → m.Retrieves now l m' r := by
  intro hall
  have hholds : EdfMem.Holds ⟨some 1, some 1, fun _ => none, fun _ => 1, fun _ => 0, fun _ => 18446744073709551616⟩ [1] :=
    ⟨⟨rfl, rfl⟩, rfl⟩
  obtain ⟨m', r, hgives, -, hiff⟩ := edf_retrieval _ [1] 0 hholds
  have hrange := hiff.1 (hall _ [1] 0 m' r hholds hgives)
  obtain ⟨p, -, hzero | hlt⟩ := hrange (by decide +kernel)
  · cases hzero
  · have hlate : ¬ (18446744073709551616 * 1000 - (0 - 0) : ℚ) < 18446744073709551616 := by decide +kernel
    exact hlate hlt

end NetSim.Scheduling
