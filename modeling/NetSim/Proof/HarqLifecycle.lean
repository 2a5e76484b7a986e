import Mathlib.Algebra.BigOperators.Group.Finset.Basic
import Mathlib.Algebra.Order.BigOperators.Group.Finset
import Mathlib.Data.List.Induction
import NetSim.Proof.HarqSlot

/-!
# The life of a transport block

Every packet that the RLC hands over is in one place: in the buffer of one process,
delivered, or dropped (`RunInv.placed`). A process holds packets only while its block is in
error, and counts the transmissions of that block in `transmissionNumber`
(`ProcessInv`). So packets are delivered once and exactly when their block is decoded, and
dropped after as many transmissions as the retry limit allows (`HarqRun.lifecycle`).
-/

namespace NetSim.Harq

open Finset

/-- What every process keeps between slots. -/
structure ProcessInv (c : HarqConfig) (p : HarqProcess) (attempts : ℕ) : Prop where
  waiting : p.packetBuffer ≠ [] → ¬ p.AllDecoded
  attempts_eq : p.packetBuffer ≠ [] → attempts = p.transmissionNumber + 1
  number_lt : p.packetBuffer ≠ [] → p.transmissionNumber = 0 ∨ p.transmissionNumber < c.retryLimit

/-- The number of places at which a packet is. -/
def HarqRun.places (c : HarqConfig) (s : HarqRun) (x : ℕ) : ℕ :=
  (s.deliveries.flatMap (·.packets)).count x + (s.drops.flatMap (·.packets)).count x +
    ∑ i ∈ range c.maxProcessCount, (s.entity.harqProcess i).packetBuffer.count x

/-- A step that loads no new block leaves every decoded code block decoded. -/
def HarqRun.StaysDecoded (c : HarqConfig) (slot : Slot) (s s' : HarqRun) : Prop :=
  ∀ i, ¬ (i = s.entity.upcoming c ∧ slot.allocatedPRBCount ≠ 0) → ∀ l g b,
    (s.entity.harqProcess i).status l g b = some .noError →
      (s'.entity.harqProcess i).status l g b ≠ some .error ∧
        ((s'.entity.harqProcess i).packetBuffer ≠ [] →
          (s'.entity.harqProcess i).status l g b = some .noError)

/-- **The life of the blocks of a run.** -/
structure HarqRun.Lifecycle (c : HarqConfig) (s : HarqRun) : Prop where
  /-- No packet is delivered twice. -/
  once : (s.deliveries.flatMap (·.packets)).Nodup
  /-- Every packet stored so far is in exactly one place. -/
  placed : ∀ x, s.places c x = if x < s.next then 1 else 0
  /-- Packets are delivered with a decoded block only, -/
  decoded : ∀ d ∈ s.deliveries, d.packets ≠ [] → d.block.AllDecoded
  /-- and do not wait in a process whose block is decoded. -/
  waiting : ∀ i < c.maxProcessCount, (s.entity.harqProcess i).packetBuffer ≠ [] →
    ¬ (s.entity.harqProcess i).AllDecoded
  /-- Packets are dropped after exactly the retry limit of transmissions, of which there is at
  least one. -/
  retried : ∀ d ∈ s.drops, d.packets ≠ [] → d.attempts = max 1 c.retryLimit
  index : s.slots ≠ 0 → 1 ≤ s.entity.currentProcessId ∧
    s.entity.currentProcessId ≤ c.maxProcessCount

structure HarqRun.RunInv (c : HarqConfig) (s : HarqRun) : Prop where
  process : ∀ i, ProcessInv c (s.entity.harqProcess i) (s.attempts i)
  placed : ∀ x, s.places c x = if x < s.next then 1 else 0
  decoded : ∀ d ∈ s.deliveries, d.packets ≠ [] → d.block.AllDecoded
  retried : ∀ d ∈ s.drops, d.packets ≠ [] → d.attempts = max 1 c.retryLimit
  index : s.slots ≠ 0 → 1 ≤ s.entity.currentProcessId ∧
    s.entity.currentProcessId ≤ c.maxProcessCount

/-! ## One move -/

section Move

variable {c : HarqConfig} {slot : Slot} {stored : List ℕ} {p q : HarqProcess} {dropped : List ℕ}
  {reports : List (ℕ × PacketStatus)} {delivered : List ℕ}

theorem Sent.packets (h : Sent q stored delivered) : delivered ++ q.packetBuffer = stored := by
  by_cases hall : q.AllDecoded
  · obtain ⟨hbuf, hdel⟩ := h.decoded hall
    rw [hbuf, hdel, List.append_nil]
  · obtain ⟨hbuf, hdel⟩ := h.kept hall
    rw [hbuf, hdel, List.nil_append]

theorem Sent.waiting (h : Sent q stored delivered) (hne : q.packetBuffer ≠ []) : ¬ q.AllDecoded :=
  fun hall => hne (h.decoded hall).1

theorem Sent.allDecoded (h : Sent q stored delivered) (hne : delivered ≠ []) : q.AllDecoded := by
  by_contra hnot
  exact hne (h.kept hnot).2

/-- A move neither loses nor doubles a packet. -/
theorem SlotMove.count (h : SlotMove c slot stored p q dropped reports delivered) (x : ℕ) :
    delivered.count x + dropped.count x + q.packetBuffer.count x =
      p.packetBuffer.count x + stored.count x := by
  cases h with
  | load cleared _ _ _ _ _ _ sent =>
    -- what the process held is dropped, and the new packets are kept or delivered
    have hcount := congrArg (List.count x) sent.packets
    rw [List.count_append] at hcount
    rw [cleared.eq]
    omega
  | idle cleared _ _ _ _ _ _ buffer hstored hsent =>
    rw [cleared.eq, buffer, hstored, hsent]
    simp
  | retransmit hdropped _ _ _ _ _ _ hstored _ sent =>
    have hcount := congrArg (List.count x) sent.packets
    rw [List.count_append] at hcount
    rw [hdropped, hstored, List.count_nil]
    omega

theorem SlotMove.allDecoded (h : SlotMove c slot stored p q dropped reports delivered)
    (hne : delivered ≠ []) : q.AllDecoded := by
  cases h with
  | load _ _ _ _ _ _ _ sent => exact sent.allDecoded hne
  | idle _ _ _ _ _ _ _ _ _ hsent => exact absurd hsent hne
  | retransmit _ _ _ _ _ _ _ _ _ sent => exact sent.allDecoded hne

/-- Dropped packets have used up the retry limit. -/
theorem SlotMove.retried (h : SlotMove c slot stored p q dropped reports delivered) {n : ℕ}
    (hp : ProcessInv c p n) (hne : dropped ≠ []) : n = max 1 c.retryLimit := by
  have hclear : Cleared c p dropped := by
    cases h with
    | load cleared => exact cleared
    | idle cleared => exact cleared
    | retransmit hdropped => exact absurd hdropped hne
  have hheld : p.packetBuffer ≠ [] := hclear.eq ▸ hne
  have hn := hp.attempts_eq hheld
  have hlt := hp.number_lt hheld
  have hle := hclear.limit hheld
  omega

/-- A new block has been transmitted once; each retransmission adds one to both counts. -/
theorem SlotMove.processInv (h : SlotMove c slot stored p q dropped reports delivered) {n : ℕ}
    (hp : ProcessInv c p n) : ProcessInv c q (attemptsAfter slot q n) := by
  cases h with
  | load _ grant ndi number _ _ _ sent =>
    constructor
    · exact sent.waiting
    · intro _
      unfold attemptsAfter
      rw [if_pos ⟨ndi, grant⟩, number]
    · intro _
      exact .inl number
  | idle _ _ _ _ _ _ _ buffer _ _ =>
    exact ⟨fun hne => absurd buffer hne, fun hne => absurd buffer hne, fun hne => absurd buffer hne⟩
  | retransmit _ _ ndi held limit number _ _ _ sent =>
    constructor
    · exact sent.waiting
    · intro _
      have hn := hp.attempts_eq held
      unfold attemptsAfter
      rw [if_neg (by simp [ndi]), if_neg (by simp [ndi]), number, hn]
    · intro _
      right
      omega

/-- Unless it loads a block, a move turns no decoded code block into one in error. -/
theorem SlotMove.staysDecoded (h : SlotMove c slot stored p q dropped reports delivered)
    (hgrant : slot.allocatedPRBCount = 0) {l g b : ℕ} (hs : p.status l g b = some .noError) :
    q.status l g b ≠ some .error ∧ (q.packetBuffer ≠ [] → q.status l g b = some .noError) := by
  cases h with
  | load _ grant => exact absurd hgrant grant
  | idle _ _ _ _ _ _ groups buffer _ _ =>
    -- a process that is reset has no code blocks
    have hnone : q.status l g b = none := by
      unfold HarqProcess.status
      cases hl : q.transmissionBuffer[l]? with
      | none => rfl
      | some layer =>
        have hgroups := groups layer (List.mem_of_getElem? hl)
        simp [hgroups]
    rw [hnone]
    exact ⟨by simp, fun hne => absurd buffer hne⟩
  | retransmit _ _ _ _ _ _ _ _ status _ =>
    -- `DecideCBGError` draws again only for code blocks in error
    have hq : q.status l g b = some .noError := by
      rw [status, hs, Option.map_some]
      unfold HarqProcess.decideCb
      rw [if_neg]
      simp
    rw [hq]
    exact ⟨by simp, fun _ => rfl⟩

end Move

/-! ## Runs -/

theorem sum_update (c : HarqConfig) (f : ℕ → ℕ) {i : ℕ} (hi : i < c.maxProcessCount) (v : ℕ) :
    (∑ j ∈ range c.maxProcessCount, Function.update f i v j) + f i =
      (∑ j ∈ range c.maxProcessCount, f j) + v := by
  have hmem : i ∈ range c.maxProcessCount := mem_range.2 hi
  have hnew := Finset.sum_erase_add _ (Function.update f i v) hmem
  have hold := Finset.sum_erase_add _ f hmem
  have hrest : ∑ j ∈ (range c.maxProcessCount).erase i, Function.update f i v j =
      ∑ j ∈ (range c.maxProcessCount).erase i, f j := by
    apply Finset.sum_congr rfl
    intro j hj
    exact Function.update_of_ne (Finset.ne_of_mem_erase hj) _ _
  rw [Function.update_self] at hnew
  omega

theorem count_stored (next n x : ℕ) :
    ((List.range n).map (next + ·)).count x = if next ≤ x ∧ x < next + n then 1 else 0 := by
  induction n with
  | zero =>
    rw [if_neg (by omega)]
    rfl
  | succ n ih =>
    rw [List.range_succ, List.map_append, List.count_append, ih, List.map_singleton,
      List.count_singleton]
    by_cases h : next + n = x
    · subst h
      have hbefore : ¬ (next ≤ next + n ∧ next + n < next + n) := by omega
      have hlast : next ≤ next + n ∧ next + n < next + (n + 1) := by omega
      rw [if_neg hbefore, if_pos hlast]
      simp
    · have hcond : (next ≤ x ∧ x < next + (n + 1)) ↔ (next ≤ x ∧ x < next + n) := by omega
      simp only [hcond]
      simp [h]

namespace HarqRun

variable {c : HarqConfig} {s s' : HarqRun} {slot : Slot}

theorem runInv_init (c : HarqConfig) : RunInv c init where
  process := fun _ => ⟨fun h => absurd rfl h, fun h => absurd rfl h, fun h => absurd rfl h⟩
  placed := by
    intro x
    simp [places, init, HarqEntity.init, HarqProcess.init]
  decoded := by
    intro d hd
    cases hd
  retried := by
    intro d hd
    cases hd
  index := fun h => absurd rfl h

/-- **A slot stores its packets and loses none**: the new ones get a place, the others keep theirs. -/
theorem places_step (h : step c s slot = some s') (x : ℕ) :
    s'.places c x = s.places c x + if s.next ≤ x ∧ x < s.next + slot.packets then 1 else 0 := by
  obtain ⟨q, stored, dropped, reports, delivered, hmove, hstored, hproc, -, -, -, -, hdel, hdrop, -⟩ :=
    step_move h
  have hlt := s.entity.upcoming_lt c
  generalize s.entity.upcoming c = i at hmove hproc hdrop hlt
  have hcount := hmove.count x
  rw [hstored, count_stored] at hcount
  -- only the buffer of the process `i` has changed
  have hsum := sum_update c (fun j => (s.entity.harqProcess j).packetBuffer.count x) hlt
    (q.packetBuffer.count x)
  have hcomp : ∀ j, (Function.update s.entity.harqProcess i q j).packetBuffer.count x =
      Function.update (fun j => (s.entity.harqProcess j).packetBuffer.count x) i
        (q.packetBuffer.count x) j := by
    intro j
    by_cases hj : j = i
    · subst hj
      rw [Function.update_self, Function.update_self]
    · rw [Function.update_of_ne hj, Function.update_of_ne hj]
  unfold places
  rw [hdel, hdrop, hproc]
  simp only [hcomp, List.flatMap_append, List.flatMap_singleton, List.count_append]
  omega

theorem runInv_step (hi : RunInv c s) (h : step c s slot = some s') : RunInv c s' := by
  have hplaces := places_step h
  obtain ⟨q, stored, dropped, reports, delivered, hmove, -, hproc, hid, -, hnext, hatt,
    hdel, hdrop, -, -, -⟩ := step_move h
  generalize s.entity.upcoming c = i at hmove hproc hatt hdrop
  have hp := hi.process i
  constructor
  · intro j
    rw [hproc, hatt]
    by_cases hj : j = i
    · subst hj
      rw [Function.update_self, Function.update_self]
      exact hmove.processInv hp
    · -- the other processes are as they were
      rw [Function.update_of_ne hj, Function.update_of_ne hj]
      exact hi.process j
  · intro x
    rw [hplaces x, hi.placed x, hnext]
    by_cases hold : x < s.next
    · have hnew : ¬ (s.next ≤ x ∧ x < s.next + slot.packets) := by omega
      have hlt : x < s.next + slot.packets := by omega
      rw [if_pos hold, if_neg hnew, if_pos hlt]
    · have hcond : (s.next ≤ x ∧ x < s.next + slot.packets) ↔ x < s.next + slot.packets := by omega
      rw [if_neg hold, Nat.zero_add]
      simp only [hcond]
  · rw [hdel]
    intro d hd hne
    rcases List.mem_append.1 hd with hd | hd
    · exact hi.decoded d hd hne
    · obtain rfl := List.mem_singleton.1 hd
      exact hmove.allDecoded hne
  · rw [hdrop]
    intro d hd hne
    rcases List.mem_append.1 hd with hd | hd
    · exact hi.retried d hd hne
    · obtain rfl := List.mem_singleton.1 hd
      exact hmove.retried hp hne
  · intro _
    rw [hid]
    exact c.nextProcessId_mem _

theorem reach_runInv (h : (machine c).Reach s) : RunInv c s := by
  apply h.inv
  · rintro _ rfl
    exact runInv_init c
  · intro s slot s' hi _ hs
    exact runInv_step hi hs

theorem RunInv.holds (hi : RunInv c s) : Lifecycle c s where
  once := by
    apply List.nodup_iff_count_le_one.2
    intro x
    have hplaced := hi.placed x
    unfold places at hplaced
    by_cases hx : x < s.next
    · rw [if_pos hx] at hplaced
      omega
    · rw [if_neg hx] at hplaced
      omega
  placed := hi.placed
  decoded := hi.decoded
  waiting := fun i _ => (hi.process i).waiting
  retried := hi.retried
  index := hi.index

theorem step_staysDecoded (h : step c s slot = some s') : StaysDecoded c slot s s' := by
  obtain ⟨q, stored, dropped, reports, delivered, hmove, -, hproc, -⟩ := step_move h
  intro i hload l g b hs
  rw [hproc]
  by_cases hcur : i = s.entity.upcoming c
  · subst hcur
    have hgrant : slot.allocatedPRBCount = 0 := by
      by_contra hgrant
      exact hload ⟨rfl, hgrant⟩
    rw [Function.update_self]
    exact hmove.staysDecoded hgrant hs
  · rw [Function.update_of_ne hcur, hs]
    exact ⟨by simp, fun _ => rfl⟩

/-- **The life of a transport block**, in every state that a run reaches, and over its next step. -/
theorem lifecycle (h : (machine c).Reach s) :
    Lifecycle c s ∧ ∀ slot s', (machine c).step s slot = some s' → StaysDecoded c slot s s' := by
  constructor
  · exact (reach_runInv h).holds
  · intro slot s' hs
    exact step_staysDecoded hs

/-- Two processes, each block to be transmitted at most three times. -/
def twoProcesses : HarqConfig :=
  { oneProcess with maxProcessCount := 2, maxProcessCount_pos := by decide, maxProcessCount_le := by decide }

/-- A block of two code blocks that carries two packets. -/
def twoCodeBlocks (draw : ℕ → ℕ → ℕ → PacketStatus) : Slot :=
  ⟨10, [⟨100, ⟨2, 500, by decide⟩⟩], 2, draw⟩

def nothing (draw : ℕ → ℕ → ℕ → PacketStatus) : Slot := ⟨0, [], 0, draw⟩

/-- The second code block is in error at first, and decoded when it is transmitted again. -/
def secondAttempt : List Slot :=
  [twoCodeBlocks fun _ g _ => if g = 1 then .error else .noError,
    twoCodeBlocks fun _ _ _ => .error, nothing fun _ _ _ => .noError]

theorem lifecycle_secondAttempt :
    ∃ s, (machine twoProcesses).Reach s ∧ (s.deliveries.flatMap (·.packets)).length = 2 ∧
      Lifecycle twoProcesses s := by
  obtain ⟨s, hs, hlen⟩ := Machine.Reach.exists_of_exec
    (P := fun s : HarqRun => (s.deliveries.flatMap (·.packets)).length = 2) secondAttempt
    (Machine.ReachOn.init rfl : (machine twoProcesses).Reach init) (by decide)
  exact ⟨s, hs, hlen, (lifecycle hs).1⟩

/-- Before its first slot the number of the current process is 0. -/
theorem index_zero : ¬ ∀ (c : HarqConfig) (s : HarqRun), (machine c).Reach s →
    1 ≤ s.entity.currentProcessId ∧ s.entity.currentProcessId ≤ c.maxProcessCount := by
  intro hall
  obtain ⟨hone, -⟩ := hall twoProcesses init (.init rfl)
  exact absurd hone (by decide)

end HarqRun

end NetSim.Harq

/-!
## What the outer loop is told

A slot that loads a block reports each of its layers, a retransmission reports none. A slot
with nothing to transmit still reports a success for each layer that its process had when it
was last loaded: `ResetCBG` keeps `layerCount`. So the reports are those of the blocks
transmitted for the first time exactly as long as no process that was loaded before finds
itself idle (`HarqRun.reports_iff`).
-/

namespace NetSim.Harq

/-- The entries of a log that are about a layer. -/
def ofLayer (l : ℕ) (log : List (ℕ × PacketStatus)) : List (ℕ × PacketStatus) :=
  log.filter fun r => r.1 = l

/-- The outer loop of each layer is told the outcome of each block transmitted for the first time
once, and nothing else. -/
def HarqRun.ReportsFirst (s : HarqRun) : Prop := ∀ l, ofLayer l s.reports = ofLayer l s.outcomes

/-- No slot with nothing to transmit fell on a process that had been loaded before. -/
def HarqRun.NeverIdles (s : HarqRun) : Prop := ∀ layerCount ∈ s.idle, layerCount = 0

/-- What every run keeps. -/
structure HarqRun.ReportInv (s : HarqRun) : Prop where
  length : ∀ l, (ofLayer l s.reports).length =
    (ofLayer l s.outcomes).length + s.idle.countP fun layerCount => l < layerCount
  eq : s.NeverIdles → s.reports = s.outcomes

/-! ## One move -/

theorem ofLayer_append (l : ℕ) (a b : List (ℕ × PacketStatus)) :
    ofLayer l (a ++ b) = ofLayer l a ++ ofLayer l b := List.filter_append ..

/-- A list with one entry for each layer has one for a layer below its length. -/
theorem ofLayer_mapIdx_length (l : ℕ) (bs : List HarqBuffer) (f : HarqBuffer → PacketStatus) :
    (ofLayer l (bs.mapIdx fun i b => (i, f b))).length = if l < bs.length then 1 else 0 := by
  induction bs using List.reverseRecOn with
  | nil => rfl
  | append_singleton bs b ih =>
    rw [List.mapIdx_append, ofLayer_append, List.length_append, ih, List.length_append]
    by_cases h : bs.length = l
    · subst h
      simp [ofLayer]
    · have hne : (ofLayer l ([b].mapIdx fun i b => (i + bs.length, f b))).length = 0 := by
        simp [ofLayer, h]
      rw [hne]
      have hcond : l < bs.length + [b].length ↔ l < bs.length := by
        rw [List.length_singleton]
        omega
      simp only [hcond, Nat.add_zero]

section Move

variable {c : HarqConfig} {slot : Slot} {stored : List ℕ} {p q : HarqProcess} {dropped : List ℕ}
  {reports : List (ℕ × PacketStatus)} {delivered : List ℕ}

/-- What a move reports: the outcomes of a new block, one success for each layer of an idle
process, and nothing for a retransmission. -/
theorem SlotMove.reports_cases (h : SlotMove c slot stored p q dropped reports delivered) :
    (q.ndi = true ∧ slot.allocatedPRBCount ≠ 0 ∧ reports = HarqRun.outcomesOf q) ∨
      (q.ndi = true ∧ slot.allocatedPRBCount = 0 ∧
        reports = q.transmissionBuffer.mapIdx fun l b => (l, b.isErrored)) ∨
      (q.ndi = false ∧ reports = []) := by
  cases h with
  | load _ grant ndi _ _ flag report _ =>
    refine .inl ⟨ndi, grant, ?_⟩
    rw [report]
    unfold HarqRun.outcomesOf
    apply List.ext_getElem?
    intro l
    rw [List.getElem?_mapIdx, List.getElem?_mapIdx]
    cases hl : q.transmissionBuffer[l]? with
    | none => rfl
    | some b =>
      have hflag := flag b (List.mem_of_getElem? hl)
      rw [Option.map_some, Option.map_some]
      by_cases hdec : b.Decoded
      · rw [if_pos hdec, hflag.2 hdec]
      · rw [if_neg hdec]
        cases hb : b.isErrored with
        | noError => exact absurd (hflag.1 hb) hdec
        | error => rfl
  | idle _ grant ndi _ _ report _ _ _ _ => exact .inr (.inl ⟨ndi, grant, report⟩)
  | retransmit _ _ ndi _ _ _ report _ _ _ => exact .inr (.inr ⟨ndi, report⟩)

end Move

/-! ## Runs -/

namespace HarqRun

variable {c : HarqConfig} {s s' : HarqRun} {slot : Slot}

theorem reportInv_init : ReportInv init where
  length := fun _ => rfl
  eq := fun _ => rfl

theorem reportInv_step (hi : ReportInv s) (h : step c s slot = some s') : ReportInv s' := by
  obtain ⟨q, stored, dropped, reports, delivered, hmove, -, -, -, -, -, -, -, -, hrep, hout, hidle⟩ :=
    step_move h
  rcases hmove.reports_cases with ⟨hndi, hgrant, rfl⟩ | ⟨hndi, hgrant, rfl⟩ | ⟨hndi, rfl⟩
  · -- a new block
    rw [if_pos ⟨hndi, hgrant⟩] at hout
    rw [if_neg (fun h => hgrant h.2), List.append_nil] at hidle
    constructor
    · intro l
      have hl := hi.length l
      rw [hrep, hout, hidle, ofLayer_append, ofLayer_append, List.length_append, List.length_append]
      omega
    · intro hnever
      unfold NeverIdles at hnever
      rw [hidle] at hnever
      rw [hrep, hout, hi.eq hnever]
  · -- nothing to transmit
    rw [if_neg (fun h => h.2 hgrant), List.append_nil] at hout
    rw [if_pos ⟨hndi, hgrant⟩] at hidle
    constructor
    · intro l
      have hl := hi.length l
      rw [hrep, hout, hidle, ofLayer_append, List.length_append, ofLayer_mapIdx_length,
        List.countP_append, List.countP_singleton, hl]
      simp only [decide_eq_true_eq]
      omega
    · intro hnever
      unfold NeverIdles at hnever
      rw [hidle] at hnever
      have hold : s.NeverIdles := fun n hn => hnever n (List.mem_append_left _ hn)
      have hzero := hnever _ (List.mem_append_right _ (List.mem_singleton_self _))
      have hnil : q.transmissionBuffer = [] := List.eq_nil_of_length_eq_zero hzero
      rw [hrep, hout, hi.eq hold, hnil]
      simp
  · -- a retransmission
    rw [if_neg (by simp [hndi]), List.append_nil] at hout hidle
    rw [List.append_nil] at hrep
    constructor
    · intro l
      rw [hrep, hout, hidle]
      exact hi.length l
    · intro hnever
      unfold NeverIdles at hnever
      rw [hidle] at hnever
      rw [hrep, hout]
      exact hi.eq hnever

theorem reach_reportInv (h : (machine c).Reach s) : ReportInv s := by
  apply h.inv
  · rintro _ rfl
    exact reportInv_init
  · intro s slot s' hi _ hs
    exact reportInv_step hi hs

/-- **The outer loop sees exactly the blocks transmitted for the first time as long as no process
that has been loaded idles.** -/
theorem reports_iff (h : (machine c).Reach s) : s.ReportsFirst ↔ s.NeverIdles := by
  have hi := reach_reportInv h
  constructor
  · intro hfirst n hn
    by_contra hne
    -- layer 0 of the idle process was reported
    have hlen := hi.length 0
    rw [hfirst 0] at hlen
    have hpos : 0 < s.idle.countP fun layerCount => 0 < layerCount :=
      List.countP_pos_iff.2 ⟨n, hn, decide_eq_true (Nat.pos_of_ne_zero hne)⟩
    omega
  · intro hnever l
    rw [hi.eq hnever]

/-- A block of one code block with one packet. -/
def oneCodeBlock : Slot := ⟨10, [⟨100, ⟨1, 500, Nat.one_pos⟩⟩], 1, fun _ _ _ => .noError⟩

def emptySlot : Slot := ⟨0, [], 0, fun _ _ _ => .noError⟩

/-- Two blocks, with a slot before them in which there is nothing to transmit. -/
theorem reports_iff_loaded :
    ∃ s, (machine oneProcess).Reach s ∧ s.reports.length = 2 ∧ s.ReportsFirst := by
  obtain ⟨s, hs, hlen, hidle⟩ := Machine.Reach.exists_of_exec
    (P := fun s : HarqRun => s.reports.length = 2 ∧ ∀ n ∈ s.idle, n = 0)
    [emptySlot, oneCodeBlock, oneCodeBlock]
    (Machine.ReachOn.init rfl : (machine oneProcess).Reach init) (by decide)
  exact ⟨s, hs, hlen, (reports_iff hs).2 hidle⟩

/-- A block, then a slot with nothing to transmit: the success of the block is reported twice. -/
theorem idle_reported : ¬ ∀ (c : HarqConfig) (s : HarqRun), (machine c).Reach s → s.ReportsFirst := by
  intro hall
  obtain ⟨s, hs, hrep, hout⟩ := Machine.Reach.exists_of_exec
    (P := fun s : HarqRun => (ofLayer 0 s.reports).length = 2 ∧ (ofLayer 0 s.outcomes).length = 1)
    [oneCodeBlock, emptySlot] (Machine.ReachOn.init rfl : (machine oneProcess).Reach init) (by decide)
  have heq := congrArg List.length (hall oneProcess s hs 0)
  rw [hrep, hout] at heq
  exact absurd heq (by decide)

end HarqRun

end NetSim.Harq
