import NetSim.Lib.Machine
import NetSim.Spec.Harq

/-!
# What one slot does to its HARQ process

A slot loads a new block into its process, transmits the old one again, or finds nothing to
do (`SlotMove`). `HarqEntity.startingSlot_move` reads this off the functions once; everything
about runs follows from it.
-/

namespace NetSim.Harq

/-- All code blocks of a layer are decoded. -/
def HarqBuffer.Decoded (b : HarqBuffer) : Prop :=
  ∀ g ∈ b.cbgList, ∀ s ∈ g.cbErrorStatus, s = PacketStatus.noError

/-- All code blocks of the block are decoded. -/
def HarqProcess.AllDecoded (p : HarqProcess) : Prop := ∀ b ∈ p.transmissionBuffer, b.Decoded

instance (b : HarqBuffer) : Decidable b.Decoded :=
  inferInstanceAs (Decidable (∀ g ∈ b.cbgList, ∀ s ∈ g.cbErrorStatus, s = PacketStatus.noError))

instance (p : HarqProcess) : Decidable p.AllDecoded :=
  inferInstanceAs (Decidable (∀ b ∈ p.transmissionBuffer, b.Decoded))

/-- The status of a code block: of a layer, a group and a place in the group. -/
def HarqProcess.status (p : HarqProcess) (l i c : ℕ) : Option PacketStatus :=
  (p.transmissionBuffer[l]?).bind fun b => (b.cbgList[i]?).bind fun g => g.cbErrorStatus[c]?

/-- The process holds no packet any more: the dropped ones were all that it held, and they have
used up the retry limit. -/
structure Cleared (c : HarqConfig) (p : HarqProcess) (dropped : List ℕ) : Prop where
  eq : dropped = p.packetBuffer
  limit : p.packetBuffer ≠ [] → c.retryLimit ≤ p.transmissionNumber + 1

/-- The packets of a transmitted block are delivered if it is decoded, and kept if not. -/
structure Sent (q : HarqProcess) (packets delivered : List ℕ) : Prop where
  decoded : q.AllDecoded → q.packetBuffer = [] ∧ delivered = packets
  kept : ¬ q.AllDecoded → q.packetBuffer = packets ∧ delivered = []

/-- What a slot makes of its process `p`. -/
inductive SlotMove (c : HarqConfig) (slot : Slot) (stored : List ℕ) (p q : HarqProcess)
    (dropped : List ℕ) (reports : List (ℕ × PacketStatus)) (delivered : List ℕ) : Prop
  | load (cleared : Cleared c p dropped) (grant : slot.allocatedPRBCount ≠ 0)
      (ndi : q.ndi = true) (number : q.transmissionNumber = 0)
      (length : q.transmissionBuffer.length = slot.layers.length)
      (flag : ∀ b ∈ q.transmissionBuffer, b.isErrored = .noError ↔ b.Decoded)
      (report : reports = q.transmissionBuffer.mapIdx fun l b => (l, b.isErrored))
      (sent : Sent q stored delivered)
  | idle (cleared : Cleared c p dropped) (grant : slot.allocatedPRBCount = 0)
      (ndi : q.ndi = true) (number : q.transmissionNumber = 0)
      (length : q.transmissionBuffer.length = p.transmissionBuffer.length)
      (report : reports = q.transmissionBuffer.mapIdx fun l b => (l, b.isErrored))
      (groups : ∀ b ∈ q.transmissionBuffer, b.cbgList = [])
      (buffer : q.packetBuffer = []) (none_stored : stored = []) (none_sent : delivered = [])
  | retransmit (none_dropped : dropped = []) (grant : slot.allocatedPRBCount = 0)
      (ndi : q.ndi = false) (held : p.packetBuffer ≠ [])
      (limit : p.transmissionNumber + 1 < c.retryLimit)
      (number : q.transmissionNumber = p.transmissionNumber + 1)
      (report : reports = []) (none_stored : stored = [])
      (status : ∀ l i c, q.status l i c = (p.status l i c).map
        (HarqProcess.decideCb (slot.draw l i c) (p.transmissionNumber + 1)))
      (sent : Sent q p.packetBuffer delivered)

/-! ## Errors -/

theorem foldl_first_error (l : List PacketStatus) (a : PacketStatus) :
    l.foldl (fun isErrored s => if isErrored = .noError then s else isErrored) a = .noError ↔
      a = .noError ∧ ∀ s ∈ l, s = PacketStatus.noError := by
  induction l generalizing a with
  | nil => simp
  | cons s l ih =>
    rw [List.foldl_cons, ih]
    by_cases ha : a = .noError
    · simp [ha]
    · simp [ha]

theorem foldl_some_error (l : List Cbg) (a : PacketStatus) :
    l.foldl (fun isErrored g => if g.isErrored = .error then .error else isErrored) a = .noError ↔
      a = .noError ∧ ∀ g ∈ l, g.isErrored = PacketStatus.noError := by
  induction l generalizing a with
  | nil => simp
  | cons g l ih =>
    rw [List.foldl_cons, ih]
    cases hg : g.isErrored with
    | noError => simp [hg]
    | error => simp [hg]

namespace HarqProcess

variable {p : HarqProcess}

theorem decideCbg_isErrored (draw : ℕ → PacketStatus) (n : ℕ) (g : Cbg) :
    (decideCbg draw n g).isErrored = .noError ↔
      ∀ s ∈ (decideCbg draw n g).cbErrorStatus, s = PacketStatus.noError := by
  unfold decideCbg
  dsimp only
  rw [foldl_first_error]
  simp

/-- The flag of a layer tells whether it is decoded. -/
theorem decideLayer_isErrored (draw : ℕ → ℕ → PacketStatus) (n : ℕ) (b : HarqBuffer) :
    (decideLayer draw n b).isErrored = .noError ↔ (decideLayer draw n b).Decoded := by
  unfold decideLayer HarqBuffer.Decoded
  dsimp only
  rw [foldl_some_error]
  constructor
  · rintro ⟨-, h⟩ g hg
    have hflag := h g hg
    obtain ⟨i, hi, rfl⟩ := List.mem_mapIdx.1 hg
    exact (decideCbg_isErrored _ _ _).1 hflag
  · intro h
    refine ⟨rfl, ?_⟩
    intro g hg
    have hdec := h g hg
    obtain ⟨i, hi, rfl⟩ := List.mem_mapIdx.1 hg
    exact (decideCbg_isErrored _ _ _).2 hdec

theorem decideCbgError_flag (draw : ℕ → ℕ → ℕ → PacketStatus) {b : HarqBuffer}
    (hb : b ∈ (p.decideCbgError draw).transmissionBuffer) :
    b.isErrored = .noError ↔ b.Decoded := by
  obtain ⟨l, hl, rfl⟩ := List.mem_mapIdx.1 hb
  exact decideLayer_isErrored _ _ _

theorem decideCbgError_any_iff (draw : ℕ → ℕ → ℕ → PacketStatus) :
    ((p.decideCbgError draw).transmissionBuffer.any fun b => b.isErrored = .error) = true ↔
      ¬ (p.decideCbgError draw).AllDecoded := by
  have hflag := fun b => decideCbgError_flag (p := p) draw (b := b)
  rw [List.any_eq_true]
  constructor
  · rintro ⟨b, hb, herr⟩ hall
    have hok := (hflag b hb).2 (hall b hb)
    rw [hok] at herr
    exact absurd herr (by decide)
  · intro hnot
    by_contra hno
    apply hnot
    intro b hb
    apply (hflag b hb).1
    cases hs : b.isErrored with
    | noError => rfl
    | error => exact absurd ⟨b, hb, by simp [hs]⟩ hno

/-- `SendToReceiver` after `DecideCBGError`. -/
theorem sendToReceiver_sent (draw : ℕ → ℕ → ℕ → PacketStatus) :
    Sent (p.decideCbgError draw).sendToReceiver.1 p.packetBuffer
        (p.decideCbgError draw).sendToReceiver.2 ∧
      (p.decideCbgError draw).sendToReceiver.1.transmissionBuffer =
        (p.decideCbgError draw).transmissionBuffer ∧
      (p.decideCbgError draw).sendToReceiver.1.transmissionNumber = p.transmissionNumber ∧
      (p.decideCbgError draw).sendToReceiver.1.ndi = p.ndi := by
  have hiff := decideCbgError_any_iff (p := p) draw
  unfold sendToReceiver
  by_cases hany : ((p.decideCbgError draw).transmissionBuffer.any fun b => b.isErrored = .error) = true
  · rw [if_pos hany]
    have hnot := hiff.1 hany
    exact ⟨⟨fun h => absurd h hnot, fun _ => ⟨rfl, rfl⟩⟩, rfl, rfl, rfl⟩
  · rw [if_neg hany]
    have hall : (p.decideCbgError draw).AllDecoded := not_not.1 (mt hiff.2 hany)
    exact ⟨⟨fun _ => ⟨rfl, rfl⟩, fun h => absurd hall h⟩, rfl, rfl, rfl⟩

theorem status_decideCbgError (draw : ℕ → ℕ → ℕ → PacketStatus) (l i c : ℕ) :
    (p.decideCbgError draw).status l i c =
      (p.status l i c).map (decideCb (draw l i c) p.transmissionNumber) := by
  unfold status decideCbgError
  rw [List.getElem?_mapIdx]
  cases p.transmissionBuffer[l]? with
  | none => rfl
  | some b =>
    simp only [Option.map_some, Option.bind_some, decideLayer, List.getElem?_mapIdx]
    cases b.cbgList[i]? with
    | none => rfl
    | some g => simp only [Option.map_some, Option.bind_some, decideCbg, List.getElem?_mapIdx]

/-! ## Slot start -/

theorem pendingLayers_cbgList {amcs : List AmcInfo} {bs bs' : List HarqBuffer} {n : ℕ}
    (h : pendingLayers amcs bs = some (bs', n)) : bs'.map (·.cbgList) = bs.map (·.cbgList) := by
  induction bs generalizing amcs bs' n with
  | nil =>
    cases amcs <;> obtain ⟨rfl, -⟩ := Prod.mk.inj (Option.some.inj h) <;> rfl
  | cons b bs ih =>
    cases amcs with
    | nil => cases h
    | cons amc amcs =>
      simp only [pendingLayers] at h
      by_cases hb : b.bitsPerPRB = 0
      · rw [if_pos hb] at h
        cases h
      · rw [if_neg hb] at h
        obtain ⟨⟨bs₁, n₁⟩, hrest, h⟩ := Option.map_eq_some_iff.1 h
        obtain ⟨rfl, -⟩ := Prod.mk.inj h
        rw [List.map_cons, List.map_cons, ih hrest]

theorem status_congr {q : HarqProcess}
    (h : q.transmissionBuffer.map (·.cbgList) = p.transmissionBuffer.map (·.cbgList)) (l i c : ℕ) :
    q.status l i c = p.status l i c := by
  have hl : (q.transmissionBuffer[l]?).map (·.cbgList) = (p.transmissionBuffer[l]?).map (·.cbgList) := by
    rw [← List.getElem?_map, ← List.getElem?_map, h]
  unfold status
  cases hq : q.transmissionBuffer[l]? <;> cases hp : p.transmissionBuffer[l]? <;>
    rw [hq, hp] at hl
  · cases hl
  · cases hl
  · rename_i b b'
    have hgroups : b.cbgList = b'.cbgList := Option.some.inj hl
    simp only [Option.bind_some, hgroups]

/-- `SetNDI` clears the process, or prepares its block for another transmission. -/
theorem setNdi_cases {c : HarqConfig} {amcInfo : List AmcInfo} {q : HarqProcess} {dropped : List ℕ}
    (h : p.setNdi c amcInfo = some (q, dropped)) :
    (Cleared c p dropped ∧ q.ndi = true ∧ q.transmissionNumber = 0 ∧ q.packetBuffer = [] ∧
        q.transmissionBuffer.length = p.transmissionBuffer.length) ∨
      (dropped = [] ∧ q.ndi = false ∧ p.packetBuffer ≠ [] ∧
        p.transmissionNumber + 1 < c.retryLimit ∧
        q.transmissionNumber = p.transmissionNumber + 1 ∧ q.packetBuffer = p.packetBuffer ∧
        q.transmissionBuffer.map (·.cbgList) = p.transmissionBuffer.map (·.cbgList)) := by
  unfold setNdi at h
  by_cases hempty : p.packetBuffer = []
  · rw [if_pos hempty] at h
    obtain ⟨rfl, rfl⟩ := Prod.mk.inj (Option.some.inj h)
    exact .inl ⟨⟨hempty.symm, fun hne => absurd hempty hne⟩, rfl, rfl, hempty, rfl⟩
  · rw [if_neg hempty] at h
    by_cases hlimit : c.retryLimit ≤ p.transmissionNumber + 1
    · -- the retry limit: what is held is dropped
      rw [if_pos hlimit] at h
      obtain ⟨rfl, rfl⟩ := Prod.mk.inj (Option.some.inj h)
      refine .inl ⟨⟨rfl, fun _ => hlimit⟩, rfl, rfl, rfl, ?_⟩
      exact List.length_map _
    · -- `CalculatePendingData` writes sizes only
      rw [if_neg hlimit] at h
      obtain ⟨p₁, hpending, h⟩ := Option.map_eq_some_iff.1 h
      obtain ⟨rfl, rfl⟩ := Prod.mk.inj h
      obtain ⟨⟨bs, n⟩, hlayers, rfl⟩ := Option.map_eq_some_iff.1 hpending
      exact .inr ⟨rfl, rfl, hempty, Nat.lt_of_not_le hlimit, rfl, rfl, pendingLayers_cbgList hlayers⟩

theorem foldl_storePacket (stored : List ℕ) :
    stored.foldl storePacket p = { p with packetBuffer := p.packetBuffer ++ stored } := by
  induction stored generalizing p with
  | nil => simp
  | cons x stored ih =>
    rw [List.foldl_cons, ih]
    simp [storePacket]

/-- A process that is reset has no code block. -/
theorem resetCbg_groups (draw : ℕ → ℕ → ℕ → PacketStatus) {b : HarqBuffer}
    (h : b ∈ (p.resetCbg.decideCbgError draw).transmissionBuffer) : b.cbgList = [] := by
  obtain ⟨l, hl, rfl⟩ := List.mem_mapIdx.1 h
  simp [decideLayer, resetCbg]

theorem allDecoded_of_groups (h : ∀ b ∈ p.transmissionBuffer, b.cbgList = []) : p.AllDecoded := by
  intro b hb g hg
  rw [h b hb] at hg
  cases hg

/-- The process of a slot when its block has been transmitted: allocated, loaded with the packets
of the slot, and its errors decided. -/
def transmitted (c : HarqConfig) (slot : Slot) (stored : List ℕ) (p : HarqProcess) : HarqProcess :=
  { p.allocateCbg c slot.allocatedPRBCount slot.layers with
    packetBuffer := (p.allocateCbg c slot.allocatedPRBCount slot.layers).packetBuffer ++ stored
  }.decideCbgError slot.draw

end HarqProcess

/-! ## The three moves -/

section Moves

variable {c : HarqConfig} {slot : Slot} {stored : List ℕ} {p₀ p : HarqProcess} {dropped : List ℕ}

/-- A process that has been cleared and gets no PRBs. -/
theorem SlotMove.of_idle (hclear : Cleared c p₀ dropped) (hn : p.ndi = true)
    (hbuf : p.packetBuffer = [])
    (hlen : p.transmissionBuffer.length = p₀.transmissionBuffer.length)
    (hgrant : slot.allocatedPRBCount = 0) :
    SlotMove c slot [] p₀ (p.transmitted c slot []).sendToReceiver.1 dropped
      (p.transmitted c slot []).reportToOlla (p.transmitted c slot []).sendToReceiver.2 := by
  have halloc : p.allocateCbg c slot.allocatedPRBCount slot.layers = p.resetCbg := by
    unfold HarqProcess.allocateCbg
    rw [if_neg]
    simp [hgrant, hn]
  unfold HarqProcess.transmitted
  rw [halloc, List.append_nil]
  obtain ⟨hsent, htb, hnum', hndi'⟩ := HarqProcess.sendToReceiver_sent (p := p.resetCbg) slot.draw
  have hempty := fun b => HarqProcess.resetCbg_groups (p := p) slot.draw (b := b)
  rw [← htb] at hempty
  -- without a code block nothing is in error, and the empty buffer is "delivered"
  obtain ⟨hbuf', hdel⟩ := hsent.decoded (HarqProcess.allDecoded_of_groups hempty)
  apply SlotMove.idle hclear hgrant hndi' hnum' _ _ hempty hbuf' rfl
  · rw [hdel]
    exact hbuf
  · rw [htb, ← hlen]
    simp [HarqProcess.decideCbgError, HarqProcess.resetCbg]
  · rw [htb]
    rfl

/-- A process that has been cleared and gets PRBs. -/
theorem SlotMove.of_load (hclear : Cleared c p₀ dropped) (hn : p.ndi = true)
    (hnum : p.transmissionNumber = 0) (hbuf : p.packetBuffer = [])
    (hgrant : slot.allocatedPRBCount ≠ 0) :
    SlotMove c slot stored p₀ (p.transmitted c slot stored).sendToReceiver.1 dropped
      (p.transmitted c slot stored).reportToOlla (p.transmitted c slot stored).sendToReceiver.2 := by
  have halloc : p.allocateCbg c slot.allocatedPRBCount slot.layers =
      { p with transmissionBuffer := slot.layers.map (HarqProcess.loadLayer c.maxCBGPerTB) } := by
    unfold HarqProcess.allocateCbg
    rw [if_pos (.inl hgrant), if_neg (by simp [hn])]
  unfold HarqProcess.transmitted
  rw [halloc]
  dsimp only
  rw [hbuf, List.nil_append]
  obtain ⟨hsent, htb, hnum', hndi'⟩ := HarqProcess.sendToReceiver_sent slot.draw (p :=
    { p with
      packetBuffer := stored
      transmissionBuffer := slot.layers.map (HarqProcess.loadLayer c.maxCBGPerTB) })
  apply SlotMove.load hclear hgrant (hndi'.trans hn) (hnum'.trans hnum) _ _ _ hsent
  · rw [htb]
    simp [HarqProcess.decideCbgError]
  · rw [htb]
    exact fun b => HarqProcess.decideCbgError_flag slot.draw
  · rw [htb]
    simp [HarqProcess.reportToOlla, HarqProcess.decideCbgError, hnum]

/-- A process that still holds the packets of a block in error. -/
theorem SlotMove.of_retransmit (hn : p.ndi = false) (hheld : p₀.packetBuffer ≠ [])
    (hlimit : p₀.transmissionNumber + 1 < c.retryLimit)
    (hnum : p.transmissionNumber = p₀.transmissionNumber + 1)
    (hbuf : p.packetBuffer = p₀.packetBuffer)
    (hgroups : p.transmissionBuffer.map (·.cbgList) = p₀.transmissionBuffer.map (·.cbgList))
    (hgrant : slot.allocatedPRBCount = 0) :
    SlotMove c slot [] p₀ (p.transmitted c slot []).sendToReceiver.1 []
      (p.transmitted c slot []).reportToOlla (p.transmitted c slot []).sendToReceiver.2 := by
  have halloc : p.allocateCbg c slot.allocatedPRBCount slot.layers = p := by
    unfold HarqProcess.allocateCbg
    rw [if_pos (.inr hn), if_pos hn]
  unfold HarqProcess.transmitted
  rw [halloc, List.append_nil]
  obtain ⟨hsent, htb, hnum', hndi'⟩ := HarqProcess.sendToReceiver_sent (p := p) slot.draw
  rw [hbuf] at hsent
  apply SlotMove.retransmit rfl hgrant (hndi'.trans hn) hheld hlimit (hnum'.trans hnum) _ rfl _ hsent
  · unfold HarqProcess.reportToOlla
    rw [if_pos]
    simp [HarqProcess.decideCbgError, hnum]
  · intro l i c
    -- sending does not touch the code blocks, and neither did the slot start
    have hstatus := HarqProcess.status_decideCbgError (p := p) slot.draw l i c
    rw [HarqProcess.status_congr hgroups, hnum] at hstatus
    rw [← hstatus]
    apply HarqProcess.status_congr
    rw [htb]

end Moves

/-- `IncreaseProcessNumber` on the number itself. -/
def HarqConfig.nextProcessId (c : HarqConfig) (id : ℕ) : ℕ :=
  if c.maxProcessCount < id + 1 then 1 else id + 1

theorem HarqConfig.nextProcessId_mem (c : HarqConfig) (id : ℕ) :
    1 ≤ c.nextProcessId id ∧ c.nextProcessId id ≤ c.maxProcessCount := by
  have hpos := c.maxProcessCount_pos
  unfold nextProcessId
  by_cases h : c.maxProcessCount < id + 1
  · rw [if_pos h]
    exact ⟨Nat.le_refl 1, hpos⟩
  · rw [if_neg h]
    exact ⟨Nat.succ_pos id, Nat.le_of_not_lt h⟩

namespace HarqEntity

variable {c : HarqConfig} {next : ℕ} {slot : Slot} {e : HarqEntity} {r : SlotResult}

/-- The process that the next slot works on. -/
def upcoming (c : HarqConfig) (e : HarqEntity) : ℕ := c.nextProcessId e.currentProcessId - 1

theorem upcoming_lt (c : HarqConfig) (e : HarqEntity) : e.upcoming c < c.maxProcessCount := by
  have hmem := c.nextProcessId_mem e.currentProcessId
  unfold upcoming
  omega

/-- **What a slot does**: it moves on to the next process, and makes one of three moves on it. -/
theorem startingSlot_move (h : e.startingSlot c next slot = some r) :
    r.entity.currentProcessId = c.nextProcessId e.currentProcessId ∧
      r.stored = (List.range slot.packets).map (next + ·) ∧
      ∃ q, r.entity.harqProcess = Function.update e.harqProcess (e.upcoming c) q ∧
        SlotMove c slot r.stored (e.harqProcess (e.upcoming c)) q r.dropped r.reports r.delivered := by
  unfold startingSlot at h
  dsimp only at h
  obtain ⟨⟨p, dropped⟩, hndi, h⟩ := Option.bind_eq_some_iff.1 h
  dsimp only at h
  by_cases hguard : (p.ndi = false → slot.allocatedPRBCount = 0) ∧
      (slot.allocatedPRBCount = 0 → slot.packets = 0)
  · rw [if_pos hguard] at h
    obtain ⟨hold, hstored⟩ := hguard
    obtain rfl := Option.some.inj h
    refine ⟨rfl, rfl, _, rfl, ?_⟩
    dsimp only
    rw [HarqProcess.foldl_storePacket]
    have hcur : (e.increaseProcessNumber c).current = e.harqProcess (e.upcoming c) := rfl
    rw [hcur] at hndi
    generalize e.harqProcess (e.upcoming c) = p₀ at hndi ⊢
    -- the RLC sends nothing for a grant of 0 bytes
    have hnone : slot.allocatedPRBCount = 0 → (List.range slot.packets).map (next + ·) = [] := by
      intro hgrant
      rw [hstored hgrant]
      rfl
    generalize (List.range slot.packets).map (next + ·) = stored at hnone ⊢
    rcases HarqProcess.setNdi_cases hndi with
      ⟨hclear, hn, hnum, hbuf, hlen⟩ | ⟨rfl, hn, hheld, hlimit, hnum, hbuf, hgroups⟩
    · by_cases hgrant : slot.allocatedPRBCount = 0
      · obtain rfl := hnone hgrant
        exact SlotMove.of_idle hclear hn hbuf hlen hgrant
      · exact SlotMove.of_load hclear hn hnum hbuf hgrant
    · -- the scheduler grants nothing to a UE that retransmits
      have hgrant := hold hn
      obtain rfl := hnone hgrant
      exact SlotMove.of_retransmit hn hheld hlimit hnum hbuf hgroups hgrant
  · rw [if_neg hguard] at h
    cases h

end HarqEntity

/-! ## Runs -/

/-- Packets handed to the receiver's MAC, with the block that they came in. -/
structure Delivery where
  packets : List ℕ
  block : HarqProcess

/-- Packets dropped, with the number of times that their block had been transmitted. -/
structure Drop where
  packets : List ℕ
  attempts : ℕ

/-- An entity with what has happened to it. -/
structure HarqRun where
  entity : HarqEntity
  slots : ℕ
  /-- Packets are numbered as they are stored. -/
  next : ℕ
  /-- How often the block of a process has been transmitted. -/
  attempts : ℕ → ℕ
  deliveries : List Delivery
  drops : List Drop
  /-- The reports to the outer loop, by layer. -/
  reports : List (ℕ × PacketStatus)
  /-- For each block, when it is transmitted for the first time: its layers, decoded or not. -/
  outcomes : List (ℕ × PacketStatus)
  /-- For each slot with nothing to transmit: the number of layers of its process. -/
  idle : List ℕ

/-- The ghost number of transmissions after a move. -/
def attemptsAfter (slot : Slot) (q : HarqProcess) (n : ℕ) : ℕ :=
  if q.ndi = true ∧ slot.allocatedPRBCount ≠ 0 then 1
  else if q.ndi = true ∧ slot.allocatedPRBCount = 0 then 0 else n + 1

namespace HarqRun

def init : HarqRun := ⟨.init, 0, 0, fun _ => 0, [], [], [], [], []⟩

/-- The layers of a process, decoded or not. -/
def outcomesOf (p : HarqProcess) : List (ℕ × PacketStatus) :=
  p.transmissionBuffer.mapIdx fun l b => (l, if b.Decoded then .noError else .error)

/-- The run after a slot on the process `i`, which the slot leaves as `p`. -/
def record (s : HarqRun) (slot : Slot) (r : SlotResult) (i : ℕ) (p : HarqProcess) : HarqRun where
  entity := r.entity
  slots := s.slots + 1
  next := s.next + slot.packets
  attempts := Function.update s.attempts i (attemptsAfter slot p (s.attempts i))
  deliveries := s.deliveries ++ [⟨r.delivered, p⟩]
  drops := s.drops ++ [⟨r.dropped, s.attempts i⟩]
  reports := s.reports ++ r.reports
  outcomes := s.outcomes ++
    (if p.ndi = true ∧ slot.allocatedPRBCount ≠ 0 then outcomesOf p else [])
  idle := s.idle ++
    (if p.ndi = true ∧ slot.allocatedPRBCount = 0 then [p.transmissionBuffer.length] else [])

def step (c : HarqConfig) (s : HarqRun) (slot : Slot) : Option HarqRun :=
  (s.entity.startingSlot c s.next slot).map fun r =>
    s.record slot r (s.entity.upcoming c) (r.entity.harqProcess (s.entity.upcoming c))

def machine (c : HarqConfig) : Machine HarqRun Slot := ⟨(· = init), step c⟩

variable {c : HarqConfig} {s s' : HarqRun} {slot : Slot}

/-- A step is one move on the upcoming process. -/
theorem step_move (h : step c s slot = some s') :
    ∃ q stored dropped reports delivered,
      SlotMove c slot stored (s.entity.harqProcess (s.entity.upcoming c)) q dropped reports delivered ∧
      stored = (List.range slot.packets).map (s.next + ·) ∧
      s'.entity.harqProcess = Function.update s.entity.harqProcess (s.entity.upcoming c) q ∧
      s'.entity.currentProcessId = c.nextProcessId s.entity.currentProcessId ∧
      s'.slots = s.slots + 1 ∧
      s'.next = s.next + slot.packets ∧
      s'.attempts = Function.update s.attempts (s.entity.upcoming c)
        (attemptsAfter slot q (s.attempts (s.entity.upcoming c))) ∧
      s'.deliveries = s.deliveries ++ [⟨delivered, q⟩] ∧
      s'.drops = s.drops ++ [⟨dropped, s.attempts (s.entity.upcoming c)⟩] ∧
      s'.reports = s.reports ++ reports ∧
      s'.outcomes = s.outcomes ++
        (if q.ndi = true ∧ slot.allocatedPRBCount ≠ 0 then outcomesOf q else []) ∧
      s'.idle = s.idle ++
        (if q.ndi = true ∧ slot.allocatedPRBCount = 0 then [q.transmissionBuffer.length] else []) := by
  obtain ⟨r, hr, rfl⟩ := Option.map_eq_some_iff.1 h
  obtain ⟨hid, hstored, q, hproc, hmove⟩ := HarqEntity.startingSlot_move hr
  have hq : r.entity.harqProcess (s.entity.upcoming c) = q := by
    rw [hproc]
    exact Function.update_self ..
  refine ⟨q, r.stored, r.dropped, r.reports, r.delivered, hmove, hstored, hproc, hid, rfl, rfl, ?_⟩
  rw [hq]
  exact ⟨rfl, rfl, rfl, rfl, rfl, rfl⟩

/-- A configuration with one process. -/
def oneProcess : HarqConfig := ⟨1, true, 3, 4, by decide, by decide, by decide, by decide⟩

end HarqRun

end NetSim.Harq
