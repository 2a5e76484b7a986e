import NetSim.Proof.TransferSteps

/-!
# What a handover moves

The handover command moves every buffer of the PDCP and RLC entities between the UE and the
source to the entities between the UE and the target, whole and in order. Two buffers are
moved without a new device id, the PDCP receive buffer and the RLC transmitted buffer, and of
the timers it ends those whose ids it looks at: `transferred_iff`.
-/

namespace NetSim.Transfer

variable {α : Type*}

/-! ## What the transfer is to do -/

/-- The gNB of a packet that a device sends to the other. -/
def Side.sentGnb : Side → Packet α → ℕ
  | .gnb, p => p.nTransmitterId
  | .ue, p => p.nReceiverId

/-- The gNB of a packet that a device received from the other. -/
def Side.receivedGnb : Side → Packet α → ℕ
  | .gnb, p => p.nReceiverId
  | .ue, p => p.nTransmitterId

def BufferedPacket.contents (b : BufferedPacket α) : List α := b.packets.map (·.content)

def ReceptionBuffer.contents (b : ReceptionBuffer α) : List α := b.packets.map (·.content)

namespace PdcpEntity

/-- What the entity holds, buffer by buffer and in order. -/
def sdus (e : PdcpEntity α) : List (List (List α)) :=
  [e.transmissionBuffer.map BufferedPacket.contents, e.receiveBuffer.map BufferedPacket.contents]

def SentCarry (side : Side) (t : ℕ) (e : PdcpEntity α) : Prop :=
  ∀ b ∈ e.transmissionBuffer, ∀ p ∈ b.packets, side.sentGnb p = t

def ReceivedCarry (side : Side) (t : ℕ) (e : PdcpEntity α) : Prop :=
  ∀ b ∈ e.receiveBuffer, ∀ p ∈ b.packets, side.receivedGnb p = t

end PdcpEntity

namespace RlcEntity

/-- What the entity holds, buffer by buffer and in order. -/
def sdus (e : RlcEntity α) : List (List (List α)) :=
  [e.transmissionBuffer.map fun b => [b.packet.content],
    e.retransmissionBuffer.map fun b => [b.packet.content],
    e.transmittedBuffer.map fun b => [b.packet.content],
    e.am.receptionBuffer.map ReceptionBuffer.contents,
    e.um.receptionBuffer.map ReceptionBuffer.contents]

def UnsentCarry (side : Side) (t : ℕ) (e : RlcEntity α) : Prop :=
  (∀ b ∈ e.transmissionBuffer, side.sentGnb b.packet = t) ∧
    ∀ b ∈ e.retransmissionBuffer, side.sentGnb b.packet = t

def TransmittedCarry (side : Side) (t : ℕ) (e : RlcEntity α) : Prop :=
  ∀ b ∈ e.transmittedBuffer, side.sentGnb b.packet = t

def ReceivedCarry (side : Side) (t : ℕ) (e : RlcEntity α) : Prop :=
  (∀ b ∈ e.am.receptionBuffer, ∀ p ∈ b.packets, side.receivedGnb p = t) ∧
    ∀ b ∈ e.um.receptionBuffer, ∀ p ∈ b.packets, side.receivedGnb p = t

end RlcEntity

namespace CommandHdr

variable (hdr : CommandHdr)

/-- The PDCP entities of the handover, by device and mode, in the order of the transfer. -/
def pdcpIndices : List (Side × RlcMode) :=
  [(.gnb, .tm), (.gnb, .um), (.gnb, .am), (.ue, .tm), (.ue, .um), (.ue, .am)]

/-- The RLC entities of the handover, by device and kind, in the order of the transfer. -/
def rlcIndices : List (Side × RlcMode × Bool × Bool) :=
  rlcKinds.map (fun kind => (.gnb, kind)) ++ rlcKinds.map fun kind => (.ue, kind)

/-- The source's and the target's PDCP entity. -/
def pdcpAt (i : Side × RlcMode) : Move PdcpKey := hdr.pdcpMove i.1 i.2

/-- The source's and the target's RLC entity. -/
def rlcAt (i : Side × RlcMode × Bool × Bool) : Move RlcKey := hdr.rlcMove i.1 i.2

/-- An entity between the UE and the source. -/
def IsOld (x : EntityRef) : Prop :=
  (∃ i ∈ pdcpIndices, x = .pdcp (hdr.pdcpAt i).ser) ∨ ∃ i ∈ rlcIndices, x = .rlc (hdr.rlcAt i).ser

/-- **What the transfer is to do**: each entity toward the source is replaced by that toward the
target, which holds the same SDUs buffer by buffer under the target's id; nothing is left at the
source, the entities of others are not touched, and no timer is left for an entity that is gone. -/
structure Transferred (s s' : Network α) : Prop where
  pdcp : ∀ i ∈ pdcpIndices, ∀ e, s.pdcp (hdr.pdcpAt i).ser = some e →
    ∃ e', s'.pdcp (hdr.pdcpAt i).tar = some e' ∧ e'.sdus = e.sdus ∧
      e'.SentCarry i.1 hdr.targetCellId ∧ e'.ReceivedCarry i.1 hdr.targetCellId
  rlc : ∀ i ∈ rlcIndices, ∀ e, s.rlc (hdr.rlcAt i).ser = some e →
    ∃ e', s'.rlc (hdr.rlcAt i).tar = some e' ∧ e'.sdus = e.sdus ∧
      e'.UnsentCarry i.1 hdr.targetCellId ∧ e'.TransmittedCarry i.1 hdr.targetCellId ∧
      e'.ReceivedCarry i.1 hdr.targetCellId
  pdcp_gone : ∀ i ∈ pdcpIndices, s'.pdcp (hdr.pdcpAt i).ser = none
  rlc_gone : ∀ i ∈ rlcIndices, s'.rlc (hdr.rlcAt i).ser = none
  pdcp_others : ∀ k, (∀ i ∈ pdcpIndices, k ≠ (hdr.pdcpAt i).ser ∧ k ≠ (hdr.pdcpAt i).tar) →
    s'.pdcp k = s.pdcp k
  rlc_others : ∀ k, (∀ i ∈ rlcIndices, k ≠ (hdr.rlcAt i).ser ∧ k ≠ (hdr.rlcAt i).tar) →
    s'.rlc k = s.rlc k
  timers : ∀ x ∈ s'.events, ¬ hdr.IsOld x.entity

end CommandHdr

namespace CommandHdr

variable (hdr : CommandHdr)

/-- The events that the entities toward the source know by their ids. -/
def EndsEvent (s : Network α) (id : ℕ) : Prop :=
  (∃ i ∈ rlcIndices, ∃ e, s.rlc (hdr.rlcAt i).ser = some e ∧ id ∈ e.endedIds) ∨
    ∃ i ∈ pdcpIndices, ∃ e, s.pdcp (hdr.pdcpAt i).ser = some e ∧ id ∈ e.endedIds

/-- What the buffers that are moved as they are hold already carries the target's id, and the
timers that run for the entities toward the source are the ones the transfer looks at. -/
structure Movable (s : Network α) : Prop where
  received : ∀ i ∈ pdcpIndices, ∀ e, s.pdcp (hdr.pdcpAt i).ser = some e →
    e.ReceivedCarry i.1 hdr.targetCellId
  transmitted : ∀ i ∈ rlcIndices, ∀ e, s.rlc (hdr.rlcAt i).ser = some e →
    e.TransmittedCarry i.1 hdr.targetCellId
  timers : ∀ x ∈ s.events, hdr.IsOld x.entity → hdr.EndsEvent s x.id

end CommandHdr

/-! ## What a moved entity holds -/

/-- The id that the gNB of a packet has, written by the device that sends it. -/
def Side.relabelSent : Side → ℕ → Packet α → Packet α
  | .gnb => Packet.setTransmitter
  | .ue => Packet.setReceiver

@[simp] theorem Side.sentGnb_relabelSent (side : Side) (t : ℕ) (p : Packet α) :
    side.sentGnb (side.relabelSent t p) = t := by
  cases side <;> rfl

@[simp] theorem Side.content_relabelSent (side : Side) (t : ℕ) (p : Packet α) :
    (side.relabelSent t p).content = p.content := by
  cases side <;> rfl

namespace RlcEntity

variable {e : RlcEntity α} (hdr : CommandHdr) (i : Side × RlcMode × Bool × Bool)

/-- What the target's entity is after its block of the transfer, but for the timers. -/
def moved (e : RlcEntity α) : RlcEntity α :=
  (e.takeOver (hdr.rlcAt i).tar (hdr.rlcAt i).flag).relabelUnsent (i.1.relabelSent hdr.targetCellId)

theorem sdus_untimed (e : RlcEntity α) : e.untimed.sdus = e.sdus := rfl

theorem unsentCarry_untimed {side : Side} {t : ℕ} :
    e.untimed.UnsentCarry side t ↔ e.UnsentCarry side t := Iff.rfl

theorem transmittedCarry_untimed {side : Side} {t : ℕ} :
    e.untimed.TransmittedCarry side t ↔ e.TransmittedCarry side t := Iff.rfl

theorem receivedCarry_untimed {side : Side} {t : ℕ} :
    e.untimed.ReceivedCarry side t ↔ e.ReceivedCarry side t := Iff.rfl

theorem contents_relabel (flag : ℕ) (k : RlcKey) (b : ReceptionBuffer α) :
    (b.relabel flag k).contents = b.contents := by
  unfold ReceptionBuffer.relabel ReceptionBuffer.contents
  split <;> simp [Function.comp_def]

/-- **Every buffer is moved whole and in order.** -/
theorem sdus_moved : (e.moved hdr i).sdus = e.sdus := by
  simp [sdus, moved, relabelUnsent, takeOver, Function.comp_def, contents_relabel]

theorem unsentCarry_moved : (e.moved hdr i).UnsentCarry i.1 hdr.targetCellId := by
  simp [UnsentCarry, moved, relabelUnsent]

theorem transmittedCarry_moved {side : Side} {t : ℕ} :
    (e.moved hdr i).TransmittedCarry side t ↔ e.TransmittedCarry side t := Iff.rfl

/-- The relabelling of a reception buffer writes the target's id at both devices. -/
theorem receivedGnb_relabel {b : ReceptionBuffer α} {p : Packet α}
    (hp : p ∈ (b.relabel (hdr.rlcAt i).flag (hdr.rlcAt i).tar).packets) :
    i.1.receivedGnb p = hdr.targetCellId := by
  obtain ⟨side, mode, tx, rx⟩ := i
  cases side
  all_goals
    simp only [ReceptionBuffer.relabel, CommandHdr.rlcAt, CommandHdr.rlcMove, List.mem_map] at hp
    obtain ⟨q, -, rfl⟩ := hp
    rfl

theorem receivedCarry_moved : (e.moved hdr i).ReceivedCarry i.1 hdr.targetCellId := by
  constructor
  all_goals
    intro b hb p hp
    obtain ⟨b, -, rfl⟩ := List.mem_map.1 hb
    exact receivedGnb_relabel hdr i hp

end RlcEntity

namespace PdcpEntity

variable {e e₀ : PdcpEntity α} (hdr : CommandHdr) (i : Side × RlcMode)

/-- What the target's entity is after the transfer. -/
def moved (e e₀ : PdcpEntity α) : PdcpEntity α :=
  takeOver (hdr.pdcpAt i).tar.enbId (hdr.pdcpAt i).flag e e₀

theorem contents_relabel (flag enbId : ℕ) (b : BufferedPacket α) :
    (b.relabel flag enbId).contents = b.contents := by
  unfold BufferedPacket.relabel BufferedPacket.contents
  split <;> simp [Function.comp_def]

theorem sdus_moved : (moved hdr i e e₀).sdus = e.sdus := by
  simp [sdus, moved, takeOver, Function.comp_def, contents_relabel]

theorem sentCarry_moved : (moved hdr i e e₀).SentCarry i.1 hdr.targetCellId := by
  intro b hb p hp
  obtain ⟨b, -, rfl⟩ := List.mem_map.1 hb
  obtain ⟨side, mode⟩ := i
  cases side
  all_goals
    obtain ⟨q, -, rfl⟩ := List.mem_map.1 hp
    rfl

theorem receivedCarry_moved {side : Side} {t : ℕ} :
    (moved hdr i e e₀).ReceivedCarry side t ↔ e.ReceivedCarry side t := Iff.rfl

end PdcpEntity

/-! ## The keys of the transfers -/

namespace CommandHdr

variable (hdr : CommandHdr)

def pdcpKeys (i : Side × RlcMode) : List PdcpKey := [(hdr.pdcpAt i).ser, (hdr.pdcpAt i).tar]

def rlcKeys (i : Side × RlcMode × Bool × Bool) : List RlcKey := [(hdr.rlcAt i).ser, (hdr.rlcAt i).tar]

theorem ser_mem_pdcpKeys (i : Side × RlcMode) : (hdr.pdcpAt i).ser ∈ hdr.pdcpKeys i :=
  List.mem_cons_self

theorem tar_mem_pdcpKeys (i : Side × RlcMode) : (hdr.pdcpAt i).tar ∈ hdr.pdcpKeys i :=
  List.mem_cons_of_mem _ List.mem_cons_self

theorem ser_mem_rlcKeys (i : Side × RlcMode × Bool × Bool) : (hdr.rlcAt i).ser ∈ hdr.rlcKeys i :=
  List.mem_cons_self

theorem tar_mem_rlcKeys (i : Side × RlcMode × Bool × Bool) : (hdr.rlcAt i).tar ∈ hdr.rlcKeys i :=
  List.mem_cons_of_mem _ List.mem_cons_self

/-- A key tells the side and the mode. -/
theorem pdcpKeys_inj (i j : Side × RlcMode) (k : PdcpKey) (hi : k ∈ hdr.pdcpKeys i)
    (hj : k ∈ hdr.pdcpKeys j) : i = j := by
  have hside : ∀ i, k ∈ hdr.pdcpKeys i → i = (k.side, k.rlcMode) := by
    intro i hi
    rcases List.mem_cons.1 hi with rfl | hi
    · rfl
    · obtain rfl := List.mem_singleton.1 hi
      rfl
  rw [hside i hi, hside j hj]

/-- The first device of a key tells the two sides apart: a UE is not a gNB. -/
theorem rlcKeys_inj (i j : Side × RlcMode × Bool × Bool) (k : RlcKey) (hi : k ∈ hdr.rlcKeys i)
    (hj : k ∈ hdr.rlcKeys j) : i = j := by
  have hside : ∀ i, k ∈ hdr.rlcKeys i →
      i = (if k.d = hdr.ueId then .ue else .gnb, k.rlcMode, k.isTransmitting, k.isReceiving) := by
    rintro ⟨side, mode, tx, rx⟩ hi
    have hserving := hdr.ue_ne_serving.symm
    have htarget := hdr.ue_ne_target.symm
    cases side
    all_goals
      simp only [rlcKeys, rlcAt, rlcMove, List.mem_cons, List.not_mem_nil, or_false] at hi
      rcases hi with rfl | rfl <;> simp [hserving, htarget]
  rw [hside i hi, hside j hj]

theorem pdcp_ser_ne_tar (i : Side × RlcMode) : (hdr.pdcpAt i).ser ≠ (hdr.pdcpAt i).tar := by
  have h := hdr.serving_ne_target
  simp [pdcpAt, pdcpMove, h]

theorem rlc_ser_ne_tar (i : Side × RlcMode × Bool × Bool) : (hdr.rlcAt i).ser ≠ (hdr.rlcAt i).tar := by
  obtain ⟨side, mode, tx, rx⟩ := i
  have h := hdr.serving_ne_target
  cases side <;> simp [rlcAt, rlcMove, h]

theorem pdcp_disjoint : Frame.DisjointKeys hdr.pdcpKeys pdcpIndices :=
  Frame.disjointKeys_of_inj hdr.pdcpKeys_inj (by decide)

theorem rlc_disjoint : Frame.DisjointKeys hdr.rlcKeys rlcIndices :=
  Frame.disjointKeys_of_inj hdr.rlcKeys_inj (by decide)

/-- The old and the new entities are different ones. -/
theorem pdcp_ser_ne_tar' (i j : Side × RlcMode) : (hdr.pdcpAt i).ser ≠ (hdr.pdcpAt j).tar := by
  intro h
  have hmem : (hdr.pdcpAt i).ser ∈ hdr.pdcpKeys j := by
    rw [h]
    exact hdr.tar_mem_pdcpKeys j
  obtain rfl : i = j := hdr.pdcpKeys_inj i j _ (hdr.ser_mem_pdcpKeys i) hmem
  exact hdr.pdcp_ser_ne_tar i h

theorem rlc_ser_ne_tar' (i j : Side × RlcMode × Bool × Bool) :
    (hdr.rlcAt i).ser ≠ (hdr.rlcAt j).tar := by
  intro h
  have hmem : (hdr.rlcAt i).ser ∈ hdr.rlcKeys j := by
    rw [h]
    exact hdr.tar_mem_rlcKeys j
  obtain rfl : i = j := hdr.rlcKeys_inj i j _ (hdr.ser_mem_rlcKeys i) hmem
  exact hdr.rlc_ser_ne_tar i h

theorem mem_pdcpEntities_ser {k : PdcpKey} :
    k ∈ pdcpEntities hdr.serveringCellId hdr.serveringCellIf hdr.ueId hdr.ueIf ↔
      ∃ i ∈ pdcpIndices, k = (hdr.pdcpAt i).ser := by
  simp [pdcpEntities, pdcpIndices, pdcpAt, pdcpMove]
  tauto

theorem mem_pdcpEntities_tar {k : PdcpKey} :
    k ∈ pdcpEntities hdr.targetCellId hdr.targetCellIf hdr.ueId hdr.ueIf ↔
      ∃ i ∈ pdcpIndices, k = (hdr.pdcpAt i).tar := by
  simp [pdcpEntities, pdcpIndices, pdcpAt, pdcpMove]
  tauto

end CommandHdr

/-! ## The transfers of the command -/

namespace Network

open CommandHdr (pdcpIndices rlcIndices)

variable (hdr : CommandHdr) (s : Network α)

/-- One block of the PDCP transfers. -/
def pdcpBlock (s : Network α) (i : Side × RlcMode) : Network α := s.pdcpBufferTransfer (hdr.pdcpAt i)

/-- One block of the RLC transfers, at either device. -/
def rlcBlock (s : Network α) (i : Side × RlcMode × Bool × Bool) : Network α :=
  (s.rlcBufferTransfer (hdr.rlcAt i)).modifyRlc (hdr.rlcAt i).tar
    (RlcEntity.relabelUnsent (i.1.relabelSent hdr.targetCellId))

theorem pdcpTransfer_eq : s.pdcpTransfer hdr = pdcpIndices.foldl (pdcpBlock hdr) s := rfl

theorem rlcTransfers_eq :
    (s.rlcGnbBufferTransfer hdr).rlcUeBufferTransfer hdr = rlcIndices.foldl (rlcBlock hdr) s := rfl

theorem pdcpBlock_rlc (i : Side × RlcMode) : (s.pdcpBlock hdr i).rlc = s.rlc := by
  unfold pdcpBlock pdcpBufferTransfer
  split <;> rfl

theorem pdcpBlock_events (i : Side × RlcMode) : (s.pdcpBlock hdr i).events = s.events := by
  unfold pdcpBlock pdcpBufferTransfer
  split <;> rfl

theorem pdcpBlock_framed : Frame.Framed (pdcp (α := α)) hdr.pdcpKeys (pdcpBlock hdr) := by
  intro s i k hk
  obtain ⟨hser, htar⟩ : k ≠ (hdr.pdcpAt i).ser ∧ k ≠ (hdr.pdcpAt i).tar := by
    simpa [CommandHdr.pdcpKeys] using hk
  unfold pdcpBlock pdcpBufferTransfer
  split
  · simp [hser, htar]
  · rfl

theorem pdcpBlock_tar {i : Side × RlcMode} {e e₀ : PdcpEntity α} (hser : s.pdcp (hdr.pdcpAt i).ser = some e)
    (htar : s.pdcp (hdr.pdcpAt i).tar = some e₀) :
    (s.pdcpBlock hdr i).pdcp (hdr.pdcpAt i).tar = some (PdcpEntity.moved hdr i e e₀) := by
  have hne := hdr.pdcp_ser_ne_tar i
  simp [pdcpBlock, pdcpBufferTransfer, hser, htar, hne.symm, PdcpEntity.moved]

/-- The source of a transfer keeps its timers. -/
theorem pdcpBlock_ser_endedIds (i : Side × RlcMode) :
    ((s.pdcpBlock hdr i).pdcp (hdr.pdcpAt i).ser).map PdcpEntity.endedIds =
      (s.pdcp (hdr.pdcpAt i).ser).map PdcpEntity.endedIds := by
  have hne := hdr.pdcp_ser_ne_tar i
  unfold pdcpBlock pdcpBufferTransfer
  split
  · rename_i e e₀ hser htar
    simp [hne, hser, PdcpEntity.endedIds]
  · rfl

theorem rlcBlock_pdcp (i : Side × RlcMode × Bool × Bool) : (s.rlcBlock hdr i).pdcp = s.pdcp :=
  rlcBufferTransfer_pdcp

theorem rlcBlock_framed : Frame.Framed (rlc (α := α)) hdr.rlcKeys (rlcBlock hdr) := by
  intro s i k hk
  obtain ⟨hser, htar⟩ : k ≠ (hdr.rlcAt i).ser ∧ k ≠ (hdr.rlcAt i).tar := by
    simpa [CommandHdr.rlcKeys] using hk
  rw [rlcBlock, modifyRlc_of_ne _ _ _ htar]
  exact rlcBufferTransfer_of_ne hser htar

theorem rlcBlock_tar {i : Side × RlcMode × Bool × Bool} {e e₀ : RlcEntity α}
    (hser : s.rlc (hdr.rlcAt i).ser = some e) (htar : s.rlc (hdr.rlcAt i).tar = some e₀) :
    ∃ e', (s.rlcBlock hdr i).rlc (hdr.rlcAt i).tar = some e' ∧ e'.untimed = (e.moved hdr i).untimed := by
  have htransfer := rlcBufferTransfer_tar (hdr.rlc_ser_ne_tar i) hser htar
  obtain ⟨e₁, hrlc, huntimed⟩ := Option.map_eq_some_iff.1 htransfer
  refine ⟨e₁.relabelUnsent (i.1.relabelSent hdr.targetCellId), ?_, ?_⟩
  · rw [rlcBlock, modifyRlc_self, hrlc]
    rfl
  · -- relabelling does not look at the timers
    exact congrArg (RlcEntity.relabelUnsent (i.1.relabelSent hdr.targetCellId)) huntimed

theorem mem_rlcBlock {i : Side × RlcMode × Bool × Bool} {x : TimerEvent}
    (hx : x.entity ≠ .rlc (hdr.rlcAt i).tar) :
    x ∈ (s.rlcBlock hdr i).events ↔ x ∈ s.events ∧
      ∀ e, s.rlc (hdr.rlcAt i).ser = some e → (s.rlc (hdr.rlcAt i).tar).isSome → x.id ∉ e.endedIds :=
  mem_rlcBufferTransfer (hdr.rlc_ser_ne_tar i) hx

/-- **What the RLC transfers leave of the events that are not the target's.** -/
theorem mem_rlcTransfers {x : TimerEvent} (hx : ∀ i, x.entity ≠ .rlc (hdr.rlcAt i).tar) :
    x ∈ (rlcIndices.foldl (rlcBlock hdr) s).events ↔ x ∈ s.events ∧ ∀ i ∈ rlcIndices,
      ∀ e, s.rlc (hdr.rlcAt i).ser = some e → (s.rlc (hdr.rlcAt i).tar).isSome → x.id ∉ e.endedIds := by
  refine (rlcBlock_framed hdr).foldl_iff (P := fun s => x ∈ s.events) ?_
    (fun s i => mem_rlcBlock hdr s (hx i)) hdr.rlc_disjoint s
  intro s s' i hkeys
  have hser := hkeys _ (hdr.ser_mem_rlcKeys i)
  have htar := hkeys _ (hdr.tar_mem_rlcKeys i)
  rw [hser, htar]

end Network

/-! ## The command as a whole -/

namespace Network

open CommandHdr (pdcpIndices rlcIndices)

variable (hdr : CommandHdr) (s : Network α)

/-- The entities with the target established, before anything is moved. -/
def associated : Network α :=
  (s.pdcpAssociation hdr.targetCellId hdr.targetCellIf hdr.ueId hdr.ueIf true).rlcAssociation
    hdr.targetCellId hdr.targetCellIf hdr.ueId hdr.ueIf true

/-- The entities after all moves, before the source's are removed. -/
def transferred : Network α :=
  rlcIndices.foldl (rlcBlock hdr) (pdcpIndices.foldl (pdcpBlock hdr) (s.associated hdr))

theorem generateHandoverCommandHandle_eq :
    s.generateHandoverCommandHandle hdr =
      ((s.transferred hdr).pdcpAssociation hdr.serveringCellId hdr.serveringCellIf hdr.ueId hdr.ueIf
        false).rlcAssociation hdr.serveringCellId hdr.serveringCellIf hdr.ueId hdr.ueIf false := by
  unfold generateHandoverCommandHandle transferred associated
  rw [← pdcpTransfer_eq, ← rlcTransfers_eq]

theorem rlcSer_nodup : (rlcIndices.map fun i => (hdr.rlcAt i).ser).Nodup := by
  refine List.Nodup.map ?_ (by decide)
  intro i j hij
  have hij : (hdr.rlcAt i).ser = (hdr.rlcAt j).ser := hij
  have hj : (hdr.rlcAt i).ser ∈ hdr.rlcKeys j := by
    rw [hij]
    exact hdr.ser_mem_rlcKeys j
  exact hdr.rlcKeys_inj i j _ (hdr.ser_mem_rlcKeys i) hj

theorem rlcTar_nodup : (rlcIndices.map fun i => (hdr.rlcAt i).tar).Nodup := by
  refine List.Nodup.map ?_ (by decide)
  intro i j hij
  have hij : (hdr.rlcAt i).tar = (hdr.rlcAt j).tar := hij
  have hj : (hdr.rlcAt i).tar ∈ hdr.rlcKeys j := by
    rw [hij]
    exact hdr.tar_mem_rlcKeys j
  exact hdr.rlcKeys_inj i j _ (hdr.tar_mem_rlcKeys i) hj

/-! ### Before the moves -/

theorem associated_pdcp_tar {i : Side × RlcMode} (hi : i ∈ pdcpIndices) :
    (s.associated hdr).pdcp (hdr.pdcpAt i).tar = some ((s.pdcp (hdr.pdcpAt i).tar).getD .new) := by
  rw [associated, rlcAssociation_pdcp]
  exact pdcp_associate s (hdr.mem_pdcpEntities_tar.2 ⟨i, hi, rfl⟩)

theorem associated_pdcp_of_ne {k : PdcpKey} (h : ∀ i ∈ pdcpIndices, k ≠ (hdr.pdcpAt i).tar) :
    (s.associated hdr).pdcp k = s.pdcp k := by
  rw [associated, rlcAssociation_pdcp]
  apply pdcp_associate_of_not_mem
  intro hk
  obtain ⟨i, hi, hki⟩ := hdr.mem_pdcpEntities_tar.1 hk
  exact h i hi hki

theorem associated_rlc_tar {i : Side × RlcMode × Bool × Bool} (hi : i ∈ rlcIndices) :
    (s.associated hdr).rlc (hdr.rlcAt i).tar = some ((s.rlc (hdr.rlcAt i).tar).getD .new) := by
  have hmem : (hdr.rlcAt i).tar ∈ rlcIndices.map fun i => (hdr.rlcAt i).tar :=
    List.mem_map_of_mem hi
  rw [associated, rlc_associate _ (rlcTar_nodup hdr) hmem, pdcpAssociation_rlc]

theorem associated_rlc_of_ne {k : RlcKey} (h : ∀ i ∈ rlcIndices, k ≠ (hdr.rlcAt i).tar) :
    (s.associated hdr).rlc k = s.rlc k := by
  have hk : k ∉ rlcIndices.map fun i => (hdr.rlcAt i).tar := by
    intro hk
    obtain ⟨i, hi, hki⟩ := List.mem_map.1 hk
    exact h i hi hki.symm
  rw [associated, rlcAssociation_of_not_mem _ _ hk, pdcpAssociation_rlc]

theorem associated_events : (s.associated hdr).events = s.events := by
  rw [associated, rlcAssociation_events, pdcp_associate_events]

/-! ### After the moves -/

theorem transferred_pdcp :
    (s.transferred hdr).pdcp = (pdcpIndices.foldl (pdcpBlock hdr) (s.associated hdr)).pdcp :=
  Frame.foldl_eq pdcp (rlcBlock_pdcp hdr) _ _

theorem pdcpFold_rlc (s : Network α) : (pdcpIndices.foldl (pdcpBlock hdr) s).rlc = s.rlc :=
  Frame.foldl_eq rlc (pdcpBlock_rlc hdr) _ _

theorem transferred_pdcp_tar {i : Side × RlcMode} (hi : i ∈ pdcpIndices) {e : PdcpEntity α}
    (he : s.pdcp (hdr.pdcpAt i).ser = some e) :
    ∃ e₀, (s.transferred hdr).pdcp (hdr.pdcpAt i).tar = some (PdcpEntity.moved hdr i e e₀) := by
  obtain ⟨s', hbefore, hafter⟩ :=
    (pdcpBlock_framed hdr).foldl_of_mem hdr.pdcp_disjoint hi (s.associated hdr)
  have hser : s'.pdcp (hdr.pdcpAt i).ser = some e := by
    rw [hbefore _ (hdr.ser_mem_pdcpKeys i),
      associated_pdcp_of_ne hdr s fun j _ => hdr.pdcp_ser_ne_tar' i j, he]
  have htar : s'.pdcp (hdr.pdcpAt i).tar = some ((s.pdcp (hdr.pdcpAt i).tar).getD .new) := by
    rw [hbefore _ (hdr.tar_mem_pdcpKeys i), associated_pdcp_tar hdr s hi]
  refine ⟨(s.pdcp (hdr.pdcpAt i).tar).getD .new, ?_⟩
  rw [transferred_pdcp, hafter _ (hdr.tar_mem_pdcpKeys i)]
  exact pdcpBlock_tar hdr s' hser htar

/-- The old PDCP entities still know the events of their timers. -/
theorem transferred_pdcp_endedIds {i : Side × RlcMode} (hi : i ∈ pdcpIndices) :
    ((s.transferred hdr).pdcp (hdr.pdcpAt i).ser).map PdcpEntity.endedIds =
      (s.pdcp (hdr.pdcpAt i).ser).map PdcpEntity.endedIds := by
  obtain ⟨s', hbefore, hafter⟩ :=
    (pdcpBlock_framed hdr).foldl_of_mem hdr.pdcp_disjoint hi (s.associated hdr)
  have hser : s'.pdcp (hdr.pdcpAt i).ser = s.pdcp (hdr.pdcpAt i).ser := by
    rw [hbefore _ (hdr.ser_mem_pdcpKeys i),
      associated_pdcp_of_ne hdr s fun j _ => hdr.pdcp_ser_ne_tar' i j]
  rw [transferred_pdcp, hafter _ (hdr.ser_mem_pdcpKeys i), pdcpBlock_ser_endedIds, hser]

theorem transferred_pdcp_of_ne {k : PdcpKey}
    (h : ∀ i ∈ pdcpIndices, k ≠ (hdr.pdcpAt i).ser ∧ k ≠ (hdr.pdcpAt i).tar) :
    (s.transferred hdr).pdcp k = s.pdcp k := by
  have hkeys : ∀ i ∈ pdcpIndices, k ∉ hdr.pdcpKeys i := by
    intro i hi hk
    obtain ⟨hser, htar⟩ := h i hi
    simp [CommandHdr.pdcpKeys, hser, htar] at hk
  rw [transferred_pdcp, (pdcpBlock_framed hdr).foldl hkeys,
    associated_pdcp_of_ne hdr s fun i hi => (h i hi).2]

theorem transferred_rlc_tar {i : Side × RlcMode × Bool × Bool} (hi : i ∈ rlcIndices) {e : RlcEntity α}
    (he : s.rlc (hdr.rlcAt i).ser = some e) :
    ∃ e', (s.transferred hdr).rlc (hdr.rlcAt i).tar = some e' ∧
      e'.untimed = (e.moved hdr i).untimed := by
  obtain ⟨s', hbefore, hafter⟩ := (rlcBlock_framed hdr).foldl_of_mem hdr.rlc_disjoint hi
    (pdcpIndices.foldl (pdcpBlock hdr) (s.associated hdr))
  have hser : s'.rlc (hdr.rlcAt i).ser = some e := by
    rw [hbefore _ (hdr.ser_mem_rlcKeys i), pdcpFold_rlc,
      associated_rlc_of_ne hdr s fun j _ => hdr.rlc_ser_ne_tar' i j, he]
  have htar : s'.rlc (hdr.rlcAt i).tar = some ((s.rlc (hdr.rlcAt i).tar).getD .new) := by
    rw [hbefore _ (hdr.tar_mem_rlcKeys i), pdcpFold_rlc, associated_rlc_tar hdr s hi]
  rw [transferred, hafter _ (hdr.tar_mem_rlcKeys i)]
  exact rlcBlock_tar hdr s' hser htar

theorem transferred_rlc_of_ne {k : RlcKey}
    (h : ∀ i ∈ rlcIndices, k ≠ (hdr.rlcAt i).ser ∧ k ≠ (hdr.rlcAt i).tar) :
    (s.transferred hdr).rlc k = s.rlc k := by
  have hkeys : ∀ i ∈ rlcIndices, k ∉ hdr.rlcKeys i := by
    intro i hi hk
    obtain ⟨hser, htar⟩ := h i hi
    simp [CommandHdr.rlcKeys, hser, htar] at hk
  rw [transferred, (rlcBlock_framed hdr).foldl hkeys, pdcpFold_rlc,
    associated_rlc_of_ne hdr s fun i hi => (h i hi).2]

theorem mem_transferred {x : TimerEvent} (hx : ∀ i, x.entity ≠ .rlc (hdr.rlcAt i).tar) :
    x ∈ (s.transferred hdr).events ↔ x ∈ s.events ∧
      ∀ i ∈ rlcIndices, ∀ e, s.rlc (hdr.rlcAt i).ser = some e → x.id ∉ e.endedIds := by
  have hevents : (pdcpIndices.foldl (pdcpBlock hdr) (s.associated hdr)).events = s.events :=
    (Frame.foldl_eq events (pdcpBlock_events hdr) _ _).trans (associated_events hdr s)
  rw [transferred, mem_rlcTransfers hdr _ hx, hevents, pdcpFold_rlc]
  refine and_congr_right fun _ => forall₂_congr fun i hi => forall_congr' fun e => ?_
  rw [associated_rlc_of_ne hdr s fun j _ => hdr.rlc_ser_ne_tar' i j, associated_rlc_tar hdr s hi]
  simp

/-! ### After the removal -/

theorem handover_pdcp_of_ne {k : PdcpKey} (h : ∀ i ∈ pdcpIndices, k ≠ (hdr.pdcpAt i).ser) :
    (s.generateHandoverCommandHandle hdr).pdcp k = (s.transferred hdr).pdcp k := by
  rw [generateHandoverCommandHandle_eq, rlcAssociation_pdcp]
  apply pdcp_dissociate_of_not_mem
  intro hk
  obtain ⟨i, hi, hki⟩ := hdr.mem_pdcpEntities_ser.1 hk
  exact h i hi hki

theorem handover_pdcp_ser {i : Side × RlcMode} (hi : i ∈ pdcpIndices) :
    (s.generateHandoverCommandHandle hdr).pdcp (hdr.pdcpAt i).ser = none := by
  rw [generateHandoverCommandHandle_eq, rlcAssociation_pdcp]
  exact pdcp_dissociate _ (hdr.mem_pdcpEntities_ser.2 ⟨i, hi, rfl⟩)

theorem handover_rlc_of_ne {k : RlcKey} (h : ∀ i ∈ rlcIndices, k ≠ (hdr.rlcAt i).ser) :
    (s.generateHandoverCommandHandle hdr).rlc k = (s.transferred hdr).rlc k := by
  have hk : k ∉ rlcIndices.map fun i => (hdr.rlcAt i).ser := by
    intro hk
    obtain ⟨i, hi, hki⟩ := List.mem_map.1 hk
    exact h i hi hki.symm
  rw [generateHandoverCommandHandle_eq, rlcAssociation_of_not_mem _ _ hk, pdcpAssociation_rlc]

theorem handover_rlc_ser {i : Side × RlcMode × Bool × Bool} (hi : i ∈ rlcIndices) :
    (s.generateHandoverCommandHandle hdr).rlc (hdr.rlcAt i).ser = none := by
  have hmem : (hdr.rlcAt i).ser ∈ rlcIndices.map fun i => (hdr.rlcAt i).ser := List.mem_map_of_mem hi
  rw [generateHandoverCommandHandle_eq]
  exact rlc_dissociate _ (rlcSer_nodup hdr) hmem

/-- **The PDCP entity toward the target after the command.** -/
theorem handover_pdcp_tar {i : Side × RlcMode} (hi : i ∈ pdcpIndices) {e : PdcpEntity α}
    (he : s.pdcp (hdr.pdcpAt i).ser = some e) :
    ∃ e₀, (s.generateHandoverCommandHandle hdr).pdcp (hdr.pdcpAt i).tar =
      some (PdcpEntity.moved hdr i e e₀) := by
  rw [handover_pdcp_of_ne hdr s fun j _ => (hdr.pdcp_ser_ne_tar' j i).symm]
  exact transferred_pdcp_tar hdr s hi he

/-- **The RLC entity toward the target after the command**, but for its timers. -/
theorem handover_rlc_tar {i : Side × RlcMode × Bool × Bool} (hi : i ∈ rlcIndices) {e : RlcEntity α}
    (he : s.rlc (hdr.rlcAt i).ser = some e) :
    ∃ e', (s.generateHandoverCommandHandle hdr).rlc (hdr.rlcAt i).tar = some e' ∧
      e'.untimed = (e.moved hdr i).untimed := by
  rw [handover_rlc_of_ne hdr s fun j _ => (hdr.rlc_ser_ne_tar' j i).symm]
  exact transferred_rlc_tar hdr s hi he

/-- **The events that are left**, of those that are not for the target's entities. -/
theorem mem_handover {x : TimerEvent} (hx : ∀ i, x.entity ≠ .rlc (hdr.rlcAt i).tar) :
    x ∈ (s.generateHandoverCommandHandle hdr).events ↔ x ∈ s.events ∧ ¬ hdr.EndsEvent s x.id := by
  -- a PDCP entity knows its events by id whether or not its buffers are still there
  have hpdcp : (∀ k ∈ pdcpEntities hdr.serveringCellId hdr.serveringCellIf hdr.ueId hdr.ueIf,
      ∀ e, (s.transferred hdr).pdcp k = some e → x.id ∉ e.endedIds) ↔
      ∀ i ∈ pdcpIndices, ∀ e, s.pdcp (hdr.pdcpAt i).ser = some e → x.id ∉ e.endedIds := by
    have hids : ∀ (o : Option (PdcpEntity α)), (∀ e, o = some e → x.id ∉ e.endedIds) ↔
        ∀ ids, o.map PdcpEntity.endedIds = some ids → x.id ∉ ids := by
      intro o
      cases o <;> simp
    constructor
    · intro h i hi
      rw [hids, ← transferred_pdcp_endedIds hdr s hi, ← hids]
      exact h _ (hdr.mem_pdcpEntities_ser.2 ⟨i, hi, rfl⟩)
    · intro h k hk
      obtain ⟨i, hi, rfl⟩ := hdr.mem_pdcpEntities_ser.1 hk
      rw [hids, transferred_pdcp_endedIds hdr s hi, ← hids]
      exact h i hi
  rw [generateHandoverCommandHandle_eq, rlcAssociation_events, mem_pdcp_dissociate, hpdcp,
    mem_transferred hdr s hx, CommandHdr.EndsEvent]
  simp only [not_or, not_exists, not_and]
  exact and_assoc

end Network

/-! ## When the transfer does it -/

namespace CommandHdr

variable (hdr : CommandHdr) (s : Network α)

/-- What is old is not one of the target's entities. -/
theorem isOld_ne_tar {x : EntityRef} (h : hdr.IsOld x) (i : Side × RlcMode × Bool × Bool) :
    x ≠ .rlc (hdr.rlcAt i).tar := by
  rcases h with ⟨j, -, rfl⟩ | ⟨j, -, rfl⟩
  · simp
  · intro h
    exact hdr.rlc_ser_ne_tar' j i (EntityRef.rlc.inj h)

/-- **A handover transfers everything under the target's id and leaves no timer behind exactly
if** the PDCP receive buffers and the RLC transmitted buffers at the source hold nothing that has
another id, and each timer that runs for a source entity is a poll-retransmit or reassembly
timer with its flag set, or a timer of PDCP. -/
theorem transferred_iff :
    hdr.Transferred s (s.generateHandoverCommandHandle hdr) ↔ hdr.Movable s := by
  constructor
  · intro h
    refine ⟨fun i hi e he => ?_, fun i hi e he => ?_, fun x hx hold => ?_⟩
    · -- the target holds the receive buffer as it was
      obtain ⟨e', he', -, -, hreceived⟩ := h.pdcp i hi e he
      obtain ⟨e₀, hmoved⟩ := s.handover_pdcp_tar hdr hi he
      obtain rfl := Option.some.inj (he'.symm.trans hmoved)
      exact (PdcpEntity.receivedCarry_moved hdr i).1 hreceived
    · obtain ⟨e', he', -, -, htransmitted, -⟩ := h.rlc i hi e he
      obtain ⟨e₁, he₁, huntimed⟩ := s.handover_rlc_tar hdr hi he
      obtain rfl := Option.some.inj (he'.symm.trans he₁)
      rw [← RlcEntity.transmittedCarry_untimed, huntimed] at htransmitted
      exact htransmitted
    · -- an event that no entity knows by its id is left
      by_contra hends
      have hleft := (s.mem_handover hdr (hdr.isOld_ne_tar hold)).2 ⟨hx, hends⟩
      exact h.timers x hleft hold
  · intro h
    refine ⟨fun i hi e he => ?_, fun i hi e he => ?_, fun i hi => s.handover_pdcp_ser hdr hi,
      fun i hi => s.handover_rlc_ser hdr hi, fun k hk => ?_, fun k hk => ?_, fun x hx hold => ?_⟩
    · obtain ⟨e₀, hmoved⟩ := s.handover_pdcp_tar hdr hi he
      exact ⟨_, hmoved, PdcpEntity.sdus_moved hdr i, PdcpEntity.sentCarry_moved hdr i,
        (PdcpEntity.receivedCarry_moved hdr i).2 (h.received i hi e he)⟩
    · -- nothing of it is about the timers
      obtain ⟨e', he', huntimed⟩ := s.handover_rlc_tar hdr hi he
      refine ⟨e', he', ?_, ?_, ?_, ?_⟩
      · rw [← RlcEntity.sdus_untimed, huntimed, RlcEntity.sdus_untimed, RlcEntity.sdus_moved]
      · rw [← RlcEntity.unsentCarry_untimed, huntimed]
        exact RlcEntity.unsentCarry_moved hdr i
      · rw [← RlcEntity.transmittedCarry_untimed, huntimed]
        exact (RlcEntity.transmittedCarry_moved hdr i).2 (h.transmitted i hi e he)
      · rw [← RlcEntity.receivedCarry_untimed, huntimed]
        exact RlcEntity.receivedCarry_moved hdr i
    · rw [s.handover_pdcp_of_ne hdr fun i hi => (hk i hi).1, s.transferred_pdcp_of_ne hdr hk]
    · rw [s.handover_rlc_of_ne hdr fun i hi => (hk i hi).1, s.transferred_rlc_of_ne hdr hk]
    · obtain ⟨hmem, hends⟩ := (s.mem_handover hdr (hdr.isOld_ne_tar hold)).1 hx
      exact hends (h.timers x hmem hold)

end CommandHdr

/-! ## An SDU that keeps the old id -/

/-- The UE 3 hands over from the gNB 1 to the gNB 2. -/
def hdrOne : CommandHdr := ⟨1, 1, 3, 1, 2, 1, by decide, by decide, by decide⟩

def amAtSource : RlcKey := ⟨1, 1, 3, 1, .am, true, true⟩

/-- One SDU is sent, and the poll for its acknowledgement is running. -/
def sentOne : RlcEntity ℕ :=
  { RlcEntity.new with
    transmittedBuffer := [⟨.all, 0, 0, 0, .dtch, ⟨7, 1, 3⟩, false, false⟩]
    pollRetransmit := ⟨1, true⟩ }

def networkOne : Network ℕ where
  pdcp _ := none
  rlc k := if k = amAtSource then some sentOne else none
  events := [⟨1, .rlcTPollRetransmit, .rlc amAtSource⟩]
  nextEventId := 2

/-- The SDU waits for its acknowledgement at the gNB 2 under the id of the gNB 1. -/
theorem CommandHdr.stale_id :
    ¬ hdrOne.Transferred networkOne (networkOne.generateHandoverCommandHandle hdrOne) := by
  intro h
  have hi : (Side.gnb, RlcMode.am, true, true) ∈ rlcIndices := by decide
  have hser : networkOne.rlc (hdrOne.rlcAt (.gnb, .am, true, true)).ser = some sentOne := rfl
  obtain ⟨e', he', -, -, htransmitted, -⟩ := h.rlc _ hi sentOne hser
  obtain ⟨e₁, he₁, huntimed⟩ := networkOne.handover_rlc_tar hdrOne hi hser
  obtain rfl := Option.some.inj (he'.symm.trans he₁)
  rw [← RlcEntity.transmittedCarry_untimed, huntimed] at htransmitted
  have hid : (1 : ℕ) = 2 := htransmitted _ List.mem_cons_self
  exact absurd hid (by decide)

end NetSim.Transfer
