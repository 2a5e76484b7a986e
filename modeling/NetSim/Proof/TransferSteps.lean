import NetSim.Lib.Frame
import NetSim.Spec.Transfer

/-!
# The steps of the transfer

What one buffer transfer between two RLC entities writes and which events it ends, and what
the association and the dissociation of a gNB and a UE do to the entities and the events.
-/

namespace NetSim.Transfer

variable {α : Type*}

/-- The events that a transfer ends of an RLC entity: the flag of each timer is looked at. -/
def RlcEntity.endedIds (e : RlcEntity α) : List ℕ :=
  (if e.pollRetransmit.isStarted then [e.pollRetransmit.id] else []) ++
    if e.reassembly.isStarted then [e.reassembly.id] else []

/-- The events that the removal of a PDCP entity ends. -/
def PdcpEntity.endedIds (e : PdcpEntity α) : List ℕ := [e.discardTimer.id, e.tReordering.id]

/-- The entity without its timers. -/
def RlcEntity.untimed (e : RlcEntity α) : RlcEntity α :=
  { e with pollRetransmit := .zero, reassembly := .zero, statusProhibit := .zero }

/-! ## One transfer between two RLC entities -/

namespace Network

variable (s : Network α)

/-- The RLC entities without their timers. -/
def untimedRlc (k : RlcKey) : Option (RlcEntity α) := (s.rlc k).map RlcEntity.untimed

theorem untimedRlc_modifyRlc (k : RlcKey) {f : RlcEntity α → RlcEntity α}
    (hf : ∀ e, (f e).untimed = e.untimed) : (s.modifyRlc k f).untimedRlc = s.untimedRlc := by
  funext k'
  by_cases hk : k' = k
  · subst hk
    cases hs : s.rlc k' with
    | none => simp [untimedRlc, hs]
    | some e => simp [untimedRlc, hs, hf e]
  · simp [untimedRlc, hk]

theorem untimedRlc_startPollRetransmit (k : RlcKey) :
    (s.startPollRetransmitTimer k).untimedRlc = s.untimedRlc :=
  untimedRlc_modifyRlc _ k fun _ => rfl

theorem untimedRlc_startReassembly (k : RlcKey) :
    (s.startReassemblyTimer k).untimedRlc = s.untimedRlc :=
  untimedRlc_modifyRlc _ k fun _ => rfl

theorem untimedRlc_stopPollRetransmit (k : RlcKey) :
    (s.stopPollRetransmitTimer k).untimedRlc = s.untimedRlc := by
  unfold stopPollRetransmitTimer
  split
  · split
    · exact untimedRlc_modifyRlc (s.deleteEvent _) k fun _ => rfl
    · rfl
  · rfl

@[simp] theorem startPollRetransmit_of_ne {k k' : RlcKey} (h : k' ≠ k) :
    (s.startPollRetransmitTimer k).rlc k' = s.rlc k' := by
  simp [startPollRetransmitTimer, h]

@[simp] theorem startReassembly_of_ne {k k' : RlcKey} (h : k' ≠ k) :
    (s.startReassemblyTimer k).rlc k' = s.rlc k' := by
  simp [startReassemblyTimer, h]

@[simp] theorem stopPollRetransmit_of_ne {k k' : RlcKey} (h : k' ≠ k) :
    (s.stopPollRetransmitTimer k).rlc k' = s.rlc k' := by
  unfold stopPollRetransmitTimer
  split
  · split <;> simp [h]
  · rfl

@[simp] theorem startPollRetransmit_pdcp (k : RlcKey) : (s.startPollRetransmitTimer k).pdcp = s.pdcp := rfl

@[simp] theorem startReassembly_pdcp (k : RlcKey) : (s.startReassemblyTimer k).pdcp = s.pdcp := rfl

@[simp] theorem stopPollRetransmit_pdcp (k : RlcKey) : (s.stopPollRetransmitTimer k).pdcp = s.pdcp := by
  unfold stopPollRetransmitTimer
  split
  · split <;> rfl
  · rfl

theorem mem_startPollRetransmit {k : RlcKey} {x : TimerEvent} (hx : x.entity ≠ .rlc k) :
    x ∈ (s.startPollRetransmitTimer k).events ↔ x ∈ s.events := by
  have hnew : x ≠ ⟨s.nextEventId, .rlcTPollRetransmit, .rlc k⟩ := fun h => hx (by rw [h])
  simp [startPollRetransmitTimer, hnew]

theorem mem_startReassembly {k : RlcKey} {x : TimerEvent} (hx : x.entity ≠ .rlc k) :
    x ∈ (s.startReassemblyTimer k).events ↔ x ∈ s.events := by
  have hnew : x ≠ ⟨s.nextEventId, .rlcTReassembly, .rlc k⟩ := fun h => hx (by rw [h])
  simp [startReassemblyTimer, hnew]

theorem mem_stopPollRetransmit {k : RlcKey} {e : RlcEntity α} (hk : s.rlc k = some e)
    (hstarted : e.pollRetransmit.isStarted = true) {x : TimerEvent} :
    x ∈ (s.stopPollRetransmitTimer k).events ↔ x ∈ s.events ∧ x.id ≠ e.pollRetransmit.id := by
  simp [stopPollRetransmitTimer, hk, hstarted]

section

variable {s} {m : Move RlcKey} (hne : m.ser ≠ m.tar)

/-- The entities after the buffers are moved, before the timers are. -/
def moveBuffers (s : Network α) (m : Move RlcKey) (ser : RlcEntity α) : Network α :=
  (s.modifyRlc m.tar fun _ => ser.takeOver m.tar m.flag).modifyRlc m.ser RlcEntity.giveAway

theorem rlcBufferTransfer_eq {e e₀ : RlcEntity α} (hser : s.rlc m.ser = some e)
    (htar : s.rlc m.tar = some e₀) :
    s.rlcBufferTransfer m =
      let s := s.moveBuffers m e
      let s := if e.pollRetransmit.isStarted then
          startPollRetransmitTimer m.tar (s.stopPollRetransmitTimer m.ser) else s
      if e.reassembly.isStarted then startReassemblyTimer m.tar (s.deleteEvent e.reassembly.id) else s := by
  simp only [rlcBufferTransfer, hser, htar, moveBuffers]

/-- Where one of the two entities is missing nothing is moved. -/
theorem rlcBufferTransfer_of_none (h : s.rlc m.ser = none ∨ s.rlc m.tar = none) :
    s.rlcBufferTransfer m = s := by
  unfold rlcBufferTransfer
  rcases h with h | h
  · simp [h]
  · cases hser : s.rlc m.ser <;> simp [h]

theorem rlcBufferTransfer_of_ne {k : RlcKey} (hser : k ≠ m.ser) (htar : k ≠ m.tar) :
    (s.rlcBufferTransfer m).rlc k = s.rlc k := by
  unfold rlcBufferTransfer
  split
  · split_ifs <;> simp [hser, htar]
  · rfl

theorem rlcBufferTransfer_pdcp : (s.rlcBufferTransfer m).pdcp = s.pdcp := by
  unfold rlcBufferTransfer
  split
  · split_ifs <;> simp
  · rfl

include hne

theorem moveBuffers_tar {e e₀ : RlcEntity α} (htar : s.rlc m.tar = some e₀) :
    (s.moveBuffers m e).rlc m.tar = some (e.takeOver m.tar m.flag) := by
  simp [moveBuffers, hne.symm, htar]

theorem moveBuffers_ser {e : RlcEntity α} (hser : s.rlc m.ser = some e) :
    (s.moveBuffers m e).rlc m.ser = some e.giveAway := by
  simp [moveBuffers, hne, hser]

/-- **The target of a transfer takes over everything but the timers.** -/
theorem rlcBufferTransfer_tar {e e₀ : RlcEntity α} (hser : s.rlc m.ser = some e)
    (htar : s.rlc m.tar = some e₀) :
    (s.rlcBufferTransfer m).untimedRlc m.tar = some (e.takeOver m.tar m.flag).untimed := by
  have hmoved : (s.moveBuffers m e).untimedRlc m.tar = some (e.takeOver m.tar m.flag).untimed := by
    rw [untimedRlc, moveBuffers_tar hne htar]
    rfl
  rw [rlcBufferTransfer_eq hser htar]
  dsimp only
  rw [← hmoved]
  -- starting and stopping timers writes to nothing else
  have hdelete : ∀ (s : Network α) (id : ℕ), (s.deleteEvent id).untimedRlc = s.untimedRlc := fun _ _ => rfl
  split_ifs <;>
    simp only [untimedRlc_startReassembly, untimedRlc_startPollRetransmit,
      untimedRlc_stopPollRetransmit, hdelete]

/-- **A transfer ends the events that its source knows by id.** -/
theorem mem_rlcBufferTransfer {x : TimerEvent} (hx : x.entity ≠ .rlc m.tar) :
    x ∈ (s.rlcBufferTransfer m).events ↔
      x ∈ s.events ∧ ∀ e, s.rlc m.ser = some e → (s.rlc m.tar).isSome → x.id ∉ e.endedIds := by
  cases hser : s.rlc m.ser with
  | none => simp [rlcBufferTransfer_of_none (.inl hser)]
  | some e =>
    cases htar : s.rlc m.tar with
    | none => simp [rlcBufferTransfer_of_none (.inr htar)]
    | some e₀ =>
      have hmoved : ∀ x, x ∈ (s.moveBuffers m e).events ↔ x ∈ s.events := fun _ => Iff.rfl
      have hser' := moveBuffers_ser hne hser
      rw [rlcBufferTransfer_eq hser htar]
      dsimp only
      cases hpoll : e.pollRetransmit.isStarted <;> cases hreass : e.reassembly.isStarted
      · simp [RlcEntity.endedIds, hpoll, hreass, hmoved]
      · simp [RlcEntity.endedIds, hpoll, hreass, mem_startReassembly _ hx, hmoved]
      · simp [RlcEntity.endedIds, hpoll, hreass, mem_startPollRetransmit _ hx,
          mem_stopPollRetransmit _ hser' hpoll, hmoved, RlcEntity.giveAway]
      · simp [RlcEntity.endedIds, hpoll, hreass, mem_startReassembly _ hx,
          mem_startPollRetransmit _ hx, mem_stopPollRetransmit _ hser' hpoll, hmoved,
          RlcEntity.giveAway, and_assoc]

end

end Network

/-! ## Association and dissociation -/

namespace Network

variable (s : Network α) (gnbId gnbIf ueId ueIf : ℕ)

theorem createPdcpEntity_framed : Frame.Framed (pdcp (α := α)) (fun k => [k]) createPdcpEntity := by
  intro s m k hk
  exact Function.update_of_ne (List.ne_of_not_mem_cons hk) _ _

theorem removePdcpEntity_framed : Frame.Framed (pdcp (α := α)) (fun k => [k]) removePdcpEntity := by
  intro s m k hk
  unfold removePdcpEntity
  split
  · exact Function.update_of_ne (List.ne_of_not_mem_cons hk) _ _
  · rfl

theorem establishRlcEntity_framed : Frame.Framed (rlc (α := α)) (fun k => [k]) establishRlcEntity := by
  intro s m k hk
  exact Function.update_of_ne (List.ne_of_not_mem_cons hk) _ _

theorem unestablishRlcEntity_framed :
    Frame.Framed (rlc (α := α)) (fun k => [k]) unestablishRlcEntity := by
  intro s m k hk
  exact Function.update_of_ne (List.ne_of_not_mem_cons hk) _ _

theorem removePdcpEntity_self (k : PdcpKey) : (s.removePdcpEntity k).pdcp k = none := by
  unfold removePdcpEntity
  split
  · exact Function.update_self ..
  · assumption

theorem removePdcpEntity_rlc (k : PdcpKey) : (s.removePdcpEntity k).rlc = s.rlc := by
  unfold removePdcpEntity
  split <;> rfl

theorem mem_removePdcpEntity (k : PdcpKey) (x : TimerEvent) :
    x ∈ (s.removePdcpEntity k).events ↔
      x ∈ s.events ∧ ∀ e, s.pdcp k = some e → x.id ∉ e.endedIds := by
  cases hk : s.pdcp k with
  | none => simp [removePdcpEntity, hk]
  | some e => simp [removePdcpEntity, hk, PdcpEntity.endedIds, and_assoc]

theorem pdcpEntities_nodup : (pdcpEntities gnbId gnbIf ueId ueIf).Nodup := by simp [pdcpEntities]

variable {gnbId gnbIf ueId ueIf} {k : PdcpKey}

theorem pdcp_associate (hk : k ∈ pdcpEntities gnbId gnbIf ueId ueIf) :
    (s.pdcpAssociation gnbId gnbIf ueId ueIf true).pdcp k = some ((s.pdcp k).getD .new) := by
  obtain ⟨s', hbefore, hafter⟩ := createPdcpEntity_framed.foldl_of_mem
    (Frame.disjointKeys_singleton (pdcpEntities_nodup gnbId gnbIf ueId ueIf)) hk s
  have hs' : s'.pdcp k = s.pdcp k := hbefore k List.mem_cons_self
  have hself : (s'.createPdcpEntity k).pdcp k = some ((s'.pdcp k).getD .new) := Function.update_self ..
  exact (hafter k List.mem_cons_self).trans (by rw [hself, hs'])

theorem pdcp_associate_of_not_mem (hk : k ∉ pdcpEntities gnbId gnbIf ueId ueIf) :
    (s.pdcpAssociation gnbId gnbIf ueId ueIf true).pdcp k = s.pdcp k :=
  createPdcpEntity_framed.foldl_of_not_mem hk s

theorem pdcp_dissociate (hk : k ∈ pdcpEntities gnbId gnbIf ueId ueIf) :
    (s.pdcpAssociation gnbId gnbIf ueId ueIf false).pdcp k = none := by
  obtain ⟨s', -, hafter⟩ := removePdcpEntity_framed.foldl_of_mem
    (Frame.disjointKeys_singleton (pdcpEntities_nodup gnbId gnbIf ueId ueIf)) hk s
  exact (hafter k List.mem_cons_self).trans (removePdcpEntity_self s' k)

theorem pdcp_dissociate_of_not_mem (hk : k ∉ pdcpEntities gnbId gnbIf ueId ueIf) :
    (s.pdcpAssociation gnbId gnbIf ueId ueIf false).pdcp k = s.pdcp k :=
  removePdcpEntity_framed.foldl_of_not_mem hk s

theorem pdcpAssociation_rlc (b : Bool) : (s.pdcpAssociation gnbId gnbIf ueId ueIf b).rlc = s.rlc := by
  cases b
  · exact Frame.foldl_eq rlc removePdcpEntity_rlc _ s
  · exact Frame.foldl_eq rlc createPdcpEntity_rlc _ s

theorem pdcp_associate_events : (s.pdcpAssociation gnbId gnbIf ueId ueIf true).events = s.events :=
  Frame.foldl_eq events createPdcpEntity_events _ s

/-- The removal ends the events that the entities know by their ids. -/
theorem mem_pdcp_dissociate (x : TimerEvent) :
    x ∈ (s.pdcpAssociation gnbId gnbIf ueId ueIf false).events ↔
      x ∈ s.events ∧ ∀ k ∈ pdcpEntities gnbId gnbIf ueId ueIf, ∀ e, s.pdcp k = some e →
        x.id ∉ e.endedIds := by
  refine removePdcpEntity_framed.foldl_iff (P := fun s => x ∈ s.events)
    (Q := fun s k => ∀ e, s.pdcp k = some e → x.id ∉ e.endedIds) ?_
    (fun s k => mem_removePdcpEntity s k x)
    (Frame.disjointKeys_singleton (pdcpEntities_nodup gnbId gnbIf ueId ueIf)) s
  intro s s' k hk
  rw [hk k List.mem_cons_self]

theorem rlcAssociation_pdcp (b : Bool) : (s.rlcAssociation gnbId gnbIf ueId ueIf b).pdcp = s.pdcp := by
  cases b
  · exact Frame.foldl_eq pdcp unestablishRlcEntity_pdcp _ s
  · exact Frame.foldl_eq pdcp establishRlcEntity_pdcp _ s

theorem rlcAssociation_events (b : Bool) :
    (s.rlcAssociation gnbId gnbIf ueId ueIf b).events = s.events := by
  cases b
  · exact Frame.foldl_eq events unestablishRlcEntity_events _ s
  · exact Frame.foldl_eq events establishRlcEntity_events _ s

/-- The RLC entities between a gNB and a UE, at both. -/
theorem rlcAssociation_of_not_mem {k : RlcKey} (b : Bool)
    (hk : k ∉ rlcEntities gnbId gnbIf ueId ueIf ++ rlcEntities ueId ueIf gnbId gnbIf) :
    (s.rlcAssociation gnbId gnbIf ueId ueIf b).rlc k = s.rlc k := by
  cases b
  · exact unestablishRlcEntity_framed.foldl_of_not_mem hk s
  · exact establishRlcEntity_framed.foldl_of_not_mem hk s

variable {k : RlcKey}
  (hnd : (rlcEntities gnbId gnbIf ueId ueIf ++ rlcEntities ueId ueIf gnbId gnbIf).Nodup)
  (hk : k ∈ rlcEntities gnbId gnbIf ueId ueIf ++ rlcEntities ueId ueIf gnbId gnbIf)

include hnd hk

theorem rlc_associate :
    (s.rlcAssociation gnbId gnbIf ueId ueIf true).rlc k = some ((s.rlc k).getD .new) := by
  obtain ⟨s', hbefore, hafter⟩ :=
    establishRlcEntity_framed.foldl_of_mem (Frame.disjointKeys_singleton hnd) hk s
  have hs' : s'.rlc k = s.rlc k := hbefore k List.mem_cons_self
  have hself : (s'.establishRlcEntity k).rlc k = some ((s'.rlc k).getD .new) := Function.update_self ..
  exact (hafter k List.mem_cons_self).trans (by rw [hself, hs'])

theorem rlc_dissociate : (s.rlcAssociation gnbId gnbIf ueId ueIf false).rlc k = none := by
  obtain ⟨s', -, hafter⟩ :=
    unestablishRlcEntity_framed.foldl_of_mem (Frame.disjointKeys_singleton hnd) hk s
  exact (hafter k List.mem_cons_self).trans (Function.update_self ..)

end Network

end NetSim.Transfer
