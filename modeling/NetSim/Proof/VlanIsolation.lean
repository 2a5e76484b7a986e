import Mathlib.Tactic.Linarith
import Mathlib.Tactic.Ring
import NetSim.Proof.SwitchLearning

/-!
# VLANs of a switch

The loops that flood a frame leave out the port it came from and those that block. A frame whose destination is
known is sent without a look at the state of the port; from an access port also without a look at where it came
from. What leaves on a port is the frame as `store_eth_param_macin` has left it.

* `copiesOk_forwardFrame`: a frame from an access port.
* `copiesOk_routed`: one from a trunk, or from the network layer.
* `vlan_isolation`: when all copies of a frame are right.
* `vlan_blocked_port`: a copy that leaves on a port that blocks.
-/

namespace NetSim.Ethernet

variable {μ ι N X : Type} {D : Device μ ι N X} {s s' : State μ ι} {port arrival v : ℕ} {packet p : Packet μ N X}
  {l : ι}

/-! ## What a copy may be -/

/-- The VLAN of the tag of a packet. -/
def tagOf (D : Device μ ι N X) (packet : Packet μ N X) : Option ℕ :=
  (D.lib.getEthHdrVar packet.ethData).bind fun tag => if tag.tpId = vlanTpid then some tag.vid.toNat else none

/-- The port belongs to the VLAN and is no trunk. -/
def IsAccess (D : Device μ ι N X) (v port : ℕ) : Prop :=
  port ∉ D.trunkPortIds ∧ ∃ l, port ∈ (D.lan l).interfaceId ∧ (D.lan l).vlanId.toNat = v

/-- Without a tag a packet fits an access port of the VLAN, and with a tag of the VLAN a trunk. The size counts the
tag if there is one. -/
def Fits (D : Device μ ι N X) (v : ℕ) (packet : Packet μ N X) (port : ℕ) : Prop :=
  match tagOf D packet with
  | none => IsAccess D v port ∧ packet.dPacketSize = packet.dPayload + ethernetFrameHeaderLen
  | some vid => port ∈ D.trunkPortIds ∧ vid = v ∧
      packet.dPacketSize = packet.dPayload + ethernetFrameHeaderLen + tagLen

/-- **All copies are right.** -/
def CopiesOk (D : Device μ ι N X) (s : State μ ι) (v arrival : ℕ) (outs : List (Out μ N X)) : Prop :=
  ∀ port packet, .physicalOut port packet ∈ outs → port ≠ arrival ∧ s.portState port ≠ .blocking ∧ Fits D v packet port

/-- What is relied on of the functions that store something with a packet. -/
structure EthLib.Tags (lib : EthLib μ N X) : Prop where
  set : ∀ tag x, lib.getEthHdrVar (lib.setEthHdr tag x) = some tag
  clear : ∀ x, lib.getEthHdrVar (lib.clearEthIncoming x) = lib.getEthHdrVar x

theorem mem_copyTo {ports : List ℕ} {goes : ℕ → Bool} :
    .physicalOut port p ∈ Device.copyTo ports goes packet ↔ (port ∈ ports ∧ goes port = true) ∧ p = packet := by
  unfold Device.copyTo
  rw [List.mem_map]
  constructor
  · rintro ⟨port', hport, heq⟩
    obtain ⟨rfl, rfl⟩ := Out.physicalOut.inj heq
    exact ⟨List.mem_filter.1 hport, rfl⟩
  · rintro ⟨hport, rfl⟩
    exact ⟨port, List.mem_filter.2 hport, rfl⟩

theorem copiesOk_append {a b : List (Out μ N X)} :
    CopiesOk D s v arrival (a ++ b) ↔ CopiesOk D s v arrival a ∧ CopiesOk D s v arrival b := by
  constructor
  · intro h
    exact ⟨fun port p hp => h port p (List.mem_append_left b hp), fun port p hp => h port p (List.mem_append_right a hp)⟩
  · rintro ⟨ha, hb⟩ port p hp
    rcases List.mem_append.1 hp with hp | hp
    · exact ha port p hp
    · exact hb port p hp

theorem copiesOk_nil : CopiesOk D s v arrival [] := fun _ _ h => absurd h List.not_mem_nil

/-- A loop that leaves out the port of the arrival and those that block. -/
theorem copiesOk_copyTo {ports : List ℕ} {goes : ℕ → Bool}
    (hgoes : ∀ port, goes port = true → port ≠ arrival ∧ s.portState port ≠ .blocking) :
    CopiesOk D s v arrival (Device.copyTo ports goes p) ↔ ∀ port ∈ ports, goes port = true → Fits D v p port := by
  constructor
  · intro h port hport hgo
    exact (h port p (mem_copyTo.2 ⟨⟨hport, hgo⟩, rfl⟩)).2.2
  · intro h port q hq
    obtain ⟨⟨hport, hgo⟩, rfl⟩ := mem_copyTo.1 hq
    obtain ⟨hne, hstate⟩ := hgoes port hgo
    exact ⟨hne, hstate, h port hport hgo⟩

theorem fits_clear (ht : D.lib.Tags) : Fits D v (D.clearEthIncoming p) port ↔ Fits D v p port := by
  have htag : tagOf D (D.clearEthIncoming p) = tagOf D p := by
    unfold tagOf Device.clearEthIncoming
    dsimp only
    rw [ht.clear]
  unfold Fits
  rw [htag]
  exact Iff.rfl

/-- A copy with a new tag fits a trunk if the size of the frame does not count another tag. -/
theorem fits_addVlanTag (ht : D.lib.Tags) {vlanId : UInt16} (hv : vlanId.toNat = v) (hlt : v < 4096)
    (hport : port ∈ D.trunkPortIds) :
    Fits D v (D.addVlanTag vlanId (D.clearEthIncoming p)) port ↔ p.dOverhead = ethernetFrameHeaderLen := by
  have htag : tagOf D (D.addVlanTag vlanId (D.clearEthIncoming p)) = some v := by
    unfold tagOf Device.addVlanTag
    dsimp only
    rw [ht.set, Option.bind_some, if_pos rfl, BitVec.toNat_setWidth, UInt16.toNat_toBitVec, hv, Nat.mod_eq_of_lt hlt]
  unfold Fits
  rw [htag]
  show port ∈ D.trunkPortIds ∧ v = v ∧ p.dOverhead + tagLen + p.dPayload = p.dPayload + ethernetFrameHeaderLen + tagLen ↔ _
  constructor
  · rintro ⟨-, -, hsize⟩
    linarith
  · intro hover
    refine ⟨hport, rfl, ?_⟩
    rw [hover]
    ring

/-! ## Routines -/

variable [DecidableEq μ] [DecidableEq ι]

/-- The copies for the trunks: they get a tag of their own, so the frame may bring none in its size. -/
def TrunksOk (D : Device μ ι N X) (s : State μ ι) (arrival : ℕ) (packet : Packet μ N X) : Prop :=
  ∀ port ∈ D.trunkPortIds, port ≠ arrival → D.isOpen s packet port = true → packet.dOverhead = ethernetFrameHeaderLen

/-- The copies for the ports of the LAN: the frame leaves as it is. -/
def PortsOk (D : Device μ ι N X) (s : State μ ι) (v arrival : ℕ) (l : ι) (packet : Packet μ N X) : Prop :=
  ∀ port ∈ (D.lan l).interfaceId, port ≠ arrival → D.isOpen s packet port = true → Fits D v packet port

/-- The frame leaves as it is on a port that is known for its destination, which does not block. -/
def KnownOk (D : Device μ ι N X) (s : State μ ι) (v f : ℕ) (packet : Packet μ N X) : Prop :=
  s.portState f ≠ .blocking ∧ Fits D v packet f

/-- The condition for a frame of a trunk or of the network layer. -/
def RoutedOk (D : Device μ ι N X) (s : State μ ι) (v arrival f : ℕ) (l : ι) (packet : Packet μ N X) : Prop :=
  (f ≠ 0 → D.macFirewall f packet.upper .outbound = true → f ≠ arrival → KnownOk D s v f packet) ∧
  (f = 0 → TrunksOk D s arrival packet ∧ PortsOk D s v arrival l packet)

omit [DecidableEq μ] [DecidableEq ι] in
theorem copiesOk_forwardToTrunk (ht : D.lib.Tags) (hisVlan : D.isVLAN = true) {vlanId : UInt16}
    (hv : vlanId.toNat = v) (hlt : v < 4096) :
    CopiesOk D s v arrival (D.vlanForwardToTrunk s arrival vlanId p) ↔ TrunksOk D s arrival p := by
  unfold Device.vlanForwardToTrunk
  rw [if_pos hisVlan, copiesOk_copyTo]
  · constructor
    · intro h port hport hne hopen
      refine (fits_addVlanTag ht hv hlt hport).1 (h port hport ?_)
      rw [Bool.and_eq_true, decide_eq_true_iff]
      exact ⟨hne, hopen⟩
    · intro h port hport hgo
      rw [Bool.and_eq_true, decide_eq_true_iff] at hgo
      exact (fits_addVlanTag ht hv hlt hport).2 (h port hport hgo.1 hgo.2)
  · intro port hgo
    rw [Bool.and_eq_true, decide_eq_true_iff] at hgo
    exact ⟨hgo.1, (isOpen_iff.1 hgo.2).1⟩

omit [DecidableEq μ] [DecidableEq ι] in
theorem copiesOk_flood (ht : D.lib.Tags) {goes : ℕ → Bool}
    (hgoes : ∀ port, goes port = true ↔ port ≠ arrival ∧ D.isOpen s p port = true) :
    CopiesOk D s v arrival (Device.copyTo (D.lan l).interfaceId goes (D.clearEthIncoming p)) ↔
      PortsOk D s v arrival l p := by
  rw [copiesOk_copyTo fun port hgo => ⟨((hgoes port).1 hgo).1, (isOpen_iff.1 ((hgoes port).1 hgo).2).1⟩]
  constructor
  · intro h port hport hne hopen
    exact (fits_clear ht).1 (h port hport ((hgoes port).2 ⟨hne, hopen⟩))
  · intro h port hport hgo
    obtain ⟨hne, hopen⟩ := (hgoes port).1 hgo
    exact (fits_clear ht).2 (h port hport hne hopen)

omit [DecidableEq μ] [DecidableEq ι] in
theorem copiesOk_single (ht : D.lib.Tags) {f : ℕ} :
    CopiesOk D s v arrival [.physicalOut f (D.clearEthIncoming p)] ↔ f ≠ arrival ∧ KnownOk D s v f p := by
  constructor
  · intro h
    obtain ⟨hne, hstate, hfits⟩ := h f _ List.mem_cons_self
    exact ⟨hne, hstate, (fits_clear ht).1 hfits⟩
  · rintro ⟨hne, hstate, hfits⟩ port q hq
    obtain ⟨rfl, rfl⟩ := Out.physicalOut.inj (List.mem_singleton.1 hq)
    exact ⟨hne, hstate, (fits_clear ht).2 hfits⟩

omit [DecidableEq μ] [DecidableEq ι] in
/-- **A frame of a trunk, or of the network layer.** -/
theorem copiesOk_routed (ht : D.lib.Tags) (hisVlan : D.isVLAN = true) {vlanId : UInt16} (hv : vlanId.toNat = v)
    (hlt : v < 4096) {goes : ℕ → Bool} (hgoes : ∀ port, goes port = true ↔ port ≠ arrival ∧ D.isOpen s p port = true)
    (f : ℕ) :
    CopiesOk D s v arrival (if f ≠ 0 then
      if D.macFirewall f p.upper .outbound && f ≠ arrival then [.physicalOut f (D.clearEthIncoming p)] else []
      else D.vlanForwardToTrunk s arrival vlanId p ++
        Device.copyTo (D.lan l).interfaceId goes (D.clearEthIncoming p)) ↔ RoutedOk D s v arrival f l p := by
  unfold RoutedOk
  by_cases hf : f = 0
  · rw [if_neg (not_not.2 hf), copiesOk_append, copiesOk_forwardToTrunk ht hisVlan hv hlt, copiesOk_flood ht hgoes]
    exact ⟨fun h => ⟨fun hne => absurd hf hne, fun _ => h⟩, fun h => h.2 hf⟩
  · rw [if_pos hf]
    split
    · rename_i hgo
      rw [Bool.and_eq_true, decide_eq_true_iff] at hgo
      rw [copiesOk_single ht]
      exact ⟨fun h => ⟨fun _ _ _ => h.2, fun h0 => absurd h0 hf⟩, fun h => ⟨hgo.2, h.1 hf hgo.1 hgo.2⟩⟩
    · rename_i hgo
      refine iff_of_true copiesOk_nil ⟨fun _ hpermit hne => absurd ?_ hgo, fun h0 => absurd h0 hf⟩
      rw [Bool.and_eq_true, decide_eq_true_iff]
      exact ⟨hpermit, hne⟩

/-- The condition for a frame without a tag: a known destination is on another access port of the VLAN, which does
not block; and the LAN has no port in the VLAN that is no access port. -/
def UntaggedOk (D : Device μ ι N X) (s : State μ ι) (v port f : ℕ) (l : ι) (packet : Packet μ N X) : Prop :=
  (f ≠ 0 → D.macFirewall f packet.upper .outbound = true →
    f ≠ port ∧ s.portState f ≠ .blocking ∧ IsAccess D v f) ∧
  (f = 0 → ∀ inter ∈ (D.lan l).interfaceId, inter ≠ port → D.isOpen s packet inter = true → IsAccess D v inter)

/-- A frame without a tag, and with a size that counts none. -/
structure Bare (D : Device μ ι N X) (packet : Packet μ N X) : Prop where
  tag : tagOf D packet = none
  overhead : packet.dOverhead = ethernetFrameHeaderLen
  size : packet.dPacketSize = packet.dPayload + ethernetFrameHeaderLen

omit [DecidableEq μ] [DecidableEq ι] in
theorem fits_bare (hbare : Bare D p) : Fits D v p port ↔ IsAccess D v port := by
  unfold Fits
  rw [hbare.tag]
  exact and_iff_left hbare.size

omit [DecidableEq ι] in
/-- **A frame of an access port.** -/
theorem copiesOk_forwardFrame (ht : D.lib.Tags) (hswitch : D.isSwitch = true) (hisVlan : D.isVLAN = true)
    (hlt : v < 4096) (hbare : Bare D p) (hport : D.lib.ethGetIncomingPort p.ethData = port)
    (hv : (D.lib.ethGetIncomingVlanid p.ethData).toNat = v) :
    CopiesOk D s v port (D.forwardFrame s port l p) ↔
      UntaggedOk D s v port (s.findForwardInterface l p) l p := by
  unfold Device.forwardFrame UntaggedOk
  dsimp only
  by_cases hf : s.findForwardInterface l p = 0
  · have htrunks : CopiesOk D s v port (D.vlanForwardToAllTrunk s p (D.lan l)) := by
      unfold Device.vlanForwardToAllTrunk
      rw [if_pos hisVlan]
      refine (copiesOk_copyTo fun inter hgo => ?_).2 fun inter hinter _ => ?_
      · rw [Bool.and_eq_true, Bool.and_eq_true, decide_eq_true_iff, decide_eq_true_iff, hport] at hgo
        exact ⟨hgo.1.2, (isOpen_iff.1 hgo.2).1⟩
      · exact (fits_addVlanTag ht hv hlt hinter).2 hbare.overhead
    rw [if_neg (not_not.2 hf), if_pos hswitch, copiesOk_append, and_iff_left htrunks, copiesOk_flood ht]
    · constructor
      · intro h
        exact ⟨fun hne => absurd hf hne, fun _ inter hinter hne hopen => (fits_bare hbare).1 (h inter hinter hne hopen)⟩
      · intro h inter hinter hne hopen
        exact (fits_bare hbare).2 (h.2 hf inter hinter hne hopen)
    · intro inter
      rw [Bool.and_eq_true, decide_eq_true_iff]
  · rw [if_pos hf]
    split
    · rename_i hpermit
      rw [copiesOk_single ht]
      unfold KnownOk
      rw [fits_bare hbare]
      exact ⟨fun h => ⟨fun _ _ => h, fun h0 => absurd h0 hf⟩, fun h => h.1 hf hpermit⟩
    · rename_i hpermit
      exact iff_of_true copiesOk_nil ⟨fun _ h => absurd h hpermit, fun h0 => absurd h0 hf⟩

/-! ## Frames of a VLAN -/

/-- What `store_eth_param_macin` does on a switch with VLANs: it stores the VLAN of the tag, or of the port where there
is none, and leaves the size of a frame without a tag. -/
structure EthLib.StoresVlan (D : Device μ ι N X) : Prop where
  vlan : ∀ port lan packet, (D.lib.ethGetIncomingVlanid (D.lib.storeEthParamMacin port lan packet).ethData).toNat =
    (tagOf D packet).getD lan.vlanId.toNat
  bare : ∀ port lan packet, Bare D packet → Bare D (D.lib.storeEthParamMacin port lan packet)

/-- A frame of the VLAN: without a tag from an access port, with a tag from a trunk, or out of the network layer, where
the VLAN is the one that is stored with the packet. -/
def VlanFrame (D : Device μ ι N X) (v : ℕ) : Event μ N X → Prop
  | .macIn port packet =>
      Bare D packet ∧ port ∉ D.trunkPortIds ∧ (D.lan (D.getEthLan port)).vlanId.toNat = v ∨
        tagOf D packet = some v ∧ port ∈ D.trunkPortIds
  | .networkOut _ packet =>
      D.lib.ethGetIncomingVlanid packet.ethData ≠ 0 ∧ (D.lib.ethGetIncomingVlanid packet.ethData).toNat = v
  | .setPortState _ _ => True

/-- The port of the arrival. -/
def arrivalOf (D : Device μ ι N X) : Event μ N X → ℕ
  | .macIn port _ => port
  | .networkOut _ packet => D.lib.ethGetIncomingPort packet.ethData
  | .setPortState port _ => port

/-- The condition for a frame with a tag. -/
def TaggedOk (D : Device μ ι N X) (s : State μ ι) (v port : ℕ) (packet : Packet μ N X) : Prop :=
  match D.getVlan (D.lib.ethGetIncomingVlanid packet.ethData) with
  | none => TrunksOk D s port packet
  | some l => RoutedOk D s v port (s.findForwardInterface l packet) l packet

/-- The condition, on the frame as `store_eth_param_macin` leaves it and on the table that has learned its source. -/
def VlanOk (D : Device μ ι N X) (s : State μ ι) (v : ℕ) : Event μ N X → Prop
  | .macIn port packet =>
      let l := D.getEthLan port
      let p := D.lib.storeEthParamMacin port (D.lan l) packet
      D.macFirewall port packet.upper .inbound = true → D.decideMoveUp (D.lan l) packet.szDestMac = false →
        if D.isVlanTagPresent packet then
          (D.lan l).lanIP = false → TaggedOk D (D.learn s port packet) v port p
        else UntaggedOk D (D.learn s port packet) v port ((D.learn s port packet).findForwardInterface l p) l p
  | .networkOut port packet =>
      RoutedOk D s v (D.lib.ethGetIncomingPort packet.ethData)
        (s.findForwardInterface (D.getEthLan port) packet) (D.getEthLan port) packet
  | .setPortState _ _ => True

omit [DecidableEq μ] [DecidableEq ι] in
theorem copiesOk_congr (hstate : s'.portState = s.portState) (outs : List (Out μ N X)) :
    CopiesOk D s' v arrival outs ↔ CopiesOk D s v arrival outs := by
  unfold CopiesOk
  rw [hstate]

omit [DecidableEq μ] [DecidableEq ι] in
theorem isVlanTagPresent_iff : D.isVlanTagPresent packet = (tagOf D packet).isSome := by
  unfold Device.isVlanTagPresent tagOf
  cases D.lib.getEthHdrVar packet.ethData with
  | none => rfl
  | some tag =>
    rw [Option.any_some, Option.bind_some]
    by_cases h : tag.tpId = vlanTpid
    · rw [if_pos h, decide_eq_true h]
      rfl
    · rw [if_neg h, decide_eq_false h]
      rfl

omit [DecidableEq ι] in
theorem copiesOk_checkMoveFrameUp (lan : Lan) : CopiesOk D s v arrival (D.checkMoveFrameUp port lan p) := by
  unfold Device.checkMoveFrameUp
  intro inter q hq
  split at hq
  · cases List.mem_singleton.1 hq
  · cases hq

omit [DecidableEq ι] in
theorem copiesOk_macin (ht : D.lib.Tags) (hisVlan : D.isVLAN = true) (hlt : v < 4096)
    (hv : (D.lib.ethGetIncomingVlanid p.ethData).toNat = v) :
    CopiesOk D s v port (D.vlanMacinForwardPacket s port p) ↔
      ((D.lan (D.getEthLan port)).lanIP = false → TaggedOk D s v port p) := by
  unfold Device.vlanMacinForwardPacket TaggedOk
  dsimp only
  split
  · rename_i hip
    exact iff_of_true (copiesOk_checkMoveFrameUp _) fun h => absurd (hip.symm.trans h) (by decide)
  · rename_i hip
    rw [forall_prop_of_true (Bool.eq_false_of_not_eq_true hip)]
    cases D.getVlan (D.lib.ethGetIncomingVlanid p.ethData) with
    | none => exact copiesOk_forwardToTrunk ht hisVlan hv hlt
    | some l =>
      refine copiesOk_routed ht hisVlan hv hlt (fun inter => ?_) _
      rw [Bool.and_eq_true, decide_eq_true_iff]

omit [DecidableEq ι] in
theorem copiesOk_networkOut (ht : D.lib.Tags) (hisVlan : D.isVLAN = true) (hlt : v < 4096)
    (hne : D.lib.ethGetIncomingVlanid packet.ethData ≠ 0)
    (hv : (D.lib.ethGetIncomingVlanid packet.ethData).toNat = v) :
    CopiesOk D s v (D.lib.ethGetIncomingPort packet.ethData) (D.packetArriveFromNetworkLayer s port packet) ↔
      RoutedOk D s v (D.lib.ethGetIncomingPort packet.ethData) (s.findForwardInterface (D.getEthLan port) packet)
        (D.getEthLan port) (D.clearEthIncoming packet) := by
  unfold Device.packetArriveFromNetworkLayer Device.vlanMacoutForwardPacket
  dsimp only
  rw [if_pos hne]
  refine copiesOk_routed ht hisVlan hv hlt (fun inter => ?_) _
  rw [Bool.and_eq_true, decide_eq_true_iff, and_comm]

omit [DecidableEq μ] [DecidableEq ι] in
theorem routedOk_clear (ht : D.lib.Tags) {f : ℕ} :
    RoutedOk D s v arrival f l (D.clearEthIncoming packet) ↔ RoutedOk D s v arrival f l packet := by
  unfold RoutedOk KnownOk PortsOk
  simp only [fits_clear ht]
  exact Iff.rfl

/-- **Every copy of a frame of a VLAN is right** if and only if the condition holds. -/
theorem vlan_isolation (hswitch : D.isSwitch = true) (hisVlan : D.isVLAN = true) (hstores : D.lib.Stores)
    (ht : D.lib.Tags) (hvlans : EthLib.StoresVlan D) (hlt : v < 4096) (e : Event μ N X) (hframe : VlanFrame D v e)
    (s : State μ ι) : CopiesOk D s v (arrivalOf D e) (D.outs s e) ↔ VlanOk D s v e := by
  cases e with
  | macIn port packet =>
    show CopiesOk D s v port (if _ then _ else _) ↔ (_ → _ → _)
    split
    · rename_i hpermit
      have hlearn : (D.learn s port packet).portState = s.portState := learn_portState
      rw [forall_prop_of_true hpermit, ← copiesOk_congr hlearn]
      unfold Device.processFrame
      dsimp only
      cases hup : D.decideMoveUp (D.lan (D.getEthLan port)) packet.szDestMac with
      | true =>
        rw [if_pos rfl]
        exact iff_of_true (copiesOk_checkMoveFrameUp _) fun h => by cases h
      | false =>
        rw [if_neg Bool.false_ne_true, forall_prop_of_true rfl, isVlanTagPresent_iff]
        have hvid := hvlans.vlan port (D.lan (D.getEthLan port)) packet
        have hport := hstores.port port (D.lan (D.getEthLan port)) packet
        rcases hframe with ⟨hbare, -, hv⟩ | ⟨htag, -⟩
        · rw [hbare.tag] at hvid ⊢
          exact copiesOk_forwardFrame ht hswitch hisVlan hlt (hvlans.bare _ _ _ hbare) hport (hvid.trans hv)
        · rw [htag] at hvid ⊢
          exact copiesOk_macin ht hisVlan hlt hvid
    · rename_i hpermit
      exact iff_of_true copiesOk_nil fun h => absurd h hpermit
  | networkOut port packet =>
    exact (copiesOk_networkOut ht hisVlan hlt hframe.1 hframe.2).trans (routedOk_clear ht)
  | setPortState port state => exact iff_of_true copiesOk_nil trivial

/-! ## Samples -/

/-- What is stored with a packet: the tag, the port of the arrival, and the VLAN. -/
structure Stored where
  tag : Option Tag
  port : ℕ
  vlan : UInt16
deriving DecidableEq, Repr

/-- Ports 1 and 2 are access ports of VLAN 5, and port 3 is a trunk. -/
def sampleVlanSwitch : Device ℕ ℕ Unit Stored where
  lib := {
    getEthHdrVar := Stored.tag
    setEthHdr tag x := { x with tag := some tag }
    freeEthHdr x := { x with tag := none }
    storeEthParamMacin port lan p := { p with ethData :=
      { p.ethData with
        port := port
        vlan := ((p.ethData.tag.bind fun tag => if tag.tpId = vlanTpid then some (UInt16.ofNat tag.vid.toNat) else none)).getD
          lan.vlanId } }
    ethGetIncomingPort := Stored.port
    ethGetIncomingVlanid := Stored.vlan
    clearEthIncoming x := { x with port := 0, vlan := 0 } }
  isSwitch := true
  nNumOfInterface := 3
  isVirtualInterface _ := false
  isVLAN := true
  trunkPortIds := [3]
  lanVar := [5, 0]
  lan l := if l = 5 then ⟨[1, 2], false, 5, .storeForward, false, by decide⟩
    else ⟨[3], false, 0, .storeForward, false, by decide⟩
  getEthLan port := if port = 3 then 0 else 5
  macAddress port := port
  isBroadcastMac mac := mac = 0
  isMulticastMac _ := false
  macFirewall _ _ _ := true

theorem stores_sampleVlan : sampleVlanSwitch.lib.Stores := ⟨fun _ _ _ => rfl, fun _ _ _ => rfl, fun _ _ _ => rfl⟩

theorem tags_sampleVlan : sampleVlanSwitch.lib.Tags := ⟨fun _ _ => rfl, fun _ => rfl⟩

theorem storesVlan_sampleVlan : EthLib.StoresVlan sampleVlanSwitch where
  vlan port lan packet := by
    obtain ⟨src, dest, upper, net, payload, overhead, size, ⟨tag, inPort, vlan⟩⟩ := packet
    cases tag with
    | none => rfl
    | some tag =>
      have hlt : tag.vid.toNat < 2 ^ 16 := by omega
      show ((if tag.tpId = vlanTpid then some (UInt16.ofNat tag.vid.toNat) else none).getD lan.vlanId).toNat =
        (if tag.tpId = vlanTpid then some tag.vid.toNat else none).getD lan.vlanId.toNat
      split
      · exact UInt16.toNat_ofNat_of_lt' hlt
      · rfl
  bare port lan packet h := ⟨h.tag, h.overhead, h.size⟩

/-- A frame without a tag from one station to another. -/
def sampleUntagged (src dest : ℕ) : Packet ℕ Unit Stored := ⟨src, dest, (), 100, 100, 26, 126, ⟨none, 0, 0⟩⟩

theorem vlanFrame_sample (src dest : ℕ) : VlanFrame sampleVlanSwitch 5 (.macIn 1 (sampleUntagged src dest)) :=
  .inl ⟨⟨rfl, rfl, by norm_num [sampleUntagged, ethernetFrameHeaderLen]⟩, by decide, rfl⟩

/-- Station 20 is behind port 2, which has the state that is given. -/
def sampleVlanState (state : PortState) : State ℕ ℕ where
  portState port := if port = 2 then state else .forwarding
  switchTable l := if l = 5 then [⟨20, 2⟩] else []
  received l := if l = 5 then [(20, 2)] else []

theorem isAccess_sample : ∀ inter ∈ [1, 2], IsAccess sampleVlanSwitch 5 inter := by
  intro inter hinter
  refine ⟨fun htrunk => ?_, 5, hinter, rfl⟩
  rw [List.mem_singleton.1 htrunk] at hinter
  exact absurd hinter (by decide)

/-- A frame with an unknown destination goes to the other access port without a tag, and to the trunk with one. -/
theorem vlan_isolation_flood : CopiesOk sampleVlanSwitch (sampleVlanState .forwarding) 5 1
    (sampleVlanSwitch.outs (sampleVlanState .forwarding) (.macIn 1 (sampleUntagged 10 30))) := by
  have hok : VlanOk sampleVlanSwitch (sampleVlanState .forwarding) 5 (.macIn 1 (sampleUntagged 10 30)) := by
    intro _ _
    exact ⟨fun h => absurd rfl h, fun _ inter hinter _ _ => isAccess_sample inter hinter⟩
  exact (vlan_isolation rfl rfl stores_sampleVlan tags_sampleVlan storesVlan_sampleVlan (by decide) _
    (vlanFrame_sample 10 30) (sampleVlanState .forwarding)).2 hok

/-- The port of the destination blocks, and the frame leaves on it. -/
theorem vlan_blocked_port : ¬ ∀ (s : State ℕ ℕ) v e, VlanFrame sampleVlanSwitch v e →
    CopiesOk sampleVlanSwitch s v (arrivalOf sampleVlanSwitch e) (sampleVlanSwitch.outs s e) := by
  intro hall
  have hcopies := hall (sampleVlanState .blocking) 5 (.macIn 1 (sampleUntagged 10 20)) (vlanFrame_sample 10 20)
  have hblocked := hcopies 2 _ List.mem_cons_self
  exact hblocked.2.1 rfl

end NetSim.Ethernet
