import Mathlib.Data.List.Nodup
import NetSim.Spec.Ethernet

/-!
# Learning and forwarding of a switch

`SWITCHTABLE_NEW` leaves an address that is in the table where it is, and a frame with a known destination is sent
without a look at the port it came from or at the state of the port it goes to.

* `learned_next_iff`: when the table follows the frames received.
* `forwards_iff`: when an event sends only where it may, and floods as it should.
* `switching`: both, in every run.
* `switching_station_moves`: a station that moves, a frame that is sent back, and a blocked port.
-/

namespace NetSim.Ethernet

variable {μ ι N X : Type} {D : Device μ ι N X} {s : State μ ι} {port : ℕ}
  {packet : Packet μ N X} {e : Event μ N X}

/-! ## The ports of what is sent -/

/-- The port that something is handed to. -/
def Out.physicalPort : Out μ N X → Option ℕ
  | .physicalOut port _ => some port
  | .networkIn _ _ | .macOut _ _ => none

/-- The ports that copies are sent to, one for each copy. -/
def portsOf (outs : List (Out μ N X)) : List ℕ := outs.filterMap Out.physicalPort

@[simp] theorem portsOf_append (a b : List (Out μ N X)) : portsOf (a ++ b) = portsOf a ++ portsOf b :=
  List.filterMap_append

@[simp] theorem portsOf_copyTo (ports : List ℕ) (goes : ℕ → Bool) (packet : Packet μ N X) :
    portsOf (Device.copyTo ports goes packet) = ports.filter goes := by
  unfold portsOf Device.copyTo
  rw [List.filterMap_map]
  exact List.filterMap_some

variable [DecidableEq μ] [DecidableEq ι]

/-! ## Learning -/

/-- A lookup gives the port at which a frame from the address came in last. -/
def Learned (s : State μ ι) : Prop :=
  ∀ l mac, (s.switchTableFind l mac).map SwitchTable.outPort =
    ((s.received l).find? fun r => mac = r.1).map Prod.snd

/-- The source of a frame is not known from another port. -/
def LearnOk (D : Device μ ι N X) (s : State μ ι) : Event μ N X → Prop
  | .macIn port packet => D.macFirewall port packet.upper .inbound = true →
      ∀ table ∈ s.switchTableFind (D.getEthLan port) packet.szSourceMac, table.outPort = port
  | _ => True

theorem switchTableFind_new (l l' : ι) (src mac : μ) (s : State μ ι) :
    (s.switchTableNew l src port).switchTableFind l' mac =
      if l' = l ∧ mac = src ∧ s.switchTableFind l src = none then some ⟨src, port⟩
      else s.switchTableFind l' mac := by
  unfold State.switchTableNew
  cases h : s.switchTableFind l src with
  | some table =>
    rw [if_neg (by simp), if_neg (by simp)]
  | none =>
    rw [if_pos (by simp)]
    show (Function.update s.switchTable l (s.switchTable l ++ [⟨src, port⟩]) l').find? (fun table => mac = table.mac) = _
    by_cases hl : l' = l
    · rw [hl, Function.update_self, List.find?_append]
      by_cases hmac : mac = src
      · have hnone : (s.switchTable l).find? (fun table => mac = table.mac) = none := hmac ▸ h
        rw [hnone, if_pos ⟨rfl, hmac, rfl⟩, Option.none_or]
        exact List.find?_cons_of_pos (decide_eq_true hmac)
      · have hnot : [(⟨src, port⟩ : SwitchTable μ)].find? (fun table => mac = table.mac) = none :=
          List.find?_cons_of_neg (by rw [decide_eq_true_iff]; exact hmac)
        rw [if_neg (fun hand => hmac hand.2.1), hnot, Option.or_none]
        rfl
    · rw [Function.update_of_ne hl, if_neg fun hand => hl hand.1]
      rfl

theorem find_received (l l' : ι) (src mac : μ) (s : State μ ι) :
    (((s.receive l src port).received l').find? fun r => mac = r.1).map Prod.snd =
      if l' = l ∧ mac = src then some port else ((s.received l').find? fun r => mac = r.1).map Prod.snd := by
  show ((Function.update s.received l ((src, port) :: s.received l) l').find? _).map _ = _
  by_cases hl : l' = l
  · rw [hl, Function.update_self]
    by_cases hmac : mac = src
    · have hfirst : ((src, port) :: s.received l).find? (fun r => mac = r.1) = some (src, port) :=
        List.find?_cons_of_pos (p := fun r : μ × ℕ => mac = r.1) (decide_eq_true hmac)
      rw [if_pos ⟨rfl, hmac⟩, hfirst]
      rfl
    · have hskip : ((src, port) :: s.received l).find? (fun r => mac = r.1) =
          (s.received l).find? (fun r => mac = r.1) :=
        List.find?_cons_of_neg (p := fun r : μ × ℕ => mac = r.1) (by rw [decide_eq_true_iff]; exact hmac)
      rw [if_neg fun hand => hmac hand.2, hskip]
  · rw [Function.update_of_ne hl, if_neg fun hand => hl hand.1]

theorem learned_learn_iff (htechnique : (D.lan (D.getEthLan port)).switchingTechnique ≠ .null) (h : Learned s) :
    Learned (D.learn s port packet) ↔
      ∀ table ∈ s.switchTableFind (D.getEthLan port) packet.szSourceMac, table.outPort = port := by
  have hlearn : D.learn s port packet = (s.receive (D.getEthLan port) packet.szSourceMac port).switchTableNew
      (D.getEthLan port) packet.szSourceMac port := if_pos htechnique
  have hreceived : (D.learn s port packet).received =
      (s.receive (D.getEthLan port) packet.szSourceMac port).received := by
    rw [hlearn]
    unfold State.switchTableNew
    split <;> rfl
  have hfind : ∀ l mac, (s.receive (D.getEthLan port) packet.szSourceMac port).switchTableFind l mac =
      s.switchTableFind l mac := fun l mac => rfl
  constructor
  · intro h' table htable
    have hsrc := h' (D.getEthLan port) packet.szSourceMac
    rw [hreceived, find_received, if_pos ⟨rfl, rfl⟩, hlearn, switchTableFind_new, hfind, htable,
      if_neg (fun hand => Option.some_ne_none table hand.2.2)] at hsrc
    exact Option.some.inj hsrc
  · intro hport l mac
    rw [hreceived, find_received, hlearn, switchTableFind_new, hfind, hfind]
    by_cases hlm : l = D.getEthLan port ∧ mac = packet.szSourceMac
    · obtain ⟨rfl, rfl⟩ := hlm
      cases hfound : s.switchTableFind (D.getEthLan port) packet.szSourceMac with
      | none =>
        rw [if_pos ⟨rfl, rfl, rfl⟩, if_pos ⟨rfl, rfl⟩]
        rfl
      | some table =>
        rw [if_neg (fun hand => Option.some_ne_none table hand.2.2), if_pos ⟨rfl, rfl⟩]
        exact congrArg some (hport table hfound)
    · rw [if_neg hlm, if_neg fun hand => hlm ⟨hand.1, hand.2.1⟩]
      exact h l mac

/-- **The table follows the frames** exactly as long as no source is known from another port. -/
theorem learned_next_iff (htechnique : ∀ l, (D.lan l).switchingTechnique ≠ .null) (h : Learned s) :
    Learned (D.next s e) ↔ LearnOk D s e := by
  cases e with
  | macIn port packet =>
    show Learned (if _ then _ else _) ↔ (_ → _)
    split
    · rename_i hfirewall
      rw [learned_learn_iff (htechnique _) h]
      exact ⟨fun hport _ => hport, fun hport => hport hfirewall⟩
    · rename_i hfirewall
      exact iff_of_true h fun hpermit => absurd hpermit hfirewall
  | networkOut port packet => exact iff_of_true h trivial
  | setPortState port state => exact iff_of_true h trivial

/-! ## Forwarding -/

/-- What `store_eth_param_macin` leaves as it is, and the port that it stores. -/
structure EthLib.Stores (lib : EthLib μ N X) : Prop where
  dest : ∀ port lan packet, (lib.storeEthParamMacin port lan packet).szDestMac = packet.szDestMac
  upper : ∀ port lan packet, (lib.storeEthParamMacin port lan packet).upper = packet.upper
  port : ∀ port lan packet, lib.ethGetIncomingPort (lib.storeEthParamMacin port lan packet).ethData = port

/-- The switch takes part in switching on all its LANs. -/
structure Device.IsSwitch (D : Device μ ι N X) : Prop where
  isSwitch : D.isSwitch = true
  technique : ∀ l, (D.lan l).switchingTechnique ≠ .null

/-- The traffic of a port of the LAN that has no tag, and none of a VLAN behind it. -/
def Untagged (D : Device μ ι N X) : Event μ N X → Prop
  | .macIn _ packet => D.isVlanTagPresent packet = false
  | .networkOut port packet =>
      port ∈ (D.lan (D.getEthLan port)).interfaceId ∧ D.lib.ethGetIncomingVlanid packet.ethData = 0
  | .setPortState _ _ => True

/-- A copy may go to a port that is not the one of the arrival, does not block, and is not denied. -/
def MayGo (D : Device μ ι N X) (s : State μ ι) (arrival : ℕ) (packet : Packet μ N X) (port : ℕ) : Prop :=
  port ≠ arrival ∧ D.isOpen s packet port = true

instance (D : Device μ ι N X) (s : State μ ι) (arrival : ℕ) (packet : Packet μ N X) (port : ℕ) :
    Decidable (MayGo D s arrival packet port) := inferInstanceAs (Decidable (_ ≠ _ ∧ _ = _))

/-- Each copy goes where it may go. -/
def Clean (D : Device μ ι N X) (s : State μ ι) (arrival : ℕ) (packet : Packet μ N X) (outs : List (Out μ N X)) : Prop :=
  ∀ port ∈ portsOf outs, MayGo D s arrival packet port

/-- One copy goes to each port of the LAN to which it may go. -/
def Flooded (D : Device μ ι N X) (s : State μ ι) (l : ι) (arrival : ℕ) (packet : Packet μ N X)
    (outs : List (Out μ N X)) : Prop :=
  ∀ port ∈ (D.lan l).interfaceId, (portsOf outs).count port = if MayGo D s arrival packet port then 1 else 0

/-- The switch sends only where it may, and floods a frame whose destination is unknown. A frame that the LAN takes
up for itself, or that the inbound firewall denies, is not one that it forwards. -/
def ForwardsOk (D : Device μ ι N X) (s : State μ ι) : Event μ N X → Prop
  | .macIn port packet =>
      Clean D s port packet (D.outs s (.macIn port packet)) ∧
      (D.macFirewall port packet.upper .inbound = true →
        D.decideMoveUp (D.lan (D.getEthLan port)) packet.szDestMac = false →
        (D.learn s port packet).switchTableFind (D.getEthLan port) packet.szDestMac = none →
        Flooded D s (D.getEthLan port) port packet (D.outs s (.macIn port packet)))
  | .networkOut port packet =>
      Clean D s (D.lib.ethGetIncomingPort packet.ethData) packet (D.outs s (.networkOut port packet)) ∧
      (s.switchTableFind (D.getEthLan port) packet.szDestMac = none →
        Flooded D s (D.getEthLan port) (D.lib.ethGetIncomingPort packet.ethData) packet
          (D.outs s (.networkOut port packet)))
  | .setPortState _ _ => True

/-- A port to which a frame is sent without further tests is one to which it may go, or the firewall denies it. -/
def DirectOk (D : Device μ ι N X) (s : State μ ι) (arrival : ℕ) (packet : Packet μ N X) (f : ℕ) : Prop :=
  f ≠ 0 → D.macFirewall f packet.upper .outbound = true → f ≠ arrival ∧ s.portState f ≠ .blocking

/-- The port of a packet of the network layer; the only port of a LAN is taken without a lookup. -/
def outPort (D : Device μ ι N X) (s : State μ ι) (port : ℕ) (packet : Packet μ N X) : ℕ :=
  if (D.lan (D.getEthLan port)).interfaceId.length > 1 then s.findForwardInterface (D.getEthLan port) packet else port

/-- The condition: the port of a known destination is not the one of the arrival and does not block. A packet of
the network layer that is flooded did not come from a trunk port that is open. -/
def PortOk (D : Device μ ι N X) (s : State μ ι) : Event μ N X → Prop
  | .macIn port packet =>
      D.macFirewall port packet.upper .inbound = true →
      D.decideMoveUp (D.lan (D.getEthLan port)) packet.szDestMac = false →
      DirectOk D s port packet ((D.learn s port packet).findForwardInterface (D.getEthLan port) packet)
  | .networkOut port packet =>
      let arrival := D.lib.ethGetIncomingPort packet.ethData
      DirectOk D s arrival packet (outPort D s port packet) ∧
      (outPort D s port packet = 0 → D.isVLAN = true → arrival ∈ D.trunkPortIds →
        arrival ∉ (D.lan (D.getEthLan port)).interfaceId →
        arrival ≠ D.lib.ethGetIncomingPort (D.lib.clearEthIncoming packet.ethData) →
        D.isOpen s packet arrival = false)
  | .setPortState _ _ => True

omit [DecidableEq ι] in
@[simp] theorem portsOf_checkMoveFrameUp (lan : Lan) : portsOf (D.checkMoveFrameUp port lan packet) = [] := by
  unfold Device.checkMoveFrameUp
  split <;> rfl

omit [DecidableEq μ] [DecidableEq ι] in
/-- A loop that leaves out nothing else floods the LAN, also with copies for other ports behind it. -/
theorem flooded_of_filter {l : ι} {arrival : ℕ} {outs : List (Out μ N X)} {goes : ℕ → Bool} {others : List ℕ}
    (hports : portsOf outs = (D.lan l).interfaceId.filter goes ++ others)
    (hgoes : ∀ port, goes port = true ↔ MayGo D s arrival packet port)
    (hothers : ∀ port ∈ others, port ∉ (D.lan l).interfaceId) : Flooded D s l arrival packet outs := by
  intro port hport
  have hzero : others.count port = 0 := List.count_eq_zero.2 fun hmem => hothers port hmem hport
  rw [hports, List.count_append, hzero, Nat.add_zero]
  split
  · rename_i hmay
    rw [List.count_filter ((hgoes port).2 hmay)]
    exact List.count_eq_one_of_mem (D.lan l).nodup hport
  · rename_i hmay
    exact List.count_eq_zero.2 fun hmem => hmay ((hgoes port).1 (List.mem_filter.1 hmem).2)

omit [DecidableEq μ] [DecidableEq ι] in
theorem mem_allTrunk {lan : Lan} : port ∈ portsOf (D.vlanForwardToAllTrunk s packet lan) ↔
    D.isVLAN = true ∧ port ∈ D.trunkPortIds ∧ port ∉ lan.interfaceId ∧
      port ≠ D.lib.ethGetIncomingPort packet.ethData ∧ D.isOpen s packet port = true := by
  unfold Device.vlanForwardToAllTrunk
  split
  · rename_i hvlan
    rw [portsOf_copyTo, List.mem_filter]
    simp only [Bool.and_eq_true, decide_eq_true_eq, and_assoc, hvlan, true_and]
  · rename_i hvlan
    exact iff_of_false List.not_mem_nil fun h => hvlan h.1

omit [DecidableEq μ] [DecidableEq ι] in
theorem isOpen_congr {s' : State μ ι} {p : Packet μ N X} (hstate : s'.portState = s.portState)
    (h : p.upper = packet.upper) (port : ℕ) : D.isOpen s' p port = D.isOpen s packet port := by
  unfold Device.isOpen
  rw [h, hstate]

omit [DecidableEq μ] [DecidableEq ι] in
theorem isOpen_iff : D.isOpen s packet port = true ↔
    s.portState port ≠ .blocking ∧ D.macFirewall port packet.upper .outbound = true := by
  unfold Device.isOpen
  rw [Bool.and_eq_true, decide_eq_true_iff]

omit [DecidableEq μ] [DecidableEq ι] in
/-- A single copy, which is sent as soon as the firewall permits it. -/
theorem clean_direct {arrival f : ℕ} {p : Packet μ N X} (hf : f ≠ 0) :
    Clean D s arrival packet (if D.macFirewall f packet.upper .outbound then [.physicalOut f p] else []) ↔
      DirectOk D s arrival packet f := by
  unfold Clean DirectOk MayGo
  split
  · rename_i hpermit
    constructor
    · intro h _ _
      obtain ⟨hne, hopen⟩ := h f List.mem_cons_self
      exact ⟨hne, (isOpen_iff.1 hopen).1⟩
    · intro h port hport
      obtain rfl := List.mem_singleton.1 hport
      obtain ⟨hne, hstate⟩ := h hf hpermit
      exact ⟨hne, isOpen_iff.2 ⟨hstate, hpermit⟩⟩
  · rename_i hpermit
    exact iff_of_true (fun port hport => absurd hport List.not_mem_nil) fun _ h => absurd h hpermit

omit [DecidableEq ι] in
theorem forwardFrame_ok {s' : State μ ι} {l : ι} {p : Packet μ N X} (hstate : s'.portState = s.portState) (hswitch : D.isSwitch = true)
    (hdest : p.szDestMac = packet.szDestMac) (hupper : p.upper = packet.upper)
    (hport : D.lib.ethGetIncomingPort p.ethData = port) :
    (Clean D s port packet (D.forwardFrame s' port l p) ↔
      DirectOk D s port packet (s'.findForwardInterface l packet)) ∧
    (s'.switchTableFind l packet.szDestMac = none → Flooded D s l port packet (D.forwardFrame s' port l p)) := by
  have hfind : s'.findForwardInterface l p = s'.findForwardInterface l packet := by
    unfold State.findForwardInterface
    rw [hdest]
  unfold Device.forwardFrame
  dsimp only
  rw [hfind]
  by_cases hf : s'.findForwardInterface l packet ≠ 0
  · rw [if_pos hf, hupper]
    refine ⟨clean_direct hf, fun hnone => absurd ?_ hf⟩
    unfold State.findForwardInterface
    rw [hnone]
    rfl
  · have hports : portsOf (Device.copyTo (D.lan l).interfaceId (fun inter => inter ≠ port && D.isOpen s' p inter)
        (D.clearEthIncoming p) ++ D.vlanForwardToAllTrunk s' p (D.lan l)) =
        (D.lan l).interfaceId.filter (fun inter => inter ≠ port && D.isOpen s' p inter) ++
          portsOf (D.vlanForwardToAllTrunk s' p (D.lan l)) := by
      rw [portsOf_append, portsOf_copyTo]
    have hgoes : ∀ inter, (decide (inter ≠ port) && D.isOpen s' p inter) = true ↔ MayGo D s port packet inter := by
      intro inter
      rw [Bool.and_eq_true, decide_eq_true_iff, isOpen_congr hstate hupper]
      exact Iff.rfl
    rw [if_neg hf, if_pos hswitch]
    refine ⟨iff_of_true (fun inter hinter => ?_) fun h => absurd h hf, fun _ => ?_⟩
    · rw [hports, List.mem_append] at hinter
      rcases hinter with hinter | hinter
      · exact (hgoes inter).1 (List.mem_filter.1 hinter).2
      · obtain ⟨-, -, -, hne, hopen⟩ := mem_allTrunk.1 hinter
        rw [hport] at hne
        rw [isOpen_congr hstate hupper] at hopen
        exact ⟨hne, hopen⟩
    · exact flooded_of_filter hports hgoes fun inter hinter => (mem_allTrunk.1 hinter).2.2.1

omit [DecidableEq μ] [DecidableEq ι] in
/-- A packet that the network layer sends straight to one port. -/
theorem flooded_single {l : ι} {arrival : ℕ} {outs : List (Out μ N X)}
    (hlan : (D.lan l).interfaceId = [port]) (hclean : Clean D s arrival packet outs)
    (houts : portsOf outs = if D.macFirewall port packet.upper .outbound then [port] else []) :
    Flooded D s l arrival packet outs := by
  intro inter hinter
  rw [hlan] at hinter
  obtain rfl := List.mem_singleton.1 hinter
  rw [houts]
  split
  · rename_i hpermit
    have hmay : MayGo D s arrival packet inter := hclean inter (by rw [houts, if_pos hpermit]; exact List.mem_cons_self)
    rw [if_pos hmay, List.count_singleton_self]
  · rename_i hpermit
    have hmay : ¬ MayGo D s arrival packet inter := fun h => hpermit (isOpen_iff.1 h.2).2
    rw [if_neg hmay]
    rfl

omit [DecidableEq ι] in
/-- A packet of the network layer, in the two cases. -/
theorem networkOut_eq (hvlan : D.lib.ethGetIncomingVlanid packet.ethData = 0) :
    D.packetArriveFromNetworkLayer s port packet =
      if outPort D s port packet ≠ 0 then
        if D.macFirewall (outPort D s port packet) packet.upper .outbound then
          [.physicalOut (outPort D s port packet) (D.clearEthIncoming (Device.addMacHeader (D.clearEthIncoming packet)))]
        else []
      else
        Device.copyTo (D.lan (D.getEthLan port)).interfaceId (fun inter => D.isOpen s packet inter &&
          (inter ≠ D.lib.ethGetIncomingPort packet.ethData ||
            (D.lan (D.getEthLan port)).switchingTechnique = .null))
          (D.clearEthIncoming (Device.addMacHeader (D.clearEthIncoming packet))) ++
        D.vlanForwardToAllTrunk s (Device.addMacHeader (D.clearEthIncoming packet)) (D.lan (D.getEthLan port)) := by
  unfold Device.packetArriveFromNetworkLayer
  dsimp only
  rw [if_neg (not_not.2 hvlan)]
  rfl

theorem clean_flood (hswitch : D.IsSwitch) (hout : outPort D s port packet = 0)
    (hvlan : D.lib.ethGetIncomingVlanid packet.ethData = 0) :
    Clean D s (D.lib.ethGetIncomingPort packet.ethData) packet (D.packetArriveFromNetworkLayer s port packet) ↔
      PortOk D s (.networkOut port packet) := by
  rw [networkOut_eq hvlan, if_neg (not_not.2 hout)]
  constructor
  · intro h
    refine ⟨fun hf => absurd hout hf, fun _ hisVlan htrunk hnot hne => ?_⟩
    by_contra hopen
    have hsent : D.lib.ethGetIncomingPort packet.ethData ∈ portsOf (D.vlanForwardToAllTrunk s
        (Device.addMacHeader (D.clearEthIncoming packet)) (D.lan (D.getEthLan port))) :=
      mem_allTrunk.2 ⟨hisVlan, htrunk, hnot, hne, eq_true_of_ne_false hopen⟩
    have hmay := h _ (by rw [portsOf_append]; exact List.mem_append_right _ hsent)
    exact hmay.1 rfl
  · rintro ⟨-, htrunks⟩ inter hinter
    rw [portsOf_append, portsOf_copyTo, List.mem_append] at hinter
    rcases hinter with hinter | hinter
    · have hgoes := (List.mem_filter.1 hinter).2
      rw [Bool.and_eq_true, Bool.or_eq_true, decide_eq_true_iff, decide_eq_true_iff] at hgoes
      exact ⟨hgoes.2.resolve_right (hswitch.technique _), hgoes.1⟩
    · obtain ⟨hisVlan, htrunk, hnot, hne, hopen⟩ := mem_allTrunk.1 hinter
      refine ⟨fun heq => ?_, hopen⟩
      rw [heq] at htrunk hnot hne hopen
      exact Bool.false_ne_true ((htrunks hout hisVlan htrunk hnot hne).symm.trans hopen)

theorem networkOut_ok (hswitch : D.IsSwitch) (hport : port ∈ (D.lan (D.getEthLan port)).interfaceId)
    (hvlan : D.lib.ethGetIncomingVlanid packet.ethData = 0) :
    ForwardsOk D s (.networkOut port packet) ↔ PortOk D s (.networkOut port packet) := by
  show Clean D s _ packet (D.packetArriveFromNetworkLayer s port packet) ∧
      (_ → Flooded D s _ _ packet (D.packetArriveFromNetworkLayer s port packet)) ↔ _
  by_cases hout : outPort D s port packet = 0
  · rw [clean_flood hswitch hout hvlan, and_iff_left_of_imp]
    intro _ _
    rw [networkOut_eq hvlan, if_neg (not_not.2 hout)]
    refine flooded_of_filter (by rw [portsOf_append, portsOf_copyTo]) (fun inter => ?_)
      fun inter hinter => (mem_allTrunk.1 hinter).2.2.1
    rw [Bool.and_eq_true, Bool.or_eq_true, decide_eq_true_iff, decide_eq_true_iff,
      or_iff_left (hswitch.technique _), and_comm]
    exact Iff.rfl
  · rw [networkOut_eq hvlan, if_pos hout]
    have hclean : Clean D s (D.lib.ethGetIncomingPort packet.ethData) packet
        (if D.macFirewall (outPort D s port packet) packet.upper .outbound then [.physicalOut (outPort D s port packet)
          (D.clearEthIncoming (Device.addMacHeader (D.clearEthIncoming packet)))] else []) ↔
        DirectOk D s (D.lib.ethGetIncomingPort packet.ethData) packet (outPort D s port packet) := clean_direct hout
    constructor
    · intro h
      exact ⟨hclean.1 h.1, fun h0 => absurd h0 hout⟩
    · rintro ⟨hdirect, -⟩
      refine ⟨hclean.2 hdirect, fun hnone => ?_⟩
      -- the destination is unknown, so the LAN has one port only
      have hlength : ¬ (D.lan (D.getEthLan port)).interfaceId.length > 1 := by
        intro hlength
        apply hout
        unfold outPort State.findForwardInterface
        rw [if_pos hlength, hnone]
        rfl
      have hpos := List.length_pos_of_mem hport
      obtain ⟨a, ha⟩ := List.length_eq_one_iff.1 (show (D.lan (D.getEthLan port)).interfaceId.length = 1 by omega)
      have hlan : (D.lan (D.getEthLan port)).interfaceId = [port] := by
        rw [ha] at hport ⊢
        rw [List.mem_singleton.1 hport]
      have houtPort : outPort D s port packet = port := if_neg hlength
      refine flooded_single hlan (hclean.2 hdirect) ?_
      rw [houtPort]
      split <;> rfl

theorem learn_portState : (D.learn s port packet).portState = s.portState := by
  unfold Device.learn State.switchTableNew
  dsimp only
  split
  · split <;> rfl
  · rfl

/-- **What is sent** is as it should be exactly if the condition holds. -/
theorem forwards_iff (hswitch : D.IsSwitch) (hstores : D.lib.Stores) (hu : Untagged D e) :
    ForwardsOk D s e ↔ PortOk D s e := by
  cases e with
  | macIn port packet =>
    show Clean D s port packet (if _ then _ else _) ∧ (_ → _ → _ → Flooded D s _ port packet (if _ then _ else _)) ↔
      (_ → _ → _)
    split
    · rename_i hpermit
      unfold Device.processFrame
      dsimp only
      cases hup : D.decideMoveUp (D.lan (D.getEthLan port)) packet.szDestMac with
      | true =>
        rw [if_pos rfl]
        refine iff_of_true ⟨fun inter hinter => ?_, fun _ h => absurd h.symm Bool.false_ne_true⟩
          fun _ h => absurd h.symm Bool.false_ne_true
        rw [portsOf_checkMoveFrameUp] at hinter
        exact absurd hinter List.not_mem_nil
      | false =>
        rw [if_neg Bool.false_ne_true, hu, if_neg Bool.false_ne_true]
        obtain ⟨hclean, hflood⟩ := forwardFrame_ok (D := D) (l := D.getEthLan port) learn_portState hswitch.isSwitch
          (hstores.dest port (D.lan (D.getEthLan port)) packet) (hstores.upper _ _ _) (hstores.port _ _ _)
        rw [hclean, and_iff_left fun _ _ => hflood]
        exact ⟨fun h _ _ => h, fun h => h hpermit rfl⟩
    · rename_i hpermit
      refine iff_of_true ⟨fun port hport => absurd hport List.not_mem_nil, fun h => absurd h hpermit⟩ fun h => ?_
      exact absurd h hpermit
  | networkOut port packet => exact networkOut_ok hswitch hu.1 hu.2
  | setPortState port state => exact iff_of_true trivial trivial

/-! ## Runs -/

/-- The condition on a step. -/
def StepOk (D : Device μ ι N X) (s : State μ ι) (e : Event μ N X) : Prop :=
  Untagged D e ∧ LearnOk D s e ∧ PortOk D s e

theorem learned_of_reachOn (hswitch : D.IsSwitch) (h : D.machine.ReachOn (StepOk D) s) : Learned s := by
  refine Machine.ReachOn.inv ?_ ?_ h
  · rintro s ⟨portState, rfl⟩ l mac
    rfl
  · rintro s e s' hs ⟨-, hlearn, -⟩ hstep
    rw [← Option.some.inj hstep]
    exact (learned_next_iff hswitch.technique hs).2 hlearn

/-- **Learning and forwarding.** In every run in which no source is known from another port and the port of a known
destination is neither the one of the arrival nor blocked, the table follows the frames; and an event goes on like
this exactly if it meets that condition. -/
theorem switching (hswitch : D.IsSwitch) (hstores : D.lib.Stores) (h : D.machine.ReachOn (StepOk D) s) :
    Learned s ∧ ∀ e, Untagged D e →
      (Learned (D.next s e) ↔ LearnOk D s e) ∧ (ForwardsOk D s e ↔ PortOk D s e) := by
  have hlearned := learned_of_reachOn hswitch h
  exact ⟨hlearned, fun e hu => ⟨learned_next_iff hswitch.technique hlearned, forwards_iff hswitch hstores hu⟩⟩

/-! ## Samples -/

/-- A switch with three ports; the packets keep the port of their arrival. -/
def sampleSwitch : Device ℕ Unit Unit ℕ where
  lib := ⟨fun _ => none, fun _ x => x, id, fun port _ p => { p with ethData := port }, id, fun _ => 0, fun _ => 0⟩
  isSwitch := true
  nNumOfInterface := 3
  isVirtualInterface _ := false
  isVLAN := false
  trunkPortIds := []
  lanVar := [()]
  lan _ := ⟨[1, 2, 3], false, 0, .storeForward, false, by decide⟩
  getEthLan _ := ()
  macAddress port := port
  isBroadcastMac mac := mac = 0
  isMulticastMac _ := false
  macFirewall _ _ _ := true

theorem isSwitch_sample : sampleSwitch.IsSwitch := ⟨rfl, fun _ h => by cases h⟩

theorem stores_sample : sampleSwitch.lib.Stores := ⟨fun _ _ _ => rfl, fun _ _ _ => rfl, fun _ _ _ => rfl⟩

/-- A frame from one station to another. -/
def sampleFrame (src dest : ℕ) : Packet ℕ Unit ℕ := ⟨src, dest, (), 100, 100, 26, 126, 0⟩

/-- All ports forward, and the tables are empty. -/
def sampleState : State ℕ Unit := ⟨fun _ => .forwarding, fun _ => [], fun _ => []⟩

instance (D : Device μ ι N X) (e : Event μ N X) : Decidable (Untagged D e) :=
  match e with
  | .macIn _ _ => inferInstanceAs (Decidable (_ = _))
  | .networkOut port _ => inferInstanceAs (Decidable (port ∈ (D.lan (D.getEthLan port)).interfaceId ∧ _ = _))
  | .setPortState _ _ => isTrue trivial

instance (D : Device μ ι N X) (s : State μ ι) (e : Event μ N X) : Decidable (LearnOk D s e) :=
  match e with
  | .macIn port packet => inferInstanceAs (Decidable (_ = _ →
      ∀ table ∈ s.switchTableFind (D.getEthLan port) packet.szSourceMac, table.outPort = port))
  | .networkOut _ _ | .setPortState _ _ => isTrue trivial

instance (D : Device μ ι N X) (s : State μ ι) (arrival f : ℕ) (packet : Packet μ N X) :
    Decidable (DirectOk D s arrival packet f) := inferInstanceAs (Decidable (_ ≠ _ → _ = _ → _ ≠ _ ∧ _ ≠ _))

instance (D : Device μ ι N X) (s : State μ ι) (e : Event μ N X) : Decidable (PortOk D s e) :=
  match e with
  | .macIn port packet => inferInstanceAs (Decidable (_ = _ → _ = _ → DirectOk D s port packet _))
  | .networkOut port packet => inferInstanceAs (Decidable (DirectOk D s _ packet (outPort D s port packet) ∧
      (_ = _ → _ = _ → _ ∈ D.trunkPortIds → _ ∉ (D.lan (D.getEthLan port)).interfaceId → _ ≠ _ → _ = _)))
  | .setPortState _ _ => isTrue trivial

instance (D : Device μ ι N X) (s : State μ ι) (e : Event μ N X) : Decidable (StepOk D s e) :=
  inferInstanceAs (Decidable (_ ∧ _ ∧ _))

theorem untagged_sample (port src dest : ℕ) : Untagged sampleSwitch (.macIn port (sampleFrame src dest)) := rfl

theorem init_sample : sampleSwitch.machine.init sampleState := ⟨fun _ => .forwarding, rfl⟩

/-- Station 20 answers station 10, which has sent to it. -/
theorem switching_answer : ∃ s : State ℕ Unit, Learned s ∧
    ForwardsOk sampleSwitch s (.macIn 1 (sampleFrame 10 20)) ∧
      portsOf (sampleSwitch.outs s (.macIn 1 (sampleFrame 10 20))) = [2] := by
  have hreach := Machine.ReachOn.exists_of_execOn (M := sampleSwitch.machine)
    (P := fun s => portsOf (sampleSwitch.outs s (.macIn 1 (sampleFrame 10 20))) = [2] ∧
      PortOk sampleSwitch s (.macIn 1 (sampleFrame 10 20)))
    (StepOk sampleSwitch) [.macIn 1 (sampleFrame 10 20), .macIn 2 (sampleFrame 20 10)]
    (.init init_sample) (by decide)
  obtain ⟨s, hs, hports, hok⟩ := hreach
  obtain ⟨hlearned, hnext⟩ := switching isSwitch_sample stores_sample hs
  exact ⟨s, hlearned, (hnext _ (untagged_sample 1 10 20)).2.2 hok, hports⟩

/-- Station 10 moves from port 1 to port 2, and the table keeps port 1. A frame for station 10 is sent back to the
port that it came from; and one is sent out of a port that blocks. -/
theorem switching_station_moves :
    (¬ ∀ s, sampleSwitch.machine.Reach s → Learned s) ∧
    (¬ ForwardsOk sampleSwitch (sampleSwitch.next sampleState (.macIn 1 (sampleFrame 10 20)))
      (.macIn 1 (sampleFrame 20 10))) ∧
    ¬ ∀ s, sampleSwitch.machine.Reach s → ∀ e, Untagged sampleSwitch e → ForwardsOk sampleSwitch s e := by
  refine ⟨fun hall => ?_, fun h => ?_, fun hall => ?_⟩
  · obtain ⟨s, hs, hmoved⟩ := Machine.Reach.exists_of_exec (M := sampleSwitch.machine)
      (P := fun s => (s.switchTableFind () 10).map SwitchTable.outPort = some 1 ∧ s.received () = [(10, 2), (10, 1)])
      [.macIn 1 (sampleFrame 10 20), .macIn 2 (sampleFrame 10 20)] (.init init_sample) (by decide)
    have hlookup := hall s hs () 10
    rw [hmoved.1, hmoved.2] at hlookup
    exact absurd hlookup (by decide)
  · have hok := (forwards_iff isSwitch_sample stores_sample (untagged_sample 1 20 10)).1 h
    revert hok
    decide
  · obtain ⟨s, hs, hblocked⟩ := Machine.Reach.exists_of_exec (M := sampleSwitch.machine)
      (P := fun s => ¬ PortOk sampleSwitch s (.macIn 2 (sampleFrame 20 10)))
      [.macIn 1 (sampleFrame 10 20), .setPortState 1 .blocking] (.init init_sample) (by decide)
    exact hblocked ((forwards_iff isSwitch_sample stores_sample (untagged_sample 2 20 10)).1
      (hall s hs _ (untagged_sample 2 20 10)))

end NetSim.Ethernet
