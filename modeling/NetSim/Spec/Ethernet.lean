import NetSim.Lib.Machine
import Mathlib.Data.Rat.Defs
import Mathlib.Logic.Function.Basic

/-!
# An Ethernet switch

The frames that a device receives from its ports and from its network layer, and what it does with them: it learns
the source, and sends, floods, tags or hands up the frame.

A LAN and the data of a packet above the MAC layer are left abstract. What is stored with a packet, by functions
that are not in the sources (`set_eth_hdr`, `store_eth_param_macin`, ...), is read and written through `EthLib`.
-/

namespace NetSim.Ethernet

/-- `SWITCH_PORTSTATE`. -/
inductive PortState
  | disabled
  | listening
  | learning
  | forwarding
  | blocking
deriving DecidableEq, Repr

/-- `SWITCHING_TECHNIQUE`. -/
inductive SwitchingTechnique
  | null
  | storeForward
  | cutThrough
  | fragmentFree
deriving DecidableEq, Repr

/-- `ACL_TYPE`, as the MAC layer asks. -/
inductive Direction
  | inbound
  | outbound
deriving DecidableEq, Repr

/-- `IEEE801_1Q_TAG`. -/
structure Tag where
  tpId : ℕ
  vid : BitVec 12
deriving DecidableEq, Repr

/-- `VLAN_TPID`. -/
def vlanTpid : ℕ := 0x8100

/-- `IEEE801_1Q_TAG_LEN`. -/
def tagLen : ℚ := 4

/-- `ETHERNET_FRAME_HEADER_LEN`. -/
def ethernetFrameHeaderLen : ℚ := 26

/-- `NetSim_PACKET`. The upper part is what the network and transport layers have put in. -/
structure Packet (μ N X : Type) where
  szSourceMac : μ
  szDestMac : μ
  upper : N
  networkSize : ℚ
  dPayload : ℚ
  dOverhead : ℚ
  dPacketSize : ℚ
  ethData : X
deriving DecidableEq, Repr

/-- `ETH_LAN`. No interface is listed twice. -/
structure Lan where
  interfaceId : List ℕ
  lanIP : Bool
  vlanId : UInt16
  switchingTechnique : SwitchingTechnique
  ispromiscuousMode : Bool
  nodup : interfaceId.Nodup

/-- The functions that read and write what is stored with a packet. -/
structure EthLib (μ N X : Type) where
  getEthHdrVar : X → Option Tag
  setEthHdr : Tag → X → X
  freeEthHdr : X → X
  storeEthParamMacin : ℕ → Lan → Packet μ N X → Packet μ N X
  ethGetIncomingPort : X → ℕ
  ethGetIncomingVlanid : X → UInt16
  clearEthIncoming : X → X

/-- What is fixed for a device: `ETH_VAR`, its LANs, its access list and its addresses. -/
structure Device (μ ι N X : Type) where
  lib : EthLib μ N X
  isSwitch : Bool
  nNumOfInterface : ℕ
  isVirtualInterface : ℕ → Bool
  isVLAN : Bool
  trunkPortIds : List ℕ
  lanVar : List ι
  lan : ι → Lan
  /-- `GET_ETH_LAN` for an interface. -/
  getEthLan : ℕ → ι
  macAddress : ℕ → μ
  isBroadcastMac : μ → Bool
  isMulticastMac : μ → Bool
  /-- Whether `fn_NetSim_MAC_Firewall` permits a packet. -/
  macFirewall : ℕ → N → Direction → Bool

/-- `SWITCHTABLE`. -/
structure SwitchTable (μ : Type) where
  mac : μ
  outPort : ℕ
deriving DecidableEq, Repr

/-- What changes in a device. For each LAN there is also a list of the frames that it has received, the last
one first: the source, and the port. -/
structure State (μ ι : Type) where
  portState : ℕ → PortState
  switchTable : ι → List (SwitchTable μ)
  received : ι → List (μ × ℕ)

/-- What a device hands to a port, to its network layer, or to the MAC layer of another interface. -/
inductive Out (μ N X : Type)
  | physicalOut (port : ℕ) (packet : Packet μ N X)
  | networkIn (port : ℕ) (packet : Packet μ N X)
  | macOut (port : ℕ) (packet : Packet μ N X)
deriving DecidableEq, Repr

variable {μ ι N X : Type} [DecidableEq μ] [DecidableEq ι]

namespace State

/-- `SWITCHTABLE_FIND`. -/
def switchTableFind (l : ι) (dest : μ) (s : State μ ι) : Option (SwitchTable μ) :=
  (s.switchTable l).find? fun table => dest = table.mac

/-- `SWITCHTABLE_NEW`. -/
def switchTableNew (l : ι) (dest : μ) (outport : ℕ) (s : State μ ι) : State μ ι :=
  if (s.switchTableFind l dest).isNone then
    { s with switchTable := Function.update s.switchTable l (s.switchTable l ++ [⟨dest, outport⟩]) }
  else s

/-- A frame from the source has come in at the port. -/
def receive (l : ι) (src : μ) (port : ℕ) (s : State μ ι) : State μ ι :=
  { s with received := Function.update s.received l ((src, port) :: s.received l) }

/-- `find_forward_interface`. No interface has the number 0. -/
def findForwardInterface (l : ι) (packet : Packet μ N X) (s : State μ ι) : ℕ :=
  ((s.switchTableFind l packet.szDestMac).map SwitchTable.outPort).getD 0

end State

namespace Device

variable (D : Device μ ι N X)

/-- `clear_eth_incoming`. -/
def clearEthIncoming (packet : Packet μ N X) : Packet μ N X :=
  { packet with ethData := D.lib.clearEthIncoming packet.ethData }

/-- `free_eth_hdr`. -/
def freeEthHdr (packet : Packet μ N X) : Packet μ N X :=
  { packet with ethData := D.lib.freeEthHdr packet.ethData }

/-- `isVLANTagPresent`. -/
def isVlanTagPresent (packet : Packet μ N X) : Bool :=
  (D.lib.getEthHdrVar packet.ethData).any fun tag => tag.tpId = vlanTpid

/-- `add_vlan_tag`. -/
def addVlanTag (vlanId : UInt16) (packet : Packet μ N X) : Packet μ N X :=
  { packet with
    ethData := D.lib.setEthHdr ⟨vlanTpid, vlanId.toBitVec.setWidth 12⟩ packet.ethData
    dOverhead := packet.dOverhead + tagLen
    dPacketSize := packet.dOverhead + tagLen + packet.dPayload }

/-- `add_mac_header`. -/
def addMacHeader (packet : Packet μ N X) : Packet μ N X :=
  { packet with
    dPayload := packet.networkSize
    dOverhead := ethernetFrameHeaderLen
    dPacketSize := packet.networkSize + ethernetFrameHeaderLen }

/-- The loops that send a copy to every port that none of their tests leaves out. -/
def copyTo (ports : List ℕ) (goes : ℕ → Bool) (packet : Packet μ N X) : List (Out μ N X) :=
  (ports.filter goes).map fun port => .physicalOut port packet

/-- The test for the port state and the one for the access list. -/
def isOpen (s : State μ ι) (packet : Packet μ N X) (port : ℕ) : Bool :=
  s.portState port ≠ .blocking && D.macFirewall port packet.upper .outbound

/-- `get_vlan`. -/
def getVlan (vlanId : UInt16) : Option ι :=
  if D.isVLAN then D.lanVar.find? fun l => (D.lan l).vlanId = vlanId else none

/-- `vlan_forward_to_all_trunk`. -/
def vlanForwardToAllTrunk (s : State μ ι) (packet : Packet μ N X) (lan : Lan) : List (Out μ N X) :=
  if D.isVLAN then
    let incoming := D.lib.ethGetIncomingPort packet.ethData
    let vlanId := D.lib.ethGetIncomingVlanid packet.ethData
    copyTo D.trunkPortIds (fun port => port ∉ lan.interfaceId && port ≠ incoming && D.isOpen s packet port)
      (D.addVlanTag vlanId (D.clearEthIncoming packet))
  else []

/-- `vlan_forward_to_trunk`. -/
def vlanForwardToTrunk (s : State μ ι) (port : ℕ) (vlanId : UInt16) (packet : Packet μ N X) : List (Out μ N X) :=
  if D.isVLAN then
    copyTo D.trunkPortIds (fun inter => inter ≠ port && D.isOpen s packet inter)
      (D.addVlanTag vlanId (D.clearEthIncoming packet))
  else []

/-- `validate_mac_frame`. -/
def validateMacFrame (lan : Lan) (mac : μ) : Bool :=
  lan.ispromiscuousMode || D.isBroadcastMac mac || D.isMulticastMac mac || lan.switchingTechnique ≠ .null ||
    lan.interfaceId.any fun port => D.macAddress port = mac

/-- `check_move_frame_up`. -/
def checkMoveFrameUp (port : ℕ) (lan : Lan) (packet : Packet μ N X) : List (Out μ N X) :=
  if D.validateMacFrame lan packet.szDestMac then [.networkIn port (D.freeEthHdr packet)] else []

/-- `forward_frame`. -/
def forwardFrame (s : State μ ι) (port : ℕ) (l : ι) (packet : Packet μ N X) : List (Out μ N X) :=
  let lan := D.lan l
  let f := s.findForwardInterface l packet
  if f ≠ 0 then
    if D.macFirewall f packet.upper .outbound then [.physicalOut f (D.clearEthIncoming packet)] else []
  else if D.isSwitch then
    copyTo lan.interfaceId (fun inter => inter ≠ port && D.isOpen s packet inter) (D.clearEthIncoming packet) ++
      D.vlanForwardToAllTrunk s packet lan
  else if !lan.lanIP then
    ((List.range D.nNumOfInterface).filter fun j => j + 1 ≠ port && !D.isVirtualInterface (j + 1)).map
      fun j => .macOut (j + 1) packet
  else []

/-- `vlan_macin_forward_packet`. -/
def vlanMacinForwardPacket (s : State μ ι) (port : ℕ) (packet : Packet μ N X) : List (Out μ N X) :=
  let vlanId := D.lib.ethGetIncomingVlanid packet.ethData
  let lan := D.lan (D.getEthLan port)
  if lan.lanIP then D.checkMoveFrameUp port lan packet
  else match D.getVlan vlanId with
    | none => D.vlanForwardToTrunk s port vlanId packet
    | some l =>
      let f := s.findForwardInterface l packet
      if f ≠ 0 then
        if D.macFirewall f packet.upper .outbound && f ≠ port then [.physicalOut f (D.clearEthIncoming packet)]
        else []
      else D.vlanForwardToTrunk s port vlanId packet ++
        copyTo (D.lan l).interfaceId (fun inter => inter ≠ port && D.isOpen s packet inter)
          (D.clearEthIncoming packet)

/-- `vlan_macout_forward_packet`. -/
def vlanMacoutForwardPacket (s : State μ ι) (port : ℕ) (vlanId : UInt16) (incoming : ℕ) (packet : Packet μ N X) :
    List (Out μ N X) :=
  let l := D.getEthLan port
  let out := s.findForwardInterface l packet
  if out ≠ 0 then
    if D.macFirewall out packet.upper .outbound && out ≠ incoming then
      [.physicalOut out (D.clearEthIncoming packet)]
    else []
  else D.vlanForwardToTrunk s incoming vlanId packet ++
    copyTo (D.lan l).interfaceId (fun inter => D.isOpen s packet inter && inter ≠ incoming)
      (D.clearEthIncoming packet)

/-- `packet_arrive_from_network_layer`, for one packet of the buffer. -/
def packetArriveFromNetworkLayer (s : State μ ι) (port : ℕ) (packet : Packet μ N X) : List (Out μ N X) :=
  let vlanId := D.lib.ethGetIncomingVlanid packet.ethData
  let incoming := D.lib.ethGetIncomingPort packet.ethData
  let packet := D.clearEthIncoming packet
  if vlanId ≠ 0 then D.vlanMacoutForwardPacket s port vlanId incoming packet
  else
    let lan := D.lan (D.getEthLan port)
    let out := if lan.interfaceId.length > 1 then s.findForwardInterface (D.getEthLan port) packet else port
    let packet := addMacHeader packet
    if out ≠ 0 then
      if D.macFirewall out packet.upper .outbound then [.physicalOut out (D.clearEthIncoming packet)] else []
    else
      copyTo lan.interfaceId
          (fun inter => D.isOpen s packet inter && (inter ≠ incoming || lan.switchingTechnique = .null))
          (D.clearEthIncoming packet) ++
        D.vlanForwardToAllTrunk s packet lan

/-- `decide_move_up`. -/
def decideMoveUp (lan : Lan) (destMac : μ) : Bool :=
  if D.isBroadcastMac destMac && lan.switchingTechnique ≠ .null then false else lan.lanIP

/-- What `ethernet_mac_process_frame` does with a frame, behind the learning. -/
def processFrame (s : State μ ι) (port : ℕ) (packet : Packet μ N X) : List (Out μ N X) :=
  let l := D.getEthLan port
  let isTag := D.isVlanTagPresent packet
  let p := D.lib.storeEthParamMacin port (D.lan l) packet
  if D.decideMoveUp (D.lan l) packet.szDestMac then D.checkMoveFrameUp port (D.lan l) p
  else if isTag then D.vlanMacinForwardPacket s port p
  else D.forwardFrame s port l p

/-- The learning of `ethernet_mac_process_frame`. -/
def learn (s : State μ ι) (port : ℕ) (packet : Packet μ N X) : State μ ι :=
  let l := D.getEthLan port
  let s := s.receive l packet.szSourceMac port
  if (D.lan l).switchingTechnique ≠ .null then s.switchTableNew l packet.szSourceMac port else s

end Device

/-- What happens to a device: a frame comes in from a port, a packet comes from the network layer, or the spanning
tree changes a port. The packets that the network layer has left in a buffer come one by one. -/
inductive Event (μ N X : Type)
  | macIn (port : ℕ) (packet : Packet μ N X)
  | networkOut (port : ℕ) (packet : Packet μ N X)
  | setPortState (port : ℕ) (state : PortState)
deriving DecidableEq, Repr

namespace Device

variable (D : Device μ ι N X)

/-- The state after an event. -/
def next (s : State μ ι) : Event μ N X → State μ ι
  | .macIn port packet => if D.macFirewall port packet.upper .inbound then D.learn s port packet else s
  | .networkOut _ _ => s
  | .setPortState port state => { s with portState := Function.update s.portState port state }

/-- What an event sends. -/
def outs (s : State μ ι) : Event μ N X → List (Out μ N X)
  | .macIn port packet =>
    if D.macFirewall port packet.upper .inbound then D.processFrame (D.learn s port packet) port packet else []
  | .networkOut port packet => D.packetArriveFromNetworkLayer s port packet
  | .setPortState _ _ => []

/-- The runs of a device, from empty tables. -/
def machine : Machine (State μ ι) (Event μ N X) where
  init s := ∃ portState, s = ⟨portState, fun _ => [], fun _ => []⟩
  step s e := some (D.next s e)

end Device

end NetSim.Ethernet
