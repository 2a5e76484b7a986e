import NetSim.Lib.Machine
import NetSim.Lib.Word
import NetSim.Spec.Ethernet
import Mathlib.Order.Lattice

/-!
# The spanning tree protocol

Switches that exchange configuration BPDUs, as in `SpanningTree.c`. No two links join the same two switches, so a port is
named by the switch at the other end: `get_interface_id`, which is not in the sources, finds the port to a switch. The ids of
switches are compared by `_stricmp`; they are of any linear order here. The BPDUs that are on their way may be delivered in
any order.
-/

namespace NetSim.Ethernet

open Word

/-- `SWITCH_PORTTYPE`. -/
inductive PortType
  | designated
  | nondesignated
  | root
deriving DecidableEq, Repr

/-- `ETH_BPDU`. -/
structure Bpdu (I : Type) where
  rootId : I
  rootPathCost : ℕ
  bridgeId : I
deriving DecidableEq, Repr

/-- The switches: their ids and costs, and the switches at the other ends of their ports. -/
structure Switches (V I : Type) where
  devices : List V
  switchId : V → I
  stpCost : V → ℤ
  ports : V → List V
  mem_devices : ∀ v, v ∈ devices
  ports_symm : ∀ v w, w ∈ ports v → v ∈ ports w
  ports_irrefl : ∀ v, v ∉ ports v

/-- `ETH_SPT`, what changes of it. A switch without a root port has the number 0 there. -/
structure Spt (V I : Type) where
  rootId : I
  rootPathCost : ℕ
  rootPort : Option V
deriving DecidableEq

/-- A switch: its `ETH_SPT`, and `ETH_IF` for each of its ports. -/
structure Switch (V I : Type) where
  spt : Spt V I
  portState : V → PortState
  portType : V → PortType

/-- A BPDU on its way. -/
structure BpduFrame (V I : Type) where
  src : V
  dst : V
  bpdu : Bpdu I
deriving DecidableEq, Repr

/-- `COMPARE_BPDU`. -/
inductive CompareBpdu
  | block
  | forward
  | dontForward
deriving DecidableEq, Repr

variable {V I : Type} [DecidableEq V] [LinearOrder I]

/-- `compare_bpdu`. -/
def compareBpdu (bpdu : Bpdu I) (spt : Spt V I) (switchId : I) (port : V) : CompareBpdu :=
  if bpdu.rootId = spt.rootId then
    if spt.rootId = switchId then .dontForward
    else if bpdu.rootPathCost = spt.rootPathCost then
      if spt.rootPort = some port then .dontForward else .block
    else if bpdu.rootPathCost < spt.rootPathCost then .forward
    else .block
  else if bpdu.rootId < spt.rootId then .forward
  else .dontForward

namespace Switch

/-- `block_port`. -/
def blockPort (sw : Switch V I) (port : V) : Switch V I :=
  { sw with
    portState := Function.update sw.portState port .blocking
    portType := Function.update sw.portType port .nondesignated }

/-- `mark_port`. -/
def markPort (sw : Switch V I) (port : V) : Switch V I :=
  { sw with
    spt := { sw.spt with rootPort := some port }
    portType := fun p => if p = port then .root else .designated }

/-- `update_spt`. -/
def updateSpt (sw : Switch V I) (bpdu : Bpdu I) (port : V) : Switch V I :=
  { sw with spt := ⟨bpdu.rootId, bpdu.rootPathCost, some port⟩ }

end Switch

namespace Switches

variable (T : Switches V I)

/-- `stpCost`, an `int`, where it is put into an unsigned cost. -/
def cost (v : V) : ℕ := ofInt32 (T.stpCost v)

/-- `create_bpdu`, by a switch that starts as root. -/
def createBpdu (v : V) : Bpdu I := ⟨T.switchId v, T.cost v, T.switchId v⟩

/-- `copy_bpdu`. -/
def copyBpdu (v : V) (b : Bpdu I) : Bpdu I := ⟨b.rootId, u32 (T.cost v + b.rootPathCost), T.switchId v⟩

/-- `send_config_bpdu`. -/
def sendConfigBpdu (v : V) : List (BpduFrame V I) := (T.ports v).map fun w => ⟨v, w, T.createBpdu v⟩

/-- `forward_bpdu`: through all ports but the one that the BPDU came from. -/
def forwardBpdu (v port : V) (b : Bpdu I) : List (BpduFrame V I) :=
  ((T.ports v).filter fun w => w ≠ port).map fun w => ⟨v, w, T.copyBpdu v b⟩

/-- `start_spt_for_lan`: a switch starts as root. -/
def startSptForLan (v : V) : Switch V I :=
  ⟨⟨T.switchId v, 0, none⟩, fun _ => .forwarding, fun _ => .designated⟩

/-- `process_configbpdu`: the switch, and what it sends. -/
def processConfigBpdu (v : V) (sw : Switch V I) (port : V) (b : Bpdu I) : Switch V I × List (BpduFrame V I) :=
  match compareBpdu b sw.spt (T.switchId v) port with
  | .block => (sw.blockPort port, [])
  | .forward => ((sw.markPort port).updateSpt b port, T.forwardBpdu v port b)
  | .dontForward => (sw, [])

end Switches

/-- The switches in a run, and the BPDUs that are on their way. -/
structure SptNet (V I : Type) where
  switch : V → Switch V I
  inFlight : List (BpduFrame V I)

namespace SptNet

/-- `init_spanning_tree_protocol`. -/
def init (T : Switches V I) : SptNet V I := ⟨T.startSptForLan, T.devices.flatMap T.sendConfigBpdu⟩

/-- A BPDU arrives. -/
def deliver (T : Switches V I) (net : SptNet V I) (f : BpduFrame V I) (rest : List (BpduFrame V I)) : SptNet V I :=
  let r := T.processConfigBpdu f.dst (net.switch f.dst) f.src f.bpdu
  ⟨Function.update net.switch f.dst r.1, rest ++ r.2⟩

/-- Any BPDU that is on its way may be the next to arrive. -/
def step (T : Switches V I) (net : SptNet V I) (i : ℕ) : Option (SptNet V I) :=
  net.inFlight[i]?.map fun f => net.deliver T f (net.inFlight.eraseIdx i)

/-- The runs of the protocol. -/
def machine (T : Switches V I) : Machine (SptNet V I) ℕ := ⟨(· = init T), step T⟩

end SptNet

end NetSim.Ethernet
