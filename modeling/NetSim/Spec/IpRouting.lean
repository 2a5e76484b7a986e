import NetSim.Lib.Ranked
import Mathlib.Data.UInt

/-!
# IP forwarding

`IP_Routing.c`: the match table of a destination and the route of a unicast packet. Addresses and lists come
from libraries that are not part of the repository; `IpLib` has what is used of them. The route of a
multicast packet is a parameter. The id of a gateway that is stored in the entry when it is first used is not.
-/

namespace NetSim.IpRouting

/-! ## Addresses -/

/-- `struct stru_ip`. The type is 4 or 6, and an IPv4 address is the first word. -/
structure StruIp where
  type : ℕ
  intIp : UInt32
  intIp1 : UInt32
  intIp2 : UInt32
  intIp3 : UInt32
deriving DecidableEq, Repr

/-- `IP_COMPARE`, which is 0 for equal addresses. -/
def ipCompare (ip1 ip2 : StruIp) : ℕ :=
  if ip1.type = ip2.type then
    if ip1.type = 4 then if ip1.intIp = ip2.intIp then 0 else 1
    else if ip1.intIp = ip2.intIp then
      if ip1.intIp1 = ip2.intIp1 then
        if ip1.intIp2 = ip2.intIp2 then if ip1.intIp3 = ip2.intIp3 then 0 else 1
        else 1
      else 1
    else 1
  else 1

/-- `IP_GATEWAYSTATE`. -/
inductive GatewayState where
  | up
  | down
  | notificationPending
  | clearancePending
deriving DecidableEq, Repr

/-- `ICMP_CHECKSTATE`: the gateways of the device with their states. -/
def icmpCheckState (gateways : List (StruIp × GatewayState)) (ip : Option StruIp) : Bool :=
  match ip with
  | none => true
  | some ip =>
    match gateways.find? fun gateway => ipCompare gateway.1 ip == 0 with
    | none => true
    | some gateway => gateway.2 != .down

/-! ## Tables -/

/-- `ROUTING_TYPE`. -/
inductive RoutingType where
  | string
  | default
  | static
deriving DecidableEq, Repr

/-- `IP_ROUTINGTABLE`. Its interfaces have an address and an id; every caller of `iptable_add` gives one. -/
structure IpRoutingTable where
  networkDestination : StruIp
  netMask : StruIp
  gateway : Option StruIp
  interfaces : List (StruIp × ℕ)
  prefixLen : ℕ
  metric : ℕ
  type : RoutingType
  nGatewayId : ℕ
  hasInterface : interfaces ≠ []
deriving DecidableEq

/-- `MATCH`. -/
structure Match where
  table : IpRoutingTable
  bitsCount : ℕ
  metric : ℕ
deriving DecidableEq

/-- `IP_FORWARD_ROUTE`. -/
structure IpForwardRoute where
  count : ℕ
  nextHop : List StruIp
  gateway : List StruIp
  interfaceId : List ℕ
  nextHopId : List ℕ
deriving DecidableEq, Repr

/-- What is used of the libraries: `IP_NETWORK_ADDRESS`, `IP_TO_BINARY`, `isMulticastIP` and
`fn_NetSim_Stack_GetDeviceId_asIP`. -/
structure IpLib where
  ipNetworkAddress : StruIp → StruIp → ℕ → StruIp
  ipToBinary : StruIp → List Char
  isMulticastIP : StruIp → Bool
  getDeviceIdAsIP : StruIp → ℕ

/-! ## Matches -/

/-- `match_check`. -/
def matchCheck (m1 m2 : Match) : ℕ :=
  if m2.bitsCount > m1.bitsCount then 2
  else if m2.bitsCount = m1.bitsCount then if m2.metric < m1.metric then 2 else 0
  else 0

section

variable (lib : IpLib) (listAdd : (Match → Match → ℕ) → List Match → Match → List Match)
  (gateways : List (StruIp × GatewayState))

/-- `get_bit_match_count`. -/
def getBitMatchCount (ip1 : StruIp) : ℕ := ((lib.ipToBinary ip1).takeWhile fun b => b != '0').length

/-- The body of the loop of `get_match_table`: the match of an entry, if there is one. -/
def matchOf (dest : StruIp) (isStatic : Bool) (table : IpRoutingTable) : Option Match :=
  if !(isStatic && table.type == .static || !isStatic) then none
  else if ipCompare dest table.networkDestination = 0 ∧ icmpCheckState gateways (some dest) then
    some
      { table := table
        bitsCount := if dest.type = 4 then 32 else 128
        metric := if table.metric ≤ 0 then 999 else table.metric }
  else if dest.type = table.networkDestination.type then
    let network1 := lib.ipNetworkAddress dest table.netMask table.prefixLen
    let network2 := lib.ipNetworkAddress table.networkDestination table.netMask table.prefixLen
    if ipCompare network1 network2 = 0 then
      if icmpCheckState gateways table.gateway then
        some
          { table := table
            bitsCount := if dest.type = 4 then getBitMatchCount lib table.netMask else table.prefixLen
            metric := table.metric }
      else none
    else none
  else none

/-- `get_match_table`. -/
def getMatchTable (tables : List IpRoutingTable) (dest : StruIp) (isStatic : Bool) : List Match :=
  tables.foldl
    (fun l table =>
      match matchOf lib gateways dest isStatic table with
      | none => l
      | some c => listAdd matchCheck l c)
    []

/-! ## Routes -/

/-- The id of the next hop; 0 leaves it to the MAC layer. -/
def nextHopIdOf (table : IpRoutingTable) : ℕ :=
  if table.nGatewayId = 0 then
    match table.gateway with
    | none => 0
    | some gateway => lib.getDeviceIdAsIP gateway
  else table.nGatewayId

/-- `update_route_entry`, of a route that is all zero. -/
def updateRouteEntry (found : Option Match) (dest : StruIp) : IpForwardRoute :=
  match found with
  | none => ⟨0, [], [], [], []⟩
  | some found =>
    let table := found.table
    { count := table.interfaces.length
      nextHop := table.interfaces.map fun _ => table.gateway.getD dest
      gateway := table.interfaces.map Prod.fst
      interfaceId := table.interfaces.map Prod.snd
      nextHopId := table.interfaces.map fun _ => nextHopIdOf lib table }

/-- `route_unicast`. -/
def routeUnicast (tables : List IpRoutingTable) (dest : StruIp) : Option IpForwardRoute :=
  let route := updateRouteEntry lib (getMatchTable lib listAdd gateways tables dest false).head? dest
  if route.count = 0 then none else some route

/-- `fn_NetSim_IP_RoutePacket`. -/
def routePacket (routeMulticast : StruIp → Option IpForwardRoute) (tables : List IpRoutingTable) (dest : StruIp) :
    Option IpForwardRoute :=
  if lib.isMulticastIP dest then routeMulticast dest else routeUnicast lib listAdd gateways tables dest

end

end NetSim.IpRouting
