import NetSim.Lib.Decimal
import NetSim.Lib.Word
import NetSim.Spec.IpRouting

/-!
# The firewall

`firewall.c`: the lines of an access list, and what they say about a packet. The words of a line come from
`find_word`, which is not part of the repository, as are the functions on addresses and on binary texts;
`FirewallLib` has what is used of them. Texts are lists of characters.
-/

namespace NetSim.Firewall

open IpRouting PyText

/-- `IP_PROTOCOL_NUMBER`. -/
inductive IpProtocol
  | null
  | icmp
  | igmp
  | tcp
  | udp
  | dsr
  | ospf
  | pim
deriving DecidableEq, Repr

/-- `ACL_TYPE`. -/
inductive AclType
  | both
  | inbound
  | outbound
deriving DecidableEq, Repr

/-- `ACL_ACTION`. -/
inductive AclAction
  | permit
  | deny
deriving DecidableEq, Repr

/-- `NETSIM_ACL`. An address and its subnet are set together. -/
structure Acl where
  nInterfaceId : ℕ
  type : AclType
  source : Option (StruIp × StruIp)
  dest : Option (StruIp × StruIp)
  srcPort : UInt16
  destPort : UInt16
  protocol : IpProtocol
  action : AclAction
  isMacBlock : Bool
deriving DecidableEq, Repr

/-- The words of a line. The last ones may be missing. -/
structure Words where
  act : Str
  type : Str
  pro : Option Str
  src : Str
  dest : Str
  sport : Option Str
  dport : Option Str
  i : Option Str
deriving DecidableEq, Repr

/-- What the firewall reads of a packet. The ports are those of the transport layer, if there is one, and the
destinations are what `get_dest_from_packet` gives. -/
structure Packet where
  szSourceIP : StruIp
  szDestIP : StruIp
  ports : Option (UInt16 × UInt16)
  ipProtocol : IpProtocol
  destinations : List ℕ
deriving DecidableEq, Repr

/-- What is used of the libraries. `strToIp` may return a null pointer, and `findWord` returns the word and what is
behind it. -/
structure FirewallLib where
  ipNetworkAddress : StruIp → StruIp → ℕ → StruIp
  strToIp : Str → ℕ → Option StruIp
  /-- The field `str_ip` of an address. -/
  strIp : StruIp → Str
  /-- The field `bin_ip` of an address. -/
  binIp : StruIp → Str
  findWord : Str → Option Str × Str
  binaryToDecimal : Str → ℕ
  isMulticastIP : StruIp → Bool
  isBroadcastIP : StruIp → Bool
  getFirstIPAddressAsId : ℕ → ℕ → StruIp

/-- The interfaces of a device, and whether it has an access list. -/
structure Device where
  nNumOfInterface : ℕ
  nwAddress : ℕ → StruIp
  hasIpDevVar : Bool
  isFirewallConfigured : Bool

/-! ## Texts -/

/-- Whether `_stricmp` finds two texts equal. -/
def stricmp (a b : Str) : Bool := a.map Char.toLower = b.map Char.toLower

/-- `atoi`. -/
def atoi (s : Str) : ℤ :=
  let (isNegative, rest) := takeSign (s.dropWhile isSpace)
  let value := digitsValue (rest.takeWhile Char.isDigit)
  if isNegative then -value else value

/-- `action_from_str`. -/
def actionFromStr (s : Str) : AclAction :=
  if stricmp s "permit".toList then .permit
  else if stricmp s "deny".toList then .deny
  else .permit

/-- `ipprotocol_from_str`. -/
def ipprotocolFromStr (pro : Str) : IpProtocol :=
  if stricmp pro "any".toList then .null
  else if stricmp pro "TCP".toList then .tcp
  else if stricmp pro "UDP".toList then .udp
  else if stricmp pro "IGMP".toList then .igmp
  else if stricmp pro "ICMP".toList then .icmp
  else .null

/-- `type_from_str`. -/
def typeFromStr (str : Str) : AclType :=
  if stricmp str "INBOUND".toList then .inbound
  else if stricmp str "OUTBOUND".toList then .outbound
  else .both

section

variable (lib : FirewallLib)

/-- The text `bin` of `num_to_subnet`, with as many ones as there is room for. -/
def ones (num : ℤ) : Str := List.replicate num.toNat '1' ++ List.replicate (8 - num.toNat) '0'

/-- The loop of `num_to_subnet`, with `left` octets to go. -/
def subnetText : ℕ → ℤ → Str
  | 0, _ => []
  | left + 1, num =>
    if num > 8 then "255".toList ++ (if left ≠ 0 then ['.'] else []) ++ subnetText left (num - 8)
    else Nat.toDigits 10 (lib.binaryToDecimal (ones num)) ++ (List.replicate left ".0".toList).flatten

/-- `num_to_subnet`. -/
def numToSubnet (num : ℤ) : Option StruIp := lib.strToIp (subnetText lib 4 num) 4

/-- `ip_from_str`. A text without a slash makes the program read a null pointer; its prefix counts as 0 here. -/
def ipFromStr (s : Str) : Option (StruIp × StruIp) :=
  if stricmp s "any".toList then none
  else
    let sip := s.takeWhile (· ≠ '/')
    let ssub := (s.dropWhile (· ≠ '/')).tail
    (lib.strToIp sip 4).bind fun ip => (numToSubnet lib (atoi ssub)).map fun subnet => (ip, subnet)

/-! ## Lines -/

/-- `check_mac_block`. -/
def checkMacBlock (d : Device) (interfaceId : ℕ) : Bool :=
  let ip := d.nwAddress interfaceId
  (List.range d.nNumOfInterface).any fun i => i + 1 ≠ interfaceId && ipCompare (d.nwAddress (i + 1)) ip = 0

/-- `acl_add_new_line`: the line that is added. -/
def aclAddNewLine (d : Device) (words : Words) : Acl :=
  let nInterfaceId := (words.i.map fun i => (atoi i % 2 ^ 32).toNat).getD 0
  { nInterfaceId := nInterfaceId
    type := typeFromStr words.type
    source := ipFromStr lib words.src
    dest := ipFromStr lib words.dest
    srcPort := (words.sport.map fun sport => UInt16.ofInt (atoi sport)).getD 0
    destPort := (words.dport.map fun dport => UInt16.ofInt (atoi dport)).getD 0
    protocol := (words.pro.map ipprotocolFromStr).getD .null
    action := actionFromStr words.act
    isMacBlock := nInterfaceId ≠ 0 && checkMacBlock d nInterfaceId }

/-! ## Printing -/

/-- `str_from_proto`. -/
def strFromProto : IpProtocol → Str
  | .tcp => "TCP".toList
  | .udp => "UDP".toList
  | _ => "ANY".toList

/-- `perfix_from_mask`. -/
def perfixFromMask (mask : StruIp) : ℕ := ((lib.binIp mask).takeWhile (· = '1')).length

/-- The text `%s/%d` of a source or a destination. -/
def addressText (address : Option (StruIp × StruIp)) : Str :=
  match address with
  | none => "ANY".toList ++ '/' :: Nat.toDigits 10 0
  | some (ip, subnet) => lib.strIp ip ++ '/' :: Nat.toDigits 10 (perfixFromMask lib subnet)

/-- The text of an action in `acl_print`. -/
def actionText (action : AclAction) : Str := if action = .permit then "PERMIT".toList else "DENY".toList

/-- The text of a direction in `acl_print`. -/
def typeText (type : AclType) : Str :=
  if type = .both then "BOTH".toList else if type = .inbound then "INBOUND".toList else "OUTBOUND".toList

/-- The line that `acl_print` writes. -/
def aclPrintLine (acl : Acl) : Str :=
  actionText acl.action ++ ' ' ::
  (typeText acl.type ++ ' ' ::
  (strFromProto acl.protocol ++ ' ' ::
  (addressText lib acl.source ++ ' ' ::
  (addressText lib acl.dest ++ ' ' ::
  (decimal acl.srcPort.toNat ++ ' ' ::
  (decimal acl.destPort.toNat ++ ' ' ::
  (decimal (Word.int32 acl.nInterfaceId) ++ ['\n'])))))))

/-- `acl_print`. -/
def aclPrint (acls : List Acl) : Str := (acls.map (aclPrintLine lib)).flatten

/-- The lines of a text as `fgets` reads them. -/
def fgetsLines : Str → List Str
  | [] => []
  | '\n' :: rest => ['\n'] :: fgetsLines rest
  | c :: rest =>
    match fgetsLines rest with
    | [] => [[c]]
    | line :: lines => (c :: line) :: lines

/-- Some calls of `find_word`. -/
def callFindWord : ℕ → Str → List (Option Str)
  | 0, _ => []
  | calls + 1, s => (lib.findWord s).1 :: callFindWord calls (lib.findWord s).2

/-- The words that `acl_add_new_line` finds. It reads through the action, the type and the two addresses without
a test. -/
def findWords (s : Str) : Option Words :=
  match callFindWord lib 8 s with
  | [some act, some type, pro, some src, some dest, sport, dport, i] =>
    some ⟨act, type, pro, src, dest, sport, dport, i⟩
  | _ => none

/-- The lines of a text, each given to `acl_add_new_line`. -/
def readAcl (d : Device) (text : Str) : Option (List Acl) :=
  (fgetsLines text).mapM fun line => (findWords lib line).map (aclAddNewLine lib d)

/-! ## Packets -/

/-- `get_dest_ip`. -/
def getDestIp (packet : Packet) : StruIp :=
  if lib.isMulticastIP packet.szDestIP then packet.szDestIP
  else if lib.isBroadcastIP packet.szDestIP then packet.szDestIP
  else if packet.destinations.length > 1 then packet.szDestIP
  else lib.getFirstIPAddressAsId (packet.destinations.headD 0) 0

/-- The ports of a packet, which are 0 if there is no transport layer. -/
def Packet.sport (packet : Packet) : UInt16 := (packet.ports.map Prod.fst).getD 0

def Packet.dport (packet : Packet) : UInt16 := (packet.ports.map Prod.snd).getD 0

/-- Whether an address is the masked address of a packet. -/
def matchesAddress (address : Option (StruIp × StruIp)) (ip : StruIp) : Bool :=
  match address with
  | none => true
  | some (source, subnet) => ipCompare source (lib.ipNetworkAddress ip subnet 0) = 0

/-- The tests of a line on the packet. -/
def isMatched (packet : Packet) (acl : Acl) : Bool :=
  matchesAddress lib acl.source packet.szSourceIP && matchesAddress lib acl.dest (getDestIp lib packet) &&
    (acl.destPort = 0 || acl.destPort = packet.dport) && (acl.srcPort = 0 || acl.srcPort = packet.sport) &&
    (acl.protocol = .null || acl.protocol = packet.ipProtocol)

/-- The loop of `fn_NetSim_Firewall`. -/
def searchAcl (interfaceId : ℕ) (packet : Packet) (type : AclType) (isMAC : Bool) : List Acl → AclAction
  | [] => .permit
  | acl :: rest =>
    if acl.isMacBlock && !isMAC then searchAcl interfaceId packet type isMAC rest
    else if (acl.nInterfaceId ≠ 0 && acl.nInterfaceId ≠ interfaceId) || (acl.type ≠ .both && acl.type ≠ type) then
      searchAcl interfaceId packet type isMAC rest
    else if isMatched lib packet acl then acl.action
    else searchAcl interfaceId packet type isMAC rest

/-- `fn_NetSim_Firewall`. -/
def netSimFirewall (d : Device) (acl : List Acl) (interfaceId : ℕ) (packet : Packet) (type : AclType) (isMAC : Bool) :
    AclAction :=
  if !d.hasIpDevVar then .permit
  else if !d.isFirewallConfigured then .permit
  else searchAcl lib interfaceId packet type isMAC acl

/-- `fn_NetSim_MAC_Firewall`. -/
def macFirewall (d : Device) (acl : List Acl) (interfaceId : ℕ) (packet : Packet) (type : AclType) : AclAction :=
  netSimFirewall lib d acl interfaceId packet type true

/-- `fn_NetSim_NETWORK_Firewall`. -/
def networkFirewall (d : Device) (acl : List Acl) (interfaceId : ℕ) (packet : Packet) (type : AclType) : AclAction :=
  netSimFirewall lib d acl interfaceId packet type false

end

end NetSim.Firewall
