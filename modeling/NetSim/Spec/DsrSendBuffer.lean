import NetSim.Spec.Dsr

/-!
# The send buffer of DSR

Packets that wait for a route, one entry for each of their destinations. `fn_NetSim_DSR_CheckSendBuffer` goes over the entries
with one cursor into the route cache, that it does not set back for the next entry.
-/

namespace NetSim.Dsr

/-- `NetSim_PACKET` in the send buffer, with what `fnGetPacketSize` gives for it, and the application and segment of its
`pstruAppData`, if it has them. -/
structure WaitingPacket (ι : Type*) where
  nPacketId : ℤ
  szDestIp : ι
  dPacketSize : ℚ
  pstruAppData : Option (ℕ × ℕ)
deriving DecidableEq

/-- `DSR_SEND_BUFFER`. -/
structure SendBuffer (ι : Type*) where
  target : ι
  dTime : ℚ
  packet : List (WaitingPacket ι)
deriving DecidableEq

/-- A device, with its network protocol as `fn_NetSim_Stack_GetNWProtocol` gives it. -/
structure Device where
  nDeviceId : ℕ
  nDeviceType : ℕ
  nwProtocol : ℕ
deriving DecidableEq

/-- A `NETWORK_OUT_EVENT`, with the sub event 0. -/
structure NetworkOut (ι : Type*) where
  dEventTime : ℚ
  dPacketSize : ℚ
  nApplicationId : ℕ
  nSegmentId : ℕ
  device : Device
  nInterfaceId : ℕ
  nPacketId : ℤ
  pPacket : WaitingPacket ι
deriving DecidableEq

/-- The send buffer of a node, and its count `packetDropped`. -/
structure SendNode (ι : Type*) where
  device : Device
  pstruSendBuffer : List (SendBuffer ι)
  packetDropped : ℕ
deriving DecidableEq

variable {ι : Type*} [DecidableEq ι]

/-- The loops of `fn_NetSim_DSR_AddToSendBuffer`: the entry of the destination, or a new one behind the others, gets the packet.
An entry without packets is filled like a new one. -/
def addToEntries (packet : WaitingPacket ι) (dTime : ℚ) : List (SendBuffer ι) → List (SendBuffer ι)
  | [] => [⟨packet.szDestIp, dTime, [packet]⟩]
  | temp :: rest =>
    if packet.szDestIp = temp.target then
      (if temp.packet = [] then ⟨packet.szDestIp, dTime, [packet]⟩ else { temp with packet := temp.packet ++ [packet] }) :: rest
    else temp :: addToEntries packet dTime rest

/-- `fn_NetSim_DSR_AddToSendBuffer`, with whether the destination had no entry. -/
def addToSendBuffer (n : SendNode ι) (packet : WaitingPacket ι) (dTime : ℚ) : Bool × SendNode ι :=
  (n.pstruSendBuffer.all fun temp => packet.szDestIp ≠ temp.target,
    { n with pstruSendBuffer := addToEntries packet dTime n.pstruSendBuffer })

/-- `fn_NetSim_DSR_EmptySendBuffer` over the entries: those that stay, and the packets that are freed. -/
def emptyEntries (targetAddress : ι) : List (SendBuffer ι) → List (SendBuffer ι) × List (WaitingPacket ι)
  | [] => ([], [])
  | sendBuffer :: rest =>
    if sendBuffer.target = targetAddress then (rest, sendBuffer.packet)
    else (sendBuffer :: (emptyEntries targetAddress rest).1, (emptyEntries targetAddress rest).2)

/-- `fn_NetSim_DSR_EmptySendBuffer`. -/
def emptySendBuffer (n : SendNode ι) (targetAddress : ι) : SendNode ι :=
  { n with
    pstruSendBuffer := (emptyEntries targetAddress n.pstruSendBuffer).1
    packetDropped := n.packetDropped + (emptyEntries targetAddress n.pstruSendBuffer).2.length }

/-- The event of a packet in `fn_NetSim_DSR_TransmitPacketFromSendBuffer`. -/
def networkOut (device : Device) (dTime : ℚ) (packet : WaitingPacket ι) : NetworkOut ι where
  dEventTime := dTime
  dPacketSize := packet.dPacketSize
  nApplicationId := (packet.pstruAppData.map Prod.fst).getD 0
  nSegmentId := (packet.pstruAppData.map Prod.snd).getD 0
  device := device
  nInterfaceId := 1
  nPacketId := packet.nPacketId
  pPacket := packet

/-- `fn_NetSim_DSR_TransmitPacketFromSendBuffer`: the entry without its packets, and their events. -/
def transmitPacketFromSendBuffer (device : Device) (dTime : ℚ) (sendBuffer : SendBuffer ι) : SendBuffer ι × List (NetworkOut ι) :=
  ({ sendBuffer with packet := [] }, sendBuffer.packet.map (networkOut device dTime))

/-- The loop over the route cache of `fn_NetSim_DSR_CheckSendBuffer`. -/
structure CacheScan (ι : Type*) where
  sendBuffer : SendBuffer ι
  events : List (NetworkOut ι)
  ntxflag : Bool
  routeCache : List (RouteCache ι)

/-- From a cursor on, for an entry and the flag. -/
def scanRouteCache (device : Device) (dTime : ℚ) : List (RouteCache ι) → SendBuffer ι → Bool → CacheScan ι
  | [], sendBuffer, ntxflag => ⟨sendBuffer, [], ntxflag, []⟩
  | cache :: routeCache, sendBuffer, ntxflag =>
    if checkIpInIpList cache.address sendBuffer.target then
      let t := transmitPacketFromSendBuffer device dTime sendBuffer
      let r := scanRouteCache device dTime routeCache t.1 true
      { r with events := t.2 ++ r.events }
    else scanRouteCache device dTime routeCache sendBuffer ntxflag

/-- What `fn_NetSim_DSR_CheckSendBuffer` changes: the entries that it has passed, the packets freed and the events. -/
structure BufferScan (ι : Type*) where
  passed : List (SendBuffer ι)
  freed : List (WaitingPacket ι)
  events : List (NetworkOut ι)

/-- The outer loop of `fn_NetSim_DSR_CheckSendBuffer`, from an entry and a cursor on. The entry that a call of
`fn_NetSim_DSR_EmptySendBuffer` removes is one of those up to the current one. -/
def scanSendBuffer (device : Device) (dTime : ℚ) : List (SendBuffer ι) → List (RouteCache ι) → BufferScan ι → BufferScan ι
  | [], _, r => r
  | sendBuffer :: rest, routeCache, r =>
    let c := scanRouteCache device dTime routeCache sendBuffer false
    let upToHere := r.passed ++ [c.sendBuffer]
    if c.ntxflag then
      let e := emptyEntries sendBuffer.target upToHere
      scanSendBuffer device dTime rest c.routeCache ⟨e.1, r.freed ++ e.2, r.events ++ c.events⟩
    else scanSendBuffer device dTime rest c.routeCache ⟨upToHere, r.freed, r.events ++ c.events⟩

/-- `fn_NetSim_DSR_CheckSendBuffer`: the node, and the events in the order in which they are added. -/
def checkSendBuffer (n : SendNode ι) (routeCache : List (RouteCache ι)) (dTime : ℚ) : SendNode ι × List (NetworkOut ι) :=
  let r := scanSendBuffer n.device dTime n.pstruSendBuffer routeCache ⟨[], [], []⟩
  ({ n with pstruSendBuffer := r.passed, packetDropped := n.packetDropped + r.freed.length }, r.events)

/-- How a packet leaves the send buffer. -/
inductive Departure (ι : Type*)
  | scheduled (event : NetworkOut ι)
  | dropped (packet : WaitingPacket ι)
deriving DecidableEq

def Departure.packet : Departure ι → WaitingPacket ι
  | .scheduled event => event.pPacket
  | .dropped packet => packet

/-- A run of a node, with the packets that have been added to the send buffer, and those that have left it, in order. -/
inductive BufferRun : List (WaitingPacket ι) → List (Departure ι) → SendNode ι → Prop
  | start (device : Device) : BufferRun [] [] ⟨device, [], 0⟩
  | add {arrived : List (WaitingPacket ι)} {left : List (Departure ι)} {n : SendNode ι} (packet : WaitingPacket ι) (dTime : ℚ)
      (h : BufferRun arrived left n) : BufferRun (arrived ++ [packet]) left (addToSendBuffer n packet dTime).2
  | empty {arrived : List (WaitingPacket ι)} {left : List (Departure ι)} {n : SendNode ι} (targetAddress : ι)
      (h : BufferRun arrived left n) :
      BufferRun arrived (left ++ (emptyEntries targetAddress n.pstruSendBuffer).2.map .dropped)
        (emptySendBuffer n targetAddress)
  | check {arrived : List (WaitingPacket ι)} {left : List (Departure ι)} {n : SendNode ι} (routeCache : List (RouteCache ι))
      (dTime : ℚ) (h : BufferRun arrived left n) :
      BufferRun arrived (left ++ (checkSendBuffer n routeCache dTime).2.map .scheduled)
        (checkSendBuffer n routeCache dTime).1

end NetSim.Dsr
