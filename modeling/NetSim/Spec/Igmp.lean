import NetSim.Lib.FirstMatch
import NetSim.Lib.Machine
import Mathlib.Algebra.Order.Ring.Rat
import Mathlib.Algebra.Field.Rat
import Mathlib.Tactic.NormNum

/-!
# The IGMP router

The router side of `IGMP_Router.c`, `IGMP_Msg.c` and the timers of `IGMP.c`. Times are in microseconds. An
address is the first word of a `NETSIM_IPAddress`, and a membership query or report is its group. `none` stands
for a read through a `NULL` pointer. The packets that are sent, the multicast routes and PIM are left out: the
router never reads them back.
-/

namespace NetSim.Igmp

/-- `IGMP_ROUTER_STATE`. -/
inductive RouterState
  | querier
  | nonQuerier
deriving DecidableEq, Repr

/-- `IGMP_ROUTER_DB`: what the router keeps for a group. -/
structure RouterDb where
  group : UInt32
  state : RouterState
  isOtherquerierTimerStarted : Bool
  otherQuerierPresentTime : ℚ
  sentCount : UInt32
  isGroupMembershipTimerStarted : Bool
  reportRcvTime : ℚ
deriving DecidableEq, Repr

/-- The configured fields of `IGMP_VAR`, all in tenths of a second but the first. -/
structure IgmpVar where
  robustnessVar : UInt32
  queryInterval : UInt32
  queryResponseInterval : UInt32

/-- The device a router runs on: whether an address is its own, its address in the subnet of an address, and
whether it has a broadcast interface. -/
structure Device where
  isIpForSameDevice : UInt32 → Bool
  getIpFromSameSubnet : UInt32 → Option UInt32
  isBroadcastInterfacePresent : Bool

/-- The timers of a router. -/
inductive SubEvent
  | sendStartupQuery
  | sendQuery
  | otherQuerierPresentTimer
  | groupMembershipTimer
deriving DecidableEq, Repr

/-- A timer event that waits in the event list. -/
structure TimerEvent where
  eventTime : ℚ
  subEvent : SubEvent
  group : UInt32
deriving DecidableEq, Repr

/-- A router and its timer events. -/
structure Router where
  database : List RouterDb
  events : List TimerEvent
deriving DecidableEq, Repr

def second : ℚ := 1000 * 1000

def millisecond : ℚ := 1000

namespace IgmpVar

variable (var : IgmpVar)

/-- Set in `igmp_router_init`. -/
def startupQueryInterval : UInt32 := var.queryInterval / 4

/-- Set in `igmp_init`. -/
def groupMembershipInterval : UInt32 := var.robustnessVar * var.queryInterval + var.queryResponseInterval

/-- Set in `igmp_init`. -/
def queryPresentInterval : UInt32 := var.robustnessVar * var.queryInterval + var.queryResponseInterval / 2

end IgmpVar

/-- An interval that is kept in tenths of a second. -/
def tenths (interval : UInt32) : ℚ := interval.toNat * (1 / 10) * second

/-- `get_subevent_delay`. -/
def getSubeventDelay (var : IgmpVar) : SubEvent → ℚ
  | .sendStartupQuery => tenths var.startupQueryInterval
  | .sendQuery => tenths var.queryInterval
  | .otherQuerierPresentTimer => tenths var.queryPresentInterval
  | .groupMembershipTimer => tenths var.groupMembershipInterval

/-- `igmp_start_timer`. -/
def igmpStartTimer (var : IgmpVar) (sev : SubEvent) (addr : UInt32) (time : ℚ) (r : Router) : Router :=
  { r with events := ⟨time + getSubeventDelay var sev, sev, addr⟩ :: r.events }

/-- `router_get_multicast_db`. -/
def routerGetMulticastDb (database : List RouterDb) (ip : UInt32) : Option RouterDb :=
  database.find? fun db => db.group = ip

/-- The entry of a group is written. -/
def setDb (db : RouterDb) (r : Router) : Router :=
  { r with database := FirstMatch.replaceFirst (fun old => old.group = db.group) db r.database }

/-- `send_query_msg`. -/
def sendQueryMsg (var : IgmpVar) (group : UInt32) (time : ℚ) (r : Router) : Option Router :=
  match routerGetMulticastDb r.database group with
  | none => none
  | some db =>
    let isStartup := !decide (db.sentCount ≥ var.robustnessVar)
    if db.state = .nonQuerier then some r
    else
      some (igmpStartTimer var (if isStartup then .sendStartupQuery else .sendQuery) group time
        (setDb { db with sentCount := db.sentCount + 1 } r))

/-- An entry as `IGMP_ROUTER_DB_ALLOC` and `find_or_alloc_multicast_db_router` leave it. -/
def allocRouterDb (group : UInt32) : RouterDb where
  group := group
  state := .querier
  isOtherquerierTimerStarted := false
  otherQuerierPresentTime := 0
  sentCount := 0
  isGroupMembershipTimerStarted := false
  reportRcvTime := 0

/-- `find_or_alloc_multicast_db_router`, which `router_join_multicast_group` calls. -/
def findOrAllocMulticastDbRouter (addr : UInt32) (r : Router) : RouterDb × Router :=
  match routerGetMulticastDb r.database addr with
  | some db => (db, r)
  | none => (allocRouterDb addr, { r with database := r.database ++ [allocRouterDb addr] })

/-- 224.0.0.1. -/
def allSystems : UInt32 := 0xE0000001

/-- `igmp_router_init`. -/
def igmpRouterInit (var : IgmpVar) (device : Device) : Option Router :=
  if device.isBroadcastInterfacePresent then
    sendQueryMsg var allSystems (1 * millisecond) (findOrAllocMulticastDbRouter allSystems ⟨[], []⟩).2
  else some ⟨[], []⟩

/-- `router_process_query`. -/
def routerProcessQuery (var : IgmpVar) (device : Device) (src groupAddress : UInt32) (eventTime : ℚ) (r : Router) :
    Option Router :=
  if device.isIpForSameDevice src then some r
  else
    match device.getIpFromSameSubnet src with
    | none => none
    | some same =>
      if same > src then
        match routerGetMulticastDb r.database groupAddress with
        | none => none
        | some db =>
          let r := setDb
            { db with state := .nonQuerier, otherQuerierPresentTime := eventTime, isOtherquerierTimerStarted := true } r
          some (if db.isOtherquerierTimerStarted then r
            else igmpStartTimer var .otherQuerierPresentTimer groupAddress eventTime r)
      else some r

/-- `igmp_router_processOtherQuerierPresentTime`. The time of a timer that is kept adds the interval as it is. -/
def processOtherQuerierPresentTime (var : IgmpVar) (event : TimerEvent) (r : Router) : Option Router :=
  match routerGetMulticastDb r.database event.group with
  | none => none
  | some db =>
    if event.eventTime ≥ db.otherQuerierPresentTime + var.queryPresentInterval.toNat * (1 / 10) * second then
      sendQueryMsg var db.group event.eventTime (setDb { db with state := .querier } r)
    else
      some { r with
        events := { event with eventTime := db.otherQuerierPresentTime + var.queryPresentInterval.toNat } :: r.events }

/-- `router_process_report`. -/
def routerProcessReport (var : IgmpVar) (groupAddress : UInt32) (eventTime : ℚ) (r : Router) : Option Router :=
  let joined := findOrAllocMulticastDbRouter groupAddress r
  if joined.1.isGroupMembershipTimerStarted then some (setDb { joined.1 with reportRcvTime := eventTime } joined.2)
  else
    sendQueryMsg var groupAddress eventTime
      (igmpStartTimer var .groupMembershipTimer groupAddress eventTime
        (setDb { joined.1 with reportRcvTime := eventTime, isGroupMembershipTimerStarted := true } joined.2))

/-- `igmp_router_ProcessGroupMembershipTimer`. -/
def processGroupMembershipTimer (var : IgmpVar) (event : TimerEvent) (r : Router) : Option Router :=
  match routerGetMulticastDb r.database event.group with
  | none => none
  | some db =>
    if event.eventTime ≥ db.reportRcvTime + var.groupMembershipInterval.toNat * (1 / 10) * second then
      some { r with database := r.database.eraseP fun db => db.group = event.group }
    else
      some { r with
        events := { event with
          eventTime := db.reportRcvTime + var.groupMembershipInterval.toNat * (1 / 10) * second } :: r.events }

/-- The timer events of a router in `IP.c`. -/
def handleTimer (var : IgmpVar) (event : TimerEvent) (r : Router) : Option Router :=
  match event.subEvent with
  | .sendStartupQuery | .sendQuery => sendQueryMsg var event.group event.eventTime r
  | .otherQuerierPresentTimer => processOtherQuerierPresentTime var event r
  | .groupMembershipTimer => processGroupMembershipTimer var event r

/-! ## Runs -/

/-- What happens to a router: nothing for a while, a query or a report at the current time, or the timer event
that is due first. -/
inductive Event
  | wait (time : ℚ)
  | query (src groupAddress : UInt32)
  | report (groupAddress : UInt32)
  | timer (event : TimerEvent)
deriving DecidableEq, Repr

/-- A router in its run: the current event time, and the queries from lower addresses so far, each its group and
its time, the latest first. -/
structure Run where
  now : ℚ
  router : Router
  heard : List (UInt32 × ℚ)
deriving DecidableEq, Repr

/-- A query comes from another router, whose address is lower than this router's on their subnet. -/
def Device.isLower (device : Device) (src : UInt32) : Bool :=
  !device.isIpForSameDevice src && (device.getIpFromSameSubnet src).any fun same => same > src

/-- A run starts with `igmp_router_init`. Time passes no timer event, and the kernel takes the earliest. -/
def machine (var : IgmpVar) (device : Device) : Machine Run Event where
  init run := run.now = 0 ∧ igmpRouterInit var device = some run.router ∧ run.heard = []
  step run
    | .wait time =>
      if run.now ≤ time ∧ ∀ event ∈ run.router.events, time ≤ event.eventTime then some { run with now := time }
      else none
    | .query src groupAddress =>
      (routerProcessQuery var device src groupAddress run.now run.router).map fun r =>
        { run with
          router := r
          heard := if device.isLower src then (groupAddress, run.now) :: run.heard else run.heard }
    | .report groupAddress =>
      (routerProcessReport var groupAddress run.now run.router).map fun r => { run with router := r }
    | .timer event =>
      if event ∈ run.router.events ∧ ∀ other ∈ run.router.events, event.eventTime ≤ other.eventTime then
        (handleTimer var event { run.router with events := run.router.events.erase event }).map fun r =>
          { run with now := event.eventTime, router := r }
      else none

/-- The time of the most recent query for a group from a lower address. -/
def lastHeard (heard : List (UInt32 × ℚ)) (group : UInt32) : Option ℚ :=
  (heard.find? fun h => h.1 = group).map Prod.snd

end NetSim.Igmp
