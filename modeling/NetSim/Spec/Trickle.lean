import NetSim.Lib.Machine
import Mathlib.Algebra.GroupWithZero.Nat
import Mathlib.Algebra.Order.Ring.Rat

/-!
# The trickle timer of a node

`Trickle.c`. The interval is a whole number of microseconds, `dio_interval_min` and `dio_interval_doublings` being
exponents. The event list of the kernel gives each event a number of its own. What a node is (`rpl_node_is_root` and its
siblings are not in the sources) is an argument, and the messages that are sent are left out.
-/

namespace NetSim.Trickle

/-- The trickle parameters of a root or of a DODAG. -/
structure DioConfig where
  dioIntervalMin : UInt8
  dioIntervalDoublings : UInt8
  dioRedundancyConstant : UInt8
deriving DecidableEq, Repr

/-- What a node is, with the parameters it reads as such. -/
inductive Role
  | root (rootInfo : DioConfig)
  | joined (joinedDodag : DioConfig)
  | poisoning (joinedDodag : DioConfig)
  | isolated
deriving DecidableEq, Repr

/-- The trickle fields of `RPL_NODE`. -/
structure TrickleVar where
  imin : ℕ
  imax : UInt32
  k : UInt32
  t : ℕ
  i : ℕ
  c : UInt8
  trickleIEventid : ℕ
  trickleTEventid : ℕ
deriving DecidableEq, Repr

/-- The two timers. -/
inductive SubEvent
  | trickleTTimeout
  | trickleITimeout
deriving DecidableEq, Repr

/-- An event in the list of the kernel. -/
structure PendingEvent where
  eventId : ℕ
  eventTime : ℚ
  subEvent : SubEvent
deriving DecidableEq, Repr

/-- A node with its events in the list of the kernel and the number of the next event. -/
structure Node where
  trickle : TrickleVar
  poisonCountSoFar : UInt8
  events : List PendingEvent
  nextEventId : ℕ
deriving DecidableEq, Repr

/-- `fnpAddEvent`. -/
def fnpAddEvent (time : ℚ) (subEvent : SubEvent) (r : Node) : Node :=
  { r with events := ⟨r.nextEventId, time, subEvent⟩ :: r.events, nextEventId := r.nextEventId + 1 }

/-- `fnDeleteEvent`: an event that is not in the list any more is none of its business. -/
def fnDeleteEvent (eventId : ℕ) (r : Node) : Node :=
  { r with events := r.events.filter fun e => e.eventId ≠ eventId }

/-- `set_trickle_t_time`. The half of the interval is cast to `UINT`; a cast of zero is a division by zero. -/
def setTrickleTTime (rand : UInt32) (trickle : TrickleVar) : Option TrickleVar :=
  let half := UInt32.ofNat (trickle.i / 2)
  if half = 0 then none else some { trickle with t := (rand % half).toNat + trickle.i / 2 }

/-- Both routines end with the two events. -/
def scheduleTrickle (now : ℚ) (r : Node) : Node :=
  let tEventId := r.nextEventId
  let r := fnpAddEvent (now + r.trickle.t) .trickleTTimeout r
  let iEventId := r.nextEventId
  let r := fnpAddEvent (now + r.trickle.i) .trickleITimeout r
  { r with trickle := { r.trickle with trickleTEventid := tEventId, trickleIEventid := iEventId } }

/-- What `rpl_trickle_reset` reads of the parameters. -/
def loadConfig (config : DioConfig) (trickle : TrickleVar) : TrickleVar :=
  { trickle with
    imin := 2 ^ config.dioIntervalMin.toNat * 1000
    imax := config.dioIntervalDoublings.toUInt32
    k := config.dioRedundancyConstant.toUInt32
    i := 2 ^ config.dioIntervalMin.toNat * 1000 }

/-- `rpl_trickle_reset`. -/
def rplTrickleReset (role : Role) (rand : UInt32) (now : ℚ) (r : Node) : Option Node :=
  match role with
  | .isolated => some r
  | .root config | .joined config | .poisoning config =>
    (setTrickleTTime rand (loadConfig config r.trickle)).map fun trickle =>
      scheduleTrickle now
        (fnDeleteEvent r.trickle.trickleTEventid (fnDeleteEvent r.trickle.trickleIEventid { r with trickle := trickle }))

/-- The counter and the interval are counted up. -/
def doubleInterval (trickle : TrickleVar) : TrickleVar :=
  if trickle.c.toUInt32 < trickle.imax then { trickle with c := trickle.c + 1, i := trickle.i * 2 } else trickle

/-- `RPL_DEFAULT_POISON_COUNT`. -/
def rplDefaultPoisonCount : UInt8 := 4

/-- `rpl_trickle_handle_i_timeout`. A node that has poisoned enough looks for another DODAG, and one that is isolated
should not have a timer: neither goes on here. -/
def rplTrickleHandleITimeout (role : Role) (rand : UInt32) (now : ℚ) (r : Node) : Option Node :=
  match role with
  | .root _ | .joined _ =>
    (setTrickleTTime rand (doubleInterval r.trickle)).map fun trickle => scheduleTrickle now { r with trickle := trickle }
  | .poisoning _ =>
    if r.poisonCountSoFar < rplDefaultPoisonCount then
      (setTrickleTTime rand r.trickle).map fun trickle =>
        scheduleTrickle now { r with trickle := trickle, poisonCountSoFar := r.poisonCountSoFar + 1 }
    else none
  | .isolated => none

/-! ## Runs -/

/-- What happens to a node: nothing for a while, a reset, or the event that is due first. -/
inductive Event
  | wait (time : ℚ)
  | reset (role : Role) (rand : UInt32)
  | timeout (event : PendingEvent) (role : Role) (rand : UInt32)
deriving DecidableEq, Repr

/-- A node in its run: the current time, the parameters of the latest reset and the expiries of the interval since,
and whether the latest event was a reset or an expiry. -/
structure Run where
  now : ℚ
  node : Node
  latest : Option (DioConfig × ℕ)
  isSet : Bool
deriving DecidableEq, Repr

/-- The parameters of a node that is root or joined. -/
def Role.config : Role → Option DioConfig
  | .root config | .joined config => some config
  | _ => none

/-- A node starts without a timer, and stays root or joined. Time passes no event, and the kernel takes the
earliest. -/
def machine : Machine Run Event where
  init run := run = ⟨0, ⟨⟨0, 0, 0, 0, 0, 0, 0, 0⟩, 0, [], 1⟩, none, false⟩
  step run
    | .wait time =>
      if run.now ≤ time ∧ ∀ event ∈ run.node.events, time ≤ event.eventTime then some { run with now := time }
      else none
    | .reset role rand =>
      match role.config with
      | none => none
      | some config =>
        (rplTrickleReset role rand run.now run.node).map fun r =>
          { run with node := r, latest := some (config, 0), isSet := true }
    | .timeout event role rand =>
      if event ∈ run.node.events ∧ ∀ other ∈ run.node.events, event.eventTime ≤ other.eventTime then
        let run := { run with
          now := event.eventTime, node := { run.node with events := run.node.events.erase event } }
        match event.subEvent with
        | .trickleTTimeout => some { run with isSet := false }
        | .trickleITimeout =>
          match role.config with
          | none => none
          | some _ =>
            (rplTrickleHandleITimeout role rand run.now run.node).map fun r =>
              { run with node := r, latest := run.latest.map fun l => (l.1, l.2 + 1), isSet := true }
      else none

end NetSim.Trickle
