import Mathlib.Algebra.Order.Ring.Rat
import Mathlib.Data.Rat.Defs
import NetSim.Lib.PyText

/-!
# The Python listener

`handover_pingpong_listener.py`: `parse_line`, the reading loop of `tcp_client_once`, and the part of
`Collector.push` that changes the event.
-/

namespace NetSim.Listener

open PyText

/-- The `type` of an event. -/
inductive EventType
  | handover
  | pingPong
deriving DecidableEq, Repr

/-- An event; a handover has no `dt`. -/
structure Event where
  type : EventType
  timeMs : Option PyFloat
  ue : Option Str
  serving : Option Str
  target : Option Str
  dt : Option PyFloat
  remark : Str
deriving DecidableEq, Repr

/-- The event that the fields are put into. -/
def Event.new (type : EventType) : Event := ⟨type, none, none, none, none, none, []⟩

/-! ## `parse_line` -/

/-- The keys of a handover that take the next part as their value. -/
def setHandoverField (d : Event) (key val : Str) : Option Event :=
  if key = "UE".toList then some { d with ue := some val }
  else if key = "SERVING".toList then some { d with serving := some val }
  else if key = "TARGET".toList then some { d with target := some val }
  else if key = "TIME".toList then some { d with timeMs := parseFloat val }
  else none

/-- The loop over the parts of a handover. -/
def handoverFields (d : Event) : List Str → Event
  | [] => d
  | [part] =>
    if upper part = "REMARK".toList then { d with remark := join ',' [] }
    else (setHandoverField d (upper part) []).getD d
  | part :: val :: rest =>
    if upper part = "REMARK".toList then { d with remark := join ',' (val :: rest) }
    else
      match setHandoverField d (upper part) val with
      | some d => handoverFields d rest
      | none => handoverFields d (val :: rest)

/-- The time of a ping-pong: small numbers are seconds. -/
def pingPongTime (val : Str) : Option PyFloat :=
  (parseFloat val).map fun t => if t.lt 1000000 then t.mul 1000 else t

/-- The keys of a ping-pong that take the next part as their value. -/
def setPingPongField (d : Event) (key val : Str) : Option Event :=
  if key = "TIME".toList then some { d with timeMs := pingPongTime val }
  else if key = "UE".toList then some { d with ue := some val }
  else if key = "FROM".toList ∨ key = "FROM_CELL".toList ∨ key = "FROMCELL".toList then
    some { d with serving := some val }
  else if key = "TO".toList ∨ key = "TO_CELL".toList ∨ key = "TOCELL".toList then
    some { d with target := some val }
  else if key = "DT".toList then some { d with dt := parseFloat val }
  else if key = "TOTAL_HO".toList ∨ key = "TOTAL_PP".toList then some d
  else none

/-- The loop over the parts of a ping-pong. -/
def pingPongFields (d : Event) : List Str → Event
  | [] => d
  | [part] => (setPingPongField d (upper part) []).getD d
  | part :: val :: rest =>
    match setPingPongField d (upper part) val with
    | some d => pingPongFields d rest
    | none => pingPongFields d (val :: rest)

/-- A row without a key. A text that is not a number raises an exception. -/
def parseRow (row : List Str) : Option Event := do
  if row.length < 4 then none
  let time := row.getD 0 []
  let timeMs ← if time = [] then some none else (parseFloat time).map some
  return ⟨.handover, timeMs, row[1]?, row[2]?, row[3]?, none, row.getD 6 []⟩

/-- `parse_line`; an exception gives no event. -/
def parseLine (line : Str) : Option Event :=
  let s := strip line
  if s = [] then none
  else
    match (split ',' s).map strip with
    | [] => none
    | part :: parts =>
      if "HANDOVER".toList.isPrefixOf (upper part) then some (handoverFields (.new .handover) parts)
      else if "PINGPONG".toList.isPrefixOf (upper part) then
        some (pingPongFields (.new .pingPong) parts)
      else (csvRow s).bind parseRow

/-! ## `tcp_client_once` -/

/-- What `push` makes of an event: a UE that is missing or empty gets a name. -/
def fillUe (ev : Event) : Event :=
  if ev.ue.getD [] = [] then { ev with ue := some "<unknown>".toList } else ev

/-- The lines that `parse_line` gets, for what `recv` returns. Each chunk is decoded and split on its own;
`buf` is not used. The connection is closed when nothing is returned. -/
def rawLines : List (List UInt8) → List Str
  | [] => []
  | data :: more =>
    if data = [] then [] else splitlines (Utf8.decode data) ++ rawLines more

/-- The events that are pushed. -/
def tcpClientOnce (chunks : List (List UInt8)) : List Event :=
  ((rawLines chunks).filterMap parseLine).map fillUe

end NetSim.Listener

/-!
## The collector of the Python listener

`Collector.push` hands the event to the writer thread and watches for ping-pongs that follow each other within three
seconds. What `time.time()` returns is a parameter of each call.
-/

namespace NetSim.Listener

/-- `Collector`; what its queue still holds, and the times of the recent ping-pongs, the oldest first. -/
structure Collector where
  q : List Event
  ppTimes : List ℚ
  ppAlerted : Bool

def Collector.init : Collector := ⟨[], [], false⟩

namespace Collector

/-- The detection of bursts, and whether `Pingpong detected` is printed. -/
def detect (c : Collector) (now : ℚ) : Collector × Bool :=
  let ppTimes := (c.ppTimes ++ [now]).dropWhile fun t => t < now - 3
  let alert := 2 ≤ ppTimes.length ∧ c.ppAlerted = false
  let ppAlerted := if alert then true else c.ppAlerted
  ({ c with ppTimes, ppAlerted := if ppTimes.length < 2 ∧ ppAlerted = true then false else ppAlerted }, alert)

/-- `push`, at the time `now`, of an event or of nothing. -/
def push (c : Collector) (now : ℚ) : Option Event → Collector × Bool
  | none => (c, false)
  | some ev =>
    let c := { c with q := c.q ++ [fillUe ev] }
    if ev.type = .pingPong then c.detect now else (c, false)

end Collector

end NetSim.Listener
