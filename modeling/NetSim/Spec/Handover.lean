import Mathlib.Algebra.Order.Ring.Rat
import Mathlib.Data.List.Basic
import Mathlib.Data.Rat.Defs
import Mathlib.Logic.Function.Basic
import NetSim.Lib.Decimal

/-!
# Completed handovers and the two ping-pong detectors

`sendPingpongEvent` is called when the context release of a successful handover is
acknowledged (`handoverUeContextReleaseAckRecv`); `checkPingPong` is the detector
of the Python interface. Both remember one cell and one time per UE, in static
arrays that start at zero. Device ids are unsigned, event times are in
microseconds and are taken exactly.
-/

namespace NetSim

/-- `SECOND`, in the simulator's time unit (microseconds). -/
def second : ℚ := 1000000

/-- The fields of `LTENR_HANDOVER_Hdr` that the detectors read. -/
structure HandoverHdr where
  ueId : ℕ
  serveringCellId : ℕ
  targetCellId : ℕ
deriving DecidableEq, Repr

/-- The outcome carried by the context release command. -/
inductive HandoverOutcome
  | sucessful
  | unsucessful
  | unavailable
  | ueLost
deriving DecidableEq, Repr

/-- The static arrays `lastServingCell` and `lastHOTime`. -/
structure PingPongTable where
  lastServingCell : ℕ → ℕ
  lastHOTime : ℕ → ℚ

namespace PingPongTable

/-- Static storage is zero at the start. -/
def empty : PingPongTable := ⟨fun _ => 0, fun _ => 0⟩

def set (t : PingPongTable) (ue cell : ℕ) (now : ℚ) : PingPongTable :=
  ⟨Function.update t.lastServingCell ue cell, Function.update t.lastHOTime ue now⟩

@[simp] theorem set_lastServingCell_self (t : PingPongTable) (ue cell : ℕ) (now : ℚ) :
    (t.set ue cell now).lastServingCell ue = cell := by simp [set]

@[simp] theorem set_lastServingCell_of_ne (t : PingPongTable) {ue ue' : ℕ} (cell : ℕ) (now : ℚ)
    (h : ue' ≠ ue) : (t.set ue cell now).lastServingCell ue' = t.lastServingCell ue' := by
  simp [set, h]

end PingPongTable

/-! ## The detector of the handover module -/

/-- `PINGPONG,UE,%d,FROM,%d,TO,%d,DT,%lf`. -/
structure PingpongEvent where
  ue : ℕ
  fromCell : ℕ
  toCell : ℕ
  dt : ℚ
deriving DecidableEq

/-- `MAX_UE` of the handover module. -/
def maxUeHandover : ℕ := 1024

/-- `send_pingpong_event`: the new table and the lines written to the socket. The
arrays are indexed without a bounds check: a UE id past their end has no defined
result. -/
def sendPingpongEvent (t : PingPongTable) (hdr : HandoverHdr) (now : ℚ) :
    Option (PingPongTable × List PingpongEvent) :=
  let ue := hdr.ueId
  if maxUeHandover ≤ ue then none
  else
    let prev := t.lastServingCell ue
    let curr := hdr.targetCellId
    if prev = 0 then some (t.set ue curr now, [])
    else if prev = curr ∧ now - t.lastHOTime ue < 2 then
      some (t.set ue curr now,
        [⟨ue, hdr.serveringCellId, hdr.targetCellId, now - t.lastHOTime ue⟩])
    else some (t.set ue curr now, [])

/-- `LTENR_HANDOVER_UE_CONTEXT_RELEASE_ACK_RECV`. -/
def handoverUeContextReleaseAckRecv (t : PingPongTable) (outcome : HandoverOutcome)
    (hdr : HandoverHdr) (now : ℚ) : Option (PingPongTable × List PingpongEvent) :=
  if outcome ≠ .sucessful then some (t, []) else sendPingpongEvent t hdr now

/-! ## The detector of the Python interface -/

/-- `PINGPONG,TIME,%.3f,UE,%d,FROM,%d,TO,%d,DT,%.3f,TOTAL_HO,%d,TOTAL_PP,%d`. -/
structure PingpongText where
  simTime : ℚ
  ue : ℕ
  fromCell : ℕ
  toCell : ℕ
  dt : ℚ
  totalHo : ℕ
  totalPp : ℕ
deriving DecidableEq

/-- `MAX_UE` of the Python interface. -/
def maxUeListener : ℕ := 2048

/-- `PINGPONG_WINDOW`. -/
def pingpongWindow : ℚ := 2

structure PingPongTracker where
  table : PingPongTable
  totalHOCount : ℕ
  pingPongCount : ℕ

/-- `init_pingpong_tracker`. -/
def PingPongTracker.init : PingPongTracker := ⟨.empty, 0, 0⟩

/-- `send_pingpong_text`: nothing is written without a connected socket. -/
def sendPingpongText (connected : Bool) (s : PingPongTracker) (ue fromCell toCell : ℕ)
    (dt simTime : ℚ) : List PingpongText :=
  if connected then [⟨simTime, ue, fromCell, toCell, dt, s.totalHOCount, s.pingPongCount⟩] else []

/-- `LTENR_Check_PingPong`, called with the header of a completed handover. -/
def checkPingPong (connected : Bool) (s : PingPongTracker) (hdr : HandoverHdr) (now : ℚ) :
    PingPongTracker × List PingpongText :=
  let ue := hdr.ueId
  let fromCell := hdr.serveringCellId
  let toCell := hdr.targetCellId
  if ue = 0 ∨ maxUeListener ≤ ue then (s, [])
  else
    let s := { s with totalHOCount := s.totalHOCount + 1 }
    if s.table.lastServingCell ue = 0 then ({ s with table := s.table.set ue toCell now }, [])
    else
      let dt := now - s.table.lastHOTime ue
      if s.table.lastServingCell ue = toCell ∧ dt ≤ pingpongWindow then
        let s := { s with pingPongCount := s.pingPongCount + 1 }
        ({ s with table := s.table.set ue toCell now },
          sendPingpongText connected s ue fromCell toCell dt now)
      else ({ s with table := s.table.set ue toCell now }, [])

end NetSim

/-!
## The texts of the events

What the simulator writes for the listener: `py_send_handover_event` of `LTENR_GNBRRC.c` and the text of
`send_pingpong_event` of `LTENR_HANDOVER.c`. Numbers are exact.
-/

namespace NetSim

open PyText

/-- `MILLISECOND`. -/
def millisecond : ℚ := 1000

/-- The format of `py_send_handover_event`. -/
def handoverText (ue serving target : Str) (timeMs servingsnr targetsnr : ℚ) (remark : Str) : Str :=
  "HANDOVER,UE,".toList ++ ue ++ ",SERVING,".toList ++ serving ++ ",TARGET,".toList ++ target ++
    ",TIME,".toList ++ fixed 2 timeMs ++ ",SERVING_SINR,".toList ++ fixed 2 servingsnr ++
    ",TARGET_SINR,".toList ++ fixed 2 targetsnr ++ ",REMARK,".toList ++ remark ++ "\n".toList

/-- The bytes of a text. -/
def utf8Length (s : Str) : ℕ := (s.map Char.utf8Size).sum

/-- `py_send_handover_event`: what is sent. The length is the one that `snprintf` returns, so a text that
does not fit in the buffer is sent with what is behind the buffer: it has no defined result. -/
def pySendHandoverEvent (connected : Bool) (deviceName : ℕ → Str) (ldEventTime : ℚ) (ueID : ℕ)
    (servingsnr targetsnr : ℚ) (servinggnb targetgnb : ℕ) (remark : Option Str) : Option (List Str) :=
  if connected = false then some []
  else
    let text := handoverText (deviceName ueID) (deviceName servinggnb) (deviceName targetgnb)
      (ldEventTime / millisecond) servingsnr targetsnr (remark.getD [])
    if utf8Length text < 512 then some [text] else none

/-- An unsigned number as `%d` reads it. -/
def asInt (n : ℕ) : ℤ := (BitVec.ofNat 32 n).toInt

/-- The text of `send_pingpong_event`. -/
def PingpongEvent.text (e : PingpongEvent) : Str :=
  "PINGPONG,UE,".toList ++ decimal (asInt e.ue) ++ ",FROM,".toList ++ decimal (asInt e.fromCell) ++
    ",TO,".toList ++ decimal (asInt e.toCell) ++ ",DT,".toList ++ fixed 6 e.dt ++ "\n".toList

end NetSim
