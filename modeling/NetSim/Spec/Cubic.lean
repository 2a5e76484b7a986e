import NetSim.Lib.Word
import Mathlib.Data.Nat.Digits.Defs
import Mathlib.Data.UInt

/-!
# CUBIC

`CUBIC.c`: the window function and its cube root. The window is counted in segments. Hybrid slow start and
fast recovery are left out. `none` stands for a read outside the table and for a division by zero.
-/

namespace NetSim.Tcp.Cubic

/-! ## The cube root -/

/-- `_i64toa` with radix 2. -/
def i64toa (n : UInt64) : List Char :=
  if n = 0 then ['0'] else (Nat.digits 2 n.toNat).reverse.map fun d => if d = 1 then '1' else '0'

/-- `count_bit`. -/
def countBit (n : UInt64) : UInt32 :=
  match (i64toa n).findIdx? fun c => c == '1' with
  | some i => UInt32.ofNat i
  | none => 0

/-- The table of `cubic_root`. -/
def v : List UInt8 :=
  [0, 54, 54, 54, 118, 118, 118, 118,
    123, 129, 134, 138, 143, 147, 151, 156,
    157, 161, 164, 168, 170, 173, 176, 179,
    181, 185, 187, 190, 192, 194, 197, 199,
    200, 202, 204, 206, 209, 211, 213, 215,
    217, 219, 221, 222, 224, 225, 227, 229,
    231, 232, 234, 236, 237, 239, 240, 242,
    244, 245, 246, 248, 250, 251, 252, 254]

/-- An entry of the table. -/
def entryOf (i : UInt32) : Option UInt32 := v[i.toNat]?.map UInt8.toUInt32

/-- `cubic_root`. -/
def cubicRoot (a : UInt64) : Option UInt32 :=
  let b := countBit a
  if b < 7 then (entryOf a.toUInt32).map fun entry : UInt32 => (entry + 35) >>> 6
  else do
    let b := ((b * 84) >>> 8) - 1
    let shift := (a >>> (b * 3).toUInt64).toUInt32
    let entry ← entryOf shift
    let x := ((entry + 10) <<< b) >>> 6
    let divisor := x.toUInt64 * (x - 1).toUInt64
    if divisor = 0 then none
    else
      let x := 2 * x + (a / divisor).toUInt32
      return (x * 341) >>> 10

/-! ## State -/

/-- `cube_rtt_scale`, `beta_scale` and `cube_factor`, which all sockets share. -/
structure Scales where
  cubeRttScale : UInt32
  betaScale : UInt32
  cubeFactor : UInt32
deriving DecidableEq, Repr

/-- The fields of `CUBIC` that the window function uses. -/
structure CubicVar where
  beta : ℤ
  cnt : UInt32
  lastMaxCwnd : UInt32
  lossCwnd : UInt32
  lastCwnd : UInt32
  lastTime : UInt32
  bicOriginPoint : UInt32
  bicK : UInt32
  delayMin : UInt32
  epochStart : UInt32
  ackCnt : UInt32
  tcpCwnd : UInt32
deriving DecidableEq, Repr

/-- `BICTCP_BETA_SCALE`. -/
def bictcpBetaScale : ℤ := 1024

/-- The end of `init_cubic`. -/
def initScales (beta : ℤ) (bicScale : UInt32) : Option Scales :=
  if bictcpBetaScale - beta = 0 ∨ bicScale * 10 = 0 then none
  else
    some
      { betaScale := UInt32.ofNat (Word.ofInt32
          (((8 * (bictcpBetaScale + beta)).tdiv 3).tdiv (bictcpBetaScale - beta)))
        cubeRttScale := bicScale * 10
        cubeFactor := ((1 : UInt64) <<< (10 + 3 * 10)).toUInt32 / (bicScale * 10) }

/-- `cubictcp_reset` for `cubictcp_init`. -/
def reset (beta : ℤ) : CubicVar where
  beta := beta
  cnt := 0
  lastMaxCwnd := 0
  lossCwnd := 0
  lastCwnd := 0
  lastTime := 0
  bicOriginPoint := 0
  bicK := 0
  delayMin := 0
  epochStart := 0
  ackCnt := 0
  tcpCwnd := 0

/-- `cubictcp_recalc_ssthresh`: the slow start threshold in segments. -/
def recalcSsthresh (segCwnd : UInt32) (ca : CubicVar) : CubicVar × UInt32 :=
  let beta := UInt32.ofNat (Word.ofInt32 ca.beta)
  let ca := { ca with epochStart := 0 }
  let ca :=
    if segCwnd < ca.lastMaxCwnd then { ca with lastMaxCwnd := segCwnd * (1024 + beta) / (2 * 1024) }
    else { ca with lastMaxCwnd := segCwnd }
  let ca := { ca with lossCwnd := segCwnd }
  (ca, max (segCwnd * beta / 1024) 2)

/-! ## The window function -/

/-- The start of an epoch in `cubictcp_update`. -/
def beginEpoch (g : Scales) (cwnd acked now : UInt32) (ca : CubicVar) : Option CubicVar :=
  if ca.epochStart = 0 then
    let ca := { ca with epochStart := now, ackCnt := acked, tcpCwnd := cwnd }
    if ca.lastMaxCwnd ≤ cwnd then some { ca with bicK := 0, bicOriginPoint := cwnd }
    else
      (cubicRoot (g.cubeFactor.toUInt64 * (ca.lastMaxCwnd - cwnd).toUInt64)).map fun bicK =>
        { ca with bicK := bicK, bicOriginPoint := ca.lastMaxCwnd }
  else some ca

/-- The time since the start of the epoch. -/
def epochTime (now : UInt32) (ca : CubicVar) : UInt64 :=
  (((now - ca.epochStart).toUInt64 + (ca.delayMin >>> 3).toUInt64) <<< 10) / 1024

/-- The distance of the window from the origin. -/
def windowDelta (g : Scales) (now : UInt32) (ca : CubicVar) : UInt32 :=
  let t := epochTime now ca
  let offs := if t < ca.bicK.toUInt64 then ca.bicK.toUInt64 - t else t - ca.bicK.toUInt64
  ((g.cubeRttScale.toUInt64 * offs * offs * offs) >>> (10 + 3 * 10)).toUInt32

/-- `bic_target`. -/
def bicTarget (g : Scales) (now : UInt32) (ca : CubicVar) : UInt32 :=
  if epochTime now ca < ca.bicK.toUInt64 then ca.bicOriginPoint - windowDelta g now ca
  else ca.bicOriginPoint + windowDelta g now ca

/-- `cnt`, from the target. -/
def targetCnt (cwnd bicTarget : UInt32) (ca : CubicVar) : UInt32 :=
  let cnt := if bicTarget > cwnd then cwnd / (bicTarget - cwnd) else 100 * cwnd
  if ca.lastMaxCwnd = 0 ∧ cnt > 20 then 20 else cnt

/-- The loop of TCP friendliness. -/
def friendlyLoop (delta : UInt32) (ca : CubicVar) : CubicVar :=
  if delta ≠ 0 ∧ ca.ackCnt > delta then
    friendlyLoop delta { ca with ackCnt := ca.ackCnt - delta, tcpCwnd := ca.tcpCwnd + 1 }
  else ca
termination_by ca.ackCnt.toNat
decreasing_by
  rename_i h
  have hlt : delta.toNat < ca.ackCnt.toNat := UInt32.lt_iff_toNat_lt.1 h.2
  have hpos : delta.toNat ≠ 0 := fun hzero => h.1 (UInt32.toNat_inj.1 hzero)
  have hsub : (ca.ackCnt - delta).toNat = ca.ackCnt.toNat - delta.toNat :=
    UInt32.toNat_sub_of_le _ _ (UInt32.le_iff_toNat_le.2 (Nat.le_of_lt hlt))
  omega

/-- The end of `cubictcp_update`. -/
def friendliness (g : Scales) (cwnd : UInt32) (ca : CubicVar) : CubicVar :=
  let ca := friendlyLoop ((cwnd * g.betaScale) >>> 3) ca
  let ca :=
    if ca.tcpCwnd > cwnd then
      let maxCnt := cwnd / (ca.tcpCwnd - cwnd)
      if ca.cnt > maxCnt then { ca with cnt := maxCnt } else ca
    else ca
  { ca with cnt := max ca.cnt 2 }

/-- `cubictcp_update`. -/
def update (g : Scales) (cwnd acked now : UInt32) (ca : CubicVar) : Option CubicVar :=
  let ca := { ca with ackCnt := ca.ackCnt + acked }
  if ca.lastCwnd = cwnd ∧ Word.int32 (now - ca.lastTime).toNat ≤ 1024 / 32 then some ca
  else if ca.epochStart ≠ 0 ∧ now = ca.lastTime then some (friendliness g cwnd ca)
  else do
    let ca ← beginEpoch g cwnd acked now { ca with lastCwnd := cwnd, lastTime := now }
    let cnt := targetCnt cwnd (bicTarget g now ca) ca
    return friendliness g cwnd { ca with cnt := cnt }

end NetSim.Tcp.Cubic
