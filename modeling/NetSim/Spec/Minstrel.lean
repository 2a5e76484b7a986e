import Mathlib.Algebra.Order.Ring.Rat
import Mathlib.Data.List.FinRange
import Mathlib.Logic.Function.Basic
import Mathlib.Tactic.Common

/-!
# Minstrel

The rate adaptation of `Minstrel.c` for one remote station: the reports, the statistics, the choice of the rates and the
sampling. The times are in microseconds, and a `UINT` is a `UInt32`.
-/

namespace NetSim.Minstrel

def updateStatsTime : ℚ := 100 * 1000

def lookAroundRate : ℚ := 10

def ewmaWeight : ℚ := 25

def sampleCol : ℕ := 10

/-- What `CheckInit` has found for the `n` rates: `perfectTrTime` and `retryCount` of each, the slowest one and
`sampleTable`. -/
structure RateTable (n : ℕ) where
  perfectTrTime : Fin n → ℚ
  retryCount : Fin n → UInt32
  baseRate : Fin n
  sampleTable : ℕ → ℕ → Fin n
  two_le : 2 ≤ n
  perfectTrTime_nonneg : ∀ i, 0 ≤ perfectTrTime i

/-- What changes in `RateInfo`. -/
structure RateInfo where
  adjustedRetryCount : UInt32
  currNumAttempt : UInt32 := 0
  currNumSuccess : UInt32 := 0
  prevNumAttempt : UInt32 := 0
  prevNumSuccess : UInt32 := 0
  prob : ℚ := 0
  ewmaProb : ℚ := 0
  throughput : ℚ := 0
  totalNumAttempt : UInt64 := 0
  totalNumSuccess : UInt64 := 0
  numSampleSkipped : UInt32 := 0
  sampleLimit : ℤ := -1

/-- `MinstrelPerRemoteStation`. -/
structure Station (n : ℕ) where
  nextStatsUpdate : ℚ
  isInitialized : Bool := true
  maxTpRate : Fin n
  maxTp2Rate : Fin n
  maxProbRate : Fin n
  sampleRate : Fin n
  trRate : Fin n
  isSampling : Bool := false
  isDeferredSample : Bool := false
  numSampleDeferred : UInt64 := 0
  totalPacketCount : UInt64 := 0
  samplePacketCount : UInt64 := 0
  shortRetry : UInt32 := 0
  longRetry : UInt32 := 0
  totalRetry : UInt64 := 0
  minstrelTable : Fin n → RateInfo
  row : ℕ := 0
  col : ℕ := 0

variable {n : ℕ}

/-- The rate 0. -/
def RateTable.first (table : RateTable n) : Fin n := ⟨0, Nat.lt_of_lt_of_le Nat.two_pos table.two_le⟩

/-- The station after `CheckInit`. -/
def RateTable.start (table : RateTable n) (now : ℚ) : Station n where
  nextStatsUpdate := now + updateStatsTime
  maxTpRate := table.first
  maxTp2Rate := table.first
  maxProbRate := table.first
  sampleRate := table.first
  trRate := table.first
  minstrelTable i := { adjustedRetryCount := table.retryCount i }

/-! ## Statistics -/

/-- `trTime`: one second for a rate that has none. -/
def RateTable.trTime (table : RateTable n) (i : Fin n) : ℚ :=
  if table.perfectTrTime i = 0 then 1000 * 1000 else table.perfectTrTime i

/-- The share of the packets that have come through since the last update. The division is that of `UINT`. -/
def RateInfo.successShare (r : RateInfo) : ℚ := ((r.currNumSuccess * 18000) / r.currNumAttempt).toNat / 18000

/-- The probability after the packets since the last update. -/
def RateInfo.newProb (r : RateInfo) : ℚ :=
  if r.totalNumAttempt = 0 then r.successShare
  else (r.successShare * ewmaWeight + r.ewmaProb * (100 - ewmaWeight)) / 100

/-- The throughput of a rate for a probability of success. -/
def RateTable.throughput (table : RateTable n) (i : Fin n) (prob : ℚ) : ℚ :=
  if prob < 1 / 10 then 0 else prob * 8 * 1500 / table.trTime i

/-- A turn of the first loop of `UpdateStats`. -/
def RateTable.updateRate (table : RateTable n) (i : Fin n) (r : RateInfo) : RateInfo :=
  let r :=
    if r.currNumAttempt ≠ 0 then
      { r with
        numSampleSkipped := 0
        prob := r.successShare
        ewmaProb := r.newProb
        throughput := table.throughput i r.newProb }
    else { r with numSampleSkipped := r.numSampleSkipped + 1 }
  let r := { r with
    totalNumAttempt := r.totalNumAttempt + r.currNumAttempt.toUInt64
    totalNumSuccess := r.totalNumSuccess + r.currNumSuccess.toUInt64
    prevNumAttempt := r.currNumAttempt
    prevNumSuccess := r.currNumSuccess
    currNumAttempt := 0
    currNumSuccess := 0 }
  let r :=
    if r.ewmaProb < 1 / 10 ∨ 95 / 100 < r.ewmaProb then
      { r with
        adjustedRetryCount := if 2 < table.retryCount i then 2 else r.adjustedRetryCount
        sampleLimit := 4 }
    else { r with sampleLimit := -1, adjustedRetryCount := table.retryCount i }
  { r with adjustedRetryCount := if r.adjustedRetryCount = 0 then 2 else r.adjustedRetryCount }

/-- The loop that looks for the highest throughput among some rates: the rate and `max_tp`. -/
def findMaxTp (t : Fin n → ℚ) (first : Fin n) (rates : List (Fin n)) : Fin n × ℚ :=
  rates.foldl (fun s i => if s.2 < t i then (i, t i) else s) (first, 0)

/-- A turn of the loop that looks for `index_max_prob`, over that and `max_prob`. -/
def findMaxProb (p t : Fin n → ℚ) (s : Fin n × ℚ) (i : Fin n) : Fin n × ℚ :=
  if 95 / 100 ≤ p i ∧ t s.1 ≤ t i then (i, p i)
  else if s.2 ≤ p i then (i, p i)
  else s

/-- What `UpdateStats` chooses for the probabilities and throughputs of the rates. -/
def chooseRates (p t : Fin n → ℚ) (first : Fin n) (s : Station n) : Station n :=
  let indexMaxTp := (findMaxTp t first (List.finRange n)).1
  { s with
    maxTpRate := indexMaxTp
    maxTp2Rate := (findMaxTp t first ((List.finRange n).filter fun i => i ≠ indexMaxTp)).1
    maxProbRate := ((List.finRange n).foldl (findMaxProb p t) (first, 0)).1 }

/-- The first loop of `UpdateStats`. -/
def updateTable (table : RateTable n) (now : ℚ) (s : Station n) : Station n :=
  { s with
    nextStatsUpdate := now + updateStatsTime
    minstrelTable := fun i => table.updateRate i (s.minstrelTable i) }

/-- `UpdateStats`. -/
def updateStats (table : RateTable n) (now : ℚ) (s : Station n) : Station n :=
  if now < s.nextStatsUpdate then s
  else if !s.isInitialized then s
  else
    let s := updateTable table now s
    chooseRates (fun i => (s.minstrelTable i).ewmaProb) (fun i => (s.minstrelTable i).throughput) table.first s

/-! ## Reports -/

/-- `UpdatePacketCounter`. A `UINT64` is never negative, so nothing wraps around. -/
def updatePacketCounter (s : Station n) : Station n :=
  { s with
    totalPacketCount := s.totalPacketCount + 1
    samplePacketCount := if s.isSampling ∧ s.trRate = s.sampleRate then s.samplePacketCount + 1 else s.samplePacketCount
    numSampleDeferred := if 0 < s.numSampleDeferred then s.numSampleDeferred - 1 else s.numSampleDeferred
    isSampling := false
    isDeferredSample := false }

/-- `UpdateRetry`. -/
def updateRetry (s : Station n) : Station n :=
  { s with
    totalRetry := s.totalRetry + (s.longRetry + s.shortRetry).toUInt64
    longRetry := 0
    shortRetry := 0 }

/-- `adjustedRetryCount` of a rate. -/
def Station.retries (s : Station n) (i : Fin n) : UInt32 := (s.minstrelTable i).adjustedRetryCount

/-- The rate of `UpdateRate`: the retry chain. -/
def nextRate (table : RateTable n) (s : Station n) : Fin n :=
  let a := s.retries s.maxTpRate
  let c := s.retries s.maxProbRate
  if !s.isSampling then
    let b := s.retries s.maxTp2Rate
    if s.longRetry < a then s.maxTpRate
    else if s.longRetry ≤ a + b then s.maxTp2Rate
    else if s.longRetry ≤ a + b + c then s.maxProbRate
    else table.baseRate
  else
    let b := s.retries s.sampleRate
    if s.isDeferredSample then
      if s.longRetry < a then s.maxTpRate
      else if s.longRetry ≤ a + b then s.sampleRate
      else if s.longRetry ≤ a + b + c then s.maxProbRate
      else table.baseRate
    else if s.longRetry < b then s.sampleRate
    else if s.longRetry < b + a then s.maxTpRate
    else if s.longRetry ≤ a + b + c then s.maxProbRate
    else table.baseRate

/-- A change of the row of a rate. -/
def Station.modify (s : Station n) (i : Fin n) (f : RateInfo → RateInfo) : Station n :=
  { s with minstrelTable := Function.update s.minstrelTable i (f (s.minstrelTable i)) }

/-- `UpdateRate`. -/
def updateRate (table : RateTable n) (s : Station n) : Station n :=
  let s := { s with longRetry := s.longRetry + 1, totalPacketCount := s.totalPacketCount + 1 }
  let s := s.modify s.trRate fun r => { r with currNumAttempt := r.currNumAttempt + 1 }
  let s := { s with
    samplePacketCount := if s.isSampling ∧ s.trRate = s.sampleRate then s.samplePacketCount + 1 else s.samplePacketCount }
  { s with trRate := nextRate table s }

/-! ## Sampling -/

/-- `GetNextSample`: the rate, and the next place in the table. -/
def getNextSample (table : RateTable n) (s : Station n) : Fin n × Station n :=
  (table.sampleTable s.row s.col,
    if n ≤ s.row + 1 then { s with row := 0, col := if sampleCol ≤ s.col + 1 then 0 else s.col + 1 }
    else { s with row := s.row + 1 })

/-- `delta`: how many packets are still to be sampled. The conversion to `int` drops the fraction. -/
def Station.delta (s : Station n) : ℤ :=
  let q : ℚ := s.totalPacketCount.toNat * lookAroundRate / 100 - (s.samplePacketCount + s.numSampleDeferred / 2).toNat
  q.num.tdiv q.den

/-- What `FindRate` does when a packet is to be sampled: a rate that is slower than the best one is deferred to the second
stage, unless it has been skipped too often. -/
def sampleNext (table : RateTable n) (s : Station n) : Fin n × Station n :=
  let idx := (getNextSample table s).1
  let s : Station n := { (getNextSample table s).2 with sampleRate := idx }
  if table.perfectTrTime s.maxTpRate < table.perfectTrTime idx ∧ (s.minstrelTable idx).numSampleSkipped < 20 then
    (s.maxTpRate, { s with isDeferredSample := true, numSampleDeferred := s.numSampleDeferred + 1, isSampling := true })
  else if (s.minstrelTable idx).sampleLimit = 0 then (s.maxTpRate, { s with isSampling := false })
  else
    (if s.isDeferredSample then s.maxTpRate else idx,
      { s with isSampling := true }.modify idx fun r =>
        { r with sampleLimit := if 0 < r.sampleLimit then r.sampleLimit - 1 else r.sampleLimit })

/-- `FindRate`, with the rate that it returns. -/
def findRate (table : RateTable n) (s : Station n) : Fin n × Station n :=
  if s.totalPacketCount = 0 then (table.first, s)
  else if 0 ≤ s.delta then
    sampleNext table { s with
      samplePacketCount :=
        if (2 * n : ℤ) < s.delta then s.samplePacketCount + UInt64.ofNat (s.delta.toNat - 2 * n) else s.samplePacketCount }
  else (s.maxTpRate, s)

/-! ## Runs -/

/-- What is reported, with the time where the code reads it. -/
inductive Report
  | dataOk (now : ℚ)
  | dataFailed
  | finalDataFailed (now : ℚ)

/-- The packet of a report is counted for the current rate. -/
def Station.counted (s : Station n) : Report → Station n
  | .dataOk _ => s.modify s.trRate fun r =>
      { r with currNumAttempt := r.currNumAttempt + 1, currNumSuccess := r.currNumSuccess + 1 }
  | .dataFailed => s
  | .finalDataFailed _ => s

/-- What `DoReportDataOk` and `DoReportFinalDataFailed` do with the packet counted. -/
def settle (table : RateTable n) (now : ℚ) (s : Station n) : Station n :=
  let s := updateStats table now (updateRetry (updatePacketCounter s))
  { (findRate table s).2 with trRate := (findRate table s).1 }

/-- `DoReportDataOk`, `DoReportDataFailed` and `DoReportFinalDataFailed`. -/
def Station.report (table : RateTable n) (s : Station n) (e : Report) : Station n :=
  if !s.isInitialized then s
  else
    match e with
    | .dataOk now => settle table now (s.counted e)
    | .dataFailed => updateRate table s
    | .finalDataFailed now => settle table now (s.counted e)

end NetSim.Minstrel
