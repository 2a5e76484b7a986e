import Mathlib.Data.Rat.Defs
import Mathlib.Algebra.Order.Ring.Rat
import Mathlib.Data.List.Basic

/-!
# Measurement reports and the time-to-trigger matrix

What a gNB does with the reports of a UE without dual connectivity. The matrix keeps, for
each UE and each other cell, the time since which the cell has been better than the serving
cell by the handover margin, or -1. Doubles are taken exactly; times are in microseconds.
-/

namespace NetSim.Rrc

/-- `MILLISECOND`, in microseconds. -/
def millisecond : ℚ := 1000

/-- `TTT_NOT_SET`. -/
def tttNotSet : ℚ := -1

/-- `INT_MIN`, the value of `targetSINR` when no cell has been found. -/
def intMin : ℚ := -2147483648

/-- `LTENR_RRC_UE_MEASUREMENT_REPORT`: a cell and its SINR. -/
structure MeasurementReport where
  cellID : ℕ
  sinr : ℚ
deriving DecidableEq, Repr

/-- `LTENR_gNB_HO_Trigger`. -/
structure HoTrigger where
  gnbID : ℕ
  triggerTime : ℚ
deriving DecidableEq, Repr

/-- `LTENR_Conditional_HO_TTT_Matrix`: the row of a UE. -/
structure TttRow where
  ueID : ℕ
  ueIF : ℕ
  gnbHoTrigger : List HoTrigger
deriving DecidableEq, Repr

/-- `LTENR_GNBRRC`. -/
structure GnbRrc where
  d : ℕ
  handoverMargin : ℚ
  /-- In milliseconds. -/
  ttt : ℚ
  conditionalHoTttMatrix : List TttRow
deriving DecidableEq, Repr

/-! ## The matrix -/

/-- The trigger time of a cell in a row. -/
def rowFind (target : ℕ) : List HoTrigger → Option ℚ
  | [] => none
  | g :: gs => if g.gnbID = target then some g.triggerTime else rowFind target gs

/-- The row with a new trigger time, if it has the cell. -/
def rowSet (target : ℕ) (value : ℚ) : List HoTrigger → Option (List HoTrigger)
  | [] => none
  | g :: gs =>
    if g.gnbID = target then some ({ g with triggerTime := value } :: gs)
    else (rowSet target value gs).map (g :: ·)

/-- The trigger time found for a UE and a cell. -/
def matrixFind (ue target : ℕ) : List TttRow → Option ℚ
  | [] => none
  | row :: rows =>
    if row.ueID = ue then
      match rowFind target row.gnbHoTrigger with
      | some t => some t
      | none => matrixFind ue target rows
    else matrixFind ue target rows

/-- `fn_NetSim_LTENR_Conditional_HO_TTT_Matrix_Find`. -/
def conditionalHoTttMatrixFind (matrix : List TttRow) (ue target : ℕ) : ℚ :=
  (matrixFind ue target matrix).getD (-1)

/-- `fn_NetSim_LTENR_Conditional_HO_TTT_Matrix_Set`. -/
def conditionalHoTttMatrixSet (ue target : ℕ) (value : ℚ) : List TttRow → List TttRow
  | [] => []
  | row :: rows =>
    if row.ueID = ue then
      match rowSet target value row.gnbHoTrigger with
      | some triggers => { row with gnbHoTrigger := triggers } :: rows
      | none => row :: conditionalHoTttMatrixSet ue target value rows
    else row :: conditionalHoTttMatrixSet ue target value rows

/-- `fn_NetSim_LTENR_Conditional_HO_TTT_Matrix_Add`, with the cells of the UE's list. -/
def GnbRrc.conditionalHoTttMatrixAdd (rrc : GnbRrc) (ue ueIf : ℕ) (cells : List ℕ) : GnbRrc :=
  { rrc with
    conditionalHoTttMatrix := rrc.conditionalHoTttMatrix ++
      [⟨ue, ueIf, (cells.filter fun c => c ≠ rrc.d).map fun c => ⟨c, tttNotSet⟩⟩] }

/-- What `temp` is after the loop of `fn_NetSim_LTENR_Conditional_HO_TTT_Matrix_Remove`: removing the row that it names moves
it to the next one. -/
def rowsBehind (ue ueIf : ℕ) : List TttRow → List TttRow
  | [] => []
  | row :: rows => if row.ueID = ue ∧ row.ueIF = ueIf then rows else rowsBehind ue ueIf rows

/-- `fn_NetSim_LTENR_Conditional_HO_TTT_Matrix_Remove`, which makes `temp` the matrix. -/
def GnbRrc.conditionalHoTttMatrixRemove (rrc : GnbRrc) (ue ueIf : ℕ) : GnbRrc :=
  { rrc with conditionalHoTttMatrix := rowsBehind ue ueIf rrc.conditionalHoTttMatrix }

/-! ## Reports -/

/-- The first pass over the reports: `servingSINR`, 0 if the serving cell is not reported. -/
def servingSinr (gnb : ℕ) (reports : List MeasurementReport) : ℚ :=
  match reports.find? fun r => r.cellID = gnb with
  | some r => r.sinr
  | none => 0

/-- What the second pass works on. -/
structure Scan where
  matrix : List TttRow
  targetSinr : ℚ

/-- One report of the second pass. -/
def scanReport (rrc : GnbRrc) (ue : ℕ) (now serving : ℚ) (s : Scan) (r : MeasurementReport) : Scan :=
  if r.cellID = rrc.d then s
  else
    let triggerTime := conditionalHoTttMatrixFind s.matrix ue r.cellID
    if r.sinr - serving > rrc.handoverMargin then
      if triggerTime = tttNotSet ∧ rrc.ttt > 0 then
        { s with matrix := conditionalHoTttMatrixSet ue r.cellID now s.matrix }
      else if now - triggerTime ≥ rrc.ttt * millisecond then { s with targetSinr := r.sinr }
      else s
    else if triggerTime ≠ tttNotSet then
      { s with matrix := conditionalHoTttMatrixSet ue r.cellID tttNotSet s.matrix }
    else s

/-- `fn_NetSim_LTENR_RRC_UE_MEASUREMENT_RECV`, with the target of the handover that it initiates.
`target` is initialised with 0 and the line that would assign it is commented out. -/
def ueMeasurementRecv (rrc : GnbRrc) (ue : ℕ) (now : ℚ) (reports : List MeasurementReport) :
    GnbRrc × Option ℕ :=
  let target := 0
  let serving := servingSinr rrc.d reports
  let s := reports.foldl (scanReport rrc ue now serving) ⟨rrc.conditionalHoTttMatrix, intMin⟩
  ({ rrc with conditionalHoTttMatrix := s.matrix },
    if serving + rrc.handoverMargin < s.targetSinr ∧ target > 0 ∧ rrc.d ≠ target then some target
    else none)

/-- The reports of a UE that come at one time. -/
structure Measurement where
  time : ℚ
  reports : List MeasurementReport
deriving DecidableEq, Repr

/-- The gNB after some measurements of a UE. -/
def GnbRrc.after (rrc : GnbRrc) (ue : ℕ) (history : List Measurement) : GnbRrc :=
  history.foldl (fun rrc m => (ueMeasurementRecv rrc ue m.time m.reports).1) rrc

end NetSim.Rrc
