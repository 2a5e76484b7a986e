import Mathlib.Algebra.Order.Floor.Div
import Mathlib.Algebra.Order.Ring.Rat
import Mathlib.Data.List.Basic
import Mathlib.Data.Rat.Cast.Defs
import NetSim.Lib.Binary64
import NetSim.Lib.Word

/-!
# The carriers of a gNB
-/

/-!
## Bandwidth parts

Each carrier of a gNB keeps a list of the UEs that are active on it. When the PRBs left in a
slot do not do for a UE, the scheduler asks for a switch to another carrier.
-/

namespace NetSim.Bwp

/-- A UE, as `LTENR_CA_UE_LIST` names it. -/
structure UeRef where
  ueId : ℕ
  ueIn : ℕ
deriving DecidableEq, Repr

/-- `LTENR_CA`, what the bandwidth parts use of it. `PRBCount` is an unsigned word. -/
structure Ca where
  prbCount : ℕ
  isBwpEnabled : Bool
  bwpId : ℕ
  ueList : List UeRef
  prbCount_lt : prbCount < 4294967296
deriving DecidableEq

/-- `LTENR_BwpSwitch`. -/
structure BwpSwitch where
  prbCount : ℕ
  caNew : Bool
  bwpActive : Bool
deriving DecidableEq, Repr

/-- `LTENR_form_active_ue_list`, over the associated UEs in the order of their devices. -/
def formActiveUeList (associated : List UeRef) (firstActiveBwpId : UeRef → ℕ) (ca : Ca) : Ca :=
  { ca with ueList := ca.ueList ++ associated.filter fun ue => firstActiveBwpId ue = ca.bwpId }

/-- The carriers after `fn_NetSim_LTENR_GNBPHY_Init`. -/
def gnbPhyInit (associated : List UeRef) (firstActiveBwpId : UeRef → ℕ) (cas : List Ca) : List Ca :=
  cas.map fun ca => if ca.isBwpEnabled then formActiveUeList associated firstActiveBwpId ca else ca

/-- `LTENR_ACTIVEUEINFO_ADD`. -/
def activeUeInfoAdd (ue : UeRef) (caId : ℕ) (cas : List Ca) : List Ca :=
  cas.modify caId fun ca => { ca with ueList := ca.ueList ++ [ue] }

/-- `LTENR_ACTIVEUEINFO_REMOVE`: the first entry of the UE, if there is one. -/
def activeUeInfoRemove (ue : UeRef) (caId : ℕ) (cas : List Ca) : List Ca :=
  cas.modify caId fun ca => { ca with ueList := ca.ueList.erase ue }

/-- What the loop over the carriers ends with: a carrier with the PRBs needed, or the largest
one. -/
inductive Scan
  | found (i : ℕ) (bwpSwitch : BwpSwitch)
  | largest (caMax : ℕ) (bwpSwitch : BwpSwitch)
deriving DecidableEq, Repr

/-- The loop of `LTENR_BWP_Switch` from carrier `i` on. A carrier from `CA_ID` on leaves
`prb_count` unset. -/
def scanCarriers (caId prbNeeded : ℕ) : ℕ → ℕ → ℕ → Bool → List Ca → Scan
  | _, _, caMax, caNew, [] => .largest caMax ⟨0, caNew, false⟩
  | i, max, caMax, _, ca :: cas =>
    let caNew := decide (caId ≤ i)
    if prbNeeded ≤ ca.prbCount then .found i ⟨if caId ≤ i then 0 else ca.prbCount, caNew, true⟩
    else if max < ca.prbCount then scanCarriers caId prbNeeded (i + 1) ca.prbCount i caNew cas
    else scanCarriers caId prbNeeded (i + 1) max caMax caNew cas

/-- The target of a switch from a carrier, and what the switch returns. -/
def switchTarget (caId prbNeeded : ℕ) (cas : List Ca) : Option ℕ × BwpSwitch :=
  if cas[caId]?.any (·.isBwpEnabled) then
    match scanCarriers caId prbNeeded 0 0 0 false cas with
    | .found i bwpSwitch => (some i, bwpSwitch)
    | .largest caMax bwpSwitch =>
      if caMax ≠ caId then (some caMax, { bwpSwitch with bwpActive := true })
      else (none, bwpSwitch)
  else (none, ⟨0, false, false⟩)

/-- `LTENR_BWP_Switch`. -/
def bwpSwitch (caId : ℕ) (curr : UeRef) (prbNeeded : ℕ) (cas : List Ca) : BwpSwitch × List Ca :=
  match switchTarget caId prbNeeded cas with
  | (some i, s) => (s, activeUeInfoAdd curr i (activeUeInfoRemove curr caId cas))
  | (none, s) => (s, cas)

/-- What `LTENR_PRB_AllocatePRB` makes of an active switch: the PRBs of the UE, and those left. -/
def BwpSwitch.grant (s : BwpSwitch) (prbAllocation : ℕ) : ℕ × ℕ :=
  if s.prbCount < prbAllocation then (s.prbCount, 0)
  else (prbAllocation, s.prbCount - prbAllocation)

end NetSim.Bwp

/-!
## The slots of a carrier

`LTENR_resetSlot` begins the next slot of a carrier. If the carrier is mixed, the slot is a downlink slot as long as the
downlink slots are fewer than their ratio of all slots so far. That ratio may be any number, and the quotient that is compared
with it is a double. Times are exact.
-/

namespace NetSim.Phy

open Word

/-- `LTENR_SLOTTYPE`. -/
inductive SlotType
  | uplink
  | downlink
  | mixed
  deriving DecidableEq, Repr

/-- `LTENR_CA`: what concerns the slots. -/
structure Ca where
  slotDuration : ℚ
  configSlotType : SlotType
  dlSlotRatio : ℚ
  dlSlotCount : ℕ
  totalSlotCount : ℕ

/-- `LTENR_FRAMEINFO`: what concerns the slots. -/
structure FrameInfo where
  slotId : ℕ
  slotStartTime : ℚ
  slotEndTime : ℚ
  slotType : SlotType

/-- The entries of `phy` for one carrier. -/
structure Carrier where
  ca : Ca
  info : FrameInfo

/-- A mixed carrier chooses the type of its next slot, and counts it. -/
def Ca.chooseSlot (ca : Ca) : Ca × SlotType :=
  let total := u64 (ca.totalSlotCount + 1)
  if ca.totalSlotCount ≠ 0 ∧ (ca.dlSlotCount / ca.totalSlotCount : Binary64).val < ca.dlSlotRatio then
    ({ ca with dlSlotCount := u64 (ca.dlSlotCount + 1), totalSlotCount := total }, .downlink)
  else ({ ca with totalSlotCount := total }, .uplink)

/-- `LTENR_resetSlot`, at the time `now`. -/
def Carrier.resetSlot (s : Carrier) (now : ℚ) : Carrier :=
  let r := if s.ca.configSlotType = .mixed then s.ca.chooseSlot else (s.ca, s.ca.configSlotType)
  { ca := r.1
    info := {
      slotId := u32 (s.info.slotId + 1)
      slotStartTime := now
      slotEndTime := now + s.ca.slotDuration
      slotType := r.2 } }

end NetSim.Phy

/-!
## Code block segmentation

`LTENR_Multiplexer_ComputeCodeBlockSize` cuts a transport block into code blocks and looks up the lifting size of their
LDPC code. Base graph 1 is `1`, any other number is base graph 2. The doubles of the source hold whole numbers and
quotients of numbers that are small enough to be rounded up exactly.
-/

namespace NetSim.Multiplexer

open Word

/-- The lifting sizes of `LDPCLiftingSizeTable`. -/
def ldpcLiftingSizeTable : List ℕ :=
  [2, 3, 4, 5, 6, 7, 8, 9, 10, 11, 12, 13, 14, 15, 16, 18, 20, 22, 24, 26, 28, 30, 32, 36, 40, 44, 48, 52, 56, 60, 64, 72,
    80, 88, 96, 104, 112, 120, 128, 144, 160, 176, 192, 208, 224, 240, 256, 288, 320, 352, 384]

/-- `Kcb`, the largest code block. -/
def kcb (ldpcg : ℕ) : ℕ := if ldpcg = 1 then 8448 else 3840

/-- `Kb`, the columns of the base graph that carry the transport block. -/
def kb (ldpcg tbs : ℕ) : ℕ :=
  if ldpcg = 1 then 22 else if 640 < tbs then 10 else if 560 < tbs then 9 else if 192 < tbs then 8 else 6

/-- What `LTENR_Multiplexer_ComputeCodeBlockSize` computes: `C`, `Zc`, `K` and `K_`. -/
structure CodeBlockSize where
  c : ℕ
  zc : ℕ
  cbs : ℕ
  cbs_ : ℕ
  deriving DecidableEq, Repr

/-- The search for `Zc`, and `K`. -/
def CodeBlockSize.lift (ldpcg kb c k_ : ℕ) : CodeBlockSize :=
  let zc := (ldpcLiftingSizeTable.find? fun z => k_ < kb * z).getD 384
  { c, zc, cbs := if ldpcg = 1 then 22 * zc else 10 * zc, cbs_ := k_ }

/-- `LTENR_Multiplexer_ComputeCodeBlockSize`. -/
def computeCodeBlockSize (ldpcg tbs : ℕ) : CodeBlockSize :=
  if kcb ldpcg < tbs then
    let c := tbs ⌈/⌉ (kcb ldpcg - 24)
    .lift ldpcg (kb ldpcg tbs) c (u32 (tbs + c * 24) ⌈/⌉ (8 * c) * 8)
  else .lift ldpcg (kb ldpcg tbs) 1 (tbs ⌈/⌉ 8 * 8)

end NetSim.Multiplexer
