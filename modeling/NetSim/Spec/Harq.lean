import NetSim.Lib.Word
import Mathlib.Logic.Function.Basic

/-!
# HARQ processes

The HARQ entity of one UE, direction and carrier, slot by slot. A transport block is loaded
into the current process, its code blocks are drawn erroneous or not, and the packets of the
block go to the receiver's MAC together once no layer is in error. The draws of a slot are a
parameter of it.
-/

namespace NetSim.Harq

open Word

/-- `PACKET_STATUS`, as far as the HARQ uses it. -/
inductive PacketStatus
  | noError
  | error
deriving DecidableEq, Repr

/-- `LTENR_AMCINFO`, what the HARQ reads of it. `LTENR_Multiplexer_ComputeCodeBlockSize` forms at
least one code block. -/
structure AmcInfo where
  nCodeBlock : ℕ
  cbs_ : ℕ
  nCodeBlock_pos : 0 < nCodeBlock
deriving DecidableEq

/-- `LTENR_CBG`. `CBCount` is the length of `CBErrorStatus`. -/
structure Cbg where
  cbErrorStatus : List PacketStatus
  isErrored : PacketStatus
deriving DecidableEq, Repr

/-- `LTENR_HARQ_BUFFER`. `CBGCount` is the length of `CBGList`. -/
structure HarqBuffer where
  bitsPerPRB : ℕ
  isErrored : PacketStatus
  pendingSize : ℕ
  cbgList : List Cbg
deriving DecidableEq, Repr

/-- `LTENR_HARQ_PROCESS`. `layerCount` is the length of `transmissionBuffer`; packets are named by
numbers. -/
structure HarqProcess where
  transmissionNumber : ℕ
  ndi : Bool
  prbReqdForRetx : ℕ
  packetBuffer : List ℕ
  transmissionBuffer : List HarqBuffer
deriving DecidableEq, Repr

/-- What `InitHARQ` sets an entity up with, in the ranges that the configuration schema allows. -/
structure HarqConfig where
  maxProcessCount : ℕ
  isHARQEnable : Bool
  harqRetryLimit : ℕ
  maxCBGPerTB : ℕ
  maxProcessCount_pos : 0 < maxProcessCount
  /-- `MAX_HARQ_PROCESS`. -/
  maxProcessCount_le : maxProcessCount ≤ 16
  maxCBGPerTB_pos : 0 < maxCBGPerTB
  /-- `MAX_CBGCOUNT_PER_TB`. -/
  maxCBGPerTB_le : maxCBGPerTB ≤ 8

def HarqConfig.retryLimit (c : HarqConfig) : ℕ := if c.isHARQEnable then c.harqRetryLimit else 0

/-- `LTENR_HARQ_ENTITY`. All processes share one array of AMC information. -/
structure HarqEntity where
  currentProcessId : ℕ
  harqProcess : ℕ → HarqProcess
  amcInfo : List AmcInfo

/-- A process as `calloc` leaves it. -/
def HarqProcess.init : HarqProcess := ⟨0, false, 0, [], []⟩

/-- `InitHARQ`. -/
def HarqEntity.init : HarqEntity := ⟨0, fun _ => .init, []⟩

/-- The layer that a new block is loaded into. -/
structure LayerGrant where
  bitsPerPRB : ℕ
  amc : AmcInfo
deriving DecidableEq

namespace HarqProcess

variable (p : HarqProcess)

/-! ## Errors -/

/-- What `DecideCBGError` makes of one code block. -/
def decideCb (draw : PacketStatus) (transmissionNumber : ℕ) (status : PacketStatus) : PacketStatus :=
  if status = .error ∨ transmissionNumber = 0 then draw else status

/-- One code block group of `DecideCBGError`. -/
def decideCbg (draw : ℕ → PacketStatus) (transmissionNumber : ℕ) (g : Cbg) : Cbg :=
  let status := g.cbErrorStatus.mapIdx fun c s => decideCb (draw c) transmissionNumber s
  ⟨status, status.foldl (fun isErrored s => if isErrored = .noError then s else isErrored) .noError⟩

/-- One layer of `DecideCBGError`. -/
def decideLayer (draw : ℕ → ℕ → PacketStatus) (transmissionNumber : ℕ) (b : HarqBuffer) : HarqBuffer :=
  let groups := b.cbgList.mapIdx fun i g => decideCbg (draw i) transmissionNumber g
  { b with
    cbgList := groups
    isErrored := groups.foldl (fun isErrored g => if g.isErrored = .error then .error else isErrored)
      .noError }

/-- `DecideCBGError`. -/
def decideCbgError (draw : ℕ → ℕ → ℕ → PacketStatus) : HarqProcess :=
  { p with transmissionBuffer :=
      p.transmissionBuffer.mapIdx fun l b => decideLayer (draw l) p.transmissionNumber b }

/-! ## Code block groups -/

/-- `ResetCBG`. -/
def resetCbg : HarqProcess :=
  { p with
    transmissionBuffer := p.transmissionBuffer.map fun _ => ⟨0, .noError, 0, []⟩
    ndi := true
    prbReqdForRetx := 0
    transmissionNumber := 0 }

/-- `PendingSize` of a layer. -/
def pendingSizeOf (amc : AmcInfo) (b : HarqBuffer) : ℕ :=
  b.cbgList.foldl (fun size g =>
    if g.isErrored = .error then u32 (size + g.cbErrorStatus.length * amc.cbs_) else size) 0

/-- The layers of `CalculatePendingData`, with the PRBs that the largest of them requires. -/
def pendingLayers : List AmcInfo → List HarqBuffer → Option (List HarqBuffer × ℕ)
  | _, [] => some ([], 0)
  | [], _ :: _ => none
  | amc :: amcs, b :: bs =>
    let size := pendingSizeOf amc b
    -- the division by `bitsPerPRB`
    if b.bitsPerPRB = 0 then none
    else (pendingLayers amcs bs).map fun r =>
      ({ b with pendingSize := size } :: r.1, max (size / b.bitsPerPRB) r.2)

/-- `CalculatePendingData`. -/
def calculatePendingData (amcInfo : List AmcInfo) : Option HarqProcess :=
  (pendingLayers amcInfo p.transmissionBuffer).map fun r =>
    { p with transmissionBuffer := r.1, prbReqdForRetx := r.2 }

/-- `EmptyProcess`. -/
def emptyProcess : HarqProcess := { p with packetBuffer := [] }.resetCbg

/-! ## Slot start -/

/-- `SetNDI`, with the packets that it drops. -/
def setNdi (c : HarqConfig) (amcInfo : List AmcInfo) : Option (HarqProcess × List ℕ) :=
  if p.packetBuffer = [] then some ({ p with ndi := true, transmissionNumber := 0 }, [])
  else
    let transmissionNumber := p.transmissionNumber + 1
    if c.retryLimit ≤ transmissionNumber then
      some ({ p.emptyProcess with ndi := true, transmissionNumber := 0 }, p.packetBuffer)
    else
      ({ p with transmissionNumber := transmissionNumber, ndi := false }.calculatePendingData
        amcInfo).map fun p => (p, [])

/-- The number of code blocks in the `c`-th group of `AllocateCBG`. -/
def cbCount (nCodeBlock cbgCount c : ℕ) : ℕ :=
  nCodeBlock / cbgCount + if c < nCodeBlock % cbgCount then 1 else 0

/-- A layer after `StoreAMCInfo` and `AllocateCBG` for a new block. The rest of its buffer is
written before it is read. -/
def loadLayer (maxCBGCount : ℕ) (layer : LayerGrant) : HarqBuffer :=
  let cbgCount := min layer.amc.nCodeBlock maxCBGCount
  ⟨layer.bitsPerPRB, .noError, 0, (List.range cbgCount).map fun c =>
    ⟨List.replicate (cbCount layer.amc.nCodeBlock cbgCount c) .noError, .noError⟩⟩

/-- The loop of `AllocateCBG` over the groups of a layer that are left, with its `x` and `r`: the code blocks of each. -/
def cbCounts (x : ℕ) : ℤ → ℕ → List ℕ
  | _, 0 => []
  | r, k + 1 => (x + if r ≤ 0 then 0 else 1) :: cbCounts x (r - 1) k

/-- The code blocks of each group of a layer, as `AllocateCBG` deals them out (`loadLayer_counts`). -/
def layerCbCounts (nCodeBlock maxCBGCount : ℕ) : List ℕ :=
  let cbgCount := min nCodeBlock maxCBGCount
  cbCounts (nCodeBlock / cbgCount) ((nCodeBlock % cbgCount : ℕ) : ℤ) cbgCount

/-- `AllocateCBG`, behind `StoreAMCInfo`. -/
def formCbgs (maxCBGCount : ℕ) (layers : List LayerGrant) : HarqProcess :=
  if p.ndi = false then p else { p with transmissionBuffer := layers.map (loadLayer maxCBGCount) }

/-- `fn_NetSim_LTENR_HARQ_AllocateCBG` for one UE. -/
def allocateCbg (c : HarqConfig) (allocatedPRBCount : ℕ) (layers : List LayerGrant) : HarqProcess :=
  if allocatedPRBCount ≠ 0 ∨ p.ndi = false then
    -- a retransmission keeps its code block groups
    if p.ndi = false then p
    else { p with transmissionBuffer := layers.map (loadLayer c.maxCBGPerTB) }
  else p.resetCbg

/-! ## Transmission -/

/-- `fn_NetSim_LTENR_HARQ_StoreDLPacket`, `fn_NetSim_LTENR_HARQ_StoreULPacket`. -/
def storePacket (packet : ℕ) : HarqProcess := { p with packetBuffer := p.packetBuffer ++ [packet] }

/-- `ReportToOLLA`: the layers that are reported, with their status. -/
def reportToOlla : List (ℕ × PacketStatus) :=
  if p.transmissionNumber ≠ 0 then []
  else p.transmissionBuffer.mapIdx fun l b => (l, b.isErrored)

/-- `SendToReceiver`, with the packets that it hands over. -/
def sendToReceiver : HarqProcess × List ℕ :=
  if p.transmissionBuffer.any fun b => b.isErrored = .error then (p, [])
  else ({ p with packetBuffer := [] }, p.packetBuffer)

end HarqProcess

namespace HarqEntity

variable (e : HarqEntity)

/-- `IncreaseProcessNumber`. -/
def increaseProcessNumber (c : HarqConfig) : HarqEntity :=
  let id := e.currentProcessId + 1
  { e with currentProcessId := if c.maxProcessCount < id then 1 else id }

/-- `entity->harqProcess[entity->currentProcessId - 1]`. -/
def current : HarqProcess := e.harqProcess (e.currentProcessId - 1)

def setCurrent (p : HarqProcess) : HarqEntity :=
  { e with harqProcess := Function.update e.harqProcess (e.currentProcessId - 1) p }

end HarqEntity

/-- What comes to the HARQ of one UE in one slot of a carrier: the allocation of the scheduler,
the number of packets that the RLC sends for it, and the draws. -/
structure Slot where
  allocatedPRBCount : ℕ
  layers : List LayerGrant
  packets : ℕ
  draw : ℕ → ℕ → ℕ → PacketStatus

/-- What a slot does. -/
structure SlotResult where
  entity : HarqEntity
  dropped : List ℕ
  stored : List ℕ
  reports : List (ℕ × PacketStatus)
  delivered : List ℕ

/-- The HARQ part of `LTENR_NotifyMACForStartingSlot`, with packets numbered from `next` on. The
scheduler allocates no PRB to a UE without new data (`bitsPerPRB` is then 0), and the RLC sends
nothing for a grant of 0 bytes. -/
def HarqEntity.startingSlot (c : HarqConfig) (next : ℕ) (slot : Slot) (e : HarqEntity) :
    Option SlotResult :=
  let e := e.increaseProcessNumber c
  (e.current.setNdi c e.amcInfo).bind fun r =>
    if (r.1.ndi = false → slot.allocatedPRBCount = 0) ∧
        (slot.allocatedPRBCount = 0 → slot.packets = 0) then
      let p := r.1.allocateCbg c slot.allocatedPRBCount slot.layers
      let amcInfo := if slot.allocatedPRBCount ≠ 0 then slot.layers.map (·.amc) else e.amcInfo
      let stored := (List.range slot.packets).map (next + ·)
      let p := stored.foldl HarqProcess.storePacket p
      let p := p.decideCbgError slot.draw
      let sent := p.sendToReceiver
      some ⟨{ e with amcInfo := amcInfo }.setCurrent sent.1, r.2, stored, p.reportToOlla, sent.2⟩
    else none

end NetSim.Harq
