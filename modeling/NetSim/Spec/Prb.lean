import Mathlib.Algebra.Order.Field.Rat
import Mathlib.Algebra.Order.Floor.Semiring
import Mathlib.Data.Rat.Floor
import Mathlib.Logic.Function.Basic
import Mathlib.Order.Defs.LinearOrder
import NetSim.Lib.Loop
import NetSim.Lib.Word
import NetSim.Spec.Carrier

/-!
# Allocation of PRBs

What the scheduler of a carrier does in one slot: it takes the overhead and the demand of the
HARQ retransmissions off the PRBs of the carrier and serves the UEs from the rest, in the order
of their ranks and, with static sharing, slice by slice. Sums over a list of doubles are taken in the
order of the list; PRB counts are 32-bit words.
-/

namespace NetSim.Prb

open Word Bwp

/-- `LTENR_GnbSchedulingType`. -/
inductive SchedulingType
  | roundRobin
  | proportionalFair
  | maxThroughput
  | fairScheduling
deriving DecidableEq, Repr

inductive SlotType
  | uplink
  | downlink
deriving DecidableEq, Repr

/-- `LTENR_RESOURCE_SHARING_TECHNIQUE`. -/
inductive SharingTechnique
  | static
  | dynamic
deriving DecidableEq, Repr

/-- `SLICE_SERVICE_TYPE`. -/
inductive SliceServiceType
  | none
  | embb
  | urllc
  | miot
  | v2x
  | unknown
deriving DecidableEq, Repr

/-- `SLICEBANDWIDTH`. -/
structure SliceBandwidth where
  aggregateRateGuarantee : Binary64
  resourceAllocationPercentage : Binary64
  nu : Binary64
  sumAvgThroughput : Binary64
deriving DecidableEq, Repr

/-- `NetworkSliceInfo`. -/
structure NetworkSliceInfo where
  sliceServiceType : SliceServiceType
  uplinkBandwidth : SliceBandwidth
  downlinkBandwidth : SliceBandwidth
deriving DecidableEq, Repr

/-- `LTENR_NWSLICING`. -/
structure NwSlicing where
  isSlicing : Bool
  sliceCount : ℕ
  ueSliceId : ℕ → ℕ
  ewmaLearningRate : Binary64
  lagrangeMultiplierLearningRate : Binary64
  rsrcSharingTechnique : SharingTechnique
  info : ℕ → NetworkSliceInfo

/-- `LTENR_UESCHEDULERINFO`. -/
structure UeSchedulerInfo where
  ueId : ℕ
  ueIf : ℕ
  bufferSize : ℕ
  bitsPerPRB : ℕ
  prbReqdForHARQRetransmission : ℕ
  initRank : Binary64
  rank : Binary64
  var2 : Binary64
  averageThroughput : Binary64
  allocatedPRBCount : ℕ
deriving DecidableEq, Repr

/-- `LTENR_SCHEDULERINFO`. `PRBCount` is an unsigned word. -/
structure SchedulerInfo where
  prbCount : ℕ
  ohUl : Binary64
  ohDl : Binary64
  isPRBRankInit : Bool
  isUERRCSetUpCompleted : Bool
  schedulingType : SchedulingType
  slotType : SlotType
  uplinkInfo : List UeSchedulerInfo
  downlinkInfo : List UeSchedulerInfo
  prbCount_lt : prbCount < 4294967296

def NetworkSliceInfo.bandwidth (info : NetworkSliceInfo) : SlotType → SliceBandwidth
  | .uplink => info.uplinkBandwidth
  | .downlink => info.downlinkBandwidth

def NetworkSliceInfo.setBandwidth (info : NetworkSliceInfo) (b : SliceBandwidth) :
    SlotType → NetworkSliceInfo
  | .uplink => { info with uplinkBandwidth := b }
  | .downlink => { info with downlinkBandwidth := b }

/-! ## Ranks -/

/-- `LTENR_PRB_SetRank`. -/
def setRank (type : SchedulingType) (list : List UeSchedulerInfo) : List UeSchedulerInfo :=
  match type with
  | .roundRobin => list.map fun ue => { ue with rank := 1, initRank := 1 }
  | .proportionalFair => list.map fun ue => { ue with rank := 1, initRank := 1, var2 := 1 }
  | .maxThroughput => list
  | .fairScheduling =>
    let sigmaofBitperPRB : Binary64 := list.foldl (fun sum ue => sum + ue.bitsPerPRB) 0
    let list := if sigmaofBitperPRB ≠ 0 then
        list.map fun ue => { ue with rank := ue.bitsPerPRB / sigmaofBitperPRB
                                     initRank := ue.bitsPerPRB / sigmaofBitperPRB }
      else list
    let product : Binary64 := if sigmaofBitperPRB ≠ 0 then list.foldl (fun product ue => product * ue.rank) 1 else 1
    list.map fun ue =>
      if ue.rank ≠ 0 then { ue with rank := product / ue.rank, initRank := product / ue.rank } else ue

/-- `LTENR_PRB_InitRank_ProportionalFair`. -/
def initRankProportionalFair (nws : NwSlicing) (slotType : SlotType) (list : List UeSchedulerInfo) :
    List UeSchedulerInfo :=
  list.map fun ue =>
    let var2 := if ue.var2 = 0 then 1 else ue.var2
    let nu := ((nws.info (nws.ueSliceId ue.ueId)).bandwidth slotType).nu
    { ue with var2 := var2, rank := ue.bitsPerPRB * (1 / var2 + nu) }

/-- `LTENR_PRB_InitRank_MaxThroughput`. -/
def initRankMaxThroughput (list : List UeSchedulerInfo) : List UeSchedulerInfo :=
  list.map fun ue => { ue with rank := ue.bitsPerPRB }

/-- The middle part of `LTENR_PRB_SortingofRank`; some entry behind the head has a lower rank. -/
def insertMiddle (ue : UeSchedulerInfo) : List UeSchedulerInfo → List UeSchedulerInfo
  | info :: next :: rest =>
    if next.rank < ue.rank then info :: ue :: next :: rest
    else info :: insertMiddle ue (next :: rest)
  | list => list ++ [ue]

/-- One entry of `LTENR_PRB_SortingofRank`. -/
def sortInsert (sorted : List UeSchedulerInfo) (ue : UeSchedulerInfo) : List UeSchedulerInfo :=
  match sorted with
  | [] => [ue]
  | head :: rest =>
    let tail := (head :: rest).getLast (List.cons_ne_nil head rest)
    if head.rank ≤ ue.rank then ue :: head :: rest
    else if ue.rank ≤ tail.rank then head :: rest ++ [ue]
    else insertMiddle ue (head :: rest)

/-- `LTENR_PRB_SortingofRank`. -/
def sortingOfRank (list : List UeSchedulerInfo) : List UeSchedulerInfo := list.foldl sortInsert []

/-- `LTENR_PRB_ResetAllocationPRBCount`. -/
def resetAllocationPrbCount (nws : NwSlicing) (slotDuration : Binary64) (list : List UeSchedulerInfo) :
    List UeSchedulerInfo :=
  list.map fun ue =>
    let rate : Binary64 := (u64 (ue.allocatedPRBCount * ue.bitsPerPRB) : ℕ) / slotDuration
    { ue with
      averageThroughput :=
        ue.averageThroughput + nws.ewmaLearningRate * (rate - ue.averageThroughput)
      allocatedPRBCount := 0 }

/-- `LTENR_PRB_UpdateRank_RoundRobin`. -/
def updateRankRoundRobin (initTotalPRBAvailable : Binary64) (list : List UeSchedulerInfo) :
    List UeSchedulerInfo :=
  let list := list.map fun ue =>
    { ue with rank := ue.rank - ue.allocatedPRBCount / initTotalPRBAvailable }
  if list.any fun ue => ue.rank ≤ 0 then list.map fun ue => { ue with rank := ue.rank + 1 } else list

/-- `LTENR_PRB_UpdateRank_FAIR`. The lowest rank starts from `INT_MAX`. -/
def updateRankFair (initTotalPRBAvailable : Binary64) (list : List UeSchedulerInfo) :
    List UeSchedulerInfo :=
  let minRank := list.foldl (fun r ue => if ue.initRank < r then ue.initRank else r) 2147483647
  let list := list.map fun ue =>
    { ue with rank := ue.rank - minRank * (ue.allocatedPRBCount / initTotalPRBAvailable) }
  if list.any fun ue => ue.rank ≤ 0 then
    list.map fun ue => { ue with rank := ue.rank + ue.initRank }
  else list

/-- `LTENR_PRB_UpdateSumAvgThroughput_ProportionalFair`. -/
def updateSumAvgThroughput (nws : NwSlicing) (slotType : SlotType) (list : List UeSchedulerInfo) :
    NwSlicing :=
  { nws with
    info := fun sliceId =>
      let info := nws.info sliceId
      if sliceId ≤ nws.sliceCount then
        info.setBandwidth
          { info.bandwidth slotType with
            sumAvgThroughput := list.foldl (fun sum ue =>
              if nws.ueSliceId ue.ueId = sliceId then sum + ue.averageThroughput else sum) 0 } slotType
      else info }

/-- `LTENR_PRB_UpdateIndexBias_ProportionalFair`. -/
def updateIndexBias (nws : NwSlicing) (slotType : SlotType) : NwSlicing :=
  { nws with
    info := fun sliceId =>
      let info := nws.info sliceId
      let b := info.bandwidth slotType
      if sliceId ≤ nws.sliceCount then
        if info.sliceServiceType = .none then info.setBandwidth { b with nu := 0 } slotType
        else
          let nu := b.nu + nws.lagrangeMultiplierLearningRate *
            (b.aggregateRateGuarantee - b.sumAvgThroughput)
          info.setBandwidth { b with nu := if nu < 0 then 0 else if nu > (10 : ℕ) then (10 : ℕ) else nu } slotType
      else info }

/-- `LTENR_PRB_UpdateRank_ProportionalFair`. -/
def updateRankProportionalFair (nws : NwSlicing) (slotType : SlotType)
    (list : List UeSchedulerInfo) : NwSlicing × List UeSchedulerInfo :=
  (if list.head?.any fun ue => 0 < ue.bufferSize then
      updateIndexBias (updateSumAvgThroughput nws slotType list) slotType
    else nws,
    list.map fun ue =>
      { ue with var2 := if ue.averageThroughput = 0 then 1 else ue.averageThroughput })

/-! ## Allocation -/

/-- `PRBallocation`: the PRBs that the buffer of a UE needs. -/
def UeSchedulerInfo.prbAllocation (ue : UeSchedulerInfo) : ℕ :=
  u32 ⌈(ue.bufferSize * 8 / ue.bitsPerPRB : Binary64).val⌉₊

def UeSchedulerInfo.ref (ue : UeSchedulerInfo) : UeRef := ⟨ue.ueId, ue.ueIf⟩

/-- What the loop over the UEs works on. `wrapped` records a subtraction below zero. -/
structure Pass where
  totalPRBAvailable : ℕ
  cas : List Ca
  wrapped : Bool

/-- One UE of the loop in `LTENR_PRB_AllocatePRB`. The switch is asked for the first UE of the
list. -/
def allocateUe (nws : NwSlicing) (sliceId caId : ℕ) (current1 : UeRef) (p : Pass)
    (ue : UeSchedulerInfo) : Pass × UeSchedulerInfo :=
  if nws.rsrcSharingTechnique = .static ∧ nws.ueSliceId ue.ueId ≠ sliceId then (p, ue)
  else if 0 < ue.bitsPerPRB then
    if ue.prbAllocation < p.totalPRBAvailable then
      let allocated := u32 (ue.allocatedPRBCount + ue.prbAllocation)
      ({ p with
          totalPRBAvailable := sub32 p.totalPRBAvailable allocated
          wrapped := p.wrapped || decide (p.totalPRBAvailable < allocated) },
        { ue with allocatedPRBCount := allocated })
    else
      let s := bwpSwitch caId current1 ue.prbAllocation p.cas
      if s.1.bwpActive then
        let grant := s.1.grant ue.prbAllocation
        ({ p with totalPRBAvailable := grant.2, cas := s.2 },
          { ue with allocatedPRBCount := grant.1 })
      else
        ({ p with totalPRBAvailable := 0 }, { ue with allocatedPRBCount := p.totalPRBAvailable })
  else (p, ue)

/-- The loop in `LTENR_PRB_AllocatePRB`. -/
def allocateLoop (nws : NwSlicing) (sliceId caId : ℕ) (current1 : UeRef) :
    Pass → List UeSchedulerInfo → Pass × List UeSchedulerInfo
  | p, [] => (p, [])
  | p, ue :: ues =>
    if 0 < p.totalPRBAvailable then
      let r := allocateUe nws sliceId caId current1 p ue
      let rest := allocateLoop nws sliceId caId current1 r.1 ues
      (rest.1, r.2 :: rest.2)
    else (p, ue :: ues)

/-- The state of a slot; `wrapped` is about this slot. -/
structure SlotState where
  si : SchedulerInfo
  nws : NwSlicing
  cas : List Ca
  wrapped : Bool

def SchedulerInfo.list (si : SchedulerInfo) : List UeSchedulerInfo :=
  match si.slotType with
  | .uplink => si.uplinkInfo
  | .downlink => si.downlinkInfo

def SchedulerInfo.setList (si : SchedulerInfo) (list : List UeSchedulerInfo) : SchedulerInfo :=
  match si.slotType with
  | .uplink => { si with uplinkInfo := list }
  | .downlink => { si with downlinkInfo := list }

/-- The first call sets the ranks. -/
def SchedulerInfo.firstRanks (si : SchedulerInfo) : SchedulerInfo :=
  if si.isPRBRankInit then si
  else { si with
    downlinkInfo := setRank si.schedulingType si.downlinkInfo
    uplinkInfo := setRank si.schedulingType si.uplinkInfo
    isPRBRankInit := true }

/-- The list in the order in which its UEs are served. -/
def SchedulerInfo.order (si : SchedulerInfo) (nws : NwSlicing) : List UeSchedulerInfo :=
  sortingOfRank <| match si.schedulingType with
    | .proportionalFair => initRankProportionalFair nws si.slotType si.list
    | .maxThroughput => initRankMaxThroughput si.list
    | _ => si.list

/-- The ranks after an allocation. -/
def updateRank (si : SchedulerInfo) (nws : NwSlicing) (list : List UeSchedulerInfo) :
    NwSlicing × List UeSchedulerInfo :=
  match si.schedulingType with
  | .fairScheduling => (nws, updateRankFair si.prbCount list)
  | .roundRobin => (nws, updateRankRoundRobin si.prbCount list)
  | .proportionalFair => updateRankProportionalFair nws si.slotType list
  | .maxThroughput => (nws, list)

/-- `LTENR_PRB_AllocatePRB`. -/
def allocatePrb (caId totalPRBAvailable sliceId : ℕ) (s : SlotState) : SlotState :=
  if s.si.isUERRCSetUpCompleted = false then s
  else
    let si := s.si.firstRanks
    let current := si.order s.nws
    let current1 := (current.head?.map (·.ref)).getD ⟨0, 0⟩
    let r := allocateLoop s.nws sliceId caId current1 ⟨totalPRBAvailable, s.cas, s.wrapped⟩ current
    let u := updateRank si s.nws r.2
    ⟨si.setList u.2, u.1, r.1.cas, r.1.wrapped⟩

/-- The PRBs for overhead. -/
def SchedulerInfo.overhead (si : SchedulerInfo) : ℕ :=
  u32 ⌈(si.prbCount * (match si.slotType with | .uplink => si.ohUl | .downlink => si.ohDl) : Binary64).val⌉₊

/-- `TotalPRBReqdForHARQRetransmission`, as `LTENR_MAC_InitSchedulerStatus` adds it up. -/
def SchedulerInfo.totalPRBReqdForHARQRetransmission (si : SchedulerInfo) : ℕ :=
  si.list.foldl (fun n ue => u32 (n + ue.prbReqdForHARQRetransmission)) 0

/-- `PRBforSlice`. -/
def prbForSlice (nws : NwSlicing) (slotType : SlotType) (totalPRBAvailable i : ℕ) : ℕ :=
  u32 ⌊(totalPRBAvailable / 100 * ((nws.info i).bandwidth slotType).resourceAllocationPercentage : Binary64).val⌋₊

/-- The calls of `LTENR_PRB_AllocatePRB` in a slot: the PRBs and the slice of each. -/
def passes (nws : NwSlicing) (slotType : SlotType) (totalPRBAvailable : ℕ) : List (ℕ × ℕ) :=
  if nws.isSlicing = true ∧ nws.rsrcSharingTechnique = .static then
    (List.range (nws.sliceCount + 1)).map fun i => (prbForSlice nws slotType totalPRBAvailable i, i)
  else [(totalPRBAvailable, 0)]

/-- Both lists with their allocations reset. -/
def SchedulerInfo.resetAllocation (si : SchedulerInfo) (nws : NwSlicing) (slotDuration : Binary64) :
    SchedulerInfo :=
  { si with
    uplinkInfo := resetAllocationPrbCount nws slotDuration si.uplinkInfo
    downlinkInfo := resetAllocationPrbCount nws slotDuration si.downlinkInfo }

/-- `LTENR_PRB_Scheduler`. -/
def prbScheduler (caId : ℕ) (slotDuration : Binary64) (s : SlotState) : SlotState :=
  if s.si.list = [] then { s with wrapped := false }
  else
    let overhead := s.si.overhead
    let reqd := s.si.totalPRBReqdForHARQRetransmission
    let left := sub32 s.si.prbCount overhead
    let totalPRBAvailable := sub32 left reqd
    let wrapped := decide (s.si.prbCount < overhead) || decide (left < reqd)
    (passes s.nws s.si.slotType totalPRBAvailable).foldl
      (fun s pass => allocatePrb caId pass.1 pass.2 s)
      ⟨s.si.resetAllocation s.nws slotDuration, s.nws, s.cas, wrapped⟩

end NetSim.Prb

/-!
## Sorting the scheduler's list in place

`LTENR_PRB_SortingofRank` on the memory: each entry names the next one, and the function writes these links. The entries have
no links back. Its two loops make one loop here, whose state holds the local variables and says which of the two it is in.
Reading through a null pointer ends it without a result.
-/

namespace NetSim.Prb

/-- The links and the local variables of `LTENR_PRB_SortingofRank`. -/
structure SortState (P : Type*) where
  next : P → Option P
  head : Option P
  tail : Option P
  list : Option P
  t : Option P
  info : Option P
  inMiddle : Bool

/-- The function is called with the list that starts at `list`. -/
def SortState.init {P : Type*} (next : P → Option P) (list : Option P) : SortState P :=
  ⟨next, none, none, list, none, none, false⟩

variable {P R : Type*} [DecidableEq P] [LinearOrder R] (rank : P → R)

/-- One round of `while (list)`. It ends with the links and the head. -/
def listRound (s : SortState P) : SortState P ⊕ Option ((P → Option P) × Option P) :=
  match s.list with
  | none => .inr (some (s.next, s.head))
  | some ue =>
    match s.head with
    | none =>
      .inl { s with next := Function.update s.next ue none, head := some ue, tail := some ue, list := s.next ue }
    | some head =>
      if rank head ≤ rank ue then
        .inl { s with next := Function.update s.next ue (some head), head := some ue, list := s.next ue }
      else
        match s.tail with
        | none => .inr none
        | some tail =>
          if rank ue ≤ rank tail then
            .inl { s with
              next := Function.update (Function.update s.next tail (some ue)) ue none
              tail := some ue
              list := s.next ue }
          else .inl { s with t := s.next ue, info := some head, inMiddle := true }

/-- One round of `while (info)`. -/
def infoRound (s : SortState P) : SortState P ⊕ Option ((P → Option P) × Option P) :=
  match s.list, s.info with
  | none, _ => .inr none
  | some _, none => .inl { s with list := s.t, inMiddle := false }
  | some ue, some info =>
    match s.next info with
    | none => .inr none
    | some next =>
      if rank next < rank ue then
        .inl { s with
          next := Function.update (Function.update s.next ue (some next)) info (some ue)
          list := s.t
          inMiddle := false }
      else .inl { s with info := some next }

/-- One round of `LTENR_PRB_SortingofRank`. -/
def sortRound (s : SortState P) : SortState P ⊕ Option ((P → Option P) × Option P) :=
  if s.inMiddle then infoRound rank s else listRound rank s

end NetSim.Prb
