import Mathlib.Algebra.Order.Field.Rat
import Mathlib.Logic.Function.Basic
import Mathlib.Tactic.Common

/-!
# The state sent to Python

`LTENR_handleSendReceive`: the throughputs and the SINRs of the UEs that are associated with the
gNBs are put into two arrays of `num_UEs` entries and sent, and the transmit powers that come back
are set. Doubles are taken exactly. The arrays are the list of the entries that are written, so that
the write index `p` is the length of the list.
-/

namespace NetSim.SendReceive

/-- The entries of `SINR_db` and `InterferencePower_dbm` for one layer. -/
structure Layer where
  sinrDb : ℚ
  interferencePowerDbm : ℚ
deriving DecidableEq, Repr

/-- The downlink of `LTENR_PROPAGATIONINFO`; `layerCount` is the number of the layers. -/
structure Downlink where
  txPowerDbm : ℚ
  layers : List Layer
deriving DecidableEq, Repr

/-- `LTENR_ASSOCIATEDUEPHYINFO`, with one propagation info for each carrier. -/
structure AssociatedUePhyInfo where
  ueId : ℕ
  ueIf : ℕ
  isAssociated : Bool
  propagationInfo : List Downlink
deriving DecidableEq, Repr

/-- The interface that has the PDCP entity. -/
def AssociatedUePhyInfo.ue (info : AssociatedUePhyInfo) : ℕ × ℕ := (info.ueId, info.ueIf)

/-- `LTENR_GNBPHY`, with the frame duration of its spectrum configuration. -/
structure GnbPhy where
  caCount : ℕ
  frameDuration : ℚ
  frameDuration_pos : 0 < frameDuration
  associatedUEPhyInfo : List AssociatedUePhyInfo

/-- What is written at one index. -/
structure Entry where
  throughput : ℚ
  sinr : ℚ
  interference : ℚ
deriving DecidableEq, Repr

/-- What the loops write: the entries, the sum of the throughputs, the reward, and the counters
`TotalPDSCHBytes` of the PDCP entities. -/
structure Feed where
  entries : List Entry
  sumThroughput : ℚ
  reward : ℚ
  totalPdschBytes : ℕ × ℕ → ℚ

/-- The throughput of a UE since its counter was cleared. -/
def GnbPhy.pdschThroughput (phy : GnbPhy) (totalPdschBytes : ℚ) : ℚ :=
  totalPdschBytes * 8 / (3 * phy.frameDuration)

/-- The body of the loop over the layers. -/
def sendLayer (phy : GnbPhy) (info : AssociatedUePhyInfo) (f : Feed) (layer : Layer) : Feed :=
  let pdschThroughput := phy.pdschThroughput (f.totalPdschBytes info.ue)
  { f with
    entries := f.entries ++ [⟨pdschThroughput, layer.sinrDb, layer.interferencePowerDbm⟩]
    sumThroughput := f.sumThroughput + pdschThroughput
    totalPdschBytes := Function.update f.totalPdschBytes info.ue 0 }

/-- The body of the loop over the UEs of a gNB. -/
def sendInfo (phy : GnbPhy) (f : Feed) (info : AssociatedUePhyInfo) : Feed :=
  let f :=
    if info.isAssociated then
      (info.propagationInfo.take phy.caCount).foldl
        (fun f downlink => downlink.layers.foldl (sendLayer phy info) f) f
    else f
  { f with reward := f.sumThroughput }

/-- The loops up to the sending, over `gnbDCList`. -/
def sendFeed (gnbDCList : List GnbPhy) (totalPdschBytes : ℕ × ℕ → ℚ) (reward : ℚ) : Feed :=
  gnbDCList.foldl (fun f phy => phy.associatedUEPhyInfo.foldl (sendInfo phy) f)
    ⟨[], 0, reward, totalPdschBytes⟩

/-- The loops behind it: the power of a gNB is set for all its UEs. -/
def setTxPower (gnbList : ℕ → ℚ) (gnbDCList : List GnbPhy) : List GnbPhy :=
  gnbDCList.mapIdx fun p phy =>
    { phy with
      associatedUEPhyInfo := phy.associatedUEPhyInfo.map fun info =>
        { info with
          propagationInfo := info.propagationInfo.mapIdx fun caId downlink =>
            if caId < phy.caCount then { downlink with txPowerDbm := gnbList p } else downlink } }

/-- `LTENR_handleSendReceive`; the exchange with Python is a parameter. -/
def handleSendReceive (exchange : Feed → ℕ → ℚ) (gnbDCList : List GnbPhy)
    (totalPdschBytes : ℕ × ℕ → ℚ) (reward : ℚ) : Feed × List GnbPhy :=
  let f := sendFeed gnbDCList totalPdschBytes reward
  (f, setTxPower (exchange f) gnbDCList)

end NetSim.SendReceive
