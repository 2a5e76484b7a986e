import NetSim.Lib.Machine
import Mathlib.Algebra.BigOperators.Group.Finset.Basic
import Mathlib.Algebra.GroupWithZero.Nat
import Mathlib.Analysis.SpecialFunctions.Log.Base
import Mathlib.Data.Int.Log
import Mathlib.Data.Rat.Floor
import Mathlib.Order.WithBot

/-!
# The radio medium

The packets in flight (`medium.transmissionPacket`), the power that every interface receives in total, and the highest
interference of each packet. A device is one interface that `medium_add_device` has put in the medium.

Powers are exact numbers of milliwatts. The power of a transmitter at a device is a parameter: it depends on the time
at which the transmission starts and on nothing else.
-/

namespace NetSim.Medium

/-- `ZERO_MW`. -/
def zeroMw : ℚ := 1 / 10 ^ 100

/-- `MW_TO_DBM` on a scale `β`: a power of `ZERO_MW` or less is `NEGATIVE_DBM`, and more power is not less in dBm. -/
structure DbmScale (β : Type*) [LinearOrder β] where
  negativeDbm : β
  mwToDbm : ℚ → β
  mono : Monotone mwToDbm
  zero : ∀ mw ≤ zeroMw, mwToDbm mw = negativeDbm

theorem logb_zeroMw : 10 * Real.logb 10 ((zeroMw : ℚ) : ℝ) = -1000 := by
  have h : ((zeroMw : ℚ) : ℝ) = (10 : ℝ) ^ (-100 : ℝ) := by
    rw [Real.rpow_neg (by norm_num), zeroMw]
    norm_num
  rw [h, Real.logb_rpow (by norm_num) (by norm_num)]
  norm_num

/-- `MW_TO_DBM` itself, on the reals. -/
noncomputable def DbmScale.real : DbmScale ℝ where
  negativeDbm := -1000
  mwToDbm mw := if mw ≤ zeroMw then -1000 else 10 * Real.logb 10 mw
  mono := by
    intro a b hab
    dsimp only
    have hz : (0 : ℝ) < ((zeroMw : ℚ) : ℝ) := by rw [zeroMw]; positivity
    by_cases ha : a ≤ zeroMw
    · rw [if_pos ha]
      split
      · exact le_refl _
      · rename_i hb
        rw [← logb_zeroMw]
        have hle : ((zeroMw : ℚ) : ℝ) ≤ (b : ℝ) := by exact_mod_cast (not_le.1 hb).le
        have := Real.logb_le_logb_of_le (b := 10) (by norm_num) hz hle
        linarith
    · have hb : ¬ b ≤ zeroMw := fun hb => ha (hab.trans hb)
      rw [if_neg ha, if_neg hb]
      have h0 : (0 : ℝ) < (a : ℝ) := hz.trans (by exact_mod_cast not_le.1 ha)
      have hle : (a : ℝ) ≤ (b : ℝ) := by exact_mod_cast hab
      have := Real.logb_le_logb_of_le (b := 10) (by norm_num) h0 hle
      linarith
  zero := by
    intro mw h
    exact if_pos h

/-- `MW_TO_DBM` rounded down to a power of ten, where it is exact. -/
def DbmScale.decade : DbmScale ℤ where
  negativeDbm := -1000
  mwToDbm mw := if mw ≤ zeroMw then -1000 else max (-1000) (10 * Int.log 10 mw)
  mono := by
    intro a b hab
    dsimp only
    by_cases ha : a ≤ zeroMw
    · rw [if_pos ha]
      split
      · exact Int.le_refl _
      · exact Int.le_max_left _ _
    · have hb : ¬ b ≤ zeroMw := fun hb => ha (hab.trans hb)
      rw [if_neg ha, if_neg hb]
      have hz : (0 : ℚ) < zeroMw := by rw [zeroMw]; positivity
      have hlog : Int.log 10 a ≤ Int.log 10 b := Int.log_mono_right (hz.trans (not_le.1 ha)) hab
      omega
  zero := by
    intro mw h
    exact if_pos h

/-- `PACKETINFO`, with the address of the packet as its number. -/
structure PacketInfo (δ β : Type*) where
  packet : ℕ
  txId : δ
  rxId : δ
  startTime : ℚ
  dMaxInterference : β
deriving DecidableEq

/-- `DEVICE_IN_MEDIUM`. `NEGATIVE_INFINITY` is `⊥`. -/
structure Device (β : Type*) where
  frequency : ℚ
  bandwidth : ℚ
  dEDThreshold : β
  dCummulativeReceivedPowerMw : ℚ
  dCummulativeReceivedPowerDbm : WithBot β
deriving DecidableEq

/-- What a run does not change: `MW_TO_DBM`, and the power `GetRXPowerMW` of a transmitter at a device for a
transmission that has started at a time. -/
structure Config (δ β : Type*) [LinearOrder β] where
  scale : DbmScale β
  getRXPowerMW : δ → δ → ℚ → ℚ
  nonneg : ∀ t d time, 0 ≤ getRXPowerMW t d time

/-- A packet that has started and not ended, with the highest interference at its receiver since it has started. -/
structure Flight (δ β : Type*) where
  packet : ℕ
  txId : δ
  rxId : δ
  startTime : ℚ
  worst : β
deriving DecidableEq

/-- The medium, with the packets in flight as the events tell them. -/
structure State (δ β : Type*) where
  devices : δ → Device β
  transmissionPacket : List (PacketInfo δ β)
  flights : List (Flight δ β)

variable {δ β : Type*} [DecidableEq δ] [LinearOrder β]

/-! ### Medium.c -/

/-- `medium_add_device`. -/
def mediumAddDevice (frequency bandwidth : ℚ) (edThreshold : β) : Device β where
  frequency := frequency
  bandwidth := bandwidth
  dEDThreshold := edThreshold
  dCummulativeReceivedPowerMw := 0
  dCummulativeReceivedPowerDbm := ⊥

/-- `packetInfo_add`: the info is the last of the list. -/
def packetInfoAdd (c : Config δ β) (packet : ℕ) (txId rxId : δ) (startTime : ℚ) : PacketInfo δ β where
  packet := packet
  txId := txId
  rxId := rxId
  startTime := startTime
  dMaxInterference := c.scale.negativeDbm

/-- `packetInfo_remove`: the info of the packet, and the list without it. -/
def packetInfoRemove (packet : ℕ) (l : List (PacketInfo δ β)) :
    Option (PacketInfo δ β) × List (PacketInfo δ β) :=
  (l.find? (fun i => i.packet = packet), l.eraseP (fun i => i.packet = packet))

/-- `isAnypacketIsThereForThisTransmitter`. Two infos are one when they are of one packet. -/
def isAnypacketIsThereForThisTransmitter (info : PacketInfo δ β) (l : List (PacketInfo δ β)) : Bool :=
  l.any fun i => i.packet ≠ info.packet && i.txId = info.txId

/-- `CheckFrequencyInterfrence`. -/
def checkFrequencyInterfrence (dFrequency1 dFrequency2 bandwidth : ℚ) : Bool :=
  if dFrequency1 > dFrequency2 then
    !decide (dFrequency1 - dFrequency2 ≥ bandwidth)
  else
    !decide (dFrequency2 - dFrequency1 ≥ bandwidth)

/-- Whether a device hears a transmitter. -/
def inBand (devices : δ → Device β) (t d : δ) : Bool :=
  checkFrequencyInterfrence (devices t).frequency (devices d).frequency (devices t).bandwidth

omit [DecidableEq δ] [LinearOrder β] in
/-- **Who is heard**: the frequencies are less than the bandwidth of the transmitter apart. -/
theorem inBand_iff {devices : δ → Device β} {t d : δ} :
    inBand devices t d = true ↔ |(devices t).frequency - (devices d).frequency| < (devices t).bandwidth := by
  unfold inBand checkFrequencyInterfrence
  split
  · rename_i hgt
    rw [Bool.not_eq_true', decide_eq_false_iff_not, ge_iff_le, not_le, abs_of_pos (sub_pos.2 hgt)]
  · rename_i hle
    rw [Bool.not_eq_true', decide_eq_false_iff_not, ge_iff_le, not_le, abs_sub_comm,
      abs_of_nonneg (sub_nonneg.2 (not_lt.1 hle))]

/-- A device whose total power changes by `p`. -/
def Device.addPower (c : DbmScale β) (p : ℚ) (dm : Device β) : Device β :=
  { dm with
    dCummulativeReceivedPowerMw := dm.dCummulativeReceivedPowerMw + p
    dCummulativeReceivedPowerDbm := c.mwToDbm (dm.dCummulativeReceivedPowerMw + p) }

/-- `update_power_due_to_transmission`. -/
def updatePowerDueToTransmission (c : Config δ β) (info : PacketInfo δ β) (devices : δ → Device β) : δ → Device β :=
  fun d =>
    if inBand devices info.txId d then
      (devices d).addPower c.scale (c.getRXPowerMW info.txId d info.startTime)
    else devices d

/-- `update_power_due_to_transmission_stop`. -/
def updatePowerDueToTransmissionStop (c : Config δ β) (info : PacketInfo δ β) (devices : δ → Device β) :
    δ → Device β :=
  fun d =>
    if inBand devices info.txId d then
      (devices d).addPower c.scale (-c.getRXPowerMW info.txId d info.startTime)
    else devices d

/-- `medium_update_interference`. -/
def mediumUpdateInterference (c : Config δ β) (devices : δ → Device β) (l : List (PacketInfo δ β)) :
    List (PacketInfo δ β) :=
  l.map fun i =>
    let p := c.getRXPowerMW i.txId i.rxId i.startTime
    let interference := (devices i.rxId).dCummulativeReceivedPowerMw - p
    { i with dMaxInterference := max i.dMaxInterference (c.scale.mwToDbm interference) }

/-- `medium_isIdle`. -/
def mediumIsIdle (devices : δ → Device β) (d : δ) : Prop :=
  (devices d).dCummulativeReceivedPowerDbm < (devices d).dEDThreshold

instance (devices : δ → Device β) (d : δ) : Decidable (mediumIsIdle devices d) := by
  unfold mediumIsIdle
  infer_instance

/-- `medium_notify_packet_send`: the devices and the infos after it. -/
def mediumNotifyPacketSend (c : Config δ β) (packet : ℕ) (txId rxId : δ) (startTime : ℚ)
    (devices : δ → Device β) (l : List (PacketInfo δ β)) : (δ → Device β) × List (PacketInfo δ β) :=
  let info := packetInfoAdd c packet txId rxId startTime
  let l := l ++ [info]
  if isAnypacketIsThereForThisTransmitter info l then
    (devices, l)
  else
    let devices := updatePowerDueToTransmission c info devices
    (devices, mediumUpdateInterference c devices l)

/-- `medium_notify_packet_received`. `none` is the access to the info of a packet that the medium does not have. -/
def mediumNotifyPacketReceived (c : Config δ β) (packet : ℕ) (devices : δ → Device β)
    (l : List (PacketInfo δ β)) : Option ((δ → Device β) × List (PacketInfo δ β)) :=
  match packetInfoRemove packet l with
  | (none, _) => none
  | (some info, l) =>
    if isAnypacketIsThereForThisTransmitter info l then
      some (devices, l)
    else
      some (updatePowerDueToTransmissionStop c info devices, l)

/-! ### What is in flight -/

/-- The transmitters with a packet in flight. -/
def transmitters (flights : List (Flight δ β)) : Finset δ := (flights.map (·.txId)).toFinset

/-- The power of a transmitter at a device: of one packet, however many it has in flight. -/
def heard (c : Config δ β) (devices : δ → Device β) (flights : List (Flight δ β)) (t d : δ) : ℚ :=
  match flights.find? (fun f => f.txId = t) with
  | some f => if inBand devices t d then c.getRXPowerMW t d f.startTime else 0
  | none => 0

/-- A packet that starts has seen no interference. -/
def Flight.start (c : Config δ β) (packet : ℕ) (txId rxId : δ) (startTime : ℚ) : Flight δ β where
  packet := packet
  txId := txId
  rxId := rxId
  startTime := startTime
  worst := c.scale.negativeDbm

/-- The power of all transmitters at a device. -/
def total (c : Config δ β) (devices : δ → Device β) (flights : List (Flight δ β)) (d : δ) : ℚ :=
  ∑ t ∈ transmitters flights, heard c devices flights t d

/-- The power of the transmitters other than `tx` at a device. -/
def others (c : Config δ β) (devices : δ → Device β) (flights : List (Flight δ β)) (tx d : δ) : ℚ :=
  ∑ t ∈ (transmitters flights).erase tx, heard c devices flights t d

/-- Every packet in flight has seen the interference there is now. -/
def observe (c : Config δ β) (devices : δ → Device β) (flights : List (Flight δ β)) : List (Flight δ β) :=
  flights.map fun f =>
    { f with worst := max f.worst (c.scale.mwToDbm (others c devices flights f.txId f.rxId)) }

/-! ### Runs -/

inductive Event (δ : Type*)
  | notifyPacketSend (packet : ℕ) (txId rxId : δ) (startTime : ℚ)
  | notifyPacketReceived (packet : ℕ)
  | updateFrequency (d : δ) (f : ℚ)
  | updateBandwidth (d : δ) (bw : ℚ)
deriving DecidableEq

/-- A packet can start that is not in flight; the packets of a transmitter that overlap are of one burst and share
their start time. -/
def CanSend (flights : List (Flight δ β)) (packet : ℕ) (txId : δ) (startTime : ℚ) : Prop :=
  (∀ f ∈ flights, f.packet ≠ packet) ∧ ∀ f ∈ flights, f.txId = txId → f.startTime = startTime

instance (flights : List (Flight δ β)) (packet : ℕ) (txId : δ) (startTime : ℚ) :
    Decidable (CanSend flights packet txId startTime) := by
  unfold CanSend
  infer_instance

/-- `medium_update_frequency` of one device. -/
def setFrequency (d : δ) (f : ℚ) (devices : δ → Device β) : δ → Device β :=
  fun x => { devices x with frequency := if x = d then f else (devices x).frequency }

/-- `medium_update_bandwidth` of one device. -/
def setBandwidth (d : δ) (bw : ℚ) (devices : δ → Device β) : δ → Device β :=
  fun x => { devices x with bandwidth := if x = d then bw else (devices x).bandwidth }

/-- A packet starts. -/
def stepSend (c : Config δ β) (s : State δ β) (packet : ℕ) (txId rxId : δ) (startTime : ℚ) : State δ β :=
  let r := mediumNotifyPacketSend c packet txId rxId startTime s.devices s.transmissionPacket
  { devices := r.1
    transmissionPacket := r.2
    flights := observe c s.devices (s.flights ++ [Flight.start c packet txId rxId startTime]) }

/-- A packet ends. -/
def stepReceived (c : Config δ β) (s : State δ β) (packet : ℕ) : Option (State δ β) :=
  (mediumNotifyPacketReceived c packet s.devices s.transmissionPacket).map fun r =>
    { devices := r.1
      transmissionPacket := r.2
      flights := observe c s.devices (s.flights.filter fun f => f.packet ≠ packet) }

/-- One event. Frequencies change when nothing is in flight. -/
def step (c : Config δ β) (s : State δ β) : Event δ → Option (State δ β)
  | .notifyPacketSend packet txId rxId startTime =>
    if CanSend s.flights packet txId startTime then some (stepSend c s packet txId rxId startTime) else none
  | .notifyPacketReceived packet => stepReceived c s packet
  | .updateFrequency d f =>
    if s.flights = [] then some { s with devices := setFrequency d f s.devices } else none
  | .updateBandwidth d bw =>
    if s.flights = [] then some { s with devices := setBandwidth d bw s.devices } else none

/-- Nothing has been sent. -/
def Init (s : State δ β) : Prop :=
  (∀ d, ∃ f bw ed, s.devices d = mediumAddDevice f bw ed) ∧ s.transmissionPacket = [] ∧ s.flights = []

/-- The medium. -/
def machine (c : Config δ β) : Machine (State δ β) (Event δ) where
  init := Init
  step := step c

end NetSim.Medium
