import NetSim.Lib.Word

/-!
# The PDCP entity

COUNT arithmetic (`addHdr`, `calculateStateVariable`) and the receiving side of an
entity: the sorted receive buffer, in-order delivery, and t-Reordering.

The receive buffer is kept by the packet library, whose source is not part of the
repository. `RxBufferLib` is what the entity relies on: the sorted insertion keeps
every entry and keeps the buffer in COUNT order.
-/

namespace NetSim.Pdcp

open Word

/-! ## COUNT -/

/-- `LTENR_PDCP_SN_SIZE`, in bits. -/
def snSize : ℕ := 12

/-- `LTENR_PDCP_WINDOW_SIZE`. -/
def windowSize : ℕ := 0x800

/-- `POW_2_SN_SIZE`. -/
def pow2SnSize : ℕ := 0xFFF

/-- `LTENR_PDCP_SN`. -/
def sn (state : ℕ) : ℕ := state &&& 0x00000FFF

/-- `LTENR_PDCP_HFN`. -/
def hfn (state : ℕ) : ℕ := state >>> snSize

/-- `LTENR_PDCP_COUNT`. -/
def count (hfn sn : ℕ) : ℕ := u32 (u32 (hfn <<< snSize) + sn)

/-- The PDCP header: the SN is a 12-bit field. -/
structure Hdr where
  sn : Fin 4096
deriving DecidableEq, Repr

/-- `LTENR_PDCP_ADDHDR`: the header written for the SDU with COUNT `sn`. -/
def addHdr (sn : ℕ) : Hdr := ⟨Fin.ofNat 4096 (sn % pow2SnSize)⟩

/-- The three results of `calculateStateVariable`. -/
structure RecvState where
  recvSn : ℕ
  recvHfn : ℕ
  count : ℕ
deriving DecidableEq, Repr

/-- `LTENR_PDCP_CALCULATE_STATE_VARIABLE`. -/
def calculateStateVariable (rxDeliv : ℕ) (hdr : Hdr) : RecvState :=
  let delvSN := sn rxDeliv
  let delvHFN := hfn rxDeliv
  let recvSn : ℕ := hdr.sn
  let recvHfn :=
    if int32 recvSn < int32 (sub32 delvSN windowSize) then u32 (delvHFN + 1)
    else if int32 recvSn ≥ int32 (u32 (delvSN + windowSize)) then sub32 delvHFN 1
    else delvHFN
  ⟨recvSn, recvHfn, count recvHfn recvSn⟩

theorem sn_eq (state : ℕ) : sn state = state % 4096 := Nat.and_two_pow_sub_one_eq_mod state 12

theorem hfn_eq (state : ℕ) : hfn state = state / 4096 := Nat.shiftRight_eq_div_pow state 12

theorem count_eq (hfn sn : ℕ) : count hfn sn = u32 (u32 (hfn * 4096) + sn) := by
  rw [count, snSize, Nat.shiftLeft_eq]

theorem addHdr_sn (c : ℕ) : ((addHdr c).sn : ℕ) = c % 4095 := by
  show c % 4095 % 4096 = c % 4095
  omega

/-! ## Packets and the receive buffer -/

/-- `MAC_PROTOCOL_LTE` and `MAC_PROTOCOL_LTE_NR`. -/
def macProtocolLte : ℕ := 208
def macProtocolLteNr : ℕ := 209

/-- `LTENR_MSG_NAS_HANDOVER_COMMAND` and `LTENR_MSG_USERDATA`, numbered from
`MAC_PROTOCOL_LTE_NR * 100`. -/
def msgNasHandoverCommand : ℕ := macProtocolLteNr * 100 + 12
def msgUserdata : ℕ := macProtocolLteNr * 100 + 45

/-- The fields of a packet that the receiving side reads, and an identity. -/
structure Packet where
  id : ℕ
  /-- `nPacketType == PacketType_Control`. -/
  isControlType : Bool
  nControlDataType : ℕ
  /-- The `msgType` of the LTE-NR message attached to the packet, if there is one. -/
  msgType : Option ℕ
  hdr : Hdr
deriving DecidableEq, Repr

/-- `isLTENRControlPacket`. -/
def isLTENRControlPacket (p : Packet) : Bool :=
  p.isControlType && (p.nControlDataType / 100 == macProtocolLteNr ||
    p.nControlDataType / 100 == macProtocolLte)

/-- `LTENR_IS_UPLANE_MSG`. -/
def isUplaneMsg (p : Packet) : Bool :=
  match p.msgType with
  | none => true
  | some t => t == msgUserdata

structure RxEntry where
  count : ℕ
  packet : Packet
deriving DecidableEq, Repr

/-- The sorted buffer of the packet library: an insertion adds the entry, keeps the
others, and keeps the COUNT order. -/
structure RxBufferLib where
  addPacketSorted : List RxEntry → RxEntry → List RxEntry
  perm : ∀ l e, (addPacketSorted l e).Perm (e :: l)
  ordered : ∀ l e, l.Pairwise (fun x y => x.count ≤ y.count) →
    (addPacketSorted l e).Pairwise fun x y => x.count ≤ y.count

/-- `LTENR_PDCP_RXBUFFER_SORT`: the new entry goes in front of the current one. -/
def rxBufferSort (cbp nbp : RxEntry) : Bool := cbp.count > nbp.count

def insertSorted : List RxEntry → RxEntry → List RxEntry
  | [], e => [e]
  | x :: xs, e => if rxBufferSort x e then e :: x :: xs else x :: insertSorted xs e

theorem insertSorted_perm (l : List RxEntry) (e : RxEntry) : (insertSorted l e).Perm (e :: l) := by
  induction l with
  | nil => exact .refl _
  | cons x xs ih =>
    unfold insertSorted
    split
    · exact .refl _
    · exact (ih.cons x).trans (.swap e x xs)

/-- Insertion in front of the first entry with a larger COUNT. -/
def RxBufferLib.insertion : RxBufferLib where
  addPacketSorted := insertSorted
  perm := insertSorted_perm
  ordered l e hl := by
    induction l with
    | nil => exact List.pairwise_singleton _ _
    | cons x xs ih =>
      obtain ⟨hx, hxs⟩ := List.pairwise_cons.1 hl
      unfold insertSorted
      split
      · rename_i h
        have hlt : e.count < x.count := by simpa [rxBufferSort] using h
        refine List.pairwise_cons.2 ⟨fun y hy => ?_, hl⟩
        rcases List.mem_cons.1 hy with rfl | hy
        · exact Nat.le_of_lt hlt
        · exact Nat.le_trans (Nat.le_of_lt hlt) (hx y hy)
      · rename_i h
        have hle : x.count ≤ e.count := by simpa [rxBufferSort] using h
        refine List.pairwise_cons.2 ⟨fun y hy => ?_, ih hxs⟩
        rcases List.mem_cons.1 ((insertSorted_perm xs e).mem_iff.1 hy) with rfl | hy
        · exact hle
        · exact hx y hy

/-! ## The entity -/

/-- `LTENR_PDCPENTITY`: the state variables, the receive buffer (`none` is the null
pointer left behind by a handover) and the timer flag. -/
structure Entity where
  txNext : ℕ
  rxNext : ℕ
  rxDeliv : ℕ
  rxReord : ℕ
  receiveBuffer : Option (List RxEntry)
  isTReorderingRunning : Bool
deriving DecidableEq, Repr

/-- `LTENR_PDCP_CreateNewEntity`. -/
def createNewEntity : Entity := ⟨0, 0, 0, 0, some [], false⟩

/-- Where an SDU is handed: `LTENR_CallSDAPIn`, `LTENR_CallRRCIn`, `LTENR_CallNASIn`. -/
inductive Upper
  | sdap
  | rrc
  | nas
deriving DecidableEq, Repr

/-- Which loop released an SDU. -/
inductive Path
  | reception
  | tReordering
deriving DecidableEq, Repr

/-- What becomes of a received PDU. -/
inductive Outcome
  | handed (path : Path) (upper : Upper) (count : ℕ) (packet : Packet)
  | discarded (count : ℕ) (packet : Packet)
deriving DecidableEq, Repr

/-- `LTENR_PDCP_SET_SN`. -/
def setSn (e : Entity) : Entity × ℕ := ({ e with txNext := u32 (e.txNext + 1) }, e.txNext)

/-- `LTENR_PDCP_ISDUPLICATEPDU`. -/
def isDuplicatePdu (e : Entity) (recvCount : ℕ) : Bool := recvCount < e.rxDeliv

/-- `LTENR_PDCP_START_TREORDERING` and `LTENR_PDCP_STOP_TREORDERING`. -/
def startTReordering (e : Entity) : Entity := { e with isTReorderingRunning := true }
def stopTReordering (e : Entity) : Entity := { e with isTReorderingRunning := false }

/-- `LTENR_PDCP_SendUp`. -/
def sendUp (p : Packet) : Upper :=
  if isUplaneMsg p then .sdap
  else if p.nControlDataType = msgNasHandoverCommand then .nas
  else .rrc

/-- `LTENR_PDCP_RXBUFFER_ENQUEUE`. A null buffer has no defined result. -/
def rxBufferEnqueue (L : RxBufferLib) (e : Entity) (p : Packet) (recvCount : ℕ) : Option Entity := do
  let buf ← e.receiveBuffer
  let buf := L.addPacketSorted buf ⟨recvCount, p⟩
  let head ← buf.head?
  return { e with receiveBuffer := some buf, rxDeliv := head.count }

/-- `LTENR_PDCP_UPDATE_STATE_VARIABLE`. -/
def updateStateVariable (e : Entity) (recvCount : ℕ) : Entity :=
  if recvCount ≥ e.rxNext then { e with rxNext := u32 (recvCount + 1) } else e

/-- The loop shared by reception and expiry: releases the head of the buffer while the
COUNTs are consecutive. The result holds the packets left, `RX_DELIV`, and the packets
released. A `next` of 0 stands for "not set yet", as in the source. -/
def releaseLoop : ℕ → List RxEntry → ℕ → List RxEntry × ℕ × List RxEntry
  | _, [], rxDeliv => ([], rxDeliv, [])
  | next, x :: xs, rxDeliv =>
    let next := if next = 0 then x.count else next
    if next = x.count then
      let r := releaseLoop (u32 (next + 1)) xs rxDeliv
      (r.1, r.2.1, x :: r.2.2)
    else (x :: xs, x.count, [])

def release (path : Path) (upper : Packet → Upper) (e : Entity) (buf : List RxEntry) :
    Entity × List Outcome :=
  let r := releaseLoop 0 buf e.rxDeliv
  ({ e with receiveBuffer := some r.1, rxDeliv := r.2.1 },
    r.2.2.map fun x => .handed path (upper x.packet) x.count x.packet)

/-- `LTENR_PDCP_DeliverSDUToUpperLayer`. -/
def deliverSDUToUpperLayer (isoutOfOrderDelivery : Bool) (e : Entity) (recvCount : ℕ) :
    Option (Entity × List Outcome) := do
  let buf ← e.receiveBuffer
  if isoutOfOrderDelivery then
    let x ← buf.head?
    return ({ e with receiveBuffer := some buf.tail },
      [.handed .reception (sendUp x.packet) x.count x.packet])
  else if recvCount = e.rxDeliv then
    return release .reception sendUp e buf
  else
    return (e, [])

/-- `LTENR_PDCP_ACTION_FOR_TREORDERING_ONRECEV`. -/
def actionForTReorderingOnRecev (e : Entity) : Entity :=
  if e.isTReorderingRunning ∧ e.rxDeliv ≥ e.rxReord then startTReordering (stopTReordering e)
  else if ¬ e.isTReorderingRunning ∧ e.rxDeliv < e.rxReord then
    startTReordering { e with rxReord := e.rxNext }
  else e

/-- `fn_NetSim_LTENR_PDCP_ReceivePDCPSDU`, once the entity is found. -/
def receivePDCPSDU (L : RxBufferLib) (isoutOfOrderDelivery : Bool) (e : Entity) (p : Packet) :
    Option (Entity × List Outcome) :=
  let recvCount := (calculateStateVariable e.rxDeliv p.hdr).count
  if isDuplicatePdu e recvCount && !isLTENRControlPacket p then
    some (e, [.discarded recvCount p])
  else do
    let e ← rxBufferEnqueue L e p recvCount
    let e := updateStateVariable e recvCount
    let (e, out) ← deliverSDUToUpperLayer isoutOfOrderDelivery e recvCount
    return (actionForTReorderingOnRecev e, out)

/-- `LTENR_PDCP_HANDLE_TREORDERINGTIMER`, an event that only a running timer has. The
loop hands every SDU to `LTENR_CallRRCIn`. -/
def handleTReorderingTimer (e : Entity) : Option (Entity × List Outcome) :=
  if e.isTReorderingRunning then
    let e := stopTReordering e
    let (e, out) :=
      match e.receiveBuffer with
      | none => (e, [])
      | some buf => release .tReordering (fun _ => .rrc) e buf
    if e.rxDeliv < e.rxNext then some (startTReordering { e with rxReord := e.rxNext }, out)
    else some (e, out)
  else none

/-- `fn_NetSim_LTENR_NAS_PDCP_BUFFER_TRANSFER`: the serving entity, then the target one. -/
def pdcpBufferTransfer (ser tar : Entity) : Entity × Entity :=
  ({ ser with receiveBuffer := none },
    { tar with
      receiveBuffer := ser.receiveBuffer
      txNext := ser.txNext
      rxDeliv := ser.rxDeliv
      rxNext := ser.rxNext
      rxReord := ser.rxReord })

end NetSim.Pdcp
