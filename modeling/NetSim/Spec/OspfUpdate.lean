import Mathlib.Algebra.GroupWithZero.Nat
import NetSim.Lib.Loop
import NetSim.Spec.OspfLsdb

/-!
# Sending link state updates
-/

/-!
## Retransmission

The retransmission timer of `OSPF_LSUPDATE.c`, the receipt of acknowledgements in `OSPF_LSAACK.c` and
`ospf_neighbor_addToRxtList` of `OSPF_Neighbor.c`, for one neighbour. `none` stands for a read through a
`NULL` pointer. A timer event that is scheduled is returned by its number.
-/

namespace NetSim.Ospf

/-- `ospf_lsupdate_getMaxPayloadSize`. -/
def getMaxPayloadSize : ℕ := 1500 - 20 - 24 - 4

/-- `ospf_neighbor_searchSendList` and what `ospf_lsupdate_retransmitLSA` does with the entry. -/
def touchSendList (now : ℚ) (lsa : LsaHdr) (list : List LsaHdr) : List LsaHdr :=
  match list.find? fun l => l.sameKey lsa with
  | some sendListItem =>
    FirstMatch.replaceFirst (fun l => l.sameKey lsa) { sendListItem with time := now } list
  | none => list ++ [{ lsa with time := now }]

/-- An LSA as it is retransmitted: the transmission delay is added to its age. -/
def retransmitted (ospf : Pds) (thisInterface : OspfIf) (now : ℚ) (lsa : LsaHdr) : LsaHdr :=
  let age := UInt16.ofNat (lsa.lsAge.toNat + thisInterface.infTransDelay / second).floor.toNat
  let age := if maskDoNotAge ospf age > ospf.lsaMaxAge then assignNewLSAge ospf age ospf.lsaMaxAge else age
  { lsa with time := now, lsAge := age }

/-- What the loop of `ospf_lsupdate_retransmitLSA` has put aside: what it sends, what it leaves on the
list, the send list, and whether it stopped at an LSA that does not fit. -/
structure RxtScan where
  sent : List LsaHdr
  kept : List LsaHdr
  sendList : List LsaHdr
  stopped : Bool
deriving DecidableEq, Repr

/-- The loop of `ospf_lsupdate_retransmitLSA`. A time is compared with an interval in seconds. -/
def rxtScan (ospf : Pds) (thisInterface : OspfIf) (now : ℚ) : ℕ → List LsaHdr → List LsaHdr → RxtScan
  | _, sendList, [] => ⟨[], [], sendList, false⟩
  | payloadSize, sendList, lsa :: list =>
    if now - lsa.time < thisInterface.rxmtInterval then
      let rest := rxtScan ospf thisInterface now payloadSize sendList list
      { rest with kept := lsa :: rest.kept }
    else if payloadSize + lsa.length.toNat > getMaxPayloadSize then ⟨[], lsa :: list, sendList, true⟩
    else
      let rest := rxtScan ospf thisInterface now (payloadSize + lsa.length.toNat)
        (touchSendList now lsa sendList) list
      { rest with sent := retransmitted ospf thisInterface now lsa :: rest.sent }

/-- `ospf_lsupdate_retransmitLSA`: the neighbour, the LSAs sent and the timer that is started. After a
loop that ran to the end of the list `LSHeader` is `NULL`. -/
def retransmitLSA (ospf : Pds) (thisInterface : OspfIf) (now : ℚ) (neigh : Neighbor) :
    Option (Neighbor × List LsaHdr × Option UInt32) :=
  if neigh.neighLSRxtList.isEmpty then
    some ({ neigh with lsRxtTimer := false, lsRxtSeqNum := neigh.lsRxtSeqNum + 1 }, [], none)
  else
    let scan := rxtScan ospf thisInterface now 0 neigh.linkStateSendList neigh.neighLSRxtList
    let neigh := { neigh with
      neighLSRxtList := scan.kept
      linkStateSendList := scan.sendList
      lsRxtSeqNum := neigh.lsRxtSeqNum + 1 }
    if scan.kept.isEmpty then some ({ neigh with lsRxtTimer := false }, scan.sent, none)
    else if scan.stopped then some ({ neigh with lsRxtTimer := true }, scan.sent, some neigh.lsRxtSeqNum)
    else none

/-- `ospf_lsupdate_rxmtTimer` for a link state update. -/
def rxmtTimer (ospf : Pds) (thisInterface : OspfIf) (now : ℚ) (neigh : Neighbor) (seqNum : UInt32) :
    Option (Neighbor × List LsaHdr × Option UInt32) :=
  if seqNum != neigh.lsRxtSeqNum then some (neigh, [], none)
  else retransmitLSA ospf thisInterface now neigh

/-- The body of the loop of `ospf_handle_LSAck`. -/
def ackLsa (ospf : Pds) (neigh : Neighbor) (lsHeader : LsaHdr) : Neighbor :=
  { neigh with neighLSRxtList := neigh.neighLSRxtList.eraseP (compareToListMem ospf lsHeader) }

/-- `ospf_handle_LSAck`. -/
def handleLSAck (ospf : Pds) (neigh : Neighbor) (lsaHeader : List LsaHdr) : Neighbor :=
  if neigh.state.val < NeighState.exchange.val then neigh
  else
    let neigh := lsaHeader.foldl (ackLsa ospf) neigh
    if neigh.neighLSRxtList.isEmpty && neigh.lsRxtTimer then
      { neigh with lsRxtTimer := false, lsRxtSeqNum := neigh.lsRxtSeqNum + 1 }
    else neigh

/-- `ospf_neighbor_addToRxtList`: the neighbour and the timer that is started. -/
def neighborAddToRxtList (now : ℚ) (neigh : Neighbor) (lsa : LsaHdr) : Neighbor × Option UInt32 :=
  let lsa := { lsa with time := now }
  let neigh := { neigh with
    neighLSRxtList := neigh.neighLSRxtList ++ [lsa]
    linkStateSendList := neigh.linkStateSendList ++ [lsa] }
  if !neigh.lsRxtTimer then ({ neigh with lsRxtTimer := true }, some neigh.lsRxtSeqNum) else (neigh, none)

/-- What `ospf_lsa_flood` does to one neighbour of an interface that takes part. -/
def floodOne (ospf : Pds) (lsa : LsaHdr) (srcAddr : Option Ip) (neigh : Neighbor) : Neighbor :=
  (floodNeighbor ospf lsa srcAddr (removeFromRxtListOf lsa neigh)).1

/-- The part of `ospf_neighbor_handle_inactivityTimer_event` that ends an adjacency; the lists that it
destroys are empty. -/
def neighborDown (neigh : Neighbor) : Neighbor :=
  { neigh with
    state := .down
    neighLSReqList := []
    neighLSRxtList := []
    linkStateSendList := []
    neighborDesignateRouter := none
    neighborDesignateBackupRouter := none }

end NetSim.Ospf

/-!
## Link state updates

`ospf_lsupdate_send` and `ospf_lsu_sendLSUpdateToNeighbor` of `OSPF_LSUPDATE.c`, which pack the LSAs that wait on an
interface into packets. `none` stands for a read through an invalid pointer. The jump back to `LOOP_LSA_AGAIN` is a round
of a loop.
-/

namespace NetSim.Ospf

/-- `lsas`: an array of pointers, in which an entry that has not been written is `none`. `NULL` is the empty array. -/
abbrev LsaArray := List (Option LsaHdr)

/-- `realloc`, to a number of entries. -/
def LsaArray.realloc (lsas : LsaArray) (n : ℕ) : LsaArray :=
  (lsas ++ List.replicate (n - lsas.length) none).take n

/-- `OSPFLSUPDATE`, with what `ospf_lsupdate_sendLSUPacket` adds to the length of the packet. -/
structure LsuPacket where
  lsasCount : ℕ
  lsas : LsaArray
  payload : ℕ
deriving DecidableEq, Repr

/-- `ospf_lsupdate_sendLSUPacket`: the entries up to the count are read. -/
def sendLSUPacket (count : ℕ) (lsas : LsaArray) : Option LsuPacket :=
  if lsas.length < count then none
  else ((lsas.take count).mapM id).map fun sent =>
    ⟨count, lsas, (sent.map fun lsa => lsa.length.toNat).sum⟩

/-- The variables of the two functions: the list, the array, its count and payload, and the packets that have been
sent. -/
structure LsuScan where
  list : List LsaHdr
  lsas : LsaArray
  count : ℕ
  payloadSize : UInt16
  packets : List LsuPacket
deriving DecidableEq, Repr

namespace LsuScan

/-- The LSA goes into the array and is removed from the list. All entries in front of it have been removed. -/
def add (s : LsuScan) (lsa : LsaHdr) : LsuScan :=
  let lsas := if s.count ≠ 0 then s.lsas.realloc (s.count + 1) else [none]
  { s with
    list := s.list.tail
    lsas := lsas.set s.count (some lsa)
    count := s.count + 1
    payloadSize := s.payloadSize + lsa.length }

/-- The LSA is sent alone, with the count as it is. -/
def sendSingle (s : LsuScan) (lsa : LsaHdr) : Option LsuScan :=
  (sendLSUPacket s.count [some lsa]).map fun packet =>
    { s with list := s.list.tail, lsas := [], packets := s.packets ++ [packet] }

/-- What is in the array is sent. -/
def flush (s : LsuScan) : Option LsuScan :=
  (sendLSUPacket s.count s.lsas).map fun packet =>
    { s with lsas := [], count := 0, payloadSize := 0, packets := s.packets ++ [packet] }

/-- The code behind `LOOP_LSA_AGAIN`, up to the jump or to the next LSA; `age` is what it does with an LSA that it
puts into the array. -/
def round (age : LsaHdr → LsaHdr) (lsa : LsaHdr) (s : LsuScan) : LsuScan ⊕ Option LsuScan :=
  if s.payloadSize = 0 ∧ lsa.length.toNat > getMaxPayloadSize then .inr (s.sendSingle lsa)
  else if s.payloadSize.toNat + lsa.length.toNat > getMaxPayloadSize then
    match s.flush with
    | some s => .inl s
    | none => .inr none
  else .inr (some (s.add (age lsa)))

/-- One LSA, with at most the given number of rounds. -/
def place (age : LsaHdr → LsaHdr) (rounds : ℕ) (s : LsuScan) (lsa : LsaHdr) : Option LsuScan :=
  (Loop.run (round age lsa) rounds s).join

/-- What is left in the array behind the loop is sent. -/
def finish (s : LsuScan) : Option LsuScan :=
  if s.count ≠ 0 then
    (sendLSUPacket s.count s.lsas).map fun packet => { s with packets := s.packets ++ [packet] }
  else some s

end LsuScan

/-- The age limit of a sent LSA. -/
def limitAge (ospf : Pds) (age : UInt16) : UInt16 :=
  if maskDoNotAge ospf age > ospf.lsaMaxAge then assignNewLSAge ospf age ospf.lsaMaxAge else age

/-- The body that the two functions share: what is done with an LSA in front of the label, and with one that is put
into the array. -/
def packUpdates (atOnce age : LsaHdr → LsaHdr) (rounds : ℕ) (thisInterface : OspfIf) :
    Option (OspfIf × List LsuPacket) :=
  if thisInterface.updateLSAList.isEmpty then some (thisInterface, [])
  else
    let start : LsuScan := ⟨thisInterface.updateLSAList, [], 0, 0, []⟩
    let scan := thisInterface.updateLSAList.foldlM
      (fun (s : LsuScan) lsa => s.place age rounds (atOnce lsa)) start
    (scan.bind LsuScan.finish).map fun s => ({ thisInterface with updateLSAList := s.list }, s.packets)

/-- `ospf_lsupdate_send`. -/
def lsupdateSend (ospf : Pds) : ℕ → OspfIf → Option (OspfIf × List LsuPacket) := fun rounds thisInterface =>
  let delay := UInt16.ofNat (thisInterface.infTransDelay / second).floor.toNat
  packUpdates (fun lsa => { lsa with lsAge := limitAge ospf (lsa.lsAge + delay) }) id rounds thisInterface

/-- `ospf_lsu_sendLSUpdateToNeighbor`. -/
def sendLSUpdateToNeighbor (ospf : Pds) : ℕ → OspfIf → Option (OspfIf × List LsuPacket) :=
  fun rounds thisInterface =>
    let older := fun lsa : LsaHdr =>
      UInt16.ofNat (lsa.lsAge.toNat + thisInterface.infTransDelay / second).floor.toNat
    packUpdates id (fun lsa => { lsa with lsAge := limitAge ospf (older lsa) }) rounds thisInterface

end NetSim.Ospf
