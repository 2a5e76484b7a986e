import NetSim.Lib.Loop
import NetSim.Spec.Tcb

/-!
# Selective acknowledgement

`SACK.c`: the option that a receiver writes, the flags and the scoreboard that a sender keeps of
it, and the loss recovery phase. The two loops whose end depends on the data are loops with a
bounded number of rounds.
-/

namespace NetSim.Tcp

variable {σ : Type}

/-- `TCP_DupThresh`. -/
def tcpDupThresh : UInt32 := 3

/-- `get_max_sack_data`. -/
def getMaxSackData (hdr : SegmentHdr) : ℕ := (maxTcpHdrSize - hdr.hdrLength - 2) / 8

/-! ## The receiver -/

/-- The loop of `set_sack_option` behind the first block: `blocks` is not empty and ends with the block
in work, `lastSeq` and `len` are those of the last segment. -/
def sackBlocks (maxData : ℕ) (blocks : List SackData) (lastSeq len : UInt32) :
    List QueueInfo → List SackData
  | [] => blocks
  | info :: rest =>
    if lastSeq = 0 then
      -- the next block overwrites the one in work
      sackBlocks maxData (blocks.dropLast ++ [⟨info.seqNum, info.seqNum + info.segLen⟩])
        info.seqNum info.segLen rest
    else if info.seqNum = lastSeq + len then
      sackBlocks maxData
        (blocks.dropLast ++ [⟨(blocks.getLastD ⟨0, 0⟩).leftEdge, info.seqNum + info.segLen⟩])
        info.seqNum info.segLen rest
    else if blocks.length < maxData then
      sackBlocks maxData (blocks ++ [⟨info.seqNum, info.seqNum + info.segLen⟩])
        info.seqNum info.segLen rest
    else blocks

/-- `set_sack_option`. -/
def setSackOption (t : Tcb) (hdr : SegmentHdr) : SegmentHdr :=
  if !t.isSackPermitted then hdr
  else if t.outOfOrderSegment.size = 0 then hdr
  else if getMaxSackData hdr = 0 then hdr
  else
    match t.outOfOrderSegment.queue with
    | [] => hdr
    | info :: rest =>
      let blocks := sackBlocks (getMaxSackData hdr) [⟨info.seqNum, info.seqNum + info.segLen⟩]
        info.seqNum info.segLen rest
      { hdr with sack := some blocks, hdrLength := hdr.hdrLength + 2 + 8 * blocks.length }

/-! ## The sender -/

/-- The flag that `update_sack_flag` leaves on a segment. -/
def QueueInfo.updateSackFlag (left right : UInt32) (info : QueueInfo) : QueueInfo :=
  if info.seqNum ≥ left ∧ info.seqNum ≤ right then { info with isSacked := true } else info

namespace Tcb

/-- `update_sack_flag`. -/
def updateSackFlag (t : Tcb) (left right : UInt32) : Tcb :=
  { t with retransmissionQueue.queue := t.retransmissionQueue.queue.map (.updateSackFlag left right) }

/-- `update_scoreboard`. -/
def updateScoreboard (t : Tcb) (left right : UInt32) (index : ℕ) : Tcb :=
  let t := if index = 0 then { t with prevScoreboard := t.scoreboard } else t
  { t with scoreboard := t.scoreboard.set index ⟨left, right⟩ }

/-- The loop of `receive_sack_option` over the blocks, from the given index on. -/
def receiveBlocks (t : Tcb) : List SackData → ℕ → Tcb
  | [], _ => t
  | data :: rest, i =>
    receiveBlocks ((t.updateSackFlag data.leftEdge data.rightEdge).updateScoreboard data.leftEdge
      data.rightEdge i) rest (i + 1)

/-- The entries of the scoreboard from the given index on are cleared. -/
def clearScoreboard (t : Tcb) (i : ℕ) : Tcb :=
  (List.range' i (4 - i)).foldl (fun t i => t.updateScoreboard 0 0 i) t

/-- `receive_sack_option`. -/
def receiveSackOption (t : Tcb) (hdr : SegmentHdr) : Tcb :=
  let t := { t with isSackOption := false }
  if !t.isSackPermitted then t
  else
    match hdr.sack with
    | none => t
    | some [] => t
    | some (data :: rest) =>
      let t := { t with isSackOption := true }
      (t.receiveBlocks (data :: rest) 0).clearScoreboard (rest.length + 1)

/-- The loop of `tcp_sack_isLost`, with the counter `c`. -/
def isLostLoop (smss seqNum : UInt32) : UInt32 → List SackData → Bool
  | _, [] => false
  | c, data :: rest =>
    let c := c + (data.rightEdge - data.leftEdge) / smss
    if c ≥ tcpDupThresh then true
    else if data.rightEdge > (tcpDupThresh - 1) * smss + seqNum then true
    else isLostLoop smss seqNum c rest

/-- `tcp_sack_isLost`. -/
def isLost (t : Tcb) (seqNum : UInt32) : Bool :=
  let smss := t.getMss.toUInt32
  if (t.scoreboard.headD ⟨0, 0⟩).leftEdge ≥ seqNum + smss then isLostLoop smss seqNum 0 t.scoreboard
  else false

/-- What one round of `tcp_sack_setPipe` adds for `s1`. -/
def pipeWeight (t : Tcb) (s1 : UInt32) : UInt32 :=
  (if t.isLost s1 then 0 else t.getMss.toUInt32) + if s1 ≤ t.highRxt then t.getMss.toUInt32 else 0

/-- A round of `tcp_sack_setPipe`, on `s1` and `pipe`. -/
def setPipeRound (t : Tcb) (s : UInt32 × UInt32) : (UInt32 × UInt32) ⊕ UInt32 :=
  if s.1 < t.snd.nxt then .inl (s.1 + t.getMss.toUInt32, s.2 + t.pipeWeight s.1) else .inr s.2

/-- `tcp_sack_setPipe`. -/
def setPipe (t : Tcb) (rounds : ℕ) : Option Tcb :=
  (Loop.run t.setPipeRound rounds (t.snd.una, 0)).map fun pipe => { t with pipe := pipe }

/-- The first segment that is not SACKed, is above `HighRxt`, passes the test and has a SACKed
segment behind it in the queue. -/
def nextUnsacked (highRxt : UInt32) (test : UInt32 → Bool) : List QueueInfo → Option UInt32
  | [] => none
  | info :: rest =>
    if !info.isSacked && (info.seqNum > highRxt && test info.seqNum) && rest.any (·.isSacked) then
      some info.seqNum
    else nextUnsacked highRxt test rest

end Tcb

namespace Socket

/-- `tcp_sack_nextSeg`: its rules in order. The second one looks at the packet that waits in the
interface. -/
def nextSeg (lib : SocketLib σ) (s : Socket σ) : UInt32 × Socket σ :=
  let t := s.tcb
  match Tcb.nextUnsacked t.highRxt t.isLost t.retransmissionQueue.queue with
  | some s2 => (s2, s)
  | none =>
    let s := { s with tcb := { t with snd := { t.snd with wnd := t.getWnd.toUInt32 } } }
    if (s.peek lib).any fun p => s.fits (UInt32.ofNat p.packetSize) then (s.tcb.snd.nxt, s)
    else
      match Tcb.nextUnsacked t.highRxt (fun _ => true) t.retransmissionQueue.queue with
      | some s2 => (s2, s)
      | none => (0, s)

/-- A segment below `SND.NXT` is resent by `tcp_sack_lossRecoveryPhase`. -/
def resendLost (s : Socket σ) (nextSeg : UInt32) : Socket σ :=
  let s := s.resendSegmentWithoutTimeout nextSeg
  { s with tcb := s.tcb.setHighRxt nextSeg }

/-- New data is sent by `tcp_sack_lossRecoveryPhase`, with its length. -/
def sendNew (lib : SocketLib σ) (now : ℚ) (s : Socket σ) : Socket σ × UInt32 :=
  let prev := s.tcb.snd.nxt
  let s := s.sendSegment lib now
  let len := s.tcb.snd.nxt - prev
  ({ s with tcb := { s.tcb with pipe := s.tcb.pipe + len } }, len)

/-- A round of `tcp_sack_lossRecoveryPhase`, with the local variable `pipe`. -/
def recoveryRound (lib : SocketLib σ) (now : ℚ) (wnd mss : UInt32) (r : Socket σ × UInt32) :
    (Socket σ × UInt32) ⊕ Socket σ :=
  if wnd ≥ mss + r.2 then
    let (nextSeg, s) := r.1.nextSeg lib
    if nextSeg = 0 then .inr s
    else if nextSeg < s.tcb.snd.nxt then .inl (s.resendLost nextSeg, r.2)
    else .inl ((s.sendNew lib now).1, r.2 + (s.sendNew lib now).2)
  else .inr r.1

/-- `tcp_sack_lossRecoveryPhase`. -/
def lossRecoveryPhase (lib : SocketLib σ) (now : ℚ) (rounds : ℕ) (s : Socket σ) :
    Option (Bool × Socket σ) :=
  if s.tcb.seg.ack > s.tcb.recoveryPoint then some (false, s)
  else do
    let t ← s.tcb.setPipe rounds
    let s ← Loop.run (recoveryRound lib now t.getWnd.toUInt32 t.getMss.toUInt32) rounds
      ({ s with tcb := t }, t.pipe)
    return (true, s)

/-- `tcp_sack_fastRetransmit`. -/
def sackFastRetransmit (rounds : ℕ) (s : Socket σ) : Option (Socket σ) :=
  if s.tcb.isSackOption then do
    let t ← { s.tcb with recoveryPoint := s.tcb.snd.nxt }.setPipe rounds
    return { s with tcb := t }
  else some s

end Socket

end NetSim.Tcp
