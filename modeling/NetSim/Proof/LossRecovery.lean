import NetSim.Lib.FirstMatch
import NetSim.Proof.SackQueue
import NetSim.Proof.TcpQueue

/-!
# The loss recovery phase

A round of `tcp_sack_lossRecoveryPhase` resends a segment or sends new data. Only new data is added to
`pipe`, so every segment that may be resent is resent, whatever the congestion window is.

* `resendable`: the segments that rule 1 or rule 3 of `NextSeg` resends, in one pass over the queue.
* `admitted`: the new data that the send window takes.
* `recoveryOctets`: what a call sends in total.
* `sackRecovery_iff`: when the octets in flight are counted as by RFC 6675 and the call stays within the
  congestion window.
-/

namespace NetSim.Tcp

variable {σ : Type} {lib : SocketLib σ} {now : ℚ}

/-! ## One pass over the queue -/

section Pass

variable {test : UInt32 → Bool} {highRxt highRxt' : UInt32} {info : QueueInfo} {l q : List QueueInfo}

/-- A rule of `NextSeg` takes the segment. -/
def takes (test : UInt32 → Bool) (highRxt : UInt32) (info : QueueInfo) (rest : List QueueInfo) : Bool :=
  !info.isSacked && (info.seqNum > highRxt && test info.seqNum) && rest.any (·.isSacked)

/-- The segments that a rule takes one after the other, where each becomes `HighRxt`. -/
def resendable (test : UInt32 → Bool) : UInt32 → List QueueInfo → List QueueInfo
  | _, [] => []
  | highRxt, info :: rest =>
    if takes test highRxt info rest then info :: resendable test info.seqNum rest
    else resendable test highRxt rest

/-- `HighRxt` when the segments have been resent. -/
def lastResent (highRxt : UInt32) (l : List QueueInfo) : UInt32 := l.foldl (fun _ info => info.seqNum) highRxt

/-- The octets of the segments. -/
def octets (l : List QueueInfo) : ℕ := (l.map fun info => info.packet.payload).sum

theorem takes_iff : takes test highRxt info l = true ↔
    info.isSacked = false ∧ highRxt < info.seqNum ∧ test info.seqNum = true ∧
      l.any (·.isSacked) = true := by
  unfold takes
  simp only [Bool.and_eq_true, Bool.not_eq_true', decide_eq_true_eq, gt_iff_lt, and_assoc]

theorem resendable_of_takes (h : takes test highRxt info l = true) :
    resendable test highRxt (info :: l) = info :: resendable test info.seqNum l := if_pos h

theorem resendable_of_not_takes (h : takes test highRxt info l = false) :
    resendable test highRxt (info :: l) = resendable test highRxt l :=
  if_neg (ne_true_of_eq_false h)

/-- A higher `HighRxt` takes nothing more. -/
theorem takes_mono (hle : highRxt ≤ highRxt') (h : takes test highRxt' info l = true) :
    takes test highRxt info l = true := by
  obtain ⟨hsacked, hlt, htest, hany⟩ := takes_iff.1 h
  exact takes_iff.2 ⟨hsacked, UInt32.lt_of_le_of_lt hle hlt, htest, hany⟩

/-- The rule finds the first of the segments. -/
theorem nextUnsacked_eq (q : List QueueInfo) :
    Tcb.nextUnsacked highRxt test q = (resendable test highRxt q).head?.map (·.seqNum) := by
  induction q with
  | nil => rfl
  | cons a rest ih =>
    unfold Tcb.nextUnsacked
    cases htakes : takes test highRxt a rest with
    | true =>
      rw [resendable_of_takes htakes]
      exact if_pos htakes
    | false =>
      rw [resendable_of_not_takes htakes, ← ih]
      exact if_neg (ne_true_of_eq_false htakes)

theorem mem_resendable (h : info ∈ resendable test highRxt q) :
    info ∈ q ∧ info.isSacked = false ∧ highRxt < info.seqNum := by
  induction q generalizing highRxt with
  | nil => exact absurd h List.not_mem_nil
  | cons a rest ih =>
    cases htakes : takes test highRxt a rest with
    | true =>
      obtain ⟨hsacked, hlt, -⟩ := takes_iff.1 htakes
      rw [resendable_of_takes htakes] at h
      rcases List.mem_cons.1 h with rfl | h
      · exact ⟨List.mem_cons_self, hsacked, hlt⟩
      · obtain ⟨hmem, hsacked', hlt'⟩ := ih h
        exact ⟨List.mem_cons_of_mem _ hmem, hsacked', UInt32.lt_trans hlt hlt'⟩
    | false =>
      rw [resendable_of_not_takes htakes] at h
      obtain ⟨hmem, hrest⟩ := ih h
      exact ⟨List.mem_cons_of_mem _ hmem, hrest⟩

/-- When the first segment has been resent, the others are left. -/
theorem resendable_tail (h : resendable test highRxt q = info :: l) :
    resendable test info.seqNum q = l := by
  have hlt : highRxt < info.seqNum := (mem_resendable (h ▸ List.mem_cons_self)).2.2
  induction q with
  | nil => cases h
  | cons a rest ih =>
    cases htakes : takes test highRxt a rest with
    | true =>
      rw [resendable_of_takes htakes] at h
      obtain ⟨rfl, rfl⟩ := List.cons.inj h
      refine resendable_of_not_takes (Bool.eq_false_iff.2 fun hself => ?_)
      exact absurd (takes_iff.1 hself).2.1 (UInt32.lt_irrefl _)
    | false =>
      rw [resendable_of_not_takes htakes] at h
      have hnot : takes test info.seqNum a rest = false :=
        Bool.eq_false_iff.2 fun hlater =>
          ne_true_of_eq_false htakes (takes_mono (UInt32.le_of_lt hlt) hlater)
      rw [resendable_of_not_takes hnot]
      exact ih h

theorem resendable_nil (hle : highRxt ≤ highRxt') (h : resendable test highRxt q = []) :
    resendable test highRxt' q = [] := by
  induction q with
  | nil => rfl
  | cons a rest ih =>
    cases htakes : takes test highRxt a rest with
    | true =>
      rw [resendable_of_takes htakes] at h
      cases h
    | false =>
      rw [resendable_of_not_takes htakes] at h
      have hnot : takes test highRxt' a rest = false :=
        Bool.eq_false_iff.2 fun hlater => ne_true_of_eq_false htakes (takes_mono hle hlater)
      rw [resendable_of_not_takes hnot]
      exact ih h

/-- Segments at the end of the queue that are not SACKed make no difference. -/
theorem resendable_append {extra : List QueueInfo} (hextra : ∀ info ∈ extra, info.isSacked = false) :
    resendable test highRxt (q ++ extra) = resendable test highRxt q := by
  induction q generalizing highRxt with
  | nil =>
    induction extra generalizing highRxt with
    | nil => rfl
    | cons a rest ih =>
      have hnone : rest.any (·.isSacked) = false :=
        List.any_eq_false.2 fun info h => ne_true_of_eq_false (hextra info (List.mem_cons_of_mem _ h))
      have hnot : takes test highRxt a rest = false := by
        unfold takes
        rw [hnone, Bool.and_false]
      rw [List.nil_append, resendable_of_not_takes hnot]
      exact ih fun info h => hextra info (List.mem_cons_of_mem _ h)
  | cons a rest ih =>
    have hany : (rest ++ extra).any (·.isSacked) = rest.any (·.isSacked) := by
      have hnone : extra.any (·.isSacked) = false :=
        List.any_eq_false.2 fun info h => ne_true_of_eq_false (hextra info h)
      rw [List.any_append, hnone, Bool.or_false]
    rw [List.cons_append, resendable, resendable, takes, takes, hany, ih, ih]

end Pass

/-! ## New data -/

/-- The octets of the packets that wait. -/
def appOctets (l : List AppPacket) : ℕ := (l.map (·.packetSize)).sum

/-- The packets that `send_segment` takes, given `SND.NXT` and the right edge of the window. -/
def admitted (limit : ℕ) : ℕ → List AppPacket → List AppPacket
  | _, [] => []
  | nxt, p :: rest =>
    if nxt + p.packetSize ≤ limit then p :: admitted limit (nxt + p.packetSize) rest else []

/-- The octets that `send_to_network` has got. -/
def Socket.octets (s : Socket σ) : ℕ := (s.network.map (·.payload)).sum

/-- Packets wait, and the comparisons for them do not wrap: `SND.NXT` and what waits, the window that `send_segment` opens
and the smaller one of `NextSeg`. -/
structure Socket.PlainData (lib : SocketLib σ) (s : Socket σ) : Prop where
  pos : 0 < s.tcb.snd.nxt
  nxt : s.tcb.snd.nxt.toNat + appOctets (lib.waiting s.sId) < 4294967296
  window : s.tcb.snd.una.toNat + s.tcb.windowScaleGetCwnd.toNat < 4294967296
  scaled : s.tcb.getWnd.toUInt32 ≤ s.tcb.windowScaleGetCwnd

/-- The segments in the queue are distinct and below `SND.NXT`, and either no packet waits or nothing wraps. -/
structure Socket.Plain (lib : SocketLib σ) (s : Socket σ) : Prop where
  below : ∀ info ∈ s.tcb.retransmissionQueue.queue, info.seqNum < s.tcb.snd.nxt
  distinct : (s.tcb.retransmissionQueue.queue.map (·.seqNum)).Nodup
  data : lib.waiting s.sId = [] ∨ s.PlainData lib

/-- What the phase leaves alone, and where new segments are queued. -/
structure Recovering (lib : SocketLib σ) (s₀ s : Socket σ) : Prop where
  congestion : s.tcb.congestion = s₀.tcb.congestion
  scaling : s.tcb.isWindowScaling = s₀.tcb.isWindowScaling
  shift : s.tcb.windShift = s₀.tcb.windShift
  scoreboard : s.tcb.scoreboard = s₀.tcb.scoreboard
  una : s.tcb.snd.una = s₀.tcb.snd.una
  le : s₀.tcb.snd.nxt ≤ s.tcb.snd.nxt
  total : s.tcb.snd.nxt.toNat + appOctets (lib.waiting s.sId) =
    s₀.tcb.snd.nxt.toNat + appOctets (lib.waiting s₀.sId)
  idle : lib.waiting s₀.sId = [] → lib.waiting s.sId = []
  queue : ∃ extra, s.tcb.retransmissionQueue.queue = s₀.tcb.retransmissionQueue.queue ++ extra ∧
    ∀ info ∈ extra, info.isSacked = false

namespace Recovering

variable {s₀ s s' : Socket σ}

theorem refl (s : Socket σ) : Recovering lib s s :=
  ⟨rfl, rfl, rfl, rfl, rfl, UInt32.le_refl _, rfl, id, [], (List.append_nil _).symm,
    fun _ hinfo => absurd hinfo List.not_mem_nil⟩

theorem isLost (h : Recovering lib s₀ s) : s.tcb.isLost = s₀.tcb.isLost := by
  funext seq
  unfold Tcb.isLost Tcb.getMss
  rw [h.congestion, h.scoreboard]

theorem getWnd (h : Recovering lib s₀ s) : s.tcb.getWnd = s₀.tcb.getWnd := by
  unfold Tcb.getWnd
  rw [h.congestion]

theorem windowScaleGetCwnd (h : Recovering lib s₀ s) :
    s.tcb.windowScaleGetCwnd = s₀.tcb.windowScaleGetCwnd := by
  unfold Tcb.windowScaleGetCwnd Tcb.getWnd Tcb.getMss
  rw [h.congestion, h.scaling, h.shift]

theorem resendable (h : Recovering lib s₀ s) (test : UInt32 → Bool) (highRxt : UInt32) :
    resendable test highRxt s.tcb.retransmissionQueue.queue =
      resendable test highRxt s₀.tcb.retransmissionQueue.queue := by
  obtain ⟨extra, hqueue, hextra⟩ := h.queue
  rw [hqueue, resendable_append hextra]

/-- The window that `NextSeg` sets. -/
theorem setWnd (h : Recovering lib s₀ s) (wnd : UInt32) :
    Recovering lib s₀ { s with tcb := { s.tcb with snd := { s.tcb.snd with wnd := wnd } } } :=
  ⟨h.congestion, h.scaling, h.shift, h.scoreboard, h.una, h.le, h.total, h.idle, h.queue⟩

/-- A new segment is put behind those with smaller numbers. -/
theorem insertNode_append {ninfo : QueueInfo} {q extra : List QueueInfo}
    (hq : ∀ info ∈ q, info.seqNum < ninfo.seqNum) :
    TcpQueue.insertNode ninfo (q ++ extra) = q ++ TcpQueue.insertNode ninfo extra := by
  induction q with
  | nil => rfl
  | cons a rest ih =>
    rw [List.cons_append, TcpQueue.insertNode, if_pos (hq a List.mem_cons_self),
      ih fun info h => hq info (List.mem_cons_of_mem _ h), List.cons_append]

/-! ### A segment is resent -/

/-- What resending a segment does. -/
structure Resent (lib : SocketLib σ) (s₀ s s' : Socket σ) (l : List QueueInfo) : Prop where
  recovering : Recovering lib s₀ s'
  highRxt : s'.tcb.highRxt = lastResent s.tcb.highRxt l
  octets : s'.octets = s.octets + NetSim.Tcp.octets l
  nxt : s'.tcb.snd.nxt = s.tcb.snd.nxt
  sId : s'.sId = s.sId

theorem setHighRxt (h : Recovering lib s₀ s) (seq : UInt32) :
    Recovering lib s₀ { s with tcb := s.tcb.setHighRxt seq } :=
  ⟨h.congestion, h.scaling, h.shift, h.scoreboard, h.una, h.le, h.total, h.idle, h.queue⟩

theorem setRescueRxt (h : Recovering lib s₀ s) (seq : UInt32) :
    Recovering lib s₀ { s with tcb := s.tcb.setRescueRxt seq } :=
  ⟨h.congestion, h.scaling, h.shift, h.scoreboard, h.una, h.le, h.total, h.idle, h.queue⟩

theorem sendToNetwork (h : Recovering lib s₀ s) (packet : Packet) :
    Recovering lib s₀ (s.sendToNetwork packet) :=
  ⟨h.congestion, h.scaling, h.shift, h.scoreboard, h.una, h.le, h.total, h.idle, h.queue⟩

theorem resendLost (h : Recovering lib s₀ s) (hplain : s₀.Plain lib) {info : QueueInfo}
    (hmem : info ∈ s₀.tcb.retransmissionQueue.queue) (hsacked : info.isSacked = false)
    (hhigh : s.tcb.highRxt < info.seqNum) : Resent lib s₀ s (s.resendLost info.seqNum) [info] := by
  obtain ⟨extra, hqueue, hextra⟩ := h.queue
  have hfind : s.tcb.retransmissionQueue.getCopySegmentFromQueue info.seqNum =
      some (info.packet, info.isSacked) := by
    unfold TcpQueue.getCopySegmentFromQueue
    rw [hqueue, List.find?_append, FirstMatch.find?_key hplain.distinct hmem]
    rfl
  have hresend : s.resendSegmentWithoutTimeout info.seqNum =
      Socket.sendToNetwork { s with tcb := (s.tcb.setHighRxt info.seqNum).setRescueRxt info.seqNum }
        info.packet := by
    unfold Socket.resendSegmentWithoutTimeout
    rw [hfind, hsacked]
    dsimp only
    rw [Bool.and_false, if_neg Bool.false_ne_true]
  have hr := (((h.setHighRxt info.seqNum).setRescueRxt info.seqNum).sendToNetwork info.packet).setHighRxt
    info.seqNum
  unfold Socket.resendLost
  rw [hresend]
  refine ⟨hr, ?_, ?_, rfl, rfl⟩
  · have hmax : max s.tcb.highRxt info.seqNum = info.seqNum := if_pos (UInt32.le_of_lt hhigh)
    exact (congrArg (max · info.seqNum) hmax).trans (if_pos (UInt32.le_refl _))
  · have hpayload : NetSim.Tcp.octets [info] = info.packet.payload := Nat.add_zero _
    rw [hpayload]
    exact (congrArg List.sum List.map_append).trans List.sum_append

/-! ### New data is sent -/

/-- What sending new packets does. -/
structure Sent (lib : SocketLib σ) (s₀ s s' : Socket σ) (new : List AppPacket) : Prop where
  recovering : Recovering lib s₀ s'
  highRxt : s'.tcb.highRxt = s.tcb.highRxt
  octets : s'.octets = s.octets + appOctets new
  nxt : s'.tcb.snd.nxt.toNat = s.tcb.snd.nxt.toNat + appOctets new
  waiting : lib.waiting s.sId = new ++ lib.waiting s'.sId

theorem Sent.trans {s'' : Socket σ} {new new' : List AppPacket} (h : Sent lib s₀ s s' new)
    (h' : Sent lib s₀ s' s'' new') : Sent lib s₀ s s'' (new ++ new') := by
  have happ : appOctets (new ++ new') = appOctets new + appOctets new' :=
    (congrArg List.sum List.map_append).trans List.sum_append
  refine ⟨h'.recovering, h'.highRxt.trans h.highRxt, ?_, ?_, ?_⟩
  · rw [h'.octets, h.octets, happ, Nat.add_assoc]
  · rw [h'.nxt, h.nxt, happ, Nat.add_assoc]
  · rw [h.waiting, h'.waiting, List.append_assoc]

/-- What is taken from the interface, and that the packet behind it does not fit. -/
theorem exists_rest (limit nxt : ℕ) (l : List AppPacket) :
    ∃ rest, l = admitted limit nxt l ++ rest ∧
      ∀ p ∈ rest.head?, limit < nxt + appOctets (admitted limit nxt l) + p.packetSize := by
  induction l generalizing nxt with
  | nil => exact ⟨[], rfl, nofun⟩
  | cons p l ih =>
    unfold admitted
    split
    · obtain ⟨rest, hl, hrest⟩ := ih (nxt + p.packetSize)
      refine ⟨rest, congrArg _ hl, fun p' hp' => ?_⟩
      have happ : appOctets (p :: admitted limit (nxt + p.packetSize) l) =
          p.packetSize + appOctets (admitted limit (nxt + p.packetSize) l) := List.sum_cons
      have hlt := hrest p' hp'
      omega
    · rename_i hnot
      refine ⟨p :: l, rfl, fun p' hp' => ?_⟩
      obtain rfl := Option.some.inj hp'
      have hzero : appOctets [] = 0 := rfl
      omega

theorem plainData (h : Recovering lib s₀ s) (hplain : s₀.Plain lib) (hne : lib.waiting s.sId ≠ []) :
    s₀.PlainData lib := hplain.data.resolve_left fun hnil => hne (h.idle hnil)

theorem nxt_lt (h : Recovering lib s₀ s) (hdata : s₀.PlainData lib) :
    s.tcb.snd.nxt.toNat + appOctets (lib.waiting s.sId) < 4294967296 := h.total ▸ hdata.nxt

/-- The test of `send_segment` for the packet in front, if nothing wraps. -/
theorem fits_iff (h : Recovering lib s₀ s) (hplain : s₀.Plain lib) {p : AppPacket}
    {rest : List AppPacket} (hwaiting : lib.waiting s.sId = p :: rest)
    (hwnd : s.tcb.snd.wnd.toNat + s.tcb.snd.una.toNat < 4294967296) :
    s.fits (UInt32.ofNat p.packetSize) ↔
      s.tcb.snd.nxt.toNat + p.packetSize ≤ s.tcb.snd.wnd.toNat + s.tcb.snd.una.toNat := by
  have hlt := h.nxt_lt (h.plainData hplain (hwaiting ▸ List.cons_ne_nil p rest))
  have happ : appOctets (p :: rest) = p.packetSize + appOctets rest := List.sum_cons
  rw [hwaiting, happ] at hlt
  unfold Socket.fits
  rw [UInt32.le_iff_toNat_le, UInt32.toNat_add, UInt32.toNat_add, UInt32.toNat_ofNat']
  omega

theorem sendNext (now : ℚ) (h : Recovering lib s₀ s) (hplain : s₀.Plain lib) {p : AppPacket}
    {rest : List AppPacket} (hwaiting : lib.waiting s.sId = p :: rest) :
    Sent lib s₀ s (s.sendNext lib now (UInt32.ofNat p.packetSize)) [p] ∧
      (s.sendNext lib now (UInt32.ofNat p.packetSize)).tcb.snd.wnd = s.tcb.snd.wnd := by
  have hlt := h.nxt_lt (h.plainData hplain (hwaiting ▸ List.cons_ne_nil p rest))
  have happ : appOctets (p :: rest) = p.packetSize + appOctets rest := List.sum_cons
  rw [hwaiting, happ] at hlt
  have hone : appOctets [p] = p.packetSize := Nat.add_zero _
  have hnxt : (s.tcb.snd.nxt + UInt32.ofNat p.packetSize).toNat =
      s.tcb.snd.nxt.toNat + p.packetSize := by
    rw [UInt32.toNat_add, UInt32.toNat_ofNat']
    omega
  have htail : lib.waiting (lib.getPacketFromInterface s.sId true).2 = rest := by
    rw [lib.move_waiting, hwaiting]
    rfl
  have hget : lib.getPacketFromInterface s.sId true =
      (some p, (lib.getPacketFromInterface s.sId true).2) := by
    refine Prod.ext ?_ rfl
    rw [lib.move_fst, hwaiting]
    rfl
  obtain ⟨extra, hqueue, hextra⟩ := h.queue
  unfold Socket.sendNext
  rw [hget]
  refine ⟨⟨⟨h.congestion, h.scaling, h.shift, h.scoreboard, h.una, ?_, ?_, ?_, ?_⟩, rfl, ?_, ?_, ?_⟩, rfl⟩
  · have hle := h.le
    rw [UInt32.le_iff_toNat_le] at hle ⊢
    exact hle.trans ((Nat.le_add_right _ _).trans hnxt.ge)
  · have htotal := h.total
    rw [hwaiting, happ] at htotal
    rw [← htotal, ← Nat.add_assoc]
    exact congrArg₂ (· + ·) hnxt (congrArg appOctets htail)
  · intro hnil
    exact absurd (hwaiting.symm.trans (h.idle hnil)) (List.cons_ne_nil p rest)
  · -- the new segment is behind those that the queue had
    refine ⟨TcpQueue.insertNode ⟨addTcpHdr s.tcb p, now, false⟩ extra, ?_, fun info hinfo => ?_⟩
    · refine (congrArg _ hqueue).trans (insertNode_append fun info hinfo => ?_)
      exact UInt32.lt_of_lt_of_le (hplain.below info hinfo) h.le
    · rcases List.mem_cons.1 ((TcpQueue.insertNode_perm ..).mem_iff.1 hinfo) with rfl | hinfo
      · rfl
      · exact hextra info hinfo
  · rw [hone]
    exact (congrArg List.sum List.map_append).trans List.sum_append
  · rw [hone]
    exact hnxt
  · rw [hwaiting]
    exact congrArg (p :: ·) htail.symm

theorem sendLoop (now : ℚ) (h : Recovering lib s₀ s) (hplain : s₀.Plain lib) {limit : ℕ}
    (hlimit : s.tcb.snd.wnd.toNat + s₀.tcb.snd.una.toNat = limit)
    (hlt : lib.waiting s.sId ≠ [] → limit < 4294967296) {n : ℕ}
    (hn : (lib.waiting s.sId).length ≤ n) :
    Sent lib s₀ s (s.sendLoop lib now n)
      (admitted limit s.tcb.snd.nxt.toNat (lib.waiting s.sId)) := by
  have hsame : Sent lib s₀ s s [] := ⟨h, rfl, rfl, rfl, rfl⟩
  induction n generalizing s with
  | zero =>
    rw [List.eq_nil_of_length_eq_zero (Nat.le_zero.1 hn)]
    exact hsame
  | succ n ih =>
    unfold Socket.sendLoop Socket.peek
    rw [lib.peek]
    dsimp only
    cases hwaiting : lib.waiting s.sId with
    | nil => exact hsame
    | cons p rest =>
      have hlt' : limit < 4294967296 := hlt (hwaiting ▸ List.cons_ne_nil p rest)
      have hfits := h.fits_iff hplain hwaiting (by rw [h.una, hlimit]; exact hlt')
      rw [h.una, hlimit] at hfits
      dsimp only [List.head?_cons]
      unfold admitted
      by_cases hfit : s.tcb.snd.nxt.toNat + p.packetSize ≤ limit
      · rw [if_pos (hfits.2 hfit), if_pos hfit]
        obtain ⟨hsent, hwnd⟩ := h.sendNext now hplain hwaiting
        have hnxt : (s.sendNext lib now (UInt32.ofNat p.packetSize)).tcb.snd.nxt.toNat =
            s.tcb.snd.nxt.toNat + p.packetSize := hsent.nxt
        have hrest : lib.waiting (s.sendNext lib now (UInt32.ofNat p.packetSize)).sId = rest :=
          (List.cons.inj (hwaiting.symm.trans hsent.waiting)).2.symm
        have hlen : rest.length ≤ n := by
          rw [hwaiting, List.length_cons] at hn
          omega
        have hnext := ih hsent.recovering (hwnd ▸ hlimit) (fun _ => hlt') (hrest ▸ hlen)
          ⟨hsent.recovering, rfl, rfl, rfl, rfl⟩
        rw [hnxt, hrest] at hnext
        exact hsent.trans hnext
      · rw [if_neg (mt hfits.1 hfit), if_neg hfit]
        exact hsame

/-- Closing sends no octets. -/
theorem Sent.tcpClose {new : List AppPacket} (h : Sent lib s₀ s s' new) :
    Sent lib s₀ s s'.tcpClose new := by
  unfold Socket.tcpClose
  split
  · exact h
  · have hoctets : s'.sendFin.octets = s'.octets :=
      (congrArg List.sum List.map_append).trans List.sum_append
    have hstate : ∀ t : Tcb, ∀ state, t.changeState state = t ∨
        t.changeState state = { t with tcpPrevState := t.tcpState, tcpState := state } := by
      intro t state
      unfold Tcb.changeState
      split
      · exact .inl rfl
      · exact .inr rfl
    have hr := h.recovering
    dsimp only
    rcases hstate s'.sendFin.tcb .finWait1 with hchange | hchange <;> rw [hchange]
    · exact ⟨⟨hr.congestion, hr.scaling, hr.shift, hr.scoreboard, hr.una, hr.le, hr.total, hr.idle, hr.queue⟩,
        h.highRxt, hoctets.trans h.octets, h.nxt, h.waiting⟩
    · exact ⟨⟨hr.congestion, hr.scaling, hr.shift, hr.scoreboard, hr.una, hr.le, hr.total, hr.idle, hr.queue⟩,
        h.highRxt, hoctets.trans h.octets, h.nxt, h.waiting⟩

theorem sendSegment (now : ℚ) (h : Recovering lib s₀ s) (hplain : s₀.Plain lib) :
    Sent lib s₀ s (s.sendSegment lib now) (admitted
      (s₀.tcb.windowScaleGetCwnd.toNat + s₀.tcb.snd.una.toNat) s.tcb.snd.nxt.toNat
      (lib.waiting s.sId)) := by
  have hopen : Recovering lib s₀ (s.openSendWindow lib) :=
    ⟨h.congestion, h.scaling, h.shift, h.scoreboard, h.una, h.le, h.total, h.idle, h.queue⟩
  have hwnd : (s.openSendWindow lib).tcb.snd.wnd = s₀.tcb.windowScaleGetCwnd := h.windowScaleGetCwnd
  have hloop := hopen.sendLoop now hplain (congrArg (·.toNat + _) hwnd)
    (fun hne => Nat.add_comm _ _ ▸ (h.plainData hplain hne).window) (le_refl (lib.waiting s.sId).length)
  have hsent : Sent lib s₀ s ((s.openSendWindow lib).sendLoop lib now (lib.waiting s.sId).length) _ :=
    ⟨hloop.recovering, hloop.highRxt, hloop.octets, hloop.nxt, hloop.waiting⟩
  unfold Socket.sendSegment
  dsimp only
  split
  · exact hsent.tcpClose
  · exact hsent

theorem sendNew (now : ℚ) (h : Recovering lib s₀ s) (hplain : s₀.Plain lib) {new : List AppPacket}
    (hnew : admitted (s₀.tcb.windowScaleGetCwnd.toNat + s₀.tcb.snd.una.toNat) s.tcb.snd.nxt.toNat
      (lib.waiting s.sId) = new) :
    Sent lib s₀ s (s.sendNew lib now).1 new ∧ (s.sendNew lib now).2.toNat = appOctets new := by
  have hsent := h.sendSegment now hplain
  rw [hnew] at hsent
  have hr := hsent.recovering
  refine ⟨⟨⟨hr.congestion, hr.scaling, hr.shift, hr.scoreboard, hr.una, hr.le, hr.total, hr.idle, hr.queue⟩,
    hsent.highRxt, hsent.octets, hsent.nxt, hsent.waiting⟩, ?_⟩
  have hnxt := hsent.nxt
  have hlt := (s.sendSegment lib now).tcb.snd.nxt.toNat_lt
  refine (UInt32.toNat_sub ..).trans ?_
  omega

/-! ### The rounds -/

/-- No packet waits that fits the window without scaling, so rule 2 of `NextSeg` does not apply. -/
def Idle (lib : SocketLib σ) (s₀ s : Socket σ) : Prop :=
  ∀ p ∈ (lib.waiting s.sId).head?,
    s₀.tcb.getWnd.toNat + s₀.tcb.snd.una.toNat < s.tcb.snd.nxt.toNat + p.packetSize

/-- A socket with another send window. -/
abbrev withWnd (s : Socket σ) (wnd : UInt32) : Socket σ :=
  { s with tcb := { s.tcb with snd := { s.tcb.snd with wnd := wnd } } }

theorem nextSeg_lost (h : Recovering lib s₀ s) {info : QueueInfo} {l : List QueueInfo}
    (hl : NetSim.Tcp.resendable s₀.tcb.isLost s.tcb.highRxt s₀.tcb.retransmissionQueue.queue = info :: l) :
    s.nextSeg lib = (info.seqNum, withWnd s s.tcb.snd.wnd) := by
  unfold Socket.nextSeg
  dsimp only
  rw [nextUnsacked_eq, h.resendable, h.isLost, hl]
  rfl

theorem nextSeg_behind (h : Recovering lib s₀ s)
    (hlost : NetSim.Tcp.resendable s₀.tcb.isLost s.tcb.highRxt s₀.tcb.retransmissionQueue.queue = []) :
    s.nextSeg lib =
      if (s.peek lib).any fun p => (withWnd s s₀.tcb.getWnd.toUInt32).fits (UInt32.ofNat p.packetSize) then
        (s.tcb.snd.nxt, withWnd s s₀.tcb.getWnd.toUInt32)
      else
        (((NetSim.Tcp.resendable (fun _ => true) s.tcb.highRxt
          s₀.tcb.retransmissionQueue.queue).head?.map (·.seqNum)).getD 0,
          withWnd s s₀.tcb.getWnd.toUInt32) := by
  unfold Socket.nextSeg
  dsimp only
  rw [nextUnsacked_eq, nextUnsacked_eq, h.resendable, h.resendable, h.isLost, hlost, h.getWnd]
  dsimp only [List.head?_nil, Option.map_none]
  refine ite_congr rfl (fun _ => rfl) fun _ => ?_
  cases (NetSim.Tcp.resendable (fun _ => true) s.tcb.highRxt
    s₀.tcb.retransmissionQueue.queue).head? with
  | none => rfl
  | some info => rfl

theorem getWnd_toNat (t : Tcb) : t.getWnd.toUInt32.toNat = t.getWnd.toNat := UInt16.toNat_toUInt32 ..

/-- Rule 2, in natural numbers. -/
theorem idle_iff (h : Recovering lib s₀ s) (hplain : s₀.Plain lib) :
    ((s.peek lib).any fun p =>
      (withWnd s s₀.tcb.getWnd.toUInt32).fits (UInt32.ofNat p.packetSize)) = false ↔ Idle lib s₀ s := by
  unfold Idle Socket.peek
  rw [lib.peek]
  cases hwaiting : lib.waiting s.sId with
  | nil => exact ⟨fun _ p hp => (Option.not_mem_none p hp).elim, fun _ => rfl⟩
  | cons p rest =>
    have hdata := h.plainData hplain (hwaiting ▸ List.cons_ne_nil p rest)
    have hscaled := hdata.scaled
    have hwindow := hdata.window
    rw [UInt32.le_iff_toNat_le, getWnd_toNat] at hscaled
    have hwnd : (withWnd s s₀.tcb.getWnd.toUInt32).tcb.snd.wnd.toNat +
        (withWnd s s₀.tcb.getWnd.toUInt32).tcb.snd.una.toNat =
          s₀.tcb.getWnd.toNat + s₀.tcb.snd.una.toNat :=
      congrArg₂ (· + ·) (getWnd_toNat _) (congrArg _ h.una)
    have hfits := (h.setWnd s₀.tcb.getWnd.toUInt32).fits_iff hplain hwaiting
      (hwnd.trans_lt (by omega))
    rw [hwnd] at hfits
    simp only [List.head?_cons, Option.any_some, Option.mem_def, Option.some.injEq, forall_eq',
      decide_eq_false_iff_not, hfits, Nat.not_le]

section Rounds

variable {pipe : UInt32}

/-- The loop that is entered with the socket `s₀`. -/
abbrev loop (lib : SocketLib σ) (now : ℚ) (s₀ : Socket σ) (n : ℕ) (s : Socket σ) (pipe : UInt32) :
    Option (Socket σ) :=
  Loop.run (Socket.recoveryRound lib now s₀.tcb.getWnd.toUInt32 s₀.tcb.getMss.toUInt32) n (s, pipe)

/-- The window has room for one segment. -/
abbrev Room (s₀ : Socket σ) (pipe : UInt32) : Prop :=
  s₀.tcb.getMss.toUInt32 + pipe ≤ s₀.tcb.getWnd.toUInt32

theorem loop_full (hroom : ¬ Room s₀ pipe) (n : ℕ) (s : Socket σ) :
    loop lib now s₀ (n + 1) s pipe = some s := Loop.run_inr (if_neg hroom)

theorem loop_resend (hroom : Room s₀ pipe) {seq wnd : UInt32} (hnext : s.nextSeg lib = (seq, withWnd s wnd))
    (hpos : seq ≠ 0) (hlt : seq < s.tcb.snd.nxt) (n : ℕ) :
    loop lib now s₀ (n + 1) s pipe = loop lib now s₀ n ((withWnd s wnd).resendLost seq) pipe := by
  refine Loop.run_inl ?_
  unfold Socket.recoveryRound
  rw [if_pos hroom, hnext]
  exact (if_neg hpos).trans (if_pos hlt)

theorem loop_new (hroom : Room s₀ pipe) {wnd : UInt32}
    (hnext : s.nextSeg lib = (s.tcb.snd.nxt, withWnd s wnd)) (hpos : s.tcb.snd.nxt ≠ 0) (n : ℕ) :
    loop lib now s₀ (n + 1) s pipe = loop lib now s₀ n ((withWnd s wnd).sendNew lib now).1
      (pipe + ((withWnd s wnd).sendNew lib now).2) := by
  refine Loop.run_inl ?_
  unfold Socket.recoveryRound
  rw [if_pos hroom, hnext]
  exact (if_neg hpos).trans (if_neg (UInt32.lt_irrefl _))

theorem loop_done (hroom : Room s₀ pipe) {wnd : UInt32} (hnext : s.nextSeg lib = (0, withWnd s wnd))
    (n : ℕ) : loop lib now s₀ (n + 1) s pipe = some (withWnd s wnd) := by
  refine Loop.run_inr ?_
  unfold Socket.recoveryRound
  rw [if_pos hroom, hnext]
  exact if_pos rfl

theorem Resent.trans {s'' : Socket σ} {l l' : List QueueInfo} (h : Resent lib s₀ s s' l)
    (h' : Resent lib s₀ s' s'' l') : Resent lib s₀ s s'' (l ++ l') := by
  refine ⟨h'.recovering, ?_, ?_, h'.nxt.trans h.nxt, h'.sId.trans h.sId⟩
  · rw [h'.highRxt, h.highRxt]
    exact List.foldl_append.symm
  · have happ : NetSim.Tcp.octets (l ++ l') = NetSim.Tcp.octets l + NetSim.Tcp.octets l' :=
      (congrArg List.sum List.map_append).trans List.sum_append
    rw [h'.octets, h.octets, happ, Nat.add_assoc]

/-- **A pass**: while a rule finds segments, each round resends one of them. `P` is what makes `NextSeg`
come to the rule. -/
theorem resend_pass (now : ℚ) (hplain : s₀.Plain lib) {test : UInt32 → Bool} {P : Socket σ → Prop}
    (hnext : ∀ s info l, Recovering lib s₀ s → P s →
      NetSim.Tcp.resendable test s.tcb.highRxt s₀.tcb.retransmissionQueue.queue = info :: l →
        ∃ wnd, s.nextSeg lib = (info.seqNum, withWnd s wnd))
    (hkept : ∀ s s' info, P s → s.tcb.highRxt < info.seqNum → Resent lib s₀ s s' [info] → P s')
    (hroom : Room s₀ pipe) {l : List QueueInfo} (h : Recovering lib s₀ s) (hp : P s)
    (hl : NetSim.Tcp.resendable test s.tcb.highRxt s₀.tcb.retransmissionQueue.queue = l) :
    ∃ s', Resent lib s₀ s s' l ∧ P s' ∧
      NetSim.Tcp.resendable test s'.tcb.highRxt s₀.tcb.retransmissionQueue.queue = [] ∧
      ∀ n, loop lib now s₀ (n + l.length) s pipe = loop lib now s₀ n s' pipe := by
  induction l generalizing s with
  | nil => exact ⟨s, ⟨h, rfl, rfl, rfl, rfl⟩, hp, hl, fun _ => rfl⟩
  | cons info l ih =>
    obtain ⟨wnd, hseg⟩ := hnext s info l h hp hl
    obtain ⟨hmem, hsacked, hhigh⟩ := mem_resendable (hl ▸ List.mem_cons_self)
    have hresent : Resent lib s₀ s ((withWnd s wnd).resendLost info.seqNum) [info] := by
      have hr := (h.setWnd wnd).resendLost hplain hmem hsacked hhigh
      exact ⟨hr.recovering, hr.highRxt, hr.octets, hr.nxt, hr.sId⟩
    have hhigh' : ((withWnd s wnd).resendLost info.seqNum).tcb.highRxt = info.seqNum := hresent.highRxt
    have htail := resendable_tail hl
    rw [← hhigh'] at htail
    obtain ⟨s', hr, hp', hnil, hloop⟩ :=
      ih hresent.recovering (hkept s _ info hp hhigh hresent) htail
    refine ⟨s', hresent.trans hr, hp', hnil, fun n => ?_⟩
    have hzero : info.seqNum ≠ 0 := by
      rw [UInt32.lt_iff_toNat_lt] at hhigh
      rw [ne_eq, ← UInt32.toNat_inj]
      have hz : (0 : UInt32).toNat = 0 := rfl
      omega
    have hlt : info.seqNum < s.tcb.snd.nxt := UInt32.lt_of_lt_of_le (hplain.below info hmem) h.le
    rw [List.length_cons, ← Nat.add_assoc, loop_resend hroom hseg hzero hlt]
    exact hloop n

theorem room_iff (s₀ : Socket σ) (pipe : UInt32) (hlt : s₀.tcb.mss + pipe.toNat < 4294967296) :
    Room s₀ pipe ↔ ¬ s₀.tcb.getWnd.toNat < s₀.tcb.mss + pipe.toNat := by
  have hmss : s₀.tcb.getMss.toUInt32.toNat = s₀.tcb.mss := rfl
  unfold Room
  rw [UInt32.le_iff_toNat_le, UInt32.toNat_add, getWnd_toNat, hmss]
  omega

/-- The last pass: rule 3 resends the segments that are left, and the phase ends. -/
theorem others_pass (now : ℚ) (h : Recovering lib s₀ s) (hplain : s₀.Plain lib) (hroom : Room s₀ pipe)
    (hlost : NetSim.Tcp.resendable s₀.tcb.isLost s.tcb.highRxt s₀.tcb.retransmissionQueue.queue = [])
    (hidle : Idle lib s₀ s) : ∃ n s', loop lib now s₀ n s pipe = some s' ∧ s'.octets = s.octets +
      octets (NetSim.Tcp.resendable (fun _ => true) s.tcb.highRxt s₀.tcb.retransmissionQueue.queue) := by
  let P (s : Socket σ) : Prop :=
    NetSim.Tcp.resendable s₀.tcb.isLost s.tcb.highRxt s₀.tcb.retransmissionQueue.queue = [] ∧
      Idle lib s₀ s
  have hbehind : ∀ s, Recovering lib s₀ s → P s → s.nextSeg lib =
      (((NetSim.Tcp.resendable (fun _ => true) s.tcb.highRxt
        s₀.tcb.retransmissionQueue.queue).head?.map (·.seqNum)).getD 0,
        withWnd s s₀.tcb.getWnd.toUInt32) := by
    intro s h hp
    rw [h.nextSeg_behind hp.1, if_neg (ne_true_of_eq_false ((h.idle_iff hplain).2 hp.2))]
  have hnext : ∀ s info l, Recovering lib s₀ s → P s → NetSim.Tcp.resendable (fun _ => true)
      s.tcb.highRxt s₀.tcb.retransmissionQueue.queue = info :: l →
        ∃ wnd, s.nextSeg lib = (info.seqNum, withWnd s wnd) := by
    intro s info l h hp hl
    rw [hbehind s h hp, hl]
    exact ⟨_, rfl⟩
  -- rules 1 and 2 stay out of the way
  have hkept : ∀ s s' info, P s → s.tcb.highRxt < info.seqNum → Resent lib s₀ s s' [info] → P s' := by
    intro s s' info hp hhigh hr
    have hhigh' : s'.tcb.highRxt = info.seqNum := hr.highRxt
    refine ⟨resendable_nil (hhigh' ▸ UInt32.le_of_lt hhigh) hp.1, ?_⟩
    unfold Idle
    rw [hr.sId, hr.nxt]
    exact hp.2
  obtain ⟨s', hr, hp', hnil, hloop⟩ :=
    resend_pass now hplain hnext hkept hroom h ⟨hlost, hidle⟩ rfl
  have hdone := hbehind s' hr.recovering hp'
  rw [hnil] at hdone
  exact ⟨1 + _, _, (hloop 1).trans (loop_done hroom hdone 0), hr.octets⟩

/-- When the window of `send_segment` is used up, nothing that waits fits the smaller one. -/
theorem Sent.idle {new : List AppPacket} (h : Sent lib s₀ s s' new) (hplain : s₀.Plain lib)
    (hnew : admitted (s₀.tcb.windowScaleGetCwnd.toNat + s₀.tcb.snd.una.toNat) s.tcb.snd.nxt.toNat
      (lib.waiting s.sId) = new) : Idle lib s₀ s' := by
  obtain ⟨rest, hrest, hreject⟩ := exists_rest
    (s₀.tcb.windowScaleGetCwnd.toNat + s₀.tcb.snd.una.toNat) s.tcb.snd.nxt.toNat (lib.waiting s.sId)
  rw [hnew] at hrest hreject
  have hwaiting : rest = lib.waiting s'.sId := List.append_cancel_left (hrest.symm.trans h.waiting)
  intro p hp
  have hne : lib.waiting s'.sId ≠ [] := by
    intro hnil
    rw [hnil] at hp
    exact absurd hp (Option.not_mem_none p)
  have hscaled := (h.recovering.plainData hplain hne).scaled
  rw [UInt32.le_iff_toNat_le, getWnd_toNat] at hscaled
  have hlt := hreject p (hwaiting ▸ hp)
  rw [h.nxt]
  omega

/-- A pass of new data, and the last pass if there is still room. -/
theorem new_pass (now : ℚ) (h : Recovering lib s₀ s) (hplain : s₀.Plain lib) (hroom : Room s₀ pipe)
    (hpipe : s₀.tcb.mss + pipe.toNat + appOctets (lib.waiting s.sId) < 4294967296)
    (hlost : NetSim.Tcp.resendable s₀.tcb.isLost s.tcb.highRxt s₀.tcb.retransmissionQueue.queue = [])
    (hidle : ¬ Idle lib s₀ s) {new : List AppPacket}
    (hnew : admitted (s₀.tcb.windowScaleGetCwnd.toNat + s₀.tcb.snd.una.toNat) s.tcb.snd.nxt.toNat
      (lib.waiting s.sId) = new) :
    ∃ n s', loop lib now s₀ n s pipe = some s' ∧ s'.octets = s.octets + (appOctets new +
      if s₀.tcb.getWnd.toNat < s₀.tcb.mss + pipe.toNat + appOctets new then 0
      else octets (NetSim.Tcp.resendable (fun _ => true) s.tcb.highRxt
        s₀.tcb.retransmissionQueue.queue)) := by
  have hbehind := h.nextSeg_behind hlost
  rw [if_pos (Bool.of_not_eq_false (mt (h.idle_iff hplain).1 hidle))] at hbehind
  have hpos : s.tcb.snd.nxt ≠ 0 := by
    have hne : lib.waiting s.sId ≠ [] := by
      intro hnil
      refine hidle fun p hp => ?_
      rw [hnil] at hp
      exact absurd hp (Option.not_mem_none p)
    have hlt := UInt32.lt_of_lt_of_le (h.plainData hplain hne).pos h.le
    exact (UInt32.ne_of_lt hlt).symm
  obtain ⟨hsent, hlen⟩ := (h.setWnd s₀.tcb.getWnd.toUInt32).sendNew now hplain hnew
  have hle : appOctets new ≤ appOctets (lib.waiting s.sId) := by
    have hwaiting : lib.waiting s.sId = new ++ _ := hsent.waiting
    rw [hwaiting]
    unfold appOctets
    rw [List.map_append, List.sum_append]
    exact Nat.le_add_right _ _
  have hpipe' : (pipe + ((withWnd s s₀.tcb.getWnd.toUInt32).sendNew lib now).2).toNat =
      pipe.toNat + appOctets new := by
    rw [UInt32.toNat_add, hlen]
    omega
  have hroom' := room_iff s₀ (pipe + ((withWnd s s₀.tcb.getWnd.toUInt32).sendNew lib now).2) (by omega)
  rw [hpipe', ← Nat.add_assoc] at hroom'
  have hhigh : ((withWnd s s₀.tcb.getWnd.toUInt32).sendNew lib now).1.tcb.highRxt = s.tcb.highRxt :=
    hsent.highRxt
  by_cases hfull : s₀.tcb.getWnd.toNat < s₀.tcb.mss + pipe.toNat + appOctets new
  · rw [if_pos hfull]
    refine ⟨2, _, (loop_new hroom hbehind hpos 1).trans (loop_full (mt hroom'.1 (not_not.2 hfull)) 0 _), ?_⟩
    exact hsent.octets
  · rw [if_neg hfull]
    have hlost' := hhigh ▸ hlost
    have hidle' := hsent.idle hplain hnew
    obtain ⟨n, s', hloop, hoctets⟩ :=
      hsent.recovering.others_pass now hplain (hroom'.2 hfull) hlost' hidle'
    refine ⟨n + 1, s', (loop_new hroom hbehind hpos n).trans hloop, ?_⟩
    rw [hoctets, hsent.octets, hhigh, Nat.add_assoc]
    rfl

end Rounds

end Recovering

/-! ## The phase -/

/-- The octets that a call sends, with `pipe` octets in flight: the lost segments, then the new data if
the packet in front fits the window without scaling, then the other segments unless the new data has
used up the window. -/
def recoveryOctets (lib : SocketLib σ) (s : Socket σ) (pipe : ℕ) : ℕ :=
  let t := s.tcb
  let cwnd := t.getWnd.toNat
  let una := t.snd.una.toNat
  let nxt := t.snd.nxt.toNat
  let lost := resendable t.isLost t.highRxt t.retransmissionQueue.queue
  let others := resendable (fun _ => true) (lastResent t.highRxt lost) t.retransmissionQueue.queue
  let new := admitted (t.windowScaleGetCwnd.toNat + una) nxt (lib.waiting s.sId)
  if cwnd < t.mss + pipe then 0
  else if (lib.waiting s.sId).head?.all fun p => cwnd + una < nxt + p.packetSize then
    octets lost + octets others
  else
    octets lost + (appOctets new + if cwnd < t.mss + pipe + appOctets new then 0 else octets others)

theorem loop_octets (now : ℚ) {s : Socket σ} (hplain : s.Plain lib) {pipe : UInt32}
    (hpipe : s.tcb.mss + pipe.toNat + appOctets (lib.waiting s.sId) < 4294967296) :
    ∃ n s', Recovering.loop lib now s n s pipe = some s' ∧
      s'.octets = s.octets + recoveryOctets lib s pipe.toNat := by
  have hroom := Recovering.room_iff s pipe (by omega)
  unfold recoveryOctets
  dsimp only
  by_cases hfull : s.tcb.getWnd.toNat < s.tcb.mss + pipe.toNat
  · rw [if_pos hfull]
    exact ⟨1, s, Recovering.loop_full (mt hroom.1 (not_not.2 hfull)) 0 s, rfl⟩
  · rw [if_neg hfull]
    have hroom := hroom.2 hfull
    obtain ⟨s₁, hr, -, hnil, hloop⟩ := Recovering.resend_pass now (P := fun _ => True) hplain
      (fun s' info l h _ hl => ⟨_, h.nextSeg_lost hl⟩) (fun _ _ _ _ _ _ => trivial) hroom
      (.refl s) trivial rfl
    have hidle : (lib.waiting s.sId).head?.all
        (fun p => s.tcb.getWnd.toNat + s.tcb.snd.una.toNat < s.tcb.snd.nxt.toNat + p.packetSize) = true ↔
          Recovering.Idle lib s s₁ := by
      unfold Recovering.Idle
      rw [hr.sId, hr.nxt]
      simp only [Option.all_eq_true, decide_eq_true_eq, Option.mem_def]
    by_cases hi : Recovering.Idle lib s s₁
    · rw [if_pos (hidle.2 hi)]
      obtain ⟨n, s', hrun, hoctets⟩ := hr.recovering.others_pass now hplain hroom hnil hi
      refine ⟨n + _, s', (hloop n).trans hrun, ?_⟩
      rw [hoctets, hr.octets, hr.highRxt, Nat.add_assoc]
    · rw [if_neg (mt hidle.1 hi)]
      obtain ⟨n, s', hrun, hoctets⟩ := hr.recovering.new_pass now hplain hroom
        (by rw [hr.sId]; exact hpipe) hnil hi rfl
      refine ⟨n + _, s', (hloop n).trans hrun, ?_⟩
      rw [hoctets, hr.octets, hr.highRxt, hr.nxt, hr.sId, Nat.add_assoc]

/-- **SACK recovery**: `tcp_sack_setPipe` ends with the octets in flight of RFC 6675, and
`tcp_sack_lossRecoveryPhase` ends and sends no more than `cwnd - pipe` octets. -/
def SackRecovery (lib : SocketLib σ) (now : ℚ) (s : Socket σ) : Prop :=
  ∃ rounds t phase s', s.tcb.setPipe rounds = some t ∧ t.pipe.toNat = s.tcb.rfcPipe ∧
    s.lossRecoveryPhase lib now rounds = some (phase, s') ∧
    s'.octets ≤ s.octets + (t.getWnd.toNat - t.pipe.toNat)

/-- The phase has ended, or the window has no room for a segment, or the comparisons of its loop do not wrap. -/
def PhasePlain (lib : SocketLib σ) (s : Socket σ) : Prop :=
  s.tcb.recoveryPoint < s.tcb.seg.ack ∨
    s.tcb.mss + s.tcb.rfcPipe < 4294967296 ∧ s.tcb.getWnd.toNat < s.tcb.mss + s.tcb.rfcPipe ∨
    s.tcb.mss + s.tcb.rfcPipe + appOctets (lib.waiting s.sId) < 4294967296 ∧ s.Plain lib

/-- The phase has ended, or what it sends is within the window. -/
def SendsWithin (lib : SocketLib σ) (s : Socket σ) : Prop :=
  s.tcb.recoveryPoint < s.tcb.seg.ack ∨
    recoveryOctets lib s s.tcb.rfcPipe ≤ s.tcb.getWnd.toNat - s.tcb.rfcPipe

/-- A result of the phase does not depend on the number of rounds. -/
theorem lossRecoveryPhase_of_le {s s' : Socket σ} {rounds rounds' : ℕ} {phase : Bool}
    (h : s.lossRecoveryPhase lib now rounds = some (phase, s')) (hle : rounds ≤ rounds') :
    s.lossRecoveryPhase lib now rounds' = some (phase, s') := by
  unfold Socket.lossRecoveryPhase at h ⊢
  split at h
  · rename_i hack
    rw [if_pos hack]
    exact h
  · rename_i hack
    rw [if_neg hack]
    obtain ⟨t, ht, h⟩ := Option.bind_eq_some_iff.1 h
    obtain ⟨s₁, hs₁, h⟩ := Option.bind_eq_some_iff.1 h
    refine Option.bind_eq_some_iff.2 ⟨t, Tcb.setPipe_of_le ht hle, ?_⟩
    exact Option.bind_eq_some_iff.2 ⟨s₁, Loop.run_of_le hs₁ hle, h⟩

/-- A full window ends the loop at once. -/
theorem loop_full_octets (now : ℚ) {s : Socket σ} {pipe : UInt32} (hlt : s.tcb.mss + pipe.toNat < 4294967296)
    (hfull : s.tcb.getWnd.toNat < s.tcb.mss + pipe.toNat) :
    ∃ n s', Recovering.loop lib now s n s pipe = some s' ∧
      s'.octets = s.octets + recoveryOctets lib s pipe.toNat := by
  refine ⟨1, s, Recovering.loop_full (mt (Recovering.room_iff s pipe hlt).1 (not_not.2 hfull)) 0 s, ?_⟩
  unfold recoveryOctets
  dsimp only
  rw [if_pos hfull, Nat.add_zero]

/-- In the phase, a call sends the octets of `recoveryOctets`. -/
theorem lossRecoveryPhase_octets (now : ℚ) {s : Socket σ} (hphase : PhasePlain lib s) {rounds : ℕ} {t : Tcb}
    (hset : s.tcb.setPipe rounds = some t) (hpipe : t.pipe.toNat = s.tcb.rfcPipe)
    (hack : ¬ s.tcb.seg.ack > s.tcb.recoveryPoint) :
    ∃ rounds' s', rounds ≤ rounds' ∧ s.lossRecoveryPhase lib now rounds' = some (true, s') ∧
      s'.octets = s.octets + recoveryOctets lib s s.tcb.rfcPipe := by
  obtain ⟨pipe, -, rfl⟩ := Option.map_eq_some_iff.1 hset
  have hpipe : pipe.toNat = s.tcb.rfcPipe := hpipe
  -- the loop is entered with the pipe that has been counted
  have hloop : ∃ n s', Recovering.loop lib now { s with tcb := { s.tcb with pipe := pipe } } n
      { s with tcb := { s.tcb with pipe := pipe } } pipe = some s' ∧
        s'.octets = s.octets + recoveryOctets lib s s.tcb.rfcPipe := by
    rw [← hpipe]
    rcases hphase with hend | ⟨hlt, hfull⟩ | ⟨hlt, hplain⟩
    · exact absurd hend hack
    · rw [← hpipe] at hlt hfull
      exact loop_full_octets (s := { s with tcb := { s.tcb with pipe := pipe } }) now hlt hfull
    · rw [← hpipe] at hlt
      have hplain' : ({ s with tcb := { s.tcb with pipe := pipe } } : Socket σ).Plain lib :=
        ⟨hplain.below, hplain.distinct, hplain.data.imp_right fun hd => ⟨hd.pos, hd.nxt, hd.window, hd.scaled⟩⟩
      exact loop_octets now hplain' hlt
  obtain ⟨n, s', hrun, hoctets⟩ := hloop
  refine ⟨max rounds n, s', le_max_left .., ?_, hoctets⟩
  unfold Socket.lossRecoveryPhase
  rw [if_neg hack, Tcb.setPipe_of_le hset (le_max_left ..)]
  refine Option.bind_eq_some_iff.2 ⟨_, rfl, ?_⟩
  exact Option.bind_eq_some_iff.2 ⟨s', Loop.run_of_le hrun (le_max_right ..), rfl⟩

/-- The two functions apart. -/
theorem sackRecovery_iff_pipeExact {s : Socket σ} (hphase : PhasePlain lib s) :
    SackRecovery lib now s ↔ s.tcb.PipeExact ∧ SendsWithin lib s := by
  constructor
  · rintro ⟨rounds, t, phase, s', hset, heq, hrun, hle⟩
    refine ⟨⟨rounds, t, hset, heq⟩, or_iff_not_imp_left.2 fun hack => ?_⟩
    obtain ⟨rounds', s'', hrounds, hrun', hoctets⟩ := lossRecoveryPhase_octets now hphase hset heq hack
    obtain rfl : s' = s'' := by
      rw [lossRecoveryPhase_of_le hrun hrounds] at hrun'
      exact (Prod.mk.inj (Option.some.inj hrun')).2
    have hwnd : t.getWnd = s.tcb.getWnd := by
      obtain ⟨pipe, -, rfl⟩ := Option.map_eq_some_iff.1 hset
      rfl
    rw [heq, hwnd] at hle
    omega
  · rintro ⟨⟨rounds, t, hset, heq⟩, hsent⟩
    have hwnd : t.getWnd = s.tcb.getWnd := by
      obtain ⟨pipe, -, rfl⟩ := Option.map_eq_some_iff.1 hset
      rfl
    by_cases hack : s.tcb.seg.ack > s.tcb.recoveryPoint
    · exact ⟨rounds, t, false, s, hset, heq, if_pos hack, Nat.le_add_right _ _⟩
    · obtain ⟨rounds', s', hrounds, hrun, hoctets⟩ := lossRecoveryPhase_octets now hphase hset heq hack
      have hle := hsent.resolve_left hack
      refine ⟨rounds', t, true, s', Tcb.setPipe_of_le hset hrounds, heq, hrun, ?_⟩
      rw [hoctets, heq, hwnd]
      exact Nat.add_le_add_left hle _

/-- A sender with three segments of 100 octets in flight, of which the last one is SACKed, or none. -/
def recoveringSender (isSacked : Bool) : Socket (List AppPacket) :=
  let segment (seq : UInt32) (isSacked : Bool) : QueueInfo :=
    ⟨⟨⟨seq, 0, 20, false, false, false, false, 0, none⟩, 100, 120, some (100, false)⟩, 0, isSacked⟩
  { tcb := { Tcb.calloc .reno with
      tcpState := .established
      snd := ⟨100, 400, 65535, 0, 0⟩
      seg := ⟨1, 100, 0, 65535⟩
      congestion.smss := 100
      congestion.cwnd := 1000
      isSackPermitted := true
      retransmissionQueue := ⟨360, [segment 100 false, segment 200 false, segment 300 isSacked], false⟩
      recoveryPoint := 400 }
    sId := [⟨100, false⟩]
    waitFromApp := false
    isAppClose := false
    network := []
    application := [] }

theorem recoveringSender_steps (b : Bool) : (recoveringSender b).tcb.Steps := by
  cases b <;> exact ⟨by decide, by decide⟩

theorem recoveringSender_fullSized (b : Bool) : (recoveringSender b).tcb.FullSized := by
  cases b <;> exact ⟨by decide, by decide⟩

theorem recoveringSender_plain (b : Bool) : (recoveringSender b).Plain SocketLib.list := by
  cases b <;> exact ⟨by decide, by decide,
    .inr ⟨by decide, by decide, by decide, by decide⟩⟩

theorem recoveringSender_phase (b : Bool) : PhasePlain SocketLib.list (recoveringSender b) := by
  refine .inr (.inr ⟨?_, recoveringSender_plain b⟩)
  cases b <;> decide +kernel

/-- A sender with nothing in flight, close to the end of the sequence numbers. -/
def idleSender : Socket (List AppPacket) :=
  let s := recoveringSender false
  { s with
    tcb.snd := ⟨4294967200, 4294967200, 65535, 0, 0⟩
    tcb.retransmissionQueue.queue := []
    tcb.recoveryPoint := 4294967200
    sId := [] }

theorem idleSender_steps : idleSender.tcb.Steps := ⟨by decide, by decide⟩

theorem idleSender_phase : PhasePlain SocketLib.list idleSender :=
  .inr (.inr ⟨by decide, fun _ hinfo => absurd hinfo List.not_mem_nil, List.nodup_nil, .inl rfl⟩)

end NetSim.Tcp
