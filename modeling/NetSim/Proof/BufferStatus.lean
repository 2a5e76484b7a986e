import NetSim.Proof.AmSender
import NetSim.Proof.UmSender
import NetSim.Spec.RlcTm

/-!
# When the buffer status is the backlog

`waiting` is the backlog of a channel: packet sizes in TM and AM, payloads in UM. The
sites that maintain `bufferStatus` do not agree on the measure:

* TM never takes anything off;
* UM takes the whole grant off when it cuts an SDU, even where the payload is smaller;
* AM adds packet sizes on enqueueing and takes payloads off on sending, and adds payloads
  on a NACK and takes packet sizes off on retransmission.

`bufferStatus_eq_backlog`: in the runs that stay clear of these, the status is the backlog
and no subtraction wraps. `bufferStatus_drifts`: one run of each mode that does not.
-/

namespace NetSim.Rlc

open Word

/-! ## Backlogs -/

/-- The sum of `w` over the entries of a channel. -/
def waiting (w : BufferData → ℕ) (l : List BufferData) (ch : LogicalChannel) : ℕ :=
  (l.map fun b => if b.channel = ch then w b else 0).sum

section waiting

variable {w : BufferData → ℕ} {l l' pre post : List BufferData} {b b' : BufferData} {ch : LogicalChannel}

@[simp] theorem waiting_nil : waiting w [] ch = 0 := rfl

@[simp] theorem waiting_cons :
    waiting w (b :: l) ch = (if b.channel = ch then w b else 0) + waiting w l ch := rfl

@[simp] theorem waiting_append : waiting w (l ++ l') ch = waiting w l ch + waiting w l' ch := by
  simp [waiting]

theorem waiting_congr {w' : BufferData → ℕ} (h : ∀ b ∈ l, w b = w' b) : waiting w l ch = waiting w' l ch := by
  induction l with
  | nil => rfl
  | cons b bs ih =>
    rw [waiting_cons, waiting_cons, h b (List.mem_cons_self ..), ih fun c hc => h c (List.mem_cons_of_mem _ hc)]

/-- An entry that counts nothing once it is marked may be removed. -/
theorem waiting_updateBuffer (hw : ∀ b, b.isMarkedForRemoval = true → w b = 0) :
    waiting w (updateBuffer l) ch = waiting w l ch := by
  unfold updateBuffer
  induction l with
  | nil => rfl
  | cons b bs ih =>
    by_cases h : b.isMarkedForRemoval = true
    · rw [List.dropWhile_cons_of_pos h, ih, waiting_cons, hw b h]
      split <;> omega
    · rw [List.dropWhile_cons_of_neg h]

end waiting

/-- The status is `f`, and no subtraction has wrapped. -/
def BufferStatus.Tracks (s : BufferStatus) (f : LogicalChannel → ℕ) : Prop :=
  s.wrapped = false ∧ ∀ ch, s.bytes ch = f ch

namespace BufferStatus

variable {s : BufferStatus} {f g : LogicalChannel → ℕ} {ch : LogicalChannel} {n : ℕ}

theorem Tracks.congr (h : s.Tracks f) (hg : ∀ c, g c = f c) : s.Tracks g :=
  ⟨h.1, fun c => (h.2 c).trans (hg c).symm⟩

theorem Tracks.add (h : s.Tracks f) (hlt : s.bytes ch + n < 4294967296)
    (hg : ∀ c, g c = f c + if c = ch then n else 0) : (s.add ch n).Tracks g := by
  refine ⟨h.1, ?_⟩
  intro c
  have hc := h.2 c
  unfold BufferStatus.add
  dsimp only
  rw [u32_of_lt hlt, hg c]
  by_cases hcc : c = ch
  · subst hcc
    rw [Function.update_self, if_pos rfl, hc]
  · rw [Function.update_of_ne hcc, if_neg hcc, hc, Nat.add_zero]

theorem Tracks.sub (h : s.Tracks f) (hlt : f ch < 4294967296)
    (hg : ∀ c, f c = g c + if c = ch then n else 0) : (s.sub ch n).Tracks g := by
  have hch := hg ch
  rw [if_pos rfl] at hch
  have hb := h.2 ch
  constructor
  · unfold BufferStatus.sub
    dsimp only
    rw [h.1, Bool.false_or, decide_eq_false_iff_not]
    omega
  · intro c
    have hc := h.2 c
    have hgc := hg c
    unfold BufferStatus.sub
    dsimp only
    by_cases hcc : c = ch
    · subst hcc
      rw [Function.update_self, sub32_of_le (by omega) (by omega)]
      omega
    · rw [if_neg hcc] at hgc
      rw [Function.update_of_ne hcc, hc, hgc, Nat.add_zero]

theorem Tracks.subOrZero (h : s.Tracks f) (hg : ∀ c, f c = g c + if c = ch then n else 0) :
    (s.subOrZero ch n).Tracks g := by
  refine ⟨h.1, ?_⟩
  intro c
  have hc := h.2 c
  have hgc := hg c
  unfold BufferStatus.subOrZero
  dsimp only
  by_cases hcc : c = ch
  · subst hcc
    rw [if_pos rfl] at hgc
    rw [Function.update_self, if_neg (by omega)]
    omega
  · rw [if_neg hcc] at hgc
    rw [Function.update_of_ne hcc, hc, hgc, Nat.add_zero]

/-- Adding the entries of a list one by one. -/
theorem Tracks.foldl_add {w : BufferData → ℕ} (l : List BufferData) (h : s.Tracks f)
    (hlt : ∀ c, f c + waiting w l c < 4294967296) :
    (l.foldl (fun s b => s.add b.channel (w b)) s).Tracks fun c => f c + waiting w l c := by
  induction l generalizing s f with
  | nil => exact h.congr fun c => rfl
  | cons b bs ih =>
    have hb := hlt b.channel
    have hs := h.2 b.channel
    rw [waiting_cons, if_pos rfl] at hb
    have hadd : (s.add b.channel (w b)).Tracks fun c => f c + if c = b.channel then w b else 0 :=
      h.add (by omega) fun c => rfl
    have hcons : ∀ c, waiting w (b :: bs) c = (if c = b.channel then w b else 0) + waiting w bs c := by
      intro c
      rw [waiting_cons]
      simp only [eq_comm]
    have hlt' : ∀ c, (f c + if c = b.channel then w b else 0) + waiting w bs c < 4294967296 := by
      intro c
      have hc := hlt c
      rw [hcons c] at hc
      omega
    apply (ih hadd hlt').congr
    intro c
    rw [hcons c]
    omega

end BufferStatus

/-! ## TM -/

namespace TmTx

/-- The packet size of an entry that is not marked. -/
def weight (b : BufferData) : ℕ := if b.isMarkedForRemoval then 0 else b.size

/-- A grant comes when nothing waits on its channel, and the status stays below `2 ^ 32`. -/
def Accountable (tm : TmTx) : Event → Prop
  | .enqueue p ch => tm.bufferStatus.bytes ch + ofInt32 p.mac.packetSize < 4294967296
  | .grant _ ch => ch.isForTm = true → waiting weight tm.transmissionBuffer ch = 0

instance (tm : TmTx) (e : Event) : Decidable (Accountable tm e) :=
  match e with
  | .enqueue _ _ | .grant _ _ => by
    dsimp only [Accountable]
    infer_instance

theorem waiting_sendLoop (ch : LogicalChannel) (l : List BufferData) (left : ℕ) (c : LogicalChannel) :
    waiting weight (sendLoop ch l left).1 c = if c = ch then 0 else waiting weight l c := by
  induction l generalizing left with
  | nil =>
    rw [sendLoop, waiting_nil]
    split <;> rfl
  | cons b rest ih =>
    have hmark : ∀ left, waiting weight
        ({ b with isMarkedForRemoval := true } :: (sendLoop ch rest left).1) c =
          if c = ch then 0 else waiting weight rest c := by
      intro left
      rw [waiting_cons, ih]
      simp [weight]
    unfold sendLoop
    split
    · rename_i hch
      rw [waiting_cons, waiting_cons, ih]
      by_cases hc : c = ch
      · rw [if_pos hc, if_neg (by rw [hc]; exact hch), if_pos hc]
      · rw [if_neg hc, if_neg hc]
    · rename_i hch
      have hb : c ≠ ch → (if b.channel = c then weight b else 0) = 0 := fun hc =>
        if_neg fun h => hc (h.symm.trans (not_not.1 hch))
      -- sent or dropped, the entry is marked
      split <;>
      · dsimp only
        rw [hmark, waiting_cons]
        by_cases hc : c = ch
        · rw [if_pos hc, if_pos hc]
        · rw [if_neg hc, if_neg hc, hb hc, Nat.zero_add]

theorem tracks_of_reachOn {tm : TmTx} (h : machine.ReachOn Accountable tm) :
    tm.bufferStatus.Tracks (waiting weight tm.transmissionBuffer) := by
  apply h.inv (I := fun tm => tm.bufferStatus.Tracks (waiting weight tm.transmissionBuffer))
  · intro tm h0
    have h0 : tm = init := h0
    subst h0
    exact ⟨rfl, fun _ => rfl⟩
  · intro tm e tm' hi hok hs
    cases e with
    | enqueue p ch =>
      simp only [machine, step, Option.some.injEq] at hs
      subst hs
      split
      · apply hi.add hok
        intro c
        unfold handlePduFromUpperLayer addPacket
        rw [waiting_append, waiting_cons, waiting_nil]
        by_cases hc : c = ch
        · subst hc
          simp [weight, BufferData.size]
        · simp [hc, Ne.symm hc]
      · exact hi
    | grant size ch =>
      simp only [machine, step, Option.some.injEq] at hs
      subst hs
      split
      · rename_i hch
        -- nothing waits on the channel, so there is nothing that the grant fails to take off
        have hnone := hok hch
        have hmarked : ∀ b : BufferData, b.isMarkedForRemoval = true → weight b = 0 := by
          intro b hb
          rw [weight, if_pos hb]
        apply hi.congr
        intro c
        show waiting weight (updateBuffer (sendLoop ch tm.transmissionBuffer size).1) c = _
        rw [waiting_updateBuffer hmarked, waiting_sendLoop]
        by_cases hc : c = ch
        · rw [if_pos hc, hc, hnone]
        · rw [if_neg hc]
      · exact hi

end TmTx

/-! ## UM -/

namespace UmTx

variable {H : HdrLib}

/-- Whether a grant of `left` bytes, where it cuts an SDU, is no larger than its payload. A
sender keeps one channel only. -/
def cutsWithinPayload : List BufferData → ℕ → Bool
  | [], _ => true
  | b :: rest, left =>
    if left < minRlcPduSize then true
    else if b.packet.isUplane ∧ b.packet.mac.packetSize > left then left ≤ b.payload
    else cutsWithinPayload rest (sub32 left b.payload)

/-- A grant cuts within the payload, and the status stays below `2 ^ 32`. -/
def Accountable (um : UmTx) : Event → Prop
  | .enqueue p ch => um.bufferStatus.bytes ch + ofInt32 p.mac.payload < 4294967296
  | .grant size ch => ch.isForUm = true → cutsWithinPayload um.transmissionBuffer size = true

instance (um : UmTx) (e : Event) : Decidable (Accountable um e) :=
  match e with
  | .enqueue _ _ | .grant _ _ => by
    dsimp only [Accountable]
    infer_instance

/-- The status is the backlog, which fits. -/
structure Tracked (um : UmTx) : Prop where
  tracks : um.bufferStatus.Tracks (waiting BufferData.payload um.transmissionBuffer)
  fits : ∀ c, waiting BufferData.payload um.transmissionBuffer c < 4294967296

theorem Tracked.sendWhole {um : UmTx} {b : BufferData} {rest : List BufferData} (hi : Tracked um)
    (hb : um.transmissionBuffer = b :: rest) (hch : b.channel = .dtch) :
    Tracked (sendWhole H um b rest).1 := by
  have hsub : ∀ c, waiting BufferData.payload um.transmissionBuffer c =
      waiting BufferData.payload rest c + if c = .dtch then b.payload else 0 := by
    intro c
    rw [hb, waiting_cons, hch, Nat.add_comm]
    simp only [eq_comm]
  have hpay : ofInt32 (addHdr H b.packet).2.1.mac.payload = b.payload := by
    rw [payload_addHdr]
    rfl
  have hst : (UmTx.sendWhole H um b rest).1.bufferStatus = um.bufferStatus.sub .dtch b.payload := by
    rw [← hpay]
    unfold UmTx.sendWhole account
    dsimp only
    split <;> rfl
  constructor
  · rw [hst]
    exact hi.tracks.sub (hi.fits _) hsub
  · intro c
    have h1 := hi.fits c
    have h2 := hsub c
    show waiting BufferData.payload rest c < _
    omega

theorem Tracked.sendCut {um : UmTx} {b : BufferData} {rest : List BufferData} {left : ℕ} (hi : Tracked um)
    (hb : um.transmissionBuffer = b :: rest) (hch : b.channel = .dtch) (hle : left ≤ b.payload) :
    Tracked (sendCut H um b left rest).1 := by
  have hlt : b.payload < 4294967296 := ofInt32_lt _
  have hret : ofInt32 (fragmentPacket H b.packet left um.txNext).1.mac.payload = left := by
    unfold fragmentPacket umdHdrAdd umdPdu
    dsimp only
    rw [H.payload_add, ofInt32_natCast (by omega)]
  have hrem : ofInt32 (fragmentPacket H b.packet left um.txNext).2.mac.payload = b.payload - left := by
    unfold fragmentPacket umdHdrAdd
    dsimp only
    rw [H.payload_add, payload_umdHdrRemove, ofInt32_sub hle]
    rfl
  have hsub : ∀ c, waiting BufferData.payload um.transmissionBuffer c =
      waiting BufferData.payload (UmTx.sendCut H um b left rest).1.transmissionBuffer c +
        if c = .dtch then left else 0 := by
    intro c
    have hb' : (UmTx.sendCut H um b left rest).1.transmissionBuffer =
        { b with packet := (fragmentPacket H b.packet left um.txNext).2 } :: rest := rfl
    rw [hb, hb', waiting_cons, waiting_cons, BufferData.payload, BufferData.payload, hrem, hch]
    by_cases hc : c = .dtch
    · rw [if_pos hc.symm, if_pos hc.symm, if_pos hc]
      unfold BufferData.payload at hle ⊢
      omega
    · rw [if_neg (Ne.symm hc), if_neg (Ne.symm hc), if_neg hc, Nat.add_zero]
  have hst : (UmTx.sendCut H um b left rest).1.bufferStatus = um.bufferStatus.sub .dtch left := by
    unfold UmTx.sendCut account
    dsimp only
    rw [hret]
  constructor
  · rw [hst]
    exact hi.tracks.sub (hi.fits _) hsub
  · intro c
    have h1 := hi.fits c
    have h2 := hsub c
    omega

theorem Moves.tracked {left : ℕ} {um um' : UmTx} {pdus : List UmdPdu} (h : Moves H left um pdus um')
    (hw : ∀ b ∈ um.transmissionBuffer, Waits b)
    (hok : cutsWithinPayload um.transmissionBuffer left = true) (hi : Tracked um) : Tracked um' := by
  induction h with
  | done left um => exact hi
  | @whole left um _ b rest _ hb hleft hwhole _ ih =>
    rw [hb] at hw hok
    unfold cutsWithinPayload at hok
    rw [if_neg hleft, if_neg hwhole] at hok
    exact ih (fun c hc => hw c (List.mem_cons_of_mem _ hc)) hok
      (hi.sendWhole hb (hw b (List.mem_cons_self ..)).1)
  | @cut left um b rest hb hleft hcut =>
    rw [hb] at hw hok
    unfold cutsWithinPayload at hok
    rw [if_neg hleft, if_pos hcut, decide_eq_true_eq] at hok
    exact hi.sendCut hb (hw b (List.mem_cons_self ..)).1 hok

/-- A packet from the upper layer. -/
theorem Tracked.enqueue {um : UmTx} {p : Packet} (hi : Tracked um)
    (hlt : um.bufferStatus.bytes .dtch + ofInt32 p.mac.payload < 4294967296) :
    Tracked (um.handlePduFromUpperLayer { p with umdHdr := none } .dtch) := by
  have hadd : ∀ c, waiting BufferData.payload (um.handlePduFromUpperLayer
      { p with umdHdr := none } .dtch).transmissionBuffer c =
        waiting BufferData.payload um.transmissionBuffer c +
          if c = .dtch then ofInt32 p.mac.payload else 0 := by
    intro c
    unfold handlePduFromUpperLayer addPacket
    rw [waiting_append, waiting_cons, waiting_nil]
    simp only [eq_comm, BufferData.payload, Nat.add_zero]
  refine ⟨hi.tracks.add hlt hadd, ?_⟩
  intro c
  have h1 := hi.fits c
  have h2 := hi.tracks.2 .dtch
  rw [hadd c]
  split
  · rename_i hc
    rw [hc]
    omega
  · omega

theorem tracked_of_reachOn {um : UmTx} (h : (machine H).ReachOn Accountable um) :
    Tracked um ∧ ∀ b ∈ um.transmissionBuffer, Waits b := by
  apply h.inv (I := fun um => Tracked um ∧ ∀ b ∈ um.transmissionBuffer, Waits b)
  · intro um h0
    have h0 : um = init := h0
    subst h0
    exact ⟨⟨⟨rfl, fun _ => rfl⟩, fun _ => (by decide : 0 < 4294967296)⟩, fun _ hb => absurd hb List.not_mem_nil⟩
  · rintro um e um' ⟨hi, hw⟩ hok hs
    cases e with
    | enqueue p ch =>
      simp only [machine, step, Option.some.injEq] at hs
      subst hs
      split
      · rename_i hch
        obtain rfl := dtch_of_isForUm hch
        exact ⟨hi.enqueue hok, handlePdu_waits _ hw⟩
      · exact ⟨hi, hw⟩
    | grant size ch =>
      simp only [machine, step, Option.some.injEq] at hs
      subst hs
      split
      · rename_i hch
        obtain rfl := dtch_of_isForUm hch
        have hm := sendPdu_moves (H := H) size hw
        exact ⟨hm.tracked hw (hok hch) hi, hm.waits hw⟩
      · exact ⟨hi, hw⟩

end UmTx

/-! ## AM -/

namespace AmTx

variable {H : HdrLib} {cfg : AmConfig} {ch : LogicalChannel}

/-- Whether a grant of `left` bytes takes what an entry counts: where one goes out whole, its
packet size is its payload, and a segment is no larger than the packet it is cut from. -/
def takesPacketSize (ch : LogicalChannel) (tx : AmTx) : List BufferData → ℕ → Bool
  | [], _ => true
  | b :: rest, left =>
    if b.channel ≠ ch then takesPacketSize ch tx rest left
    else if left < minRlcPduSize then true
    else if ¬ tx.isSnInTransmittingWindow b.sn then takesPacketSize ch tx rest left
    else
      match fragmentPacket b left with
      | .none => true
      | .whole _ => b.payload = b.size && takesPacketSize ch tx rest (sub32 left b.payload)
      | .cut ret _ => ret.payload ≤ b.size

/-- What the retransmissions leave of a grant. -/
def leftForTransmission (cfg : AmConfig) (tx : AmTx) (size : ℕ) (ch : LogicalChannel) : ℕ :=
  sub32 size (sub32 size (retransmissionLoop cfg ch [] tx.retransmissionBuffer tx size).left)

/-- The backlog of both buffers. -/
def backlog (tx : AmTx) (ch : LogicalChannel) : ℕ :=
  waiting BufferData.size tx.transmissionBuffer ch + waiting BufferData.size tx.retransmissionBuffer ch

/-- A grant takes packet sizes, a NACK moves PDUs whose packet size is their payload, and the
status stays below `2 ^ 32`. -/
def Accountable (cfg : AmConfig) (tx : AmTx) : Event → Prop
  | .enqueue p ch => tx.bufferStatus.bytes ch + ofInt32 p.mac.packetSize < 4294967296
  | .grant size ch => ch.isForAm = true →
      takesPacketSize ch tx tx.transmissionBuffer (leftForTransmission cfg tx size ch) = true
  | .pollRetransmit => ∀ c, tx.bufferStatus.bytes c + waiting BufferData.size (tx.pollMoved cfg) c < 4294967296
  | .status pdu => ∀ r ∈ nackFindAll pdu.nacks tx.transmittedBuffer,
      (∀ b ∈ nackMoved cfg r.1, b.payload = b.size) ∧
        ∀ c, tx.bufferStatus.bytes c + waiting BufferData.payload (nackMoved cfg r.1) c < 4294967296

instance (tx : AmTx) (e : Event) : Decidable (Accountable cfg tx e) :=
  match e with
  | .enqueue _ _ | .grant _ _ | .pollRetransmit | .status _ => by
    dsimp only [Accountable]
    infer_instance

/-- The status is the backlog, which fits. -/
structure Tracked (tx : AmTx) : Prop where
  tracks : tx.bufferStatus.Tracks tx.backlog
  fits : ∀ c, tx.backlog c < 4294967296

/-- What goes from a buffer to MAC is taken off the status. -/
theorem Tracked.sent {tx tx' : AmTx} {n : ℕ} (hi : Tracked tx)
    (hb : ∀ c, tx.backlog c = tx'.backlog c + if c = ch then n else 0)
    (hst : tx'.bufferStatus = tx.bufferStatus.sub ch n ∨
      tx'.bufferStatus = tx.bufferStatus.subOrZero ch n) : Tracked tx' := by
  constructor
  · rcases hst with h | h
    · rw [h]
      exact hi.tracks.sub (hi.fits _) hb
    · rw [h]
      exact hi.tracks.subOrZero hb
  · intro c
    have h1 := hi.fits c
    have h2 := hb c
    omega

/-- What comes into a buffer is added to the status. -/
theorem Tracked.moved {tx tx' : AmTx} {moved : List BufferData} {w : BufferData → ℕ} (hi : Tracked tx)
    (hb : ∀ c, tx'.backlog c = tx.backlog c + waiting w moved c)
    (hst : tx'.bufferStatus = moved.foldl (fun s b => s.add b.channel (w b)) tx.bufferStatus)
    (hlt : ∀ c, tx.bufferStatus.bytes c + waiting w moved c < 4294967296) : Tracked tx' := by
  have hlt' : ∀ c, tx.backlog c + waiting w moved c < 4294967296 := by
    intro c
    have h1 := hlt c
    have h2 := hi.tracks.2 c
    omega
  constructor
  · rw [hst]
    exact (hi.tracks.foldl_add moved hlt').congr hb
  · intro c
    rw [hb c]
    exact hlt' c

/-- A retransmission takes the packet size off that the entry counted. -/
theorem Tracked.retransmission (cfg : AmConfig) {tx : AmTx} {kept rest : List BufferData} {b : BufferData}
    (hi : Tracked tx) (hb : tx.retransmissionBuffer = kept ++ b :: rest) (hch : b.channel = ch) :
    Tracked (sendRetransmission cfg ch tx (kept ++ rest) b).1 := by
  obtain ⟨_, _, _, -, ht⟩ := sendRetransmission_eq cfg ch tx (kept ++ rest) b
  have htx := congrArg AmTx.transmissionBuffer ht
  have hbr := congrArg AmTx.retransmissionBuffer ht
  have hst := congrArg AmTx.bufferStatus ht
  apply hi.sent _ (.inr hst)
  intro c
  unfold backlog
  rw [htx, hbr, hb, waiting_append, waiting_append, waiting_cons, hch]
  simp only [eq_comm]
  omega

/-- An SDU or the rest of one goes out whole. What is taken off is its payload. -/
theorem Tracked.whole {tx : AmTx} {kept rest : List BufferData} {b ret : BufferData} (hi : Tracked tx)
    (hb : tx.transmissionBuffer = kept ++ b :: rest) (hch : b.channel = ch) (hret : ret.payload = b.size) :
    Tracked (sendTransmission H cfg ch tx (kept ++ rest) ret).1 := by
  obtain ⟨_, _, _, -, ht⟩ := sendTransmission_eq H cfg ch tx (kept ++ rest) ret
  have htx := congrArg AmTx.transmissionBuffer ht
  have hbr := congrArg AmTx.retransmissionBuffer ht
  have hst := congrArg AmTx.bufferStatus ht
  apply hi.sent _ (.inl hst)
  intro c
  unfold backlog
  rw [htx, hbr, hb, waiting_append, waiting_append, waiting_cons, hch, hret]
  simp only [eq_comm]
  omega

/-- A cut takes the payload of the segment off, and `b'` counts what is left. -/
theorem Tracked.cut {tx : AmTx} {kept rest : List BufferData} {b b' ret : BufferData} (hi : Tracked tx)
    (hb : tx.transmissionBuffer = kept ++ b :: rest) (hch : b.channel = ch) (hch' : b'.channel = ch)
    (hle : ret.payload ≤ b.size) (hsize : b'.size = b.size - ret.payload) :
    Tracked (sendTransmission H cfg ch tx (kept ++ b' :: rest) ret).1 := by
  obtain ⟨_, _, _, -, ht⟩ := sendTransmission_eq H cfg ch tx (kept ++ b' :: rest) ret
  have htx := congrArg AmTx.transmissionBuffer ht
  have hbr := congrArg AmTx.retransmissionBuffer ht
  have hst := congrArg AmTx.bufferStatus ht
  apply hi.sent _ (.inl hst)
  intro c
  unfold backlog
  rw [htx, hbr, hb, waiting_append, waiting_append, waiting_cons, waiting_cons, hch, hch', hsize]
  dsimp only
  by_cases hc : c = ch
  · rw [if_pos hc.symm, if_pos hc.symm, if_pos hc]
    omega
  · rw [if_neg (Ne.symm hc), if_neg (Ne.symm hc), if_neg hc]
    omega

theorem Tracked.retransmissionLoop (cfg : AmConfig) (ch : LogicalChannel) (l kept : List BufferData) (tx : AmTx) (left : ℕ)
    (hb : tx.retransmissionBuffer = kept ++ l) (hi : Tracked tx) :
    Tracked (retransmissionLoop cfg ch kept l tx left).tx ∧
      (AmTx.retransmissionLoop cfg ch kept l tx left).tx.transmissionBuffer = tx.transmissionBuffer ∧
      (AmTx.retransmissionLoop cfg ch kept l tx left).tx.txNextAck = tx.txNextAck := by
  induction l generalizing kept tx left with
  | nil => exact ⟨hi, rfl, rfl⟩
  | cons b rest ih =>
    have hskip : tx.retransmissionBuffer = kept ++ [b] ++ rest := by simpa using hb
    unfold AmTx.retransmissionLoop
    split
    · exact ih _ _ _ hskip hi
    · rename_i hch
      split
      · exact ⟨hi, rfl, rfl⟩
      · split
        · exact ih _ _ _ hskip hi
        · split
          · exact ih _ _ _ hskip hi
          · obtain ⟨_, _, _, -, ht⟩ := sendRetransmission_eq cfg ch tx (kept ++ rest) b
            have htx := congrArg AmTx.transmissionBuffer ht
            have hack := congrArg AmTx.txNextAck ht
            have hbr := congrArg AmTx.retransmissionBuffer ht
            have hi' := hi.retransmission cfg hb (not_not.1 hch)
            have h := ih kept _ (if left < b.size then 0 else left - b.size) hbr hi'
            exact ⟨h.1, h.2.1.trans htx, h.2.2.trans hack⟩

theorem Tracked.transmissionLoop (tx₀ : AmTx) (l kept : List BufferData) (tx : AmTx) (left : ℕ)
    (hb : tx.transmissionBuffer = kept ++ l) (hack : tx.txNextAck = tx₀.txNextAck)
    (hok : takesPacketSize ch tx₀ l left = true) (hi : Tracked tx) :
    Tracked (transmissionLoop H cfg ch kept l tx left).tx := by
  induction l generalizing kept tx left with
  | nil => exact hi
  | cons b rest ih =>
    have hskip : tx.transmissionBuffer = kept ++ [b] ++ rest := by simpa using hb
    have hwin : tx.isSnInTransmittingWindow b.sn = tx₀.isSnInTransmittingWindow b.sn := by
      unfold isSnInTransmittingWindow
      rw [hack]
    unfold AmTx.transmissionLoop
    unfold takesPacketSize at hok
    rw [hwin]
    split
    · rename_i hch
      rw [if_pos hch] at hok
      exact ih _ _ _ hskip hack hok hi
    · rename_i hch
      rw [if_neg hch] at hok
      split
      · exact hi
      · rename_i hleft
        rw [if_neg hleft] at hok
        split
        · rename_i hw
          rw [if_pos hw] at hok
          exact ih _ _ _ hskip hack hok hi
        · rename_i hw
          rw [if_neg hw] at hok
          split
          · exact hi
          · rename_i ret hf
            rw [hf, Bool.and_eq_true, decide_eq_true_eq] at hok
            obtain rfl := fragmentPacket_whole hf
            obtain ⟨_, _, _, -, ht⟩ := sendTransmission_eq H cfg ch tx (kept ++ rest)
              { b with si := if b.isFragmented then .last else .all }
            have hi' : Tracked (sendTransmission H cfg ch tx (kept ++ rest)
                { b with si := if b.isFragmented then .last else .all }).1 :=
              hi.whole hb (not_not.1 hch) hok.1
            exact ih kept _ _ (congrArg AmTx.transmissionBuffer ht) ((congrArg AmTx.txNextAck ht).trans hack)
              hok.2 hi'
          · rename_i ret b' hf
            rw [hf, decide_eq_true_eq] at hok
            obtain ⟨n, -, hn, hret, hb'⟩ := fragmentPacket_cut hf
            have hlt : b.payload < 4294967296 := ofInt32_lt _
            have hpay : ret.payload = n := by
              rw [hret]
              exact ofInt32_natCast (by omega)
            have hsize : b'.size = b.size - ret.payload := by
              rw [hpay] at hok ⊢
              rw [hb']
              exact ofInt32_sub hok
            have hch' : b'.channel = ch := by
              rw [hb']
              exact not_not.1 hch
            exact hi.cut hb (not_not.1 hch) hch' hok hsize

theorem Tracked.sendPdu {tx : AmTx} {size : ℕ} (hi : Tracked tx)
    (hok : takesPacketSize ch tx tx.transmissionBuffer (leftForTransmission cfg tx size ch) = true) :
    Tracked (sendPdu H cfg tx size ch).1 := by
  obtain ⟨h, hb, hack⟩ := Tracked.retransmissionLoop cfg ch _ [] tx size rfl hi
  refine Tracked.transmissionLoop tx _ [] _ _ rfl hack ?_ h
  rw [hb]
  exact hok

/-- A packet from the upper layer. -/
theorem Tracked.enqueue {tx : AmTx} {p : Packet} (hi : Tracked tx)
    (hok : tx.bufferStatus.bytes ch + ofInt32 p.mac.packetSize < 4294967296) :
    Tracked (tx.handlePduFromUpperLayer p ch) := by
  let b : BufferData := ⟨.all, tx.txNext, 0, 0, ch, p, false, false⟩
  have hbacklog : ∀ c, (tx.handlePduFromUpperLayer p ch).backlog c =
      tx.backlog c + waiting BufferData.size [b] c := by
    intro c
    unfold handlePduFromUpperLayer backlog addPacket
    rw [waiting_append]
    exact Nat.add_right_comm _ _ _
  have hlt : ∀ c, tx.bufferStatus.bytes c + waiting BufferData.size [b] c < 4294967296 := by
    intro c
    have h1 := hi.tracks.2 c
    have h2 := hi.fits c
    rw [waiting_cons, waiting_nil]
    split
    · rename_i hc
      have hc : ch = c := hc
      rw [hc] at hok
      exact hok
    · omega
  exact hi.moved hbacklog rfl hlt

/-- A PDU that is retransmitted counts as before. -/
theorem waiting_countRetx (l : List BufferData) (c : LogicalChannel) :
    waiting BufferData.size (l.map countRetx) c = waiting BufferData.size l c := by
  unfold waiting
  rw [List.map_map]
  rfl

theorem tracked_of_reachOn {tx : AmTx} (h : (machine H cfg).ReachOn (Accountable cfg) tx) : Tracked tx := by
  apply h.inv (I := Tracked)
  · intro tx h0
    have h0 : tx = init := h0
    subst h0
    exact ⟨⟨rfl, fun _ => rfl⟩, fun _ => (by decide : 0 < 4294967296)⟩
  · intro tx e tx' hi hok hs
    cases e with
    | enqueue p ch =>
      simp only [machine, step, Option.some.injEq] at hs
      subst hs
      split
      · exact hi.enqueue hok
      · exact hi
    | grant size ch =>
      simp only [machine, step, Option.some.injEq] at hs
      subst hs
      split
      · rename_i hch
        exact hi.sendPdu (hok hch)
      · exact hi
    | pollRetransmit =>
      have hs : tx.handlePollRetransmitTimer cfg = some tx' := hs
      unfold handlePollRetransmitTimer at hs
      split at hs
      · simp only [Option.some.injEq] at hs
        subst hs
        refine hi.moved (fun c => ?_) rfl hok
        unfold backlog
        dsimp only
        rw [waiting_append]
        unfold stopPollRetransmitTimer
        dsimp only
        omega
      · exact absurd hs (by simp)
    | status pdu =>
      obtain ⟨hit, rest, hn, rfl⟩ := receiveStatusPdu_cases (show tx.receiveStatusPdu cfg pdu = some tx' from hs)
      obtain ⟨hsize, hlt⟩ : (∀ b ∈ nackMoved cfg hit, b.payload = b.size) ∧ ∀ c,
          tx.bufferStatus.bytes c + waiting BufferData.payload (nackMoved cfg hit) c < 4294967296 :=
        hok (hit, rest) hn
      apply hi.moved _ rfl hlt
      intro c
      unfold backlog
      dsimp only
      rw [waiting_append, waiting_countRetx, ← waiting_congr hsize]
      omega

end AmTx

/-! ## The three modes -/

/-- **The status is the backlog, and no subtraction wraps**, in the runs of each mode whose
steps take off what was added. -/
theorem bufferStatus_eq_backlog (H : HdrLib) (cfg : AmConfig) :
    (∀ tm, TmTx.machine.ReachOn TmTx.Accountable tm →
      tm.bufferStatus.Tracks (waiting TmTx.weight tm.transmissionBuffer)) ∧
    (∀ um, (UmTx.machine H).ReachOn UmTx.Accountable um →
      um.bufferStatus.Tracks (waiting BufferData.payload um.transmissionBuffer)) ∧
    ∀ tx, (AmTx.machine H cfg).ReachOn (AmTx.Accountable cfg) tx → tx.bufferStatus.Tracks tx.backlog :=
  ⟨fun _ h => TmTx.tracks_of_reachOn h, fun _ h => (UmTx.tracked_of_reachOn h).1.tracks,
    fun _ h => (AmTx.tracked_of_reachOn h).tracks⟩

/-- 100 bytes on a common channel, and in UM and AM 60 of the 100 bytes after a first cut. -/
theorem bufferStatus_eq_backlog_partlySent : ∃ tm um tx,
    (TmTx.machine.ReachOn TmTx.Accountable tm ∧ tm.bufferStatus.bytes .bcch = 100 ∧
      tm.bufferStatus.Tracks (waiting TmTx.weight tm.transmissionBuffer)) ∧
    ((UmTx.machine .overhead).ReachOn UmTx.Accountable um ∧ um.bufferStatus.bytes .dtch = 60 ∧
      um.bufferStatus.Tracks (waiting BufferData.payload um.transmissionBuffer)) ∧
    (AmTx.machine .overhead .shipped).ReachOn (AmTx.Accountable .shipped) tx ∧
      tx.bufferStatus.bytes .dtch = 60 ∧ tx.bufferStatus.Tracks tx.backlog := by
  obtain ⟨tm, htm, h1⟩ := Machine.ReachOn.exists_of_execOn (M := TmTx.machine)
    (P := fun tm => tm.bufferStatus.bytes .bcch = 100) TmTx.Accountable
    [.grant 500 .bcch, .enqueue (userSdu 0) .bcch] (.init rfl) (by decide)
  obtain ⟨um, hum, h2⟩ := Machine.ReachOn.exists_of_execOn (M := UmTx.machine .overhead)
    (P := fun um => um.bufferStatus.bytes .dtch = 60) UmTx.Accountable
    [.enqueue (userSdu 0) .dtch, .grant 40 .dtch] (.init rfl) (by decide)
  obtain ⟨tx, htx, h3⟩ := Machine.ReachOn.exists_of_execOn (M := AmTx.machine .overhead .shipped)
    (P := fun tx => tx.bufferStatus.bytes .dtch = 60) (AmTx.Accountable .shipped)
    [.enqueue (userSdu 0) .dtch, .grant 44 .dtch] (.init rfl) (by decide)
  obtain ⟨htracks, hutracks, hatracks⟩ := bufferStatus_eq_backlog .overhead .shipped
  exact ⟨tm, um, tx, ⟨htm, h1, htracks tm htm⟩, ⟨hum, h2, hutracks um hum⟩, htx, h3, hatracks tx htx⟩

/-- An SDU of 100 bytes with 20 bytes of headers. -/
def headedSdu : Packet := ⟨0, true, ⟨100, 20, 120⟩, none⟩

/-- **The status drifts in every mode**, whatever is counted of an entry: TM keeps an SDU that
has left, UM takes 110 bytes off where 100 wait, and AM keeps the headers of an SDU that has
left. -/
theorem bufferStatus_drifts :
    (∃ tm, TmTx.machine.Reach tm ∧ tm.transmissionBuffer = [] ∧ tm.bufferStatus.bytes .bcch = 100) ∧
    (∃ um, (UmTx.machine .overhead).Reach um ∧ um.bufferStatus.bytes .dtch = 4294967286 ∧
      um.bufferStatus.wrapped = true) ∧
    (∃ tx, (AmTx.machine .overhead .shipped).Reach tx ∧ tx.transmissionBuffer = [] ∧
      tx.retransmissionBuffer = [] ∧ tx.bufferStatus.bytes .dtch = 20) ∧
    ¬ ∃ w : BufferData → ℕ,
      (∀ tm, TmTx.machine.Reach tm → tm.bufferStatus.Tracks (waiting w tm.transmissionBuffer)) ∨
      (∀ um, (UmTx.machine .overhead).Reach um →
        um.bufferStatus.Tracks (waiting w um.transmissionBuffer)) ∨
      ∀ tx, (AmTx.machine .overhead .shipped).Reach tx → tx.bufferStatus.Tracks fun ch =>
        waiting w tx.transmissionBuffer ch + waiting w tx.retransmissionBuffer ch := by
  obtain ⟨tm, htm, h1, h2⟩ := Machine.Reach.exists_of_exec (M := TmTx.machine)
    (P := fun tm => tm.transmissionBuffer = [] ∧ tm.bufferStatus.bytes .bcch = 100)
    [.enqueue (userSdu 0) .bcch, .grant 500 .bcch] (.init rfl) (by decide)
  obtain ⟨um, hum, h3, h4⟩ := Machine.Reach.exists_of_exec (M := UmTx.machine .overhead)
    (P := fun um => um.bufferStatus.bytes .dtch = 4294967286 ∧ um.bufferStatus.wrapped = true)
    [.enqueue headedSdu .dtch, .grant 110 .dtch] (.init rfl) (by decide)
  obtain ⟨tx, htx, h5, h6, h7⟩ := Machine.Reach.exists_of_exec (M := AmTx.machine .overhead .shipped)
    (P := fun tx => tx.transmissionBuffer = [] ∧ tx.retransmissionBuffer = [] ∧
      tx.bufferStatus.bytes .dtch = 20)
    [.enqueue headedSdu .dtch, .grant 500 .dtch] (.init rfl) (by decide)
  refine ⟨⟨tm, htm, h1, h2⟩, ⟨um, hum, h3, h4⟩, ⟨tx, htx, h5, h6, h7⟩, ?_⟩
  rintro ⟨w, htracks | htracks | htracks⟩
  · have h := (htracks tm htm).2 .bcch
    rw [h1, h2, waiting_nil] at h
    exact absurd h (by decide)
  · have h := (htracks um hum).1
    rw [h4] at h
    exact absurd h (by decide)
  · have h := (htracks tx htx).2 .dtch
    dsimp only at h
    rw [h5, h6, h7, waiting_nil] at h
    exact absurd h (by decide)

end NetSim.Rlc
