import Mathlib.Algebra.BigOperators.Group.List.Basic
import Mathlib.Algebra.Ring.Int.Defs
import NetSim.Spec.RlcUm

/-!
# What one event does to an RLC UM sender

A sender keeps SDUs of one channel only, so the SDUs that a grant marks are always in
front of the ones that still wait, and they are gone at its end.

* `sendPdu_moves`: a grant is a sequence of moves at the head of the buffer. Each sends
  the head whole, or cuts a segment off it and ends the grant.
* `Moves.inv`: the induction over them.
-/

namespace NetSim.Rlc.UmTx

open Word

/-- An entry of the channel that the mode lets pass, not yet sent. -/
def Waits (b : BufferData) : Prop := b.channel = .dtch ∧ b.isMarkedForRemoval = false

theorem dtch_of_isForUm {ch : LogicalChannel} (h : ch.isForUm = true) : ch = .dtch := by
  cases ch with
  | dtch => rfl
  | pcch | bcch | ccch | dcch => exact absurd h (by decide)

variable (H : HdrLib)

/-- Sends the head `b` whole; the entries behind it are `rest`. -/
def sendWhole (um : UmTx) (b : BufferData) (rest : List BufferData) : UmTx × UmdPdu :=
  let r := addHdr H b.packet
  let um := if r.2.2 ≠ -1 then { um with txNext := u32 (um.txNext + 1) } else um
  ({ um.account .dtch r.2.1 with transmissionBuffer := rest }, r.2.1)

/-- Cuts `size` bytes off the head `b`; the entries behind it are `rest`. -/
def sendCut (um : UmTx) (b : BufferData) (size : ℕ) (rest : List BufferData) : UmTx × UmdPdu :=
  let r := fragmentPacket H b.packet size um.txNext
  ({ um.account .dtch r.1 with transmissionBuffer := { b with packet := r.2 } :: rest }, r.1)

/-- The moves of a grant of `left` bytes, with the PDUs they send. -/
inductive Moves : ℕ → UmTx → List UmdPdu → UmTx → Prop
  | done (left : ℕ) (um : UmTx) : Moves left um [] um
  | whole {left : ℕ} {um um' : UmTx} {b : BufferData} {rest : List BufferData} {pdus : List UmdPdu}
      (hb : um.transmissionBuffer = b :: rest) (hleft : ¬ left < minRlcPduSize)
      (hw : ¬ (b.packet.isUplane ∧ b.packet.mac.packetSize > left))
      (next : Moves (sub32 left b.payload) (sendWhole H um b rest).1 pdus um') :
      Moves left um ((sendWhole H um b rest).2 :: pdus) um'
  | cut {left : ℕ} {um : UmTx} {b : BufferData} {rest : List BufferData}
      (hb : um.transmissionBuffer = b :: rest) (hleft : ¬ left < minRlcPduSize)
      (hw : b.packet.isUplane ∧ b.packet.mac.packetSize > left) :
      Moves left um [(sendCut H um b left rest).2] (sendCut H um b left rest).1

variable {H}

/-- **The rule for a grant**: what every move keeps, a grant keeps. -/
theorem Moves.inv {I : UmTx → List UmdPdu → Prop}
    (hwhole : ∀ um ps b rest, um.transmissionBuffer = b :: rest → I um ps →
      I (sendWhole H um b rest).1 (ps ++ [(sendWhole H um b rest).2]))
    (hcut : ∀ um ps b left rest, um.transmissionBuffer = b :: rest → I um ps →
      I (sendCut H um b left rest).1 (ps ++ [(sendCut H um b left rest).2]))
    {left : ℕ} {um um' : UmTx} {pdus : List UmdPdu} (h : Moves H left um pdus um') :
    ∀ ps, I um ps → I um' (ps ++ pdus) := by
  induction h with
  | done left um =>
    intro ps hi
    rw [List.append_nil]
    exact hi
  | @whole _ um _ b rest pdus hb _ _ _ ih =>
    intro ps hi
    have hassoc : ps ++ (sendWhole H um b rest).2 :: pdus = ps ++ [(sendWhole H um b rest).2] ++ pdus := by
      simp
    rw [hassoc]
    exact ih _ (hwhole _ _ _ _ hb hi)
  | cut hb _ _ =>
    intro ps hi
    exact hcut _ _ _ _ _ hb hi

theorem payload_umdHdrRemove (p : Packet) : (umdHdrRemove H p).payload = p.mac.payload := by
  unfold umdHdrRemove
  split
  · rfl
  · exact H.payload_free _ _

theorem payload_addHdr (p : Packet) : (addHdr H p).2.1.mac.payload = p.mac.payload :=
  (H.payload_add _ _).trans (payload_umdHdrRemove p)

theorem updateBuffer_marked {done l : List BufferData}
    (hdone : ∀ b ∈ done, b.isMarkedForRemoval = true) (hl : ∀ b ∈ l, Waits b) :
    updateBuffer (done ++ l) = l := by
  unfold updateBuffer
  rw [List.dropWhile_append_of_pos fun b hb => hdone b hb]
  cases l with
  | nil => rfl
  | cons b rest => exact List.dropWhile_cons_of_neg (by simp [(hl b (List.mem_cons_self ..)).2])

theorem sendLoop_moves (l done : List BufferData) (um : UmTx) (left : ℕ)
    (hdone : ∀ b ∈ done, b.isMarkedForRemoval = true) (hl : ∀ b ∈ l, Waits b) :
    Moves H left { um with transmissionBuffer := l } (sendLoop H .dtch done l um left).2
      { (sendLoop H .dtch done l um left).1 with
        transmissionBuffer := updateBuffer (sendLoop H .dtch done l um left).1.transmissionBuffer } := by
  induction l generalizing done um left with
  | nil =>
    have h := updateBuffer_marked hdone hl
    rw [List.append_nil] at h
    unfold sendLoop
    dsimp only
    rw [h]
    exact .done _ _
  | cons b rest ih =>
    have hb := hl b (List.mem_cons_self ..)
    have hrest : ∀ b ∈ rest, Waits b := fun c hc => hl c (List.mem_cons_of_mem _ hc)
    unfold sendLoop
    rw [if_neg (not_not.2 hb.1)]
    split
    · dsimp only
      rw [updateBuffer_marked hdone hl]
      exact .done _ _
    · rename_i hleft
      split
      · rename_i hw
        have hcons : ∀ c ∈ { b with packet := (fragmentPacket H b.packet left um.txNext).2 } :: rest, Waits c := by
          intro c hc
          rcases List.mem_cons.1 hc with rfl | hc
          · exact hb
          · exact hrest c hc
        dsimp only
        rw [updateBuffer_marked hdone hcons]
        exact @Moves.cut H left { um with transmissionBuffer := b :: rest } b rest rfl hleft hw
      · rename_i hw
        have hpay : ofInt32 (addHdr H b.packet).2.1.mac.payload = b.payload := by
          rw [payload_addHdr]
          rfl
        have hdone' : ∀ c ∈ done ++ [{ b with packet := (addHdr H b.packet).1, isMarkedForRemoval := true }],
            c.isMarkedForRemoval = true := by
          intro c hc
          rcases List.mem_append.1 hc with hc | hc
          · exact hdone c hc
          · rw [List.mem_singleton.1 hc]
        have h := ih _ ((if (addHdr H b.packet).2.2 ≠ -1 then { um with txNext := u32 (um.txNext + 1) }
          else um).account .dtch (addHdr H b.packet).2.1) (sub32 left b.payload) hdone' hrest
        dsimp only
        rw [hpay]
        refine @Moves.whole H left { um with transmissionBuffer := b :: rest } _ b rest _ rfl hleft hw ?_
        unfold sendWhole
        dsimp only
        split
        · rename_i hne
          rw [if_pos hne] at h
          exact h
        · rename_i hne
          rw [if_neg hne] at h
          exact h

/-- **A grant is a sequence of moves.** -/
theorem sendPdu_moves {um : UmTx} (size : ℕ) (h : ∀ b ∈ um.transmissionBuffer, Waits b) :
    Moves H size um (um.sendPdu H size .dtch).2 (um.sendPdu H size .dtch).1 :=
  sendLoop_moves um.transmissionBuffer [] um size (fun _ hb => absurd hb List.not_mem_nil) h

/-- A grant smaller than the head cuts it. -/
theorem sendPdu_cut {um : UmTx} {b : BufferData} {size : ℕ} (hb : um.transmissionBuffer = [b]) (hw : Waits b)
    (hsize : ¬ size < minRlcPduSize) (hcut : b.packet.isUplane ∧ b.packet.mac.packetSize > size) :
    um.sendPdu H size .dtch = ((sendCut H um b size []).1, [(sendCut H um b size []).2]) := by
  have hkeep : updateBuffer [{ b with packet := (fragmentPacket H b.packet size um.txNext).2 }] =
      [{ b with packet := (fragmentPacket H b.packet size um.txNext).2 }] :=
    List.dropWhile_cons_of_neg (by simp [hw.2])
  unfold sendPdu
  rw [hb, sendLoop, if_neg (not_not.2 hw.1), if_neg hsize, if_pos hcut]
  dsimp only [List.nil_append]
  rw [hkeep]
  rfl

/-- A grant that holds the only SDU sends it. -/
theorem sendPdu_whole {um : UmTx} {b : BufferData} {size : ℕ} (hb : um.transmissionBuffer = [b])
    (hw : Waits b) (hsize : ¬ size < minRlcPduSize)
    (hwhole : ¬ (b.packet.isUplane ∧ b.packet.mac.packetSize > size)) :
    um.sendPdu H size .dtch = ((sendWhole H um b []).1, [(sendWhole H um b []).2]) := by
  unfold sendPdu
  rw [hb, sendLoop, if_neg (not_not.2 hw.1), if_neg hsize, if_neg hwhole]
  rfl

theorem Moves.waits {left : ℕ} {um um' : UmTx} {pdus : List UmdPdu} (h : Moves H left um pdus um')
    (hw : ∀ b ∈ um.transmissionBuffer, Waits b) : ∀ b ∈ um'.transmissionBuffer, Waits b := by
  refine h.inv (I := fun um _ => ∀ b ∈ um.transmissionBuffer, Waits b) (fun um _ b rest hb hi c hc => ?_)
    (fun um _ b left rest hb hi c hc => ?_) [] hw
  · refine hi c ?_
    rw [hb]
    exact List.mem_cons_of_mem _ hc
  · rw [hb] at hi
    rcases List.mem_cons.1 hc with rfl | hc
    · exact hi b (List.mem_cons_self ..)
    · exact hi c (List.mem_cons_of_mem _ hc)

theorem handlePdu_waits {um : UmTx} (p : Packet) (h : ∀ b ∈ um.transmissionBuffer, Waits b) :
    ∀ b ∈ (um.handlePduFromUpperLayer p .dtch).transmissionBuffer, Waits b := by
  intro b hb
  rcases List.mem_append.1 hb with hb | hb
  · exact h b hb
  · rw [List.mem_singleton.1 hb]
    exact ⟨rfl, rfl⟩

end NetSim.Rlc.UmTx

/-!
## What the grants make of the SDUs of an RLC UM sender

A run of the sender with the SDUs that it got and the PDUs that it sent. However the SDUs are cut, their payload is neither
lost nor made up (`Kept.sums`). But a cut takes the whole grant out of the payload, although the decision to cut looks at the
packet size: the PDU then exceeds the grant by its headers, and the payload left over may be negative.

* `Moves.sums`: a grant moves payload from the buffer into PDUs.
* `Moves.fitting`: a grant that holds each packet that it reaches, with its header, sends them whole.
* `um_conserves`: runs with such grants only.
-/

namespace NetSim.Rlc.UmTx

open Word

variable {H : HdrLib}

/-! ## Payloads -/

/-- The payload of the SDU `i` in the buffer. -/
def heldOf (i : ℕ) (l : List BufferData) : ℤ := (l.map fun b => if b.packet.sdu = i then b.packet.mac.payload else 0).sum

/-- The payload of the SDU `i` in PDUs. -/
def sentOf (i : ℕ) (l : List UmdPdu) : ℤ := (l.map fun p => if p.sdu = i then p.mac.payload else 0).sum

theorem heldOf_cons (i : ℕ) (b : BufferData) (l : List BufferData) :
    heldOf i (b :: l) = (if b.packet.sdu = i then b.packet.mac.payload else 0) + heldOf i l := by
  unfold heldOf
  rw [List.map_cons, List.sum_cons]

theorem heldOf_concat (i : ℕ) (l : List BufferData) (b : BufferData) :
    heldOf i (l ++ [b]) = heldOf i l + if b.packet.sdu = i then b.packet.mac.payload else 0 := by
  simp [heldOf]

theorem sentOf_append (i : ℕ) (l l' : List UmdPdu) : sentOf i (l ++ l') = sentOf i l + sentOf i l' := by
  simp [sentOf]

theorem sentOf_concat (i : ℕ) (l : List UmdPdu) (p : UmdPdu) :
    sentOf i (l ++ [p]) = sentOf i l + if p.sdu = i then p.mac.payload else 0 := by
  simp [sentOf]

theorem payload_fragment (p : Packet) (size sn : ℕ) :
    (fragmentPacket H p size sn).1.mac.payload = size ∧
      (fragmentPacket H p size sn).2.mac.payload = p.mac.payload - size := by
  refine ⟨H.payload_add _ _, (H.payload_add _ _).trans ?_⟩
  dsimp only
  rw [payload_umdHdrRemove]

/-- **A grant moves payload** of each SDU from the buffer into PDUs. -/
theorem Moves.sums {left : ℕ} {um um' : UmTx} {pdus : List UmdPdu} (h : Moves H left um pdus um') (i : ℕ) :
    sentOf i pdus + heldOf i um'.transmissionBuffer = heldOf i um.transmissionBuffer := by
  have hinv := h.inv
    (I := fun um' ps => sentOf i ps + heldOf i um'.transmissionBuffer = heldOf i um.transmissionBuffer) ?_ ?_ [] ?_
  · rwa [List.nil_append] at hinv
  · intro um₁ ps b rest hb hi
    have hpay : (sendWhole H um₁ b rest).2.mac.payload = b.packet.mac.payload := payload_addHdr b.packet
    have hsdu : (sendWhole H um₁ b rest).2.sdu = b.packet.sdu := rfl
    have hbuf : (sendWhole H um₁ b rest).1.transmissionBuffer = rest := rfl
    rw [hb, heldOf_cons] at hi
    rw [sentOf_concat, hpay, hsdu, hbuf]
    omega
  · intro um₁ ps b size rest hb hi
    obtain ⟨hret, hleft⟩ := payload_fragment (H := H) b.packet size um₁.txNext
    have hpay : (sendCut H um₁ b size rest).2.mac.payload = size := hret
    have hsdu : (sendCut H um₁ b size rest).2.sdu = b.packet.sdu := rfl
    have hbuf : heldOf i (sendCut H um₁ b size rest).1.transmissionBuffer =
        (if b.packet.sdu = i then b.packet.mac.payload - size else 0) + heldOf i rest := by
      rw [← hleft]
      exact heldOf_cons i _ rest
    rw [hb, heldOf_cons] at hi
    rw [sentOf_concat, hpay, hsdu, hbuf]
    split_ifs at * <;> omega
  · simp [sentOf]

/-! ## Grants that hold what they reach -/

/-- The PDUs of a grant of `left` bytes come from the packets at the front of the buffer. Those of user data carry something
and are no larger than what remains of the grant. -/
def WithinGrant : List BufferData → List UmdPdu → ℤ → Prop
  | b :: bs, p :: ps, left =>
    (b.packet.isUplane = true → 0 < p.mac.payload ∧ p.mac.packetSize ≤ left) ∧ WithinGrant bs ps (left - p.mac.payload)
  | _, _, _ => True

/-- Each packet of user data that a grant of `left` bytes reaches has a payload, and the grant holds it with its header. -/
def fitsWhole : List BufferData → ℤ → Prop
  | [], _ => True
  | b :: rest, left =>
    ofInt32 left < minRlcPduSize ∨
      (b.packet.isUplane = true → 0 < b.packet.mac.payload ∧ b.packet.mac.packetSize + umdHdrSize .all ≤ left) ∧
        fitsWhole rest (left - b.packet.mac.payload)

/-- A packet that has not been cut. -/
structure Uncut (b : BufferData) : Prop where
  noHdr : b.packet.umdHdr = none
  payload : 0 ≤ b.packet.mac.payload
  packetSize : 0 ≤ b.packet.mac.packetSize

theorem sub32_ofInt32 (a b : ℤ) : sub32 (ofInt32 a) (ofInt32 b) = ofInt32 (a - b) := by
  unfold sub32 ofInt32 u32
  omega

/-- **A grant that holds what it reaches** sends the packets at the front of the buffer whole. -/
theorem Moves.fitting (hadd : ∀ m n, (H.addToPacket m n).packetSize = m.packetSize + n) {left : ℕ} {um um' : UmTx}
    {pdus : List UmdPdu} (h : Moves H left um pdus um') :
    ∀ grant : ℤ, left = ofInt32 grant → grant < 4294967296 → (∀ b ∈ um.transmissionBuffer, Uncut b) →
      fitsWhole um.transmissionBuffer grant → WithinGrant um.transmissionBuffer pdus grant ∧
        ∃ k, um'.transmissionBuffer = um.transmissionBuffer.drop k := by
  induction h with
  | done left um =>
    intro grant _ _ _ _
    refine ⟨?_, 0, rfl⟩
    cases um.transmissionBuffer <;> trivial
  | @whole left um _ b rest pdus hb hmin hwhole next ih =>
    intro grant hleft hlt huncut hfits
    rw [hb] at huncut hfits ⊢
    have hb' := huncut b List.mem_cons_self
    rcases hfits with hstop | ⟨huser, hrest⟩
    · exact absurd (hleft ▸ hstop) hmin
    · have hnext : sub32 left b.payload = ofInt32 (grant - b.packet.mac.payload) := by
        rw [hleft]
        exact sub32_ofInt32 grant b.packet.mac.payload
      have hpay : (sendWhole H um b rest).2.mac.payload = b.packet.mac.payload := payload_addHdr b.packet
      have hsize : (sendWhole H um b rest).2.mac.packetSize = b.packet.mac.packetSize + umdHdrSize .all := by
        have hmac : (sendWhole H um b rest).2.mac = H.addToPacket b.packet.mac (umdHdrSize .all) := by
          unfold sendWhole addHdr umdHdrRemove
          rw [hb'.noHdr]
          rfl
        rw [hmac, hadd]
      have hnonneg := hb'.payload
      obtain ⟨hwithin, k, hk⟩ := ih (grant - b.packet.mac.payload) hnext (by omega)
        (fun c hc => huncut c (List.mem_cons_of_mem b hc)) hrest
      refine ⟨⟨?_, ?_⟩, k + 1, hk⟩
      · rw [hpay, hsize]
        exact huser
      · rw [hpay]
        exact hwithin
  | @cut left um b rest hb hmin hcut =>
    intro grant hleft hlt huncut hfits
    rw [hb] at huncut hfits
    have hb' := huncut b List.mem_cons_self
    rcases hfits with hstop | ⟨huser, -⟩
    · exact absurd (hleft ▸ hstop) hmin
    · -- the grant is larger than the packet, so the packet is not cut
      obtain ⟨-, hroom⟩ := huser hcut.1
      have hnonneg := hb'.packetSize
      have hlarge := hcut.2
      have heq : (ofInt32 grant : ℤ) = grant := by
        unfold ofInt32
        omega
      rw [hleft, heq] at hlarge
      omega

/-! ## Runs -/

/-- A sender, the sizes of the SDUs that it got, and the PDUs that it sent. -/
structure UmRun where
  tx : UmTx
  sdus : List MacData
  sent : List UmdPdu

namespace UmRun

/-- One event, for the channel that the mode lets pass. The SDUs are numbered as they come, without a UMD header. -/
def step (H : HdrLib) (s : UmRun) : Event → UmRun
  | .enqueue p ch =>
    if ch.isForUm then
      { s with
        tx := s.tx.handlePduFromUpperLayer { p with sdu := s.sdus.length, umdHdr := none } ch
        sdus := s.sdus ++ [p.mac] }
    else s
  | .grant size ch =>
    if ch.isForUm then
      { s with tx := (s.tx.sendPdu H size ch).1, sent := s.sent ++ (s.tx.sendPdu H size ch).2 }
    else s

def machine (H : HdrLib) : Machine UmRun Event :=
  ⟨fun s => s.tx = .init ∧ s.sdus = [] ∧ s.sent = [], fun s e => some (s.step H e)⟩

/-- The steps that do no harm: packets have no negative sizes, and a grant, which is an unsigned number of 32 bits, holds each
packet that it reaches. -/
def Allowed (s : UmRun) : Event → Prop
  | .enqueue p ch => ch.isForUm = true → 0 ≤ p.mac.payload ∧ 0 ≤ p.mac.packetSize
  | .grant size ch => ch.isForUm = true → size < 4294967296 ∧ fitsWhole s.tx.transmissionBuffer size

/-- **The SDUs are conserved**: what the PDUs of an SDU carry and what is still buffered of it make up its payload, and no
packet of user data is buffered with a negative size. -/
structure Conserved (s : UmRun) : Prop where
  sums : ∀ (i : ℕ) (h : i < s.sdus.length),
    sentOf i s.sent + heldOf i s.tx.transmissionBuffer = (s.sdus.get ⟨i, h⟩).payload
  kept : ∀ b ∈ s.tx.transmissionBuffer, b.packet.isUplane = true →
    0 ≤ b.packet.mac.payload ∧ 0 ≤ b.packet.mac.packetSize

/-- What holds in every run, whatever the grants. -/
structure Kept (s : UmRun) : Prop where
  waits : ∀ b ∈ s.tx.transmissionBuffer, Waits b
  sums : ∀ i, sentOf i s.sent + heldOf i s.tx.transmissionBuffer = (s.sdus[i]?.map (·.payload)).getD 0

variable {s : UmRun}

theorem Kept.enqueue (h : Kept s) (p : Packet) (ch : LogicalChannel) : Kept (s.step H (.enqueue p ch)) := by
  unfold step
  dsimp only
  split_ifs with hch
  · obtain rfl := dtch_of_isForUm hch
    refine ⟨handlePdu_waits _ h.waits, ?_⟩
    intro i
    have hsum := h.sums i
    unfold handlePduFromUpperLayer addPacket
    dsimp only
    rw [heldOf_concat]
    rcases Nat.lt_trichotomy i s.sdus.length with hi | rfl | hi
    · rw [List.getElem?_append_left hi, if_neg (by dsimp only; omega)]
      omega
    · rw [List.getElem?_eq_none (Nat.le_refl _)] at hsum
      rw [List.getElem?_concat_length, if_pos rfl]
      dsimp only [Option.map_none, Option.map_some, Option.getD_none, Option.getD_some] at hsum ⊢
      omega
    · rw [List.getElem?_eq_none (by omega)] at hsum
      rw [List.getElem?_eq_none (by rw [List.length_append, List.length_singleton]; omega), if_neg (by dsimp only; omega)]
      omega
  · exact h

theorem Kept.grant (h : Kept s) (size : ℕ) (ch : LogicalChannel) : Kept (s.step H (.grant size ch)) := by
  unfold step
  dsimp only
  split_ifs with hch
  · obtain rfl := dtch_of_isForUm hch
    have hmoves := sendPdu_moves (H := H) size h.waits
    refine ⟨hmoves.waits h.waits, ?_⟩
    intro i
    have hsum := h.sums i
    have hmoved := hmoves.sums i
    dsimp only
    rw [sentOf_append]
    omega
  · exact h

/-- In every run the payload of each SDU is conserved, however it is cut. -/
theorem kept_of_reach {ok : UmRun → Event → Prop} (h : (machine H).ReachOn ok s) : Kept s := by
  refine h.inv (I := Kept) ?_ ?_
  · rintro s ⟨htx, hsdus, hsent⟩
    refine ⟨?_, ?_⟩
    · intro b hb
      rw [htx] at hb
      cases hb
    · intro i
      rw [htx, hsdus, hsent]
      rfl
  · intro s e s' hs _ hstep
    obtain rfl : s.step H e = s' := Option.some.inj hstep
    cases e with
    | enqueue p ch => exact hs.enqueue p ch
    | grant size ch => exact hs.grant size ch

/-- As long as the grants hold what they reach, no packet is cut. -/
theorem uncut_of_reach (hadd : ∀ m n, (H.addToPacket m n).packetSize = m.packetSize + n)
    (h : (machine H).ReachOn Allowed s) : ∀ b ∈ s.tx.transmissionBuffer, Uncut b := by
  have hboth : Kept s ∧ ∀ b ∈ s.tx.transmissionBuffer, Uncut b := by
    refine h.inv (I := fun s => Kept s ∧ ∀ b ∈ s.tx.transmissionBuffer, Uncut b) ?_ ?_
    · intro s hinit
      have hreach : (machine H).ReachOn Allowed s := .init hinit
      refine ⟨kept_of_reach hreach, ?_⟩
      intro b hb
      rw [hinit.1] at hb
      cases hb
    · rintro s e s' ⟨hkept, huncut⟩ hallowed hstep
      obtain rfl : s.step H e = s' := Option.some.inj hstep
      cases e with
      | enqueue p ch =>
        refine ⟨hkept.enqueue p ch, ?_⟩
        unfold step
        dsimp only
        split_ifs with hch
        · intro b hb
          rcases List.mem_append.1 hb with hb | hb
          · exact huncut b hb
          · rw [List.mem_singleton.1 hb]
            exact ⟨rfl, (hallowed hch).1, (hallowed hch).2⟩
        · exact huncut
      | grant size ch =>
        refine ⟨hkept.grant size ch, ?_⟩
        unfold step
        dsimp only
        split_ifs with hch
        · obtain rfl := dtch_of_isForUm hch
          obtain ⟨hsize, hfits⟩ := hallowed hch
          obtain ⟨-, k, hk⟩ := (sendPdu_moves (H := H) size hkept.waits).fitting hadd size
            (ofInt32_natCast hsize).symm (by omega) huncut hfits
          intro b hb
          dsimp only at hb
          rw [hk] at hb
          exact huncut b (List.mem_of_mem_drop hb)
        · exact huncut
  exact hboth.2

/-- **The SDUs are conserved** in every run whose grants hold what they reach, and these grants are kept to. The header
library adds the size of a header to that of the packet. -/
theorem um_conserves (H : HdrLib) (hadd : ∀ m n, (H.addToPacket m n).packetSize = m.packetSize + n) (s : UmRun)
    (h : (machine H).ReachOn Allowed s) :
    s.Conserved ∧ ∀ size ch, ch.isForUm = true → Allowed s (.grant size ch) →
      WithinGrant s.tx.transmissionBuffer (s.tx.sendPdu H size ch).2 size := by
  have hkept := kept_of_reach h
  have huncut := uncut_of_reach hadd h
  refine ⟨⟨?_, ?_⟩, ?_⟩
  · intro i hi
    have hsum := hkept.sums i
    rw [List.getElem?_eq_getElem hi] at hsum
    exact hsum
  · intro b hb _
    exact ⟨(huncut b hb).payload, (huncut b hb).packetSize⟩
  · intro size ch hch hallowed
    obtain rfl := dtch_of_isForUm hch
    obtain ⟨hsize, hfits⟩ := hallowed hch
    exact ((sendPdu_moves (H := H) size hkept.waits).fitting hadd size (ofInt32_natCast hsize).symm (by omega) huncut
      hfits).1

/-- An SDU of 100 bytes with 20 bytes of headers is buffered. -/
def oneSdu : UmRun := (⟨.init, [], []⟩ : UmRun).step .overhead (.enqueue ⟨0, true, ⟨100, 20, 120⟩, none⟩ .dtch)

theorem oneSdu_reached : (machine .overhead).ReachOn Allowed oneSdu := by
  have hinit : (machine .overhead).ReachOn Allowed ⟨.init, [], []⟩ := .init ⟨rfl, rfl, rfl⟩
  have hsdu : Allowed ⟨.init, [], []⟩ (.enqueue ⟨0, true, ⟨100, 20, 120⟩, none⟩ .dtch) := fun _ => ⟨by decide, by decide⟩
  exact hinit.step hsdu rfl

theorem um_conserves_sample : oneSdu.Conserved ∧ ∀ size ch, ch.isForUm = true → Allowed oneSdu (.grant size ch) →
    WithinGrant oneSdu.tx.transmissionBuffer (oneSdu.tx.sendPdu .overhead size ch).2 size :=
  um_conserves .overhead (fun _ _ => rfl) oneSdu oneSdu_reached

/-- A grant of 110 bytes cuts 110 bytes off the payload of 100: the PDU has 131 bytes, and -10 are left over. -/
theorem um_overcuts : (machine .overhead).Reach oneSdu ∧
    ¬ WithinGrant oneSdu.tx.transmissionBuffer (oneSdu.tx.sendPdu .overhead 110 .dtch).2 110 ∧
    ¬ (oneSdu.step .overhead (.grant 110 .dtch)).Conserved := by
  refine ⟨oneSdu_reached.mono fun _ _ _ => trivial, ?_, ?_⟩
  · intro h
    exact absurd (h.1 rfl).2 (by decide)
  · intro h
    have hleft := (h.kept _ List.mem_cons_self rfl).1
    exact absurd hleft (by decide)

end UmRun

end NetSim.Rlc.UmTx
