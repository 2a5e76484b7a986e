import NetSim.Proof.AmSender
import Mathlib.Algebra.BigOperators.Group.List.Basic
import Mathlib.Algebra.Ring.Int.Defs

/-!
# The grant of an RLC AM entity

What a grant of `LTENR_RLCAM_SEND_PDU` takes: the retransmissions are counted with all their bytes, the new PDUs without
their overhead. So a grant is respected, with the right return value, if and only if it sends nothing new.

* `retransmissionLoop_spec`: what the retransmissions take.
* `transmissionLoop_spec`, `transmissionLoop_calls`: what the new PDUs take, and when there are any.
* `grant_respected_iff`: when a grant is respected.
-/

namespace NetSim.Rlc.AmTx

open Word

variable {H : HdrLib} {cfg : AmConfig} {ch : LogicalChannel} {tx : AmTx} {l kept : List BufferData} {b : BufferData}
  {left size : ℕ}

/-! ### The property and the condition -/

/-- The bytes of the PDUs that are handed to MAC. -/
def handedBytes (cfg : AmConfig) (calls : List MacCall) : ℤ :=
  (calls.map fun c => (c.sent cfg).mac.packetSize).sum

/-- **A grant is respected**: the PDUs have at most its bytes, and as many as are returned. -/
def Respected (cfg : AmConfig) (size : ℕ) (calls : List MacCall) (sent : ℕ) : Prop :=
  handedBytes cfg calls ≤ size ∧ (sent : ℤ) = handedBytes cfg calls

/-- The packet of an entry is as large as its payload and its overhead. -/
structure Sized (b : BufferData) : Prop where
  nonneg : 0 ≤ b.packet.mac.payload
  sum : b.packet.mac.packetSize = b.packet.mac.payload + b.packet.mac.overhead

/-- An entry that a grant on a channel may take. -/
def isEligible (tx : AmTx) (ch : LogicalChannel) (b : BufferData) : Bool :=
  b.channel = ch && tx.isSnInTransmittingWindow b.sn

/-- The entries of the retransmission buffer that a grant takes: in turn, those that may be taken and fit. -/
def fitting (eligible : BufferData → Bool) : ℕ → List BufferData → List BufferData
  | _, [] => []
  | left, b :: rest =>
    if left < minRlcPduSize then []
    else if eligible b ∧ b.packet.mac.packetSize ≤ left then
      b :: fitting eligible (left - b.packet.mac.packetSize.toNat) rest
    else fitting eligible left rest

/-- What the retransmissions leave of a grant. -/
def leftForNew (tx : AmTx) (size : ℕ) (ch : LogicalChannel) : ℕ :=
  size - ((fitting (tx.isEligible ch) size tx.retransmissionBuffer).map fun b => b.packet.mac.packetSize.toNat).sum

/-- Nothing new is sent: too little is left, no entry of the transmission buffer may be taken, or the first one that may
has no room for a header and a byte. -/
def NothingNew (tx : AmTx) (size : ℕ) (ch : LogicalChannel) : Prop :=
  tx.leftForNew size ch < minRlcPduSize ∨
    ∀ b, tx.transmissionBuffer.find? (tx.isEligible ch) = some b →
      tx.leftForNew size ch ≤ b.packet.mac.overhead + amdHdrSizeWithSo

/-! ### The bytes of a call -/

theorem handedBytes_cons (cfg : AmConfig) (c : MacCall) (calls : List MacCall) :
    handedBytes cfg (c :: calls) = c.pdu.mac.packetSize + handedBytes cfg calls := by
  unfold handedBytes MacCall.sent
  obtain ⟨p, hp⟩ := sendPduToMac_snd cfg c.entity c.pdu
  rw [List.map_cons, List.sum_cons, hp]

theorem handedBytes_append (cfg : AmConfig) (calls calls' : List MacCall) :
    handedBytes cfg (calls ++ calls') = handedBytes cfg calls + handedBytes cfg calls' := by
  unfold handedBytes
  rw [List.map_append, List.sum_append]

/-! ### The retransmissions -/

theorem isEligible_iff : tx.isEligible ch b = true ↔ b.channel = ch ∧ tx.isSnInTransmittingWindow b.sn = true := by
  unfold isEligible
  rw [Bool.and_eq_true, decide_eq_true_eq]

theorem isEligible_congr {tx' : AmTx} (h : tx'.txNextAck = tx.txNextAck) : tx'.isEligible ch = tx.isEligible ch := by
  funext b
  unfold isEligible isSnInTransmittingWindow
  rw [h]

/-- Nothing is retransmitted for less than the least PDU. -/
theorem retransmissionLoop_low (l kept : List BufferData) (tx : AmTx) (hlow : left < minRlcPduSize) :
    retransmissionLoop cfg ch kept l tx left = ⟨tx, left, []⟩ := by
  induction l generalizing kept with
  | nil => rfl
  | cons b rest ih =>
    unfold retransmissionLoop
    split
    · exact ih _
    · rfl

theorem fitting_low (eligible : BufferData → Bool) (l : List BufferData) (hlow : left < minRlcPduSize) :
    fitting eligible left l = [] := by
  cases l with
  | nil => rfl
  | cons b rest => exact if_pos hlow

/-- What a retransmission does to the entity and the grant. -/
theorem sendRetransmission_spec (cfg : AmConfig) (ch : LogicalChannel) (tx : AmTx) (buffer : List BufferData)
    (b : BufferData) :
    (sendRetransmission cfg ch tx buffer b).1.transmissionBuffer = tx.transmissionBuffer ∧
      (sendRetransmission cfg ch tx buffer b).1.txNextAck = tx.txNextAck ∧
      (sendRetransmission cfg ch tx buffer b).2.pdu.mac = b.packet.mac := by
  obtain ⟨_, _, _, -, heq⟩ := sendRetransmission_eq cfg ch tx buffer b
  rw [heq]
  exact ⟨rfl, rfl, rfl⟩

/-- What a loop of retransmissions does. -/
structure Retransmits (cfg : AmConfig) (ch : LogicalChannel) (tx : AmTx) (left : ℕ) (l : List BufferData)
    (r : SendResult) : Prop where
  handed : handedBytes cfg r.calls = (left : ℤ) - r.left
  left_eq : r.left = left - ((fitting (tx.isEligible ch) left l).map fun b => b.packet.mac.packetSize.toNat).sum
  left_le : r.left ≤ left
  buffer : r.tx.transmissionBuffer = tx.transmissionBuffer
  window : r.tx.txNextAck = tx.txNextAck

theorem Retransmits.none (tx : AmTx) (left : ℕ) (h : fitting (tx.isEligible ch) left l = []) :
    Retransmits cfg ch tx left l ⟨tx, left, []⟩ := by
  refine ⟨?_, ?_, le_refl _, rfl, rfl⟩
  · exact (sub_self _).symm
  · rw [h]
    rfl

/-- **The retransmissions** take the bytes of the entries that fit, and leave the transmission buffer and the window. -/
theorem retransmissionLoop_spec (cfg : AmConfig) (ch : LogicalChannel) (l kept : List BufferData) (tx : AmTx) (left : ℕ)
    (hleft : left < 4294967296) (hsized : ∀ b ∈ l, Sized b) :
    Retransmits cfg ch tx left l (retransmissionLoop cfg ch kept l tx left) := by
  induction l generalizing kept tx left with
  | nil => exact .none tx left rfl
  | cons b rest ih =>
    have hrest : ∀ b ∈ rest, Sized b := fun c hc => hsized c (List.mem_cons_of_mem b hc)
    by_cases hlow : left < minRlcPduSize
    · rw [retransmissionLoop_low _ _ _ hlow]
      exact .none tx left (fitting_low _ _ hlow)
    · by_cases htake : tx.isEligible ch b = true ∧ b.packet.mac.packetSize ≤ left
      · -- the entry is sent, and its bytes are counted
        obtain ⟨heligible, hfits⟩ := htake
        obtain ⟨hch, hw⟩ := isEligible_iff.1 heligible
        have hb := hsized b List.mem_cons_self
        have hnonneg : 0 ≤ b.packet.mac.packetSize := by
          have h1 := hb.nonneg
          have h2 := hb.sum
          omega
        have hsize : b.size = b.packet.mac.packetSize.toNat := by
          unfold BufferData.size ofInt32
          omega
        obtain ⟨hbuffer, hwindow, hmac⟩ := sendRetransmission_spec cfg ch tx (kept ++ rest) b
        have hnext := ih kept (sendRetransmission cfg ch tx (kept ++ rest) b).1
          (left - b.packet.mac.packetSize.toNat) (by omega) hrest
        have hloop : retransmissionLoop cfg ch kept (b :: rest) tx left =
            ⟨(retransmissionLoop cfg ch kept rest (sendRetransmission cfg ch tx (kept ++ rest) b).1
                (left - b.packet.mac.packetSize.toNat)).tx,
              (retransmissionLoop cfg ch kept rest (sendRetransmission cfg ch tx (kept ++ rest) b).1
                (left - b.packet.mac.packetSize.toNat)).left,
              (sendRetransmission cfg ch tx (kept ++ rest) b).2 ::
                (retransmissionLoop cfg ch kept rest (sendRetransmission cfg ch tx (kept ++ rest) b).1
                  (left - b.packet.mac.packetSize.toNat)).calls⟩ := by
          rw [retransmissionLoop, if_neg (not_not.2 hch), if_neg hlow, if_neg (not_not.2 hw), if_neg (not_lt.2 hfits),
            hsize, if_neg (by omega)]
        have hfit : fitting (tx.isEligible ch) left (b :: rest) =
            b :: fitting (tx.isEligible ch) (left - b.packet.mac.packetSize.toNat) rest := by
          rw [fitting, if_neg hlow, if_pos ⟨heligible, hfits⟩]
        have hleq := hnext.left_eq
        rw [isEligible_congr hwindow] at hleq
        have hhanded := hnext.handed
        have hle := hnext.left_le
        rw [hloop]
        refine ⟨?_, ?_, ?_, hnext.buffer.trans hbuffer, hnext.window.trans hwindow⟩
        · rw [handedBytes_cons, hhanded, hmac]
          dsimp only
          omega
        · rw [hfit, List.map_cons, List.sum_cons, ← Nat.sub_sub]
          exact hleq
        · dsimp only
          omega
      · -- the entry is passed over
        have hnext := ih (kept ++ [b]) tx left hleft hrest
        have hloop : retransmissionLoop cfg ch kept (b :: rest) tx left =
            retransmissionLoop cfg ch (kept ++ [b]) rest tx left := by
          rw [retransmissionLoop]
          split
          · rfl
          · rename_i hch
            split
            · rfl
            · rename_i hw
              rw [if_pos]
              have heligible := isEligible_iff.2 ⟨not_not.1 hch, by simpa using hw⟩
              exact not_le.1 fun hle => htake ⟨heligible, hle⟩
        have hfit : fitting (tx.isEligible ch) left (b :: rest) = fitting (tx.isEligible ch) left rest := by
          rw [fitting, if_neg hlow, if_neg htake]
        rw [hloop]
        exact ⟨hnext.handed, by rw [hfit]; exact hnext.left_eq, hnext.left_le, hnext.buffer, hnext.window⟩

/-! ### New PDUs -/

theorem amdHdrSize_pos (si : SI) : 2 ≤ amdHdrSize si := by
  cases si <;> decide

/-- **What is taken of an entry** has a payload that is counted, and with the header more bytes than that. -/
theorem fragmentPacket_bytes (hH : ∀ m n, (H.addToPacket m n).packetSize = m.packetSize + n) (hb : Sized b)
    {ret : BufferData} (h : fragmentPacket b left = .whole ret ∨ ∃ rest, fragmentPacket b left = .cut ret rest) :
    ret.payload ≤ left ∧ (ret.payload : ℤ) < (amdPdu (amHdrAdd H ret)).mac.packetSize := by
  have hmac : (amdPdu (amHdrAdd H ret)).mac.packetSize = ret.packet.mac.packetSize + amdHdrSize ret.si :=
    hH ret.packet.mac (amdHdrSize ret.si)
  have hpos := amdHdrSize_pos ret.si
  have hnonneg := hb.nonneg
  have hsum := hb.sum
  rw [hmac]
  rcases h with h | ⟨rest, h⟩
  · have hret := fragmentPacket_whole h
    unfold fragmentPacket at h
    dsimp only at h
    split at h
    · exact absurd h (by simp)
    · rename_i hsize
      split at h
      · exact absurd h (by simp)
      · rename_i hpay
        have hsame : ret.payload = b.payload := by rw [hret]; rfl
        have hpacket : ret.packet.mac.packetSize = b.packet.mac.packetSize := by rw [hret]
        have hcast : (b.payload : ℤ) ≤ b.packet.mac.payload := by
          unfold BufferData.payload ofInt32
          omega
        rw [hsame, hpacket]
        omega
  · unfold fragmentPacket at h
    dsimp only at h
    split at h
    · exact absurd h (by simp)
    · rename_i hsize
      split at h
      · rename_i hlt
        simp only [Fragment.cut.injEq] at h
        obtain ⟨rfl, -⟩ := h
        have hcast : b.payload < 4294967296 := ofInt32_lt _
        have hpay : ofInt32 ((left - (b.packet.mac.overhead + amdHdrSizeWithSo) : ℕ) : ℤ) =
            left - (b.packet.mac.overhead + amdHdrSizeWithSo) := ofInt32_natCast (by omega)
        unfold BufferData.payload
        dsimp only at hpos ⊢
        rw [hpay]
        omega
      · exact absurd h (by simp)

/-- Nothing new is sent for less than the least PDU. -/
theorem transmissionLoop_low (l kept : List BufferData) (tx : AmTx) (hlow : left < minRlcPduSize) :
    transmissionLoop H cfg ch kept l tx left = ⟨tx, left, []⟩ := by
  induction l generalizing kept with
  | nil => rfl
  | cons b rest ih =>
    unfold transmissionLoop
    split
    · exact ih _
    · rfl

/-- **New PDUs** have more bytes than are counted, if there are any. -/
theorem transmissionLoop_spec (cfg : AmConfig) (ch : LogicalChannel)
    (hH : ∀ m n, (H.addToPacket m n).packetSize = m.packetSize + n) (l kept : List BufferData) (tx : AmTx) (left : ℕ) (hleft : left < 4294967296) (hsized : ∀ b ∈ l, Sized b) :
    (transmissionLoop H cfg ch kept l tx left).left ≤ left ∧
      (left : ℤ) - (transmissionLoop H cfg ch kept l tx left).left ≤
        handedBytes cfg (transmissionLoop H cfg ch kept l tx left).calls ∧
      ((transmissionLoop H cfg ch kept l tx left).calls ≠ [] →
        (left : ℤ) - (transmissionLoop H cfg ch kept l tx left).left <
          handedBytes cfg (transmissionLoop H cfg ch kept l tx left).calls) := by
  have hnone : ∀ (tx : AmTx) (left : ℕ), (⟨tx, left, []⟩ : SendResult).left ≤ left ∧
      (left : ℤ) - (⟨tx, left, []⟩ : SendResult).left ≤ handedBytes cfg (⟨tx, left, []⟩ : SendResult).calls ∧
      ((⟨tx, left, []⟩ : SendResult).calls ≠ [] →
        (left : ℤ) - (⟨tx, left, []⟩ : SendResult).left < handedBytes cfg (⟨tx, left, []⟩ : SendResult).calls) :=
    fun tx left => ⟨le_refl _, le_of_eq (sub_self _), fun h => absurd rfl h⟩
  induction l generalizing kept tx left with
  | nil => exact hnone tx left
  | cons b rest ih =>
    have hb := hsized b List.mem_cons_self
    have hrest : ∀ b ∈ rest, Sized b := fun c hc => hsized c (List.mem_cons_of_mem b hc)
    rw [transmissionLoop]
    split
    · exact ih _ _ _ hleft hrest
    · split
      · exact hnone tx left
      · split
        · exact ih _ _ _ hleft hrest
        · split
          · exact hnone tx left
          · rename_i ret hf
            obtain ⟨hle, hlt⟩ := fragmentPacket_bytes hH hb (.inl hf)
            have hsub := sub32_of_le hle hleft
            obtain ⟨hle', hhanded, -⟩ := ih kept (sendTransmission H cfg ch tx (kept ++ rest) ret).1
              (sub32 left ret.payload) (by omega) hrest
            have hpdu : (sendTransmission H cfg ch tx (kept ++ rest) ret).2.pdu = amdPdu (amHdrAdd H ret) := rfl
            dsimp only
            rw [handedBytes_cons, hpdu]
            refine ⟨by omega, by omega, fun _ => by omega⟩
          · rename_i ret rest' hf
            obtain ⟨hle, hlt⟩ := fragmentPacket_bytes hH hb (.inr ⟨rest', hf⟩)
            have hsub := sub32_of_le hle hleft
            have hpdu : (sendTransmission H cfg ch tx (kept ++ rest' :: rest) ret).2.pdu = amdPdu (amHdrAdd H ret) := rfl
            have hnil : handedBytes cfg [] = 0 := rfl
            dsimp only
            rw [handedBytes_cons, hpdu, hnil]
            refine ⟨by omega, by omega, fun _ => by omega⟩

/-- **When there are none.** -/
theorem transmissionLoop_calls (H : HdrLib) (cfg : AmConfig) (ch : LogicalChannel) (l kept : List BufferData) (tx : AmTx) (left : ℕ) :
    (transmissionLoop H cfg ch kept l tx left).calls = [] ↔
      left < minRlcPduSize ∨ ∀ b, l.find? (tx.isEligible ch) = some b → left ≤ b.packet.mac.overhead + amdHdrSizeWithSo := by
  by_cases hlow : left < minRlcPduSize
  · rw [transmissionLoop_low _ _ _ hlow]
    exact ⟨fun _ => .inl hlow, fun _ => rfl⟩
  · induction l generalizing kept with
    | nil => exact ⟨fun _ => .inr fun b hb => absurd hb (by simp), fun _ => rfl⟩
    | cons b rest ih =>
      by_cases heligible : tx.isEligible ch b = true
      · obtain ⟨hch, hw⟩ := isEligible_iff.1 heligible
        rw [transmissionLoop, if_neg (not_not.2 hch), if_neg hlow, if_neg (not_not.2 hw),
          List.find?_cons_of_pos heligible]
        have hfrag : fragmentPacket b left = .none ↔ left ≤ b.packet.mac.overhead + amdHdrSizeWithSo := by
          unfold fragmentPacket
          dsimp only
          split
          · rename_i hle
            exact ⟨fun _ => hle, fun _ => rfl⟩
          · rename_i hgt
            refine ⟨fun h => ?_, fun h => absurd h hgt⟩
            split at h <;> exact absurd h (by simp)
        have hiff : (left < minRlcPduSize ∨ ∀ c, some b = some c → left ≤ c.packet.mac.overhead + amdHdrSizeWithSo) ↔
            fragmentPacket b left = .none := by
          rw [hfrag]
          constructor
          · rintro (h | h)
            · exact absurd h hlow
            · exact h b rfl
          · intro h
            exact .inr fun c hc => by rw [← Option.some.inj hc]; exact h
        rw [hiff]
        split
        · rename_i hf
          exact ⟨fun _ => hf, fun _ => rfl⟩
        · rename_i hf
          exact ⟨fun h => absurd h (by simp), fun h => absurd (hf.symm.trans h) (by simp)⟩
        · rename_i hf
          exact ⟨fun h => absurd h (by simp), fun h => absurd (hf.symm.trans h) (by simp)⟩
      · have hloop : transmissionLoop H cfg ch kept (b :: rest) tx left =
            transmissionLoop H cfg ch (kept ++ [b]) rest tx left := by
          rw [transmissionLoop]
          split
          · rfl
          · rename_i hch
            rw [if_pos]
            intro hw
            exact heligible (isEligible_iff.2 ⟨not_not.1 hch, hw⟩)
        rw [hloop, List.find?_cons_of_neg heligible]
        exact ih _

/-! ### The grant -/

/-- **A grant is respected if and only if it sends nothing new.** -/
theorem grant_respected_iff (H : HdrLib) (hH : ∀ m n, (H.addToPacket m n).packetSize = m.packetSize + n)
    (cfg : AmConfig) (tx : AmTx) (size : ℕ) (ch : LogicalChannel) (hsize : size < 4294967296)
    (hsized : ∀ b ∈ tx.retransmissionBuffer ++ tx.transmissionBuffer, Sized b) :
    Respected cfg size (tx.sendPdu H cfg size ch).2 (tx.sendPduReturn H cfg size ch) ↔ NothingNew tx size ch := by
  have hr := retransmissionLoop_spec cfg ch tx.retransmissionBuffer [] tx size hsize
    fun b hb => hsized b (List.mem_append_left _ hb)
  unfold sendPdu sendPduReturn
  dsimp only
  generalize hrdef : retransmissionLoop cfg ch [] tx.retransmissionBuffer tx size = r at hr ⊢
  have hle := hr.left_le
  have hleft : r.left = tx.leftForNew size ch := hr.left_eq
  have htaken : sub32 size r.left = size - r.left := sub32_of_le hle hsize
  have hrest : sub32 size (size - r.left) = r.left := by
    rw [sub32_of_le (Nat.sub_le _ _) hsize]
    omega
  rw [htaken, hrest]
  have ht := transmissionLoop_spec cfg ch hH r.tx.transmissionBuffer [] r.tx r.left (by omega)
    (by rw [hr.buffer]; exact fun b hb => hsized b (List.mem_append_right _ hb))
  have hcalls := transmissionLoop_calls H cfg ch r.tx.transmissionBuffer [] r.tx r.left
  generalize transmissionLoop H cfg ch [] r.tx.transmissionBuffer r.tx r.left = t at ht hcalls ⊢
  rw [isEligible_congr hr.window, hr.buffer, hleft] at hcalls
  obtain ⟨htle, hthanded, htmore⟩ := ht
  have hreturn : u32 (size - r.left + sub32 r.left t.left) = size - t.left := by
    rw [sub32_of_le htle (by omega), u32_of_lt (by omega)]
    omega
  unfold Respected NothingNew
  rw [← hcalls, hreturn, handedBytes_append, hr.handed]
  constructor
  · rintro ⟨-, hreturned⟩
    by_contra hsome
    have := htmore hsome
    omega
  · intro hnil
    rw [hnil] at hthanded ⊢
    have hzero : handedBytes cfg [] = 0 := rfl
    rw [hzero] at hthanded ⊢
    omega

/-- A sender that waits to repeat a PDU of 102 bytes. -/
def oneToRepeat : AmTx :=
  { AmTx.init with
    txNext := 1
    retransmissionBuffer := [⟨.all, 0, 0, 1, .dtch, ⟨0, true, ⟨100, 2, 102⟩, none⟩, false, false⟩] }

theorem grant_respected_sample :
    Respected .shipped 104 (oneToRepeat.sendPdu .overhead .shipped 104 .dtch).2
        (oneToRepeat.sendPduReturn .overhead .shipped 104 .dtch) ↔
      NothingNew oneToRepeat 104 .dtch :=
  grant_respected_iff .overhead (fun _ _ => rfl) .shipped oneToRepeat 104 .dtch (by decide) fun b hb => by
    rw [List.mem_singleton.1 (show b ∈ [_] from hb)]
    exact ⟨by decide, by decide⟩

/-- A sender that has three SDUs of 100 bytes to send. -/
def threeToSend : AmTx :=
  ((AmTx.init.handlePduFromUpperLayer (userSdu 0) .dtch).handlePduFromUpperLayer (userSdu 1)
    .dtch).handlePduFromUpperLayer (userSdu 2) .dtch

/-- **Overdrawn.** For a grant of 304 bytes three PDUs of 102 bytes go out, and 300 is returned. -/
theorem grant_overdrawn :
    (∀ b ∈ threeToSend.retransmissionBuffer ++ threeToSend.transmissionBuffer, Sized b) ∧
      handedBytes .shipped (threeToSend.sendPdu .overhead .shipped 304 .dtch).2 = 306 ∧
      threeToSend.sendPduReturn .overhead .shipped 304 .dtch = 300 ∧
      ¬ Respected .shipped 304 (threeToSend.sendPdu .overhead .shipped 304 .dtch).2
        (threeToSend.sendPduReturn .overhead .shipped 304 .dtch) := by
  have hbytes : handedBytes .shipped (threeToSend.sendPdu .overhead .shipped 304 .dtch).2 = 306 := by decide
  have hreturn : threeToSend.sendPduReturn .overhead .shipped 304 .dtch = 300 := by decide
  refine ⟨?_, hbytes, hreturn, ?_⟩
  · intro b hb
    have hmac : b.packet.mac = ⟨100, 0, 100⟩ :=
      (by decide : ∀ b ∈ threeToSend.retransmissionBuffer ++ threeToSend.transmissionBuffer,
        b.packet.mac = ⟨100, 0, 100⟩) b hb
    exact ⟨by rw [hmac]; decide, by rw [hmac]; decide⟩
  · rintro ⟨hle, -⟩
    rw [hbytes] at hle
    exact absurd hle (by decide)

end NetSim.Rlc.AmTx
