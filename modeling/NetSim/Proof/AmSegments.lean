import NetSim.Proof.AmStatus
import NetSim.Proof.AmWindow

/-!
# The segments that an RLC AM sender has sent

`Segments tx S` relates a sender to the set `S` of the headers it has sent: an SDU goes out
in segments with increasing SOs, the last of which ends it, and a retransmission repeats
a header. Whatever waits for an acknowledgement is a sent segment, and waits once.

* `Segments.moves`, `Segments.status`: what a grant and a STATUS PDU do to it.
* `not_covered_of_nackFindAll`: the entries that the NACKs leave behind are covered by none.
-/

namespace NetSim.Rlc

open Word

/-- The headers among the PDUs sent. -/
def SentHdr (sent : List AmdPdu) (si : SI) (sn so : ℕ) : Prop := ∃ p ∈ sent, p.si = si ∧ p.sn = sn ∧ p.so = so

theorem sentHdr_append {sent : List AmdPdu} {p : AmdPdu} {si : SI} {sn so : ℕ} :
    SentHdr (sent ++ [p]) si sn so ↔ SentHdr sent si sn so ∨ p.si = si ∧ p.sn = sn ∧ p.so = so := by
  unfold SentHdr
  constructor
  · rintro ⟨q, hq, h⟩
    rcases List.mem_append.1 hq with hq | hq
    · exact Or.inl ⟨q, hq, h⟩
    · rw [List.mem_singleton.1 hq] at h
      exact Or.inr h
  · rintro (⟨q, hq, h⟩ | h)
    · exact ⟨q, List.mem_append_left _ hq, h⟩
    · exact ⟨p, List.mem_append_right _ (List.mem_singleton_self _), h⟩

/-- The SNs and SOs of entries. -/
def keys (l : List BufferData) : List (ℕ × ℕ) := l.map fun b => (b.sn, b.so)

theorem mem_keys {l : List BufferData} {sn so : ℕ} : (sn, so) ∈ keys l ↔ ∃ b ∈ l, b.sn = sn ∧ b.so = so := by
  unfold keys
  rw [List.mem_map]
  exact exists_congr fun b => and_congr_right fun _ => Prod.mk.injEq .. ▸ Iff.rfl

theorem keys_append (l l' : List BufferData) : keys (l ++ l') = keys l ++ keys l' := List.map_append

namespace AmTx

/-! ## The invariant -/

structure Segments (tx : AmTx) (S : SI → ℕ → ℕ → Prop) : Prop where
  window : WindowOk tx
  old : ∀ si sn so, S si sn so → sn < tx.txNext
  /-- Of an SDU that waits only the segments before the next SO went out. -/
  unsent : ∀ b ∈ tx.transmissionBuffer, ∀ si so, S si b.sn so →
    b.isFragmented = true ∧ so < b.so ∧ si.endsSdu = false
  uncut : ∀ b ∈ tx.transmissionBuffer, b.isFragmented = false → b.so = 0
  last : ∀ si si' sn so so', S si sn so → S si' sn so' → si.endsSdu = true → so' ≤ so
  all : ∀ sn so, S .all sn so → so = 0
  sent : ∀ b, b ∈ tx.transmittedBuffer ∨ b ∈ tx.retransmissionBuffer → S b.si b.sn b.so
  distinct : (keys (tx.transmittedBuffer ++ tx.retransmissionBuffer)).Nodup

theorem segments_init {S : SI → ℕ → ℕ → Prop} (h : ∀ si sn so, ¬ S si sn so) : Segments init S :=
  ⟨windowOk_init, fun si sn so hs => absurd hs (h si sn so), fun _ hb => absurd hb List.not_mem_nil,
    fun _ hb => absurd hb List.not_mem_nil, fun si _ sn so _ hs => absurd hs (h si sn so),
    fun sn so hs => absurd hs (h .all sn so),
    fun _ hb => hb.elim (absurd · List.not_mem_nil) (absurd · List.not_mem_nil), List.nodup_nil⟩

variable {H : HdrLib} {cfg : AmConfig} {ch : LogicalChannel} {S S' : SI → ℕ → ℕ → Prop} {tx : AmTx}

theorem Segments.congr (h : Segments tx S) (heq : ∀ si sn so, S' si sn so ↔ S si sn so) : Segments tx S' := by
  have hS : S' = S := funext fun si => funext fun sn => funext fun so => propext (heq si sn so)
  rw [hS]
  exact h

theorem Segments.enqueue (h : Segments tx S) (p : Packet) (hn : tx.txNext + 1 < 4294967296) :
    Segments (tx.handlePduFromUpperLayer p ch) S := by
  have hcases : ∀ b ∈ (tx.handlePduFromUpperLayer p ch).transmissionBuffer,
      b ∈ tx.transmissionBuffer ∨ b.sn = tx.txNext ∧ b.so = 0 := by
    intro b hb
    rcases List.mem_append.1 hb with hb | hb
    · exact Or.inl hb
    · rw [List.mem_singleton.1 hb]
      exact Or.inr ⟨rfl, rfl⟩
  refine ⟨h.window.enqueue p hn, ?_, ?_, ?_, h.last, h.all, h.sent, h.distinct⟩
  · intro si sn so hs
    have := h.old si sn so hs
    show sn < u32 (tx.txNext + 1)
    rw [u32_of_lt hn]
    omega
  · intro b hb si so hs
    rcases hcases b hb with hb | ⟨hsn, -⟩
    · exact h.unsent b hb si so hs
    · have := h.old si b.sn so hs
      omega
  · intro b hb hf
    rcases hcases b hb with hb | ⟨-, hso⟩
    · exact h.uncut b hb hf
    · exact hso

/-! ## A grant -/

/-- Another entry of the transmission buffer has another SN. -/
theorem Segments.sn_ne (h : Segments tx S) {pre post : List BufferData} {b c : BufferData}
    (hb : tx.transmissionBuffer = pre ++ b :: post) (hc : c ∈ pre ++ post) : c.sn ≠ b.sn := by
  have hs := h.window.sorted
  rw [hb, List.map_append, List.map_cons, List.pairwise_append, List.pairwise_cons] at hs
  obtain ⟨-, ⟨hpost, -⟩, hpre⟩ := hs
  rcases List.mem_append.1 hc with hc | hc
  · have := hpre c.sn (List.mem_map_of_mem hc) b.sn (List.mem_cons_self ..)
    omega
  · have := hpost c.sn (List.mem_map_of_mem hc)
    omega

/-- The next segment of an SDU that waits was not sent before. -/
theorem Segments.fresh (h : Segments tx S) {b : BufferData} (hb : b ∈ tx.transmissionBuffer) :
    (b.sn, b.so) ∉ keys (tx.transmittedBuffer ++ tx.retransmissionBuffer) := by
  intro hm
  obtain ⟨c, hc, hsn, hso⟩ := mem_keys.1 hm
  have hs := h.sent c (List.mem_append.1 hc)
  rw [hsn] at hs
  have := (h.unsent b hb _ _ hs).2.1
  omega

/-- **A retransmission** repeats a header. -/
theorem Segments.retransmission (h : Segments tx S) {pre post : List BufferData} {b : BufferData}
    (hb : tx.retransmissionBuffer = pre ++ b :: post) :
    Segments (sendRetransmission cfg ch tx (pre ++ post) b).1 S := by
  have hwin : WindowOk (sendRetransmission cfg ch tx (pre ++ post) b).1 := h.window.retransmission hb
  obtain ⟨_, _, _, -, heq⟩ := sendRetransmission_eq cfg ch tx (pre ++ post) b
  rw [heq] at hwin ⊢
  have hperm : (tx.transmittedBuffer ++ [b] ++ (pre ++ post)).Perm
      (tx.transmittedBuffer ++ tx.retransmissionBuffer) := by
    rw [hb, List.append_assoc, List.singleton_append]
    exact List.perm_middle.symm.append_left _
  refine ⟨hwin, h.old, h.unsent, h.uncut, h.last, h.all, fun c hc => h.sent c ?_,
    (hperm.map _).nodup_iff.2 h.distinct⟩
  have hmem := hperm.mem_iff.1 (List.mem_append.2 hc)
  exact List.mem_append.1 hmem

/-- The header of a segment that goes out for the first time. -/
def Adds (S S' : SI → ℕ → ℕ → Prop) (si : SI) (sn so : ℕ) : Prop :=
  ∀ si' sn' so', S' si' sn' so' ↔ S si' sn' so' ∨ si = si' ∧ sn = sn' ∧ so = so'

/-- What a first transmission does to the headers and to the entries that wait for an
acknowledgement; `ret` is the segment of `b`. -/
theorem Segments.first (h : Segments tx S) (H : HdrLib) {b : BufferData} (ret : BufferData)
    (hb : b ∈ tx.transmissionBuffer) (hsn : ret.sn = b.sn) (hso : ret.so = b.so) (hall : ret.si = .all → b.so = 0)
    (hS : Adds S S' ret.si ret.sn ret.so) :
    (∀ si sn so, S' si sn so → sn < tx.txNext) ∧
    (∀ si si' sn so so', S' si sn so → S' si' sn so' → si.endsSdu = true → so' ≤ so) ∧
    (∀ sn so, S' .all sn so → so = 0) ∧
    (∀ c, c ∈ tx.transmittedBuffer ++ [amHdrAdd H ret] ∨ c ∈ tx.retransmissionBuffer → S' c.si c.sn c.so) ∧
    (keys (tx.transmittedBuffer ++ [amHdrAdd H ret] ++ tx.retransmissionBuffer)).Nodup := by
  have hunsent := h.unsent b hb
  rw [← hsn, ← hso] at hunsent
  refine ⟨?_, ?_, ?_, ?_, ?_⟩
  · intro si sn so hs
    rcases (hS si sn so).1 hs with hs | ⟨-, rfl, -⟩
    · exact h.old si sn so hs
    · rw [hsn]
      exact (h.window.waiting b hb).2
  · intro si si' sn so so' hs hs' hends
    rcases (hS si sn so).1 hs with hs | ⟨rfl, rfl, rfl⟩
    · rcases (hS si' sn so').1 hs' with hs' | ⟨rfl, rfl, rfl⟩
      · exact h.last si si' sn so so' hs hs' hends
      · rw [(hunsent si so hs).2.2] at hends
        exact absurd hends (by simp)
    · rcases (hS si' _ so').1 hs' with hs' | ⟨-, -, rfl⟩
      · exact Nat.le_of_lt (hunsent si' so' hs').2.1
      · exact Nat.le_refl _
  · intro sn so hs
    rcases (hS .all sn so).1 hs with hs | ⟨hsi, -, rfl⟩
    · exact h.all sn so hs
    · rw [hso]
      exact hall hsi
  · intro c hc
    have hold : (c ∈ tx.transmittedBuffer ∨ c ∈ tx.retransmissionBuffer) ∨ c = amHdrAdd H ret := by
      rcases hc with hc | hc
      · rcases List.mem_append.1 hc with hc | hc
        · exact Or.inl (Or.inl hc)
        · exact Or.inr (List.mem_singleton.1 hc)
      · exact Or.inl (Or.inr hc)
    rcases hold with hold | rfl
    · exact (hS _ _ _).2 (Or.inl (h.sent c hold))
    · exact (hS _ _ _).2 (Or.inr ⟨rfl, rfl, rfl⟩)
  · have hperm : (tx.transmittedBuffer ++ [amHdrAdd H ret] ++ tx.retransmissionBuffer).Perm
        (amHdrAdd H ret :: (tx.transmittedBuffer ++ tx.retransmissionBuffer)) := by
      rw [List.append_assoc, List.singleton_append]
      exact List.perm_middle
    have hkey : ((amHdrAdd H ret).sn, (amHdrAdd H ret).so) = (b.sn, b.so) := Prod.ext hsn hso
    rw [keys, (hperm.map _).nodup_iff, List.map_cons, List.nodup_cons, hkey]
    exact ⟨h.fresh hb, h.distinct⟩

/-- **An SDU, or the rest of one, goes out.** -/
theorem Segments.whole (h : Segments tx S) {pre post : List BufferData} {b ret : BufferData} {left : ℕ}
    (hb : tx.transmissionBuffer = pre ++ b :: post) (hw : tx.isSnInTransmittingWindow b.sn = true)
    (hf : fragmentPacket b left = .whole ret) (hS : Adds S S' ret.si ret.sn ret.so) :
    Segments (sendTransmission H cfg ch tx (pre ++ post) ret).1 S' := by
  have hmem : b ∈ tx.transmissionBuffer := mem_split hb
  have hwin : WindowOk (sendTransmission H cfg ch tx (pre ++ post) ret).1 := h.window.whole hb hw hf
  have hret := fragmentPacket_whole hf
  have hall : ret.si = .all → b.so = 0 := by
    rw [hret]
    intro hsi
    refine h.uncut b hmem ?_
    by_contra hfrag
    simp [hfrag] at hsi
  obtain ⟨hold, hlast, hzero, hsent, hdist⟩ := h.first H ret hmem (by rw [hret]) (by rw [hret]) hall hS
  obtain ⟨_, _, _, -, heq⟩ := sendTransmission_eq H cfg ch tx (pre ++ post) ret
  rw [heq] at hwin ⊢
  have hsub : ∀ c ∈ pre ++ post, c ∈ tx.transmissionBuffer := fun c => mem_of_mem_others hb
  refine ⟨hwin, hold, ?_, fun c hc => h.uncut c (hsub c hc), hlast, hzero, hsent, hdist⟩
  intro c hc si so hs
  rcases (hS si c.sn so).1 hs with hs | ⟨-, hsn, -⟩
  · exact h.unsent c (hsub c hc) si so hs
  · have hne := h.sn_ne hb hc
    rw [hret] at hsn
    exact absurd hsn.symm hne

/-- **A segment is cut off.** -/
theorem Segments.cut (h : Segments tx S) {pre post : List BufferData} {b ret b' : BufferData} {left : ℕ}
    (hb : tx.transmissionBuffer = pre ++ b :: post) (hw : tx.isSnInTransmittingWindow b.sn = true)
    (hf : fragmentPacket b left = .cut ret b') (hfits : b.so < 65535) (hS : Adds S S' ret.si ret.sn ret.so) :
    Segments (sendTransmission H cfg ch tx (pre ++ b' :: post) ret).1 S' := by
  have hmem : b ∈ tx.transmissionBuffer := mem_split hb
  have hwin : WindowOk (sendTransmission H cfg ch tx (pre ++ b' :: post) ret).1 := h.window.cut hb hw hf
  obtain ⟨n, -, -, hret, hb'⟩ := fragmentPacket_cut hf
  have hsn : ret.sn = b.sn := by rw [hret]
  have hsi : ret.si.endsSdu = false ∧ ret.si ≠ .all := by
    have heq : ret.si = if b.isFragmented then .middle else .first := by rw [hret]
    rw [heq]
    cases b.isFragmented <;> decide
  have hso : ret.so = b.so := by
    rw [hret]
    cases hfrag : b.isFragmented with
    | true => rfl
    | false => exact (h.uncut b hmem hfrag).symm
  have hsn' : b'.sn = b.sn := by rw [hb']
  have hso' : b'.so = b.so + 1 := by
    rw [hb']
    cases hfrag : b.isFragmented with
    | true => exact u16_of_lt (by omega)
    | false =>
      have := h.uncut b hmem hfrag
      show 1 = b.so + 1
      omega
  have hfrag' : b'.isFragmented = true := by rw [hb']
  obtain ⟨hold, hlast, hzero, hsent, hdist⟩ :=
    h.first H ret hmem hsn hso (fun ha => absurd ha hsi.2) hS
  obtain ⟨_, _, _, -, heq⟩ := sendTransmission_eq H cfg ch tx (pre ++ b' :: post) ret
  rw [heq] at hwin ⊢
  have hsub : ∀ c ∈ pre ++ post, c ∈ tx.transmissionBuffer := fun c => mem_of_mem_others hb
  refine ⟨hwin, hold, ?_, ?_, hlast, hzero, hsent, hdist⟩
  · intro c hc si so hs
    rcases mem_replaced.1 hc with rfl | hc
    · rw [hsn'] at hs
      rcases (hS si b.sn so).1 hs with hs | ⟨rfl, -, rfl⟩
      · obtain ⟨-, hlt, hends⟩ := h.unsent b hmem si so hs
        exact ⟨hfrag', by omega, hends⟩
      · exact ⟨hfrag', by omega, hsi.1⟩
    · rcases (hS si c.sn so).1 hs with hs | ⟨-, heq', -⟩
      · exact h.unsent c (hsub c hc) si so hs
      · exact absurd (heq'.symm.trans hsn) (h.sn_ne hb hc)
  · intro c hc hcut
    rcases mem_replaced.1 hc with rfl | hc
    · rw [hfrag'] at hcut
      exact absurd hcut (by simp)
    · exact h.uncut c (hsub c hc) hcut

/-- What a call adds to the headers. -/
theorem adds_sent (cfg : AmConfig) (sent : List AmdPdu) (c : MacCall) :
    Adds (SentHdr sent) (SentHdr (sent ++ [c.sent cfg])) c.pdu.si c.pdu.sn c.pdu.so := by
  intro si sn so
  obtain ⟨p, hp⟩ := sendPduToMac_snd cfg c.entity c.pdu
  rw [sentHdr_append, MacCall.sent, hp]

/-- **A grant.** -/
theorem Segments.moves {sent : List AmdPdu} {calls : List MacCall} {tx' : AmTx}
    (hm : Moves H cfg ch tx calls tx') (hfits : ∀ b ∈ tx.transmissionBuffer, b.so < 65535)
    (h : Segments tx (SentHdr sent)) : Segments tx' (SentHdr (sent ++ calls.map (·.sent cfg))) := by
  have hsnoc : ∀ (cs : List MacCall) (c : MacCall),
      sent ++ (cs ++ [c]).map (·.sent cfg) = sent ++ cs.map (·.sent cfg) ++ [c.sent cfg] := fun cs c => by simp
  refine hm.inv (I := fun tx cs => Segments tx (SentHdr (sent ++ cs.map (·.sent cfg))) ∧
      ∀ b ∈ tx.transmissionBuffer, b.so < 65535)
    (J := fun tx cs => Segments tx (SentHdr (sent ++ cs.map (·.sent cfg))))
    (fun _ _ hi => hi.1) ?_ ?_ ?_ [] ⟨by simpa using h, hfits⟩
  · intro tx cs pre b post hb _ _ ⟨hi, hso⟩
    rw [hsnoc]
    have hadds := adds_sent cfg (sent ++ cs.map (·.sent cfg)) (sendRetransmission cfg ch tx (pre ++ post) b).2
    refine ⟨(hi.retransmission hb).congr fun si sn so => (hadds si sn so).trans ?_, ?_⟩
    · constructor
      · rintro (hs | ⟨rfl, rfl, rfl⟩)
        · exact hs
        · exact hi.sent b (Or.inr (mem_split hb))
      · exact Or.inl
    · obtain ⟨_, _, _, -, heq⟩ := sendRetransmission_eq cfg ch tx (pre ++ post) b
      rw [heq]
      exact hso
  · intro tx cs pre b post left ret hb _ hw hf ⟨hi, hso⟩
    rw [hsnoc]
    refine ⟨hi.whole hb hw hf (adds_sent cfg _ (sendTransmission H cfg ch tx (pre ++ post) ret).2), ?_⟩
    obtain ⟨_, _, _, -, heq⟩ := sendTransmission_eq H cfg ch tx (pre ++ post) ret
    rw [heq]
    intro c hc
    exact hso c (mem_of_mem_others hb hc)
  · intro tx cs pre b post left ret b' hb _ hw hf ⟨hi, hso⟩
    rw [hsnoc]
    exact hi.cut hb hw hf (hso b (mem_split hb))
      (adds_sent cfg _ (sendTransmission H cfg ch tx (pre ++ b' :: post) ret).2)

/-! ## Expiry and STATUS PDUs -/

theorem keys_countRetx (l : List BufferData) : keys (l.map countRetx) = keys l := by
  unfold keys
  rw [List.map_map]
  rfl

/-- Entries that move from the transmitted to the retransmission buffer stay distinct. -/
theorem keys_nodup_of_moved {transmitted retransmission hit rest moved left : List BufferData}
    (h : (keys (transmitted ++ retransmission)).Nodup) (hperm : (hit ++ rest).Perm transmitted)
    (hmoved : (keys moved).Sublist (keys hit)) (hleft : left.Sublist rest) :
    (keys (left ++ (retransmission ++ moved))).Nodup := by
  have hp : (rest ++ (retransmission ++ hit)).Perm (transmitted ++ retransmission) := by
    rw [← List.append_assoc]
    exact List.perm_append_comm.trans (by rw [← List.append_assoc]; exact hperm.append_right _)
  have hn : (keys (rest ++ (retransmission ++ hit))).Nodup := (hp.map _).nodup_iff.2 h
  rw [keys_append, keys_append] at hn ⊢
  exact hn.sublist ((hleft.map _).append (hmoved.append_left _))

/-- **The poll-retransmit timer expires.** -/
theorem Segments.poll {tx' : AmTx} (h : Segments tx S) (hs : tx.handlePollRetransmitTimer cfg = some tx') :
    Segments tx' S := by
  have hwin := h.window.poll hs
  unfold handlePollRetransmitTimer at hs
  split at hs
  · obtain rfl := Option.some.inj hs
    have hmoved : ∀ c ∈ tx.pollMoved cfg, S c.si c.sn c.so := by
      intro c hc
      obtain ⟨d, hd, rfl⟩ := List.mem_map.1 (List.mem_of_mem_filter hc)
      exact h.sent d (Or.inl (List.mem_of_mem_filter hd))
    refine ⟨hwin, h.old, h.unsent, h.uncut, h.last, h.all, ?_, ?_⟩
    · intro c hc
      rcases hc with hc | hc
      · exact h.sent c (Or.inl (List.mem_of_mem_filter hc))
      · rcases List.mem_append.1 hc with hc | hc
        · exact h.sent c (Or.inr hc)
        · exact hmoved c hc
    · have hperm := List.filter_append_perm (fun b : BufferData => decide (b.sn ≤ tx.pollSn)) tx.transmittedBuffer
      have hkeys : (keys (tx.pollMoved cfg)).Sublist
          (keys (tx.transmittedBuffer.filter fun b => decide (b.sn ≤ tx.pollSn))) := by
        rw [← keys_countRetx (tx.transmittedBuffer.filter fun b => decide (b.sn ≤ tx.pollSn))]
        exact List.filter_sublist.map _
      refine keys_nodup_of_moved h.distinct hperm hkeys ?_
      have heq : (fun b : BufferData => decide (¬ b.sn ≤ tx.pollSn)) = fun b => !decide (b.sn ≤ tx.pollSn) :=
        funext fun b => decide_not
      show (tx.transmittedBuffer.filter fun b => decide (¬ b.sn ≤ tx.pollSn)).Sublist _
      rw [heq]
  · exact absurd hs (by simp)

/-- **A STATUS PDU.** -/
theorem Segments.status {tx' : AmTx} {pdu : StatusPdu} (h : Segments tx S)
    (hs : tx.receiveStatusPdu cfg pdu = some tx') : Segments tx' S := by
  have hwin := h.window.status hs
  obtain ⟨hit, rest, hfind, rfl⟩ := receiveStatusPdu_cases hs
  have hperm := nackFindAll_perm hfind
  have hold : ∀ c ∈ hit ++ rest, S c.si c.sn c.so := fun c hc => h.sent c (Or.inl (hperm.subset hc))
  refine ⟨hwin, h.old, h.unsent, h.uncut, h.last, h.all, ?_, ?_⟩
  · intro c hc
    rcases hc with hc | hc
    · exact hold c (List.mem_append_right _ (List.mem_of_mem_filter hc))
    · rcases List.mem_append.1 hc with hc | hc
      · exact h.sent c (Or.inr hc)
      · obtain ⟨d, hd, rfl⟩ := List.mem_map.1 hc
        exact hold d (List.mem_append_left _ (List.mem_of_mem_filter hd))
  · refine keys_nodup_of_moved h.distinct hperm ?_ List.filter_sublist
    rw [keys_countRetx]
    exact List.filter_sublist.map _

/-! ## What the NACKs leave behind -/

theorem findAndRemoveAllBySN_rest {l : List BufferData} {ks : List ℕ} {b : BufferData}
    (h : b ∈ (findAndRemoveAll findAndRemoveAllBySN ks l).2) : b ∈ l ∧ b.sn ∉ ks := by
  induction ks generalizing l with
  | nil => exact ⟨h, List.not_mem_nil⟩
  | cons k ks ih =>
    obtain ⟨hb, hks⟩ := ih (l := (findAndRemoveAllBySN l k).2) h
    unfold findAndRemoveAllBySN at hb
    rw [List.partition_eq_filter_filter] at hb
    obtain ⟨hb, hk⟩ := List.mem_filter.1 hb
    refine ⟨hb, ?_⟩
    intro hm
    rcases List.mem_cons.1 hm with hm | hm
    · simp [hm] at hk
    · exact hks hm

/-- Among distinct entries the first one with an SN and SO is the only one. -/
theorem not_mem_findAndRemoveBySNSO {l : List BufferData} (hn : (keys l).Nodup) (sn so : ℕ) :
    (sn, so) ∉ keys (findAndRemoveBySNSO l sn so).2 := by
  unfold findAndRemoveBySNSO
  induction l with
  | nil => exact List.not_mem_nil
  | cons c cs ih =>
    obtain ⟨hc, hcs⟩ := List.nodup_cons.1 (show ((c.sn, c.so) :: keys cs).Nodup from hn)
    by_cases heq : c.sn = sn ∧ c.so = so
    · rw [List.eraseP_cons_of_pos (by simpa using heq)]
      rw [heq.1, heq.2] at hc
      exact hc
    · rw [List.eraseP_cons_of_neg (by simpa using heq)]
      intro hmem
      rcases List.mem_cons.1 (show (sn, so) ∈ (c.sn, c.so) :: keys _ from hmem) with hmem | hmem
      · exact heq ⟨(Prod.mk.inj hmem).1.symm, (Prod.mk.inj hmem).2.symm⟩
      · exact ih hcs hmem

theorem findAndRemoveBySNSO_rest {l : List BufferData} {sn : ℕ} {ks : List ℕ} {b : BufferData}
    (hn : (keys l).Nodup) (h : b ∈ (findAndRemoveAll (fun l so => findAndRemoveBySNSO l sn so) ks l).2) :
    b ∈ l ∧ ¬ (b.sn = sn ∧ b.so ∈ ks) := by
  induction ks generalizing l with
  | nil => exact ⟨h, fun hk => absurd hk.2 List.not_mem_nil⟩
  | cons k ks ih =>
    have hsub : (findAndRemoveBySNSO l sn k).2.Sublist l := List.eraseP_sublist
    obtain ⟨hb, hks⟩ := ih (l := (findAndRemoveBySNSO l sn k).2) (hn.sublist (hsub.map _)) h
    refine ⟨hsub.subset hb, fun ⟨hsn, hm⟩ => ?_⟩
    rcases List.mem_cons.1 hm with hm | hm
    · exact not_mem_findAndRemoveBySNSO hn sn k (mem_keys.2 ⟨b, hb, hsn, hm⟩)
    · exact hks ⟨hsn, hm⟩

/-- **One NACK** takes out what it covers, in a buffer of distinct entries. -/
theorem not_covers_of_nackFind {n : Nack} {l hit rest : List BufferData} {b : BufferData}
    (hn : (keys l).Nodup) (hlt : n.e3 = true → n.nackSn + n.nackRange < 4294967296)
    (h : nackFind n l = some (hit, rest)) (hb : b ∈ rest) : b ∈ l ∧ ¬ n.Covers b.sn b.so := by
  unfold nackFind at h
  dsimp only at h
  unfold Nack.Covers
  split at h
  · rename_i he3
    rw [if_pos he3]
    split at h
    · exact absurd h (by simp)
    · have hb : b ∈ (findAndRemoveAll findAndRemoveAllBySN
          (List.range' n.nackSn (u32 (n.nackSn + n.nackRange) + 1 - n.nackSn)) l).2 := by
        rw [Option.some.inj h]
        exact hb
      obtain ⟨hbl, hks⟩ := findAndRemoveAllBySN_rest hb
      refine ⟨hbl, fun hc => hks ?_⟩
      rw [u32_of_lt (hlt he3), List.mem_range'_1]
      omega
  · rename_i he3
    rw [if_neg he3]
    split at h
    · rename_i he2
      split at h
      · exact absurd h (by simp)
      · have hb : b ∈ (findAndRemoveAll (fun l so => findAndRemoveBySNSO l n.nackSn so)
            (List.range' n.soStart (n.soEnd + 1 - n.soStart)) l).2 := by
          rw [Option.some.inj h]
          exact hb
        obtain ⟨hbl, hks⟩ := findAndRemoveBySNSO_rest hn hb
        refine ⟨hbl, fun hc => hks ⟨hc.1.symm, ?_⟩⟩
        have := hc.2 he2
        rw [List.mem_range'_1]
        omega
    · have hb : b ∈ (findAndRemoveAllBySN l n.nackSn).2 := by
        rw [Option.some.inj h]
        exact hb
      unfold findAndRemoveAllBySN at hb
      rw [List.partition_eq_filter_filter] at hb
      obtain ⟨hbl, hsn⟩ := List.mem_filter.1 hb
      refine ⟨hbl, ?_⟩
      intro hc
      simp [hc.1] at hsn

/-- **The entries left behind are covered by no NACK.** -/
theorem not_covered_of_nackFindAll {ns : List Nack} {l hit rest : List BufferData} {b : BufferData}
    (hn : (keys l).Nodup) (hlt : ∀ n ∈ ns, n.e3 = true → n.nackSn + n.nackRange < 4294967296)
    (h : nackFindAll ns l = some (hit, rest)) (hb : b ∈ rest) : b ∈ l ∧ ¬ Covered ns b.sn b.so := by
  induction ns generalizing l hit rest with
  | nil =>
    obtain ⟨-, rfl⟩ := Prod.mk.inj (Option.some.inj h)
    exact ⟨hb, fun ⟨n, hn, _⟩ => absurd hn List.not_mem_nil⟩
  | cons n ns ih =>
    obtain ⟨⟨hit₁, rest₁⟩, h₁, h⟩ := Option.bind_eq_some_iff.1 h
    obtain ⟨⟨hit₂, rest₂⟩, h₂, h⟩ := Option.bind_eq_some_iff.1 h
    obtain ⟨-, rfl⟩ := Prod.mk.inj (Option.some.inj h)
    have hn₁ : (keys rest₁).Nodup := by
      have hall : (keys (hit₁ ++ rest₁)).Nodup := ((nackFind_perm h₁).map _).nodup_iff.2 hn
      exact hall.sublist ((List.sublist_append_right hit₁ rest₁).map _)
    obtain ⟨hb₁, hnot⟩ := ih hn₁ (fun m hm => hlt m (List.mem_cons_of_mem _ hm)) h₂ hb
    obtain ⟨hbl, hnot₁⟩ := not_covers_of_nackFind hn (hlt n (List.mem_cons_self ..)) h₁ hb₁
    refine ⟨hbl, fun ⟨m, hm, hc⟩ => ?_⟩
    rcases List.mem_cons.1 hm with rfl | hm
    · exact hnot₁ hc
    · exact hnot ⟨m, hm, hc⟩

end AmTx

end NetSim.Rlc
