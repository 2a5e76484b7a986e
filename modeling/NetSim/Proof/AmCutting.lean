import Mathlib.Algebra.BigOperators.Group.List.Basic
import Mathlib.Algebra.Ring.Int.Defs
import NetSim.Proof.AmSender

/-!
# The segments that an RLC AM sender cuts an SDU into

Grants cut segments off an SDU that waits, until one takes the rest of it. Whatever happens in between, the segments are
numbered from zero, the first and the last are labelled, and their payloads add up.

* `IsSegmentation`: what the segments of an SDU look like, all of them or those cut so far.
* `Cut.moves`: a grant keeps what is cut and what waits together.
* `isSegmentation_of_reachOn`: so does every run.
-/

namespace NetSim.Rlc

open Word

/-- The SI of segment `i`, if there are `n` of them so far; `out` if they are all. -/
def segmentSi (out : Bool) (n i : ℕ) : SI :=
  if out ∧ n = 1 then .all else if i = 0 then .first else if out ∧ i + 1 = n then .last else .middle

/-- The payloads of PDUs together. -/
def payloadOf (pdus : List AmdPdu) : ℤ := (pdus.map fun q => q.mac.payload).sum

/-- **The segments of an SDU**, all of them if it is out: SI, SN and SO, positive payloads, and their sum. -/
structure IsSegmentation (sn : ℕ) (payload : ℤ) (out : Bool) (segs : List AmdPdu) : Prop where
  hdr : segs.map (fun q => (q.si, q.sn, q.so)) = (List.range segs.length).map fun i => (segmentSi out segs.length i, sn, i)
  positive : 0 < payload → ∀ q ∈ segs, 0 < q.mac.payload
  part : out = false → segs ≠ [] → payloadOf segs < payload
  sum : out = true → payloadOf segs = payload
  nonempty : out = true → segs ≠ []

theorem payloadOf_append (l l' : List AmdPdu) : payloadOf (l ++ l') = payloadOf l + payloadOf l' := by
  unfold payloadOf
  rw [List.map_append, List.sum_append]

theorem payloadOf_singleton (q : AmdPdu) : payloadOf [q] = q.mac.payload := by simp [payloadOf]

/-- The segments cut before keep their labels. -/
theorem segmentSi_succ {out : Bool} {n i : ℕ} (hi : i < n) : segmentSi out (n + 1) i = segmentSi false n i := by
  unfold segmentSi
  have hone : ¬ (out = true ∧ n + 1 = 1) := by
    rintro ⟨-, hn⟩
    omega
  have hlast : ¬ (out = true ∧ i + 1 = n + 1) := by
    rintro ⟨-, hn⟩
    omega
  simp only [hone, hlast, Bool.false_eq_true, false_and, if_false]

variable {sn : ℕ} {payload : ℤ} {segs : List AmdPdu} {out : Bool}

theorem IsSegmentation.nil (sn : ℕ) (payload : ℤ) : IsSegmentation sn payload false [] where
  hdr := rfl
  positive _ _ hq := absurd hq List.not_mem_nil
  part _ hne := absurd rfl hne
  sum hout := absurd hout (by simp)
  nonempty hout := absurd hout (by simp)

/-- **One segment more.** -/
theorem IsSegmentation.snoc (h : IsSegmentation sn payload false segs) {q : AmdPdu} (hsn : q.sn = sn)
    (hso : q.so = segs.length) (hsi : q.si = segmentSi out (segs.length + 1) segs.length)
    (hpos : 0 < payload → 0 < q.mac.payload) (hpart : out = false → payloadOf segs + q.mac.payload < payload)
    (hsum : out = true → payloadOf segs + q.mac.payload = payload) : IsSegmentation sn payload out (segs ++ [q]) where
  hdr := by
    have hold : (List.range segs.length).map (fun i => (segmentSi out (segs.length + 1) i, sn, i)) =
        (List.range segs.length).map fun i => (segmentSi false segs.length i, sn, i) := by
      apply List.map_congr_left
      intro i hi
      rw [segmentSi_succ (List.mem_range.1 hi)]
    rw [List.map_append, h.hdr, List.length_append, List.length_singleton, List.range_succ, List.map_append, hold,
      List.map_singleton, List.map_singleton, hsn, hso, hsi]
  positive hp p hmem := by
    rcases List.mem_append.1 hmem with hmem | hmem
    · exact h.positive hp p hmem
    · rw [List.mem_singleton.1 hmem]
      exact hpos hp
  part hout _ := by
    rw [payloadOf_append, payloadOf_singleton]
    exact hpart hout
  sum hout := by
    rw [payloadOf_append, payloadOf_singleton]
    exact hsum hout
  nonempty _ := by simp

namespace AmTx

/-- Whether a call sends something of an SN for the first time. -/
def MacCall.isFirstOf (sn : ℕ) (c : MacCall) : Bool := !c.isRetransmission && c.pdu.sn = sn

/-- The PDUs of an SN that go to MAC for the first time. -/
def firstSent (cfg : AmConfig) (sn : ℕ) (calls : List MacCall) : List AmdPdu :=
  (calls.filter (MacCall.isFirstOf sn)).map (·.sent cfg)

/-- The entries of an SN that wait for their first transmission. -/
def unsentOf (tx : AmTx) (sn : ℕ) : List BufferData := tx.transmissionBuffer.filter fun b => b.sn = sn

/-- What is left of an SDU of which the segments `segs` have been cut. -/
structure Rest (sn : ℕ) (payload : ℤ) (segs : List AmdPdu) (b : BufferData) : Prop where
  sn_eq : b.sn = sn
  fragmented : b.isFragmented = true ↔ segs ≠ []
  so_eq : b.so = segs.length
  length_le : (segs.length : ℤ) ≤ payloadOf segs
  left : payloadOf segs + b.packet.mac.payload = payload
  nonneg : 0 ≤ b.packet.mac.payload
  positive : segs ≠ [] → 0 < b.packet.mac.payload

/-- The label of the next segment. -/
theorem Rest.segmentSi_eq {b : BufferData} (h : Rest sn payload segs b) (out : Bool) :
    segmentSi out (segs.length + 1) segs.length =
      if b.isFragmented then (if out then .last else .middle) else if out then .all else .first := by
  unfold segmentSi
  by_cases hnil : segs = []
  · have hfrag : b.isFragmented = false := by
      by_contra hfrag
      exact h.fragmented.1 (by simpa using hfrag) hnil
    simp [hfrag, hnil]
  · have hfrag : b.isFragmented = true := h.fragmented.2 hnil
    have hlen : segs.length ≠ 0 := fun h0 => hnil (List.length_eq_zero_iff.1 h0)
    simp [hfrag, hlen]

/-- **The SDU between buffer and MAC**: the segments sent, and the rest if it still waits. -/
def Cut (sn : ℕ) (payload : ℤ) (tx : AmTx) (segs : List AmdPdu) : Prop :=
  (∃ b, tx.unsentOf sn = [b] ∧ Rest sn payload segs b ∧ IsSegmentation sn payload false segs) ∨
    tx.unsentOf sn = [] ∧ IsSegmentation sn payload true segs

variable {H : HdrLib} {cfg : AmConfig} {ch : LogicalChannel} {tx : AmTx} {calls : List MacCall}

/-! ## One move -/

theorem firstSent_append (cfg : AmConfig) (sn : ℕ) (cs cs' : List MacCall) :
    firstSent cfg sn (cs ++ cs') = firstSent cfg sn cs ++ firstSent cfg sn cs' := by
  unfold firstSent
  rw [List.filter_append, List.map_append]

theorem firstSent_other {c : MacCall} (hc : c.isFirstOf sn = false) : firstSent cfg sn [c] = [] := by
  unfold firstSent
  rw [List.filter_cons_of_neg (by simp [hc])]
  rfl

theorem firstSent_self {c : MacCall} (hc : c.isFirstOf sn = true) : firstSent cfg sn [c] = [c.sent cfg] := by
  unfold firstSent
  rw [List.filter_cons_of_pos hc]
  rfl

/-- An entry of another SN leaves or changes. -/
theorem unsentOf_other {l l' : List BufferData} {pre post : List BufferData} {b : BufferData} (hl : l = pre ++ b :: post)
    (hb : b.sn ≠ sn) (hl' : l' = pre ++ post ∨ ∃ b', b'.sn = b.sn ∧ l' = pre ++ b' :: post) :
    (l'.filter fun b => b.sn = sn) = l.filter fun b => b.sn = sn := by
  rcases hl' with rfl | ⟨b', hb', rfl⟩
  · rw [hl, List.filter_append, List.filter_append, List.filter_cons_of_neg (by simpa using hb)]
  · have hne : b'.sn ≠ sn := by
      rw [hb']
      exact hb
    rw [hl, List.filter_append, List.filter_append, List.filter_cons_of_neg (by simpa using hne),
      List.filter_cons_of_neg (by simpa using hb)]

/-- The one entry of an SN. -/
theorem unsentOf_self {l pre post : List BufferData} {b c : BufferData} (hl : l = pre ++ b :: post) (hb : b.sn = sn)
    (hone : (l.filter fun b => b.sn = sn) = [c]) : b = c ∧ ((pre ++ post).filter fun b => b.sn = sn) = [] ∧
      ∀ b' : BufferData, b'.sn = sn → ((pre ++ b' :: post).filter fun b => b.sn = sn) = [b'] := by
  have hsplit : (pre.filter fun b => b.sn = sn) ++ b :: (post.filter fun b => b.sn = sn) = [c] := by
    rw [← hone, hl, List.filter_append, List.filter_cons_of_pos (by simpa using hb)]
  have hlen := congrArg List.length hsplit
  simp only [List.length_append, List.length_cons, List.length_nil] at hlen
  have hpre : (pre.filter fun b => b.sn = sn) = [] := List.length_eq_zero_iff.1 (by omega)
  have hpost : (post.filter fun b => b.sn = sn) = [] := List.length_eq_zero_iff.1 (by omega)
  rw [hpre, hpost] at hsplit
  refine ⟨(List.cons.inj hsplit).1, ?_, ?_⟩
  · rw [List.filter_append, hpre, hpost]
    rfl
  · intro b' hb'
    rw [List.filter_append, List.filter_cons_of_pos (by simpa using hb'), hpre, hpost]
    rfl

/-- What MAC gets of an entry. -/
theorem sent_sendTransmission (H : HdrLib) (cfg : AmConfig) (ch : LogicalChannel) (tx : AmTx) (buffer : List BufferData)
    (ret : BufferData) : ∃ q, (sendTransmission H cfg ch tx buffer ret).2.sent cfg = q ∧ q.si = ret.si ∧ q.sn = ret.sn ∧
      q.so = ret.so ∧ q.mac.payload = ret.packet.mac.payload := by
  obtain ⟨p, hp⟩ := sendPduToMac_snd cfg (sendTransmission H cfg ch tx buffer ret).2.entity
    (sendTransmission H cfg ch tx buffer ret).2.pdu
  refine ⟨_, rfl, ?_⟩
  unfold MacCall.sent
  rw [hp]
  exact ⟨rfl, rfl, rfl, H.payload_add ..⟩

/-- A PDU of another SN. -/
theorem Cut.other (h : Cut sn payload tx (firstSent cfg sn calls)) {pre post buffer : List BufferData}
    {b ret : BufferData} (hb : tx.transmissionBuffer = pre ++ b :: post) (hne : b.sn ≠ sn) (hret : ret.sn = b.sn)
    (hbuffer : buffer = pre ++ post ∨ ∃ b', b'.sn = b.sn ∧ buffer = pre ++ b' :: post) :
    Cut sn payload (sendTransmission H cfg ch tx buffer ret).1
      (firstSent cfg sn (calls ++ [(sendTransmission H cfg ch tx buffer ret).2])) := by
  have hcall : (sendTransmission H cfg ch tx buffer ret).2.isFirstOf sn = false := by
    have hsn : (sendTransmission H cfg ch tx buffer ret).2.pdu.sn = b.sn := hret
    unfold MacCall.isFirstOf
    rw [hsn]
    simp [hne]
  have hwaiting : (sendTransmission H cfg ch tx buffer ret).1.unsentOf sn = tx.unsentOf sn := by
    obtain ⟨_, _, _, -, heq⟩ := sendTransmission_eq H cfg ch tx buffer ret
    rw [heq]
    exact unsentOf_other hb hne hbuffer
  unfold Cut
  rw [hwaiting, firstSent_append, firstSent_other hcall, List.append_nil]
  exact h

/-- **The rest of the SDU goes out.** -/
theorem Cut.whole (h : Cut sn payload tx (firstSent cfg sn calls)) {pre post : List BufferData} {b ret : BufferData}
    {left : ℕ} (hb : tx.transmissionBuffer = pre ++ b :: post) (hsn : b.sn = sn)
    (hf : fragmentPacket b left = .whole ret) :
    Cut sn payload (sendTransmission H cfg ch tx (pre ++ post) ret).1
      (firstSent cfg sn (calls ++ [(sendTransmission H cfg ch tx (pre ++ post) ret).2])) := by
  have hret := fragmentPacket_whole hf
  have hcall : (sendTransmission H cfg ch tx (pre ++ post) ret).2.isFirstOf sn = true := by
    have hpdu : (sendTransmission H cfg ch tx (pre ++ post) ret).2.pdu.sn = sn := by
      rw [← hsn, hret]
      rfl
    unfold MacCall.isFirstOf
    rw [hpdu]
    simp [sendTransmission]
  rcases h with ⟨c, hwaiting, hrest, hsegs⟩ | ⟨hwaiting, -⟩
  · obtain ⟨rfl, hgone, -⟩ := unsentOf_self hb hsn hwaiting
    obtain ⟨q, hq, hsi, hqsn, hso, hpayload⟩ := sent_sendTransmission H cfg ch tx (pre ++ post) ret
    rw [firstSent_append, firstSent_self hcall, hq]
    refine .inr ⟨?_, ?_⟩
    · obtain ⟨_, _, _, -, heq⟩ := sendTransmission_eq H cfg ch tx (pre ++ post) ret
      rw [heq]
      exact hgone
    · have hsum := hrest.left
      have hmac : ret.packet.mac.payload = b.packet.mac.payload := by rw [hret]
      have hsi' : ret.si = if b.isFragmented then .last else .all := by rw [hret]
      have hsn' : ret.sn = sn := by
        rw [hret]
        exact hsn
      have hso' : ret.so = (firstSent cfg sn calls).length := by
        rw [hret]
        exact hrest.so_eq
      rw [hmac] at hpayload
      rw [hsi'] at hsi
      refine hsegs.snoc (hqsn.trans hsn') (hso.trans hso') ?_ ?_ (fun hout => absurd hout (by simp)) ?_
      · rw [hsi, hrest.segmentSi_eq]
        rfl
      · intro hp
        rw [hpayload]
        by_cases hnil : firstSent cfg sn calls = []
        · rw [hnil] at hsum
          simp only [payloadOf, List.map_nil, List.sum_nil] at hsum
          omega
        · exact hrest.positive hnil
      · intro _
        rw [hpayload]
        exact hsum
  · -- nothing of the SN waits any more
    have hmem : b ∈ tx.unsentOf sn := List.mem_filter.2 ⟨mem_split hb, by simpa using hsn⟩
    rw [hwaiting] at hmem
    exact absurd hmem List.not_mem_nil

/-- **A segment is cut off the SDU.** -/
theorem Cut.cut (h : Cut sn payload tx (firstSent cfg sn calls)) (hfits : payload < 65536) {pre post : List BufferData}
    {b ret b' : BufferData} {left : ℕ} (hb : tx.transmissionBuffer = pre ++ b :: post) (hsn : b.sn = sn)
    (hf : fragmentPacket b left = .cut ret b') :
    Cut sn payload (sendTransmission H cfg ch tx (pre ++ b' :: post) ret).1
      (firstSent cfg sn (calls ++ [(sendTransmission H cfg ch tx (pre ++ b' :: post) ret).2])) := by
  obtain ⟨n, hn, hlt, hret, hb'⟩ := fragmentPacket_cut hf
  have hsn' : ret.sn = sn := by
    rw [hret]
    exact hsn
  have hcall : (sendTransmission H cfg ch tx (pre ++ b' :: post) ret).2.isFirstOf sn = true := by
    have hpdu : (sendTransmission H cfg ch tx (pre ++ b' :: post) ret).2.pdu.sn = sn := hsn'
    unfold MacCall.isFirstOf
    rw [hpdu]
    simp [sendTransmission]
  rcases h with ⟨c, hwaiting, hrest, hsegs⟩ | ⟨hwaiting, -⟩
  · obtain ⟨rfl, -, hone⟩ := unsentOf_self hb hsn hwaiting
    obtain ⟨q, hq, hsi, hqsn, hso, hpayload⟩ := sent_sendTransmission H cfg ch tx (pre ++ b' :: post) ret
    have hsum := hrest.left
    have hnonneg := hrest.nonneg
    have hlen := hrest.length_le
    have hbytes : (b.payload : ℤ) = b.packet.mac.payload := by
      unfold BufferData.payload ofInt32
      omega
    have hsi' : ret.si = if b.isFragmented then .middle else .first := by rw [hret]
    have hso' : ret.so = (firstSent cfg sn calls).length := by
      rw [hret]
      cases hfrag : b.isFragmented with
      | true => exact hrest.so_eq
      | false =>
        have hnil : firstSent cfg sn calls = [] := by
          by_contra hne
          rw [hrest.fragmented.2 hne] at hfrag
          exact absurd hfrag (by simp)
        rw [hnil]
        rfl
    have hmac : ret.packet.mac.payload = n := by rw [hret]
    rw [hsi'] at hsi
    rw [hso'] at hso
    rw [hmac] at hpayload
    rw [firstSent_append, firstSent_self hcall, hq]
    refine .inl ⟨b', ?_, ?_, ?_⟩
    · obtain ⟨_, _, _, -, heq⟩ := sendTransmission_eq H cfg ch tx (pre ++ b' :: post) ret
      rw [heq]
      apply hone
      rw [hb']
      exact hsn
    · have hleft : b'.packet.mac.payload = b.packet.mac.payload - n := by rw [hb']
      have hlen' : (firstSent cfg sn calls ++ [q]).length = (firstSent cfg sn calls).length + 1 := List.length_append
      have hpayload' : payloadOf (firstSent cfg sn calls ++ [q]) = payloadOf (firstSent cfg sn calls) + n := by
        rw [payloadOf_append, payloadOf_singleton, hpayload]
      refine ⟨?_, ?_, ?_, ?_, ?_, ?_, ?_⟩
      · rw [hb']
        exact hsn
      · rw [hb']
        simp
      · -- the SO stays below the number of bytes
        have hso_eq := hrest.so_eq
        rw [hb', hlen']
        cases hfrag : b.isFragmented with
        | true =>
          have hlt' : b.so + 1 < 65536 := by omega
          exact (u16_of_lt hlt').trans (by rw [hso_eq])
        | false =>
          rw [hret] at hso'
          simp only [hfrag, Bool.false_eq_true, if_false] at hso'
          rw [← hso']
          rfl
      · rw [hlen', hpayload']
        push_cast
        omega
      · rw [hpayload', hleft]
        omega
      · rw [hleft]
        omega
      · intro _
        rw [hleft]
        omega
    · refine hsegs.snoc (hqsn.trans hsn') hso ?_ ?_ ?_ (fun hout => absurd hout (by simp))
      · rw [hsi, hrest.segmentSi_eq]
        rfl
      · intro _
        rw [hpayload]
        omega
      · intro _
        rw [hpayload]
        omega
  · have hmem : b ∈ tx.unsentOf sn := List.mem_filter.2 ⟨mem_split hb, by simpa using hsn⟩
    rw [hwaiting] at hmem
    exact absurd hmem List.not_mem_nil

/-! ## Runs -/

/-- **A grant.** -/
theorem Cut.moves {tx' : AmTx} {new : List MacCall} (hm : Moves H cfg ch tx new tx') (hfits : payload < 65536)
    (h : Cut sn payload tx (firstSent cfg sn calls)) : Cut sn payload tx' (firstSent cfg sn (calls ++ new)) := by
  refine hm.inv (I := fun tx cs => Cut sn payload tx (firstSent cfg sn cs))
    (J := fun tx cs => Cut sn payload tx (firstSent cfg sn cs)) (fun _ _ hi => hi) ?_ ?_ ?_ calls h
  · intro tx cs pre b post _ _ _ hi
    have hcall : (sendRetransmission cfg ch tx (pre ++ post) b).2.isFirstOf sn = false := rfl
    have hwaiting : (sendRetransmission cfg ch tx (pre ++ post) b).1.unsentOf sn = tx.unsentOf sn := by
      obtain ⟨_, _, _, -, heq⟩ := sendRetransmission_eq cfg ch tx (pre ++ post) b
      rw [heq]
      rfl
    unfold Cut
    rw [hwaiting, firstSent_append, firstSent_other hcall, List.append_nil]
    exact hi
  · intro tx cs pre b post left ret hb _ _ hf hi
    by_cases hsn : b.sn = sn
    · exact hi.whole hb hsn hf
    · exact hi.other hb hsn (by rw [fragmentPacket_whole hf]) (.inl rfl)
  · intro tx cs pre b post left ret b' hb _ _ hf hi
    by_cases hsn : b.sn = sn
    · exact hi.cut hfits hb hsn hf
    · obtain ⟨n, -, -, hret, hb'⟩ := fragmentPacket_cut hf
      exact hi.other hb hsn (by rw [hret]) (.inr ⟨b', by rw [hb'], rfl⟩)

end AmTx

/-- A sender, and the calls of `LTENR_RLCAM_SendPDUToMac` made in a run. -/
structure AmSending where
  tx : AmTx
  calls : List AmTx.MacCall

namespace AmSending

open AmTx

/-- The calls that an event makes. -/
def callsOf (H : HdrLib) (cfg : AmConfig) (tx : AmTx) : AmTx.Event → List MacCall
  | .grant size ch => tx.grantCalls H cfg size ch
  | _ => []

def step (H : HdrLib) (cfg : AmConfig) (s : AmSending) (e : AmTx.Event) : Option AmSending :=
  (s.tx.step H cfg e).map fun tx => ⟨tx, s.calls ++ callsOf H cfg s.tx e⟩

/-- The runs of a sender from `tx` on. -/
def machine (H : HdrLib) (cfg : AmConfig) (tx : AmTx) : Machine AmSending AmTx.Event := ⟨(· = ⟨tx, []⟩), step H cfg⟩

/-- The number of an SDU is not given to another one: `TX_Next` does not come back to it. -/
def NumberKept (sn : ℕ) (s : AmSending) : AmTx.Event → Prop
  | .enqueue _ ch => ch.isForAm = true → s.tx.txNext ≠ sn
  | _ => True

/-- An SDU of number `sn` is out if nothing of it waits. -/
def isOut (sn : ℕ) (s : AmSending) : Bool := (s.tx.unsentOf sn).isEmpty

variable {H : HdrLib} {cfg : AmConfig} {sn : ℕ} {payload : ℤ}

/-- **An event.** -/
theorem cut_step {s s' : AmSending} {e : AmTx.Event} (hfits : payload < 65536)
    (h : Cut sn payload s.tx (firstSent cfg sn s.calls)) (hkept : NumberKept sn s e) (hs : s.step H cfg e = some s') :
    Cut sn payload s'.tx (firstSent cfg sn s'.calls) := by
  obtain ⟨tx, htx, rfl⟩ := Option.map_eq_some_iff.1 hs
  -- all but a grant leave what waits, and make no call
  have hstays : callsOf H cfg s.tx e = [] → tx.unsentOf sn = s.tx.unsentOf sn →
      Cut sn payload tx (firstSent cfg sn (s.calls ++ callsOf H cfg s.tx e)) := by
    intro hcalls hwaiting
    rw [hcalls, List.append_nil]
    unfold Cut
    rw [hwaiting]
    exact h
  cases e with
  | enqueue p ch =>
    refine hstays rfl ?_
    simp only [AmTx.step, Option.some.injEq] at htx
    rw [← htx]
    split
    · rename_i hch
      have hne := hkept hch
      unfold unsentOf handlePduFromUpperLayer addPacket
      rw [List.filter_append, List.filter_cons_of_neg (by simpa using hne), List.filter_nil, List.append_nil]
    · rfl
  | grant size ch =>
    simp only [AmTx.step, Option.some.injEq] at htx
    rw [← htx]
    unfold callsOf grantCalls
    dsimp only
    split
    · exact h.moves (sendPdu_moves H cfg s.tx size ch) hfits
    · rw [List.append_nil]
      exact h
  | pollRetransmit =>
    refine hstays rfl ?_
    unfold AmTx.step handlePollRetransmitTimer at htx
    dsimp only at htx
    split at htx
    · rw [← Option.some.inj htx]
      rfl
    · exact absurd htx (by simp)
  | status pdu =>
    refine hstays rfl ?_
    obtain ⟨_, _, -, rfl⟩ := receiveStatusPdu_cases htx
    rfl

/-- **Every run cuts an SDU into segments**: those sent so far, and all of them once it is out. -/
theorem isSegmentation_of_reachOn {p : Packet} {ch : LogicalChannel} {tx : AmTx} (hnonneg : 0 ≤ p.mac.payload)
    (hfits : p.mac.payload < 65536) (hnew : ∀ b ∈ tx.transmissionBuffer, b.sn ≠ tx.txNext) {s : AmSending}
    (h : (machine H cfg (tx.handlePduFromUpperLayer p ch)).ReachOn (NumberKept tx.txNext) s) :
    IsSegmentation tx.txNext p.mac.payload (s.isOut tx.txNext) (firstSent cfg tx.txNext s.calls) := by
  have hcut : Cut tx.txNext p.mac.payload s.tx (firstSent cfg tx.txNext s.calls) := by
    refine h.inv (I := fun s => Cut tx.txNext p.mac.payload s.tx (firstSent cfg tx.txNext s.calls)) ?_
      fun s e s' hi hok hs => cut_step hfits hi hok hs
    rintro s rfl
    have hold : (tx.transmissionBuffer.filter fun b => b.sn = tx.txNext) = [] := by
      rw [List.filter_eq_nil_iff]
      intro b hb
      simpa using hnew b hb
    refine .inl ⟨⟨.all, tx.txNext, 0, 0, ch, p, false, false⟩, ?_, ?_, .nil ..⟩
    · unfold unsentOf handlePduFromUpperLayer addPacket
      rw [List.filter_append, hold, List.filter_cons_of_pos (by simp)]
      rfl
    · refine ⟨rfl, ?_, rfl, Int.le_refl 0, Int.zero_add _, hnonneg, fun hne => absurd rfl hne⟩
      simp [firstSent]
  unfold isOut
  rcases hcut with ⟨b, hwaiting, -, hsegs⟩ | ⟨hwaiting, hsegs⟩
  · rw [hwaiting]
    exact hsegs
  · rw [hwaiting]
    exact hsegs

end AmSending

end NetSim.Rlc
