import NetSim.Proof.AmCutting
import NetSim.Proof.AmReceiver

/-!
# Segmentation and reassembly in RLC AM

What a sender cuts, a receiver joins: the segments of an SDU may arrive in any order, the last one first. The buffer of the
SDU is complete when the last missing one arrives, and what is joined has the payload of the SDU.

* `isAllByteSegmentReceived_bufferOf`: when a buffer is complete.
* `place_spec`, `feed_incomplete`: one arrival, and all but the last.
* `am_reassembles`: sender and receiver together.
-/

namespace NetSim.Rlc

open AmTx

variable {sn n : ℕ} {payload : ℤ} {segs arr : List AmdPdu} {q : AmdPdu}

/-! ## The segments -/

/-- A segment of an SDU. -/
theorem IsSegmentation.spec (h : IsSegmentation sn payload true segs) (hq : q ∈ segs) :
    q.sn = sn ∧ q.so < segs.length ∧ (q.si.endsSdu = true ↔ q.so = segs.length - 1) := by
  have hmem : (q.si, q.sn, q.so) ∈ segs.map fun q => (q.si, q.sn, q.so) := List.mem_map_of_mem hq
  rw [h.hdr] at hmem
  obtain ⟨i, hi, heq⟩ := List.mem_map.1 hmem
  have hlt := List.mem_range.1 hi
  obtain ⟨hsi, hsn⟩ := Prod.mk.inj heq
  obtain ⟨rfl, rfl⟩ := Prod.mk.inj hsn
  refine ⟨rfl, hlt, ?_⟩
  rw [← hsi]
  unfold segmentSi
  simp only [true_and]
  split_ifs with hone hzero hlast
  · simp only [SI.endsSdu, true_iff]
    omega
  · simp only [SI.endsSdu, Bool.false_eq_true, false_iff]
    omega
  · simp only [SI.endsSdu, true_iff]
    omega
  · simp only [SI.endsSdu, Bool.false_eq_true, false_iff]
    omega

theorem IsSegmentation.sos (h : IsSegmentation sn payload true segs) : segs.map (·.so) = List.range segs.length := by
  have hsos := congrArg (List.map fun x : SI × ℕ × ℕ => x.2.2) h.hdr
  rw [List.map_map, List.map_map] at hsos
  have hid : (List.range segs.length).map id = List.range segs.length := List.map_id _
  exact hsos.trans hid

/-! ## The buffer -/

namespace AmRx

/-- The buffer of an SDU of `n` segments after some of them. -/
def bufferOf (sn n : ℕ) (arr : List AmdPdu) : ReceptionBuffer :=
  ⟨0, sn, if arr.any (·.si.endsSdu) then n - 1 else 0, arr.any (·.si.endsSdu), arr⟩

theorem add_bufferOf (hends : q.si.endsSdu = true → q.so = n - 1) :
    (bufferOf sn n arr).add q = bufferOf sn n (arr ++ [q]) := by
  unfold ReceptionBuffer.add bufferOf
  dsimp only
  rw [List.any_append, List.any_cons, List.any_nil, Bool.or_false]
  cases hq : q.si.endsSdu with
  | true =>
    rw [Bool.or_true, if_pos rfl, if_pos rfl, hends hq]
  | false =>
    rw [Bool.or_false, if_neg (by simp)]

/-- **A buffer is complete** exactly if each segment has arrived. -/
theorem isAllByteSegmentReceived_bufferOf (h : IsSegmentation sn payload true segs) (harr : ∀ q ∈ arr, q ∈ segs) :
    (bufferOf sn segs.length arr).isAllByteSegmentReceived = true ↔ ∀ i < segs.length, i ∈ arr.map (·.so) := by
  have hpos : 0 < segs.length := List.length_pos_of_ne_nil (h.nonempty rfl)
  unfold ReceptionBuffer.isAllByteSegmentReceived bufferOf
  dsimp only
  rw [Bool.and_eq_true, List.all_eq_true]
  constructor
  · rintro ⟨hlast, hall⟩ i hi
    rw [if_pos hlast] at hall
    rcases Nat.lt_or_ge i (segs.length - 1) with hlt | hge
    · have hany := hall i (List.mem_range.2 hlt)
      obtain ⟨q, hq, hso⟩ := List.any_eq_true.1 hany
      exact List.mem_map.2 ⟨q, hq, of_decide_eq_true hso⟩
    · -- the SO of the segment that ends the SDU
      obtain ⟨q, hq, hends⟩ := List.any_eq_true.1 hlast
      have hso := (h.spec (harr q hq)).2.2.1 hends
      exact List.mem_map.2 ⟨q, hq, by omega⟩
  · intro hall
    have hlast : arr.any (·.si.endsSdu) = true := by
      obtain ⟨q, hq, hso⟩ := List.mem_map.1 (hall (segs.length - 1) (by omega))
      exact List.any_eq_true.2 ⟨q, hq, (h.spec (harr q hq)).2.2.2 hso⟩
    refine ⟨hlast, ?_⟩
    rw [if_pos hlast]
    intro i hi
    have hlt := List.mem_range.1 hi
    obtain ⟨q, hq, hso⟩ := List.mem_map.1 (hall i (by omega))
    exact List.any_eq_true.2 ⟨q, hq, decide_eq_true hso⟩

theorem foldl_payload (l : List AmdPdu) (a : ℤ) : l.foldl (fun size q => size + q.mac.payload) a = a + payloadOf l := by
  induction l generalizing a with
  | nil => exact (Int.add_zero a).symm
  | cons q l ih =>
    have hcons : payloadOf (q :: l) = q.mac.payload + payloadOf l := by simp [payloadOf]
    rw [List.foldl_cons, ih, hcons]
    omega

/-- What is joined has the payload of all PDUs. -/
theorem payload_reassembleAllBytes (b : ReceptionBuffer) :
    b.reassembleAllBytes.sn = b.sn ∧ b.reassembleAllBytes.payload = payloadOf b.packets := by
  unfold ReceptionBuffer.reassembleAllBytes
  cases hb : b.packets with
  | nil => exact ⟨rfl, rfl⟩
  | cons q l =>
    have hcons : payloadOf (q :: l) = q.mac.payload + payloadOf l := by simp [payloadOf]
    refine ⟨rfl, ?_⟩
    dsimp only
    rw [foldl_payload, hcons]
    omega

/-! ## One arrival -/

/-- The buffers that a receiver holds of an SDU of `n` segments after some of them. -/
def held (sn n : ℕ) (arr : List AmdPdu) : List ReceptionBuffer := if arr = [] then [] else [bufferOf sn n arr]

variable {rx : AmRx} {l : List ReceptionBuffer}

theorem placeIn_held (hsn : q.sn = sn) (hends : q.si.endsSdu = true → q.so = n - 1)
    (hl : (l.filter fun b => b.sn = sn) = held sn n arr) : (placeIn q l).1 = bufferOf sn n (arr ++ [q]) ∧
      ((placeIn q l).2.filter fun b => b.sn = sn) = held sn n (arr ++ [q]) := by
  have hafter : held sn n (arr ++ [q]) = [bufferOf sn n (arr ++ [q])] := if_neg (by simp)
  have hself : (bufferOf sn n (arr ++ [q])).sn = sn := rfl
  rw [hafter]
  induction l with
  | nil =>
    -- the first segment creates the buffer
    have harr : arr = [] := by
      by_contra hne
      unfold held at hl
      rw [if_neg hne] at hl
      exact absurd hl (by simp)
    have hnew : (⟨0, q.sn, 0, false, []⟩ : ReceptionBuffer).add q = bufferOf sn n (arr ++ [q]) := by
      rw [← add_bufferOf hends, harr, hsn]
      rfl
    unfold placeIn
    dsimp only
    rw [hnew, List.filter_cons_of_pos (by simpa using hself)]
    exact ⟨rfl, rfl⟩
  | cons b l ih =>
    unfold placeIn
    by_cases hb : b.sn = sn
    · rw [List.filter_cons_of_pos (by simpa using hb)] at hl
      have harr : arr ≠ [] := by
        rintro rfl
        exact absurd hl (by simp [held])
      unfold held at hl
      rw [if_neg harr] at hl
      obtain ⟨rfl, hrest⟩ := List.cons.inj hl
      rw [if_pos (hb.trans hsn.symm), add_bufferOf hends]
      dsimp only
      rw [List.filter_cons_of_pos (by simpa using hself), hrest]
      exact ⟨rfl, rfl⟩
    · rw [List.filter_cons_of_neg (by simpa using hb)] at hl
      obtain ⟨hfst, hsnd⟩ := ih hl
      rw [if_neg fun heq => hb (heq.trans hsn)]
      dsimp only
      rw [List.filter_cons_of_neg (by simpa using hb)]
      exact ⟨hfst, hsnd⟩

/-- **One arrival.** -/
theorem place_spec (h : IsSegmentation sn payload true segs) (harr : ∀ p ∈ arr ++ [q], p ∈ segs)
    (hrx : (rx.receptionBuffer.filter fun b => b.sn = sn) = held sn segs.length arr) :
    ∃ rx' sdus, rx.placeAmdPduInReceptionBuffer q = (rx', sdus) ∧
      ((∀ i < segs.length, i ∈ (arr ++ [q]).map (·.so)) →
        ∃ sdu, sdus = [sdu] ∧ sdu.sn = sn ∧ sdu.payload = payloadOf (arr ++ [q])) ∧
      (¬ (∀ i < segs.length, i ∈ (arr ++ [q]).map (·.so)) →
        sdus = [] ∧ (rx'.receptionBuffer.filter fun b => b.sn = sn) = held sn segs.length (arr ++ [q])) := by
  obtain ⟨hsn, -, hends⟩ := h.spec (harr q (by simp))
  obtain ⟨hfst, hsnd⟩ := placeIn_held hsn hends.1 hrx
  have hcomplete := isAllByteSegmentReceived_bufferOf h harr
  obtain ⟨rx', sdus, hplace⟩ : ∃ rx' sdus, rx.placeAmdPduInReceptionBuffer q = (rx', sdus) := ⟨_, _, rfl⟩
  obtain ⟨-, -, hcases⟩ := placeAmdPdu_cases hplace
  refine ⟨rx', sdus, hplace, ?_, ?_⟩
  · intro hall
    rcases hcases with ⟨hnot, -⟩ | ⟨-, hsdus, -⟩
    · rw [hfst, hcomplete.2 hall] at hnot
      exact absurd hnot (by simp)
    · have hjoined := payload_reassembleAllBytes (bufferOf sn segs.length (arr ++ [q]))
      rw [hfst] at hsdus
      exact ⟨_, hsdus, hjoined⟩
  · intro hmissing
    rcases hcases with ⟨-, hsdus, hbuffer, -⟩ | ⟨hdone, -⟩
    · rw [hbuffer]
      exact ⟨hsdus, hsnd⟩
    · rw [hfst] at hdone
      exact absurd (hcomplete.1 hdone) hmissing

/-! ## All arrivals -/

/-- PDUs arrive one after the other: the receiver, and what is handed to PDCP. -/
def feed (rx : AmRx) : List AmdPdu → AmRx × List Sdu
  | [] => (rx, [])
  | pdu :: pdus =>
    let r := rx.placeAmdPduInReceptionBuffer pdu
    let t := feed r.1 pdus
    (t.1, r.2 ++ t.2)

/-- **An SDU is reassembled** at the last of its arrivals, and nothing is handed to PDCP before. -/
def Reassembles (rx : AmRx) (sn : ℕ) (payload : ℤ) (arrivals : List AmdPdu) : Prop :=
  ∃ arr x rx₁ rx₂ sdu, arrivals = arr ++ [x] ∧ rx.feed arr = (rx₁, []) ∧
    rx₁.placeAmdPduInReceptionBuffer x = (rx₂, [sdu]) ∧ sdu.sn = sn ∧ sdu.payload = payload

/-- **As long as a segment is missing**, nothing is handed to PDCP and all that has arrived is kept. -/
theorem feed_incomplete (h : IsSegmentation sn payload true segs) {more : List AmdPdu}
    (hmore : ∀ q ∈ arr ++ more, q ∈ segs)
    (hrx : (rx.receptionBuffer.filter fun b => b.sn = sn) = held sn segs.length arr)
    (hmissing : ¬ ∀ i < segs.length, i ∈ (arr ++ more).map (·.so)) : ∃ rx', rx.feed more = (rx', []) ∧
      (rx'.receptionBuffer.filter fun b => b.sn = sn) = held sn segs.length (arr ++ more) := by
  induction more generalizing arr rx with
  | nil =>
    rw [List.append_nil]
    exact ⟨rx, rfl, hrx⟩
  | cons q more ih =>
    have hsplit : arr ++ q :: more = arr ++ [q] ++ more := by simp
    rw [hsplit] at hmore hmissing ⊢
    have hmissing' : ¬ ∀ i < segs.length, i ∈ (arr ++ [q]).map (·.so) := by
      intro hall
      apply hmissing
      intro i hi
      rw [List.map_append]
      exact List.mem_append_left _ (hall i hi)
    obtain ⟨rx₁, sdus, hplace, -, hkeep⟩ := place_spec h (fun p hp => hmore p (List.mem_append_left more hp)) hrx
    obtain ⟨rfl, hrx₁⟩ := hkeep hmissing'
    obtain ⟨rx₂, hfeed, hrx₂⟩ := ih hmore hrx₁ hmissing
    refine ⟨rx₂, ?_, hrx₂⟩
    unfold feed
    rw [hplace]
    dsimp only
    rw [hfeed]
    rfl

/-- **The segments of an SDU in any order.** -/
theorem reassembles_of_perm (h : IsSegmentation sn payload true segs) (hrx : ∀ b ∈ rx.receptionBuffer, b.sn ≠ sn)
    {arrivals : List AmdPdu} (hperm : arrivals.Perm segs) : Reassembles rx sn payload arrivals := by
  have hsos : (arrivals.map (·.so)).Perm (List.range segs.length) := by
    rw [← h.sos]
    exact hperm.map _
  rcases List.eq_nil_or_concat arrivals with rfl | ⟨arr, x, rfl⟩
  · exact absurd hperm.nil_eq.symm (h.nonempty rfl)
  · rw [List.concat_eq_append] at hperm hsos ⊢
    have hmem : ∀ q ∈ arr ++ [x], q ∈ segs := fun q hq => hperm.mem_iff.1 hq
    -- the SOs are distinct, so that of the last arrival is missing before
    have hnodup : (arr.map AmdPdu.so ++ [x.so]).Nodup := by
      have hnodup := hsos.nodup_iff.2 List.nodup_range
      rwa [List.map_append] at hnodup
    have hnew : x.so ∉ arr.map AmdPdu.so := by
      intro hold
      exact (List.nodup_append.1 hnodup).2.2 _ hold _ (List.mem_singleton_self _) rfl
    have hlt : x.so < segs.length := (h.spec (hmem x (by simp))).2.1
    have hmissing : ¬ ∀ i < segs.length, i ∈ ([] ++ arr).map AmdPdu.so := fun hall => hnew (hall x.so hlt)
    have hall : ∀ i < segs.length, i ∈ (arr ++ [x]).map (·.so) :=
      fun i hi => hsos.mem_iff.2 (List.mem_range.2 hi)
    have hempty : (rx.receptionBuffer.filter fun b => b.sn = sn) = held sn segs.length [] := by
      have hnil : (rx.receptionBuffer.filter fun b => b.sn = sn) = [] := by
        rw [List.filter_eq_nil_iff]
        intro b hb
        simpa using hrx b hb
      exact hnil
    obtain ⟨rx₁, hfeed, hrx₁⟩ := feed_incomplete h (fun q hq => hmem q (List.mem_append_left [x] hq)) hempty hmissing
    obtain ⟨rx₂, sdus, hplace, hjoin, -⟩ := place_spec h hmem hrx₁
    obtain ⟨sdu, rfl, hsn, hpayload⟩ := hjoin hall
    refine ⟨arr, x, rx₁, rx₂, sdu, rfl, hfeed, hplace, hsn, ?_⟩
    have hsum : payloadOf (arr ++ [x]) = payloadOf segs := (hperm.map fun q : AmdPdu => q.mac.payload).sum_eq
    exact hpayload.trans (hsum.trans (h.sum rfl))

end AmRx

namespace AmSending

instance (sn : ℕ) (s : AmSending) (e : AmTx.Event) : Decidable (NumberKept sn s e) :=
  match e with
  | .enqueue _ ch => inferInstanceAs (Decidable (ch.isForAm = true → s.tx.txNext ≠ sn))
  | .grant _ _ => inferInstanceAs (Decidable True)
  | .pollRetransmit => inferInstanceAs (Decidable True)
  | .status _ => inferInstanceAs (Decidable True)

/-- **Segmentation and reassembly are inverse**, for every SDU below `2^16` bytes, every run of the sender after it was
enqueued, and every order in which its segments arrive. -/
theorem am_reassembles (H : HdrLib) (cfg : AmConfig) (p : Packet) (ch : LogicalChannel) (tx : AmTx)
    (hnonneg : 0 ≤ p.mac.payload) (hfits : p.mac.payload < 65536)
    (hnew : ∀ b ∈ tx.transmissionBuffer, b.sn ≠ tx.txNext) (s : AmSending)
    (h : (machine H cfg (tx.handlePduFromUpperLayer p ch)).ReachOn (NumberKept tx.txNext) s) :
    IsSegmentation tx.txNext p.mac.payload (s.isOut tx.txNext) (firstSent cfg tx.txNext s.calls) ∧
      (s.isOut tx.txNext = true → ∀ rx : AmRx, (∀ b ∈ rx.receptionBuffer, b.sn ≠ tx.txNext) →
        ∀ arrivals : List AmdPdu, arrivals.Perm (firstSent cfg tx.txNext s.calls) →
          rx.Reassembles tx.txNext p.mac.payload arrivals) := by
  have hsegs := isSegmentation_of_reachOn hnonneg hfits hnew h
  refine ⟨hsegs, ?_⟩
  intro hout rx hrx arrivals hperm
  rw [hout] at hsegs
  exact AmRx.reassembles_of_perm hsegs hrx hperm

/-- Three grants for an SDU of 100 bytes. -/
def threeGrants : List AmTx.Event := [.grant 44 .dtch, .grant 44 .dtch, .grant 44 .dtch]

/-- The segments come in reverse. -/
theorem am_reassembles_sample : ∃ s : AmSending,
    ((firstSent .shipped 0 s.calls).map fun q => (q.si, q.so, q.mac.payload)) =
        [(.first, 0, 40), (.middle, 1, 40), (.last, 2, 20)] ∧
      AmRx.init.Reassembles 0 100 (firstSent .shipped 0 s.calls).reverse := by
  obtain ⟨s, hreach, hsent, hout⟩ := Machine.ReachOn.exists_of_execOn (NumberKept 0)
    (M := machine .overhead .shipped (AmTx.init.handlePduFromUpperLayer (userSdu 1) .dtch))
    (P := fun s => ((firstSent .shipped 0 s.calls).map fun q => (q.si, q.so, q.mac.payload)) =
        [(.first, 0, 40), (.middle, 1, 40), (.last, 2, 20)] ∧ s.isOut 0 = true)
    threeGrants (.init rfl) (by decide)
  refine ⟨s, hsent, ?_⟩
  exact (am_reassembles .overhead .shipped (userSdu 1) .dtch AmTx.init (by decide) (by decide)
    (fun _ hb => absurd hb List.not_mem_nil) s hreach).2 hout AmRx.init (fun _ hb => absurd hb List.not_mem_nil) _
    (List.reverse_perm _)

/-- An SDU of headers alone, as the RRC messages are. -/
def headersOnly : Packet := ⟨1, false, ⟨0, 8, 8⟩, none⟩

/-- It goes out in a segment without payload. -/
theorem am_segment_empty : ∃ s : AmSending,
    (machine .overhead .shipped (AmTx.init.handlePduFromUpperLayer headersOnly .dcch)).ReachOn (NumberKept 0) s ∧
      ∃ q ∈ firstSent .shipped 0 s.calls, q.si = .all ∧ ¬ 0 < q.mac.payload := by
  obtain ⟨s, hreach, hsent⟩ := Machine.ReachOn.exists_of_execOn (NumberKept 0)
    (M := machine .overhead .shipped (AmTx.init.handlePduFromUpperLayer headersOnly .dcch))
    (P := fun s => ∃ q ∈ firstSent .shipped 0 s.calls, q.si = .all ∧ ¬ 0 < q.mac.payload)
    [.grant 44 .dcch] (.init rfl) (by decide)
  exact ⟨s, hreach, hsent⟩

end AmSending

end NetSim.Rlc
