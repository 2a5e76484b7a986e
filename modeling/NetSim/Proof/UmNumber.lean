import NetSim.Proof.UmSender

/-!
# RLC UM numbering separates SDUs

Only the head of the transmission buffer is ever cut in part, so the segments of an SDU go
out in one stretch, all of them under the `TX_Next` of that stretch, and the last one moves
`TX_Next` on. `Numbered` is this as an invariant of a sender and of what it has sent;
`Moves.numbered` keeps it over a grant.

Two words bound it: SO has 16 bits, and SN `2 ^ 32 - 1` reads as the -1 that stands for an
SDU that was never cut. `FitsWords` stays clear of both.

* `segments_separated`: one SN for an SDU, one SDU for an SN, the SOs in sending order with
  LAST at the end, and no two SDUs in what is handed to PDCP.
* `segments_collide`: a run past each of the two words.
-/

namespace NetSim.Rlc

open Word

/-! ## Labels -/

/-- The segments sent of an SDU, in sending order: their SI and SO. -/
def labels (sent : List UmdPdu) (sdu : ℕ) : List (SI × ℕ) :=
  (sent.filter fun p => p.sdu = sdu).map fun p => (p.hdr.si, p.hdr.so)

/-- The labels of the first `n` segments cut off an SDU. -/
def cutLabels (n : ℕ) : List (SI × ℕ) := (List.range n).map fun i => (if i = 0 then .first else .middle, i)

/-- The labels of an SDU that has gone out after `n` cuts. -/
def wholeLabels (n : ℕ) : List (SI × ℕ) := if n = 0 then [(.all, 0)] else cutLabels n ++ [(.last, n)]

section labels

variable {sent : List UmdPdu} {p : UmdPdu} {sdu n : ℕ}

theorem cutLabels_succ : cutLabels (n + 1) = cutLabels n ++ [(if n = 0 then .first else .middle, n)] := by
  unfold cutLabels
  rw [List.range_succ, List.map_append]
  rfl

theorem labels_self : labels (sent ++ [p]) p.sdu = labels sent p.sdu ++ [(p.hdr.si, p.hdr.so)] := by
  simp [labels]

theorem labels_other (h : p.sdu ≠ sdu) : labels (sent ++ [p]) sdu = labels sent sdu := by
  simp [labels, h]

theorem labels_eq_nil (h : labels sent sdu = []) (hp : p ∈ sent) : p.sdu ≠ sdu := by
  intro heq
  have hmem : p ∈ sent.filter fun p => p.sdu = sdu := List.mem_filter.2 ⟨hp, by simpa using heq⟩
  rw [List.map_eq_nil_iff.1 h] at hmem
  exact absurd hmem List.not_mem_nil

end labels

/-! ## The sender -/

namespace UmTx

/-- How many segments have been cut off a packet. -/
def cuts (p : Packet) : ℕ :=
  match p.umdHdr with
  | some hdr => hdr.so
  | none => 0

/-- A grant of `size` bytes uses up neither the SN nor the SO of the SDU being cut. -/
def FitsWords (um : UmTx) (size : ℕ) : Prop :=
  ∀ b ∈ um.transmissionBuffer.head?, ∀ hdr ∈ b.packet.umdHdr, um.txNext < 4294967295 ∧
    (hdr.so = 65535 → size < minRlcPduSize ∨ ¬ (b.packet.isUplane ∧ b.packet.mac.packetSize > size))

instance (um : UmTx) (size : ℕ) : Decidable (FitsWords um size) := by
  unfold FitsWords
  infer_instance

/-- What holds between a sender and the PDUs it has sent. -/
structure Numbered (um : UmTx) (sent : List UmdPdu) : Prop where
  /-- Only the head has been cut, and its header has the current SN. -/
  uncut : ∀ b ∈ um.transmissionBuffer.tail, b.packet.umdHdr = none
  header : ∀ b ∈ um.transmissionBuffer, ∀ hdr ∈ b.packet.umdHdr,
    hdr.sn = um.txNext ∧ 0 < hdr.so ∧ hdr.so < 65536
  distinct : um.transmissionBuffer.Pairwise fun b c => b.packet.sdu ≠ c.packet.sdu
  waiting : ∀ b ∈ um.transmissionBuffer, labels sent b.packet.sdu = cutLabels (cuts b.packet)
  current : ∀ b ∈ um.transmissionBuffer, ∀ p ∈ sent, p.sdu = b.packet.sdu → p.hdr.sn = um.txNext
  finished : ∀ i, (∀ b ∈ um.transmissionBuffer, b.packet.sdu ≠ i) →
    labels sent i = [] ∨ ∃ n, labels sent i = wholeLabels n
  below : ∀ p ∈ sent, p.hdr.si ≠ .all →
    p.hdr.sn < um.txNext ∨ ∃ b ∈ um.transmissionBuffer, p.sdu = b.packet.sdu
  one_sn : ∀ p ∈ sent, ∀ q ∈ sent, p.sdu = q.sdu → p.hdr.sn = q.hdr.sn
  one_sdu : ∀ p ∈ sent, ∀ q ∈ sent, p.hdr.si ≠ .all → q.hdr.si ≠ .all → p.hdr.sn = q.hdr.sn → p.sdu = q.sdu

section Numbered

variable {H : HdrLib} {um : UmTx} {sent : List UmdPdu} {b : BufferData} {rest : List BufferData} {p : UmdPdu}

/-- What was sent of a waiting SDU was sent of the head. -/
theorem Numbered.head (h : Numbered um sent) (hb : um.transmissionBuffer = b :: rest) (hp : p ∈ sent)
    {c : BufferData} (hc : c ∈ um.transmissionBuffer) (heq : p.sdu = c.packet.sdu) : c = b := by
  have hwait := h.waiting c hc
  rw [hb] at hc
  rcases List.mem_cons.1 hc with rfl | hrest
  · rfl
  · have huncut := h.uncut c (by rw [hb]; exact hrest)
    have hnil : labels sent c.packet.sdu = [] := by
      rw [hwait, cuts, huncut]
      rfl
    exact absurd heq (labels_eq_nil hnil hp)

/-- Nothing was sent of an SDU that waits behind the head. -/
theorem Numbered.unsent (h : Numbered um sent) (hb : um.transmissionBuffer = b :: rest) {c : BufferData}
    (hc : c ∈ rest) (hp : p ∈ sent) : p.sdu ≠ c.packet.sdu := by
  intro heq
  have hcb := h.head hb hp (by rw [hb]; exact List.mem_cons_of_mem _ hc) heq
  have hd := h.distinct
  rw [hb] at hd
  exact List.rel_of_pairwise_cons hd hc (by rw [hcb])

/-- **The head leaves the buffer** with the PDU `new`: nothing of the SDUs behind it has been sent. -/
theorem Numbered.leave {um' : UmTx} {new : UmdPdu} (h : Numbered um sent)
    (hb : um.transmissionBuffer = b :: rest) (hbuf : um'.transmissionBuffer = rest)
    (hsdu : new.sdu = b.packet.sdu) (hwhole : ∃ n, labels (sent ++ [new]) b.packet.sdu = wholeLabels n)
    (hbelow : ∀ p ∈ sent ++ [new], p.hdr.si ≠ .all → p.hdr.sn < um'.txNext)
    (hone : ∀ p ∈ sent ++ [new], ∀ q ∈ sent ++ [new], p.sdu = q.sdu → p.hdr.sn = q.hdr.sn)
    (hsep : ∀ p ∈ sent ++ [new], ∀ q ∈ sent ++ [new], p.hdr.si ≠ .all → q.hdr.si ≠ .all →
      p.hdr.sn = q.hdr.sn → p.sdu = q.sdu) :
    Numbered um' (sent ++ [new]) := by
  have hsub : ∀ c ∈ rest, c ∈ um.transmissionBuffer := by
    intro c hc
    rw [hb]
    exact List.mem_cons_of_mem _ hc
  have htail : ∀ c ∈ rest, c.packet.umdHdr = none := fun c hc => h.uncut c (by rw [hb]; exact hc)
  have hd := h.distinct
  rw [hb] at hd
  constructor
  · intro c hc
    rw [hbuf] at hc
    exact htail c (List.mem_of_mem_tail hc)
  · intro c hc hdr hh
    rw [hbuf] at hc
    rw [htail c hc] at hh
    exact absurd hh (by simp)
  · rw [hbuf]
    exact hd.of_cons
  · intro c hc
    rw [hbuf] at hc
    rw [labels_other (by rw [hsdu]; exact List.rel_of_pairwise_cons hd hc)]
    exact h.waiting c (hsub c hc)
  · intro c hc p hp heq
    rw [hbuf] at hc
    rcases List.mem_append.1 hp with hp | hp
    · exact absurd heq (h.unsent hb hc hp)
    · rw [List.mem_singleton.1 hp, hsdu] at heq
      exact absurd heq (List.rel_of_pairwise_cons hd hc)
  · intro i hi
    by_cases hib : b.packet.sdu = i
    · rw [← hib]
      exact Or.inr hwhole
    · rw [labels_other (by rw [hsdu]; exact hib)]
      refine h.finished i fun c hc => ?_
      rw [hb] at hc
      rcases List.mem_cons.1 hc with rfl | hc
      · exact hib
      · exact hi c (by rw [hbuf]; exact hc)
  · intro p hp hall
    exact Or.inl (hbelow p hp hall)
  · exact hone
  · exact hsep

/-- **An SDU that was never cut goes out** as one PDU. -/
theorem Numbered.all (h : Numbered um sent) (hb : um.transmissionBuffer = b :: rest)
    (hu : b.packet.umdHdr = none) :
    Numbered (sendWhole H um b rest).1 (sent ++ [(sendWhole H um b rest).2]) := by
  have hmem : b ∈ um.transmissionBuffer := by rw [hb]; exact List.mem_cons_self ..
  have hnil : labels sent b.packet.sdu = [] := by
    rw [h.waiting b hmem, cuts, hu]
    rfl
  have hnext : (sendWhole H um b rest).1.txNext = um.txNext := by
    unfold sendWhole addHdr account
    rw [hu]
    rfl
  have hhdr : (sendWhole H um b rest).2.hdr = ⟨.all, 0, 0⟩ := by
    unfold sendWhole addHdr umdPdu
    rw [hu]
  have hsdu : (sendWhole H um b rest).2.sdu = b.packet.sdu := rfl
  have hbuf : (sendWhole H um b rest).1.transmissionBuffer = rest := rfl
  generalize (sendWhole H um b rest).2 = new at *
  apply h.leave hb hbuf hsdu
  · refine ⟨0, ?_⟩
    rw [← hsdu, labels_self, hsdu, hnil, hhdr]
    rfl
  · intro p hp hall
    rcases List.mem_append.1 hp with hp | hp
    · rw [hnext]
      rcases h.below p hp hall with hlt | ⟨c, hc, heq⟩
      · exact hlt
      · rw [h.head hb hp hc heq] at heq
        exact absurd heq (labels_eq_nil hnil hp)
    · rw [List.mem_singleton.1 hp, hhdr] at hall
      exact absurd rfl hall
  · intro p hp q hq heq
    rcases List.mem_append.1 hp with hp | hp <;> rcases List.mem_append.1 hq with hq | hq
    · exact h.one_sn p hp q hq heq
    · rw [List.mem_singleton.1 hq, hsdu] at heq
      exact absurd heq (labels_eq_nil hnil hp)
    · rw [List.mem_singleton.1 hp, hsdu] at heq
      exact absurd heq.symm (labels_eq_nil hnil hq)
    · rw [List.mem_singleton.1 hp, List.mem_singleton.1 hq]
  · intro p hp q hq hpa hqa heq
    -- the new PDU carries no SN
    have hold : ∀ q ∈ sent ++ [new], q.hdr.si ≠ .all → q ∈ sent := by
      intro q hq hqa
      rcases List.mem_append.1 hq with hq | hq
      · exact hq
      · rw [List.mem_singleton.1 hq, hhdr] at hqa
        exact absurd rfl hqa
    exact h.one_sdu p (hold p hp hpa) q (hold q hq hqa) hpa hqa heq

/-- What a new segment of the head, sent under the current SN, does to the SNs. -/
theorem Numbered.sns {new : UmdPdu} (h : Numbered um sent) (hb : um.transmissionBuffer = b :: rest)
    (hsdu : new.sdu = b.packet.sdu) (hsn : new.hdr.sn = um.txNext) :
    (∀ p ∈ sent ++ [new], ∀ q ∈ sent ++ [new], p.sdu = q.sdu → p.hdr.sn = q.hdr.sn) ∧
      (∀ p ∈ sent ++ [new], ∀ q ∈ sent ++ [new], p.hdr.si ≠ .all → q.hdr.si ≠ .all →
        p.hdr.sn = q.hdr.sn → p.sdu = q.sdu) ∧
      ∀ p ∈ sent ++ [new], p.hdr.si ≠ .all → p.hdr.sn < um.txNext ∨ p.sdu = b.packet.sdu := by
  have hmem : b ∈ um.transmissionBuffer := by rw [hb]; exact List.mem_cons_self ..
  have hbelow : ∀ p ∈ sent, p.hdr.si ≠ .all → p.hdr.sn < um.txNext ∨ p.sdu = b.packet.sdu := by
    intro p hp hpa
    rcases h.below p hp hpa with hlt | ⟨c, hc, heq⟩
    · exact Or.inl hlt
    · rw [h.head hb hp hc heq] at heq
      exact Or.inr heq
  have hsdu_of_sn : ∀ p ∈ sent, p.hdr.si ≠ .all → p.hdr.sn = um.txNext → p.sdu = b.packet.sdu := by
    intro p hp hpa hpn
    rcases hbelow p hp hpa with hlt | heq
    · omega
    · exact heq
  refine ⟨?_, ?_, ?_⟩
  · intro p hp q hq heq
    rcases List.mem_append.1 hp with hp | hp <;> rcases List.mem_append.1 hq with hq | hq
    · exact h.one_sn p hp q hq heq
    · rw [List.mem_singleton.1 hq] at heq ⊢
      rw [hsn]
      exact h.current b hmem p hp (heq.trans hsdu)
    · rw [List.mem_singleton.1 hp] at heq ⊢
      rw [hsn]
      exact (h.current b hmem q hq (heq.symm.trans hsdu)).symm
    · rw [List.mem_singleton.1 hp, List.mem_singleton.1 hq]
  · intro p hp q hq hpa hqa heq
    rcases List.mem_append.1 hp with hp | hp <;> rcases List.mem_append.1 hq with hq | hq
    · exact h.one_sdu p hp q hq hpa hqa heq
    · rw [List.mem_singleton.1 hq] at heq ⊢
      rw [hsdu]
      exact hsdu_of_sn p hp hpa (heq.trans hsn)
    · rw [List.mem_singleton.1 hp] at heq ⊢
      rw [hsdu]
      exact (hsdu_of_sn q hq hqa (heq.symm.trans hsn)).symm
    · rw [List.mem_singleton.1 hp, List.mem_singleton.1 hq]
  · intro p hp hpa
    rcases List.mem_append.1 hp with hp | hp
    · exact hbelow p hp hpa
    · rw [List.mem_singleton.1 hp]
      exact Or.inr hsdu

/-- **The last segment of an SDU** moves `TX_Next` on. -/
theorem Numbered.last (h : Numbered um sent) (hb : um.transmissionBuffer = b :: rest) {hdr : UmdHdr}
    (hh : b.packet.umdHdr = some hdr) (hlt : um.txNext < 4294967295) :
    Numbered (sendWhole H um b rest).1 (sent ++ [(sendWhole H um b rest).2]) := by
  have hmem : b ∈ um.transmissionBuffer := by rw [hb]; exact List.mem_cons_self ..
  obtain ⟨hcur, hpos, -⟩ := h.header b hmem hdr hh
  have hcuts : labels sent b.packet.sdu = cutLabels hdr.so := by
    rw [h.waiting b hmem, cuts, hh]
  have hnext : (sendWhole H um b rest).1.txNext = um.txNext + 1 := by
    have hne : int32 um.txNext ≠ -1 := by
      unfold int32
      split <;> omega
    unfold sendWhole addHdr account
    rw [hh]
    dsimp only
    rw [hcur, if_pos hne, u32_of_lt (by omega)]
  have hhdr : (sendWhole H um b rest).2.hdr = ⟨.last, um.txNext, hdr.so⟩ := by
    unfold sendWhole addHdr umdPdu
    rw [hh, ← hcur]
  have hsdu : (sendWhole H um b rest).2.sdu = b.packet.sdu := rfl
  have hbuf : (sendWhole H um b rest).1.transmissionBuffer = rest := rfl
  obtain ⟨hone, hsep, hbelow⟩ := h.sns hb hsdu (by rw [hhdr])
  generalize (sendWhole H um b rest).2 = new at *
  apply h.leave hb hbuf hsdu _ _ hone hsep
  · refine ⟨hdr.so, ?_⟩
    rw [← hsdu, labels_self, hsdu, hcuts, hhdr, wholeLabels, if_neg (by omega)]
  · intro p hp hall
    rw [hnext]
    rcases hbelow p hp hall with hlt | heq
    · omega
    · -- a segment of this SDU: it has the SN that `TX_Next` leaves
      have hsn := hone p hp new (List.mem_append_right _ (List.mem_singleton_self _)) (heq.trans hsdu.symm)
      rw [hsn, hhdr]
      exact Nat.lt_succ_self _

/-- **The head stays in the buffer** as `b'`, with the segment `new` cut off it. -/
theorem Numbered.stay {um' : UmTx} {new : UmdPdu} {b' : BufferData} (h : Numbered um sent)
    (hb : um.transmissionBuffer = b :: rest) (hbuf : um'.transmissionBuffer = b' :: rest)
    (hnext : um'.txNext = um.txNext) (hcuts : cuts b.packet < 65535) (hsdu : new.sdu = b.packet.sdu)
    (hhdr : new.hdr = ⟨if cuts b.packet = 0 then .first else .middle, um.txNext, cuts b.packet⟩)
    (hsdu' : b'.packet.sdu = b.packet.sdu)
    (hh' : b'.packet.umdHdr = some ⟨.middle, um.txNext, cuts b.packet + 1⟩) :
    Numbered um' (sent ++ [new]) := by
  have hmem : b ∈ um.transmissionBuffer := by rw [hb]; exact List.mem_cons_self ..
  have htail : ∀ c ∈ rest, c.packet.umdHdr = none := fun c hc => h.uncut c (by rw [hb]; exact hc)
  have hd := h.distinct
  rw [hb] at hd
  obtain ⟨hone, hsep, hbelow⟩ := h.sns hb hsdu (by rw [hhdr])
  refine ⟨?_, ?_, ?_, ?_, ?_, ?_, ?_, hone, hsep⟩
  · intro c hc
    rw [hbuf] at hc
    exact htail c hc
  · intro c hc hdr hh
    rw [hbuf] at hc
    rcases List.mem_cons.1 hc with rfl | hc
    · rw [hh'] at hh
      obtain rfl := Option.some.inj hh
      exact ⟨hnext.symm, Nat.succ_pos _, (by omega : cuts b.packet + 1 < 65536)⟩
    · rw [htail c hc] at hh
      exact absurd hh (by simp)
  · rw [hbuf]
    refine List.pairwise_cons.2 ⟨fun c hc => ?_, hd.of_cons⟩
    rw [hsdu']
    exact List.rel_of_pairwise_cons hd hc
  · intro c hc
    rw [hbuf] at hc
    rcases List.mem_cons.1 hc with rfl | hc
    · have hcut : cuts c.packet = cuts b.packet + 1 := by rw [cuts, hh']
      rw [hsdu', ← hsdu, labels_self, hsdu, h.waiting b hmem, hhdr, hcut, cutLabels_succ]
    · rw [labels_other (by rw [hsdu]; exact List.rel_of_pairwise_cons hd hc)]
      exact h.waiting c (by rw [hb]; exact List.mem_cons_of_mem _ hc)
  · intro c hc p hp heq
    rw [hbuf] at hc
    rw [hnext]
    rcases List.mem_cons.1 hc with rfl | hc
    · rw [hone p hp new (List.mem_append_right _ (List.mem_singleton_self _))
        (heq.trans (hsdu'.trans hsdu.symm)), hhdr]
    · rcases List.mem_append.1 hp with hp | hp
      · exact absurd heq (h.unsent hb hc hp)
      · rw [List.mem_singleton.1 hp, hsdu] at heq
        exact absurd heq (List.rel_of_pairwise_cons hd hc)
  · intro i hi
    rw [hbuf] at hi
    have hib : b.packet.sdu ≠ i := by
      rw [← hsdu']
      exact hi b' (List.mem_cons_self ..)
    rw [labels_other (by rw [hsdu]; exact hib)]
    refine h.finished i fun c hc => ?_
    rw [hb] at hc
    rcases List.mem_cons.1 hc with rfl | hc
    · exact hib
    · exact hi c (List.mem_cons_of_mem _ hc)
  · intro p hp hall
    rw [hnext, hbuf]
    rcases hbelow p hp hall with hlt | heq
    · exact Or.inl hlt
    · exact Or.inr ⟨b', List.mem_cons_self .., heq.trans hsdu'.symm⟩

/-- The header of a segment. -/
theorem Numbered.sendCut_hdr {left : ℕ} (h : Numbered um sent) (hmem : b ∈ um.transmissionBuffer) :
    (sendCut H um b left rest).2.hdr =
      ⟨if cuts b.packet = 0 then .first else .middle, um.txNext, cuts b.packet⟩ := by
  unfold sendCut fragmentPacket umdPdu cuts
  cases hh : b.packet.umdHdr with
  | none => rfl
  | some hdr =>
    have hpos := (h.header b hmem hdr hh).2.1
    dsimp only
    rw [if_neg (by omega)]

/-- The header that waits on. -/
theorem sendCut_umdHdr {left : ℕ} (hcuts : cuts b.packet < 65535) :
    (fragmentPacket H b.packet left um.txNext).2.umdHdr = some ⟨.middle, um.txNext, cuts b.packet + 1⟩ := by
  rw [← u16_of_lt (n := cuts b.packet + 1) (by omega)]
  rfl

/-- **A segment is cut** off the head, which waits on with the next SO. -/
theorem Numbered.cut {left : ℕ} (h : Numbered um sent) (hb : um.transmissionBuffer = b :: rest)
    (hfits : ∀ hdr ∈ b.packet.umdHdr, hdr.so < 65535) :
    Numbered (sendCut H um b left rest).1 (sent ++ [(sendCut H um b left rest).2]) := by
  have hmem : b ∈ um.transmissionBuffer := by rw [hb]; exact List.mem_cons_self ..
  have hcuts : cuts b.packet < 65535 := by
    unfold cuts
    split
    · rename_i hdr hh
      exact hfits hdr hh
    · decide
  exact h.stay hb rfl rfl hcuts rfl (h.sendCut_hdr hmem) rfl (sendCut_umdHdr hcuts)

end Numbered

variable {H : HdrLib}

/-- **A grant keeps the numbering.** -/
theorem Moves.numbered {left : ℕ} {um um' : UmTx} {pdus : List UmdPdu} (hm : Moves H left um pdus um')
    {sent : List UmdPdu} (hok : um.FitsWords left) (h : Numbered um sent) : Numbered um' (sent ++ pdus) := by
  induction hm generalizing sent with
  | done left um =>
    rw [List.append_nil]
    exact h
  | @whole left um _ b rest pdus hb _ _ _ ih =>
    have hassoc : sent ++ (sendWhole H um b rest).2 :: pdus =
        sent ++ [(sendWhole H um b rest).2] ++ pdus := by simp
    rw [hassoc]
    -- behind the head nothing has a header, so the next move meets its bounds
    refine ih (fun c hc hdr hh => ?_) ?_
    · have hrest : c ∈ rest := List.mem_of_mem_head? hc
      rw [h.uncut c (by rw [hb]; exact hrest)] at hh
      exact absurd hh (by simp)
    · cases hh : b.packet.umdHdr with
      | none => exact h.all hb hh
      | some hdr => exact h.last hb hh (hok b (by rw [hb]; rfl) hdr hh).1
  | @cut left um b rest hb hleft hw =>
    refine h.cut hb fun hdr hh => ?_
    have hmem : b ∈ um.transmissionBuffer := by rw [hb]; exact List.mem_cons_self ..
    have hlt := (h.header b hmem hdr hh).2.2
    rcases Nat.lt_or_ge hdr.so 65535 with hlt' | hge
    · exact hlt'
    · rcases (hok b (by rw [hb]; rfl) hdr hh).2 (by omega) with h1 | h1
      · exact absurd h1 hleft
      · exact absurd hw h1

/-- **A new SDU keeps the numbering.** -/
theorem Numbered.enqueue {um : UmTx} {sent : List UmdPdu} (h : Numbered um sent) (p : Packet)
    (hnew : ∀ b ∈ um.transmissionBuffer, b.packet.sdu ≠ p.sdu) (hunsent : ∀ q ∈ sent, q.sdu ≠ p.sdu)
    (hp : p.umdHdr = none) : Numbered (um.handlePduFromUpperLayer p .dtch) sent := by
  have hnil : labels sent p.sdu = [] := by
    unfold labels
    rw [List.map_eq_nil_iff, List.filter_eq_nil_iff]
    intro q hq
    simpa using hunsent q hq
  have hcases : ∀ c ∈ (um.handlePduFromUpperLayer p .dtch).transmissionBuffer,
      c ∈ um.transmissionBuffer ∨ c.packet = p := by
    intro c hc
    rcases List.mem_append.1 hc with hc | hc
    · exact Or.inl hc
    · rw [List.mem_singleton.1 hc]
      exact Or.inr rfl
  have hold : ∀ c ∈ um.transmissionBuffer,
      c ∈ (um.handlePduFromUpperLayer p .dtch).transmissionBuffer := fun c hc => List.mem_append_left _ hc
  refine ⟨?_, ?_, ?_, ?_, ?_, ?_,
    ?_, h.one_sn, h.one_sdu⟩
  · intro c hc
    have hc : c ∈ (addPacket um.transmissionBuffer p 0 0 .dtch).tail := hc
    unfold addPacket at hc
    cases hb : um.transmissionBuffer with
    | nil =>
      rw [hb] at hc
      exact absurd hc List.not_mem_nil
    | cons b rest =>
      rw [hb, List.cons_append, List.tail_cons] at hc
      rcases List.mem_append.1 hc with hc | hc
      · exact h.uncut c (by rw [hb]; exact hc)
      · rw [List.mem_singleton.1 hc]
        exact hp
  · intro c hc hdr hh
    rcases hcases c hc with hc | rfl
    · exact h.header c hc hdr hh
    · rw [hp] at hh
      exact absurd hh (by simp)
  · refine List.pairwise_append.2 ⟨h.distinct, List.pairwise_singleton _ _, fun b hb c hc => ?_⟩
    rw [List.mem_singleton.1 hc]
    exact hnew b hb
  · intro c hc
    rcases hcases c hc with hc | rfl
    · exact h.waiting c hc
    · rw [hnil, cuts, hp]
      rfl
  · intro c hc q hq heq
    rcases hcases c hc with hc | rfl
    · exact h.current c hc q hq heq
    · exact absurd heq (hunsent q hq)
  · intro i hi
    exact h.finished i fun c hc => hi c (hold c hc)
  · intro q hq hall
    rcases h.below q hq hall with hlt | ⟨c, hc, heq⟩
    · exact Or.inl hlt
    · exact Or.inr ⟨c, hold c hc, heq⟩

end UmTx

/-! ## The receiver -/

/-- Every buffer holds PDUs of its own SN, each of which satisfies `P`. -/
def Collects (P : UmdPdu → Prop) (l : List UmReceptionBuffer) : Prop :=
  ∀ b ∈ l, ∀ p ∈ b.packets, p.hdr.sn = b.sn ∧ P p

namespace UmRx

variable {P : UmdPdu → Prop} {rx rx' : UmRx} {pdu : UmdPdu} {out : List (List UmdPdu)}

theorem sn_add (buf : UmReceptionBuffer) (pdu : UmdPdu) : (buf.add pdu).sn = buf.sn := by
  unfold UmReceptionBuffer.add
  dsimp only
  split <;> rfl

theorem packets_add (buf : UmReceptionBuffer) (pdu : UmdPdu) :
    (buf.add pdu).packets = buf.packets ++ [pdu] := by
  unfold UmReceptionBuffer.add
  dsimp only
  split <;> rfl

theorem Collects.add {buf : UmReceptionBuffer} (h : ∀ p ∈ buf.packets, p.hdr.sn = buf.sn ∧ P p)
    (hsn : buf.sn = pdu.hdr.sn) (hp : P pdu) :
    ∀ p ∈ (buf.add pdu).packets, p.hdr.sn = (buf.add pdu).sn ∧ P p := by
  intro p hmem
  rw [packets_add] at hmem
  rw [sn_add]
  rcases List.mem_append.1 hmem with hmem | hmem
  · exact h p hmem
  · rw [List.mem_singleton.1 hmem]
    exact ⟨hsn.symm, hp⟩

/-- **Placing a PDU** that satisfies `P`. -/
theorem Collects.place {l : List UmReceptionBuffer} (h : Collects P l) (hp : P pdu) :
    (umPlaceIn pdu l).1 ∈ (umPlaceIn pdu l).2 ∧ Collects P (umPlaceIn pdu l).2 := by
  induction l with
  | nil =>
    refine ⟨List.mem_singleton_self _, ?_⟩
    intro b hb
    rw [List.mem_singleton.1 hb]
    exact Collects.add (fun p hp => absurd hp List.not_mem_nil) rfl hp
  | cons b bs ih =>
    have hb : Collects P bs := fun c hc => h c (List.mem_cons_of_mem _ hc)
    unfold umPlaceIn
    split
    · rename_i hsn
      refine ⟨List.mem_cons_self .., ?_⟩
      intro c hc
      rcases List.mem_cons.1 hc with rfl | hc
      · exact Collects.add (h b (List.mem_cons_self ..)) hsn hp
      · exact hb c hc
    · refine ⟨List.mem_cons_of_mem _ (ih hb).1, ?_⟩
      intro c hc
      rcases List.mem_cons.1 hc with rfl | hc
      · exact h c (List.mem_cons_self ..)
      · exact (ih hb).2 c hc

theorem updateReassemblyTimer_buffer (h : rx.updateReassemblyTimer = some rx') :
    rx'.receptionBuffer = rx.receptionBuffer := by
  unfold updateReassemblyTimer at h
  split at h
  · rw [← Option.some.inj h]
  · obtain ⟨pending, -, rfl⟩ := Option.map_eq_some_iff.1 h
    split <;> rfl

/-- **A segment** is dropped, or it is placed and may complete the buffer of its SN. -/
theorem dropOrPlace_cases (h : rx.dropOrPlace pdu = some (rx', out)) :
    (∀ b ∈ rx'.receptionBuffer, b ∈ rx.receptionBuffer ∨ b ∈ (umPlaceIn pdu rx.receptionBuffer).2) ∧
    ∀ ps ∈ out, ps = (umPlaceIn pdu rx.receptionBuffer).1.packets := by
  unfold dropOrPlace at h
  dsimp only at h
  split at h
  · split at h
    · obtain ⟨next, -, h⟩ := Option.map_eq_some_iff.1 h
      obtain ⟨rfl, rfl⟩ := Prod.mk.inj h
      exact ⟨fun b hb => Or.inl hb, fun ps hps => absurd hps List.not_mem_nil⟩
    · obtain ⟨rfl, rfl⟩ := Prod.mk.inj (Option.some.inj h)
      exact ⟨fun b hb => Or.inl hb, fun ps hps => absurd hps List.not_mem_nil⟩
  · obtain ⟨all, -, h⟩ := Option.bind_eq_some_iff.1 h
    split at h
    · obtain ⟨rfl, rfl⟩ := Prod.mk.inj (Option.some.inj h)
      refine ⟨fun b hb => Or.inr ?_, fun ps hps => List.mem_singleton.1 hps⟩
      have hb : b ∈ (umPlaceIn pdu rx.receptionBuffer).2.eraseP fun b => b.sn = pdu.hdr.sn := by
        split at hb
        · unfold updateRxNextReassembly at hb
          split at hb <;> exact hb
        · exact hb
      exact List.mem_of_mem_eraseP hb
    · obtain ⟨rfl, rfl⟩ := Prod.mk.inj (Option.some.inj h)
      exact ⟨fun b hb => Or.inr hb, fun ps hps => absurd hps List.not_mem_nil⟩

/-- **A PDU arrives.** -/
theorem receivePdu_cases (h : rx.receivePdu pdu = some (rx', out)) :
    (∀ b ∈ rx'.receptionBuffer, b ∈ rx.receptionBuffer ∨
      pdu.hdr.si ≠ .all ∧ b ∈ (umPlaceIn pdu rx.receptionBuffer).2) ∧
    ∀ ps ∈ out, ps = [pdu] ∨ pdu.hdr.si ≠ .all ∧ ps = (umPlaceIn pdu rx.receptionBuffer).1.packets := by
  unfold receivePdu at h
  split at h
  · obtain ⟨rfl, rfl⟩ := Prod.mk.inj (Option.some.inj h)
    exact ⟨fun b hb => Or.inl hb, fun ps hps => Or.inl (List.mem_singleton.1 hps)⟩
  · rename_i hall
    unfold receivePduWithSn at h
    obtain ⟨r, hr, h⟩ := Option.bind_eq_some_iff.1 h
    obtain ⟨rx₁, hrx, h⟩ := Option.bind_eq_some_iff.1 h
    obtain ⟨rfl, rfl⟩ := Prod.mk.inj (Option.some.inj h)
    obtain ⟨hbuf, hout⟩ := dropOrPlace_cases hr
    refine ⟨?_, fun ps hps => Or.inr ⟨hall, hout ps hps⟩⟩
    intro b hb
    rw [updateReassemblyTimer_buffer hrx] at hb
    rcases hbuf b hb with hb | hb
    · exact Or.inl hb
    · exact Or.inr ⟨hall, hb⟩

/-- **The reassembly timer** only drops buffers. -/
theorem handleReassemblyTimer_cases (h : rx.handleReassemblyTimer = some rx') :
    ∀ b ∈ rx'.receptionBuffer, b ∈ rx.receptionBuffer := by
  unfold handleReassemblyTimer at h
  split at h
  · obtain ⟨pending, -, h⟩ := Option.bind_eq_some_iff.1 h
    rw [← Option.some.inj h]
    intro b hb
    split at hb <;> exact List.mem_of_mem_filter hb
  · exact absurd h (by simp)

end UmRx

/-! ## The pair -/

namespace UmPair

variable {H : HdrLib}

/-- Each grant stays within the words. -/
def FitsWords (s : UmPair) : UmEvent → Prop
  | .grant size _ => s.tx.FitsWords size
  | _ => True

instance (s : UmPair) (e : UmEvent) : Decidable (FitsWords s e) :=
  match e with
  | .enqueue _ _ _ | .grant _ _ | .arrives _ | .reassembly => by
    dsimp only [FitsWords]
    infer_instance

/-- A sent PDU that is a part of an SDU. -/
def IsSegment (s : UmPair) (p : UmdPdu) : Prop := p ∈ s.sent ∧ p.hdr.si ≠ .all

structure Separated (s : UmPair) : Prop where
  waits : ∀ b ∈ s.tx.transmissionBuffer, UmTx.Waits b
  numbered : UmTx.Numbered s.tx s.sent
  fresh : (∀ b ∈ s.tx.transmissionBuffer, b.packet.sdu < s.enqueued) ∧ ∀ p ∈ s.sent, p.sdu < s.enqueued
  collects : Collects s.IsSegment s.rx.receptionBuffer
  /-- What PDCP gets is a PDU that was sent, or sent segments of one SN. -/
  delivered : ∀ ps ∈ s.delivered, (∃ p ∈ s.sent, ps = [p]) ∨ ∃ sn, ∀ p ∈ ps, p.hdr.sn = sn ∧ s.IsSegment p

theorem Separated.enqueue {s s' : UmPair} {isUplane : Bool} {mac : MacData} {ch : LogicalChannel}
    (h : Separated s) (hs : s.step H (.enqueue isUplane mac ch) = some s') : Separated s' := by
  simp only [step, UmTx.step, Option.map_some, Option.some.injEq] at hs
  subst hs
  have hfresh : ∀ b ∈ s.tx.transmissionBuffer, b.packet.sdu < s.enqueued + 1 :=
    fun b hb => Nat.lt_succ_of_lt (h.fresh.1 b hb)
  have hsent : ∀ p ∈ s.sent, p.sdu < s.enqueued + 1 := fun p hp => Nat.lt_succ_of_lt (h.fresh.2 p hp)
  split
  · rename_i hch
    obtain rfl := UmTx.dtch_of_isForUm hch
    refine ⟨UmTx.handlePdu_waits _ h.waits, h.numbered.enqueue _ (fun b hb => Nat.ne_of_lt (h.fresh.1 b hb))
      (fun p hp => Nat.ne_of_lt (h.fresh.2 p hp)) rfl, ⟨?_, hsent⟩, h.collects, h.delivered⟩
    intro b hb
    rcases List.mem_append.1 hb with hb | hb
    · exact hfresh b hb
    · rw [List.mem_singleton.1 hb]
      exact Nat.lt_succ_self _
  · exact ⟨h.waits, h.numbered, ⟨hfresh, hsent⟩, h.collects, h.delivered⟩

theorem Separated.grant {s s' : UmPair} {size : ℕ} {ch : LogicalChannel} (h : Separated s)
    (hok : s.tx.FitsWords size) (hs : s.step H (.grant size ch) = some s') : Separated s' := by
  simp only [step, UmTx.step, Option.map_some, Option.some.injEq] at hs
  subst hs
  unfold granted
  split
  · rename_i hch
    obtain rfl := UmTx.dtch_of_isForUm hch
    have hm := UmTx.sendPdu_moves (H := H) size h.waits
    have hmono : ∀ p, s.IsSegment p → p ∈ s.sent ++ (s.tx.sendPdu H size .dtch).2 ∧ p.hdr.si ≠ .all :=
      fun p hp => ⟨List.mem_append_left _ hp.1, hp.2⟩
    refine ⟨hm.waits h.waits, hm.numbered hok h.numbered, ?_, ?_, ?_⟩
    · refine hm.inv (I := fun um sent => (∀ b ∈ um.transmissionBuffer, b.packet.sdu < s.enqueued) ∧
        ∀ p ∈ sent, p.sdu < s.enqueued) (fun um ps b rest hb hi => ?_) (fun um ps b left rest hb hi => ?_)
          s.sent h.fresh
      · rw [hb] at hi
        refine ⟨fun c hc => hi.1 c (List.mem_cons_of_mem _ hc), ?_⟩
        intro p hp
        rcases List.mem_append.1 hp with hp | hp
        · exact hi.2 p hp
        · rw [List.mem_singleton.1 hp]
          exact hi.1 b (List.mem_cons_self ..)
      · rw [hb] at hi
        constructor
        · intro c hc
          rcases List.mem_cons.1 hc with rfl | hc
          · exact hi.1 b (List.mem_cons_self ..)
          · exact hi.1 c (List.mem_cons_of_mem _ hc)
        · intro p hp
          rcases List.mem_append.1 hp with hp | hp
          · exact hi.2 p hp
          · rw [List.mem_singleton.1 hp]
            exact hi.1 b (List.mem_cons_self ..)
    · intro b hb p hp
      obtain ⟨hsn, hseg⟩ := h.collects b hb p hp
      exact ⟨hsn, hmono p hseg⟩
    · intro ps hps
      rcases h.delivered ps hps with ⟨p, hp, heq⟩ | ⟨sn, hsn⟩
      · exact Or.inl ⟨p, List.mem_append_left _ hp, heq⟩
      · exact Or.inr ⟨sn, fun p hp => ⟨(hsn p hp).1, hmono p (hsn p hp).2⟩⟩
  · rw [List.append_nil]
    exact ⟨h.waits, h.numbered, h.fresh, h.collects, h.delivered⟩

theorem Separated.arrives {s s' : UmPair} {i : ℕ} (h : Separated s)
    (hs : s.step H (.arrives i) = some s') : Separated s' := by
  obtain ⟨pdu, hpdu, hs⟩ := Option.bind_eq_some_iff.1 hs
  obtain ⟨⟨rx, out⟩, hr, hs⟩ := Option.bind_eq_some_iff.1 hs
  rw [← Option.some.inj hs]
  have hsent : pdu ∈ s.sent := List.mem_of_getElem? hpdu
  obtain ⟨hbuf, hout⟩ := UmRx.receivePdu_cases hr
  have hplace : pdu.hdr.si ≠ .all → (umPlaceIn pdu s.rx.receptionBuffer).1 ∈
      (umPlaceIn pdu s.rx.receptionBuffer).2 ∧ Collects s.IsSegment (umPlaceIn pdu s.rx.receptionBuffer).2 :=
    fun hall => UmRx.Collects.place h.collects ⟨hsent, hall⟩
  refine ⟨h.waits, h.numbered, h.fresh, ?_, ?_⟩
  · intro b hb
    rcases hbuf b hb with hb | ⟨hall, hb⟩
    · exact h.collects b hb
    · exact (hplace hall).2 b hb
  · intro ps hps
    rcases List.mem_append.1 hps with hps | hps
    · exact h.delivered ps hps
    · rcases hout ps hps with rfl | ⟨hall, rfl⟩
      · exact Or.inl ⟨pdu, hsent, rfl⟩
      · exact Or.inr ⟨_, (hplace hall).2 _ (hplace hall).1⟩

theorem separated_of_reachOn {s : UmPair} (h : (machine H).ReachOn FitsWords s) : Separated s := by
  refine h.inv (I := Separated) (fun s h0 => ?_) fun s e s' hi hok hs => ?_
  · have h0 : s = init := h0
    subst h0
    have hnone : ∀ {α} {P : α → Prop}, ∀ x ∈ ([] : List α), P x := fun x hx => absurd hx List.not_mem_nil
    exact ⟨hnone, ⟨hnone, hnone, .nil, hnone, hnone, fun i _ => Or.inl rfl, hnone, hnone, hnone⟩,
      ⟨hnone, hnone⟩, hnone, hnone⟩
  · cases e with
    | enqueue isUplane mac ch => exact hi.enqueue (H := H) hs
    | grant size ch => exact hi.grant hok hs
    | arrives i => exact hi.arrives (H := H) hs
    | reassembly =>
      obtain ⟨rx, hr, rfl⟩ := Option.map_eq_some_iff.1 hs
      have hbuf := UmRx.handleReassemblyTimer_cases hr
      exact ⟨hi.waits, hi.numbered, hi.fresh, fun b hb => hi.collects b (hbuf b hb), hi.delivered⟩

/-- **The numbering separates SDUs.** All segments of an SDU have one SN, segments under one
SN are of one SDU, an SDU still waiting was cut `n` times in order, one that has left
ends with LAST after its cuts, and PDCP never gets two SDUs joined. -/
theorem segments_separated (H : HdrLib) {s : UmPair} (h : (machine H).ReachOn FitsWords s) :
    (∀ p ∈ s.sent, ∀ q ∈ s.sent, p.sdu = q.sdu → p.hdr.sn = q.hdr.sn) ∧
    (∀ p ∈ s.sent, ∀ q ∈ s.sent, p.hdr.si ≠ .all → q.hdr.si ≠ .all →
      p.hdr.sn = q.hdr.sn → p.sdu = q.sdu) ∧
    (∀ b ∈ s.tx.transmissionBuffer, ∃ n, labels s.sent b.packet.sdu = cutLabels n) ∧
    (∀ sdu, (∀ b ∈ s.tx.transmissionBuffer, b.packet.sdu ≠ sdu) →
      labels s.sent sdu = [] ∨ ∃ n, labels s.sent sdu = wholeLabels n) ∧
    ∀ ps ∈ s.delivered, ∀ p ∈ ps, ∀ q ∈ ps, p.sdu = q.sdu := by
  have hi := separated_of_reachOn h
  refine ⟨hi.numbered.one_sn, hi.numbered.one_sdu, fun b hb => ⟨_, hi.numbered.waiting b hb⟩,
    hi.numbered.finished, ?_⟩
  intro ps hps p hp q hq
  rcases hi.delivered ps hps with ⟨r, -, rfl⟩ | ⟨sn, hsn⟩
  · rw [List.mem_singleton.1 hp, List.mem_singleton.1 hq]
  · obtain ⟨hp1, hp2⟩ := hsn p hp
    obtain ⟨hq1, hq2⟩ := hsn q hq
    exact hi.numbered.one_sdu p hp2.1 q hq2.1 hp2.2 hq2.2 (hp1.trans hq1.symm)

/-- Two SDUs of 100 bytes on grants of 40, 90 and 90 bytes; their segments arrive interleaved. -/
def twoSdusInterleaved : List UmEvent :=
  [.enqueue true ⟨100, 0, 100⟩ .dtch, .enqueue true ⟨100, 0, 100⟩ .dtch, .grant 40 .dtch, .grant 90 .dtch,
    .grant 90 .dtch, .arrives 0, .arrives 2, .arrives 3, .arrives 1]

theorem segments_separated_interleaved : ∃ s : UmPair,
    (machine .overhead).ReachOn FitsWords s ∧ s.delivered.map (·.map (·.sdu)) = [[1, 1], [0, 0]] ∧
      (∀ p ∈ s.sent, ∀ q ∈ s.sent, p.hdr.si ≠ .all → q.hdr.si ≠ .all →
        p.hdr.sn = q.hdr.sn → p.sdu = q.sdu) ∧
      ∀ ps ∈ s.delivered, ∀ p ∈ ps, ∀ q ∈ ps, p.sdu = q.sdu := by
  obtain ⟨s, hs, heq⟩ := Machine.ReachOn.exists_of_execOn (M := machine .overhead)
    (P := fun s => s.delivered.map (·.map (·.sdu)) = [[1, 1], [0, 0]]) FitsWords
    twoSdusInterleaved (.init rfl) (by decide)
  obtain ⟨-, hsep, -, -, hdel⟩ := segments_separated .overhead hs
  exact ⟨s, hs, heq, hsep, hdel⟩

/-! ## Past the words -/

/-- One event of a run with the header library `HdrLib.overhead`. -/
theorem reach_step {s s' : UmPair} (h : (machine .overhead).Reach s) (e : UmEvent)
    (hs : s.step .overhead e = some s') : (machine .overhead).Reach s' :=
  .step h trivial hs

/-- What is left of an SDU of 655371 bytes after `n` cuts of 10 bytes. -/
def longSdu (n : ℕ) : BufferData :=
  ⟨.all, 0, 0, 0, .dtch, ⟨0, true, ⟨655371 - 10 * n, 3, 655374 - 10 * n⟩, some ⟨.middle, 0, u16 n⟩⟩, false, false⟩

theorem grant_longSdu {s : UmPair} {n : ℕ} (hn : n < 65536 + 1) (hb : s.tx.transmissionBuffer = [longSdu n])
    (hnext : s.tx.txNext = 0) : ∃ s', s.step .overhead (.grant 10 .dtch) = some s' ∧
      s'.tx.transmissionBuffer = [longSdu (n + 1)] ∧ s'.tx.txNext = 0 ∧
      s'.sent = s.sent ++ [⟨0, ⟨.middle, 0, u16 n⟩, ⟨10, 3, 13⟩⟩] := by
  have hcut : (longSdu n).packet.isUplane ∧ (longSdu n).packet.mac.packetSize > (10 : ℕ) :=
    ⟨rfl, by show (655374 - 10 * n : ℤ) > (10 : ℕ); omega⟩
  have hsend := UmTx.sendPdu_cut (H := .overhead) hb ⟨rfl, rfl⟩ (by decide) hcut
  refine ⟨_, rfl, ?_, ?_, ?_⟩
  · show (s.tx.sendPdu .overhead 10 .dtch).1.transmissionBuffer = _
    rw [hsend]
    have hso : u16 (u16 n + 1) = u16 (n + 1) := by
      unfold u16
      omega
    have h1 : (655371 - 10 * n : ℤ) - (10 : ℕ) = 655371 - 10 * ((n + 1 : ℕ) : ℤ) := by omega
    have h2 : (655374 - 10 * n : ℤ) - (3 : ℕ) - (10 : ℕ) + (3 : ℕ) = 655374 - 10 * ((n + 1 : ℕ) : ℤ) := by omega
    simp only [longSdu, UmTx.sendCut, UmTx.fragmentPacket, UmTx.umdHdrAdd, UmTx.umdHdrRemove,
      HdrLib.overhead, umdHdrSize, hso, hnext]
    rw [h1, h2]
  · exact (congrArg (fun r => r.1.txNext) hsend).trans hnext
  · show s.sent ++ (s.tx.sendPdu .overhead 10 .dtch).2 = _
    rw [hsend]
    simp [longSdu, UmTx.sendCut, UmTx.fragmentPacket, UmTx.umdPdu, UmTx.umdHdrAdd, UmTx.umdHdrRemove,
      HdrLib.overhead, umdHdrSize, hnext]

theorem reach_longSdu (n : ℕ) (hn : n < 65536) : ∃ s : UmPair, (machine .overhead).Reach s ∧
    s.tx.transmissionBuffer = [longSdu (n + 1)] ∧ s.tx.txNext = 0 := by
  induction n with
  | zero =>
    refine Machine.Reach.exists_of_exec
      [.enqueue true ⟨655371, 0, 655371⟩ .dtch, .grant 10 .dtch] (.init rfl) (by decide)
  | succ n ih =>
    obtain ⟨s, hs, hb, hnext⟩ := ih (by omega)
    obtain ⟨s', hstep, hb', hnext', -⟩ := grant_longSdu (by omega) hb hnext
    exact ⟨s', reach_step hs _ hstep, hb', hnext'⟩

/-- What is left of SDU `i`, of 100 bytes, after a cut of 10 bytes under `sn`. -/
def cutSdu (i sn : ℕ) : BufferData :=
  ⟨.all, 0, 0, 0, .dtch, ⟨i, true, ⟨90, 3, 93⟩, some ⟨.middle, sn, 1⟩⟩, false, false⟩

/-- An SDU of 100 bytes comes and is cut, under the current SN. -/
theorem cut_sdu {s : UmPair} (h : (machine .overhead).Reach s) (hb : s.tx.transmissionBuffer = []) :
    ∃ s', (machine .overhead).Reach s' ∧ s'.enqueued = s.enqueued + 1 ∧
      s'.tx.transmissionBuffer = [cutSdu s.enqueued s.tx.txNext] ∧ s'.tx.txNext = s.tx.txNext ∧
      s'.sent = s.sent ++ [⟨s.enqueued, ⟨.first, s.tx.txNext, 0⟩, ⟨10, 1, 11⟩⟩] := by
  let um := s.tx.handlePduFromUpperLayer ⟨s.enqueued, true, ⟨100, 0, 100⟩, none⟩ .dtch
  have hum : um.transmissionBuffer =
      [⟨.all, 0, 0, 0, .dtch, ⟨s.enqueued, true, ⟨100, 0, 100⟩, none⟩, false, false⟩] :=
    congrArg (· ++ _) hb
  have hsend := UmTx.sendPdu_cut (H := .overhead) hum ⟨rfl, rfl⟩ (by decide : ¬ 10 < minRlcPduSize)
    ⟨rfl, show (100 : ℤ) > (10 : ℕ) by decide⟩
  have h₁ : (machine .overhead).Reach { s with tx := um, enqueued := s.enqueued + 1 } :=
    reach_step h (.enqueue true ⟨100, 0, 100⟩ .dtch) rfl
  refine ⟨_, reach_step h₁ (.grant 10 .dtch) rfl, rfl, ?_, ?_, ?_⟩
  · exact congrArg (fun r => r.1.transmissionBuffer) hsend
  · exact congrArg (fun r => r.1.txNext) hsend
  · exact congrArg (s.sent ++ ·.2) hsend

/-- What is left goes out as the last segment, under the same SN. -/
theorem segment_sdu {s : UmPair} (h : (machine .overhead).Reach s) (hb : s.tx.transmissionBuffer = []) :
    ∃ s', (machine .overhead).Reach s' ∧ s'.enqueued = s.enqueued + 1 ∧ s'.tx.transmissionBuffer = [] ∧
      (s'.tx.txNext = if int32 s.tx.txNext ≠ -1 then u32 (s.tx.txNext + 1) else s.tx.txNext) ∧
      ∃ p ∈ s'.sent, p.sdu = s.enqueued ∧ p.hdr = ⟨.last, s.tx.txNext, 1⟩ := by
  obtain ⟨s₁, h₁, henq, hb₁, hnext, -⟩ := cut_sdu h hb
  have hsend := UmTx.sendPdu_whole (H := .overhead) hb₁ ⟨rfl, rfl⟩ (by decide : ¬ 1000 < minRlcPduSize)
    fun hw => absurd hw.2 (show ¬ (93 : ℤ) > (1000 : ℕ) by decide)
  refine ⟨_, reach_step h₁ (.grant 1000 .dtch) rfl, henq, ?_, ?_,
    (UmTx.sendWhole .overhead s₁.tx (cutSdu s.enqueued s.tx.txNext) []).2, ?_, rfl, rfl⟩
  · exact congrArg (fun r => r.1.transmissionBuffer) hsend
  · refine (congrArg (fun r => r.1.txNext) hsend).trans ?_
    rw [← hnext]
    unfold UmTx.sendWhole
    dsimp only
    split
    · rename_i hne
      exact (if_pos hne).symm
    · rename_i hne
      exact (if_neg hne).symm
  · refine List.mem_append_right _ ?_
    show _ ∈ (s₁.tx.sendPdu .overhead 1000 .dtch).2
    rw [hsend]
    exact List.mem_singleton_self _

/-- Every SN comes up. -/
theorem reach_txNext (n : ℕ) (hn : n < 4294967296) : ∃ s : UmPair, (machine .overhead).Reach s ∧
    s.tx.transmissionBuffer = [] ∧ s.tx.txNext = n := by
  induction n with
  | zero => exact ⟨init, .init rfl, rfl, rfl⟩
  | succ n ih =>
    obtain ⟨s, hs, hb, hnext⟩ := ih (by omega)
    obtain ⟨s', hs', -, hb', hnext', -⟩ := segment_sdu hs hb
    refine ⟨s', hs', hb', ?_⟩
    have hne : int32 n ≠ -1 := by
      unfold int32
      split <;> omega
    rw [hnext', hnext, if_pos hne, u32_of_lt hn]

theorem not_mem_cutLabels (n : ℕ) : (SI.middle, 0) ∉ cutLabels n := by
  intro h
  obtain ⟨i, -, hi⟩ := List.mem_map.1 h
  obtain ⟨h1, rfl⟩ := Prod.mk.inj hi
  exact absurd h1 (by decide)

theorem not_mem_wholeLabels (n : ℕ) : (SI.middle, 0) ∉ wholeLabels n := by
  unfold wholeLabels
  split
  · decide
  · intro h
    rcases List.mem_append.1 h with h | h
    · exact not_mem_cutLabels n h
    · exact absurd (List.mem_singleton.1 h) (by simp)

/-- **Past the words the numbering collides**: an SDU cut 65537 times has SO 0 twice, and the
SDU after the one of SN `2 ^ 32 - 1` gets the same SN. -/
theorem segments_collide :
    (∃ s, (machine .overhead).Reach s ∧
      ¬ ∃ n, labels s.sent 0 = cutLabels n ∨ labels s.sent 0 = wholeLabels n) ∧
    ∃ s, (machine .overhead).Reach s ∧ ∃ p ∈ s.sent, ∃ q ∈ s.sent, p.hdr.si ≠ .all ∧ q.hdr.si ≠ .all ∧
      p.hdr.sn = q.hdr.sn ∧ q.sdu = p.sdu + 1 := by
  constructor
  · obtain ⟨s, hs, hb, hnext⟩ := reach_longSdu 65535 (by decide)
    obtain ⟨s', hstep, -, -, hsent⟩ := grant_longSdu (by decide) hb hnext
    refine ⟨s', reach_step hs _ hstep, fun ⟨n, hn⟩ => ?_⟩
    have hmem : (SI.middle, 0) ∈ labels s'.sent 0 := by
      unfold labels
      rw [hsent]
      simp [u16]
    rcases hn with hn | hn
    · exact not_mem_cutLabels n (hn ▸ hmem)
    · exact not_mem_wholeLabels n (hn ▸ hmem)
  · obtain ⟨s, hs, hb, hnext⟩ := reach_txNext 4294967295 (by decide)
    obtain ⟨s₁, h₁, henq, hb₁, hnext₁, p, hp, hpsdu, hphdr⟩ := segment_sdu hs hb
    obtain ⟨s₂, h₂, -, -, -, hsent⟩ := cut_sdu h₁ hb₁
    rw [hnext, if_neg (by decide)] at hnext₁
    refine ⟨s₂, h₂, p, ?_, ⟨s₁.enqueued, ⟨.first, s₁.tx.txNext, 0⟩, ⟨10, 1, 11⟩⟩, ?_, ?_, ?_, ?_, ?_⟩
    · rw [hsent]
      exact List.mem_append_left _ hp
    · rw [hsent]
      exact List.mem_append_right _ (List.mem_singleton_self _)
    · rw [hphdr]
      exact SI.noConfusion
    · exact SI.noConfusion
    · rw [hphdr, hnext, hnext₁]
    · rw [hpsdu, henq]

end UmPair

end NetSim.Rlc
