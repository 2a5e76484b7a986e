import NetSim.Proof.AmReceiver

/-!
# What the NACKs of a STATUS PDU cover

`updateStatus` visits the SNs from `RX_Next` up to `RX_Next_Highest`. An SN of which
nothing is recorded is NACKed whole, by itself or by lengthening a range; of any other SN
the SOs that are not recorded are NACKed up to its last recorded segment. `Missing` says
which segments these are.

* `covered_of_updateStatus`: every missing segment is covered, as long as no 256 SNs in a
  row are unrecorded (`NoWideGap`): the range of a NACK has 8 bits.
* `findLastStatusInfo_some`: the last recorded segment of an SN.
-/

namespace NetSim.Rlc

open Word

/-! ## Coverage -/

/-- The segments that a NACK stands for, where a range counts `nackRange` SNs. -/
def Nack.Covers (n : Nack) (sn so : ℕ) : Prop :=
  if n.e3 then n.nackSn ≤ sn ∧ sn < n.nackSn + n.nackRange
  else n.nackSn = sn ∧ (n.e2 = true → n.soStart ≤ so ∧ so ≤ n.soEnd)

instance (n : Nack) (sn so : ℕ) : Decidable (n.Covers sn so) := by
  unfold Nack.Covers
  infer_instance

/-- Some NACK of the list stands for the segment. -/
def Covered (nacks : List Nack) (sn so : ℕ) : Prop := ∃ n ∈ nacks, n.Covers sn so

instance (nacks : List Nack) (sn so : ℕ) : Decidable (Covered nacks sn so) := by
  unfold Covered
  infer_instance

namespace AmRx

/-- Nothing is recorded of an SN. -/
def Unrecorded (rx : AmRx) (sn : ℕ) : Prop := ∀ r ∈ rx.recvdInfo, r.sn ≠ sn

/-- No 256 SNs in a row up to `RX_Next_Highest` are unrecorded. -/
def NoWideGap (rx : AmRx) : Prop :=
  ∀ a ∈ List.range' rx.rxNext (rx.rxNextHighest - rx.rxNext), a + 256 ≤ rx.rxNextHighest →
    ∃ r ∈ rx.recvdInfo, a ≤ r.sn ∧ r.sn < a + 256

/-- The segments that `updateStatus` takes for missing. -/
def Missing (rx : AmRx) (sn so : ℕ) : Prop :=
  match findLastStatusInfo sn rx.recvdInfo none with
  | none => True
  | some r => r.si ≠ .all ∧ so ≤ r.so ∧ (rx.findStatus sn so).isNone = true

end AmRx

/-- A NACK of an SN between `RX_Next` and `RX_Next_Highest`. One that stands for whole SNs
stands for unrecorded ones. -/
structure Nack.Ok (rx : AmRx) (n : Nack) : Prop where
  low : rx.rxNext ≤ n.nackSn
  single : n.e3 = false → n.nackSn < rx.rxNextHighest ∧ (n.e2 = false → rx.Unrecorded n.nackSn)
  range : n.e3 = true → n.e2 = false ∧ n.nackRange < 256 ∧ n.nackSn + n.nackRange ≤ rx.rxNextHighest ∧
    ∀ x, n.nackSn ≤ x → x < n.nackSn + n.nackRange → rx.Unrecorded x
  segment : n.soStart ≤ n.soEnd

/-! ## Adding a NACK -/

/-- From `nacks` to `nacks'` nothing loses its cover, and every NACK stays in order. -/
structure Extends (rx : AmRx) (nacks nacks' : List Nack) : Prop where
  ok : ∀ n ∈ nacks', n.Ok rx
  mono : ∀ sn so, Covered nacks sn so → Covered nacks' sn so

section addNack

open AmRx

variable {rx : AmRx} {nacks nacks' : List Nack} {si : SI} {sn so : ℕ}

theorem Extends.refl (h : ∀ n ∈ nacks, n.Ok rx) : Extends rx nacks nacks := ⟨h, fun _ _ hc => hc⟩

theorem Extends.trans {nacks'' : List Nack} (h : Extends rx nacks nacks') (h' : Extends rx nacks' nacks'') :
    Extends rx nacks nacks'' :=
  ⟨h'.ok, fun sn so hc => h'.mono sn so (h.mono sn so hc)⟩

/-- What a new NACK and a lengthened tail both do, `addNack` does. -/
theorem addNack_extends {K : ℕ → Prop} (hok : ∀ n ∈ nacks, n.Ok rx) (hnew : (newNack si sn so).Ok rx)
    (hcov : ∀ y, K y → (newNack si sn so).Covers sn y)
    (htail : ∀ t t', t.Ok rx → updateNackTail t si sn so = some t' →
      t'.Ok rx ∧ (∀ x y, t.Covers x y → t'.Covers x y) ∧ ∀ y, K y → t'.Covers sn y) :
    Extends rx nacks (addNack nacks si sn so) ∧ ∀ y, K y → Covered (addNack nacks si sn so) sn y := by
  unfold addNack
  cases nacks with
  | nil =>
    refine ⟨⟨?_, fun x y ⟨n, hn, _⟩ => absurd hn List.not_mem_nil⟩,
      fun y hy => ⟨_, List.mem_singleton_self _, hcov y hy⟩⟩
    intro n hn
    rw [List.mem_singleton.1 hn]
    exact hnew
  | cons t front =>
    dsimp only
    cases h : updateNackTail t si sn so with
    | none =>
      refine ⟨⟨?_, fun x y ⟨n, hn, hc⟩ => ⟨n, List.mem_cons_of_mem _ hn, hc⟩⟩,
        fun y hy => ⟨_, List.mem_cons_self .., hcov y hy⟩⟩
      intro n hn
      rcases List.mem_cons.1 hn with rfl | hn
      · exact hnew
      · exact hok n hn
    | some t' =>
      obtain ⟨hok', hmono, hcov'⟩ := htail t t' (hok t (List.mem_cons_self ..)) h
      refine ⟨⟨?_, fun x y ⟨n, hn, hc⟩ => ?_⟩, fun y hy => ⟨t', List.mem_cons_self .., hcov' y hy⟩⟩
      · intro n hn
        rcases List.mem_cons.1 hn with rfl | hn
        · exact hok'
        · exact hok n (List.mem_cons_of_mem _ hn)
      · rcases List.mem_cons.1 hn with rfl | hn
        · exact ⟨t', List.mem_cons_self .., hmono x y hc⟩
        · exact ⟨n, List.mem_cons_of_mem _ hn, hc⟩

/-- A range that would reach 256 SNs meets a record. -/
theorem nackRange_lt {t : Nack} (ht : t.Ok rx) (he3 : t.e3 = true) (hgap : rx.NoWideGap)
    (hsn : sn = t.nackSn + t.nackRange) (hhi : sn < rx.rxNextHighest) (hun : rx.Unrecorded sn) :
    t.nackRange + 1 < 256 := by
  obtain ⟨-, hlt, hle, hnone⟩ := ht.range he3
  have hlow := ht.low
  by_contra hge
  obtain ⟨r, hr, h1, h2⟩ := hgap t.nackSn (by rw [List.mem_range'_1]; omega) (by omega)
  rcases Nat.lt_or_ge r.sn sn with hrs | hrs
  · exact hnone r.sn h1 (by omega) r hr rfl
  · exact hun r hr (by omega)

/-- A range of unrecorded SNs takes in the next one. -/
theorem Nack.Ok.grow {t : Nack} (ht : t.Ok rx) (he3 : t.e3 = true) (hgap : rx.NoWideGap)
    (hsn : sn = t.nackSn + t.nackRange) (hhi : sn < rx.rxNextHighest) (hun : rx.Unrecorded sn) :
    ({ t with nackRange := u8 (t.nackRange + 1) } : Nack).Ok rx ∧
      (∀ x y, t.Covers x y → ({ t with nackRange := u8 (t.nackRange + 1) } : Nack).Covers x y) ∧
      ∀ y, ({ t with nackRange := u8 (t.nackRange + 1) } : Nack).Covers sn y := by
  obtain ⟨he2, -, hle, hnone⟩ := ht.range he3
  have hlt := nackRange_lt ht he3 hgap hsn hhi hun
  rw [u8_of_lt hlt]
  refine ⟨⟨ht.low, ?_, fun _ => ⟨he2, hlt, ?_, ?_⟩, ht.segment⟩, ?_, ?_⟩
  · intro h
    rw [show t.e3 = false from h] at he3
    cases he3
  · dsimp only
    omega
  · intro x h1 h2
    dsimp only at h1 h2
    rcases Nat.lt_or_ge x (t.nackSn + t.nackRange) with hx | hx
    · exact hnone x h1 hx
    · obtain rfl : x = sn := by omega
      exact hun
  · intro x y hc
    unfold Nack.Covers at hc ⊢
    rw [if_pos he3] at hc ⊢
    dsimp only
    omega
  · intro y
    unfold Nack.Covers
    rw [if_pos he3]
    dsimp only
    omega

/-- Two neighbouring SNs become a range. -/
theorem Nack.Ok.pair {t : Nack} (ht : t.Ok rx) (he3 : t.e3 = false) (he2 : t.e2 = false)
    (hsn : sn = t.nackSn + 1) (hhi : sn < rx.rxNextHighest) (hun : rx.Unrecorded sn) :
    ({ t with e3 := true, nackRange := 2 } : Nack).Ok rx ∧
      (∀ x y, t.Covers x y → ({ t with e3 := true, nackRange := 2 } : Nack).Covers x y) ∧
      ∀ y, ({ t with e3 := true, nackRange := 2 } : Nack).Covers sn y := by
  obtain ⟨-, hnone⟩ := ht.single he3
  refine ⟨⟨ht.low, fun h => absurd h (by simp), fun _ => ⟨he2, ?_, ?_, ?_⟩, ht.segment⟩, ?_, ?_⟩
  · dsimp only
    omega
  · dsimp only
    omega
  · intro x h1 h2
    dsimp only at h1 h2
    rcases Nat.lt_or_ge t.nackSn x with hx | hx
    · obtain rfl : x = sn := by omega
      exact hun
    · obtain rfl : x = t.nackSn := by omega
      exact hnone he2
  · intro x y hc
    unfold Nack.Covers at hc ⊢
    rw [if_neg (by simp [he3])] at hc
    rw [if_pos rfl]
    dsimp only
    omega
  · intro y
    unfold Nack.Covers
    rw [if_pos rfl]
    dsimp only
    omega

/-- **An unrecorded SN** is NACKed whole. -/
theorem addNack_all (so : ℕ) (hok : ∀ n ∈ nacks, n.Ok rx) (hgap : rx.NoWideGap)
    (hbound : rx.rxNextHighest < 4294967296) (hlo : rx.rxNext ≤ sn) (hhi : sn < rx.rxNextHighest)
    (hun : rx.Unrecorded sn) :
    Extends rx nacks (addNack nacks .all sn so) ∧ ∀ y, True → Covered (addNack nacks .all sn so) sn y := by
  have hnew : (newNack .all sn so).Ok rx :=
    ⟨hlo, fun _ => ⟨hhi, fun _ => hun⟩, fun h => absurd h (by simp [newNack]), Nat.le_refl _⟩
  have hcov : ∀ y, True → (newNack .all sn so).Covers sn y :=
    fun y _ => ⟨rfl, fun h => absurd h (by simp [newNack])⟩
  apply addNack_extends hok hnew hcov
  intro t t' ht h
  unfold updateNackTail at h
  rw [if_pos rfl] at h
  split at h
  · rename_i he3
    split at h
    · rename_i hsn
      obtain rfl := Option.some.inj h
      obtain ⟨-, -, hle, -⟩ := ht.range he3
      rw [u32_of_lt (by omega)] at hsn
      obtain ⟨hok', hmono, hcov'⟩ := ht.grow he3 hgap hsn.symm hhi hun
      exact ⟨hok', hmono, fun y _ => hcov' y⟩
    · cases h
  · rename_i he3
    have he3 : t.e3 = false := by simpa using he3
    split at h
    · rename_i he2
      have he2 : t.e2 = false := by simpa using he2
      split at h
      · rename_i hsn
        obtain rfl := Option.some.inj h
        obtain ⟨hlt, -⟩ := ht.single he3
        rw [u32_of_lt (by omega)] at hsn
        obtain ⟨hok', hmono, hcov'⟩ := ht.pair he3 he2 hsn.symm hhi hun
        exact ⟨hok', hmono, fun y _ => hcov' y⟩
      · cases h
    · cases h

/-- **An SO that is not recorded** is NACKed. -/
theorem addNack_segment (so : ℕ) (hok : ∀ n ∈ nacks, n.Ok rx) (hlo : rx.rxNext ≤ sn)
    (hhi : sn < rx.rxNextHighest) :
    Extends rx nacks (addNack nacks .middle sn so) ∧
      ∀ y, y = so → Covered (addNack nacks .middle sn so) sn y := by
  refine addNack_extends (K := fun y => y = so) hok
    ⟨hlo, fun _ => ⟨hhi, fun h => absurd h (by simp [newNack])⟩, fun h => absurd h (by simp [newNack]), Nat.le_refl _⟩
    (fun y hy => ?_) fun t t' ht h => ?_
  · subst hy
    exact ⟨rfl, fun _ => ⟨Nat.le_refl _, Nat.le_refl _⟩⟩
  · unfold updateNackTail at h
    rw [if_neg (by simp)] at h
    split at h
    · rename_i hc
      obtain ⟨hsn, he2⟩ := hc
      have he3 : t.e3 = false := by
        cases he : t.e3 with
        | false => rfl
        | true =>
          rw [(ht.range he).1] at he2
          exact absurd he2 (by simp)
      have hne3 : ¬ t.e3 = true := by simp [he3]
      split at h
      · rename_i hso
        obtain rfl := Option.some.inj h
        refine ⟨⟨ht.low, fun _ => ⟨(ht.single he3).1, fun h => (ht.single he3).2 h⟩,
          fun h => absurd h hne3, ?_⟩, ?_, ?_⟩
        · have := ht.segment
          dsimp only
          omega
        · intro x y hc
          unfold Nack.Covers at hc ⊢
          rw [if_neg hne3] at hc ⊢
          refine ⟨hc.1, ?_⟩
          intro h
          have := hc.2 h
          dsimp only
          omega
        · intro y hy
          unfold Nack.Covers
          rw [if_neg hne3]
          refine ⟨hsn, ?_⟩
          intro _
          have := ht.segment
          dsimp only
          omega
      · exact absurd h (by simp)
    · exact absurd h (by simp)

end addNack

/-! ## The last recorded segment -/

namespace AmRx

theorem findLastStatusInfo_none {sn : ℕ} {l : List RecvdInfo} {ret : Option RecvdInfo}
    (h : findLastStatusInfo sn l ret = none) : ret = none ∧ ∀ r ∈ l, r.sn ≠ sn := by
  induction l generalizing ret with
  | nil => exact ⟨h, fun r hr => absurd hr List.not_mem_nil⟩
  | cons s ss ih =>
    unfold findLastStatusInfo at h
    split at h
    · split at h
      · exact absurd h (by simp)
      · split at h
        · exact absurd (ih h).1 (by simp)
        · have := (ih h).1
          split at this <;> exact absurd this (by simp)
    · rename_i hsn
      obtain ⟨hret, hl⟩ := ih h
      refine ⟨hret, ?_⟩
      intro r hr
      rcases List.mem_cons.1 hr with rfl | hr
      · exact hsn
      · exact hl r hr

/-- The result is of the SN, and either ends its SDU, or is the highest and nothing recorded
ends the SDU. -/
theorem findLastStatusInfo_some {sn : ℕ} {l : List RecvdInfo} {ret : Option RecvdInfo} {r : RecvdInfo}
    (hret : ∀ q ∈ ret, q.sn = sn) (h : findLastStatusInfo sn l ret = some r) :
    (r ∈ l ∨ r ∈ ret) ∧ r.sn = sn ∧ (r.si.endsSdu = true ∨
      (∀ q ∈ l, q.sn = sn → q.si.endsSdu = false ∧ q.so ≤ r.so) ∧ ∀ q ∈ ret, q.so ≤ r.so) := by
  induction l generalizing ret with
  | nil =>
    have h : ret = some r := h
    refine ⟨Or.inr h, hret r h, Or.inr ⟨fun q hq => absurd hq List.not_mem_nil, ?_⟩⟩
    intro q hq
    rw [h] at hq
    rw [Option.some.inj hq]
  | cons s ss ih =>
    -- what the rest of the list gives for a new candidate `c`
    have hrest : ∀ c : RecvdInfo, s.sn = sn → s.si.endsSdu = false → c.sn = sn → c = s ∨ c ∈ ret →
        s.so ≤ c.so → (∀ q ∈ ret, q.so ≤ c.so) → findLastStatusInfo sn ss (some c) = some r →
        (r ∈ s :: ss ∨ r ∈ ret) ∧ r.sn = sn ∧ (r.si.endsSdu = true ∨
          (∀ q ∈ s :: ss, q.sn = sn → q.si.endsSdu = false ∧ q.so ≤ r.so) ∧ ∀ q ∈ ret, q.so ≤ r.so) := by
      intro c hs hends hc hfrom hle hmax h
      have hcand : ∀ q ∈ some c, q.sn = sn := fun q hq => Option.some.inj hq ▸ hc
      obtain ⟨hmem, hsn, hlast⟩ := ih hcand h
      refine ⟨?_, hsn, ?_⟩
      · rcases hmem with hmem | hmem
        · exact Or.inl (List.mem_cons_of_mem _ hmem)
        · obtain rfl := Option.some.inj hmem
          rcases hfrom with rfl | hfrom
          · exact Or.inl (List.mem_cons_self ..)
          · exact Or.inr hfrom
      · rcases hlast with hlast | ⟨hl, hr⟩
        · exact Or.inl hlast
        · have hcr := hr c rfl
          refine Or.inr ⟨fun q hq hqs => ?_, fun q hq => Nat.le_trans (hmax q hq) hcr⟩
          rcases List.mem_cons.1 hq with rfl | hq
          · exact ⟨hends, Nat.le_trans hle hcr⟩
          · exact hl q hq hqs
    unfold findLastStatusInfo at h
    split at h
    · rename_i hs
      split at h
      · rename_i hends
        obtain rfl := Option.some.inj h
        exact ⟨Or.inl (List.mem_cons_self ..), hs, Or.inl hends⟩
      · rename_i hends
        have hends : s.si.endsSdu = false := by simpa using hends
        cases ret with
        | none => exact hrest s hs hends hs (Or.inl rfl) (Nat.le_refl _) (fun q hq => absurd hq (by simp)) h
        | some q =>
          have hq := hret q rfl
          dsimp only at h
          split at h
          · rename_i hlt
            exact hrest s hs hends hs (Or.inl rfl) (Nat.le_refl _)
              (fun t ht => Option.some.inj ht ▸ Nat.le_of_lt hlt) h
          · rename_i hge
            exact hrest q hs hends hq (Or.inr rfl) (by omega)
              (fun t ht => Option.some.inj ht ▸ Nat.le_refl _) h
    · rename_i hs
      obtain ⟨hmem, hsn, hlast⟩ := ih hret h
      refine ⟨?_, hsn, ?_⟩
      · rcases hmem with hmem | hmem
        · exact Or.inl (List.mem_cons_of_mem _ hmem)
        · exact Or.inr hmem
      · rcases hlast with hlast | ⟨hl, hr⟩
        · exact Or.inl hlast
        · refine Or.inr ⟨fun q hq hqs => ?_, hr⟩
          rcases List.mem_cons.1 hq with rfl | hq
          · exact absurd hqs hs
          · exact hl q hq hqs

/-! ## The loops -/

variable {rx : AmRx} {nacks nacks' : List Nack} {sn : ℕ}

/-- The loop over the SOs of one SN. -/
theorem foldl_addNack (hlo : rx.rxNext ≤ sn) (hhi : sn < rx.rxNextHighest) (l : List ℕ)
    (hok : ∀ n ∈ nacks, n.Ok rx) :
    Extends rx nacks (l.foldl (fun nacks so =>
      if (rx.findStatus sn so).isNone then addNack nacks .middle sn so else nacks) nacks) ∧
    ∀ so ∈ l, (rx.findStatus sn so).isNone = true → Covered (l.foldl (fun nacks so =>
      if (rx.findStatus sn so).isNone then addNack nacks .middle sn so else nacks) nacks) sn so := by
  induction l generalizing nacks with
  | nil => exact ⟨.refl hok, fun so hso => absurd hso List.not_mem_nil⟩
  | cons x xs ih =>
    rw [List.foldl_cons]
    split
    · rename_i hx
      obtain ⟨hadd, hcov⟩ := addNack_segment x hok hlo hhi
      obtain ⟨hext, hrest⟩ := ih hadd.ok
      refine ⟨hadd.trans hext, ?_⟩
      intro so hso hnone
      rcases List.mem_cons.1 hso with rfl | hso
      · exact hext.mono _ _ (hcov so rfl)
      · exact hrest so hso hnone
    · rename_i hx
      obtain ⟨hext, hrest⟩ := ih hok
      refine ⟨hext, ?_⟩
      intro so hso hnone
      rcases List.mem_cons.1 hso with rfl | hso
      · exact absurd hnone hx
      · exact hrest so hso hnone

/-- **One SN.** -/
theorem updateStatusSn_extends (hok : ∀ n ∈ nacks, n.Ok rx) (hgap : rx.NoWideGap)
    (hbound : rx.rxNextHighest < 4294967296) (hlo : rx.rxNext ≤ sn) (hhi : sn < rx.rxNextHighest)
    (h : rx.updateStatusSn nacks sn = some nacks') :
    Extends rx nacks nacks' ∧ ∀ so, rx.Missing sn so → Covered nacks' sn so := by
  unfold updateStatusSn at h
  unfold Missing
  cases hl : findLastStatusInfo sn rx.recvdInfo none with
  | none =>
    rw [hl] at h
    obtain rfl := Option.some.inj h
    obtain ⟨hext, hcov⟩ := addNack_all 0 hok hgap hbound hlo hhi (findLastStatusInfo_none hl).2
    exact ⟨hext, fun so _ => hcov so trivial⟩
  | some s =>
    rw [hl] at h
    dsimp only at h ⊢
    split at h
    · rename_i hall
      obtain rfl := Option.some.inj h
      exact ⟨.refl hok, fun so hm => absurd hall hm.1⟩
    · split at h
      · exact absurd h (by simp)
      · obtain rfl := Option.some.inj h
        obtain ⟨hext, hcov⟩ := foldl_addNack hlo hhi (List.range (s.so + 1)) hok
        exact ⟨hext, fun so hm => hcov so (List.mem_range.2 (Nat.lt_succ_of_le hm.2.1)) hm.2.2⟩

/-- The loop over the SNs. -/
theorem foldlM_updateStatusSn (hgap : rx.NoWideGap) (hbound : rx.rxNextHighest < 4294967296) (l : List ℕ)
    (hl : ∀ sn ∈ l, rx.rxNext ≤ sn ∧ sn < rx.rxNextHighest) (hok : ∀ n ∈ nacks, n.Ok rx)
    (h : l.foldlM rx.updateStatusSn nacks = some nacks') :
    Extends rx nacks nacks' ∧ ∀ sn ∈ l, ∀ so, rx.Missing sn so → Covered nacks' sn so := by
  induction l generalizing nacks with
  | nil =>
    obtain rfl := Option.some.inj h
    exact ⟨.refl hok, fun sn hsn => absurd hsn List.not_mem_nil⟩
  | cons x xs ih =>
    rw [List.foldlM_cons] at h
    obtain ⟨nacks₁, h₁, h⟩ := Option.bind_eq_some_iff.1 h
    obtain ⟨hlo, hhi⟩ := hl x (List.mem_cons_self ..)
    obtain ⟨hext₁, hcov₁⟩ := updateStatusSn_extends hok hgap hbound hlo hhi h₁
    obtain ⟨hext, hcov⟩ := ih (fun sn hsn => hl sn (List.mem_cons_of_mem _ hsn)) hext₁.ok h
    refine ⟨hext₁.trans hext, ?_⟩
    intro sn hsn so hm
    rcases List.mem_cons.1 hsn with rfl | hsn
    · exact hext.mono _ _ (hcov₁ so hm)
    · exact hcov sn hsn so hm

/-- **Every missing segment is covered.** -/
theorem covered_of_updateStatus (hgap : rx.NoWideGap) (hbound : rx.rxNextHighest < 4294967296)
    (h : rx.updateStatus = some nacks) : (∀ n ∈ nacks.reverse, n.Ok rx) ∧
      ∀ sn so, rx.rxNext ≤ sn → sn < rx.rxNextHighest → rx.Missing sn so → Covered nacks.reverse sn so := by
  have hrange : ∀ sn, sn ∈ List.range' rx.rxNext (rx.rxNextHighest - rx.rxNext) ↔
      rx.rxNext ≤ sn ∧ sn < rx.rxNextHighest := by
    intro sn
    rw [List.mem_range'_1]
    omega
  obtain ⟨hext, hcov⟩ := foldlM_updateStatusSn hgap hbound _ (fun sn hsn => (hrange sn).1 hsn)
    (fun n hn => absurd hn List.not_mem_nil) h
  refine ⟨fun n hn => hext.ok n (List.mem_reverse.1 hn), ?_⟩
  intro sn so hlo hhi hm
  obtain ⟨n, hn, hc⟩ := hcov sn ((hrange sn).2 ⟨hlo, hhi⟩) so hm
  exact ⟨n, List.mem_reverse.2 hn, hc⟩

end AmRx

end NetSim.Rlc
