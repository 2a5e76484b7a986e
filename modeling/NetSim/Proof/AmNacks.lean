import NetSim.Lib.Runs
import NetSim.Proof.AmSegments

/-!
# What the NACKs of a STATUS PDU make of the missing PDUs

The receiver writes runs of missing SNs as ranges with a length of 8 bits, and the sender reads a range up to and with
the SN behind it. So of a run of missing SNs, cut into chunks of 256, a full chunk comes out as its first SN, and a
short one of at least two SNs takes in the SN behind it. Missing segments come out as they are.

* `nackFindAll_taken`: what the sender takes out of the transmitted buffer.
* `Encodes.step`, `Encodes.run`: what the receiver writes.
* `nacks_agree_iff`: when the two agree.
-/

namespace NetSim.Rlc

open Word RunLength

/-! ## Reading -/

/-- The segments that `LTENR_RLCAM_UpdateBufferBasedOnNACK0`, `..1` and `..2` look for. -/
def Nack.Expands (n : Nack) (sn so : ℕ) : Prop :=
  if n.e3 then n.nackSn ≤ sn ∧ sn ≤ u32 (n.nackSn + n.nackRange)
  else n.nackSn = sn ∧ (n.e2 = true → n.soStart ≤ so ∧ so ≤ n.soEnd)

/-- Some NACK of the list makes the sender look for the segment. -/
def Expanded (nacks : List Nack) (sn so : ℕ) : Prop := ∃ n ∈ nacks, n.Expands sn so

/-- The loop over a NACK ends. -/
def Nack.Ends (n : Nack) : Prop :=
  if n.e3 then u32 (n.nackSn + n.nackRange) ≠ 4294967295 else n.e2 = true → n.soEnd ≠ 65535

theorem expanded_cons {n : Nack} {nacks : List Nack} {sn so : ℕ} :
    Expanded (n :: nacks) sn so ↔ n.Expands sn so ∨ Expanded nacks sn so := by
  unfold Expanded
  rw [List.exists_mem_cons_iff]

theorem expanded_reverse {nacks : List Nack} {sn so : ℕ} : Expanded nacks.reverse sn so ↔ Expanded nacks sn so := by
  unfold Expanded
  simp only [List.mem_reverse]

namespace AmTx

variable {l : List BufferData} {sn so sn' so' : ℕ}

theorem keys_append (l l' : List BufferData) : keys (l ++ l') = keys l ++ keys l' := List.map_append

theorem keys_findAndRemoveAllBySN :
    (sn', so') ∈ keys (findAndRemoveAllBySN l sn).1 ↔ (sn', so') ∈ keys l ∧ sn' = sn := by
  unfold findAndRemoveAllBySN
  rw [List.partition_eq_filter_filter, mem_keys, mem_keys]
  constructor
  · rintro ⟨b, hb, rfl, rfl⟩
    obtain ⟨hbl, hsn⟩ := List.mem_filter.1 hb
    exact ⟨⟨b, hbl, rfl, rfl⟩, of_decide_eq_true hsn⟩
  · rintro ⟨⟨b, hb, rfl, rfl⟩, hsn⟩
    exact ⟨b, List.mem_filter.2 ⟨hb, decide_eq_true hsn⟩, rfl, rfl⟩

theorem keys_findAndRemoveBySNSO :
    (sn', so') ∈ keys (findAndRemoveBySNSO l sn so).1 ↔ (sn', so') ∈ keys l ∧ sn' = sn ∧ so' = so := by
  unfold findAndRemoveBySNSO
  rw [mem_keys, mem_keys]
  dsimp only
  cases hf : l.find? fun b => decide (b.sn = sn ∧ b.so = so) with
  | none =>
    rw [List.find?_eq_none] at hf
    constructor
    · rintro ⟨b, hb, -⟩
      exact absurd hb List.not_mem_nil
    · rintro ⟨⟨b, hb, rfl, rfl⟩, hkey⟩
      exact absurd (decide_eq_true hkey) (hf b hb)
  | some b =>
    have hdec := List.find?_some hf
    have hb : b.sn = sn ∧ b.so = so := of_decide_eq_true hdec
    have hbl := List.mem_of_find?_eq_some hf
    constructor
    · rintro ⟨c, hc, rfl, rfl⟩
      rw [List.mem_singleton.1 hc]
      exact ⟨⟨b, hbl, rfl, rfl⟩, hb⟩
    · rintro ⟨-, rfl, rfl⟩
      exact ⟨b, List.mem_singleton_self b, hb⟩

/-- A loop of removals takes out what any one of them looks for. -/
theorem keys_findAndRemoveAll {find : List BufferData → ℕ → List BufferData × List BufferData} {c : ℕ → ℕ → ℕ → Prop}
    (hperm : ∀ l k, ((find l k).1 ++ (find l k).2).Perm l)
    (hfind : ∀ l k sn so, (sn, so) ∈ keys (find l k).1 ↔ (sn, so) ∈ keys l ∧ c k sn so) (ks : List ℕ)
    (l : List BufferData) :
    (sn, so) ∈ keys (findAndRemoveAll find ks l).1 ↔ (sn, so) ∈ keys l ∧ ∃ k ∈ ks, c k sn so := by
  induction ks generalizing l with
  | nil => exact ⟨fun h => absurd h List.not_mem_nil, fun h => absurd h.2 (by simp)⟩
  | cons k ks ih =>
    have hparts : (sn, so) ∈ keys l ↔ (sn, so) ∈ keys (find l k).1 ∨ (sn, so) ∈ keys (find l k).2 := by
      rw [← List.mem_append, ← keys_append]
      exact ((hperm l k).map _).mem_iff.symm
    unfold findAndRemoveAll
    dsimp only
    rw [keys_append, List.mem_append, ih (find l k).2, List.exists_mem_cons_iff]
    constructor
    · rintro (h | ⟨h, hk⟩)
      · obtain ⟨hl, hc⟩ := (hfind l k sn so).1 h
        exact ⟨hl, .inl hc⟩
      · exact ⟨hparts.2 (.inr h), .inr hk⟩
    · rintro ⟨hl, hc | hk⟩
      · exact .inl ((hfind l k sn so).2 ⟨hl, hc⟩)
      · rcases hparts.1 hl with h | h
        · exact .inl h
        · exact .inr ⟨h, hk⟩

/-- **One NACK** takes out what it stands for. -/
theorem nackFind_taken {n : Nack} (l : List BufferData) (hends : n.Ends) :
    ∃ r, nackFind n l = some r ∧ ∀ sn so, (sn, so) ∈ keys r.1 ↔ (sn, so) ∈ keys l ∧ n.Expands sn so := by
  unfold nackFind Nack.Expands
  unfold Nack.Ends at hends
  dsimp only
  by_cases he3 : n.e3 = true
  · rw [if_pos he3] at hends
    rw [if_pos he3, if_neg hends]
    refine ⟨_, rfl, ?_⟩
    intro sn so
    rw [if_pos he3, keys_findAndRemoveAll findAndRemoveAllBySN_perm fun _ _ _ _ => keys_findAndRemoveAllBySN]
    simp only [List.mem_range'_1, exists_eq_right']
    apply and_congr_right
    intro _
    omega
  · rw [if_neg he3] at hends
    rw [if_neg he3]
    by_cases he2 : n.e2 = true
    · rw [if_pos he2, if_neg (hends he2)]
      refine ⟨_, rfl, ?_⟩
      intro sn so
      rw [if_neg he3, keys_findAndRemoveAll (fun l so => findAndRemoveBySNSO_perm l n.nackSn so)
        fun _ _ _ _ => keys_findAndRemoveBySNSO]
      apply and_congr_right
      intro _
      constructor
      · rintro ⟨k, hk, rfl, rfl⟩
        rw [List.mem_range'_1] at hk
        exact ⟨rfl, fun _ => by omega⟩
      · rintro ⟨hsn, hso⟩
        have hso := hso he2
        exact ⟨so, by rw [List.mem_range'_1]; omega, hsn.symm, rfl⟩
    · rw [if_neg he2]
      refine ⟨_, rfl, ?_⟩
      intro sn so
      rw [if_neg he3, keys_findAndRemoveAllBySN]
      apply and_congr_right
      intro _
      exact ⟨fun h => ⟨h.symm, fun h2 => absurd h2 he2⟩, fun h => h.1.symm⟩

theorem nackFind_none {n : Nack} (l : List BufferData) (hends : ¬ n.Ends) : nackFind n l = none := by
  unfold Nack.Ends at hends
  unfold nackFind
  dsimp only
  by_cases he3 : n.e3 = true
  · rw [if_pos he3] at hends
    rw [if_pos he3, if_pos (not_not.1 hends)]
  · rw [if_neg he3, Classical.not_imp, not_not] at hends
    rw [if_neg he3, if_pos hends.1, if_pos hends.2]

/-- **The NACKs** take out what they stand for. -/
theorem nackFindAll_taken (ns : List Nack) (l : List BufferData) (hends : ∀ n ∈ ns, n.Ends) :
    ∃ r, nackFindAll ns l = some r ∧ ∀ sn so, (sn, so) ∈ keys r.1 ↔ (sn, so) ∈ keys l ∧ Expanded ns sn so := by
  induction ns generalizing l with
  | nil => exact ⟨_, rfl, fun sn so => ⟨fun h => absurd h List.not_mem_nil, fun ⟨_, n, hn, _⟩ => absurd hn List.not_mem_nil⟩⟩
  | cons n ns ih =>
    obtain ⟨⟨hit, rest⟩, hr, hkeys⟩ := nackFind_taken l (hends n List.mem_cons_self)
    obtain ⟨⟨hit', rest'⟩, hs, hkeys'⟩ := ih rest fun m hm => hends m (List.mem_cons_of_mem _ hm)
    refine ⟨(hit ++ hit', rest'), ?_, ?_⟩
    · unfold nackFindAll
      rw [hr, Option.bind_eq_bind, Option.bind_some, hs]
      rfl
    · intro sn so
      have hparts : (sn, so) ∈ keys l ↔ (sn, so) ∈ keys hit ∨ (sn, so) ∈ keys rest := by
        rw [← List.mem_append, ← keys_append]
        exact ((nackFind_perm hr).map _).mem_iff.symm
      dsimp only at hkeys hkeys' ⊢
      rw [keys_append, List.mem_append, expanded_cons]
      constructor
      · rintro (h | h)
        · obtain ⟨hl, hn⟩ := (hkeys sn so).1 h
          exact ⟨hl, .inl hn⟩
        · obtain ⟨hrest, hn⟩ := (hkeys' sn so).1 h
          exact ⟨hparts.2 (.inr hrest), .inr hn⟩
      · rintro ⟨hl, hn | hn⟩
        · exact .inl ((hkeys sn so).2 ⟨hl, hn⟩)
        · rcases hparts.1 hl with h | h
          · exact .inl h
          · exact .inr ((hkeys' sn so).2 ⟨h, hn⟩)

theorem nackFindAll_none {ns : List Nack} {n : Nack} (l : List BufferData) (hn : n ∈ ns) (hends : ¬ n.Ends) :
    nackFindAll ns l = none := by
  induction ns generalizing l with
  | nil => exact absurd hn List.not_mem_nil
  | cons m ns ih =>
    unfold nackFindAll
    rcases List.mem_cons.1 hn with rfl | hn
    · rw [nackFind_none l hends]
      rfl
    · cases nackFind m l with
      | none => rfl
      | some r =>
        rw [Option.bind_eq_bind, Option.bind_some, ih r.2 hn]
        rfl

end AmTx

/-! ## Writing -/

namespace AmRx

variable {rx : AmRx} {nacks nacks' front : List Nack} {start m cur sn so : ℕ}

/-- An SN of which nothing has been received. -/
def isWhollyMissing (rx : AmRx) (sn : ℕ) : Bool :=
  rx.rxNext ≤ sn && sn < rx.rxNextHighest && (findLastStatusInfo sn rx.recvdInfo none).isNone

/-- The segments that the receiver marks as missing. -/
def MarkedMissing (rx : AmRx) (sn so : ℕ) : Prop := rx.rxNext ≤ sn ∧ sn < rx.rxNextHighest ∧ rx.Missing sn so

/-- A missing SN in a full chunk of a run, other than the first of the chunk. -/
def Lost (rx : AmRx) (sn : ℕ) : Prop :=
  rx.isWhollyMissing sn = true ∧ runBefore rx.isWhollyMissing sn % 256 ≠ 0 ∧ InFullChunk rx.isWhollyMissing 256 sn

/-- An SN behind a run of missing SNs whose last chunk is a short one of at least two. -/
def Overtaken (rx : AmRx) (sn : ℕ) : Prop :=
  rx.isWhollyMissing sn = false ∧ 2 ≤ runBefore rx.isWhollyMissing sn % 256

/-- What the sender makes of the missing segments. -/
def Decoded (rx : AmRx) (sn so : ℕ) : Prop := rx.MarkedMissing sn so ∧ ¬ rx.Lost sn ∨ rx.Overtaken sn

theorem isWhollyMissing_iff : rx.isWhollyMissing sn = true ↔
    rx.rxNext ≤ sn ∧ sn < rx.rxNextHighest ∧ findLastStatusInfo sn rx.recvdInfo none = none := by
  unfold isWhollyMissing
  rw [Bool.and_eq_true, Bool.and_eq_true, decide_eq_true_eq, decide_eq_true_eq, Option.isNone_iff_eq_none, and_assoc]

/-- A missing SN is marked with all its segments. -/
theorem markedMissing_of_whole (h : rx.isWhollyMissing sn = true) (so : ℕ) : rx.MarkedMissing sn so := by
  obtain ⟨hlo, hhi, hnone⟩ := isWhollyMissing_iff.1 h
  refine ⟨hlo, hhi, ?_⟩
  unfold Missing
  rw [hnone]
  trivial

theorem decoded_of_whole (h : rx.isWhollyMissing sn = true) : rx.Decoded sn so ↔ ¬ rx.Lost sn := by
  constructor
  · rintro (⟨-, hlost⟩ | ⟨hfalse, -⟩)
    · exact hlost
    · rw [h] at hfalse
      cases hfalse
  · intro hlost
    exact .inl ⟨markedMissing_of_whole h so, hlost⟩

theorem decoded_of_not_whole (h : rx.isWhollyMissing sn = false) :
    rx.Decoded sn so ↔ rx.MarkedMissing sn so ∨ rx.Overtaken sn := by
  have hlost : ¬ rx.Lost sn := fun hl => absurd (h.symm.trans hl.1) (by simp)
  unfold Decoded
  rw [and_iff_left hlost]

/-- The NACK of a chunk of `m` missing SNs. -/
def chunkNack (start m : ℕ) : Nack :=
  if m = 1 then ⟨start, false, false, 0, 0, 0⟩ else ⟨start, false, true, 0, 0, u8 m⟩

/-- The NACK of the chunk that is being written, if there is one. -/
def chunk (start m : ℕ) : List Nack := if m = 0 then [] else [chunkNack start m]

/-- A NACK that no SN from `c` on lengthens. -/
structure Closed (c : ℕ) (n : Nack) : Prop where
  single : n.e3 = false → n.e2 = false → n.nackSn + 1 < c
  range : n.e3 = true → n.e2 = false ∧ n.nackSn + n.nackRange < c
  segment : n.e2 = true → n.soStart ≤ n.soEnd ∧ n.soEnd < 65535

theorem Closed.mono {n : Nack} {c : ℕ} (h : Closed c n) (hle : c ≤ cur) : Closed cur n :=
  ⟨fun h3 h2 => lt_of_lt_of_le (h.single h3 h2) hle,
    fun h3 => ⟨(h.range h3).1, lt_of_lt_of_le (h.range h3).2 hle⟩, h.segment⟩

/-- The NACKs are those of the SNs below `c`. -/
structure Encoded (rx : AmRx) (c : ℕ) (nacks : List Nack) : Prop where
  closed : ∀ n ∈ nacks, Closed c n
  expanded : ∀ sn so, Expanded nacks sn so ↔ sn < c ∧ rx.Decoded sn so

/-- **The NACKs are those of the SNs below `cur`**, the last chunk of which may go on. -/
def Encodes (rx : AmRx) (cur : ℕ) (nacks : List Nack) : Prop :=
  ∃ start m front, cur = start + m ∧ m < 256 ∧ runBefore rx.isWhollyMissing start % 256 = 0 ∧
    (∀ k < m, rx.isWhollyMissing (start + k) = true) ∧ Encoded rx start front ∧ nacks = chunk start m ++ front

/-! ### A missing SN -/

/-- A new chunk. -/
theorem addNack_all_closed (hclosed : ∀ n ∈ nacks, Closed cur n) (hlt : cur < 4294967296) :
    addNack nacks .all cur 0 = chunkNack cur 1 :: nacks := by
  unfold addNack
  cases nacks with
  | nil => rfl
  | cons t front =>
    have ht := hclosed t List.mem_cons_self
    have hnone : updateNackTail t .all cur 0 = none := by
      unfold updateNackTail
      rw [if_pos rfl]
      by_cases he3 : t.e3 = true
      · have hrange := (ht.range he3).2
        rw [if_pos he3, u32_of_lt (by omega), if_neg (by omega)]
      · rw [if_neg he3]
        by_cases he2 : t.e2 = true
        · rw [if_neg (not_not.2 he2)]
        · have hsingle := ht.single (Bool.eq_false_iff.2 he3) (Bool.eq_false_iff.2 he2)
          rw [if_pos he2, u32_of_lt (by omega), if_neg (by omega)]
    dsimp only
    rw [hnone]
    rfl

/-- A chunk goes on. -/
theorem addNack_all_chunk (front : List Nack) (hpos : 0 < m) (hm : m < 256) (hlt : start + m < 4294967296) :
    addNack (chunk start m ++ front) .all (start + m) 0 = chunkNack start (m + 1) :: front := by
  have hchunk : chunk start m = [chunkNack start m] := if_neg (by omega)
  have hnext : chunkNack start (m + 1) = ⟨start, false, true, 0, 0, u8 (m + 1)⟩ := if_neg (by omega)
  rw [hchunk, hnext]
  have hsome : updateNackTail (chunkNack start m) .all (start + m) 0 = some ⟨start, false, true, 0, 0, u8 (m + 1)⟩ := by
    unfold updateNackTail chunkNack
    rw [if_pos rfl]
    by_cases hone : m = 1
    · subst hone
      rw [if_pos rfl, if_neg (by simp), if_pos (by simp), u32_of_lt hlt, if_pos rfl]
      rfl
    · rw [if_neg hone, if_pos rfl]
      dsimp only
      rw [u8_of_lt hm, u32_of_lt hlt, if_pos rfl]
  rw [List.singleton_append]
  unfold addNack
  dsimp only
  rw [hsome]

/-- A full chunk comes out as its first SN. -/
theorem Encoded.full (h : Encoded rx start front) (hplace : runBefore rx.isWhollyMissing start % 256 = 0)
    (hrun : ∀ k < 256, rx.isWhollyMissing (start + k) = true) (hlt : start + 256 < 4294967296) :
    Encoded rx (start + 256) (chunkNack start 256 :: front) := by
  have hnack : chunkNack start 256 = ⟨start, false, true, 0, 0, 0⟩ := rfl
  refine ⟨?_, ?_⟩
  · intro n hn
    rcases List.mem_cons.1 hn with rfl | hn
    · rw [hnack]
      refine ⟨fun h3 => ?_, fun _ => ⟨rfl, ?_⟩, fun h2 => ?_⟩
      · cases h3
      · dsimp only
        omega
      · cases h2
    · exact (h.closed n hn).mono (by omega)
  · intro sn so
    have hexp : (chunkNack start 256).Expands sn so ↔ sn = start := by
      rw [hnack]
      unfold Nack.Expands
      rw [if_pos rfl]
      dsimp only
      rw [Nat.add_zero, u32_of_lt (by omega)]
      exact ⟨fun hsn => Nat.le_antisymm hsn.2 hsn.1, fun hsn => ⟨hsn.ge, hsn.le⟩⟩
    rw [expanded_cons, hexp, h.expanded]
    rcases Nat.lt_or_ge sn start with hlow | hhigh
    · constructor
      · rintro (rfl | ⟨-, hd⟩)
        · exact absurd hlow (lt_irrefl _)
        · exact ⟨by omega, hd⟩
      · rintro ⟨-, hd⟩
        exact .inr ⟨hlow, hd⟩
    · obtain ⟨i, rfl⟩ := Nat.exists_eq_add_of_le hhigh
      constructor
      · rintro (hi | ⟨hbad, -⟩)
        · obtain rfl : i = 0 := by omega
          have hwhole := hrun 0 (by omega)
          refine ⟨by omega, (decoded_of_whole hwhole).2 fun hlost => hlost.2.1 ?_⟩
          exact hplace
        · omega
      · rintro ⟨hi, hd⟩
        have hwhole := hrun i (by omega)
        left
        by_contra hne
        refine (decoded_of_whole hwhole).1 hd ⟨hwhole, ?_, .of_chunk hplace hrun (by omega)⟩
        rw [runBefore_add_mod hplace hrun (by omega) (by omega)]
        omega

/-- **A missing SN** starts a chunk or goes on with one. -/
theorem Encodes.whole (h : Encodes rx cur nacks) (hcur : rx.isWhollyMissing cur = true)
    (hlt : cur + 1 < 4294967296) : Encodes rx (cur + 1) (addNack nacks .all cur 0) := by
  obtain ⟨start, m, front, rfl, hm, hplace, hrun, hfront, rfl⟩ := h
  have hrun' : ∀ k < m + 1, rx.isWhollyMissing (start + k) = true := by
    intro k hk
    rcases Nat.lt_succ_iff_lt_or_eq.1 hk with hk | rfl
    · exact hrun k hk
    · exact hcur
  have hadd : addNack (chunk start m ++ front) .all (start + m) 0 = chunkNack start (m + 1) :: front := by
    rcases Nat.eq_zero_or_pos m with rfl | hpos
    · exact addNack_all_closed hfront.closed (by omega)
    · exact addNack_all_chunk front hpos hm (by omega)
  rw [hadd]
  by_cases hfull : m + 1 = 256
  · -- the chunk is full, and the next one is not begun
    obtain rfl : m = 255 := by omega
    refine ⟨start + 256, 0, _, rfl, by omega, ?_, fun k hk => absurd hk (Nat.not_lt_zero k),
      hfront.full hplace hrun' (by omega), rfl⟩
    rw [runBefore_add hrun']
    omega
  · exact ⟨start, m + 1, front, rfl, by omega, hplace, hrun', hfront, rfl⟩

/-! ### An SN that ends a run -/

/-- At the end of a run the SN behind it may have been taken in. -/
theorem Encodes.close (h : Encodes rx cur nacks) (hcur : rx.isWhollyMissing cur = false) (hlt : cur < 4294967296) :
    (∀ n ∈ nacks, Closed (cur + 1) n) ∧
      ∀ sn so, Expanded nacks sn so ↔ sn < cur ∧ rx.Decoded sn so ∨ sn = cur ∧ rx.Overtaken cur := by
  obtain ⟨start, m, front, rfl, hm, hplace, hrun, hfront, rfl⟩ := h
  have hover : rx.Overtaken (start + m) ↔ 2 ≤ m := by
    unfold Overtaken
    rw [runBefore_add_mod hplace hrun le_rfl hm]
    exact and_iff_right hcur
  -- the SNs of a short chunk are not lost
  have hchunk : ∀ i < m, ∀ so, rx.Decoded (start + i) so := fun i hi so =>
    (decoded_of_whole (hrun i hi)).2 fun hlost => not_inFullChunk_of_chunk hplace hrun hm hcur hi.le hlost.2.2
  rcases Nat.eq_zero_or_pos m with rfl | hpos
  · refine ⟨fun n hn => (hfront.closed n hn).mono (by omega), ?_⟩
    intro sn so
    show Expanded front sn so ↔ _
    rw [hfront.expanded, hover]
    grind
  · have hcons : chunk start m ++ front = chunkNack start m :: front := by
      unfold chunk
      rw [if_neg (by omega)]
      rfl
    have hnack : (chunkNack start m).e2 = false ∧ (chunkNack start m).nackSn = start ∧
        ((chunkNack start m).e3 = true → (chunkNack start m).nackRange = m) := by
      unfold chunkNack
      by_cases hone : m = 1
      · rw [if_pos hone]
        exact ⟨rfl, rfl, fun h3 => by cases h3⟩
      · rw [if_neg hone]
        exact ⟨rfl, rfl, fun _ => u8_of_lt hm⟩
    have hexp : ∀ sn so, (chunkNack start m).Expands sn so ↔ start ≤ sn ∧ (sn < start + m ∨ 2 ≤ m ∧ sn = start + m) := by
      intro sn so
      unfold chunkNack Nack.Expands
      by_cases hone : m = 1
      · subst hone
        rw [if_pos rfl, if_neg (by simp)]
        simp only [Bool.false_eq_true, false_implies, and_true]
        omega
      · rw [if_neg hone, if_pos rfl]
        dsimp only
        rw [u8_of_lt hm, u32_of_lt hlt]
        omega
    rw [hcons]
    refine ⟨?_, ?_⟩
    · intro n hn
      rcases List.mem_cons.1 hn with rfl | hn
      · obtain ⟨he2, hsn, hrange⟩ := hnack
        refine ⟨fun _ _ => by omega, fun he3 => ⟨he2, ?_⟩, fun h2 => absurd (he2.symm.trans h2) (by simp)⟩
        rw [hrange he3]
        omega
      · exact (hfront.closed n hn).mono (by omega)
    · intro sn so
      rw [expanded_cons, hexp, hfront.expanded, hover]
      rcases Nat.lt_or_ge sn start with hlow | hhigh
      · grind
      · obtain ⟨i, rfl⟩ := Nat.exists_eq_add_of_le hhigh
        have hi := fun hi => hchunk i hi so
        grind

/-! ### Missing segments -/

/-- A missing segment is written as it is. -/
theorem addNack_middle {c : ℕ} (sn : ℕ) (hclosed : ∀ n ∈ nacks, Closed c n) (hso : so < 65535) :
    (∀ n ∈ addNack nacks .middle sn so, Closed c n) ∧
      ∀ x y, Expanded (addNack nacks .middle sn so) x y ↔ Expanded nacks x y ∨ x = sn ∧ y = so := by
  have hnew : Closed c (newNack .middle sn so) := by
    refine ⟨fun _ h2 => ?_, fun h3 => ?_, fun _ => ⟨le_rfl, hso⟩⟩
    · cases h2
    · cases h3
  have hexp : ∀ x y, (newNack .middle sn so).Expands x y ↔ x = sn ∧ y = so := by
    intro x y
    constructor
    · rintro ⟨hx, hy⟩
      obtain ⟨h1, h2⟩ := hy rfl
      exact ⟨hx.symm, Nat.le_antisymm h2 h1⟩
    · rintro ⟨rfl, rfl⟩
      exact ⟨rfl, fun _ => ⟨le_rfl, le_rfl⟩⟩
  have hcons : ∀ l : List Nack, (∀ n ∈ l, Closed c n) → (∀ n ∈ newNack .middle sn so :: l, Closed c n) ∧
      ∀ x y, Expanded (newNack .middle sn so :: l) x y ↔ Expanded l x y ∨ x = sn ∧ y = so := by
    intro l hl
    refine ⟨List.forall_mem_cons.2 ⟨hnew, hl⟩, fun x y => ?_⟩
    rw [expanded_cons, hexp, or_comm]
  unfold addNack
  cases nacks with
  | nil => exact hcons [] hclosed
  | cons t front =>
    obtain ⟨ht, hfront⟩ := List.forall_mem_cons.1 hclosed
    dsimp only
    unfold updateNackTail
    rw [if_neg (by simp)]
    by_cases hseg : t.nackSn = sn ∧ t.e2 = true
    · rw [if_pos hseg]
      by_cases hnext : t.soEnd + 1 = so
      · -- the range of SOs goes on
        rw [if_pos hnext]
        obtain ⟨rfl, he2⟩ := hseg
        obtain ⟨hle, hlt⟩ := ht.segment he2
        have he3 : ¬ t.e3 = true := fun he3 => absurd ((ht.range he3).1.symm.trans he2) (by simp)
        refine ⟨List.forall_mem_cons.2 ⟨⟨ht.single, ht.range, fun _ => ⟨?_, hso⟩⟩, hfront⟩, fun x y => ?_⟩
        · dsimp only
          omega
        · rw [expanded_cons, expanded_cons]
          unfold Nack.Expands
          rw [if_neg he3, if_neg he3]
          simp only [he2, forall_const]
          grind
      · rw [if_neg hnext]
        exact hcons _ hclosed
    · rw [if_neg hseg]
      exact hcons _ hclosed

/-- The loop over the SOs of an SN. -/
theorem foldl_addNack_middle {c : ℕ} (rx : AmRx) (sn : ℕ) (l : List ℕ) (hl : ∀ so ∈ l, so < 65535) (hclosed : ∀ n ∈ nacks, Closed c n) :
    (∀ n ∈ l.foldl (fun nacks so =>
      if (rx.findStatus sn so).isNone then addNack nacks .middle sn so else nacks) nacks, Closed c n) ∧
    ∀ x y, Expanded (l.foldl (fun nacks so =>
      if (rx.findStatus sn so).isNone then addNack nacks .middle sn so else nacks) nacks) x y ↔
        Expanded nacks x y ∨ x = sn ∧ y ∈ l ∧ (rx.findStatus sn y).isNone = true := by
  induction l generalizing nacks with
  | nil => exact ⟨hclosed, fun x y => by simp⟩
  | cons so l ih =>
    obtain ⟨hso, hl⟩ := List.forall_mem_cons.1 hl
    rw [List.foldl_cons]
    by_cases hnone : (rx.findStatus sn so).isNone = true
    · rw [if_pos hnone]
      obtain ⟨hclosed', hadd⟩ := addNack_middle sn hclosed hso
      obtain ⟨hc, hexp⟩ := ih hl hclosed'
      refine ⟨hc, fun x y => ?_⟩
      rw [hexp, hadd, List.mem_cons]
      grind
    · rw [if_neg hnone]
      obtain ⟨hc, hexp⟩ := ih hl hclosed
      refine ⟨hc, fun x y => ?_⟩
      rw [hexp, List.mem_cons]
      grind

/-! ### The loop over the SNs -/

/-- The fields of a receiver have the widths of the source. -/
structure Typed (rx : AmRx) : Prop where
  next : rx.rxNext < 4294967296
  highest : rx.rxNextHighest < 4294967296
  so : ∀ s ∈ rx.recvdInfo, s.so < 65536

/-- **One SN.** -/
theorem Encodes.step (h : Encodes rx cur nacks) (hrx : rx.Typed) (hlo : rx.rxNext ≤ cur)
    (hhi : cur < rx.rxNextHighest) (hs : rx.updateStatusSn nacks cur = some nacks') : Encodes rx (cur + 1) nacks' := by
  have hbound := hrx.highest
  unfold updateStatusSn at hs
  cases hlast : findLastStatusInfo cur rx.recvdInfo none with
  | none =>
    rw [hlast] at hs
    obtain rfl := Option.some.inj hs
    have hwhole := isWhollyMissing_iff.2 ⟨hlo, hhi, hlast⟩
    rcases Nat.lt_or_ge (cur + 1) 4294967296 with hlt | hge
    · exact h.whole hwhole hlt
    · omega
  | some s =>
    rw [hlast] at hs
    dsimp only at hs
    have hnot : rx.isWhollyMissing cur = false := by
      rw [Bool.eq_false_iff]
      intro hwhole
      have hnone := (isWhollyMissing_iff.1 hwhole).2.2
      rw [hlast] at hnone
      cases hnone
    have hmarked : ∀ so, rx.MarkedMissing cur so ↔
        s.si ≠ .all ∧ so ≤ s.so ∧ (rx.findStatus cur so).isNone = true := by
      intro so
      unfold MarkedMissing Missing
      rw [hlast]
      exact ⟨fun h => h.2.2, fun h => ⟨hlo, hhi, h⟩⟩
    obtain ⟨hclosed, hexp⟩ := h.close hnot (by omega)
    -- what is written for the segments ends the run
    have hend : ∀ nacks'' : List Nack, (∀ n ∈ nacks'', Closed (cur + 1) n) →
        (∀ x y, Expanded nacks'' x y ↔ Expanded nacks x y ∨ x = cur ∧ rx.MarkedMissing cur y) →
        Encodes rx (cur + 1) nacks'' := by
      intro nacks'' hc hx
      refine ⟨cur + 1, 0, nacks'', rfl, by omega, ?_, fun k hk => absurd hk (Nat.not_lt_zero k), ⟨hc, ?_⟩, rfl⟩
      · rw [runBefore_succ_of_false hnot]
      · intro x y
        have hcur : rx.Decoded cur y ↔ _ := decoded_of_not_whole hnot
        rw [hx, hexp]
        grind
    by_cases hall : s.si = .all
    · rw [if_pos hall] at hs
      obtain rfl := Option.some.inj hs
      refine hend nacks hclosed fun x y => ?_
      rw [hmarked]
      exact ⟨.inl, fun h => h.resolve_right fun hm => hm.2.1 hall⟩
    · rw [if_neg hall] at hs
      by_cases hmax : s.so = 65535
      · rw [if_pos hmax] at hs
        cases hs
      · rw [if_neg hmax] at hs
        obtain rfl := Option.some.inj hs
        have hmem := (findLastStatusInfo_some (fun q hq => by cases hq) hlast).1
        have hso := hrx.so s (hmem.resolve_right fun hq => by cases hq)
        obtain ⟨hc, hx⟩ := foldl_addNack_middle rx cur (List.range (s.so + 1))
          (fun so hmem => by rw [List.mem_range] at hmem; omega) hclosed
        refine hend _ hc fun x y => ?_
        rw [hx, hmarked, List.mem_range, Nat.lt_succ_iff]
        grind

/-- **All SNs.** -/
theorem Encodes.run (hrx : rx.Typed) (k : ℕ) (h : Encodes rx cur nacks) (hlo : rx.rxNext ≤ cur)
    (hhi : cur + k ≤ rx.rxNextHighest) (hs : (List.range' cur k).foldlM rx.updateStatusSn nacks = some nacks') :
    Encodes rx (cur + k) nacks' := by
  induction k generalizing cur nacks with
  | zero =>
    obtain rfl := Option.some.inj hs
    exact h
  | succ k ih =>
    rw [List.range'_succ, List.foldlM_cons] at hs
    obtain ⟨nacks₁, h₁, hs⟩ := Option.bind_eq_some_iff.1 hs
    have hnext := ih (h.step hrx hlo (by omega) h₁) (by omega) (by omega) hs
    rw [Nat.add_right_comm] at hnext
    exact hnext

/-- No run ends at or before `RX_Next`, nor behind `RX_Next_Highest`. -/
theorem runBefore_outside (h : sn ≤ rx.rxNext ∨ rx.rxNextHighest < sn) : runBefore rx.isWhollyMissing sn = 0 := by
  cases sn with
  | zero => rfl
  | succ n =>
    apply runBefore_succ_of_false
    rw [Bool.eq_false_iff]
    intro hwhole
    obtain ⟨hlo, hhi, -⟩ := isWhollyMissing_iff.1 hwhole
    omega

theorem not_overtaken_outside (h : sn ≤ rx.rxNext ∨ rx.rxNextHighest < sn) : ¬ rx.Overtaken sn := by
  rintro ⟨-, hover⟩
  rw [runBefore_outside h] at hover
  omega

/-- **What the receiver writes**, the sender reads as `Decoded`. -/
theorem updateStatus_spec (hrx : rx.Typed) (h : rx.updateStatus = some nacks) :
    (∀ n ∈ nacks, Closed 4294967296 n) ∧ ∀ sn so, Expanded nacks sn so ↔ rx.Decoded sn so := by
  have hhighest := hrx.highest
  have hnext := hrx.next
  have hstart : Encodes rx rx.rxNext [] := by
    refine ⟨rx.rxNext, 0, [], rfl, by omega, ?_, fun k hk => absurd hk (Nat.not_lt_zero k), ⟨?_, ?_⟩, rfl⟩
    · rw [runBefore_outside (.inl le_rfl)]
    · intro n hn
      exact absurd hn List.not_mem_nil
    · intro sn so
      constructor
      · rintro ⟨n, hn, -⟩
        exact absurd hn List.not_mem_nil
      · rintro ⟨hlt, hmarked | hover⟩
        · have hlo := hmarked.1.1
          omega
        · exact absurd hover (not_overtaken_outside (.inl hlt.le))
  -- the loop ends at `RX_Next_Highest`, or does not begin
  obtain ⟨last, hlast, hlt, henc⟩ : ∃ last, rx.rxNextHighest ≤ last ∧ last < 4294967296 ∧ Encodes rx last nacks := by
    unfold updateStatus at h
    rcases Nat.le_total rx.rxNext rx.rxNextHighest with hle | hge
    · refine ⟨rx.rxNextHighest, le_rfl, hhighest, ?_⟩
      have hrun := Encodes.run hrx _ hstart le_rfl (by omega) h
      rw [Nat.add_sub_cancel' hle] at hrun
      exact hrun
    · refine ⟨rx.rxNext, hge, hnext, ?_⟩
      rw [Nat.sub_eq_zero_of_le hge] at h
      obtain rfl := Option.some.inj h
      exact hstart
  have hnot : rx.isWhollyMissing last = false := by
    rw [Bool.eq_false_iff]
    intro hwhole
    obtain ⟨-, hhi, -⟩ := isWhollyMissing_iff.1 hwhole
    omega
  obtain ⟨hclosed, hexp⟩ := henc.close hnot hlt
  refine ⟨fun n hn => (hclosed n hn).mono hlt, ?_⟩
  intro sn so
  rw [hexp]
  rcases Nat.lt_trichotomy sn last with hsn | rfl | hsn
  · exact ⟨fun h => (h.resolve_right fun h => by omega).2, fun h => .inl ⟨hsn, h⟩⟩
  · have hmarked : ¬ rx.MarkedMissing sn so := fun h => by
      have := h.2.1
      omega
    rw [decoded_of_not_whole hnot]
    exact ⟨fun h => .inr (h.resolve_left fun h => by omega).2, fun h => .inr ⟨rfl, h.resolve_left hmarked⟩⟩
  · constructor
    · rintro (h | h) <;> omega
    · rintro (⟨hmarked, -⟩ | hover)
      · have := hmarked.2.1
        omega
      · exact absurd hover (not_overtaken_outside (.inr (by omega)))

/-- The loops over the NACKs end unless the largest 32-bit SN is taken in. -/
theorem ends_iff (hclosed : ∀ n ∈ nacks, Closed 4294967296 n)
    (hexp : ∀ sn so, Expanded nacks sn so ↔ rx.Decoded sn so) (hrx : rx.Typed) :
    (∀ n ∈ nacks, n.Ends) ↔ ¬ rx.Overtaken 4294967295 := by
  constructor
  · intro hends hover
    -- a segment with the largest SO is in no range of SOs
    obtain ⟨n, hn, hx⟩ := (hexp 4294967295 65535).2 (.inr hover)
    have hend := hends n hn
    have hn := hclosed n hn
    unfold Nack.Expands at hx
    unfold Nack.Ends at hend
    by_cases he3 : n.e3 = true
    · rw [if_pos he3] at hx hend
      have hlt := u32_lt (n.nackSn + n.nackRange)
      omega
    · rw [if_neg he3] at hx
      by_cases he2 : n.e2 = true
      · have hle := hx.2 he2
        have hlt := hn.segment he2
        omega
      · have hlt := hn.single (Bool.eq_false_iff.2 he3) (Bool.eq_false_iff.2 he2)
        omega
  · intro hover n hn
    have hc := hclosed n hn
    unfold Nack.Ends
    by_cases he3 : n.e3 = true
    · rw [if_pos he3]
      intro hlast
      have hx : n.Expands 4294967295 0 := by
        unfold Nack.Expands
        rw [if_pos he3, hlast]
        have hrange := (hc.range he3).2
        omega
      rcases (hexp _ _).1 ⟨n, hn, hx⟩ with ⟨hmarked, -⟩ | h
      · have hhi := hmarked.2.1
        have hhighest := hrx.highest
        omega
      · exact hover h
    · rw [if_neg he3]
      intro he2
      have hlt := (hc.segment he2).2
      omega

end AmRx

/-! ## Writing and reading -/

namespace AmTx

/-- **The NACKs agree with what is marked as missing**: the STATUS PDU is processed, and the entries that its NACKs take out
of the transmitted buffer, for the retransmission buffer unless they are at the limit, are those marked. -/
def Agrees (cfg : AmConfig) (rx : AmRx) (tx : AmTx) (pdu : StatusPdu) : Prop :=
  ∃ tx' hit rest, tx.receiveStatusPdu cfg pdu = some tx' ∧
    nackFindAll pdu.nacks tx.transmittedBuffer = some (hit, rest) ∧
    tx'.retransmissionBuffer = tx.retransmissionBuffer ++ (nackMoved cfg hit).map countRetx ∧
    ∀ sn so, (sn, so) ∈ keys hit ↔ (sn, so) ∈ keys tx.transmittedBuffer ∧ rx.MarkedMissing sn so

/-- No transmitted entry is of an SN that gets lost in a full chunk, or is taken in by a short chunk though it is not
missing. The largest 32-bit SN is not taken in. -/
def LineUp (rx : AmRx) (l : List BufferData) : Prop :=
  ¬ rx.Overtaken 4294967295 ∧ ∀ b ∈ l, ¬ rx.Lost b.sn ∧ (rx.Overtaken b.sn → rx.MarkedMissing b.sn b.so)

/-- A STATUS PDU is processed if the loops over its NACKs end. -/
theorem receiveStatusPdu_isSome (cfg : AmConfig) {tx : AmTx} {pdu : StatusPdu} {r : List BufferData × List BufferData}
    (h : nackFindAll pdu.nacks tx.transmittedBuffer = some r) : ∃ tx', tx.receiveStatusPdu cfg pdu = some tx' := by
  unfold receiveStatusPdu
  dsimp only
  have hsame : ∀ p : Prop, [Decidable p] →
      (if p then tx.stopPollRetransmitTimer.startPollRetransmitTimer else tx).transmittedBuffer = tx.transmittedBuffer := by
    intro p _
    split <;> rfl
  rw [hsame, h]
  exact ⟨_, rfl⟩

/-- **The NACKs agree with what is marked if and only if no entry is lost and none is overtaken.** -/
theorem nacks_agree_iff (cfg : AmConfig) (rx rx' : AmRx) (hrx : rx.Typed) (tx : AmTx) (pdu : StatusPdu)
    (h : rx.constructStatusPdu = some (rx', pdu)) : Agrees cfg rx tx pdu ↔ LineUp rx tx.transmittedBuffer := by
  obtain ⟨nacks, hnacks, h⟩ := Option.bind_eq_some_iff.1 h
  have hpdu : pdu.nacks = nacks.reverse := (congrArg (fun r : AmRx × StatusPdu => r.2.nacks) (Option.some.inj h)).symm
  obtain ⟨hclosed, hexp⟩ := AmRx.updateStatus_spec hrx hnacks
  have hends := AmRx.ends_iff hclosed hexp hrx
  unfold Agrees LineUp
  rw [hpdu]
  constructor
  · rintro ⟨tx', hit, rest, -, hfind, -, hkeys⟩
    have hall : ∀ n ∈ nacks, n.Ends := by
      intro n hn
      by_contra hnot
      rw [nackFindAll_none _ (List.mem_reverse.2 hn) hnot] at hfind
      cases hfind
    refine ⟨hends.1 hall, ?_⟩
    obtain ⟨r, hr, htaken⟩ := nackFindAll_taken nacks.reverse tx.transmittedBuffer
      fun n hn => hall n (List.mem_reverse.1 hn)
    obtain rfl : r = (hit, rest) := Option.some.inj (hr.symm.trans hfind)
    intro b hb
    have hkey : (b.sn, b.so) ∈ keys tx.transmittedBuffer := mem_keys.2 ⟨b, hb, rfl, rfl⟩
    have hiff := hkeys b.sn b.so
    rw [htaken, expanded_reverse, hexp, and_iff_right hkey, and_iff_right hkey] at hiff
    constructor
    · intro hlost
      have hwhole := hlost.1
      exact (AmRx.decoded_of_whole hwhole).1 (hiff.2 (AmRx.markedMissing_of_whole hwhole b.so)) hlost
    · intro hover
      exact hiff.1 (.inr hover)
  · rintro ⟨hlast, hentries⟩
    obtain ⟨⟨hit, rest⟩, hr, htaken⟩ := nackFindAll_taken nacks.reverse tx.transmittedBuffer
      fun n hn => hends.2 hlast n (List.mem_reverse.1 hn)
    have hfound : nackFindAll pdu.nacks tx.transmittedBuffer = some (hit, rest) := by
      rw [hpdu]
      exact hr
    obtain ⟨tx', htx⟩ := receiveStatusPdu_isSome cfg hfound
    obtain ⟨hit', rest', hfind, heq⟩ := receiveStatusPdu_cases htx
    rw [hpdu] at hfind
    obtain ⟨rfl, rfl⟩ := Prod.mk.inj (Option.some.inj (hr.symm.trans hfind))
    refine ⟨tx', hit, rest, htx, hr, by rw [heq], ?_⟩
    intro sn so
    rw [htaken, expanded_reverse, hexp]
    apply and_congr_right
    intro hkey
    obtain ⟨b, hb, rfl, rfl⟩ := mem_keys.1 hkey
    obtain ⟨hlost, hover⟩ := hentries b hb
    constructor
    · rintro (⟨hmarked, -⟩ | h)
      · exact hmarked
      · exact hover h
    · intro hmarked
      exact .inl ⟨hmarked, hlost⟩

/-- A receiver that has a segment of SN 0 and the whole of SN 3. -/
def twoMissing : AmRx :=
  ((AmRx.init.placeAmdPduInReceptionBuffer ⟨false, .first, 0, 0, ⟨46, 2, 50⟩⟩).1.placeAmdPduInReceptionBuffer
    ⟨true, .all, 3, 0, ⟨100, 2, 102⟩⟩).1

/-- The entry of a whole SDU of 100 bytes that has been sent. -/
def sentSdu (sn : ℕ) : BufferData := ⟨.all, sn, 0, 0, .dtch, ⟨sn, true, ⟨100, 2, 102⟩, none⟩, false, false⟩

/-- A sender that has sent SN 1, 2 and the SNs of `l`. -/
def sentTwoAnd (l : List ℕ) : AmTx := { AmTx.init with txNext := 4, transmittedBuffer := ([1, 2] ++ l).map sentSdu }

/-- The STATUS PDU of `twoMissing`: two SNs from SN 1 on. -/
def twoFromOne : StatusPdu := ⟨4, [⟨1, false, true, 0, 0, 2⟩]⟩

theorem nacks_agree_sample :
    ∃ rx', twoMissing.constructStatusPdu = some (rx', twoFromOne) ∧
      (Agrees .shipped twoMissing (sentTwoAnd []) twoFromOne ↔
        LineUp twoMissing (sentTwoAnd []).transmittedBuffer) := by
  have hstatus : twoMissing.constructStatusPdu = some (twoMissing, twoFromOne) := by decide
  exact ⟨twoMissing, hstatus,
    nacks_agree_iff .shipped twoMissing twoMissing ⟨by decide, by decide, by decide⟩ (sentTwoAnd []) twoFromOne hstatus⟩

/-- **Overtaken.** SN 1 and SN 2 are missing, and SN 3, which has been received, is retransmitted with them. -/
theorem nacks_overtake :
    ∃ rx' tx', twoMissing.constructStatusPdu = some (rx', twoFromOne) ∧
      (sentTwoAnd [3]).receiveStatusPdu .shipped twoFromOne = some tx' ∧
      tx'.retransmissionBuffer.map (·.sn) = [1, 2, 3] ∧ ¬ twoMissing.MarkedMissing 3 0 ∧
      ¬ Agrees .shipped twoMissing (sentTwoAnd [3]) twoFromOne := by
  have hstatus : twoMissing.constructStatusPdu = some (twoMissing, twoFromOne) := by decide
  have hmarked : ¬ twoMissing.MarkedMissing 3 0 := fun h => h.2.2.1 rfl
  have hfound : (nackFindAll twoFromOne.nacks (sentTwoAnd [3]).transmittedBuffer).map (fun r => keys r.1) =
      some [(1, 0), (2, 0), (3, 0)] := by decide
  have hmoved : ((sentTwoAnd [3]).receiveStatusPdu .shipped twoFromOne).map
      (fun tx => tx.retransmissionBuffer.map (·.sn)) = some [1, 2, 3] := by decide
  obtain ⟨tx', htx, hsns⟩ := Option.map_eq_some_iff.1 hmoved
  refine ⟨twoMissing, tx', hstatus, htx, hsns, hmarked, ?_⟩
  rintro ⟨-, hit, rest, -, hfind, -, hkeys⟩
  rw [hfind] at hfound
  have hhit : keys hit = [(1, 0), (2, 0), (3, 0)] := Option.some.inj hfound
  have hmem : (3, 0) ∈ keys hit := by
    rw [hhit]
    decide
  exact hmarked ((hkeys 3 0).1 hmem).2

end AmTx

end NetSim.Rlc
