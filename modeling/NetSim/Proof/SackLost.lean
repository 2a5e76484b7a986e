import NetSim.Proof.SackBlocks
import Mathlib.Algebra.BigOperators.Group.List.Basic
import Mathlib.Data.Set.Card
import Mathlib.Order.Interval.Finset.Nat

/-!
# Lost segments

`tcp_sack_isLost` looks at the first block, counts whole segments and compares right edges (`isLost_iff`). What
it is to tell is whether three blocks, or more octets than two segments hold, have been SACKed above a number. On
the scoreboards that the options of a receiver leave (`Reported.receiveSackOption`) the SACKed octets are counted
block by block (`octetsAbove_eq`), and the two agree in the cases of `Judged` only. Where no number wraps, they
differ for three kinds of scoreboards (`lostIffSacked_iff_judged`): the code does not see what lies behind a block
that begins too near, nor several small blocks, and takes a block that ends far enough for a loss.
-/

namespace NetSim.Tcp

open SeqSpace

variable {σ : Type} {t : Tcb} {seqNum : UInt32}

/-! ## What the loop finds -/

/-- The whole segments that fit into the blocks, each taken by itself. -/
def wholeSegments (smss : UInt32) (blocks : List SackData) : ℕ :=
  (blocks.map fun b => b.octets / smss.toNat).sum

/-- A right edge is above the limit of `tcp_sack_isLost`. -/
def ReachesFar (smss seqNum : UInt32) (blocks : List SackData) : Prop :=
  ∃ b ∈ blocks, (tcpDupThresh - 1) * smss + seqNum < b.rightEdge

instance (smss seqNum : UInt32) (blocks : List SackData) : Decidable (ReachesFar smss seqNum blocks) :=
  inferInstanceAs (Decidable (∃ b ∈ blocks, _ < b.rightEdge))

/-- **The loop**, with less than three segments counted so far. -/
theorem isLostLoop_iff {smss c : UInt32} {blocks : List SackData} (hc : c.toNat < 3)
    (hsum : c.toNat + wholeSegments smss blocks < 4294967296) :
    Tcb.isLostLoop smss seqNum c blocks = true ↔
      3 ≤ c.toNat + wholeSegments smss blocks ∨ ReachesFar smss seqNum blocks := by
  induction blocks generalizing c with
  | nil =>
    unfold Tcb.isLostLoop wholeSegments ReachesFar
    simp only [List.map_nil, List.sum_nil, List.not_mem_nil, false_and, exists_false, or_false,
      Bool.false_eq_true, false_iff]
    omega
  | cons b blocks ih =>
    have hcons : wholeSegments smss (b :: blocks) =
        b.octets / smss.toNat + wholeSegments smss blocks := by
      unfold wholeSegments
      rw [List.map_cons, List.sum_cons]
    have hadd : (c + (b.rightEdge - b.leftEdge) / smss).toNat =
        c.toNat + b.octets / smss.toNat := by
      have hlt : c.toNat + b.octets / smss.toNat < 4294967296 := by omega
      rw [UInt32.toNat_add, UInt32.toNat_div]
      exact Nat.mod_eq_of_lt hlt
    have hthree : tcpDupThresh.toNat = 3 := rfl
    have hfar : ReachesFar smss seqNum (b :: blocks) ↔
        (tcpDupThresh - 1) * smss + seqNum < b.rightEdge ∨ ReachesFar smss seqNum blocks := by
      unfold ReachesFar
      simp only [List.mem_cons, or_and_right, exists_or, exists_eq_left]
    unfold Tcb.isLostLoop
    dsimp only
    rw [hcons, hfar]
    split
    · -- the third whole segment is counted
      rename_i hge
      rw [ge_iff_le, UInt32.le_iff_toNat_le, hadd, hthree] at hge
      have hreached : 3 ≤ c.toNat + (b.octets / smss.toNat + wholeSegments smss blocks) := by omega
      exact iff_of_true rfl (.inl hreached)
    · rename_i hlt
      rw [ge_iff_le, UInt32.le_iff_toNat_le, hadd, hthree] at hlt
      split
      · rename_i hright
        exact iff_of_true rfl (.inr (.inl hright))
      · rename_i hright
        rw [ih (by omega) (by omega), hadd]
        have hnot : ¬ (tcpDupThresh - 1) * smss + seqNum < b.rightEdge := hright
        rw [Nat.add_assoc]
        exact or_congr_right (or_iff_right hnot).symm

/-! ## The scoreboard -/

/-- **A scoreboard of reported blocks**: at most four blocks in order, and cleared entries behind them. -/
def Reported (scoreboard : List SackData) : Prop :=
  ∃ k ≤ 4, (scoreboard.take k).Pairwise SackData.Before ∧
    scoreboard.drop k = List.replicate (4 - k) ⟨0, 0⟩

theorem receiveBlocks_scoreboard {blocks rest : List SackData} {t : Tcb} (done : List SackData)
    (h : t.scoreboard = done ++ rest) (hlen : blocks.length ≤ rest.length) :
    (t.receiveBlocks blocks done.length).scoreboard = done ++ blocks ++ rest.drop blocks.length := by
  induction blocks generalizing t done rest with
  | nil =>
    rw [List.append_nil]
    exact h
  | cons b blocks ih =>
    cases rest with
    | nil => exact absurd hlen (Nat.not_succ_le_zero _)
    | cons entry rest =>
      have hset : ((t.updateSackFlag b.leftEdge b.rightEdge).updateScoreboard b.leftEdge b.rightEdge
          done.length).scoreboard = (done ++ [b]) ++ rest := by
        unfold Tcb.updateScoreboard Tcb.updateSackFlag
        dsimp only
        have hentries : t.scoreboard.set done.length b = (done ++ [b]) ++ rest := by
          rw [h, List.set_append_right _ _ le_rfl, Nat.sub_self, List.set_cons_zero, List.append_assoc]
          rfl
        split <;> exact hentries
      have hrest := ih _ hset (Nat.le_of_succ_le_succ hlen)
      rw [List.length_append, List.length_singleton, List.append_assoc done] at hrest
      exact hrest

theorem clearScoreboard_scoreboard {done rest : List SackData} {t : Tcb}
    (h : t.scoreboard = done ++ rest) :
    ((List.range' done.length rest.length).foldl (fun t i => t.updateScoreboard 0 0 i) t).scoreboard =
      done ++ List.replicate rest.length ⟨0, 0⟩ := by
  induction rest generalizing t done with
  | nil => exact h
  | cons entry rest ih =>
    have hset : (t.updateScoreboard 0 0 done.length).scoreboard = (done ++ [⟨0, 0⟩]) ++ rest := by
      unfold Tcb.updateScoreboard
      dsimp only
      have hentries : t.scoreboard.set done.length ⟨0, 0⟩ = (done ++ [⟨0, 0⟩]) ++ rest := by
        rw [h, List.set_append_right _ _ le_rfl, Nat.sub_self, List.set_cons_zero, List.append_assoc]
        rfl
      split <;> exact hentries
    have hrest := ih hset
    rw [List.length_append, List.length_singleton, List.append_assoc done] at hrest
    exact hrest

/-- **The options that a receiver writes leave such a scoreboard at the sender.** -/
theorem Reported.receiveSackOption {sender receiver : Tcb} {hdr : SegmentHdr}
    (h : Reported sender.scoreboard) (hlen : sender.scoreboard.length = 4)
    (hq : (outOfOrderQueue σ).Reach receiver.outOfOrderSegment)
    (hapart : receiver.outOfOrderSegment.queue.Pairwise Apart) (hnew : hdr.sack = none)
    (hhdr : 20 ≤ hdr.hdrLength) :
    Reported (sender.receiveSackOption (setSackOption receiver hdr)).scoreboard := by
  have hblocks := sackOption_before hq hapart hnew
  have hcount : (sackOption receiver hdr).length ≤ 4 := by
    have hmax : getMaxSackData hdr ≤ 4 := by
      have hsize : maxTcpHdrSize = 60 := rfl
      unfold getMaxSackData
      omega
    exact (sack_blocks_are_runs receiver hdr hq hapart hnew).count.trans hmax
  unfold sackOption at hblocks hcount
  unfold Tcb.receiveSackOption
  dsimp only
  split
  · exact h
  split
  · exact h
  · exact h
  · rename_i b blocks hsack
    rw [hsack, Option.getD_some] at hblocks hcount
    have hroom : (b :: blocks).length ≤ sender.scoreboard.length := by omega
    have hset := receiveBlocks_scoreboard (t := { sender with isSackOption := true }) [] rfl hroom
    have hclear := clearScoreboard_scoreboard hset
    rw [List.nil_append, List.length_drop, hlen] at hclear
    have hboard : ((Tcb.receiveBlocks { sender with isSackOption := true } (b :: blocks) 0).clearScoreboard
        (blocks.length + 1)).scoreboard =
        (b :: blocks) ++ List.replicate (4 - (b :: blocks).length) ⟨0, 0⟩ := hclear
    refine ⟨(b :: blocks).length, hcount, ?_, ?_⟩
    · rw [hboard, List.take_left]
      exact hblocks
    · rw [hboard, List.drop_left]

/-- The blocks of an ordered list between two numbers have room there. -/
theorem sum_octets_le {blocks : List SackData} {lo hi : ℕ} (h : blocks.Pairwise SackData.Before)
    (hle : lo ≤ hi) (hlo : ∀ b ∈ blocks, lo ≤ b.leftEdge.toNat)
    (hhi : ∀ b ∈ blocks, b.leftEdge.toNat + b.octets ≤ hi) :
    lo + (blocks.map SackData.octets).sum ≤ hi := by
  induction blocks generalizing lo with
  | nil => exact hle
  | cons b blocks ih =>
    obtain ⟨hhead, htail⟩ := List.pairwise_cons.1 h
    have hb := hlo b (.head _)
    have hend := hhi b (.head _)
    have hrest := ih htail hend (fun b' hb' => (hhead b' hb').1.le) fun b' hb' => hhi b' (.tail _ hb')
    rw [List.map_cons, List.sum_cons]
    omega

theorem sum_octets_lt {blocks : List SackData} (h : blocks.Pairwise SackData.Before) :
    (blocks.map SackData.octets).sum < 4294967296 := by
  cases blocks with
  | nil => exact Nat.zero_lt_succ _
  | cons b blocks =>
    obtain ⟨hhead, htail⟩ := List.pairwise_cons.1 h
    have hb : b.octets < 4294967296 := UInt32.toNat_lt _
    -- the others lie behind the gap and end within a turn
    have hrest : b.leftEdge.toNat + b.octets + 1 + (blocks.map SackData.octets).sum ≤
        b.leftEdge.toNat + 4294967296 :=
      sum_octets_le htail (by omega) (fun b' hb' => (hhead b' hb').1) fun b' hb' => (hhead b' hb').2
    rw [List.map_cons, List.sum_cons]
    omega

theorem wholeSegments_le_octets (smss : UInt32) (blocks : List SackData) :
    wholeSegments smss blocks ≤ (blocks.map SackData.octets).sum := by
  induction blocks with
  | nil => exact le_rfl
  | cons b blocks ih =>
    have hdiv := Nat.div_le_self b.octets smss.toNat
    unfold wholeSegments at ih ⊢
    rw [List.map_cons, List.sum_cons, List.map_cons, List.sum_cons]
    omega

/-- The octets of a scoreboard are fewer than the sequence numbers. -/
theorem Reported.sum_octets_lt {scoreboard : List SackData} (h : Reported scoreboard) :
    (scoreboard.map SackData.octets).sum < 4294967296 := by
  obtain ⟨k, -, hblocks, hclear⟩ := h
  have hsum := Tcp.sum_octets_lt hblocks
  have hzero : ((scoreboard.drop k).map SackData.octets).sum = 0 := by
    rw [hclear, List.map_replicate, List.sum_replicate]
    rfl
  have hsplit := List.take_append_drop k scoreboard
  rw [← hsplit, List.map_append, List.sum_append, hzero]
  exact hsum

/-- The number from which on the first block may begin for the code to look further. -/
def Tcb.check (t : Tcb) (seqNum : UInt32) : UInt32 := seqNum + t.getMss.toUInt32

/-- The first entry of the scoreboard begins there. -/
def Tcb.BeginsFar (t : Tcb) (seqNum : UInt32) : Prop :=
  t.check seqNum ≤ (t.scoreboard.headD ⟨0, 0⟩).leftEdge

instance (t : Tcb) (seqNum : UInt32) : Decidable (t.BeginsFar seqNum) :=
  inferInstanceAs (Decidable (_ ≤ _))

/-- The blocks hold three whole segments, or a right edge is far above the number. -/
def Tcb.Reaches (t : Tcb) (seqNum : UInt32) : Prop :=
  3 ≤ wholeSegments t.getMss.toUInt32 t.scoreboard ∨
    ReachesFar t.getMss.toUInt32 seqNum t.scoreboard

instance (t : Tcb) (seqNum : UInt32) : Decidable (t.Reaches seqNum) :=
  inferInstanceAs (Decidable (_ ∨ _))

theorem isLost_iff (h : Reported t.scoreboard) :
    t.isLost seqNum = true ↔ t.BeginsFar seqNum ∧ t.Reaches seqNum := by
  have hsum := (wholeSegments_le_octets t.getMss.toUInt32 t.scoreboard).trans_lt h.sum_octets_lt
  have hzero : (0 : UInt32).toNat = 0 := rfl
  have hloop : Tcb.isLostLoop t.getMss.toUInt32 seqNum 0 t.scoreboard = true ↔ _ :=
    isLostLoop_iff (by omega) (by omega)
  rw [hzero, Nat.zero_add] at hloop
  unfold Tcb.isLost
  dsimp only
  split
  · rename_i hfar
    exact hloop.trans (iff_and_self.2 fun _ => hfar)
  · rename_i hnear
    exact iff_of_false Bool.false_ne_true fun hboth => hnear hboth.1

/-! ## What is to be told -/

/-- The number is above the other one: less than half a turn ahead of it. -/
def Above (seqNum x : UInt32) : Prop := 0 < (x - seqNum).toNat ∧ (x - seqNum).toNat < 2147483648

instance (seqNum x : UInt32) : Decidable (Above seqNum x) := inferInstanceAs (Decidable (_ ∧ _))

/-- The SACKed blocks above a number. -/
def Tcb.blocksAbove (t : Tcb) (seqNum : UInt32) : ℕ :=
  t.scoreboard.countP fun b => b.leftEdge ≠ b.rightEdge ∧ Above seqNum b.leftEdge

/-- The SACKed octets above a number. -/
noncomputable def Tcb.octetsAbove (t : Tcb) (seqNum : UInt32) : ℕ :=
  Set.ncard {x | Above seqNum x ∧ ∃ b ∈ t.scoreboard, b.Contains x}

/-- Three blocks, or more octets than two segments may hold, have been SACKed above the number. -/
def Tcb.EnoughSacked (t : Tcb) (seqNum : UInt32) : Prop :=
  tcpDupThresh.toNat ≤ t.blocksAbove seqNum ∨
    (tcpDupThresh.toNat - 1) * t.getMss.toNat < t.octetsAbove seqNum

/-- **`tcp_sack_isLost` tells whether enough has been SACKed.** -/
def LostIffSacked (t : Tcb) (seqNum : UInt32) : Prop :=
  t.isLost seqNum = true ↔ t.EnoughSacked seqNum

/-! ## The octets above a number, block by block -/

/-- The octets of a block above a number: those from its left edge on up to half a turn, and those that come
round to the number again. -/
def SackData.above (seqNum : UInt32) (b : SackData) : ℕ :=
  let d := (b.leftEdge - seqNum).toNat
  (min (d + b.octets) 2147483648 - max d 1) + (min (d + b.octets) 6442450944 - 4294967297)

/-- The way from a number to an octet leads over the left edge, with or without a turn. -/
theorem sub_add_sub (s l x : UInt32) :
    (l - s).toNat + (x - l).toNat = (x - s).toNat ∨
      (l - s).toNat + (x - l).toNat = (x - s).toNat + 4294967296 := by
  have hs := s.toNat_lt
  have hl := l.toNat_lt
  have hx := x.toNat_lt
  simp only [UInt32.toNat_sub]
  omega

theorem add_ofNat_sub (s : UInt32) (n : ℕ) : (s + UInt32.ofNat n - s).toNat = n % 4294967296 := by
  have hs := s.toNat_lt
  rw [UInt32.toNat_sub, UInt32.toNat_add, UInt32.toNat_ofNat']
  omega

theorem eq_add_ofNat {s x : UInt32} {n : ℕ} (h : n % 4294967296 = (x - s).toNat) : s + UInt32.ofNat n = x := by
  have hs := s.toNat_lt
  have hx := x.toNat_lt
  rw [UInt32.toNat_sub] at h
  rw [← UInt32.toNat_inj, UInt32.toNat_add, UInt32.toNat_ofNat']
  omega

/-- The octets of one block above a number, as numbers of a turn or two. -/
theorem above_eq_image (seqNum : UInt32) (b : SackData) :
    {x | Above seqNum x ∧ b.Contains x} =
      (fun n : ℕ => seqNum + UInt32.ofNat n) ''
        ↑(Finset.Ico (max (b.leftEdge - seqNum).toNat 1)
            (min ((b.leftEdge - seqNum).toNat + b.octets) 2147483648) ∪
          Finset.Ico 4294967297 (min ((b.leftEdge - seqNum).toNat + b.octets) 6442450944)) := by
  have hoctets : b.octets < 4294967296 := (b.rightEdge - b.leftEdge).toNat_lt
  have hd := (b.leftEdge - seqNum).toNat_lt
  have hin : ∀ x, b.Contains x ↔ (x - b.leftEdge).toNat < b.octets := fun x => UInt32.lt_iff_toNat_lt
  ext x
  simp only [Set.mem_ofPred_eq, Set.mem_image, Finset.mem_coe, Finset.mem_union, Finset.mem_Ico, max_le_iff,
    lt_min_iff]
  rw [hin]
  unfold Above
  constructor
  · rintro ⟨habove, hlt⟩
    have hx := (x - seqNum).toNat_lt
    refine ⟨(b.leftEdge - seqNum).toNat + (x - b.leftEdge).toNat, ?_, eq_add_ofNat ?_⟩
    · rcases sub_add_sub seqNum b.leftEdge x with hway | hway
      · exact .inl (by omega)
      · exact .inr (by omega)
    · rcases sub_add_sub seqNum b.leftEdge x with hway | hway
      · rw [hway, Nat.mod_eq_of_lt hx]
      · rw [hway, Nat.add_mod_right, Nat.mod_eq_of_lt hx]
  · rintro ⟨n, hn, rfl⟩
    have hway := sub_add_sub seqNum b.leftEdge (seqNum + UInt32.ofNat n)
    have hx := (seqNum + UInt32.ofNat n - b.leftEdge).toNat_lt
    rw [add_ofNat_sub] at hway ⊢
    rcases hn with hn | hn
    · rw [Nat.mod_eq_of_lt (by omega)] at hway ⊢
      omega
    · have hmod : n % 4294967296 = n - 4294967296 := by omega
      rw [hmod] at hway ⊢
      omega

theorem above_injOn (seqNum : UInt32) (b : SackData) :
    Set.InjOn (fun n : ℕ => seqNum + UInt32.ofNat n)
      ↑(Finset.Ico (max (b.leftEdge - seqNum).toNat 1)
          (min ((b.leftEdge - seqNum).toNat + b.octets) 2147483648) ∪
        Finset.Ico 4294967297 (min ((b.leftEdge - seqNum).toNat + b.octets) 6442450944)) := by
  have hoctets : b.octets < 4294967296 := (b.rightEdge - b.leftEdge).toNat_lt
  have hd := (b.leftEdge - seqNum).toNat_lt
  intro n hn m hm heq
  simp only [Finset.mem_coe, Finset.mem_union, Finset.mem_Ico, max_le_iff, lt_min_iff] at hn hm
  dsimp only at heq
  rw [← UInt32.toNat_inj, UInt32.toNat_add, UInt32.toNat_add, UInt32.toNat_ofNat', UInt32.toNat_ofNat'] at heq
  omega

theorem finite_above (seqNum : UInt32) (b : SackData) : {x | Above seqNum x ∧ b.Contains x}.Finite := by
  rw [above_eq_image]
  exact (Finset.finite_toSet _).image _

theorem ncard_above (seqNum : UInt32) (b : SackData) :
    {x | Above seqNum x ∧ b.Contains x}.ncard = b.above seqNum := by
  have hdisj : Disjoint (Finset.Ico (max (b.leftEdge - seqNum).toNat 1)
      (min ((b.leftEdge - seqNum).toNat + b.octets) 2147483648))
      (Finset.Ico 4294967297 (min ((b.leftEdge - seqNum).toNat + b.octets) 6442450944)) := by
    rw [Finset.disjoint_left]
    intro n hn hm
    rw [Finset.mem_Ico, lt_min_iff] at hn hm
    omega
  rw [above_eq_image, (above_injOn seqNum b).ncard_image, Set.ncard_coe_finset,
    Finset.card_union_of_disjoint hdisj, Nat.card_Ico, Nat.card_Ico]
  rfl

/-- The octets of disjoint blocks add up. -/
theorem ncard_blocks {blocks : List SackData} (seqNum : UInt32) (h : blocks.Pairwise SackData.Disjoint) :
    {x | Above seqNum x ∧ ∃ b ∈ blocks, b.Contains x}.Finite ∧
      {x | Above seqNum x ∧ ∃ b ∈ blocks, b.Contains x}.ncard = (blocks.map (SackData.above seqNum)).sum := by
  induction blocks with
  | nil => simp
  | cons b blocks ih =>
    obtain ⟨hhead, htail⟩ := List.pairwise_cons.1 h
    obtain ⟨hfin, hcard⟩ := ih htail
    have hunion : {x | Above seqNum x ∧ ∃ b' ∈ b :: blocks, b'.Contains x} =
        {x | Above seqNum x ∧ b.Contains x} ∪ {x | Above seqNum x ∧ ∃ b' ∈ blocks, b'.Contains x} := by
      ext x
      simp only [List.exists_mem_cons_iff, Set.mem_ofPred_eq, Set.mem_union, and_or_left]
    have hdisj : Disjoint {x | Above seqNum x ∧ b.Contains x}
        {x | Above seqNum x ∧ ∃ b' ∈ blocks, b'.Contains x} := by
      rw [Set.disjoint_left]
      rintro x ⟨-, hx⟩ ⟨-, b', hb', hx'⟩
      exact hhead b' hb' x ⟨hx, hx'⟩
    rw [hunion, List.map_cons, List.sum_cons]
    refine ⟨(finite_above seqNum b).union hfin, ?_⟩
    rw [Set.ncard_union_eq hdisj (finite_above seqNum b) hfin, ncard_above, hcard]

theorem Reported.disjoint {scoreboard : List SackData} (h : Reported scoreboard) :
    scoreboard.Pairwise SackData.Disjoint := by
  obtain ⟨k, -, hblocks, hclear⟩ := h
  have hnothing : ∀ b b' : SackData, b' ∈ scoreboard.drop k → b.Disjoint b' := by
    intro b b' hb' x hx
    rw [hclear] at hb'
    obtain rfl := List.eq_of_mem_replicate hb'
    exact absurd hx.2 (UInt32.not_lt.2 (UInt32.zero_le))
  rw [← List.take_append_drop k scoreboard, List.pairwise_append]
  refine ⟨hblocks.imp fun hb => hb.disjoint, ?_, fun b _ b' hb' => hnothing b b' hb'⟩
  exact List.pairwise_iff_forall_sublist.2 fun hsub => hnothing _ _ (hsub.subset (by simp))

/-- **The SACKed octets above a number**, counted block by block. -/
theorem octetsAbove_eq (h : Reported t.scoreboard) :
    t.octetsAbove seqNum = (t.scoreboard.map (SackData.above seqNum)).sum :=
  (ncard_blocks seqNum h.disjoint).2

/-! ## Where the code is right -/

/-- Three blocks above the number, or more octets of blocks than two segments hold. -/
def Tcb.EnoughInBlocks (t : Tcb) (seqNum : UInt32) : Prop :=
  3 ≤ t.blocksAbove seqNum ∨ 2 * t.getMss.toNat < (t.scoreboard.map (SackData.above seqNum)).sum

instance (t : Tcb) (seqNum : UInt32) : Decidable (t.EnoughInBlocks seqNum) :=
  inferInstanceAs (Decidable (_ ∨ _))

theorem enoughSacked_iff (h : Reported t.scoreboard) : t.EnoughSacked seqNum ↔ t.EnoughInBlocks seqNum := by
  unfold Tcb.EnoughSacked Tcb.EnoughInBlocks
  rw [octetsAbove_eq h]
  rfl

/-- The first block begins less than a segment above the number, and the blocks above it are neither three nor
longer than two segments; or it begins farther, and then they are exactly if the blocks hold three whole segments
or reach more than two segments above the number. -/
structure Judged (t : Tcb) (seqNum : UInt32) : Prop where
  near : ¬ t.BeginsFar seqNum → ¬ t.EnoughInBlocks seqNum
  short : t.BeginsFar seqNum → ¬ t.Reaches seqNum → ¬ t.EnoughInBlocks seqNum
  far : t.BeginsFar seqNum → t.Reaches seqNum → t.EnoughInBlocks seqNum

theorem lostIffSacked_judged (h : Reported t.scoreboard) : LostIffSacked t seqNum ↔ Judged t seqNum := by
  unfold LostIffSacked
  rw [isLost_iff h, enoughSacked_iff h]
  constructor
  · intro hiff
    exact ⟨fun hnear henough => hnear (hiff.2 henough).1, fun _ hshort henough => hshort (hiff.2 henough).2,
      fun hbegins hreaches => hiff.1 ⟨hbegins, hreaches⟩⟩
  · intro hjudged
    refine ⟨fun hboth => hjudged.far hboth.1 hboth.2, fun henough => ?_⟩
    have hbegins : t.BeginsFar seqNum := by
      by_contra hnear
      exact hjudged.near hnear henough
    refine ⟨hbegins, ?_⟩
    by_contra hshort
    exact hjudged.short hbegins hshort henough

/-! ## The three kinds of scoreboards -/

/-- No number wraps: the limits of the code, and the edges of the blocks, which end within half a turn of the
number. -/
structure Tcb.Unwrapped (t : Tcb) (seqNum : UInt32) : Prop where
  smss : 0 < t.getMss.toNat
  limit : seqNum.toNat + 2 * t.getMss.toNat < 4294967296
  edges : ∀ b ∈ t.scoreboard, b.leftEdge ≠ b.rightEdge → seqNum.toNat ≤ b.leftEdge.toNat + 2147483648 ∧
    b.leftEdge.toNat ≤ b.rightEdge.toNat ∧ b.rightEdge.toNat ≤ seqNum.toNat + 2147483648

/-- The blocks of the scoreboard. -/
def Tcb.blockCount (t : Tcb) : ℕ := t.scoreboard.countP fun b => b.leftEdge ≠ b.rightEdge

/-- The blocks that begin above the number. -/
def Tcb.blocksBehind (t : Tcb) (seqNum : UInt32) : ℕ :=
  t.scoreboard.countP fun b => b.leftEdge ≠ b.rightEdge ∧ seqNum < b.leftEdge

/-- The octets of the blocks from the number behind this one on. -/
def Tcb.octetsBehind (t : Tcb) (seqNum : UInt32) : ℕ :=
  (t.scoreboard.map fun b => b.rightEdge.toNat - max b.leftEdge.toNat (seqNum.toNat + 1)).sum

/-- The first block begins less than a segment above the number, and three blocks or more octets than two
segments hold lie above it. -/
def Tcb.NearMissed (t : Tcb) (seqNum : UInt32) : Prop :=
  (t.scoreboard.headD ⟨0, 0⟩).leftEdge.toNat < seqNum.toNat + t.getMss.toNat ∧
    (3 ≤ t.blocksBehind seqNum ∨ 2 * t.getMss.toNat < t.octetsBehind seqNum)

/-- The first block begins farther, and three blocks or more end within two segments above the number. -/
def Tcb.SmallMissed (t : Tcb) (seqNum : UInt32) : Prop :=
  seqNum.toNat + t.getMss.toNat ≤ (t.scoreboard.headD ⟨0, 0⟩).leftEdge.toNat ∧
    (∀ b ∈ t.scoreboard, b.rightEdge.toNat ≤ seqNum.toNat + 2 * t.getMss.toNat) ∧ 3 ≤ t.blockCount

/-- The first block begins farther, some block ends more than two segments above the number, and there are no
more than two blocks with no more octets than two segments hold. -/
def Tcb.FarTaken (t : Tcb) (seqNum : UInt32) : Prop :=
  seqNum.toNat + t.getMss.toNat ≤ (t.scoreboard.headD ⟨0, 0⟩).leftEdge.toNat ∧
    (∃ b ∈ t.scoreboard, seqNum.toNat + 2 * t.getMss.toNat < b.rightEdge.toNat) ∧
      t.blockCount ≤ 2 ∧ (t.scoreboard.map SackData.octets).sum ≤ 2 * t.getMss.toNat

instance (t : Tcb) (seqNum : UInt32) : Decidable (t.NearMissed seqNum) := inferInstanceAs (Decidable (_ ∧ _))

namespace Tcb.Unwrapped

theorem beginsFar_iff (hu : t.Unwrapped seqNum) :
    t.BeginsFar seqNum ↔ seqNum.toNat + t.getMss.toNat ≤ (t.scoreboard.headD ⟨0, 0⟩).leftEdge.toNat := by
  have hlimit := hu.limit
  have hmss : t.getMss.toUInt32.toNat = t.getMss.toNat := rfl
  unfold BeginsFar check
  rw [UInt32.le_iff_toNat_le, UInt32.toNat_add, hmss, Nat.mod_eq_of_lt (by omega)]

theorem reachesFar_iff (hu : t.Unwrapped seqNum) :
    ReachesFar t.getMss.toUInt32 seqNum t.scoreboard ↔
      ∃ b ∈ t.scoreboard, seqNum.toNat + 2 * t.getMss.toNat < b.rightEdge.toNat := by
  have hlimit := hu.limit
  have hmss : t.getMss.toUInt32.toNat = t.getMss.toNat := rfl
  have htwo : (tcpDupThresh - 1).toNat = 2 := rfl
  unfold ReachesFar
  refine exists_congr fun b => and_congr_right fun _ => ?_
  rw [UInt32.lt_iff_toNat_lt, UInt32.toNat_add, UInt32.toNat_mul, hmss, htwo,
    Nat.mod_eq_of_lt (show 2 * t.getMss.toNat < 4294967296 by omega), Nat.mod_eq_of_lt (by omega), Nat.add_comm]

/-- What a block has above the number. -/
theorem above_eq (hu : t.Unwrapped seqNum) {b : SackData} (hb : b ∈ t.scoreboard) :
    b.above seqNum = b.rightEdge.toNat - max b.leftEdge.toNat (seqNum.toNat + 1) := by
  have hd := (b.leftEdge - seqNum).toNat_lt
  unfold SackData.above
  dsimp only
  by_cases hempty : b.leftEdge = b.rightEdge
  · have hzero : b.octets = 0 := by
      unfold SackData.octets
      rw [hempty, UInt32.sub_self]
      rfl
    rw [hzero, ← hempty, Nat.sub_eq_zero_of_le (le_max_left b.leftEdge.toNat _)]
    omega
  · obtain ⟨h1, h2, h3⟩ := hu.edges b hb hempty
    have hoctets : b.octets = b.rightEdge.toNat - b.leftEdge.toNat :=
      UInt32.toNat_sub_of_le _ _ (UInt32.le_iff_toNat_le.2 h2)
    rcases Nat.le_total seqNum.toNat b.leftEdge.toNat with hle | hle
    · have hfirst : (b.leftEdge - seqNum).toNat = b.leftEdge.toNat - seqNum.toNat :=
        UInt32.toNat_sub_of_le _ _ (UInt32.le_iff_toNat_le.2 hle)
      rw [hfirst, hoctets, Nat.min_eq_left (by omega), Nat.min_eq_left (by omega)]
      omega
    · -- the block begins before the number, so what it has behind it comes a turn later
      have hback : (b.leftEdge - seqNum).toNat = (b.leftEdge.toNat + (4294967296 - seqNum.toNat)) % 4294967296 := by
        rw [UInt32.toNat_sub, Nat.add_comm]
      have hseq := seqNum.toNat_lt
      rcases Nat.eq_or_lt_of_le hle with heq | hlt
      · have hzero : (b.leftEdge - seqNum).toNat = 0 := by omega
        rw [hzero, hoctets, Nat.min_eq_left (by omega), Nat.min_eq_left (by omega)]
        omega
      · rw [Nat.mod_eq_of_lt (by omega)] at hback
        rw [hback, hoctets, Nat.min_eq_right (by omega), Nat.min_eq_left (by omega)]
        omega

theorem enoughInBlocks_iff (hu : t.Unwrapped seqNum) :
    t.EnoughInBlocks seqNum ↔ 3 ≤ t.blocksBehind seqNum ∨ 2 * t.getMss.toNat < t.octetsBehind seqNum := by
  have hcount : t.blocksAbove seqNum = t.blocksBehind seqNum := by
    unfold blocksAbove blocksBehind
    apply List.countP_congr
    intro b hb
    simp only [decide_eq_true_eq]
    refine and_congr_right fun hne => ?_
    obtain ⟨h1, h2, h3⟩ := hu.edges b hb hne
    have hseq := seqNum.toNat_lt
    have hleft := b.leftEdge.toNat_lt
    have hnat : b.leftEdge.toNat ≠ b.rightEdge.toNat := fun h => hne (UInt32.toNat_inj.1 h)
    unfold Above
    rw [UInt32.lt_iff_toNat_lt, UInt32.toNat_sub]
    omega
  have hsum : (t.scoreboard.map (SackData.above seqNum)).sum = t.octetsBehind seqNum := by
    unfold octetsBehind
    exact congrArg List.sum (List.map_congr_left fun b hb => hu.above_eq hb)
  unfold EnoughInBlocks
  rw [hcount, hsum]

/-- Behind a first block that begins far, every block does. -/
theorem left_of_beginsFar (h : Reported t.scoreboard) (hu : t.Unwrapped seqNum)
    (hfar : seqNum.toNat + t.getMss.toNat ≤ (t.scoreboard.headD ⟨0, 0⟩).leftEdge.toNat) :
    ∃ k, (t.scoreboard.take k).Pairwise SackData.Before ∧
      (∀ b ∈ t.scoreboard.take k, seqNum.toNat + t.getMss.toNat ≤ b.leftEdge.toNat) ∧
      t.scoreboard.drop k = List.replicate (4 - k) ⟨0, 0⟩ := by
  obtain ⟨k, -, hblocks, hclear⟩ := h
  refine ⟨k, hblocks, ?_, hclear⟩
  have hsmss := hu.smss
  cases k with
  | zero =>
    intro b hb
    exact absurd hb (by simp)
  | succ k =>
    cases hboard : t.scoreboard with
    | nil =>
      intro b hb
      exact absurd hb (by simp)
    | cons first rest =>
      rw [hboard, List.headD_cons] at hfar
      rw [hboard, List.take_succ_cons, List.pairwise_cons] at hblocks
      intro b hb
      rw [List.take_succ_cons, List.mem_cons] at hb
      rcases hb with rfl | hb
      · exact hfar
      · have hbefore := (hblocks.1 b hb).1
        omega

/-- Then all blocks and all their octets lie above the number. -/
theorem behind_of_beginsFar (h : Reported t.scoreboard) (hu : t.Unwrapped seqNum)
    (hfar : seqNum.toNat + t.getMss.toNat ≤ (t.scoreboard.headD ⟨0, 0⟩).leftEdge.toNat) :
    t.blocksBehind seqNum = t.blockCount ∧ t.octetsBehind seqNum = (t.scoreboard.map SackData.octets).sum := by
  obtain ⟨k, -, hleft, hclear⟩ := left_of_beginsFar h hu hfar
  have hsmss := hu.smss
  have hbehind : ∀ b ∈ t.scoreboard, b.leftEdge ≠ b.rightEdge →
      seqNum.toNat + t.getMss.toNat ≤ b.leftEdge.toNat := by
    intro b hb hne
    rw [← List.take_append_drop k t.scoreboard, List.mem_append, hclear] at hb
    rcases hb with hb | hb
    · exact hleft b hb
    · obtain rfl := List.eq_of_mem_replicate hb
      exact absurd rfl hne
  constructor
  · unfold blocksBehind blockCount
    apply List.countP_congr
    intro b hb
    simp only [decide_eq_true_eq, and_iff_left_iff_imp]
    intro hne
    have hle := hbehind b hb hne
    rw [UInt32.lt_iff_toNat_lt]
    omega
  · unfold octetsBehind
    refine congrArg List.sum (List.map_congr_left fun b hb => ?_)
    unfold SackData.octets
    have hlt := b.leftEdge.toNat_lt
    have hright := b.rightEdge.toNat_lt
    rw [UInt32.toNat_sub]
    by_cases hempty : b.leftEdge = b.rightEdge
    · rw [hempty]
      omega
    · have hle := hbehind b hb hempty
      obtain ⟨-, h2, -⟩ := hu.edges b hb hempty
      omega

/-- Blocks that end within two segments have no more octets than one segment holds. -/
theorem octets_of_short (h : Reported t.scoreboard) (hu : t.Unwrapped seqNum)
    (hfar : seqNum.toNat + t.getMss.toNat ≤ (t.scoreboard.headD ⟨0, 0⟩).leftEdge.toNat)
    (hshort : ∀ b ∈ t.scoreboard, b.rightEdge.toNat ≤ seqNum.toNat + 2 * t.getMss.toNat) :
    (t.scoreboard.map SackData.octets).sum ≤ t.getMss.toNat := by
  obtain ⟨k, hblocks, hleft, hclear⟩ := left_of_beginsFar h hu hfar
  have hend : ∀ b ∈ t.scoreboard.take k, b.leftEdge.toNat + b.octets ≤
      seqNum.toNat + t.getMss.toNat + t.getMss.toNat := by
    intro b hb
    have hmem := List.mem_of_mem_take hb
    have hle := hshort b hmem
    have hlt := b.leftEdge.toNat_lt
    have hright := b.rightEdge.toNat_lt
    unfold SackData.octets
    rw [UInt32.toNat_sub]
    by_cases hempty : b.leftEdge = b.rightEdge
    · rw [hempty]
      omega
    · obtain ⟨-, h2, -⟩ := hu.edges b hmem hempty
      omega
  have hsum := sum_octets_le hblocks (Nat.le_add_right _ t.getMss.toNat) hleft hend
  have hzero : ((t.scoreboard.drop k).map SackData.octets).sum = 0 := by
    rw [hclear, List.map_replicate, List.sum_replicate]
    rfl
  rw [← List.take_append_drop k t.scoreboard, List.map_append, List.sum_append, hzero]
  omega

end Tcb.Unwrapped

theorem mul_wholeSegments_le (smss : UInt32) (blocks : List SackData) :
    smss.toNat * wholeSegments smss blocks ≤ (blocks.map SackData.octets).sum := by
  induction blocks with
  | nil => exact le_rfl
  | cons b blocks ih =>
    have hdiv := Nat.mul_div_le b.octets smss.toNat
    unfold wholeSegments at ih ⊢
    rw [List.map_cons, List.sum_cons, List.map_cons, List.sum_cons, Nat.mul_add]
    omega

/-- **The three kinds** for which the code is wrong, where no number wraps. -/
theorem lostIffSacked_kinds (h : Reported t.scoreboard) (hu : t.Unwrapped seqNum) :
    LostIffSacked t seqNum ↔ ¬ t.NearMissed seqNum ∧ ¬ t.SmallMissed seqNum ∧ ¬ t.FarTaken seqNum := by
  have hsmss := hu.smss
  unfold LostIffSacked Tcb.NearMissed Tcb.SmallMissed Tcb.FarTaken
  rw [isLost_iff h, enoughSacked_iff h, hu.enoughInBlocks_iff, hu.beginsFar_iff]
  unfold Tcb.Reaches
  rw [hu.reachesFar_iff]
  by_cases hfar : seqNum.toNat + t.getMss.toNat ≤ (t.scoreboard.headD ⟨0, 0⟩).leftEdge.toNat
  · obtain ⟨hblocks, hoctets⟩ := Tcb.Unwrapped.behind_of_beginsFar h hu hfar
    have hwhole : t.getMss.toNat * wholeSegments t.getMss.toUInt32 t.scoreboard ≤
        (t.scoreboard.map SackData.octets).sum := mul_wholeSegments_le t.getMss.toUInt32 t.scoreboard
    rw [hblocks, hoctets]
    by_cases hright : ∃ b ∈ t.scoreboard, seqNum.toNat + 2 * t.getMss.toNat < b.rightEdge.toNat
    · -- the code says lost
      have hnot : ¬ ∀ b ∈ t.scoreboard, b.rightEdge.toNat ≤ seqNum.toNat + 2 * t.getMss.toNat := by
        obtain ⟨b, hb, hlt⟩ := hright
        exact fun hall => absurd (hall b hb) (Nat.not_le.2 hlt)
      simp only [hfar, hright, hnot, or_true, and_self, true_and, false_and, not_false_eq_true,
        Nat.not_lt.2 hfar, true_iff]
      omega
    · -- the blocks are shorter than a segment together, so the code says not lost
      have hall : ∀ b ∈ t.scoreboard, b.rightEdge.toNat ≤ seqNum.toNat + 2 * t.getMss.toNat := by
        intro b hb
        by_contra hlt
        exact hright ⟨b, hb, Nat.not_le.1 hlt⟩
      have hshort := Tcb.Unwrapped.octets_of_short h hu hfar hall
      have hfew : ¬ 3 ≤ wholeSegments t.getMss.toUInt32 t.scoreboard := by
        intro hthree
        have hmul := Nat.mul_le_mul_left t.getMss.toNat hthree
        omega
      simp only [hfar, hright, hfew, or_self, and_false, true_and, false_and, not_false_eq_true, and_true,
        Nat.not_lt.2 hfar, false_iff]
      have hdone : (3 ≤ t.blockCount ∨ 2 * t.getMss.toNat < (t.scoreboard.map SackData.octets).sum) ↔
          3 ≤ t.blockCount := by omega
      rw [hdone, not_and]
      exact ⟨fun hno _ => hno, fun hno => hno hall⟩
  · simp only [hfar, false_and, not_false_eq_true, and_true, false_iff, Nat.not_le.1 hfar, true_and]

/-- **The code is right exactly in the cases of `Judged`**; where no number wraps, on all scoreboards but those of
the three kinds. -/
theorem lostIffSacked_iff_judged (t : Tcb) (seqNum : UInt32) (h : Reported t.scoreboard) :
    (LostIffSacked t seqNum ↔ Judged t seqNum) ∧
      (t.Unwrapped seqNum → (LostIffSacked t seqNum ↔
        ¬ t.NearMissed seqNum ∧ ¬ t.SmallMissed seqNum ∧ ¬ t.FarTaken seqNum)) :=
  ⟨lostIffSacked_judged h, lostIffSacked_kinds h⟩

/-- Three blocks that begin less than a segment of 1000 octets above the number 1000. -/
def nearBlocks : Tcb :=
  { Tcb.calloc .reno with
    congestion.smss := 1000
    scoreboard := [⟨1500, 1600⟩, ⟨1700, 1800⟩, ⟨1900, 2000⟩, ⟨0, 0⟩] }

theorem nearBlocks_reported : Reported nearBlocks.scoreboard :=
  ⟨3, by decide, by decide, by decide⟩

/-- The first kind: three blocks lie above the number, and the first one begins near it. -/
theorem lostIffSacked_iff_judged_near :
    (LostIffSacked nearBlocks 1000 ↔ Judged nearBlocks 1000) ∧
      (LostIffSacked nearBlocks 1000 ↔ ¬ nearBlocks.NearMissed 1000 ∧ ¬ nearBlocks.SmallMissed 1000 ∧
        ¬ nearBlocks.FarTaken 1000) ∧ nearBlocks.NearMissed 1000 :=
  have h := lostIffSacked_iff_judged nearBlocks 1000 nearBlocks_reported
  ⟨h.1, h.2 ⟨by decide, by decide, by decide⟩, by decide⟩

/-- The three blocks are not seen. -/
theorem near_blocks_missed : ¬ ∀ (t : Tcb) (seqNum : UInt32), Reported t.scoreboard →
    LostIffSacked t seqNum := by
  intro hall
  have hlost := (hall nearBlocks 1000 nearBlocks_reported).2 (.inl (by decide))
  exact absurd hlost (by decide)

end NetSim.Tcp
