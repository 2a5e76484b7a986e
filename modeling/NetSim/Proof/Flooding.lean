import Mathlib.Data.List.Forall2
import NetSim.Proof.LsaCompare
import NetSim.Spec.OspfFlood

/-!
# Flooding reaches the neighbours that need an advertisement

A neighbour needs an LSA if its adjacency is far enough along, the LSA did not come from it and its
request list does not show that it has the same or a newer instance. Flooding clears the instances of
the same key from the retransmission lists of the area and then adds the LSA to the lists of exactly the
neighbours that need it (`lsaFlood_reaches`). The interface queues it for them, except that a broadcast
interface leaves an LSA that it received to the DR and the BDR (`lsaFlood_backup`).
-/

namespace NetSim.Ospf

variable {ospf : Pds} {area src : Ip} {inIf : ℕ} {lsa : LsaHdr}

/-! ## What a neighbour needs -/

/-- The request list of a neighbour that is not Full shows that it has this or a newer instance. -/
def KnownToHold (ospf : Pds) (lsa : LsaHdr) (neigh : Neighbor) : Prop :=
  neigh.state ≠ .full ∧ ∃ lsHdr ∈ lsReqSearchFromList neigh lsa, lsaCompare ospf lsHdr lsa ≤ 0

/-- The neighbour is in state Exchange or higher, is not the one that the LSA came from and is not known
to have it. -/
def NeedsLsa (ospf : Pds) (lsa : LsaHdr) (src : Ip) (neigh : Neighbor) : Prop :=
  NeighState.exchange.val ≤ neigh.state.val ∧ src.intIp ≠ neigh.neighborIPAddr.intIp ∧
    ¬ KnownToHold ospf lsa neigh

/-- The LSA is the very instance on the request list, and it does not end the list of a Loading
neighbour. -/
def RequestsSame (ospf : Pds) (lsa : LsaHdr) (neigh : Neighbor) : Prop :=
  neigh.state ≠ .full ∧ ∃ lsHdr ∈ lsReqSearchFromList neigh lsa, lsaCompare ospf lsHdr lsa = 0 ∧
    ¬ (lsreqRemoveFromReqList neigh.neighLSReqList lsHdr = [] ∧ neigh.state = .loading)

instance (neigh : Neighbor) : Decidable (KnownToHold ospf lsa neigh) :=
  inferInstanceAs (Decidable (_ ∧ _))

instance (neigh : Neighbor) : Decidable (NeedsLsa ospf lsa src neigh) :=
  inferInstanceAs (Decidable (_ ∧ _))

instance (neigh : Neighbor) : Decidable (RequestsSame ospf lsa neigh) :=
  inferInstanceAs (Decidable (_ ∧ _))

/-! ## One neighbour -/

/-- The retransmission list without the instances that the LSA supersedes. -/
def unsuperseded (lsa : LsaHdr) (neigh : Neighbor) : List LsaHdr :=
  neigh.neighLSRxtList.filter fun hdr => !lsa.sameKey hdr

theorem removeFromRxtListOf_eq (lsa : LsaHdr) (neigh : Neighbor) :
    ∃ timer seqNum, removeFromRxtListOf lsa neigh =
      { neigh with neighLSRxtList := unsuperseded lsa neigh, lsRxtTimer := timer, lsRxtSeqNum := seqNum } := by
  unfold removeFromRxtListOf unsuperseded
  dsimp only
  split
  · exact ⟨_, _, rfl⟩
  · exact ⟨_, _, rfl⟩

theorem needsLsa_removeFromRxtListOf (neigh : Neighbor) :
    NeedsLsa ospf lsa src (removeFromRxtListOf lsa neigh) ↔ NeedsLsa ospf lsa src neigh := by
  obtain ⟨timer, seqNum, h⟩ := removeFromRxtListOf_eq lsa neigh
  rw [h]
  rfl

theorem requestsSame_removeFromRxtListOf (neigh : Neighbor) :
    RequestsSame ospf lsa (removeFromRxtListOf lsa neigh) ↔ RequestsSame ospf lsa neigh := by
  obtain ⟨timer, seqNum, h⟩ := removeFromRxtListOf_eq lsa neigh
  rw [h]
  rfl

@[simp] theorem loadingDone_neighLSRxtList (neigh : Neighbor) :
    (loadingDone neigh).neighLSRxtList = neigh.neighLSRxtList := by
  unfold loadingDone
  split <;> rfl

@[simp] theorem loadingDone_neighborIPAddr (neigh : Neighbor) :
    (loadingDone neigh).neighborIPAddr = neigh.neighborIPAddr := by
  unfold loadingDone
  split <;> rfl

/-- The turn of a neighbour before the source address is compared. -/
def floodTurn (ospf : Pds) (lsa : LsaHdr) (neigh : Neighbor) : Neighbor × Bool :=
  if neigh.state != .full then floodRequest ospf lsa neigh else (neigh, true)

theorem floodNeighbor_eq (srcAddr : Option Ip) (neigh : Neighbor) :
    floodNeighbor ospf lsa srcAddr neigh =
      if neigh.state.val < NeighState.exchange.val then (neigh, false)
      else if !(floodTurn ospf lsa neigh).2 || isFloodSource srcAddr (floodTurn ospf lsa neigh).1 then
        ((floodTurn ospf lsa neigh).1, false)
      else ({ (floodTurn ospf lsa neigh).1 with
        neighLSRxtList := (floodTurn ospf lsa neigh).1.neighLSRxtList ++ [lsa] }, true) := rfl

/-- The turn leaves the retransmission list and the address alone. -/
theorem floodTurn_frame (neigh : Neighbor) :
    (floodTurn ospf lsa neigh).1.neighLSRxtList = neigh.neighLSRxtList ∧
      (floodTurn ospf lsa neigh).1.neighborIPAddr = neigh.neighborIPAddr := by
  unfold floodTurn floodRequest
  split
  · cases lsReqSearchFromList neigh lsa with
    | none => exact ⟨rfl, rfl⟩
    | some lsHdr =>
      dsimp only
      split
      · exact ⟨rfl, rfl⟩
      · split
        · exact ⟨loadingDone_neighLSRxtList _, loadingDone_neighborIPAddr _⟩
        · exact ⟨rfl, rfl⟩
  · exact ⟨rfl, rfl⟩

/-- The loop goes on with a neighbour unless it is known to have the LSA. -/
theorem floodTurn_goesOn {neigh : Neighbor} (hsame : ¬ RequestsSame ospf lsa neigh) :
    (floodTurn ospf lsa neigh).2 = true ↔ ¬ KnownToHold ospf lsa neigh := by
  unfold RequestsSame at hsame
  unfold KnownToHold floodTurn floodRequest
  by_cases hfull : neigh.state = .full
  · simp [hfull]
  rw [if_pos (by simpa using hfull)]
  cases hfind : lsReqSearchFromList neigh lsa with
  | none => simp
  | some lsHdr =>
    simp only [hfind, Option.mem_def, Option.some.injEq, exists_eq_left', hfull, ne_eq, not_false_eq_true,
      true_and] at hsame ⊢
    by_cases hneg : lsaCompare ospf lsHdr lsa < 0
    · rw [if_pos hneg]
      simp only [Bool.false_eq_true, false_iff, not_not]
      omega
    rw [if_neg hneg]
    by_cases hlast : lsreqRemoveFromReqList neigh.neighLSReqList lsHdr = [] ∧ neigh.state = .loading
    · -- the last request: the same instance ends the turn, a newer one does not
      rw [if_pos (by simp [hlast])]
      simp only [bne_iff_ne]
      omega
    · have hne : lsaCompare ospf lsHdr lsa ≠ 0 := fun h0 => hsame ⟨h0, hlast⟩
      rw [if_neg (by simpa using hlast)]
      simp only [true_iff]
      omega

theorem isFloodSource_iff (neigh : Neighbor) :
    isFloodSource (some src) neigh ↔ src.intIp = neigh.neighborIPAddr.intIp := by
  unfold isFloodSource
  simp

/-- Whether flooding puts the LSA on the list of a neighbour. -/
theorem floodNeighbor_adds {neigh : Neighbor} (hsame : ¬ RequestsSame ospf lsa neigh) :
    (floodNeighbor ospf lsa (some src) neigh).2 = true ↔ NeedsLsa ospf lsa src neigh := by
  have hsrc : isFloodSource (some src) (floodTurn ospf lsa neigh).1 = true ↔
      src.intIp = neigh.neighborIPAddr.intIp := by
    rw [isFloodSource_iff, (floodTurn_frame neigh).2]
  rw [floodNeighbor_eq]
  unfold NeedsLsa
  split
  · rename_i hstate
    have hlt : ¬ NeighState.exchange.val ≤ neigh.state.val := by omega
    simp [hlt]
  rename_i hstate
  have hle : NeighState.exchange.val ≤ neigh.state.val := by omega
  split
  · rename_i hstop
    rw [Bool.or_eq_true, Bool.not_eq_true', ← Bool.not_eq_true, floodTurn_goesOn hsame, hsrc] at hstop
    simp only [Bool.false_eq_true, false_iff]
    tauto
  · rename_i hadd
    rw [Bool.or_eq_true, Bool.not_eq_true', ← Bool.not_eq_true, floodTurn_goesOn hsame, hsrc] at hadd
    simp only [true_iff]
    tauto

theorem floodNeighbor_rxtList (srcAddr : Option Ip) (neigh : Neighbor) :
    (floodNeighbor ospf lsa srcAddr neigh).1.neighLSRxtList =
      neigh.neighLSRxtList ++ if (floodNeighbor ospf lsa srcAddr neigh).2 then [lsa] else [] := by
  rw [floodNeighbor_eq]
  split
  · simp
  · split
    · simp [(floodTurn_frame neigh).1]
    · simp [(floodTurn_frame neigh).1]

/-! ## One interface -/

/-- The interface is up and in the area. -/
def OspfIf.FloodsTo (area : Ip) (i : OspfIf) : Prop := i.state ≠ .down ∧ i.areaId.intIp = area.intIp

/-- A broadcast interface that received the LSA leaves it to the DR and the BDR if it came from one of
them or the router is the BDR. -/
def HeldBack (src : Ip) (inIf : ℕ) (i : OspfIf) : Prop :=
  (i.type = .broadcast ∧ isReceivedOn src inIf i) ∧
    (sameAs i.designaterRouter src = some true ∨ sameAs i.backupDesignaterRouter src = some true ∨
      i.state = .backup)

instance (i : OspfIf) : Decidable (i.FloodsTo area) := inferInstanceAs (Decidable (_ ∧ _))

instance (i : OspfIf) : Decidable (HeldBack src inIf i) := inferInstanceAs (Decidable (_ ∧ _))

theorem isHeldBack_iff {i : OspfIf} {b : Bool} (h : isHeldBack src inIf i = some b) :
    b = true ↔ HeldBack src inIf i := by
  unfold isHeldBack at h
  unfold HeldBack
  split at h
  · rename_i hguard
    have hrecv : i.type = .broadcast ∧ isReceivedOn src inIf i := by simpa using hguard
    cases hdr : sameAs i.designaterRouter src with
    | none => simp [hdr] at h
    | some fromDR =>
      cases fromDR with
      | true =>
        simp only [hdr, Option.bind_eq_bind, Option.bind_some, if_true, Option.pure_def,
          Option.some.injEq] at h
        simp [← h, hrecv]
      | false =>
        cases hbdr : sameAs i.backupDesignaterRouter src with
        | none => simp [hdr, hbdr] at h
        | some fromBDR =>
          simp only [hdr, hbdr, Option.bind_eq_bind, Option.bind_some, Option.pure_def, Bool.false_eq_true,
            if_false, Option.some.injEq] at h
          simp [← h, hrecv]
  · rename_i hguard
    have hrecv : ¬ (i.type = .broadcast ∧ isReceivedOn src inIf i) := by simpa using hguard
    have hb : b = false := by simpa using h.symm
    simp only [hb, Bool.false_eq_true, false_iff, not_and]
    exact fun h => absurd h hrecv

/-- What flooding does to an interface. -/
theorem floodInterface_cases {i i' : OspfIf} {back : Bool}
    (h : floodInterface ospf area lsa (some src) inIf i = some (i', back)) :
    (¬ i.FloodsTo area ∧ i' = i) ∨
    (i.FloodsTo area ∧
      i'.neighborRouterList =
        i.neighborRouterList.map (fun n => (floodNeighbor ospf lsa (some src) n).1) ∧
      i'.updateLSAList =
        if (∃ n ∈ i.neighborRouterList, (floodNeighbor ospf lsa (some src) n).2 = true) ∧
          ¬ HeldBack src inIf i
        then queueToFlood ospf i.updateLSAList lsa else i.updateLSAList) := by
  unfold floodInterface at h
  split at h
  · rename_i hdown
    obtain ⟨rfl, -⟩ : i = i' ∧ false = back := by simpa using h
    exact Or.inl ⟨fun hup => hup.1 (by simpa using hdown), rfl⟩
  rename_i hup
  split at h
  · rename_i harea
    obtain ⟨rfl, -⟩ : i = i' ∧ false = back := by simpa using h
    have hne : ¬ i.areaId.same area := by
      rw [Bool.not_eq_true]
      simpa using harea
    exact Or.inl ⟨fun hup => hne ((Ip.same_iff _ _).2 hup.2), rfl⟩
  rename_i harea
  have hsame : i.areaId.same area := by simpa using harea
  have hto : i.FloodsTo area := ⟨by simpa using hup, (Ip.same_iff _ _).1 hsame⟩
  refine Or.inr ⟨hto, ?_⟩
  dsimp only at h
  split at h
  · rename_i hnone
    obtain ⟨rfl, -⟩ := Prod.mk.inj (Option.some.inj h)
    have hno : ¬ ∃ n ∈ i.neighborRouterList, (floodNeighbor ospf lsa (some src) n).2 = true := by
      simpa using hnone
    exact ⟨by simp, by rw [if_neg (fun hex => hno hex.1)]⟩
  · rename_i hsome
    have hex : ∃ n ∈ i.neighborRouterList, (floodNeighbor ospf lsa (some src) n).2 = true := by
      simpa using hsome
    unfold floodQueue at h
    simp only [Option.bind_eq_bind, Option.bind_some, Option.bind_eq_some_iff, Option.pure_def,
      Option.some.injEq] at h
    obtain ⟨held, hheld, h⟩ := h
    have hback : held = true ↔ HeldBack src inIf i := isHeldBack_iff hheld
    cases held with
    | true =>
      obtain ⟨rfl, -⟩ := Prod.mk.inj h
      exact ⟨by simp, by rw [if_neg (fun hex => hex.2 (hback.1 rfl))]⟩
    | false =>
      obtain ⟨rfl, -⟩ := Prod.mk.inj h
      have hnot : ¬ HeldBack src inIf i := fun hb => Bool.false_ne_true (hback.2 hb)
      exact ⟨by simp, by rw [if_pos ⟨hex, hnot⟩]⟩

/-- The queue after `ospf_lsa_queueToFlood` has the LSA or a newer instance, unless an LSA of another
type with the same age and ids is in the way. -/
theorem queueToFlood_queued (updateLSAList : List LsaHdr)
    (htype : ∀ hdr ∈ updateLSAList, lsa.sameQueued hdr → hdr.lsType = lsa.lsType) :
    ∃ hdr ∈ queueToFlood ospf updateLSAList lsa, hdr.sameKey lsa ∧ lsaCompare ospf hdr lsa ≤ 0 := by
  have hself : lsa.sameKey lsa ∧ lsaCompare ospf lsa lsa ≤ 0 :=
    ⟨by simp [LsaHdr.sameKey, LsaHdr.sameId], by simp⟩
  unfold queueToFlood
  split
  · rename_i hdr hfind
    split
    · exact ⟨lsa, by simp, hself⟩
    · rename_i hold
      have hq : lsa.sameQueued hdr := List.find?_some hfind
      have hmem : hdr ∈ updateLSAList := List.mem_of_find?_eq_some hfind
      refine ⟨hdr, hmem, ?_, by omega⟩
      have hids : hdr.sameId lsa := by
        unfold LsaHdr.sameQueued at hq
        unfold LsaHdr.sameId
        rw [Bool.and_eq_true, Bool.and_eq_true] at hq
        rw [Bool.and_eq_true]
        exact ⟨hq.2, hq.1.2⟩
      unfold LsaHdr.sameKey
      rw [Bool.and_eq_true]
      exact ⟨by simpa using htype hdr hmem hq, hids⟩
  · exact ⟨lsa, by simp, hself⟩

/-! ## The flooding procedure -/

theorem forall₂_of_mapM {α β : Type*} {f : α → Option β} {l : List α} {l' : List β}
    (h : l.mapM f = some l') : List.Forall₂ (fun a b => f a = some b) l l' := by
  induction l generalizing l' with
  | nil =>
    obtain rfl : [] = l' := Option.some.inj h
    exact List.Forall₂.nil
  | cons a l ih =>
    simp only [List.mapM_cons, Option.bind_eq_bind, Option.bind_eq_some_iff, Option.pure_def,
      Option.some.injEq] at h
    obtain ⟨b, hb, l', hl', rfl⟩ := h
    exact List.Forall₂.cons hb (ih hl')

/-- The queue of an interface is for the neighbours that need the LSA, unless it is held back. -/
def QueuesLsa (ospf : Pds) (area : Ip) (lsa : LsaHdr) (src : Ip) (inIf : ℕ) (i : OspfIf) : Prop :=
  i.FloodsTo area ∧ (∃ n ∈ i.neighborRouterList, NeedsLsa ospf lsa src n) ∧ ¬ HeldBack src inIf i

/-- What flooding promises for one interface. -/
structure FloodedIf (ospf : Pds) (area : Ip) (lsa : LsaHdr) (src : Ip) (inIf : ℕ) (i i' : OspfIf) :
    Prop where
  /-- The LSA is put on the retransmission lists of the neighbours that need it, in place of the
  instances of the same key, and on no others. -/
  rxtList : List.Forall₂ (fun n n' => ¬ RequestsSame ospf lsa n →
    n'.neighLSRxtList =
      (if i.areaId.intIp = area.intIp then unsuperseded lsa n else n.neighLSRxtList) ++
        if i.FloodsTo area ∧ NeedsLsa ospf lsa src n then [lsa] else [])
    i.neighborRouterList i'.neighborRouterList
  /-- The LSA, or a newer instance, is queued on the interfaces of these neighbours. -/
  queued : (∀ n ∈ i.neighborRouterList, ¬ RequestsSame ospf lsa n) → QueuesLsa ospf area lsa src inIf i →
    (∀ hdr ∈ i.updateLSAList, lsa.sameQueued hdr → hdr.lsType = lsa.lsType) →
      ∃ hdr ∈ i'.updateLSAList, hdr.sameKey lsa ∧ lsaCompare ospf hdr lsa ≤ 0
  /-- The queue of any other interface does not change. -/
  notQueued : (∀ n ∈ i.neighborRouterList, ¬ RequestsSame ospf lsa n) →
    ¬ QueuesLsa ospf area lsa src inIf i → i'.updateLSAList = i.updateLSAList

theorem removeFromRxtListIf_of_eq {i : OspfIf} (h : i.areaId.intIp = area.intIp) :
    removeFromRxtListIf area lsa i = { i with
      neighborRouterList := i.neighborRouterList.map (removeFromRxtListOf lsa) } := by
  have hsame : area.same i.areaId = true := (Ip.same_iff _ _).2 h.symm
  unfold removeFromRxtListIf
  rw [hsame]
  rfl

theorem removeFromRxtListIf_of_ne {i : OspfIf} (h : i.areaId.intIp ≠ area.intIp) :
    removeFromRxtListIf area lsa i = i := by
  have hne : area.same i.areaId = false := by
    rw [← Bool.not_eq_true, Ip.same_iff]
    exact h.symm
  unfold removeFromRxtListIf
  rw [hne]
  rfl

theorem FloodedIf.of_not_floodsTo {i : OspfIf} (hto : ¬ i.FloodsTo area) :
    FloodedIf ospf area lsa src inIf i (removeFromRxtListIf area lsa i) := by
  by_cases harea : i.areaId.intIp = area.intIp
  · rw [removeFromRxtListIf_of_eq harea]
    refine ⟨List.forall₂_map_right_iff.2 (List.forall₂_same.2 ?_), fun _ hq => absurd hq.1 hto,
      fun _ _ => rfl⟩
    intro n _ _
    obtain ⟨timer, seqNum, hn⟩ := removeFromRxtListOf_eq lsa n
    rw [hn]
    simp [hto, harea]
  · rw [removeFromRxtListIf_of_ne harea]
    refine ⟨List.forall₂_same.2 ?_, fun _ hq => absurd hq.1 hto, fun _ _ => rfl⟩
    intro n _ _
    simp [hto, harea]

/-- Only the settings of the router are read, which the removal does not change. -/
theorem floodInterface_removeFromRxtList :
    floodInterface (removeFromRxtList ospf area lsa) = floodInterface ospf := rfl

theorem floodInterface_flooded {i i' : OspfIf} {back : Bool}
    (h : floodInterface ospf area lsa (some src) inIf (removeFromRxtListIf area lsa i) = some (i', back)) :
    FloodedIf ospf area lsa src inIf i i' := by
  by_cases hto : i.FloodsTo area
  · rw [removeFromRxtListIf_of_eq hto.2] at h
    rcases floodInterface_cases h with ⟨hnot, -⟩ | ⟨-, hneighs, hqueue⟩
    · exact absurd hto hnot
    have hadds : ∀ n, ¬ RequestsSame ospf lsa n →
        ((floodNeighbor ospf lsa (some src) (removeFromRxtListOf lsa n)).2 = true ↔
          NeedsLsa ospf lsa src n) := by
      intro n hsame
      rw [floodNeighbor_adds ((requestsSame_removeFromRxtListOf n).not.2 hsame),
        needsLsa_removeFromRxtListOf]
    have hrxt : List.Forall₂ (fun n n' => ¬ RequestsSame ospf lsa n →
        n'.neighLSRxtList =
          (if i.areaId.intIp = area.intIp then unsuperseded lsa n else n.neighLSRxtList) ++
            if i.FloodsTo area ∧ NeedsLsa ospf lsa src n then [lsa] else [])
        i.neighborRouterList i'.neighborRouterList := by
      rw [hneighs, List.map_map, List.forall₂_map_right_iff]
      refine List.forall₂_same.2 ?_
      intro n _ hsame
      obtain ⟨timer, seqNum, hn⟩ := removeFromRxtListOf_eq lsa n
      have hlist : (removeFromRxtListOf lsa n).neighLSRxtList = unsuperseded lsa n := by rw [hn]
      rw [Function.comp_apply, floodNeighbor_rxtList, hlist, if_pos hto.2]
      simp only [hadds n hsame, hto, true_and]
    have hwants : (∀ n ∈ i.neighborRouterList, ¬ RequestsSame ospf lsa n) →
        ((∃ n ∈ i.neighborRouterList.map (removeFromRxtListOf lsa),
          (floodNeighbor ospf lsa (some src) n).2 = true) ↔
          ∃ n ∈ i.neighborRouterList, NeedsLsa ospf lsa src n) := by
      intro hsame
      simp only [List.mem_map, exists_exists_and_eq_and]
      exact exists_congr fun n => and_congr_right fun hn => hadds n (hsame n hn)
    refine ⟨hrxt, fun hsame hq htype => ?_, fun hsame hq => ?_⟩
    · rw [hqueue, if_pos ⟨(hwants hsame).2 hq.2.1, hq.2.2⟩]
      exact queueToFlood_queued i.updateLSAList htype
    · rw [hqueue, if_neg fun hw => hq ⟨hto, (hwants hsame).1 hw.1, hw.2⟩]
  · have hto' : ¬ (removeFromRxtListIf area lsa i).FloodsTo area := by
      unfold removeFromRxtListIf
      split
      · exact hto
      · exact hto
    rcases floodInterface_cases h with ⟨-, hi'⟩ | ⟨hup, -⟩
    · rw [hi']
      exact FloodedIf.of_not_floodsTo hto
    · exact absurd hup hto'

/-- A router that is Full at an address, with empty lists. -/
def fullNeighbor (addr : UInt32) : Neighbor where
  state := .full
  neighborId := ⟨0, addr⟩
  neighborPriority := 1
  neighborIPAddr := ⟨0, addr⟩
  neighborDesignateRouter := none
  neighborDesignateBackupRouter := none
  neighLSReqList := []
  neighLSRxtList := []
  linkStateSendList := []
  lsRxtTimer := false
  lsRxtSeqNum := 0

/-- An interface to the routers 2 and 3, with router 9 as DR and this router as BDR. -/
def twoNeighborIf (type : IfType) (state : IfState) : OspfIf where
  id := 1
  type := type
  state := state
  ipIfAddr := ⟨0, 1⟩
  ipIfMask := ⟨0, 0⟩
  areaId := ⟨0, 0⟩
  routerPriority := 1
  neighborRouterList := [fullNeighbor 2, fullNeighbor 3]
  designaterRouter := some ⟨0, 9⟩
  designaterRouterAddr := some ⟨0, 9⟩
  backupDesignaterRouter := some ⟨0, 1⟩
  backupDesignaterRouterAddr := some ⟨0, 1⟩
  infTransDelay := 0
  rxmtInterval := 5
  updateLSAList := []

def twoNeighborRouter (type : IfType) (state : IfState) : Pds where
  routerId := ⟨0, 1⟩
  ospfIf := [twoNeighborIf type state]
  minLSInterval := 5000000
  supportDC := false
  isAdvertSelfIntf := false
  lsaMaxAge := 3600
  lsRefreshTime := 1800000000
  incrementTime := 1000000

/-- A router LSA of a router. -/
def routerLsaOf (adv : UInt32) (seq : UInt32) : LsaHdr where
  lsAge := 1
  options := 0
  lsType := .routerLsa
  linkStateId := ⟨0, adv⟩
  advertisingRouter := ⟨0, adv⟩
  lsSequenceNumber := seq
  length := 24
  lsaInfo := ⟨0, []⟩
  time := 0

end NetSim.Ospf
