import NetSim.Lib.Machine
import NetSim.Proof.Flooding
import NetSim.Spec.OspfUpdate

/-!
# Reliable flooding to one neighbour

Floods, acknowledgements and retransmission timers change the retransmission list of a neighbour. `owed`
is what the list is for: the LSAs put on it that are not acknowledged, sent back or superseded.

* `owed_kept` — in a run whose steps avoid the ways in which the list and its timer part, everything
  that is owed stays on the list with a timer pending.
-/

namespace NetSim.Ospf

variable {ospf : Pds} {thisInterface : OspfIf} {neigh neigh' : Neighbor} {lsa l : LsaHdr} {src : Option Ip}
  {now : ℚ}

/-! ## One neighbour and its timers -/

/-- A neighbour, the numbers of its pending retransmission timers, and the LSAs that are owed to it. -/
structure RxtState where
  neigh : Neighbor
  timers : List UInt32
  owed : List LsaHdr
deriving DecidableEq, Repr

inductive RxtEvent where
  | flood (lsa : LsaHdr) (srcAddr : Option Ip)
  | addMaxAge (now : ℚ) (lsa : LsaHdr)
  | timer (now : ℚ) (seqNum : UInt32)
  | ack (lsaHeader : List LsaHdr)
  | sentBack (lsa : LsaHdr)
  | down

/-- A neighbour without retransmissions, and what happens to it. -/
def rxtMachine (ospf : Pds) (thisInterface : OspfIf) : Machine RxtState RxtEvent where
  init s := s.neigh.neighLSRxtList = [] ∧ s.neigh.lsRxtTimer = false ∧ s.timers = [] ∧ s.owed = []
  step s
    | .flood lsa srcAddr =>
      let added := (floodNeighbor ospf lsa srcAddr (removeFromRxtListOf lsa s.neigh)).2
      some { s with
        neigh := floodOne ospf lsa srcAddr s.neigh
        owed := (s.owed.filter fun l => !lsa.sameKey l) ++ if added then [lsa] else [] }
    | .addMaxAge now lsa =>
      if s.neigh.state == .exchange then
        let out := neighborAddToRxtList now s.neigh lsa
        some ⟨out.1, s.timers ++ out.2.toList, s.owed ++ [{ lsa with time := now }]⟩
      else none
    | .timer now seqNum =>
      if s.timers.contains seqNum then
        (rxmtTimer ospf thisInterface now s.neigh seqNum).map fun out =>
          ⟨out.1, s.timers.erase seqNum ++ out.2.2.toList, s.owed⟩
      else none
    | .ack lsaHeader => some { s with
        neigh := handleLSAck ospf s.neigh lsaHeader
        owed := s.owed.filter fun l => !lsaHeader.any fun h => compareToListMem ospf h l }
    | .sentBack lsa => some { s with
        neigh := impliedAck ospf lsa s.neigh
        owed := s.owed.filter fun l => !compareToListMem ospf lsa l }
    | .down => some { s with neigh := neighborDown s.neigh, owed := [] }

/-- Everything owed is on the list, and while the list has entries a timer is pending. -/
structure Keeps (s : RxtState) : Prop where
  owed : ∀ l ∈ s.owed, l ∈ s.neigh.neighLSRxtList
  timed : s.neigh.neighLSRxtList ≠ [] → s.neigh.lsRxtTimer = true
  pending : s.neigh.lsRxtTimer = true → s.neigh.lsRxtSeqNum ∈ s.timers

/-! ## Conditions on the steps -/

/-- An LSA that satisfies the last request of a neighbour in Loading. -/
def EndsLoading (ospf : Pds) (lsa : LsaHdr) (neigh : Neighbor) : Prop :=
  neigh.state = .loading ∧ ∃ hdr, lsReqSearchFromList neigh lsa = some hdr ∧ 0 ≤ lsaCompare ospf hdr lsa ∧
    lsreqRemoveFromReqList neigh.neighLSReqList hdr = []

/-- A flood that adds to the list finds another entry on it, and one that ends the Loading of the
neighbour finds none. -/
def FloodOk (ospf : Pds) (lsa : LsaHdr) (src : Option Ip) (neigh : Neighbor) : Prop :=
  let others := ∃ l ∈ neigh.neighLSRxtList, lsa.sameKey l = false
  (others → ¬ EndsLoading ospf lsa neigh) ∧
    (others ∨ neigh.state.val < NeighState.exchange.val ∨ isFloodSource src neigh = true ∨
      neigh.state ≠ .full ∧ ∃ hdr, lsReqSearchFromList neigh lsa = some hdr ∧
        (lsaCompare ospf hdr lsa < 0 ∨ lsaCompare ospf hdr lsa = 0 ∧ EndsLoading ospf lsa neigh))

/-- An expiry that is not an old one finds nothing on the list that is due and can be sent. -/
def TimerOk (thisInterface : OspfIf) (now : ℚ) (seqNum : UInt32) (neigh : Neighbor) : Prop :=
  seqNum = neigh.lsRxtSeqNum →
    ∀ lsa, neigh.neighLSRxtList.find? (fun l => !decide (now - l.time < thisInterface.rxmtInterval)) = some lsa →
      getMaxPayloadSize < lsa.length.toNat

/-- The condition on a step. -/
def RxtOk (ospf : Pds) (thisInterface : OspfIf) (s : RxtState) : RxtEvent → Prop
  | .flood lsa src => FloodOk ospf lsa src s.neigh
  | .timer now seqNum => TimerOk thisInterface now seqNum s.neigh
  | .sentBack lsa => ∀ l ∈ s.neigh.neighLSRxtList, lsaCompare ospf l lsa = 0
  | _ => True

/-! ## Floods -/

/-- What superseding leaves. -/
theorem removeFromRxtListOf_spec (lsa : LsaHdr) (neigh : Neighbor) :
    ∃ timer seqNum, removeFromRxtListOf lsa neigh =
        { neigh with
          neighLSRxtList := neigh.neighLSRxtList.filter fun hdr => !lsa.sameKey hdr
          lsRxtTimer := timer
          lsRxtSeqNum := seqNum } ∧
      ((∃ l ∈ neigh.neighLSRxtList, lsa.sameKey l = false) →
        timer = neigh.lsRxtTimer ∧ seqNum = neigh.lsRxtSeqNum) ∧
      ((¬ ∃ l ∈ neigh.neighLSRxtList, lsa.sameKey l = false) → timer = false) := by
  have hothers : (neigh.neighLSRxtList.filter fun hdr => !lsa.sameKey hdr).isEmpty = true ↔
      ¬ ∃ l ∈ neigh.neighLSRxtList, lsa.sameKey l = false := by
    rw [List.isEmpty_iff, List.filter_eq_nil_iff]
    push Not
    refine forall_congr' fun l => forall_congr' fun _ => ?_
    cases lsa.sameKey l <;> simp
  unfold removeFromRxtListOf
  dsimp only
  split
  · rename_i h
    rw [Bool.and_eq_true, hothers] at h
    exact ⟨false, neigh.lsRxtSeqNum + 1, rfl, fun ho => absurd ho h.1, fun _ => rfl⟩
  · rename_i h
    refine ⟨neigh.lsRxtTimer, neigh.lsRxtSeqNum, rfl, fun _ => ⟨rfl, rfl⟩, fun ho => ?_⟩
    rw [hothers.2 ho, Bool.true_and] at h
    exact Bool.eq_false_iff.2 h

/-- A request list does not touch the retransmission list, and its end the timer's number only. -/
theorem floodRequest_spec (ospf : Pds) (lsa : LsaHdr) (neigh : Neighbor) :
    (floodRequest ospf lsa neigh).1.neighLSRxtList = neigh.neighLSRxtList ∧
      (floodRequest ospf lsa neigh).1.lsRxtTimer = neigh.lsRxtTimer ∧
      (floodRequest ospf lsa neigh).1.neighborIPAddr = neigh.neighborIPAddr ∧
      (¬ EndsLoading ospf lsa neigh →
        (floodRequest ospf lsa neigh).1.lsRxtSeqNum = neigh.lsRxtSeqNum) ∧
      ((∃ hdr, lsReqSearchFromList neigh lsa = some hdr ∧
        (lsaCompare ospf hdr lsa < 0 ∨ lsaCompare ospf hdr lsa = 0 ∧ EndsLoading ospf lsa neigh)) →
          (floodRequest ospf lsa neigh).2 = false) := by
  unfold floodRequest
  cases hsearch : lsReqSearchFromList neigh lsa with
  | none =>
    refine ⟨rfl, rfl, rfl, fun _ => rfl, ?_⟩
    rintro ⟨hdr, hhdr, -⟩
    cases hhdr
  | some hdr =>
    dsimp only
    by_cases hold : lsaCompare ospf hdr lsa < 0
    · rw [if_pos hold]
      exact ⟨rfl, rfl, rfl, fun _ => rfl, fun _ => rfl⟩
    rw [if_neg hold]
    by_cases hlast : ((lsreqRemoveFromReqList neigh.neighLSReqList hdr).isEmpty && neigh.state == .loading) = true
    · rw [if_pos hlast]
      rw [Bool.and_eq_true, List.isEmpty_iff, beq_iff_eq] at hlast
      have hends : EndsLoading ospf lsa neigh := ⟨hlast.2, hdr, hsearch, by omega, hlast.1⟩
      unfold loadingDone
      refine ⟨?_, ?_, ?_, fun hno => absurd hends hno, ?_⟩
      · split <;> rfl
      · split <;> rfl
      · split <;> rfl
      · rintro ⟨hdr', hhdr', hlt | ⟨heq, -⟩⟩
        · obtain rfl := Option.some.inj hhdr'
          exact absurd hlt hold
        · obtain rfl := Option.some.inj hhdr'
          rw [heq]
          rfl
    · rw [if_neg hlast]
      refine ⟨rfl, rfl, rfl, fun _ => rfl, ?_⟩
      rintro ⟨hdr', hhdr', hlt | ⟨-, hload, hdr'', hhdr'', -, hnil⟩⟩
      · obtain rfl := Option.some.inj hhdr'
        exact absurd hlt hold
      · obtain rfl := Option.some.inj (hsearch.symm.trans hhdr'')
        refine absurd ?_ hlast
        rw [hnil, hload]
        rfl

/-- What a flood does to the list of a neighbour that it reaches. -/
theorem floodNeighbor_spec (ospf : Pds) (lsa : LsaHdr) (src : Option Ip) (neigh : Neighbor) :
    (floodNeighbor ospf lsa src neigh).1.neighLSRxtList =
        neigh.neighLSRxtList ++ (if (floodNeighbor ospf lsa src neigh).2 then [lsa] else []) ∧
      (floodNeighbor ospf lsa src neigh).1.lsRxtTimer = neigh.lsRxtTimer ∧
      (¬ EndsLoading ospf lsa neigh →
        (floodNeighbor ospf lsa src neigh).1.lsRxtSeqNum = neigh.lsRxtSeqNum) ∧
      ((neigh.state.val < NeighState.exchange.val ∨ isFloodSource src neigh = true ∨
        neigh.state ≠ .full ∧ ∃ hdr, lsReqSearchFromList neigh lsa = some hdr ∧
          (lsaCompare ospf hdr lsa < 0 ∨ lsaCompare ospf hdr lsa = 0 ∧ EndsLoading ospf lsa neigh)) →
        (floodNeighbor ospf lsa src neigh).2 = false) := by
  unfold floodNeighbor
  by_cases hstate : neigh.state.val < NeighState.exchange.val
  · rw [if_pos hstate]
    exact ⟨(List.append_nil _).symm, rfl, fun _ => rfl, fun _ => rfl⟩
  rw [if_neg hstate]
  by_cases hfull : neigh.state = .full
  · have hno : (neigh.state != .full) = false := by rw [hfull]; rfl
    rw [hno]
    simp only [Bool.false_eq_true, if_false, Bool.not_true, Bool.false_or]
    by_cases hsrc : isFloodSource src neigh = true
    · rw [if_pos hsrc]
      exact ⟨(List.append_nil _).symm, rfl, fun _ => rfl, fun _ => rfl⟩
    · rw [if_neg hsrc]
      refine ⟨rfl, rfl, fun _ => rfl, ?_⟩
      rintro (h | h | ⟨h, -⟩)
      · exact absurd h hstate
      · exact absurd h hsrc
      · exact absurd hfull h
  · have hyes : (neigh.state != .full) = true := bne_iff_ne.2 hfull
    rw [hyes]
    simp only [if_true]
    obtain ⟨hlist, htimer, haddr, hseq, hstop⟩ := floodRequest_spec ospf lsa neigh
    have hsource : isFloodSource src (floodRequest ospf lsa neigh).1 = isFloodSource src neigh := by
      unfold isFloodSource
      rw [haddr]
    rw [hsource]
    by_cases hgo : (!(floodRequest ospf lsa neigh).2 || isFloodSource src neigh) = true
    · rw [if_pos hgo]
      exact ⟨by rw [hlist]; exact (List.append_nil _).symm, htimer, hseq, fun _ => rfl⟩
    · rw [if_neg hgo]
      refine ⟨by rw [hlist]; rfl, htimer, hseq, ?_⟩
      rintro (h | h | ⟨-, h⟩)
      · exact absurd h hstate
      · exact absurd (by rw [h, Bool.or_true]) hgo
      · exact absurd (by rw [hstop h]; rfl) hgo

/-! ## Steps -/

section Steps

variable {s s' : RxtState}

theorem Keeps.flood (h : Keeps s) (hok : FloodOk ospf lsa src s.neigh)
    (hstep : (rxtMachine ospf thisInterface).step s (.flood lsa src) = some s') : Keeps s' := by
  obtain rfl := Option.some.inj hstep
  obtain ⟨timer, seqNum, hrem, hothers, hnone⟩ := removeFromRxtListOf_spec lsa s.neigh
  have hspec := floodNeighbor_spec ospf lsa src (removeFromRxtListOf lsa s.neigh)
  have hends : EndsLoading ospf lsa (removeFromRxtListOf lsa s.neigh) ↔ EndsLoading ospf lsa s.neigh := by
    rw [hrem]
    exact Iff.rfl
  have hsource : isFloodSource src (removeFromRxtListOf lsa s.neigh) = isFloodSource src s.neigh := by
    rw [hrem]
    rfl
  have hsearch : lsReqSearchFromList (removeFromRxtListOf lsa s.neigh) lsa =
      lsReqSearchFromList s.neigh lsa := by
    rw [hrem]
    rfl
  have hstate : (removeFromRxtListOf lsa s.neigh).state = s.neigh.state := by rw [hrem]
  rw [hends, hsource, hsearch, hstate] at hspec
  obtain ⟨hlist, htimer, hseq, hadded⟩ := hspec
  have hlist' : (floodOne ospf lsa src s.neigh).neighLSRxtList =
      (s.neigh.neighLSRxtList.filter fun hdr => !lsa.sameKey hdr) ++
        if (floodNeighbor ospf lsa src (removeFromRxtListOf lsa s.neigh)).2 then [lsa] else [] := by
    have hkept : (removeFromRxtListOf lsa s.neigh).neighLSRxtList =
        s.neigh.neighLSRxtList.filter fun hdr => !lsa.sameKey hdr := by rw [hrem]
    rw [← hkept]
    exact hlist
  have htimer' : (floodOne ospf lsa src s.neigh).lsRxtTimer = timer := by
    have hkept : (removeFromRxtListOf lsa s.neigh).lsRxtTimer = timer := by rw [hrem]
    rw [← hkept]
    exact htimer
  have hseq' : ¬ EndsLoading ospf lsa s.neigh → (floodOne ospf lsa src s.neigh).lsRxtSeqNum = seqNum := by
    intro hno
    have hkept : (removeFromRxtListOf lsa s.neigh).lsRxtSeqNum = seqNum := by rw [hrem]
    rw [← hkept]
    exact hseq hno
  refine ⟨?_, ?_, ?_⟩
  · intro l hl
    rw [hlist']
    rcases List.mem_append.1 hl with hl | hl
    · obtain ⟨hl, hkey⟩ := List.mem_filter.1 hl
      exact List.mem_append_left _ (List.mem_filter.2 ⟨h.owed l hl, hkey⟩)
    · exact List.mem_append_right _ hl
  · intro hne
    by_cases ho : ∃ l ∈ s.neigh.neighLSRxtList, lsa.sameKey l = false
    · rw [htimer', (hothers ho).1]
      obtain ⟨l, hl, -⟩ := ho
      exact h.timed (List.ne_nil_of_mem hl)
    · -- nothing is left and nothing is added
      have hnil : (s.neigh.neighLSRxtList.filter fun hdr => !lsa.sameKey hdr) = [] := by
        rw [List.filter_eq_nil_iff]
        intro l hl hkey
        rw [Bool.not_eq_true'] at hkey
        exact ho ⟨l, hl, hkey⟩
      refine absurd ?_ hne
      rw [hlist', hnil, hadded (hok.2.resolve_left ho)]
      rfl
  · intro ht
    rw [htimer'] at ht
    by_cases ho : ∃ l ∈ s.neigh.neighLSRxtList, lsa.sameKey l = false
    · rw [hseq' (hok.1 ho), (hothers ho).2]
      exact h.pending ((hothers ho).1 ▸ ht)
    · rw [hnone ho] at ht
      cases ht

theorem Keeps.addMaxAge (h : Keeps s)
    (hstep : (rxtMachine ospf thisInterface).step s (.addMaxAge now lsa) = some s') : Keeps s' := by
  simp only [rxtMachine] at hstep
  split at hstep
  · obtain rfl := Option.some.inj hstep
    unfold neighborAddToRxtList
    dsimp only
    cases htimer : s.neigh.lsRxtTimer with
    | true =>
      refine ⟨?_, fun _ => rfl, fun _ => List.mem_append_left _ (h.pending htimer)⟩
      intro l hl
      rcases List.mem_append.1 hl with hl | hl
      · exact List.mem_append_left _ (h.owed l hl)
      · exact List.mem_append_right _ hl
    | false =>
      refine ⟨?_, fun _ => rfl, fun _ => List.mem_append_right _ (List.mem_singleton_self _)⟩
      intro l hl
      rcases List.mem_append.1 hl with hl | hl
      · exact List.mem_append_left _ (h.owed l hl)
      · exact List.mem_append_right _ hl
  · cases hstep

/-- A scan that sends nothing leaves the list as it is. -/
theorem rxtScan_of_nothing (payload : ℕ) (sendList list : List LsaHdr)
    (hok : ∀ lsa, list.find? (fun l => !decide (now - l.time < thisInterface.rxmtInterval)) = some lsa →
      getMaxPayloadSize < payload + lsa.length.toNat) :
    (rxtScan ospf thisInterface now payload sendList list).kept = list := by
  induction list with
  | nil => rfl
  | cons lsa list ih =>
    unfold rxtScan
    by_cases hdue : now - lsa.time < thisInterface.rxmtInterval
    · rw [if_pos hdue]
      rw [List.find?_cons_of_neg (by simp [hdue])] at hok
      exact congrArg (lsa :: ·) (ih hok)
    · rw [if_neg hdue, if_pos (hok lsa (List.find?_cons_of_pos (by simp [hdue])))]

theorem Keeps.timer {seqNum : UInt32} (h : Keeps s) (hok : TimerOk thisInterface now seqNum s.neigh)
    (hstep : (rxtMachine ospf thisInterface).step s (.timer now seqNum) = some s') : Keeps s' := by
  simp only [rxtMachine] at hstep
  split at hstep
  swap
  · cases hstep
  obtain ⟨⟨neigh', sent, started⟩, hrxmt, rfl⟩ := Option.map_eq_some_iff.1 hstep
  unfold rxmtTimer at hrxmt
  by_cases hold : seqNum = s.neigh.lsRxtSeqNum
  swap
  · -- an old timer
    rw [if_pos (bne_iff_ne.2 hold)] at hrxmt
    obtain ⟨rfl, hrest⟩ := Prod.mk.inj (Option.some.inj hrxmt)
    obtain ⟨-, rfl⟩ := Prod.mk.inj hrest
    refine ⟨h.owed, h.timed, fun ht => ?_⟩
    exact List.mem_append_left _ ((List.mem_erase_of_ne fun heq => hold heq.symm).2 (h.pending ht))
  have hcur : ¬ (seqNum != s.neigh.lsRxtSeqNum) = true := by
    rw [bne_iff_ne, not_not]
    exact hold
  rw [if_neg hcur] at hrxmt
  unfold retransmitLSA at hrxmt
  split at hrxmt
  · rename_i hempty
    obtain ⟨rfl, -⟩ := Prod.mk.inj (Option.some.inj hrxmt)
    exact ⟨h.owed, fun hne => absurd (List.isEmpty_iff.1 hempty) hne, fun ht => by cases ht⟩
  · rename_i hempty
    have hnothing : ∀ lsa, s.neigh.neighLSRxtList.find?
        (fun l => !decide (now - l.time < thisInterface.rxmtInterval)) = some lsa →
          getMaxPayloadSize < 0 + lsa.length.toNat := by
      intro lsa hlsa
      have hlong := hok hold lsa hlsa
      omega
    have hkept : (rxtScan ospf thisInterface now 0 s.neigh.linkStateSendList s.neigh.neighLSRxtList).kept =
        s.neigh.neighLSRxtList := rxtScan_of_nothing 0 _ _ hnothing
    dsimp only at hrxmt
    rw [hkept] at hrxmt
    rw [if_neg hempty] at hrxmt
    split at hrxmt
    · obtain ⟨rfl, hrest⟩ := Prod.mk.inj (Option.some.inj hrxmt)
      obtain ⟨-, rfl⟩ := Prod.mk.inj hrest
      exact ⟨h.owed, fun _ => rfl, fun _ => List.mem_append_right _ (List.mem_singleton_self _)⟩
    · cases hrxmt

/-- **An acknowledgement removes only entries of the same key and instance.** -/
theorem mem_handleLSAck {lsaHeader : List LsaHdr} (hl : l ∈ neigh.neighLSRxtList)
    (hother : ∀ h ∈ lsaHeader, compareToListMem ospf h l = false) :
    l ∈ (handleLSAck ospf neigh lsaHeader).neighLSRxtList := by
  have hfold : ∀ (hs : List LsaHdr) (n : Neighbor), l ∈ n.neighLSRxtList →
      (∀ h ∈ hs, compareToListMem ospf h l = false) →
        l ∈ (hs.foldl (ackLsa ospf) n).neighLSRxtList := by
    intro hs
    induction hs with
    | nil => exact fun n hn _ => hn
    | cons x hs ih =>
      intro n hn hno
      refine ih _ ?_ fun h hh => hno h (List.mem_cons_of_mem x hh)
      have hx := hno x List.mem_cons_self
      exact (List.mem_eraseP_of_neg (by simp [hx])).2 hn
  have hmem := hfold lsaHeader neigh hl hother
  unfold handleLSAck
  split
  · exact hl
  · dsimp only
    split
    · exact hmem
    · exact hmem

/-- Acknowledgements leave the timer, or end it with the list. -/
theorem handleLSAck_timer (ospf : Pds) (neigh : Neighbor) (lsaHeader : List LsaHdr) :
    ((handleLSAck ospf neigh lsaHeader).neighLSRxtList ≠ [] → neigh.neighLSRxtList ≠ []) ∧
      ((handleLSAck ospf neigh lsaHeader).lsRxtTimer = neigh.lsRxtTimer ∧
          (handleLSAck ospf neigh lsaHeader).lsRxtSeqNum = neigh.lsRxtSeqNum ∨
        (handleLSAck ospf neigh lsaHeader).neighLSRxtList = [] ∧
          (handleLSAck ospf neigh lsaHeader).lsRxtTimer = false) := by
  have hfold : ∀ (hs : List LsaHdr) (n : Neighbor),
      (hs.foldl (ackLsa ospf) n).lsRxtTimer = n.lsRxtTimer ∧
        (hs.foldl (ackLsa ospf) n).lsRxtSeqNum = n.lsRxtSeqNum ∧
        ((hs.foldl (ackLsa ospf) n).neighLSRxtList ≠ [] → n.neighLSRxtList ≠ []) := by
    intro hs
    induction hs with
    | nil => exact fun n => ⟨rfl, rfl, id⟩
    | cons x hs ih =>
      intro n
      obtain ⟨h1, h2, h3⟩ := ih (ackLsa ospf n x)
      refine ⟨h1, h2, fun hne hnil => h3 hne ?_⟩
      unfold ackLsa
      rw [hnil]
      rfl
  obtain ⟨h1, h2, h3⟩ := hfold lsaHeader neigh
  unfold handleLSAck
  split
  · exact ⟨id, .inl ⟨rfl, rfl⟩⟩
  · dsimp only
    split
    · rename_i hend
      rw [Bool.and_eq_true, List.isEmpty_iff] at hend
      exact ⟨h3, .inr ⟨hend.1, rfl⟩⟩
    · exact ⟨h3, .inl ⟨h1, h2⟩⟩

theorem Keeps.ack {lsaHeader : List LsaHdr} (h : Keeps s)
    (hstep : (rxtMachine ospf thisInterface).step s (.ack lsaHeader) = some s') : Keeps s' := by
  obtain rfl := Option.some.inj hstep
  obtain ⟨hne, htimer⟩ := handleLSAck_timer ospf s.neigh lsaHeader
  refine ⟨?_, ?_, ?_⟩
  · intro l hl
    obtain ⟨hl, hno⟩ := List.mem_filter.1 hl
    rw [Bool.not_eq_true', List.any_eq_false] at hno
    exact mem_handleLSAck (h.owed l hl) fun x hx => Bool.eq_false_iff.2 (hno x hx)
  · intro hlist
    rcases htimer with ⟨ht, -⟩ | ⟨hnil, -⟩
    · exact ht.trans (h.timed (hne hlist))
    · exact absurd hnil hlist
  · intro ht
    rcases htimer with ⟨ht', hseq⟩ | ⟨-, hoff⟩
    · have hseq' : (handleLSAck ospf s.neigh lsaHeader).lsRxtSeqNum ∈ s.timers := by
        rw [hseq]
        exact h.pending (ht'.symm.trans ht)
      exact hseq'
    · rw [show (handleLSAck ospf s.neigh lsaHeader).lsRxtTimer = true from ht] at hoff
      cases hoff

theorem Keeps.sentBack (h : Keeps s) (hok : ∀ l ∈ s.neigh.neighLSRxtList, lsaCompare ospf l lsa = 0)
    (hstep : (rxtMachine ospf thisInterface).step s (.sentBack lsa) = some s') : Keeps s' := by
  obtain rfl := Option.some.inj hstep
  have hnone : (s.neigh.neighLSRxtList.any fun rxlsa => lsaCompare ospf rxlsa lsa != 0) = false := by
    rw [List.any_eq_false]
    intro l hl
    rw [hok l hl]
    decide
  have hsame : impliedAck ospf lsa s.neigh = s.neigh := by
    unfold impliedAck
    dsimp only
    rw [hnone]
    rfl
  rw [hsame]
  exact ⟨fun l hl => h.owed l (List.mem_filter.1 hl).1, h.timed, h.pending⟩

theorem Keeps.down (h : Keeps s)
    (hstep : (rxtMachine ospf thisInterface).step s .down = some s') : Keeps s' := by
  obtain rfl := Option.some.inj hstep
  exact ⟨fun l hl => absurd hl List.not_mem_nil, fun hne => absurd rfl hne, h.pending⟩

/-- **Reliable flooding.** In a run whose steps meet the condition, every LSA put on the list that is not
acknowledged, sent back or superseded is on it, and while the list has entries a retransmission timer with
the present number is pending. An acknowledgement removes only entries of its key and instance. -/
theorem owed_kept (ospf : Pds) (thisInterface : OspfIf) :
    (∀ s, (rxtMachine ospf thisInterface).ReachOn (RxtOk ospf thisInterface) s →
      (∀ l ∈ s.owed, l ∈ s.neigh.neighLSRxtList) ∧
      (s.neigh.neighLSRxtList ≠ [] → s.neigh.lsRxtTimer = true ∧ s.neigh.lsRxtSeqNum ∈ s.timers)) ∧
    ∀ neigh lsaHeader l, l ∈ neigh.neighLSRxtList → (∀ h ∈ lsaHeader, compareToListMem ospf h l = false) →
      l ∈ (handleLSAck ospf neigh lsaHeader).neighLSRxtList := by
  refine ⟨?_, fun neigh lsaHeader l hl hother => mem_handleLSAck hl hother⟩
  intro s hrun
  have hkeeps : Keeps s := by
    refine hrun.inv ?_ ?_
    · rintro s ⟨hlist, htimer, -, howed⟩
      refine ⟨?_, fun hne => absurd hlist hne, fun ht => by rw [htimer] at ht; cases ht⟩
      intro l hl
      rw [howed] at hl
      cases hl
    · intro s e s' h hok hstep
      cases e with
      | flood lsa src => exact h.flood hok hstep
      | addMaxAge now lsa => exact h.addMaxAge hstep
      | timer now seqNum => exact h.timer hok hstep
      | ack lsaHeader => exact h.ack hstep
      | sentBack lsa => exact h.sentBack hok hstep
      | down => exact h.down hstep
  exact ⟨hkeeps.owed, fun hne => ⟨hkeeps.timed hne, hkeeps.pending (hkeeps.timed hne)⟩⟩

end Steps

/-! ## Samples -/

/-- A neighbour without retransmissions. -/
def quietRxt (state : NeighState) : RxtState := ⟨{ fullNeighbor 2 with state := state }, [], []⟩

theorem owed_kept_quiet :
    ∃ s, (rxtMachine (twoNeighborRouter .p2p .p2p) (twoNeighborIf .p2p .p2p)).step (quietRxt .exchange)
        (.addMaxAge 0 (routerLsaOf 7 5)) = some s ∧
      s.neigh.neighLSRxtList ≠ [] ∧ s.neigh.lsRxtTimer = true ∧ s.neigh.lsRxtSeqNum ∈ s.timers := by
  refine ⟨_, rfl, List.cons_ne_nil _ _, ?_⟩
  have hstart : (rxtMachine (twoNeighborRouter .p2p .p2p) (twoNeighborIf .p2p .p2p)).ReachOn
      (RxtOk (twoNeighborRouter .p2p .p2p) (twoNeighborIf .p2p .p2p)) (quietRxt .exchange) :=
    .init ⟨rfl, rfl, rfl, rfl⟩
  exact ((owed_kept _ _).1 _ (hstart.step (e := .addMaxAge 0 (routerLsaOf 7 5)) trivial rfl)).2
    (List.cons_ne_nil _ _)

/-- A flood starts no timer; an expiry takes the LSA that it sends off the list; and an LSA that is sent
back takes another one off. -/
theorem owed_lost :
    ((rxtMachine (twoNeighborRouter .p2p .p2p) (twoNeighborIf .p2p .p2p)).exec (quietRxt .full)
        [.flood (routerLsaOf 7 5) (some ⟨0, 9⟩)]).map (fun s => (s.neigh.neighLSRxtList, s.timers)) =
        some ([routerLsaOf 7 5], []) ∧
      ((rxtMachine (twoNeighborRouter .p2p .p2p) (twoNeighborIf .p2p .p2p)).exec (quietRxt .exchange)
        [.addMaxAge 0 (routerLsaOf 7 5), .timer 5000000 0]).map
          (fun s => (s.owed, s.neigh.neighLSRxtList)) = some ([routerLsaOf 7 5], []) ∧
      ((rxtMachine (twoNeighborRouter .p2p .p2p) (twoNeighborIf .p2p .p2p)).exec (quietRxt .exchange)
        [.addMaxAge 0 (routerLsaOf 7 5), .sentBack (routerLsaOf 8 6)]).map
          (fun s => (s.owed, s.neigh.neighLSRxtList)) = some ([routerLsaOf 7 5], []) := by
  decide +kernel

end NetSim.Ospf
