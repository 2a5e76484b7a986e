import NetSim.Lib.Machine
import NetSim.Proof.Flooding
import NetSim.Spec.OspfNeighbor

/-!
# Every entry of a request list can be requested

An entry can go into the next request if its number is 0 or the present one. A request takes the first
121 of those and raises the number, so what it leaves behind must have number 0.

* `lsreqSend_eligible_iff` — a request keeps every entry eligible exactly when it leaves behind only
  entries with number 0.
* `requests_eligible` — in a run of such requests every entry is in the outstanding request or eligible.
-/

namespace NetSim.Ospf

open FirstMatch

variable {neigh : LsReqs} {retx : Bool}

/-- An entry that the next request can take. -/
def LsReqItem.Eligible (neigh : LsReqs) (item : LsReqItem) : Prop :=
  item.seqNum = 0 ∨ item.seqNum = neigh.lsReqTimerSequenceNumber

def AllEligible (neigh : LsReqs) : Prop := ∀ item ∈ neigh.neighLSReqList, item.Eligible neigh

/-- The entries that a request leaves behind although it could take them. -/
def leftBehind (neigh : LsReqs) (retx : Bool) : List LsReqItem :=
  (neigh.neighLSReqList.filter (LsReqItem.isNext neigh retx)).drop maxLSReqObject

/-! ## One request -/

theorem succ_ne_self (x : UInt32) : x + 1 ≠ x := by
  intro h
  have h' := congrArg UInt32.toNat h
  rw [UInt32.toNat_add, UInt32.toNat_one] at h'
  have hlt := x.toNat_lt
  omega

/-- An entry in a request is not taken again, unless the numbers wrap. -/
theorem isNext_taken (hwrap : neigh.lsReqTimerSequenceNumber ≠ 0xFFFFFFFF) (item : LsReqItem) :
    (item.taken neigh).isNext neigh retx = false := by
  have hzero : neigh.lsReqTimerSequenceNumber + 1 ≠ 0 := by
    intro h
    have h' := congrArg UInt32.toNat h
    rw [UInt32.toNat_add, UInt32.toNat_one, UInt32.toNat_zero] at h'
    have hlt := neigh.lsReqTimerSequenceNumber.toNat_lt
    exact hwrap (UInt32.toNat_inj.1 (by change _ = 4294967295; omega))
  unfold LsReqItem.isNext LsReqItem.taken
  rw [beq_eq_false_iff_ne.2 (succ_ne_self _), beq_eq_false_iff_ne.2 hzero, Bool.and_false]
  rfl

/-- The loop takes the first entries that it can. -/
theorem fillLSRequest_spec (hwrap : neigh.lsReqTimerSequenceNumber ≠ 0xFFFFFFFF) (n : ℕ) :
    (fillLSRequest retx n neigh).2 = { neigh with
      neighLSReqList := updateFirst (LsReqItem.isNext neigh retx) (LsReqItem.taken neigh) n
        neigh.neighLSReqList } := by
  induction n generalizing neigh with
  | zero => rw [updateFirst_zero]; rfl
  | succ n ih =>
    unfold fillLSRequest createLSReqObject
    cases hfind : neigh.neighLSReqList.find? (LsReqItem.isNext neigh retx) with
    | none =>
      rw [updateFirst_of_find?_none hfind]
      rfl
    | some item =>
      rw [updateFirst_succ hfind (isNext_taken hwrap item)]
      exact ih hwrap

theorem mem_lsreqSend (hwrap : neigh.lsReqTimerSequenceNumber ≠ 0xFFFFFFFF) (item : LsReqItem) :
    item ∈ (lsreqSend neigh retx).2.neighLSReqList ↔
      item ∈ neigh.neighLSReqList ∧ item.isNext neigh retx = false ∨ item ∈ leftBehind neigh retx ∨
        ∃ x ∈ (neigh.neighLSReqList.filter (LsReqItem.isNext neigh retx)).take maxLSReqObject,
          x.taken neigh = item := by
  have hfill : (fillLSRequest retx maxLSReqObject neigh).2 = _ := fillLSRequest_spec hwrap maxLSReqObject
  have hlist : (lsreqSend neigh retx).2.neighLSReqList =
      (fillLSRequest retx maxLSReqObject neigh).2.neighLSReqList := rfl
  rw [hlist, hfill]
  exact mem_updateFirst

/-- **A request keeps every entry eligible exactly when what it leaves behind has number 0.** -/
theorem lsreqSend_eligible_iff (h : AllEligible neigh) (hwrap : neigh.lsReqTimerSequenceNumber ≠ 0xFFFFFFFF) :
    AllEligible (lsreqSend neigh retx).2 ↔ ∀ item ∈ leftBehind neigh retx, item.seqNum = 0 := by
  have hnum : (lsreqSend neigh retx).2.lsReqTimerSequenceNumber = neigh.lsReqTimerSequenceNumber + 1 := by
    have hfill : (fillLSRequest retx maxLSReqObject neigh).2 = _ := fillLSRequest_spec hwrap maxLSReqObject
    have heq : (lsreqSend neigh retx).2.lsReqTimerSequenceNumber =
        (fillLSRequest retx maxLSReqObject neigh).2.lsReqTimerSequenceNumber + 1 := rfl
    rw [heq, hfill]
  unfold AllEligible LsReqItem.Eligible
  rw [hnum]
  constructor
  · intro hall item hitem
    have hmem : item ∈ neigh.neighLSReqList := List.mem_of_mem_filter (List.mem_of_mem_drop hitem)
    rcases hall item ((mem_lsreqSend hwrap item).2 (.inr (.inl hitem))) with hz | hs
    · exact hz
    · rcases h item hmem with hz | hc
      · exact hz
      · exact absurd (hs.symm.trans hc) (succ_ne_self _)
  · intro hleft item hitem
    rcases (mem_lsreqSend hwrap item).1 hitem with ⟨hmem, hnext⟩ | hmem | ⟨x, -, rfl⟩
    · rcases h item hmem with hz | hc
      · exact .inl hz
      · unfold LsReqItem.isNext at hnext
        rw [hc, beq_self_eq_true, Bool.true_or] at hnext
        cases hnext
    · exact .inl (hleft item hmem)
    · exact .inr rfl

/-! ## Runs -/

/-- A neighbour and the objects of the request sent last. -/
structure ReqState where
  neigh : LsReqs
  outstanding : List LsReqObj
deriving DecidableEq, Repr

inductive ReqEvent where
  | insert (lsHdr : LsaHdr) (time : ℚ)
  | exchangeDone
  | timer (seqNum : UInt32)
  | received (lsa : LsaHdr)
  | updateEnd (isRequestedLSAReceived : Bool)

/-- Insertions, requests, expiries and updates, from an empty list. -/
def requests : Machine ReqState ReqEvent where
  init s := s.neigh.neighLSReqList = []
  step s
    | .insert lsHdr time => some { s with neigh := lsreqInsertToList s.neigh lsHdr time }
    | .exchangeDone =>
      let out := lsreqSend s.neigh false
      some ⟨out.2, out.1⟩
    | .timer seqNum =>
      let out := lsreqRxmtTimer s.neigh seqNum
      some ⟨out.2, out.1.getD s.outstanding⟩
    | .received lsa => some { s with neigh := lsreqRemoveItem s.neigh lsa }
    | .updateEnd isRequestedLSAReceived =>
      let out := updateEndRequests s.neigh isRequestedLSAReceived
      some ⟨out.2, out.1.getD s.outstanding⟩

/-- A request leaves only entries with number 0 behind, and its number does not wrap. -/
def SendOk (neigh : LsReqs) (retx : Bool) : Prop :=
  neigh.lsReqTimerSequenceNumber ≠ 0xFFFFFFFF ∧ ∀ item ∈ leftBehind neigh retx, item.seqNum = 0

/-- The condition on a step: the request that it sends, if any, leaves only entries with number 0. -/
def ReqOk (s : ReqState) : ReqEvent → Prop
  | .exchangeDone => SendOk s.neigh false
  | .timer seqNum => s.neigh.lsReqTimerSequenceNumber = seqNum → SendOk s.neigh true
  | .updateEnd isRequestedLSAReceived => isRequestedLSAReceived = true → SendOk s.neigh false
  | _ => True

theorem allEligible_insert (h : AllEligible neigh) (lsHdr : LsaHdr) (time : ℚ) :
    AllEligible (lsreqInsertToList neigh lsHdr time) := by
  unfold lsreqInsertToList
  split
  · exact h
  · intro item hitem
    rcases List.mem_append.1 hitem with hitem | hitem
    · exact h item hitem
    · rw [List.mem_singleton.1 hitem]
      exact .inr rfl

theorem allEligible_timer (h : AllEligible neigh) (seqNum : UInt32)
    (hok : neigh.lsReqTimerSequenceNumber = seqNum → SendOk neigh true) :
    AllEligible (lsreqRxmtTimer neigh seqNum).2 := by
  unfold lsreqRxmtTimer
  split
  · exact h
  rename_i hcur
  rw [bne_iff_ne, not_not] at hcur
  split
  · exact h
  unfold lsreqRetransmit
  split
  · exact (lsreqSend_eligible_iff h (hok hcur).1).2 (hok hcur).2
  · exact h

theorem allEligible_updateEnd (h : AllEligible neigh) (received : Bool)
    (hok : received = true → SendOk neigh false) : AllEligible (updateEndRequests neigh received).2 := by
  unfold updateEndRequests
  split
  · split
    · rename_i hrec
      exact (lsreqSend_eligible_iff h (hok hrec).1).2 (hok hrec).2
    · exact h
  · rename_i hempty
    have hnil : neigh.neighLSReqList = [] := by
      rw [Bool.not_eq_true, Bool.not_eq_false', List.isEmpty_iff] at hempty
      exact hempty
    intro item hitem
    have hitem' : item ∈ neigh.neighLSReqList := hitem
    rw [hnil] at hitem'
    cases hitem'

/-- **Every missing LSA gets requested.** In a run whose requests leave only entries with number 0 behind,
each entry is in the outstanding request or eligible for the next one; and a request that leaves another
entry behind makes it ineligible. -/
theorem requests_eligible (neigh : LsReqs) (retx : Bool) :
    (∀ s, requests.ReachOn ReqOk s → ∀ item ∈ s.neigh.neighLSReqList,
      item.lsHdr.lsReqObj ∈ s.outstanding ∨ item.seqNum = 0 ∨
        item.seqNum = s.neigh.lsReqTimerSequenceNumber) ∧
    (AllEligible neigh → neigh.lsReqTimerSequenceNumber ≠ 0xFFFFFFFF →
      (AllEligible (lsreqSend neigh retx).2 ↔ SendOk neigh retx)) := by
  constructor
  · intro s hrun
    have hall : AllEligible s.neigh := by
      refine hrun.inv (I := fun s => AllEligible s.neigh) ?_ ?_
      · intro s hinit item hitem
        have hnil : s.neigh.neighLSReqList = [] := hinit
        rw [hnil] at hitem
        cases hitem
      · intro s e s' h hok hstep
        cases e with
        | insert lsHdr time =>
          obtain rfl := Option.some.inj hstep
          exact allEligible_insert h lsHdr time
        | exchangeDone =>
          obtain rfl := Option.some.inj hstep
          exact (lsreqSend_eligible_iff h hok.1).2 hok.2
        | timer seqNum =>
          obtain rfl := Option.some.inj hstep
          exact allEligible_timer h seqNum hok
        | received lsa =>
          obtain rfl := Option.some.inj hstep
          exact fun item hitem => h item (List.mem_of_mem_eraseP hitem)
        | updateEnd received =>
          obtain rfl := Option.some.inj hstep
          exact allEligible_updateEnd h received hok
    exact fun item hitem => .inr (hall item hitem)
  · intro h hwrap
    exact (lsreqSend_eligible_iff h hwrap).trans (and_iff_right hwrap).symm

/-! ## Samples -/

/-- A neighbour with nothing requested. -/
def noRequests : ReqState := ⟨⟨[], 0⟩, []⟩

theorem requests_eligible_one :
    ∃ s, (requests.exec noRequests [.insert (routerLsaOf 7 5) 0, .exchangeDone]) = some s ∧
      ∀ item ∈ s.neigh.neighLSReqList, item.lsHdr.lsReqObj ∈ s.outstanding ∨ item.seqNum = 0 ∨
        item.seqNum = s.neigh.lsReqTimerSequenceNumber := by
  have hstart : requests.ReachOn ReqOk noRequests := .init (show noRequests.neigh.neighLSReqList = [] from rfl)
  have hok : ReqOk noRequests (.insert (routerLsaOf 7 5) 0) := trivial
  have hinserted := hstart.step hok rfl
  refine ⟨_, rfl, (requests_eligible ⟨[], 0⟩ false).1 _ (hinserted.step (e := .exchangeDone) ?_ rfl)⟩
  exact ⟨by decide, by decide⟩

/-- Insertions of LSAs of the routers from 1 on. -/
def insertMany (n : ℕ) : List ReqEvent :=
  (List.range n).map fun i => .insert (routerLsaOf (UInt32.ofNat (i + 1)) 5) 0

/-- An entry for one of these LSAs. -/
def insertedItem (i : ℕ) : LsReqItem := ⟨1, 0, routerLsaOf (UInt32.ofNat (i + 1)) 5⟩

/-- The LSAs are different ones, so each gets an entry. -/
theorem exec_inserts (es : List ReqEvent) (objs : List LsReqObj) (n m : ℕ) (h : m + n < 4294967295) :
    requests.exec ⟨⟨(List.range m).map insertedItem, 1⟩, objs⟩
        ((List.range' m n).map (fun i => ReqEvent.insert (routerLsaOf (UInt32.ofNat (i + 1)) 5) 0) ++ es) =
      requests.exec ⟨⟨(List.range (m + n)).map insertedItem, 1⟩, objs⟩ es := by
  induction n generalizing m with
  | zero => rfl
  | succ n ih =>
    have hnew : ((List.range m).map insertedItem).any
        (fun item => item.lsHdr.sameKey (routerLsaOf (UInt32.ofNat (m + 1)) 5)) = false := by
      rw [List.any_map, List.any_eq_false]
      intro i hi hsame
      have hlt := List.mem_range.1 hi
      have hid : UInt32.ofNat (i + 1) = UInt32.ofNat (m + 1) := by
        have hkey : (insertedItem i).lsHdr.linkStateId.same (routerLsaOf (UInt32.ofNat (m + 1)) 5).linkStateId =
            true := (Bool.and_eq_true_iff.1 hsame).2
        exact (Ip.same_iff _ _).1 hkey
      have hnat := congrArg UInt32.toNat hid
      rw [UInt32.toNat_ofNat', UInt32.toNat_ofNat'] at hnat
      omega
    have hstep : requests.step ⟨⟨(List.range m).map insertedItem, 1⟩, objs⟩
        (.insert (routerLsaOf (UInt32.ofNat (m + 1)) 5) 0) =
          some ⟨⟨(List.range (m + 1)).map insertedItem, 1⟩, objs⟩ := by
      have hinsert : lsreqInsertToList ⟨(List.range m).map insertedItem, 1⟩
          (routerLsaOf (UInt32.ofNat (m + 1)) 5) 0 = ⟨(List.range (m + 1)).map insertedItem, 1⟩ := by
        unfold lsreqInsertToList
        rw [hnew, List.range_succ, List.map_append]
        rfl
      exact congrArg (fun neigh => some (ReqState.mk neigh objs)) hinsert
    rw [List.range'_succ, List.map_cons, List.cons_append, Machine.exec, hstep, Option.bind_some, ih (m + 1) (by omega),
      Nat.add_right_comm, Nat.add_assoc]

/-- An update in Exchange raises the number, and of 122 entries inserted then the last one is left behind
by the request and never taken by another. -/
theorem requests_strand :
    ((requests.exec noRequests (.updateEnd false :: insertMany 122 ++ [.exchangeDone])).map fun s =>
      (s.neigh.lsReqTimerSequenceNumber, s.neigh.neighLSReqList.getLast?.map fun item =>
        (item.seqNum, s.outstanding.contains item.lsHdr.lsReqObj))) = some (2, some (1, false)) := by
  have hraise : requests.step noRequests (.updateEnd false) = some ⟨⟨[], 1⟩, []⟩ := by decide
  have hinserts := exec_inserts [.exchangeDone] [] 122 0 (by decide)
  rw [Nat.zero_add, ← List.range_eq_range', List.range_zero, List.map_nil] at hinserts
  rw [List.cons_append, Machine.exec, hraise, Option.bind_some, insertMany, hinserts]
  decide +kernel

end NetSim.Ospf
