import NetSim.Lib.Machine
import NetSim.Lib.Keyed
import NetSim.Proof.LsdbUpdate
import NetSim.Proof.UpdatePacking

/-!
# The queue of LSAs of an interface

`ospf_lsa_queueToFlood` searches the queue for the age of an LSA where its type is meant. In runs in which the search
nevertheless finds what it is to find, the queue holds one, newest instance of each LSA (`updateQueue_newest`), and
every other LSA that is queued there breaks this.
-/

namespace NetSim.Ospf

open Keyed Newest

variable {ospf : Pds} {queued list : List LsaHdr} {lsa hdr : LsaHdr}

/-! ## What is to be in the queue -/

/-- One entry for each LSA that was queued, than which no instance that was queued is more recent. -/
abbrev HoldsNewest (ospf : Pds) (queued list : List LsaHdr) : Prop :=
  NewestPerKey LsaHdr.key (fun lsa entry => 0 < lsaCompare ospf entry lsa) queued list

/-- **The condition.** The search by age, link state id and router finds the entry of the LSA, or none if there is none;
or both what it finds and the entry are at least as recent as the LSA. -/
def FindsEntry (ospf : Pds) (list : List LsaHdr) (lsa : LsaHdr) : Prop :=
  list.find? lsa.sameQueued = list.find? lsa.sameKey ∨
    ((list.find? lsa.sameQueued).any (fun hdr => lsaCompare ospf hdr lsa ≤ 0) = true ∧
      (list.find? lsa.sameKey).any (fun entry => lsaCompare ospf entry lsa ≤ 0) = true)

instance decidableFindsEntry (ospf : Pds) (list : List LsaHdr) (lsa : LsaHdr) : Decidable (FindsEntry ospf list lsa) :=
  inferInstanceAs (Decidable (_ ∨ _))

/-! ## One LSA -/

theorem sameKey_eq (lsa : LsaHdr) : lsa.sameKey = fun hdr => decide (hdr.key = lsa.key) := by
  funext hdr
  unfold LsaHdr.sameKey
  rw [LsaHdr.sameId_eq, Bool.eq_iff_iff, decide_eq_true_iff]
  unfold LsaHdr.hasIds LsaHdr.key
  rw [Bool.and_eq_true, Bool.and_eq_true, beq_iff_eq, beq_iff_eq, beq_iff_eq, Prod.mk.injEq, Prod.mk.injEq]
  exact and_congr_left' eq_comm

theorem find?_sameKey (list : List LsaHdr) (lsa : LsaHdr) :
    list.find? lsa.sameKey = (entries LsaHdr.key list lsa.key).head? := by
  rw [sameKey_eq]
  exact find?_eq_head? list lsa.key

/-- There is one entry of a key if a search finds one. -/
theorem HoldsNewest.entries_of_find? {entry : LsaHdr} (h : HoldsNewest ospf queued list)
    (hfind : list.find? lsa.sameKey = some entry) : entries LsaHdr.key list lsa.key = [entry] := by
  rw [find?_sameKey] at hfind
  rcases h.entries_eq_nil_or lsa.key with hnil | ⟨e, he⟩
  · rw [hnil] at hfind
    cases hfind
  · rw [he] at hfind
    cases hfind
    exact he

/-- Of two instances of one age the more recent one has the higher sequence number, and what is more recent than it is
more recent than the other one. -/
theorem newer_of_sameQueued (hqueued : lsa.sameQueued hdr = true) (hpos : 0 < lsaCompare ospf hdr lsa) (z : LsaHdr)
    (hz : 0 < lsaCompare ospf lsa z) : 0 < lsaCompare ospf hdr z := by
  have hage : hdr.lsAge = lsa.lsAge := by
    unfold LsaHdr.sameQueued at hqueued
    rw [Bool.and_eq_true, Bool.and_eq_true, beq_iff_eq] at hqueued
    exact hqueued.1.1
  have hle := seq_le_of_lsaCompare_pos hpos
  have hlez := seq_le_of_lsaCompare_pos hz
  have hne : hdr.lsSequenceNumber ≠ lsa.lsSequenceNumber := by
    intro hseq
    rw [lsaCompare_congr hseq rfl hage rfl, lsaCompare_self] at hpos
    omega
  have hlt : hdr.lsSequenceNumber < z.lsSequenceNumber := by
    have hneNat : hdr.lsSequenceNumber.toNat ≠ lsa.lsSequenceNumber.toNat := fun heq => hne (UInt32.toNat_inj.1 heq)
    rw [UInt32.le_iff_toNat_le] at hle hlez
    rw [UInt32.lt_iff_toNat_lt]
    omega
  rw [lsaCompare_of_seq_lt hlt]
  exact Int.one_pos

theorem not_newer_self (x : LsaHdr) : ¬ 0 < lsaCompare ospf x x := by
  rw [lsaCompare_self]
  exact Int.lt_irrefl 0

/-- **One LSA**: queueing it is right exactly under the condition. -/
theorem holdsNewest_queueToFlood_iff (h : HoldsNewest ospf queued list) :
    HoldsNewest ospf (lsa :: queued) (queueToFlood ospf list lsa) ↔ FindsEntry ospf list lsa := by
  unfold queueToFlood FindsEntry
  cases hfind : list.find? lsa.sameQueued with
  | none =>
    dsimp only
    refine (h.append_iff not_newer_self).trans ?_
    rw [find?_sameKey]
    constructor
    · intro hnil
      rw [hnil]
      exact .inl rfl
    · rintro (hnone | ⟨hany, -⟩)
      · exact List.head?_eq_none_iff.1 hnone.symm
      · cases hany
  | some hdr =>
    dsimp only
    obtain ⟨hqueued, pre, post, rfl, hpre⟩ := List.find?_eq_some_iff_append.1 hfind
    by_cases hpos : 0 < lsaCompare ospf hdr lsa
    · -- The entry that is found is replaced.
      have herase : (pre ++ hdr :: post).eraseP lsa.sameQueued = pre ++ post := by
        rw [List.eraseP_append_right, List.eraseP_cons_of_pos hqueued]
        intro x hx hxq
        have hneg := hpre x hx
        rw [hxq] at hneg
        cases hneg
      have hany : (some hdr).any (fun hdr => lsaCompare ospf hdr lsa ≤ 0) = false := by
        rw [Option.any_some, decide_eq_false_iff_not]
        omega
      rw [if_pos hpos, herase, hany]
      refine (h.replace_iff not_newer_self (newer_of_sameQueued hqueued hpos)).trans ?_
      constructor
      · intro hkey
        have hmem : hdr ∈ entries LsaHdr.key (pre ++ hdr :: post) lsa.key :=
          mem_entries.2 ⟨List.mem_append_right pre List.mem_cons_self, hkey⟩
        rcases h.entries_eq_nil_or lsa.key with hnil | ⟨e, he⟩
        · rw [hnil] at hmem
          cases hmem
        · rw [he, List.mem_singleton] at hmem
          rw [find?_sameKey, he, hmem]
          exact .inl rfl
      · rintro (heq | ⟨hfalse, -⟩)
        · have hfound := h.entries_of_find? heq.symm
          have hmem : hdr ∈ entries LsaHdr.key (pre ++ hdr :: post) lsa.key := by
            rw [hfound]
            exact List.mem_singleton.2 rfl
          exact (mem_entries.1 hmem).2
        · cases hfalse
    · -- The queue stays as it is.
      have hany : (some hdr).any (fun hdr => lsaCompare ospf hdr lsa ≤ 0) = true := by
        rw [Option.any_some, decide_eq_true_iff]
        omega
      rw [if_neg hpos, hany]
      refine h.keep_iff.trans ?_
      constructor
      · rintro ⟨e, he, hnewer⟩
        refine .inr ⟨rfl, ?_⟩
        rw [find?_sameKey, he, List.head?_cons, Option.any_some, decide_eq_true_iff]
        omega
      · rintro (heq | ⟨-, hcurrent⟩)
        · exact ⟨hdr, h.entries_of_find? heq.symm, hpos⟩
        · rw [Option.any_eq_true] at hcurrent
          obtain ⟨e, he, hle⟩ := hcurrent
          exact ⟨e, h.entries_of_find? he, Int.not_lt.2 (of_decide_eq_true hle)⟩

/-! ## Runs -/

/-- An interface, with the LSAs that have been queued on it since the last send. -/
structure UpdateRun where
  thisInterface : OspfIf
  queued : List LsaHdr

inductive UpdateEvent
  | queue (lsa : LsaHdr)
  | send (rounds : ℕ)
  | sendToNeighbor (rounds : ℕ)

namespace UpdateRun

/-- `ospf_lsa_queueToFlood`. -/
def queue (ospf : Pds) (s : UpdateRun) (lsa : LsaHdr) : UpdateRun where
  thisInterface :=
    { s.thisInterface with updateLSAList := queueToFlood ospf s.thisInterface.updateLSAList lsa }
  queued := lsa :: s.queued

def step (ospf : Pds) (s : UpdateRun) : UpdateEvent → Option UpdateRun
  | .queue lsa => some (s.queue ospf lsa)
  | .send rounds => (lsupdateSend ospf rounds s.thisInterface).map fun result => ⟨result.1, []⟩
  | .sendToNeighbor rounds => (sendLSUpdateToNeighbor ospf rounds s.thisInterface).map fun result => ⟨result.1, []⟩

/-- Both lists are empty at the start. -/
def machine (ospf : Pds) : Machine UpdateRun UpdateEvent where
  init s := s.thisInterface.updateLSAList = [] ∧ s.queued = []
  step := step ospf

/-- What an event has to meet. -/
def Proper (ospf : Pds) (s : UpdateRun) : UpdateEvent → Prop
  | .queue lsa => FindsEntry ospf s.thisInterface.updateLSAList lsa
  | _ => True

instance decidableProper (ospf : Pds) (s : UpdateRun) : (e : UpdateEvent) → Decidable (s.Proper ospf e)
  | .queue lsa => inferInstanceAs (Decidable (FindsEntry ospf s.thisInterface.updateLSAList lsa))
  | .send _ => inferInstanceAs (Decidable True)
  | .sendToNeighbor _ => inferInstanceAs (Decidable True)

/-- The list of the interface holds the newest instance of each LSA queued since it was sent last. -/
def Newest (ospf : Pds) (s : UpdateRun) : Prop := HoldsNewest ospf s.queued s.thisInterface.updateLSAList

variable {s s' : UpdateRun}

theorem newest_of_empty (hlist : s.thisInterface.updateLSAList = []) (hqueued : s.queued = []) : s.Newest ospf := by
  unfold Newest
  rw [hlist, hqueued]
  exact NewestPerKey.nil

theorem newest_of_reachOn (h : (machine ospf).ReachOn (Proper ospf) s) : s.Newest ospf := by
  have hinit : ∀ s, (machine ospf).init s → s.Newest ospf := fun s hs => newest_of_empty hs.1 hs.2
  refine h.inv (I := Newest ospf) hinit fun s e s' hs hok hstep => ?_
  cases e with
  | queue lsa =>
    have hs' : s.queue ospf lsa = s' := Option.some.inj hstep
    rw [← hs']
    exact (holdsNewest_queueToFlood_iff hs).2 hok
  | send rounds =>
    obtain ⟨result, hresult, rfl⟩ := Option.map_eq_some_iff.1 hstep
    exact newest_of_empty (packUpdates_emptied hresult) rfl
  | sendToNeighbor rounds =>
    obtain ⟨result, hresult, rfl⟩ := Option.map_eq_some_iff.1 hstep
    exact newest_of_empty (packUpdates_emptied hresult) rfl

end UpdateRun

/-- **The update queue**: in every run whose steps meet the condition, the queue holds the newest instance of each LSA
that has been queued since the last send, once, and queueing one more LSA keeps this exactly if it meets the condition. -/
theorem updateQueue_newest (s : UpdateRun) (h : (UpdateRun.machine ospf).ReachOn (UpdateRun.Proper ospf) s) :
    s.Newest ospf ∧ ∀ lsa, (s.queue ospf lsa).Newest ospf ↔ FindsEntry ospf s.thisInterface.updateLSAList lsa := by
  have hnewest := UpdateRun.newest_of_reachOn h
  exact ⟨hnewest, fun lsa => holdsNewest_queueToFlood_iff hnewest⟩

/-- A newer instance of the same age, another LSA, and a send. -/
theorem updateQueue_newest_replaced : ∃ s : UpdateRun, s.queued = [routerLsaOf 8 1, routerLsaOf 7 6, routerLsaOf 7 5] ∧
    s.thisInterface.updateLSAList = [routerLsaOf 7 6, routerLsaOf 8 1] ∧ s.Newest (twoNeighborRouter .p2p .p2p) := by
  have hinit : (UpdateRun.machine (twoNeighborRouter .p2p .p2p)).ReachOn
      (UpdateRun.Proper (twoNeighborRouter .p2p .p2p)) ⟨twoNeighborIf .p2p .p2p, []⟩ := .init ⟨rfl, rfl⟩
  have hrun := Machine.ReachOn.of_execOn
    [.queue (routerLsaOf 3 1), .send 2, .queue (routerLsaOf 7 5), .queue (routerLsaOf 7 6), .queue (routerLsaOf 8 1)]
    hinit (by rfl)
  exact ⟨_, rfl, rfl, (updateQueue_newest _ hrun).1⟩

/-- Two instances of an LSA whose ages differ are both in the queue. -/
theorem update_queue_keeps_stale : ∃ s : UpdateRun, (UpdateRun.machine (twoNeighborRouter .p2p .p2p)).Reach s ∧
    s.thisInterface.updateLSAList = [routerLsaOf 7 5, { routerLsaOf 7 6 with lsAge := 2 }] ∧
    ¬ s.Newest (twoNeighborRouter .p2p .p2p) := by
  have hinit : (UpdateRun.machine (twoNeighborRouter .p2p .p2p)).Reach ⟨twoNeighborIf .p2p .p2p, []⟩ :=
    .init ⟨rfl, rfl⟩
  have hrun := Machine.Reach.of_exec [.queue (routerLsaOf 7 5), .queue { routerLsaOf 7 6 with lsAge := 2 }] hinit rfl
  refine ⟨_, hrun, rfl, fun h => ?_⟩
  obtain ⟨e, he, -⟩ := h.newest (routerLsaOf 7 5) (List.mem_cons_of_mem _ List.mem_cons_self)
  have hlength : 2 = 1 := congrArg List.length he
  omega

end NetSim.Ospf
