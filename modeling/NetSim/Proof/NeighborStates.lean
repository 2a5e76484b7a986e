import NetSim.Lib.Machine
import NetSim.Proof.Flooding
import NetSim.Spec.OspfNeighbor

/-!
# The states of a neighbour

A neighbour in any order of its events. A neighbour that is Full has nothing to request and one above Down
has its inactivity timer pending, in every run. Its lists do not come back when it is heard again after
they were destroyed, and the 1-way event is only seen in 2-Way.

* `neighbor_states` — the invariant, with the conditions for the lists and for the 1-way event.
-/

namespace NetSim.Ospf

variable {ospf : Pds} {thisInterface : OspfIf} {area : AreaDs} {now : ℚ} {neigh neigh' : NeighborDs}

/-! ## The machine -/

/-- The neighbour, unless it is removed, and the number of its pending inactivity timers. -/
structure NbrState where
  neigh : Option NeighborDs
  timers : ℕ
deriving DecidableEq, Repr

inductive NbrEvent where
  | hello (now : ℚ)
  | oneWay
  | twoWay (now : ℚ)
  | negotiationDone (now : ℚ)
  | insertRequest (lsHdr : LsaHdr) (now : ℚ)
  | removeRequest (lsa : LsaHdr)
  | exchangeDone
  | loadingDone
  | inactivity (now : ℚ)
  | kill

/-- The neighbour that a hello is for; a new one is added. -/
def helloNeighbor (rid : Ip) (s : NbrState) : NeighborDs := s.neigh.getD (neighborNew rid)

/-- The events of one neighbour. Requests are added in Exchange, and `OSPF_LoadingDone` is called when the
request list is empty. -/
def nbrMachine (ospf : Pds) (thisInterface : OspfIf) (area : AreaDs) (deadInterval : ℚ) (rid : Ip) :
    Machine NbrState NbrEvent where
  init s := s = ⟨none, 0⟩
  step s
    | .hello now =>
      let out := handleHelloReceived now (helloNeighbor rid s)
      some ⟨some out.1, s.timers + out.2.toNat⟩
    | .oneWay => s.neigh.map fun neigh => { s with neigh := some (handle1Way neigh) }
    | .twoWay now => do
      let neigh ← s.neigh
      let out ← handle2WayReceived ospf thisInterface now neigh
      return { s with neigh := some out.1 }
    | .negotiationDone now => do
      let neigh ← s.neigh
      let neigh ← handleNegotiationDone ospf area now neigh
      return { s with neigh := some neigh }
    | .insertRequest lsHdr now => do
      let neigh ← s.neigh
      if neigh.state != .exchange then none
      let neigh ← neigh.insertRequest lsHdr now
      return { s with neigh := some neigh }
    | .removeRequest lsa => do
      let neigh ← s.neigh
      let neigh ← neigh.removeRequest lsa
      return { s with neigh := some neigh }
    | .exchangeDone => do
      let neigh ← s.neigh
      let neigh ← handleExchangeDone neigh
      return { s with neigh := some neigh }
    | .loadingDone => do
      let neigh ← s.neigh
      if neigh.neighLSReqList != some [] then none
      return { s with neigh := some (handleLoadingDone neigh) }
    | .inactivity now => do
      let neigh ← s.neigh
      if s.timers = 0 then none
      let out ← handleInactivityTimer deadInterval now neigh
      return ⟨some out.1, s.timers - 1 + out.2.toNat⟩
    | .kill => s.neigh.map fun _ => ⟨none, 0⟩

/-! ## What the handlers keep -/

/-- The four lists exist. -/
def NeighborDs.ListsExist (neigh : NeighborDs) : Prop :=
  neigh.neighLSReqList.isSome ∧ neigh.neighDBSummaryList.isSome ∧ neigh.neighLSRxtList.isSome ∧
    neigh.linkStateSendList.isSome

/-- The timer is pending above Down, and in Full nothing is requested. -/
structure NbrTimed (neigh : NeighborDs) (timers : ℕ) : Prop where
  added : neigh.state ≠ .down → neigh.isInactivityTimerAdded = true
  pending : timers = neigh.isInactivityTimerAdded.toNat
  full : neigh.state = .full → neigh.neighLSReqList = some []

/-- The lists exist whenever they are needed. -/
def NeighborDs.Listed (neigh : NeighborDs) : Prop := neigh.state ≠ .down → neigh.ListsExist

/-- An attempt at an adjacency changes the packets and their number only. -/
theorem attemptAdjacency_frame (ospf : Pds) (thisInterface : OspfIf) (now : ℚ) (neigh : NeighborDs) :
    ∃ master seq sent imms time, (attemptAdjacency ospf thisInterface now neigh).1 =
      { neigh with
        isMaster := master
        ddSeqNo := seq
        lastSentDDPacket := sent
        imms := imms
        lastDDMsgSentTime := time } := by
  unfold attemptAdjacency startSendingDDMsg
  split
  · exact ⟨_, _, _, _, _, rfl⟩
  split
  · exact ⟨_, _, _, _, _, rfl⟩
  · exact ⟨_, _, _, _, _, rfl⟩

theorem changeState_frame (ospf : Pds) (thisInterface : OspfIf) (now : ℚ) (neigh : NeighborDs)
    (state : NeighState) :
    ∃ master seq sent imms time, (changeState ospf thisInterface now neigh state).1 =
      { neigh with
        state := state
        isMaster := master
        ddSeqNo := seq
        lastSentDDPacket := sent
        imms := imms
        lastDDMsgSentTime := time } := by
  unfold changeState
  dsimp only
  split
  · exact attemptAdjacency_frame ospf thisInterface now { neigh with state := state }
  · exact ⟨_, _, _, _, _, rfl⟩

theorem handle2WayReceived_frame {out : NeighborDs × Option DdPacket}
    (h : handle2WayReceived ospf thisInterface now neigh = some out) :
    out.1 = neigh ∨ neigh.state = .init ∧ ∃ state master seq sent imms time, state ≠ NeighState.full ∧
      out.1 =
        { neigh with
          state := state
          isMaster := master
          ddSeqNo := seq
          lastSentDDPacket := sent
          imms := imms
          lastDDMsgSentTime := time } := by
  unfold handle2WayReceived at h
  split at h
  · rename_i hinit
    rw [beq_iff_eq] at hinit
    simp only [Option.bind_eq_bind, Option.bind_eq_some_iff, Option.pure_def] at h
    obtain ⟨isAdjacency, -, h⟩ := h
    obtain rfl := Option.some.inj h
    obtain ⟨master, seq, sent, imms, time, heq⟩ :=
      changeState_frame ospf thisInterface now neigh (if isAdjacency then .exStart else .twoWay)
    refine .inr ⟨hinit, _, master, seq, sent, imms, time, ?_, heq⟩
    cases isAdjacency with
    | true => decide
    | false => decide
  · obtain rfl := Option.some.inj h
    exact .inl rfl

/-- The summary list is made of the database, and the lists stay. -/
theorem createDBSummaryList_frame (h : createDBSummaryList ospf area now neigh = some neigh') :
    (∃ summary rxt sendList, neigh' = { neigh with
        neighDBSummaryList := summary
        neighLSRxtList := rxt
        linkStateSendList := sendList }) ∧
      (neigh.ListsExist → neigh'.ListsExist) := by
  have hstep : ∀ (lsa : LsaHdr) (n n' : NeighborDs), updateDBSummary ospf now n lsa = some n' →
      (∃ summary rxt sendList, n' = { n with
        neighDBSummaryList := summary
        neighLSRxtList := rxt
        linkStateSendList := sendList }) ∧ (n.ListsExist → n'.ListsExist) := by
    intro lsa n n' hn
    unfold updateDBSummary at hn
    split at hn
    · unfold NeighborDs.addToRxtList at hn
      simp only [Option.bind_eq_bind, Option.bind_eq_some_iff, Option.pure_def] at hn
      obtain ⟨rxt, -, sendList, -, hn⟩ := hn
      obtain rfl := Option.some.inj hn
      exact ⟨⟨_, _, _, rfl⟩, fun hl => ⟨hl.1, hl.2.1, rfl, rfl⟩⟩
    · simp only [Option.bind_eq_bind, Option.bind_eq_some_iff, Option.pure_def] at hn
      obtain ⟨summary, -, hn⟩ := hn
      obtain rfl := Option.some.inj hn
      exact ⟨⟨_, _, _, rfl⟩, fun hl => ⟨hl.1, rfl, hl.2.2⟩⟩
  unfold createDBSummaryList at h
  generalize area.routerLSAList ++ area.nwLSAList ++ area.routerSummaryLSAList ++ area.nwSummaryLSAList = list at h
  induction list generalizing neigh with
  | nil =>
    obtain rfl := Option.some.inj h
    exact ⟨⟨_, _, _, rfl⟩, id⟩
  | cons lsa list ih =>
    simp only [List.foldlM_cons, Option.bind_eq_bind, Option.bind_eq_some_iff] at h
    obtain ⟨n₁, hhead, htail⟩ := h
    obtain ⟨⟨summary, rxt, sendList, rfl⟩, hexist⟩ := hstep lsa neigh n₁ hhead
    obtain ⟨⟨summary', rxt', sendList', rfl⟩, hexist'⟩ := ih htail
    exact ⟨⟨_, _, _, rfl⟩, fun hl => hexist' (hexist hl)⟩

theorem handleNegotiationDone_frame (h : handleNegotiationDone ospf area now neigh = some neigh') :
    neigh' = neigh ∨ neigh.state = .exStart ∧ (∃ summary rxt sendList, neigh' = { neigh with
        state := .exchange
        neighDBSummaryList := summary
        neighLSRxtList := rxt
        linkStateSendList := sendList }) ∧ (neigh.ListsExist → neigh'.ListsExist) := by
  unfold handleNegotiationDone at h
  split at h
  · obtain rfl := Option.some.inj h
    exact .inl rfl
  · rename_i hstate
    rw [bne_iff_ne, not_not] at hstate
    exact .inr ⟨hstate, createDBSummaryList_frame h⟩

/-! ## Steps -/

section Steps

variable {s s' : NbrState} {e : NbrEvent} {deadInterval : ℚ} {rid : Ip}

/-- The invariant of the timer and of Full. -/
def Timed (s : NbrState) : Prop :=
  (s.neigh = none → s.timers = 0) ∧ ∀ neigh, s.neigh = some neigh → NbrTimed neigh s.timers

/-- Lists exist. -/
def AllListed (s : NbrState) : Prop := ∀ neigh, s.neigh = some neigh → neigh.Listed

/-- No hello arrives from a neighbour whose lists have been destroyed. -/
def HelloOk (s : NbrState) : NbrEvent → Prop
  | .hello _ => ∀ neigh, s.neigh = some neigh → neigh.ListsExist
  | _ => True

theorem NbrTimed.mk_some (h : NbrTimed neigh s.timers) : Timed { s with neigh := some neigh } := by
  refine ⟨fun hn => absurd hn (Option.some_ne_none neigh), ?_⟩
  intro n hn
  obtain rfl := Option.some.inj hn
  exact h

theorem helloNeighbor_timed (h : Timed s) (rid : Ip) : NbrTimed (helloNeighbor rid s) s.timers := by
  unfold helloNeighbor
  cases hs : s.neigh with
  | none =>
    have hzero := h.1 hs
    rw [hzero]
    exact ⟨fun hd => absurd rfl hd, rfl, fun hf => by cases hf⟩
  | some neigh => exact h.2 neigh hs

theorem Timed.hello (h : Timed s) (rid : Ip) (now : ℚ) :
    Timed ⟨some (handleHelloReceived now (helloNeighbor rid s)).1,
      s.timers + (handleHelloReceived now (helloNeighbor rid s)).2.toNat⟩ := by
  have hn := helloNeighbor_timed h rid
  generalize helloNeighbor rid s = neigh at hn
  refine ⟨fun hnone => absurd hnone (Option.some_ne_none _), ?_⟩
  intro n hsome
  obtain rfl := Option.some.inj hsome
  unfold handleHelloReceived
  refine ⟨fun _ => rfl, ?_, ?_⟩
  · have hadd : (if neigh.state == .down then { neigh with state := .init } else neigh).isInactivityTimerAdded =
        neigh.isInactivityTimerAdded := by split <;> rfl
    dsimp only
    rw [hadd, hn.pending]
    cases neigh.isInactivityTimerAdded with
    | true => rfl
    | false => rfl
  · dsimp only
    split
    · intro hf
      cases hf
    · exact hn.full

theorem NbrTimed.exchangeDone {timers : ℕ} (h : NbrTimed neigh timers)
    (hstep : handleExchangeDone neigh = some neigh') : NbrTimed neigh' timers := by
  unfold handleExchangeDone at hstep
  split at hstep
  · obtain rfl := Option.some.inj hstep
    exact h
  · rename_i hstate
    rw [bne_iff_ne, not_not] at hstate
    have hadd : neigh.isInactivityTimerAdded = true := h.added (by rw [hstate]; decide)
    obtain ⟨list, hlist, hout⟩ := Option.map_eq_some_iff.1 hstep
    split at hout
    · rename_i hempty
      obtain rfl := hout
      refine ⟨fun _ => hadd, h.pending, fun _ => ?_⟩
      rw [← List.isEmpty_iff.1 hempty]
      exact hlist
    · obtain rfl := hout
      exact ⟨fun _ => hadd, h.pending, fun hf => by cases hf⟩

theorem NbrTimed.inactivity {timers : ℕ} {out : NeighborDs × Bool} (h : NbrTimed neigh timers) (hpos : timers ≠ 0)
    (hstep : handleInactivityTimer deadInterval now neigh = some out) :
    NbrTimed out.1 (timers - 1 + out.2.toNat) := by
  have hone : timers = 1 := by
    have hp := h.pending
    cases hb : neigh.isInactivityTimerAdded with
    | true => rw [hp, hb]; rfl
    | false => exact absurd (by rw [hp, hb]; rfl) hpos
  subst hone
  unfold handleInactivityTimer at hstep
  split at hstep
  · simp only [Option.bind_eq_bind, Option.bind_eq_some_iff, Option.pure_def] at hstep
    obtain ⟨-, -, -, -, -, -, -, -, hout⟩ := hstep
    obtain rfl := Option.some.inj hout
    exact ⟨fun hd => absurd rfl hd, rfl, fun hf => by cases hf⟩
  · obtain rfl := Option.some.inj hstep
    exact ⟨fun _ => rfl, rfl, h.full⟩

/-- **A step keeps the timer and the empty list in Full.** -/
theorem Timed.step (h : Timed s)
    (hstep : (nbrMachine ospf thisInterface area deadInterval rid).step s e = some s') : Timed s' := by
  cases e with
  | hello now =>
    obtain rfl := Option.some.inj hstep
    exact h.hello rid now
  | oneWay =>
    obtain ⟨neigh, hs, rfl⟩ := Option.map_eq_some_iff.1 hstep
    refine NbrTimed.mk_some ?_
    have hn := h.2 neigh hs
    unfold handle1Way
    split
    · rename_i htwo
      rw [beq_iff_eq] at htwo
      exact ⟨fun _ => hn.added (by rw [htwo]; decide), hn.pending, fun hf => by cases hf⟩
    · exact hn
  | twoWay now =>
    simp only [nbrMachine, Option.bind_eq_bind, Option.bind_eq_some_iff, Option.pure_def] at hstep
    obtain ⟨neigh, hs, out, hrun, hout⟩ := hstep
    obtain rfl := Option.some.inj hout
    have hn := h.2 neigh hs
    refine NbrTimed.mk_some ?_
    rcases handle2WayReceived_frame hrun with heq | ⟨hinit, state, master, seq, sent, imms, time, hfull, heq⟩
    · rw [heq]
      exact hn
    · rw [heq]
      exact ⟨fun _ => hn.added (by rw [hinit]; decide), hn.pending, fun hf => absurd hf hfull⟩
  | negotiationDone now =>
    simp only [nbrMachine, Option.bind_eq_bind, Option.bind_eq_some_iff, Option.pure_def] at hstep
    obtain ⟨neigh, hs, neigh', hrun, hout⟩ := hstep
    obtain rfl := Option.some.inj hout
    have hn := h.2 neigh hs
    refine NbrTimed.mk_some ?_
    rcases handleNegotiationDone_frame hrun with rfl | ⟨hstate, ⟨summary, rxt, sendList, rfl⟩, -⟩
    · exact hn
    · exact ⟨fun _ => hn.added (by rw [hstate]; decide), hn.pending, fun hf => by cases hf⟩
  | insertRequest lsHdr now =>
    simp only [nbrMachine, Option.bind_eq_bind, Option.bind_eq_some_iff, Option.pure_def] at hstep
    obtain ⟨neigh, hs, hrun⟩ := hstep
    split at hrun
    · cases hrun
    rename_i hstate
    rw [bne_iff_ne, not_not] at hstate
    simp only [Option.bind_eq_some_iff] at hrun
    obtain ⟨neigh', hins, hout⟩ := hrun
    obtain rfl := Option.some.inj hout
    have hn := h.2 neigh hs
    refine NbrTimed.mk_some ?_
    obtain ⟨list, -, rfl⟩ := Option.map_eq_some_iff.1 hins
    exact ⟨hn.added, hn.pending, fun hf => absurd (hstate.symm.trans hf) (by decide)⟩
  | removeRequest lsa =>
    simp only [nbrMachine, Option.bind_eq_bind, Option.bind_eq_some_iff, Option.pure_def] at hstep
    obtain ⟨neigh, hs, neigh', hrun, hout⟩ := hstep
    obtain rfl := Option.some.inj hout
    have hn := h.2 neigh hs
    refine NbrTimed.mk_some ?_
    obtain ⟨list, hlist, rfl⟩ := Option.map_eq_some_iff.1 hrun
    refine ⟨hn.added, hn.pending, fun hf => ?_⟩
    obtain rfl := Option.some.inj (hlist.symm.trans (hn.full hf))
    rfl
  | exchangeDone =>
    simp only [nbrMachine, Option.bind_eq_bind, Option.bind_eq_some_iff, Option.pure_def] at hstep
    obtain ⟨neigh, hs, neigh', hrun, hout⟩ := hstep
    obtain rfl := Option.some.inj hout
    exact NbrTimed.mk_some ((h.2 neigh hs).exchangeDone hrun)
  | loadingDone =>
    simp only [nbrMachine, Option.bind_eq_bind, Option.bind_eq_some_iff, Option.pure_def] at hstep
    obtain ⟨neigh, hs, hrun⟩ := hstep
    split at hrun
    · cases hrun
    rename_i hempty
    rw [bne_iff_ne, not_not] at hempty
    obtain rfl := Option.some.inj hrun
    have hn := h.2 neigh hs
    refine NbrTimed.mk_some ?_
    unfold handleLoadingDone
    split
    · exact hn
    · rename_i hload
      rw [bne_iff_ne, not_not] at hload
      exact ⟨fun _ => hn.added (by rw [hload]; decide), hn.pending, fun _ => hempty⟩
  | inactivity now =>
    simp only [nbrMachine, Option.bind_eq_bind, Option.bind_eq_some_iff, Option.pure_def] at hstep
    obtain ⟨neigh, hs, hrun⟩ := hstep
    split at hrun
    · cases hrun
    rename_i hpos
    simp only [Option.bind_eq_some_iff] at hrun
    obtain ⟨out, hina, hout⟩ := hrun
    obtain rfl := Option.some.inj hout
    have hn := (h.2 neigh hs).inactivity hpos hina
    refine ⟨fun hnone => absurd hnone (Option.some_ne_none _), ?_⟩
    intro n hsome
    obtain rfl := Option.some.inj hsome
    exact hn
  | kill =>
    obtain ⟨neigh, -, rfl⟩ := Option.map_eq_some_iff.1 hstep
    exact ⟨fun _ => rfl, fun n hn => by cases hn⟩

/-- **A step keeps the lists, unless a hello finds them destroyed.** -/
theorem AllListed.step (h : AllListed s) (hok : HelloOk s e)
    (hstep : (nbrMachine ospf thisInterface area deadInterval rid).step s e = some s') : AllListed s' := by
  cases e with
  | hello now =>
    obtain rfl := Option.some.inj hstep
    intro n hn _
    obtain rfl := Option.some.inj hn
    have hexist : (helloNeighbor rid s).ListsExist := by
      unfold helloNeighbor
      cases hs : s.neigh with
      | none => exact ⟨rfl, rfl, rfl, rfl⟩
      | some neigh => exact hok neigh hs
    unfold handleHelloReceived
    dsimp only
    split
    · exact hexist
    · exact hexist
  | oneWay =>
    obtain ⟨neigh, hs, rfl⟩ := Option.map_eq_some_iff.1 hstep
    intro n hn hdown
    obtain rfl := Option.some.inj hn
    have hlist := h neigh hs
    unfold handle1Way at hdown ⊢
    split
    · rename_i htwo
      rw [beq_iff_eq] at htwo
      exact hlist (by rw [htwo]; decide)
    · rename_i htwo
      rw [if_neg htwo] at hdown
      exact hlist hdown
  | twoWay now =>
    simp only [nbrMachine, Option.bind_eq_bind, Option.bind_eq_some_iff, Option.pure_def] at hstep
    obtain ⟨neigh, hs, out, hrun, hout⟩ := hstep
    obtain rfl := Option.some.inj hout
    have hlist := h neigh hs
    intro n hn hdown
    obtain rfl := Option.some.inj hn
    rcases handle2WayReceived_frame hrun with heq | ⟨hinit, state, master, seq, sent, imms, time, -, heq⟩
    · rw [heq] at hdown ⊢
      exact hlist hdown
    · rw [heq]
      exact hlist (by rw [hinit]; decide)
  | negotiationDone now =>
    simp only [nbrMachine, Option.bind_eq_bind, Option.bind_eq_some_iff, Option.pure_def] at hstep
    obtain ⟨neigh, hs, neigh', hrun, hout⟩ := hstep
    obtain rfl := Option.some.inj hout
    have hlist := h neigh hs
    intro n hn hdown
    obtain rfl := Option.some.inj hn
    rcases handleNegotiationDone_frame hrun with rfl | ⟨hstate, -, hexist⟩
    · exact hlist hdown
    · exact hexist (hlist (by rw [hstate]; decide))
  | insertRequest lsHdr now =>
    simp only [nbrMachine, Option.bind_eq_bind, Option.bind_eq_some_iff, Option.pure_def] at hstep
    obtain ⟨neigh, hs, hrun⟩ := hstep
    split at hrun
    · cases hrun
    simp only [Option.bind_eq_some_iff] at hrun
    obtain ⟨neigh', hins, hout⟩ := hrun
    obtain rfl := Option.some.inj hout
    obtain ⟨list, -, rfl⟩ := Option.map_eq_some_iff.1 hins
    intro n hn hdown
    obtain rfl := Option.some.inj hn
    exact ⟨rfl, (h neigh hs hdown).2⟩
  | removeRequest lsa =>
    simp only [nbrMachine, Option.bind_eq_bind, Option.bind_eq_some_iff, Option.pure_def] at hstep
    obtain ⟨neigh, hs, neigh', hrun, hout⟩ := hstep
    obtain rfl := Option.some.inj hout
    obtain ⟨list, -, rfl⟩ := Option.map_eq_some_iff.1 hrun
    intro n hn hdown
    obtain rfl := Option.some.inj hn
    exact ⟨rfl, (h neigh hs hdown).2⟩
  | exchangeDone =>
    simp only [nbrMachine, Option.bind_eq_bind, Option.bind_eq_some_iff, Option.pure_def] at hstep
    obtain ⟨neigh, hs, neigh', hrun, hout⟩ := hstep
    obtain rfl := Option.some.inj hout
    intro n hn hdown
    obtain rfl := Option.some.inj hn
    unfold handleExchangeDone at hrun
    split at hrun
    · obtain rfl := Option.some.inj hrun
      exact h neigh hs hdown
    · rename_i hstate
      rw [bne_iff_ne, not_not] at hstate
      have hexist := h neigh hs (by rw [hstate]; decide)
      obtain ⟨list, -, hout⟩ := Option.map_eq_some_iff.1 hrun
      split at hout
      · obtain rfl := hout
        exact hexist
      · obtain rfl := hout
        exact ⟨rfl, hexist.2⟩
  | loadingDone =>
    simp only [nbrMachine, Option.bind_eq_bind, Option.bind_eq_some_iff, Option.pure_def] at hstep
    obtain ⟨neigh, hs, hrun⟩ := hstep
    split at hrun
    · cases hrun
    obtain rfl := Option.some.inj hrun
    intro n hn hdown
    obtain rfl := Option.some.inj hn
    unfold handleLoadingDone at hdown ⊢
    split
    · rename_i hload
      rw [if_pos hload] at hdown
      exact h neigh hs hdown
    · rename_i hload
      rw [bne_iff_ne, not_not] at hload
      exact h neigh hs (by rw [hload]; decide)
  | inactivity now =>
    simp only [nbrMachine, Option.bind_eq_bind, Option.bind_eq_some_iff, Option.pure_def] at hstep
    obtain ⟨neigh, hs, hrun⟩ := hstep
    split at hrun
    · cases hrun
    simp only [Option.bind_eq_some_iff] at hrun
    obtain ⟨out, hina, hout⟩ := hrun
    obtain rfl := Option.some.inj hout
    intro n hn hdown
    obtain rfl := Option.some.inj hn
    unfold handleInactivityTimer at hina
    split at hina
    · simp only [Option.bind_eq_bind, Option.bind_eq_some_iff, Option.pure_def] at hina
      obtain ⟨-, -, -, -, -, -, -, -, hout⟩ := hina
      obtain rfl := Option.some.inj hout
      exact absurd rfl hdown
    · obtain rfl := Option.some.inj hina
      exact h neigh hs hdown
  | kill =>
    obtain ⟨neigh, -, rfl⟩ := Option.map_eq_some_iff.1 hstep
    exact fun n hn => by cases hn

end Steps

/-! ## Runs -/

theorem handle1Way_val_le_iff (neigh : NeighborDs) :
    (handle1Way neigh).state.val ≤ NeighState.init.val ↔
      neigh.state = .down ∨ neigh.state = .init ∨ neigh.state = .twoWay := by
  unfold handle1Way
  cases hstate : neigh.state <;> simp [hstate, NeighState.val]

/-- **The states of a neighbour.** In every run a neighbour that is Full has an empty request list and one
above Down has its inactivity timer pending. Its lists exist from Init on if no hello arrives after they
were destroyed, and a 1-way event takes it to Init or Down exactly from Down, Init and 2-Way. -/
theorem neighbor_states (ospf : Pds) (thisInterface : OspfIf) (area : AreaDs) (deadInterval : ℚ) (rid : Ip) :
    (∀ s neigh, (nbrMachine ospf thisInterface area deadInterval rid).Reach s → s.neigh = some neigh →
      (neigh.state = .full → neigh.neighLSReqList = some []) ∧ (neigh.state ≠ .down → s.timers = 1)) ∧
    (∀ s neigh, (nbrMachine ospf thisInterface area deadInterval rid).ReachOn HelloOk s → s.neigh = some neigh →
      neigh.state ≠ .down → neigh.ListsExist) ∧
    ∀ neigh, (handle1Way neigh).state.val ≤ NeighState.init.val ↔
      neigh.state = .down ∨ neigh.state = .init ∨ neigh.state = .twoWay := by
  refine ⟨?_, ?_, handle1Way_val_le_iff⟩
  · intro s neigh hrun hs
    have htimed : Timed s := by
      refine hrun.inv ?_ fun s e s' h _ hstep => h.step hstep
      rintro s rfl
      exact ⟨fun _ => rfl, fun n hn => by cases hn⟩
    have hn := htimed.2 neigh hs
    refine ⟨hn.full, fun hdown => ?_⟩
    rw [hn.pending, hn.added hdown]
    rfl
  · intro s neigh hrun hs
    have hlisted : AllListed s := by
      refine hrun.inv ?_ fun s e s' h hok hstep => h.step hok hstep
      rintro s rfl
      exact fun n hn => by cases hn
    exact hlisted neigh hs

/-! ## Samples -/

/-- The machine of the neighbour 2 on a point-to-point interface. -/
def sampleNbr : Machine NbrState NbrEvent :=
  nbrMachine (twoNeighborRouter .p2p .p2p) (twoNeighborIf .p2p .p2p) ⟨⟨0, 0⟩, [], [], [], [], [], false⟩ 40 ⟨0, 2⟩

/-- After a hello, a 2-way event and the negotiation the neighbour is in Exchange, and its lists exist. -/
theorem neighbor_states_sample :
    ∃ s neigh, sampleNbr.exec ⟨none, 0⟩ [.hello 0, .twoWay 0, .negotiationDone 0] = some s ∧ s.neigh = some neigh ∧
      neigh.state = .exchange ∧ s.timers = 1 ∧ neigh.ListsExist := by
  have hstart : sampleNbr.ReachOn HelloOk ⟨none, 0⟩ := .init rfl
  have hfirst : HelloOk ⟨none, 0⟩ (.hello 0) := fun _ hn => absurd hn.symm (Option.some_ne_none _)
  have hheard := hstart.step hfirst rfl
  have htwoWay := hheard.step (show HelloOk _ (.twoWay 0) from trivial) rfl
  have hdone := htwoWay.step (show HelloOk _ (.negotiationDone 0) from trivial) rfl
  have htimer := (neighbor_states _ _ _ _ _).1 _ _ (hdone.mono fun _ _ _ => trivial) rfl
  exact ⟨_, _, rfl, rfl, rfl, htimer.2 (by decide), (neighbor_states _ _ _ _ _).2.1 _ _ hdone rfl (by decide)⟩

/-- A neighbour that is heard again after a timeout has no lists, and a 1-way event leaves a Full
neighbour Full. -/
theorem neighbor_states_lost :
    (sampleNbr.exec ⟨none, 0⟩ [.hello 0, .inactivity 40000000, .hello 50000000]).map (fun s =>
        s.neigh.map fun neigh => (neigh.state, neigh.neighLSReqList)) = some (some (.init, none)) ∧
      (sampleNbr.exec ⟨none, 0⟩ [.hello 0, .twoWay 0, .negotiationDone 0, .exchangeDone, .oneWay]).map (fun s =>
        s.neigh.map NeighborDs.state) = some (some .full) := by
  decide +kernel

end NetSim.Ospf
