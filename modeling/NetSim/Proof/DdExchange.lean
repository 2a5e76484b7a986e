import NetSim.Lib.Machine
import NetSim.Proof.DdParty

/-!
# The database description exchange

Two sides, the packets on their way between them, and a network that delivers packets again. Without
duplicates at the slave, and with no duplicate at the master but of the last packet, the exchange keeps its
numbers in step, and at its end each side requests what it misses. A slave does not answer a duplicate with
what it sent last.

The phases are those of the source: negotiation in ExStart, a slave in Exchange whose master is not, and
then the packets of the master and the answers of the slave in turn.

* `exchange_complete` — every run without such duplicates, and every duplicate in Exchange at the slave.
-/

namespace NetSim.Ospf

/-! ## The machine -/

/-- A side: the packets on their way to it, those delivered to it, and the events raised by it. -/
structure DdPeer where
  neigh : NeighborDs
  inbox : List DdPacket
  past : List DdPacket
  done : Bool
  mismatch : Bool

structure DdWorld where
  hi : DdPeer
  lo : DdPeer

/-- The events at a side. `again i` delivers once more what was delivered as number `i`. -/
inductive DdEvent where
  | twoWay
  | rxmt
  | deliver
  | again (i : ℕ)
  | exchangeDone
deriving DecidableEq

inductive DdStep where
  | hi (now : ℚ) (e : DdEvent)
  | lo (now : ℚ) (e : DdEvent)

namespace DdPeer

variable (p : DdParty) (now : ℚ) (me you : DdPeer)

/-- A packet is handled, and what is sent is on its way. -/
def take (d : DdPacket) : Option (DdPeer × DdPeer) :=
  (p.receive now me.neigh d).map fun out =>
    ({ me with
        neigh := out.neigh
        done := me.done || out.exchangeDone
        mismatch := me.mismatch || out.seqNumberMismatch },
      { you with inbox := you.inbox ++ out.sent })

/-- An event at a side. `OSPF_DD_RXMT_IN_EXSTART` is handled by `start_sending_dd_msg`. -/
def step : DdEvent → Option (DdPeer × DdPeer)
  | .twoWay =>
    (handle2WayReceived p.ospf p.thisInterface now me.neigh).map fun out =>
      ({ me with neigh := out.1 }, { you with inbox := you.inbox ++ out.2.toList })
  | .rxmt =>
    let out := startSendingDDMsg p.ospf p.thisInterface now me.neigh
    some ({ me with neigh := out.1 }, { you with inbox := you.inbox ++ out.2.toList })
  | .deliver =>
    match me.inbox with
    | [] => none
    | d :: inbox => take p now { me with inbox := inbox, past := me.past ++ [d] } you d
  | .again i => me.past[i]?.bind (take p now me you)
  | .exchangeDone =>
    if me.done then (handleExchangeDone me.neigh).map fun neigh => ({ me with neigh := neigh }, you)
    else none

/-- A side that has heard the first hello of the other. -/
def heard : DdPeer where
  neigh := (handleHelloReceived now (neighborNew p.peer)).1
  inbox := []
  past := []
  done := false
  mismatch := false

end DdPeer

/-- Two sides, of which `H` has the higher router id. -/
def ddMachine (H L : DdParty) : Machine DdWorld DdStep where
  init w := ∃ now now', w = ⟨.heard H now, .heard L now'⟩
  step w
    | .hi now e => (w.hi.step H now w.lo e).map fun out => ⟨out.1, out.2⟩
    | .lo now e => (w.lo.step L now w.hi e).map fun out => ⟨out.2, out.1⟩

/-! ## The property -/

/-- A state after the negotiation. -/
def NeighborDs.Negotiated (neigh : NeighborDs) : Prop :=
  neigh.state = .exchange ∨ neigh.state = .loading ∨ neigh.state = .full

/-- An LSA is missing from the database of a side, or more recent there. -/
def DdParty.Misses (p : DdParty) (lsa : LsaHdr) : Prop :=
  ∀ oldLsa, lsdbLookup p.area lsa.lsType lsa.advertisingRouter lsa.linkStateId = some oldLsa →
    0 < lsaCompare p.ospf oldLsa lsa

/-- A side requests what it misses of the database of the other. -/
def Requests (p other : DdParty) (neigh : NeighborDs) : Prop :=
  ∃ reqs, neigh.requested = some reqs ∧ ∀ lsa, lsa ∈ reqs ↔ lsa ∈ other.summary ∧ p.Misses lsa

/-- One master, no mismatch of numbers, and complete requests at the end. -/
structure DdSafe (H L : DdParty) (w : DdWorld) : Prop where
  mismatch : w.hi.mismatch = false ∧ w.lo.mismatch = false
  oneMaster : w.hi.neigh.Negotiated ∨ w.lo.neigh.Negotiated →
    w.hi.neigh.isMaster = true ∧ w.lo.neigh.isMaster = false
  complete : w.hi.done = true → w.lo.done = true → Requests H L w.hi.neigh ∧ Requests L H w.lo.neigh

/-- No packet comes twice to the slave, nor a retransmission in ExStart after the first, and to the master in
Exchange only the last one again. -/
def DdOk (w : DdWorld) : DdStep → Prop
  | .lo _ .deliver => ∀ d ∈ w.lo.inbox.head?, ddCheckDuplicate w.lo.neigh d = false
  | .lo _ (.again _) => False
  | .hi _ (.again i) => w.hi.neigh.state = .exStart ∨ i + 1 = w.hi.past.length
  | _ => True

theorem isWanted_iff (p : DdParty) (lsa : LsaHdr) : isWanted p.ospf p.area lsa = true ↔ p.Misses lsa := by
  unfold isWanted DdParty.Misses
  rw [Option.all_eq_true]
  constructor
  · exact fun h old hold => of_decide_eq_true (h old hold)
  · exact fun h old hold => decide_eq_true (h old hold)

theorem requests_of_requested {p other : DdParty} {neigh : NeighborDs}
    (h : neigh.requested = some (p.wanted other.summary)) : Requests p other neigh := by
  refine ⟨_, h, fun lsa => ?_⟩
  unfold DdParty.wanted
  rw [List.mem_filter, isWanted_iff]

/-! ## Phases -/

variable {H L : DdParty} {w w' : DdWorld} {now : ℚ} {e : DdEvent} {s : UInt32} {lsas restH restL gotH gotL : List LsaHdr}

/-- Only packets of ExStart. -/
def Inits (p : DdParty) (l : List DdPacket) : Prop := ∀ d ∈ l, ∃ seq, d = p.initPacket seq

/-- Nothing has been raised. -/
structure DdWorld.Calm (w : DdWorld) : Prop where
  hiDone : w.hi.done = false
  loDone : w.lo.done = false
  hiMismatch : w.hi.mismatch = false
  loMismatch : w.lo.mismatch = false

/-- Neither side is in Exchange. -/
structure Negotiating (H L : DdParty) (w : DdWorld) : Prop where
  hi : Fresh H w.hi.neigh
  lo : Fresh L w.lo.neigh
  toLo : ∀ d ∈ w.lo.inbox, w.hi.neigh.state = .exStart ∧ d = H.initPacket w.hi.neigh.ddSeqNo
  toHi : Inits L w.hi.inbox
  past : Inits L w.hi.past
  calm : w.Calm

/-- The slave has answered the packet of ExStart. -/
structure SlaveReady (H L : DdParty) (w : DdWorld) : Prop where
  hi : Fresh H w.hi.neigh
  hiState : w.hi.neigh.state = .exStart
  lo : SlaveAt w.lo.neigh w.hi.neigh.ddSeqNo (L.summary.drop ddMaxLsaCount) []
  loState : w.lo.neigh.state = .exchange
  heard : w.lo.neigh.lastrecvDDPacket = some (H.initPacket w.hi.neigh.ddSeqNo)
  toLo : ∀ d ∈ w.lo.inbox, d = H.initPacket w.hi.neigh.ddSeqNo
  toHi : ∃ inits, Inits L inits ∧ w.hi.inbox = inits ++
    [L.dataPacket w.hi.neigh.ddSeqNo false (!(L.summary.drop ddMaxLsaCount).isEmpty)
      (L.summary.take ddMaxLsaCount)]
  past : Inits L w.hi.past
  calm : w.Calm

/-- The master has sent the packet `s + 1` with `lsas`. -/
structure MasterSent (H L : DdParty) (w : DdWorld) (s : UInt32) (lsas restH restL gotH gotL : List LsaHdr) :
    Prop where
  hi : MasterAt w.hi.neigh (s + 1) restH (H.wanted gotH)
  hiState : w.hi.neigh.state = .exchange
  lo : SlaveAt w.lo.neigh s restL (L.wanted gotL)
  loState : w.lo.neigh.state = .exchange
  toLo : ∃ dups, (∀ d ∈ dups, ddCheckDuplicate w.lo.neigh d = true) ∧
    w.lo.inbox = dups ++ [H.dataPacket (s + 1) true (!restH.isEmpty) lsas]
  toHi : w.hi.inbox = []
  ofH : gotL ++ lsas ++ restH = H.summary
  ofL : gotH ++ restL = L.summary
  last : w.hi.past.getLast? = w.hi.neigh.lastrecvDDPacket
  calm : w.Calm

/-- The slave has answered the packet `s` with `lsas`. -/
structure SlaveSent (H L : DdParty) (w : DdWorld) (s : UInt32) (lsas restH restL gotH gotL : List LsaHdr) :
    Prop where
  hi : MasterAt w.hi.neigh s restH (H.wanted gotH)
  hiState : w.hi.neigh.state = .exchange
  lo : SlaveAt w.lo.neigh s restL (L.wanted gotL)
  loState : w.lo.neigh.state = .exchange ∨ w.lo.neigh.Negotiated ∧ w.lo.done = true
  toLo : w.lo.inbox = []
  toHi : w.hi.inbox = [L.dataPacket s false (!restL.isEmpty) lsas]
  ofH : gotL ++ restH = H.summary
  ofL : gotH ++ lsas ++ restL = L.summary
  last : w.hi.past.getLast? = w.hi.neigh.lastrecvDDPacket
  hiDone : w.hi.done = false
  loDone : w.lo.done = (restH.isEmpty && restL.isEmpty)
  mismatch : w.hi.mismatch = false ∧ w.lo.mismatch = false

/-- The master has finished, and so has the slave. -/
structure Finished (H L : DdParty) (w : DdWorld) (s : UInt32) (restL : List LsaHdr) : Prop where
  hiMaster : w.hi.neigh.isMaster = true
  hiState : w.hi.neigh.Negotiated
  hiRequested : w.hi.neigh.requested = some (H.wanted L.summary)
  lo : SlaveAt w.lo.neigh s restL (L.wanted H.summary)
  loState : w.lo.neigh.Negotiated
  toLo : w.lo.inbox = []
  toHi : w.hi.inbox = []
  last : w.hi.past.getLast? = w.hi.neigh.lastrecvDDPacket
  mismatch : w.hi.mismatch = false ∧ w.lo.mismatch = false

/-- The phases of the exchange. -/
inductive DdInv (H L : DdParty) (w : DdWorld) : Prop
  | negotiating (h : Negotiating H L w)
  | slaveReady (h : SlaveReady H L w)
  | masterSent {s : UInt32} {lsas restH restL gotH gotL : List LsaHdr}
      (h : MasterSent H L w s lsas restH restL gotH gotL)
  | slaveSent {s : UInt32} {lsas restH restL gotH gotL : List LsaHdr}
      (h : SlaveSent H L w s lsas restH restL gotH gotL)
  | finished {s : UInt32} {restL : List LsaHdr} (h : Finished H L w s restL)

/-! ## Events at one side -/

section Side

variable {p : DdParty} {me you : DdPeer} {out : DdOut} {d : DdPacket} {inbox : List DdPacket}

theorem DdPeer.take_eq (h : p.receive now me.neigh d = some out) :
    me.take p now you d = some
      ({ me with
          neigh := out.neigh
          done := me.done || out.exchangeDone
          mismatch := me.mismatch || out.seqNumberMismatch },
        { you with inbox := you.inbox ++ out.sent }) := by
  unfold DdPeer.take
  rw [h]
  rfl

theorem DdPeer.step_deliver_eq (hinbox : me.inbox = d :: inbox) (h : p.receive now me.neigh d = some out) :
    me.step p now you .deliver = some
      ({ me with
          neigh := out.neigh
          inbox := inbox
          past := me.past ++ [d]
          done := me.done || out.exchangeDone
          mismatch := me.mismatch || out.seqNumberMismatch },
        { you with inbox := you.inbox ++ out.sent }) := by
  unfold DdPeer.step
  rw [hinbox]
  exact DdPeer.take_eq h

theorem DdPeer.step_deliver_nil (hinbox : me.inbox = []) : me.step p now you .deliver = none := by
  unfold DdPeer.step
  rw [hinbox]

/-- After the negotiation nothing comes of the event `2WayReceived`. -/
theorem DdPeer.step_twoWay_of_ne (hinit : me.neigh.state ≠ .init) :
    me.step p now you .twoWay = some (me, you) := by
  have hno : ¬ (me.neigh.state == .init) = true := by rw [beq_iff_eq]; exact hinit
  unfold DdPeer.step handle2WayReceived
  rw [if_neg hno, Option.map_some, Option.toList_none, List.append_nil]

/-- Outside ExStart nothing comes of the timer. -/
theorem DdPeer.step_rxmt_of_ne (hex : me.neigh.state ≠ .exStart) :
    me.step p now you .rxmt = some (me, you) := by
  have hyes : (me.neigh.state != .exStart) = true := bne_iff_ne.2 hex
  have hsend : startSendingDDMsg p.ospf p.thisInterface now me.neigh = (me.neigh, none) := by
    unfold startSendingDDMsg
    rw [if_pos hyes]
  simp only [DdPeer.step, hsend, Option.toList_none, List.append_nil]

theorem NeighborDs.Negotiated.ne_init {neigh : NeighborDs} (h : neigh.Negotiated) : neigh.state ≠ .init := by
  rcases h with h | h | h <;> rw [h] <;> decide

theorem NeighborDs.Negotiated.ne_exStart {neigh : NeighborDs} (h : neigh.Negotiated) : neigh.state ≠ .exStart := by
  rcases h with h | h | h <;> rw [h] <;> decide

/-- Past the negotiation these events change nothing. -/
theorem DdPeer.step_idle {out : DdPeer × DdPeer} (hstate : me.neigh.Negotiated) (he : e = .twoWay ∨ e = .rxmt)
    (h : me.step p now you e = some out) : out = (me, you) := by
  rcases he with rfl | rfl
  · rw [DdPeer.step_twoWay_of_ne hstate.ne_init] at h
    exact (Option.some.inj h).symm
  · rw [DdPeer.step_rxmt_of_ne hstate.ne_exStart] at h
    exact (Option.some.inj h).symm

theorem DdPeer.step_exchangeDone_of_not (hdone : me.done = false) : me.step p now you .exchangeDone = none := by
  unfold DdPeer.step
  rw [hdone]
  rfl

/-- The events other than deliveries at a side that has finished. -/
theorem DdPeer.step_exchangeDone_frame {out : DdPeer × DdPeer} (hstate : me.neigh.Negotiated)
    (h : me.step p now you .exchangeDone = some out) :
    ∃ neigh, handleExchangeDone me.neigh = some neigh ∧ neigh.Negotiated ∧
      out = ({ me with neigh := neigh }, you) := by
  simp only [DdPeer.step] at h
  split at h
  case isFalse => exact absurd h.symm (Option.some_ne_none out)
  obtain ⟨neigh, hrun, rfl⟩ := Option.map_eq_some_iff.1 h
  refine ⟨neigh, hrun, ?_, rfl⟩
  obtain ⟨⟨state, reqs, seq, rfl, hcase⟩, -⟩ := handleExchangeDone_frame hrun
  rcases hcase with rfl | rfl | rfl
  · exact hstate
  · exact .inr (.inl rfl)
  · exact .inr (.inr rfl)

/-- A master past the negotiation drops a copy of the last packet. -/
theorem DdPeer.step_again_of_last {i : ℕ} {out : DdPeer × DdPeer} (hmaster : me.neigh.isMaster = true)
    (hstate : me.neigh.Negotiated) (hlast : me.past.getLast? = me.neigh.lastrecvDDPacket)
    (hi : i + 1 = me.past.length) (h : me.step p now you (.again i) = some out) : out = (me, you) := by
  obtain ⟨d, hd, htake⟩ := Option.bind_eq_some_iff.1 h
  have hlast' : me.neigh.lastrecvDDPacket = some d := by
    rw [← hlast, List.getLast?_eq_getElem?, ← hi, Nat.add_sub_cancel, hd]
  rw [DdPeer.take_eq (receive_last_of_master p now hmaster hstate hlast')] at htake
  obtain rfl := Option.some.inj htake
  unfold DdOut.quiet
  dsimp only
  rw [Bool.or_false, Bool.or_false, List.append_nil]

end Side

/-! ## Negotiation -/

theorem Fresh.not_negotiated {p : DdParty} {neigh : NeighborDs} (h : Fresh p neigh) : ¬ neigh.Negotiated := by
  intro hneg
  rcases h.state with ⟨hinit, -⟩ | ⟨hex, -⟩
  · exact hneg.ne_init hinit
  · exact hneg.ne_exStart hex

theorem Fresh.isMaster_of_exStart {p : DdParty} {neigh : NeighborDs} (h : Fresh p neigh)
    (hstate : neigh.state = .exStart) : neigh.isMaster = true := by
  rcases h.state with ⟨hinit, -⟩ | ⟨-, hm, -⟩
  · exact absurd (hstate.symm.trans hinit) (by decide)
  · exact hm

section Negotiation

variable {out : DdPeer × DdPeer} {me you : DdPeer} {sent l l' : List DdPacket}

theorem Inits.append {p : DdParty} (h : Inits p l) (h' : Inits p l') : Inits p (l ++ l') := by
  intro d hd
  rcases List.mem_append.1 hd with hd | hd
  · exact h d hd
  · exact h' d hd

theorem Inits.singleton (p : DdParty) (seq : UInt32) : Inits p [p.initPacket seq] := by
  intro d hd
  exact ⟨seq, List.mem_singleton.1 hd⟩

theorem Inits.nil (p : DdParty) : Inits p [] := fun _ hd => absurd hd List.not_mem_nil

/-- The higher side goes on negotiating. -/
theorem Negotiating.hi_next (h : Negotiating H L w) (hfresh : Fresh H me.neigh)
    (hseq : w.hi.neigh.state = .exStart → me.neigh.state = .exStart ∧ me.neigh.ddSeqNo = w.hi.neigh.ddSeqNo)
    (hsent : ∀ d ∈ sent, me.neigh.state = .exStart ∧ d = H.initPacket me.neigh.ddSeqNo)
    (hinbox : Inits L me.inbox) (hpast : Inits L me.past) (hdone : me.done = false)
    (hmismatch : me.mismatch = false) :
    Negotiating H L ⟨me, { w.lo with inbox := w.lo.inbox ++ sent }⟩ := by
  refine ⟨hfresh, h.lo, ?_, hinbox, hpast, ⟨hdone, h.calm.loDone, hmismatch, h.calm.loMismatch⟩⟩
  intro d hd
  rcases List.mem_append.1 hd with hd | hd
  · obtain ⟨hstate, rfl⟩ := h.toLo d hd
    obtain ⟨hstate', hsame⟩ := hseq hstate
    exact ⟨hstate', congrArg H.initPacket hsame.symm⟩
  · exact hsent d hd

/-- The higher side receives a packet of ExStart. -/
theorem Negotiating.hi_take {d : DdPacket} (h : Negotiating H L w)
    (hid : L.ospf.routerId.intIp < H.ospf.routerId.intIp) (hstep : me.take H now w.lo d = some out)
    (hme : me.neigh = w.hi.neigh) (hdone : me.done = false) (hmismatch : me.mismatch = false)
    (hinbox : Inits L me.inbox) (hpast : Inits L me.past) (hd : ∃ seq, d = L.initPacket seq) :
    Negotiating H L ⟨out.1, out.2⟩ := by
  obtain ⟨seq, rfl⟩ := hd
  have hfresh : Fresh H me.neigh := by rw [hme]; exact h.hi
  obtain ⟨neigh', sent, hrun, hfresh', hstate', hcases⟩ := hfresh.receive_init_of_lt now seq hid
  rw [DdPeer.take_eq hrun] at hstep
  obtain rfl := Option.some.inj hstep
  refine h.hi_next hfresh' ?_ ?_ hinbox hpast ?_ ?_
  · intro hex
    refine ⟨hstate', ?_⟩
    rcases hcases with ⟨-, hseq, -⟩ | ⟨hinit, -⟩
    · rw [← hme]
      exact hseq
    · rw [← hme] at hex
      exact absurd (hex.symm.trans hinit) (by decide)
  · intro d hd
    refine ⟨hstate', ?_⟩
    rcases hcases with ⟨-, -, rfl⟩ | ⟨-, rfl⟩
    · exact absurd hd List.not_mem_nil
    · exact List.mem_singleton.1 hd
  · dsimp only
    rw [hdone]
    rfl
  · dsimp only
    rw [hmismatch]
    rfl

/-- Negotiation: an event at the higher side. -/
theorem Negotiating.hi_step (h : Negotiating H L w) (hid : L.ospf.routerId.intIp < H.ospf.routerId.intIp)
    (hstep : w.hi.step H now w.lo e = some out) : Negotiating H L ⟨out.1, out.2⟩ := by
  cases e with
  | twoWay =>
    obtain ⟨neigh', sent, hrun, hfresh', hstate', -, hcases⟩ := h.hi.twoWay now
    simp only [DdPeer.step, hrun, Option.map_some] at hstep
    obtain rfl := Option.some.inj hstep
    refine h.hi_next hfresh' ?_ ?_ h.toHi h.past h.calm.hiDone h.calm.hiMismatch
    · intro hex
      refine ⟨hstate', ?_⟩
      rcases hcases with ⟨-, rfl, -⟩ | ⟨hinit, -⟩
      · rfl
      · exact absurd (hex.symm.trans hinit) (by decide)
    · intro d hd
      refine ⟨hstate', ?_⟩
      rcases hcases with ⟨-, -, rfl⟩ | ⟨-, rfl⟩
      · exact absurd hd List.not_mem_nil
      · exact List.mem_singleton.1 hd
  | rxmt =>
    rcases h.hi.state with ⟨hinit, -⟩ | ⟨hex, hmaster, -⟩
    · have hne : w.hi.neigh.state ≠ .exStart := by rw [hinit]; decide
      rw [DdPeer.step_rxmt_of_ne hne] at hstep
      obtain rfl := Option.some.inj hstep
      exact h
    · obtain ⟨neigh', hrun, hfresh', hstate', hseq', -⟩ := h.hi.toUnlisted.startSending now hex hmaster
      simp only [DdPeer.step, hrun] at hstep
      obtain rfl := Option.some.inj hstep
      refine h.hi_next hfresh' (fun _ => ⟨hstate', hseq'⟩) ?_ h.toHi h.past h.calm.hiDone h.calm.hiMismatch
      intro d hd
      rw [hseq']
      exact ⟨hstate', List.mem_singleton.1 hd⟩
  | deliver =>
    cases hinbox : w.hi.inbox with
    | nil =>
      rw [DdPeer.step_deliver_nil hinbox] at hstep
      cases hstep
    | cons d inbox =>
      have hall : Inits L (d :: inbox) := by rw [← hinbox]; exact h.toHi
      obtain ⟨seq, hd⟩ := hall d List.mem_cons_self
      have htail : Inits L inbox := fun d' hd' => hall d' (List.mem_cons_of_mem d hd')
      have hpast : Inits L (w.hi.past ++ [d]) := by
        rw [hd]
        exact h.past.append (Inits.singleton L seq)
      simp only [DdPeer.step, hinbox] at hstep
      exact h.hi_take hid hstep rfl h.calm.hiDone h.calm.hiMismatch htail hpast ⟨seq, hd⟩
  | again i =>
    obtain ⟨d, hd, htake⟩ := Option.bind_eq_some_iff.1 hstep
    have hmem : d ∈ w.hi.past := List.mem_of_getElem? hd
    exact h.hi_take hid htake rfl h.calm.hiDone h.calm.hiMismatch h.toHi h.past (h.past d hmem)
  | exchangeDone =>
    rw [DdPeer.step_exchangeDone_of_not h.calm.hiDone] at hstep
    cases hstep

/-- The lower side goes on negotiating. -/
theorem Negotiating.lo_next (h : Negotiating H L w) (hfresh : Fresh L me.neigh) (hsent : Inits L sent)
    (hinbox : me.inbox = w.lo.inbox) (hdone : me.done = false) (hmismatch : me.mismatch = false) :
    Negotiating H L ⟨{ w.hi with inbox := w.hi.inbox ++ sent }, me⟩ := by
  refine ⟨h.hi, hfresh, ?_, h.toHi.append hsent, h.past, ⟨h.calm.hiDone, hdone, h.calm.hiMismatch, hmismatch⟩⟩
  intro d hd
  dsimp only at hd
  rw [hinbox] at hd
  exact h.toLo d hd

/-- Negotiation: an event at the lower side. The first packet makes it the slave. -/
theorem Negotiating.lo_step (h : Negotiating H L w) (hid : L.ospf.routerId.intIp < H.ospf.routerId.intIp)
    (hok : DdOk w (.lo now e)) (hstep : w.lo.step L now w.hi e = some out) : DdInv H L ⟨out.2, out.1⟩ := by
  cases e with
  | twoWay =>
    obtain ⟨neigh', sent, hrun, hfresh', -, -, hcases⟩ := h.lo.twoWay now
    simp only [DdPeer.step, hrun, Option.map_some] at hstep
    obtain rfl := Option.some.inj hstep
    refine .negotiating (h.lo_next hfresh' ?_ rfl h.calm.loDone h.calm.loMismatch)
    rcases hcases with ⟨-, -, rfl⟩ | ⟨-, rfl⟩
    · exact Inits.nil L
    · exact Inits.singleton L neigh'.ddSeqNo
  | rxmt =>
    rcases h.lo.state with ⟨hinit, -⟩ | ⟨hex, hmaster, -⟩
    · have hne : w.lo.neigh.state ≠ .exStart := by rw [hinit]; decide
      rw [DdPeer.step_rxmt_of_ne hne] at hstep
      obtain rfl := Option.some.inj hstep
      exact .negotiating h
    · obtain ⟨neigh', hrun, hfresh', -⟩ := h.lo.toUnlisted.startSending now hex hmaster
      simp only [DdPeer.step, hrun] at hstep
      obtain rfl := Option.some.inj hstep
      exact .negotiating (h.lo_next hfresh' (Inits.singleton L _) rfl h.calm.loDone h.calm.loMismatch)
  | deliver =>
    cases hinbox : w.lo.inbox with
    | nil =>
      rw [DdPeer.step_deliver_nil hinbox] at hstep
      cases hstep
    | cons d inbox =>
      have hall := h.toLo
      rw [hinbox] at hall
      obtain ⟨hex, rfl⟩ := hall d List.mem_cons_self
      obtain ⟨neigh', sent, hrun, hslave, hstate', hlast', hsent⟩ :=
        h.lo.receive_init_of_gt now w.hi.neigh.ddSeqNo hid
      rw [DdPeer.step_deliver_eq hinbox hrun] at hstep
      obtain rfl := Option.some.inj hstep
      have hsent' : Inits L sent := by
        rcases hsent with rfl | ⟨seq, rfl⟩
        · exact Inits.nil L
        · exact Inits.singleton L seq
      refine .slaveReady ⟨h.hi, hex, hslave, hstate', hlast', ?_, ⟨w.hi.inbox ++ sent, h.toHi.append hsent', ?_⟩,
        h.past, ⟨h.calm.hiDone, ?_, h.calm.hiMismatch, ?_⟩⟩
      · exact fun d' hd' => (hall d' (List.mem_cons_of_mem _ hd')).2
      · exact (List.append_assoc _ _ _).symm
      · dsimp only
        rw [h.calm.loDone]
        rfl
      · dsimp only
        rw [h.calm.loMismatch]
        rfl
  | again i => exact absurd hok id
  | exchangeDone =>
    rw [DdPeer.step_exchangeDone_of_not h.calm.loDone] at hstep
    cases hstep

/-- The higher side waits for the answer. -/
theorem SlaveReady.hi_next (h : SlaveReady H L w) (hfresh : Fresh H me.neigh) (hstate : me.neigh.state = .exStart)
    (hseq : me.neigh.ddSeqNo = w.hi.neigh.ddSeqNo) (hsent : ∀ d ∈ sent, d = H.initPacket w.hi.neigh.ddSeqNo)
    (hinbox : ∃ inits, Inits L inits ∧ me.inbox = inits ++
      [L.dataPacket w.hi.neigh.ddSeqNo false (!(L.summary.drop ddMaxLsaCount).isEmpty)
        (L.summary.take ddMaxLsaCount)])
    (hpast : Inits L me.past) (hdone : me.done = false) (hmismatch : me.mismatch = false) :
    SlaveReady H L ⟨me, { w.lo with inbox := w.lo.inbox ++ sent }⟩ := by
  have htoLo : ∀ d ∈ w.lo.inbox ++ sent, d = H.initPacket w.hi.neigh.ddSeqNo := by
    intro d hd
    rcases List.mem_append.1 hd with hd | hd
    · exact h.toLo d hd
    · exact hsent d hd
  refine ⟨hfresh, hstate, ?_, h.loState, ?_, ?_, ?_, hpast, ⟨hdone, h.calm.loDone, hmismatch, h.calm.loMismatch⟩⟩
  · dsimp only
    rw [hseq]
    exact h.lo
  · dsimp only
    rw [hseq]
    exact h.heard
  · dsimp only
    rw [hseq]
    exact htoLo
  · dsimp only
    rw [hseq]
    exact hinbox

/-- While it waits, the higher side ignores a packet of ExStart. -/
theorem SlaveReady.hi_take {d : DdPacket} (h : SlaveReady H L w)
    (hid : L.ospf.routerId.intIp < H.ospf.routerId.intIp) (hstep : me.take H now w.lo d = some out)
    (hme : me.neigh = w.hi.neigh) (hdone : me.done = false) (hmismatch : me.mismatch = false)
    (hinbox : ∃ inits, Inits L inits ∧ me.inbox = inits ++
      [L.dataPacket w.hi.neigh.ddSeqNo false (!(L.summary.drop ddMaxLsaCount).isEmpty)
        (L.summary.take ddMaxLsaCount)])
    (hpast : Inits L me.past) (hd : ∃ seq, d = L.initPacket seq) : SlaveReady H L ⟨out.1, out.2⟩ := by
  obtain ⟨seq, rfl⟩ := hd
  have hfresh : Fresh H me.neigh := by rw [hme]; exact h.hi
  obtain ⟨neigh', sent, hrun, hfresh', hstate', hcases⟩ := hfresh.receive_init_of_lt now seq hid
  rw [DdPeer.take_eq hrun] at hstep
  obtain rfl := Option.some.inj hstep
  rcases hcases with ⟨-, hseq, rfl⟩ | ⟨hinit, -⟩
  case inr =>
    rw [hme] at hinit
    exact absurd (h.hiState.symm.trans hinit) (by decide)
  refine h.hi_next hfresh' hstate' ?_ (fun d hd => absurd hd List.not_mem_nil) hinbox hpast ?_ ?_
  · rw [← hme]
    exact hseq
  · dsimp only
    rw [hdone]
    rfl
  · dsimp only
    rw [hmismatch]
    rfl

/-- The higher side becomes the master when the answer comes. -/
theorem SlaveReady.hi_step (h : SlaveReady H L w) (hid : L.ospf.routerId.intIp < H.ospf.routerId.intIp)
    (hstep : w.hi.step H now w.lo e = some out) : DdInv H L ⟨out.1, out.2⟩ := by
  cases e with
  | twoWay =>
    have hne : w.hi.neigh.state ≠ .init := by rw [h.hiState]; decide
    rw [DdPeer.step_twoWay_of_ne hne] at hstep
    obtain rfl := Option.some.inj hstep
    exact .slaveReady h
  | rxmt =>
    have hmaster : w.hi.neigh.isMaster = true := h.hi.isMaster_of_exStart h.hiState
    obtain ⟨neigh', hrun, hfresh', hstate', hseq', -⟩ := h.hi.toUnlisted.startSending now h.hiState hmaster
    simp only [DdPeer.step, hrun] at hstep
    obtain rfl := Option.some.inj hstep
    exact .slaveReady (h.hi_next hfresh' hstate' hseq' (fun d hd => List.mem_singleton.1 hd) h.toHi h.past
      h.calm.hiDone h.calm.hiMismatch)
  | deliver =>
    obtain ⟨inits, hinits, hinbox⟩ := h.toHi
    cases inits with
    | nil =>
      have hsplit : L.summary.take ddMaxLsaCount ++ L.summary.drop ddMaxLsaCount = L.summary :=
        List.take_append_drop ddMaxLsaCount L.summary
      obtain ⟨neigh', hrun, hmaster, hstate', hlast⟩ := h.hi.receive_data now h.hiState hid hsplit
      rw [DdPeer.step_deliver_eq hinbox hrun] at hstep
      obtain rfl := Option.some.inj hstep
      refine @DdInv.masterSent H L _ w.hi.neigh.ddSeqNo _ _ _ _ [] ⟨hmaster, hstate', h.lo, h.loState, ⟨w.lo.inbox, ?_, rfl⟩, rfl, ?_, hsplit,
        ?_, ⟨?_, h.calm.loDone, ?_, h.calm.loMismatch⟩⟩
      · intro d hd
        rw [h.toLo d hd]
        exact ddCheckDuplicate_self h.heard
      · exact List.take_append_drop ddMaxLsaCount H.summary
      · exact List.getLast?_concat.trans hlast.symm
      · dsimp only
        rw [h.calm.hiDone]
        rfl
      · dsimp only
        rw [h.calm.hiMismatch]
        rfl
    | cons d inits =>
      obtain ⟨seq, hd⟩ := hinits d List.mem_cons_self
      have htail : Inits L inits := fun d' hd' => hinits d' (List.mem_cons_of_mem d hd')
      have hpast : Inits L (w.hi.past ++ [d]) := by
        rw [hd]
        exact h.past.append (Inits.singleton L seq)
      rw [List.cons_append] at hinbox
      simp only [DdPeer.step, hinbox] at hstep
      exact .slaveReady (h.hi_take hid hstep rfl h.calm.hiDone h.calm.hiMismatch ⟨inits, htail, rfl⟩ hpast ⟨seq, hd⟩)
  | again i =>
    obtain ⟨d, hd, htake⟩ := Option.bind_eq_some_iff.1 hstep
    have hmem : d ∈ w.hi.past := List.mem_of_getElem? hd
    exact .slaveReady (h.hi_take hid htake rfl h.calm.hiDone h.calm.hiMismatch h.toHi h.past (h.past d hmem))
  | exchangeDone =>
    rw [DdPeer.step_exchangeDone_of_not h.calm.hiDone] at hstep
    cases hstep

/-- The slave waits: packets of ExStart are duplicates. -/
theorem SlaveReady.lo_step (h : SlaveReady H L w) (hok : DdOk w (.lo now e))
    (hstep : w.lo.step L now w.hi e = some out) : DdInv H L ⟨out.2, out.1⟩ := by
  cases e with
  | twoWay =>
    have hne : w.lo.neigh.state ≠ .init := by rw [h.loState]; decide
    rw [DdPeer.step_twoWay_of_ne hne] at hstep
    obtain rfl := Option.some.inj hstep
    exact .slaveReady h
  | rxmt =>
    have hne : w.lo.neigh.state ≠ .exStart := by rw [h.loState]; decide
    rw [DdPeer.step_rxmt_of_ne hne] at hstep
    obtain rfl := Option.some.inj hstep
    exact .slaveReady h
  | deliver =>
    cases hinbox : w.lo.inbox with
    | nil =>
      rw [DdPeer.step_deliver_nil hinbox] at hstep
      cases hstep
    | cons d inbox =>
      have hd : d = H.initPacket w.hi.neigh.ddSeqNo := h.toLo d (by rw [hinbox]; exact List.mem_cons_self)
      have hdup : ddCheckDuplicate w.lo.neigh d = true := by
        rw [hd]
        exact ddCheckDuplicate_self h.heard
      have hno := hok d (by rw [hinbox]; rfl)
      exact absurd (hdup.symm.trans hno) (by decide)
  | again i => exact absurd hok id
  | exchangeDone =>
    rw [DdPeer.step_exchangeDone_of_not h.calm.loDone] at hstep
    cases hstep

end Negotiation

/-! ## Exchange -/

section Exchange

variable {out : DdPeer × DdPeer} {restL : List LsaHdr}

/-- The master waits: it drops copies of the last answer. -/
theorem MasterSent.hi_step (h : MasterSent H L w s lsas restH restL gotH gotL) (hok : DdOk w (.hi now e))
    (hstep : w.hi.step H now w.lo e = some out) : out = (w.hi, w.lo) := by
  have hneg : w.hi.neigh.Negotiated := .inl h.hiState
  cases e with
  | twoWay => exact DdPeer.step_idle hneg (.inl rfl) hstep
  | rxmt => exact DdPeer.step_idle hneg (.inr rfl) hstep
  | deliver =>
    rw [DdPeer.step_deliver_nil h.toHi] at hstep
    cases hstep
  | again i =>
    rcases hok with hex | hi
    · exact absurd hex hneg.ne_exStart
    · exact DdPeer.step_again_of_last h.hi.master hneg h.last hi hstep
  | exchangeDone =>
    rw [DdPeer.step_exchangeDone_of_not h.calm.hiDone] at hstep
    cases hstep

/-- The slave answers the packet of the master. -/
theorem MasterSent.lo_step (h : MasterSent H L w s lsas restH restL gotH gotL) (hok : DdOk w (.lo now e))
    (hstep : w.lo.step L now w.hi e = some out) : DdInv H L ⟨out.2, out.1⟩ := by
  have hneg : w.lo.neigh.Negotiated := .inl h.loState
  cases e with
  | twoWay =>
    obtain rfl := DdPeer.step_idle hneg (.inl rfl) hstep
    exact .masterSent h
  | rxmt =>
    obtain rfl := DdPeer.step_idle hneg (.inr rfl) hstep
    exact .masterSent h
  | deliver =>
    obtain ⟨dups, hdups, hinbox⟩ := h.toLo
    cases dups with
    | nil =>
      obtain ⟨neigh', hrun, hslave, hstate'⟩ := h.lo.receive_next now h.loState rfl h.ofH
      rw [DdPeer.step_deliver_eq hinbox hrun] at hstep
      obtain rfl := Option.some.inj hstep
      refine @DdInv.slaveSent H L _ (s + 1) (restL.take ddMaxLsaCount) restH (restL.drop ddMaxLsaCount) gotH
        (gotL ++ lsas) ⟨h.hi, h.hiState, hslave, .inl hstate', rfl, ?_, h.ofH, ?_, h.last, h.calm.hiDone, ?_,
          ⟨h.calm.hiMismatch, ?_⟩⟩
      · dsimp only
        rw [h.toHi, List.nil_append]
      · rw [List.append_assoc, List.take_append_drop]
        exact h.ofL
      · dsimp only
        rw [h.calm.loDone, Bool.not_not, Bool.false_or]
      · dsimp only
        rw [h.calm.loMismatch]
        rfl
    | cons d dups =>
      have hdup : ddCheckDuplicate w.lo.neigh d = true := hdups d List.mem_cons_self
      have hno := hok d (by rw [hinbox]; rfl)
      exact absurd (hdup.symm.trans hno) (by decide)
  | again i => exact absurd hok id
  | exchangeDone =>
    rw [DdPeer.step_exchangeDone_of_not h.calm.loDone] at hstep
    cases hstep

theorem SlaveSent.loNegotiated (h : SlaveSent H L w s lsas restH restL gotH gotL) : w.lo.neigh.Negotiated := by
  rcases h.loState with hex | ⟨hneg, -⟩
  · exact .inl hex
  · exact hneg

/-- The master sends the next packet, or it has finished. -/
theorem SlaveSent.hi_step (h : SlaveSent H L w s lsas restH restL gotH gotL) (hok : DdOk w (.hi now e))
    (hstep : w.hi.step H now w.lo e = some out) : DdInv H L ⟨out.1, out.2⟩ := by
  have hneg : w.hi.neigh.Negotiated := .inl h.hiState
  cases e with
  | twoWay =>
    obtain rfl := DdPeer.step_idle hneg (.inl rfl) hstep
    exact .slaveSent h
  | rxmt =>
    obtain rfl := DdPeer.step_idle hneg (.inr rfl) hstep
    exact .slaveSent h
  | deliver =>
    obtain ⟨neigh', hmaster, hlast, hstate', hreq, hcases⟩ := h.hi.receive_next now h.hiState rfl h.ofL
    rcases hcases with ⟨rfl, hmore, hrun⟩ | ⟨hgo, hrun, hnext⟩
    · -- neither side has more to describe
      have hrestL : restL = [] := by
        rw [Bool.not_eq_false'] at hmore
        exact List.isEmpty_iff.1 hmore
      subst hrestL
      have hgotH : gotH ++ lsas = L.summary := by rw [← h.ofL, List.append_nil]
      have hgotL : gotL = H.summary := by rw [← h.ofH, List.append_nil]
      rw [DdPeer.step_deliver_eq h.toHi hrun] at hstep
      obtain rfl := Option.some.inj hstep
      refine @DdInv.finished H L _ s [] ⟨hmaster, .inl hstate', ?_, ?_, h.loNegotiated, ?_, rfl, ?_, ?_, h.mismatch.2⟩
      · rw [← hgotH]
        exact hreq
      · rw [← hgotL]
        exact h.lo
      · dsimp only
        rw [h.toLo, List.nil_append]
      · exact List.getLast?_concat.trans hlast.symm
      · dsimp only
        rw [h.mismatch.1]
        rfl
    · have hnot : w.lo.done = false := by
        rw [h.loDone, Bool.and_eq_false_iff]
        rcases hgo with hH | hL
        · left
          rw [List.isEmpty_eq_false_iff]
          exact hH
        · right
          rw [← Bool.not_eq_true', hL]
      have hex : w.lo.neigh.state = .exchange := by
        rcases h.loState with hex | ⟨-, hdone⟩
        · exact hex
        · exact absurd (hnot.symm.trans hdone) (by decide)
      rw [DdPeer.step_deliver_eq h.toHi hrun] at hstep
      obtain rfl := Option.some.inj hstep
      refine @DdInv.masterSent H L _ s (restH.take ddMaxLsaCount) (restH.drop ddMaxLsaCount) restL (gotH ++ lsas) gotL
        ⟨hnext, hstate', h.lo, hex, ⟨[], ?_, ?_⟩, rfl, ?_, h.ofL, ?_, ⟨?_, hnot, ?_, h.mismatch.2⟩⟩
      · exact fun d hd => absurd hd List.not_mem_nil
      · dsimp only
        rw [h.toLo]
      · rw [List.append_assoc, List.take_append_drop]
        exact h.ofH
      · exact List.getLast?_concat.trans hlast.symm
      · dsimp only
        rw [h.hiDone]
        rfl
      · dsimp only
        rw [h.mismatch.1]
        rfl
  | again i =>
    rcases hok with hex | hi
    · exact absurd hex hneg.ne_exStart
    · obtain rfl := DdPeer.step_again_of_last h.hi.master hneg h.last hi hstep
      exact .slaveSent h
  | exchangeDone =>
    rw [DdPeer.step_exchangeDone_of_not h.hiDone] at hstep
    cases hstep

/-- A slave that has answered waits, or it ends its exchange. -/
theorem SlaveSent.lo_step (h : SlaveSent H L w s lsas restH restL gotH gotL) (hok : DdOk w (.lo now e))
    (hstep : w.lo.step L now w.hi e = some out) : DdInv H L ⟨out.2, out.1⟩ := by
  have hneg := h.loNegotiated
  cases e with
  | twoWay =>
    obtain rfl := DdPeer.step_idle hneg (.inl rfl) hstep
    exact .slaveSent h
  | rxmt =>
    obtain rfl := DdPeer.step_idle hneg (.inr rfl) hstep
    exact .slaveSent h
  | deliver =>
    rw [DdPeer.step_deliver_nil h.toLo] at hstep
    cases hstep
  | again i => exact absurd hok id
  | exchangeDone =>
    cases hdone : w.lo.done with
    | false =>
      rw [DdPeer.step_exchangeDone_of_not hdone] at hstep
      cases hstep
    | true =>
      obtain ⟨neigh, hrun, hneg', rfl⟩ := DdPeer.step_exchangeDone_frame hneg hstep
      exact .slaveSent ⟨h.hi, h.hiState, h.lo.exchangeDone hrun, .inr ⟨hneg', hdone⟩, h.toLo, h.toHi, h.ofH, h.ofL,
        h.last, h.hiDone, h.loDone, h.mismatch⟩

/-- After its end the master drops copies of the last answer. -/
theorem Finished.hi_step (h : Finished H L w s restL) (hok : DdOk w (.hi now e))
    (hstep : w.hi.step H now w.lo e = some out) : Finished H L ⟨out.1, out.2⟩ s restL := by
  cases e with
  | twoWay =>
    obtain rfl := DdPeer.step_idle h.hiState (.inl rfl) hstep
    exact h
  | rxmt =>
    obtain rfl := DdPeer.step_idle h.hiState (.inr rfl) hstep
    exact h
  | deliver =>
    rw [DdPeer.step_deliver_nil h.toHi] at hstep
    cases hstep
  | again i =>
    rcases hok with hex | hi
    · exact absurd hex h.hiState.ne_exStart
    · obtain rfl := DdPeer.step_again_of_last h.hiMaster h.hiState h.last hi hstep
      exact h
  | exchangeDone =>
    obtain ⟨neigh, hrun, hneg', rfl⟩ := DdPeer.step_exchangeDone_frame h.hiState hstep
    obtain ⟨⟨state, list, n, rfl, -⟩, hreq⟩ := handleExchangeDone_frame hrun
    exact ⟨h.hiMaster, hneg', hreq.trans h.hiRequested, h.lo, h.loState, h.toLo, h.toHi, h.last, h.mismatch⟩

/-- After its end nothing is on its way to the slave. -/
theorem Finished.lo_step (h : Finished H L w s restL) (hok : DdOk w (.lo now e))
    (hstep : w.lo.step L now w.hi e = some out) : Finished H L ⟨out.2, out.1⟩ s restL := by
  cases e with
  | twoWay =>
    obtain rfl := DdPeer.step_idle h.loState (.inl rfl) hstep
    exact h
  | rxmt =>
    obtain rfl := DdPeer.step_idle h.loState (.inr rfl) hstep
    exact h
  | deliver =>
    rw [DdPeer.step_deliver_nil h.toLo] at hstep
    cases hstep
  | again i => exact absurd hok id
  | exchangeDone =>
    obtain ⟨neigh, hrun, hneg', rfl⟩ := DdPeer.step_exchangeDone_frame h.loState hstep
    exact ⟨h.hiMaster, h.hiState, h.hiRequested, h.lo.exchangeDone hrun, hneg', h.toLo, h.toHi, h.last, h.mismatch⟩

end Exchange

/-! ## Runs -/

theorem DdInv.start (hinit : (ddMachine H L).init w) : DdInv H L w := by
  obtain ⟨now, now', rfl⟩ := hinit
  refine .negotiating ⟨⟨⟨rfl, rfl, rfl, rfl, rfl⟩, .inl ⟨rfl, rfl⟩⟩, ⟨⟨rfl, rfl, rfl, rfl, rfl⟩, .inl ⟨rfl, rfl⟩⟩, ?_,
    Inits.nil L, Inits.nil L, ⟨rfl, rfl, rfl, rfl⟩⟩
  exact fun d hd => absurd hd List.not_mem_nil

/-- **A step keeps the exchange in one of its phases.** -/
theorem DdInv.step {a : DdStep} (h : DdInv H L w) (hid : L.ospf.routerId.intIp < H.ospf.routerId.intIp)
    (hok : DdOk w a) (hstep : (ddMachine H L).step w a = some w') : DdInv H L w' := by
  cases a with
  | hi now e =>
    obtain ⟨out, hrun, rfl⟩ := Option.map_eq_some_iff.1 hstep
    cases h with
    | negotiating h => exact .negotiating (h.hi_step hid hrun)
    | slaveReady h => exact h.hi_step hid hrun
    | masterSent h =>
      obtain rfl := h.hi_step hok hrun
      exact .masterSent h
    | slaveSent h => exact h.hi_step hok hrun
    | finished h => exact .finished (h.hi_step hok hrun)
  | lo now e =>
    obtain ⟨out, hrun, rfl⟩ := Option.map_eq_some_iff.1 hstep
    cases h with
    | negotiating h => exact h.lo_step hid hok hrun
    | slaveReady h => exact h.lo_step hok hrun
    | masterSent h => exact h.lo_step hok hrun
    | slaveSent h => exact h.lo_step hok hrun
    | finished h => exact .finished (h.lo_step hok hrun)

theorem DdInv.reach (hid : L.ospf.routerId.intIp < H.ospf.routerId.intIp)
    (h : (ddMachine H L).ReachOn DdOk w) : DdInv H L w :=
  h.inv (I := DdInv H L) (fun _ hinit => DdInv.start hinit) fun _ _ _ hinv hok hstep => hinv.step hid hok hstep

/-- A phase is safe. -/
theorem DdInv.safe (h : DdInv H L w) : DdSafe H L w := by
  cases h with
  | negotiating h =>
    refine ⟨⟨h.calm.hiMismatch, h.calm.loMismatch⟩, ?_, fun hdone _ => ?_⟩
    · rintro (hneg | hneg)
      · exact absurd hneg h.hi.not_negotiated
      · exact absurd hneg h.lo.not_negotiated
    · exact absurd (h.calm.hiDone.symm.trans hdone) (by decide)
  | slaveReady h =>
    refine ⟨⟨h.calm.hiMismatch, h.calm.loMismatch⟩, fun _ => ⟨h.hi.isMaster_of_exStart h.hiState, h.lo.slave⟩,
      fun hdone _ => ?_⟩
    exact absurd (h.calm.hiDone.symm.trans hdone) (by decide)
  | masterSent h =>
    refine ⟨⟨h.calm.hiMismatch, h.calm.loMismatch⟩, fun _ => ⟨h.hi.master, h.lo.slave⟩, fun hdone _ => ?_⟩
    exact absurd (h.calm.hiDone.symm.trans hdone) (by decide)
  | slaveSent h =>
    refine ⟨h.mismatch, fun _ => ⟨h.hi.master, h.lo.slave⟩, fun hdone _ => ?_⟩
    exact absurd (h.hiDone.symm.trans hdone) (by decide)
  | finished h =>
    exact ⟨h.mismatch, fun _ => ⟨h.hiMaster, h.lo.slave⟩,
      fun _ _ => ⟨requests_of_requested h.hiRequested, requests_of_requested h.lo.requested⟩⟩

/-- In Exchange the lower side is a slave. -/
theorem DdInv.slaveAt (h : DdInv H L w) (hstate : w.lo.neigh.state = .exchange) :
    ∃ seq rest reqs, SlaveAt w.lo.neigh seq rest reqs := by
  cases h with
  | negotiating h => exact absurd (.inl hstate) h.lo.not_negotiated
  | slaveReady h => exact ⟨_, _, _, h.lo⟩
  | masterSent h => exact ⟨_, _, _, h.lo⟩
  | slaveSent h => exact ⟨_, _, _, h.lo⟩
  | finished h => exact ⟨_, _, _, h.lo⟩

/-- **The exchange is complete, and the answer to a duplicate is wrong.** In every run in which no packet comes
twice to the slave, and to the master in Exchange only its last one again, there is one master, no number
mismatches, and at the end each side requests what it misses of the other. A slave in Exchange answers every
duplicate with a packet other than the one it sent last. -/
theorem exchange_complete (H L : DdParty) (hid : L.ospf.routerId.intIp < H.ospf.routerId.intIp) :
    ∀ w, (ddMachine H L).ReachOn DdOk w →
      DdSafe H L w ∧
      ∀ now d, w.lo.neigh.state = .exchange → d.interfaceMTU ≤ interfaceMTUDefault →
        ddCheckDuplicate w.lo.neigh d = true →
        ∃ neigh' e, L.receive now w.lo.neigh d = some ⟨neigh', [e], false, false⟩ ∧
          w.lo.neigh.lastSentDDPacket ≠ some e := by
  intro w hrun
  have hinv := DdInv.reach hid hrun
  refine ⟨hinv.safe, fun now d hstate hmtu hdup => ?_⟩
  obtain ⟨seq, rest, reqs, hslave⟩ := hinv.slaveAt hstate
  exact hslave.receive_duplicate now hstate hdup hmtu

/-! ## Samples -/

instance (w : DdWorld) : ∀ a, Decidable (DdOk w a)
  | .lo _ .deliver => inferInstanceAs (Decidable (∀ d ∈ w.lo.inbox.head?, ddCheckDuplicate w.lo.neigh d = false))
  | .lo _ (.again _) => inferInstanceAs (Decidable False)
  | .hi _ (.again i) => inferInstanceAs (Decidable (w.hi.neigh.state = .exStart ∨ i + 1 = w.hi.past.length))
  | .lo _ .twoWay | .lo _ .rxmt | .lo _ .exchangeDone => inferInstanceAs (Decidable True)
  | .hi _ .twoWay | .hi _ .rxmt | .hi _ .exchangeDone | .hi _ .deliver => inferInstanceAs (Decidable True)

/-- The router `id` with its own router LSA, on a point-to-point link. -/
def sampleParty (id peer : UInt32) : DdParty where
  ospf := { twoNeighborRouter .p2p .p2p with routerId := ⟨0, id⟩ }
  thisInterface := twoNeighborIf .p2p .p2p
  area := ⟨⟨0, 0⟩, [routerLsaOf id 1], [], [], [], [], false⟩
  peer := ⟨0, peer⟩
  deadInterval := 40
  distinct := List.pairwise_singleton _ _
  typed := by
    intro lsa hlsa
    obtain rfl := List.mem_singleton.1 hlsa
    exact fun hbad => by cases hbad
  adjacent := fun _ _ => rfl

/-- A run to the end, in which the master gets its last packet twice. -/
def sampleRun : List DdStep :=
  [.hi 7000 .twoWay, .lo 7000 .deliver, .hi 7000 .deliver, .hi 7000 (.again 0), .hi 7000 .deliver,
    .lo 7000 .deliver, .hi 7000 .deliver, .hi 7000 (.again 2), .lo 7000 .exchangeDone, .hi 7000 .exchangeDone]

theorem exchange_complete_sample : ∃ w, (ddMachine (sampleParty 2 1) (sampleParty 1 2)).ReachOn DdOk w ∧
    (w.hi.done = true ∧ w.lo.done = true) ∧ DdSafe (sampleParty 2 1) (sampleParty 1 2) w := by
  have hstart : (ddMachine (sampleParty 2 1) (sampleParty 1 2)).ReachOn DdOk
      ⟨.heard (sampleParty 2 1) 0, .heard (sampleParty 1 2) 0⟩ := .init ⟨0, 0, rfl⟩
  obtain ⟨w, hrun, hdone⟩ := hstart.exists_of_execOn DdOk (P := fun w => w.hi.done = true ∧ w.lo.done = true) sampleRun
    (by decide +kernel)
  exact ⟨w, hrun, hdone, (exchange_complete (sampleParty 2 1) (sampleParty 1 2) (by decide) w hrun).1⟩

/-- The slave gets the first packet of the master twice: its answer raises a mismatch at the master. -/
theorem exchange_duplicate : ∃ H L : DdParty, L.ospf.routerId.intIp < H.ospf.routerId.intIp ∧
    ∃ w, (ddMachine H L).Reach w ∧ ¬ DdSafe H L w := by
  have hstart : (ddMachine (sampleParty 2 1) (sampleParty 1 2)).Reach
      ⟨.heard (sampleParty 2 1) 0, .heard (sampleParty 1 2) 0⟩ := .init ⟨0, 0, rfl⟩
  obtain ⟨w, hrun, hbad⟩ := hstart.exists_of_exec (P := fun w => w.hi.mismatch = true)
    [.hi 7000 .twoWay, .lo 7000 .deliver, .lo 7000 (.again 0), .hi 7000 .deliver, .hi 7000 .deliver, .hi 7000 .deliver]
    (by decide +kernel)
  refine ⟨sampleParty 2 1, sampleParty 1 2, by decide, w, hrun, fun hsafe => ?_⟩
  exact absurd (hsafe.mismatch.1.symm.trans hbad) (by decide)

end NetSim.Ospf
