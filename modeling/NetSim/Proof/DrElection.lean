import NetSim.Lib.Machine
import NetSim.Spec.OspfDr

/-!
# The first election of a designated router

No election ends. An interface begins without a DR and without a BDR, nothing but the election sets them, and
the first election reads through these null pointers: at the latest when it compares them with the routers that
it has elected (`election_never_ends`).
-/

namespace NetSim.Ospf

/-! ## Eligible routers -/

/-- An eligible router by its values. It declares 0.0.0.0 as long as it has no DR or BDR. -/
structure RouterInfo where
  id : UInt32
  addr : UInt32
  priority : UInt8
  dr : UInt32
  bdr : UInt32
deriving DecidableEq, Repr

def RouterInfo.DeclaresDr (r : RouterInfo) : Prop := r.dr = r.addr

/-- `OSPF_HELLO_GET_DR_FROM_IF`, `OSPF_HELLO_GET_BDR_FROM_IF`. -/
def declared (router : Option Ip) : UInt32 := (router.map Ip.intIp).getD 0

def DrEligibleRouter.info (e : DrEligibleRouter) : RouterInfo :=
  ⟨e.routerId.intIp, e.routerAddr.intIp, e.routerPriority, declared e.designatedRouter,
    declared e.backupDesignatedRouter⟩

/-- The routers of a list. -/
def Infos (l : List DrEligibleRouter) (r : RouterInfo) : Prop := ∃ e ∈ l, e.info = r

/-! ## The outcome -/

/-- The interface holds these routers as DR and BDR. -/
structure Holds (thisInterface : OspfIf) (dr bdr : RouterInfo) : Prop where
  dr_id : thisInterface.designaterRouter.map Ip.intIp = some dr.id
  dr_addr : thisInterface.designaterRouterAddr.map Ip.intIp = some dr.addr
  bdr_id : thisInterface.backupDesignaterRouter.map Ip.intIp = some bdr.id
  bdr_addr : thisInterface.backupDesignaterRouterAddr.map Ip.intIp = some bdr.addr

/-- The election ends with these routers. -/
def Outcome (ospf : Pds) (thisInterface : OspfIf) (dr bdr : RouterInfo) : Prop :=
  ∃ state i adjok, drElection ospf thisInterface = some (state, i, adjok) ∧ Holds i dr bdr

/-- The eligible routers that a router knows on an interface, itself included. -/
def Eligible (ospf : Pds) (thisInterface : OspfIf) (r : RouterInfo) : Prop :=
  Infos (listEligibleRouter ospf thisInterface) r

/-! ## The first election -/

/-- A router and one of its interfaces. -/
structure DrState where
  ospf : Pds
  thisInterface : OspfIf
deriving DecidableEq, Repr

/-- No DR and no BDR, as an interface begins. -/
structure Unelected (thisInterface : OspfIf) : Prop where
  dr : thisInterface.designaterRouter = none
  drAddr : thisInterface.designaterRouterAddr = none
  bdr : thisInterface.backupDesignaterRouter = none
  bdrAddr : thisInterface.backupDesignaterRouterAddr = none

/-- `change` is anything that happens apart from the other two. It may leave the router and the interface in any state, but
does not write what the election writes. -/
inductive DrEvent
  | change (ospf : Pds) (thisInterface : OspfIf)
  | event (e : IfEvent)
  | down

/-- An interface over time. Where the election reads through a null pointer there is no next state. -/
def drMachine : Machine DrState DrEvent where
  init s := Unelected s.thisInterface
  step s
    | .change ospf thisInterface => some ⟨ospf, { thisInterface with
        designaterRouter := s.thisInterface.designaterRouter
        designaterRouterAddr := s.thisInterface.designaterRouterAddr
        backupDesignaterRouter := s.thisInterface.backupDesignaterRouter
        backupDesignaterRouterAddr := s.thisInterface.backupDesignaterRouterAddr }⟩
    | .event e => (handleMultipleInterfaceEvent s.ospf s.thisInterface e).map fun i => ⟨s.ospf, i⟩
    | .down => some ⟨s.ospf, handleInterfaceDown s.thisInterface⟩

variable {ospf : Pds} {thisInterface : OspfIf} {s s' : DrState}

/-- **A first election** does not end. If its rounds do not fail, the comparison with the DR of before does. -/
theorem Unelected.drElection (h : Unelected thisInterface) (ospf : Pds) : drElection ospf thisInterface = none := by
  unfold Ospf.drElection
  dsimp only
  rw [h.dr, h.bdr]
  cases electRounds ospf thisInterface with
  | none => rfl
  | some r =>
    obtain ⟨newState, i⟩ := r
    simp only [Option.bind_eq_bind, Option.bind_some]
    cases i.designaterRouter with
    | none => rfl
    | some dr =>
      cases i.backupDesignaterRouter with
      | none => rfl
      | some bdr => rfl

/-- One event. -/
theorem Unelected.step (h : Unelected s.thisInterface) (e : DrEvent) (hs : drMachine.step s e = some s') :
    Unelected s'.thisInterface := by
  cases e with
  | change ospf thisInterface =>
    cases hs
    exact ⟨h.dr, h.drAddr, h.bdr, h.bdrAddr⟩
  | event e =>
    obtain ⟨i, hi, rfl⟩ := Option.map_eq_some_iff.1 hs
    unfold handleMultipleInterfaceEvent at hi
    split at hi
    · cases hi
      exact h
    · rw [h.drElection] at hi
      cases hi
  | down =>
    cases hs
    exact ⟨rfl, rfl, rfl, rfl⟩

theorem unelected_of_reach (h : drMachine.Reach s) : Unelected s.thisInterface :=
  Machine.ReachOn.inv (I := fun s => Unelected s.thisInterface) (fun _ hinit => hinit)
    (fun _ e _ hi _ hs => hi.step e hs) h

/-- What the elections of two routers are to come to: the same DR and BDR, which differ if there are two eligible routers,
the BDR none that declares itself DR. -/
def Agree (s s' : DrState) : Prop :=
  ∃ dr bdr, Outcome s.ospf s.thisInterface dr bdr ∧ Outcome s'.ospf s'.thisInterface dr bdr ∧
    (2 ≤ (listEligibleRouter s.ospf s.thisInterface).length → dr ≠ bdr) ∧ ¬ bdr.DeclaresDr

/-- **No election ends** with a DR and a BDR, in whatever states the routers are, so no two routers agree. -/
theorem election_never_ends (h : drMachine.Reach s) :
    (∀ dr bdr, ¬ Outcome s.ospf s.thisInterface dr bdr) ∧ ∀ s', ¬ Agree s s' := by
  have hends : ∀ dr bdr, ¬ Outcome s.ospf s.thisInterface dr bdr := by
    rintro dr bdr ⟨state, i, adjok, hel, -⟩
    rw [(unelected_of_reach h).drElection] at hel
    cases hel
  refine ⟨hends, ?_⟩
  rintro s' ⟨dr, bdr, hout, -⟩
  exact hends dr bdr hout

/-! ## Two routers -/

def segmentIp (a : UInt32) : Ip := ⟨a.toNat, a⟩

/-- Router `a` as a neighbour that has no DR and BDR. -/
def segmentNeighbor (a : UInt32) : Neighbor :=
  ⟨.twoWay, segmentIp a, 1, segmentIp a, some (segmentIp 0), some (segmentIp 0), [], [], [], false, 0⟩

/-- The interface of router `a`, which waits for its first election, and has one neighbour. -/
def segmentIf (a neighbor : UInt32) : OspfIf :=
  ⟨1, .broadcast, .waiting, segmentIp a, segmentIp 0xffffff00, segmentIp 0, 1, [segmentNeighbor neighbor],
    none, none, none, none, 0, 0, []⟩

def segmentRouter (a neighbor : UInt32) : DrState :=
  ⟨⟨segmentIp a, [segmentIf a neighbor], 5000000, false, false, 3600, 1800000000, 60000000⟩, segmentIf a neighbor⟩

theorem segmentRouter_reach (a neighbor : UInt32) : drMachine.Reach (segmentRouter a neighbor) :=
  .init ⟨rfl, rfl, rfl, rfl⟩

theorem election_never_ends_segment :
    (∀ dr bdr, ¬ Outcome (segmentRouter 1 2).ospf (segmentRouter 1 2).thisInterface dr bdr) ∧
      ∀ s', ¬ Agree (segmentRouter 1 2) s' :=
  election_never_ends (segmentRouter_reach 1 2)

/-- Routers 1 and 2 know the same eligible routers: each other. -/
theorem segment_eligible (r : RouterInfo) :
    Eligible (segmentRouter 1 2).ospf (segmentRouter 1 2).thisInterface r ↔
      Eligible (segmentRouter 2 1).ospf (segmentRouter 2 1).thisInterface r := by
  have hone : (listEligibleRouter (segmentRouter 1 2).ospf (segmentIf 1 2)).map DrEligibleRouter.info =
      [⟨1, 1, 1, 0, 0⟩, ⟨2, 2, 1, 0, 0⟩] := by decide
  have htwo : (listEligibleRouter (segmentRouter 2 1).ospf (segmentIf 2 1)).map DrEligibleRouter.info =
      [⟨2, 2, 1, 0, 0⟩, ⟨1, 1, 1, 0, 0⟩] := by decide
  have hmem : ∀ l : List DrEligibleRouter, Infos l r ↔ r ∈ l.map DrEligibleRouter.info :=
    fun l => List.mem_map.symm
  unfold Eligible
  rw [hmem, hmem]
  have hif : ∀ a b, (segmentRouter a b).thisInterface = segmentIf a b := fun _ _ => rfl
  rw [hif, hif, hone, htwo]
  simp only [List.mem_cons, List.not_mem_nil, or_false]
  exact or_comm

/-- Their first election fails at the first entry of the list, router 1 itself. -/
theorem drElection_first : ¬ ∀ s s' : DrState, drMachine.Reach s → drMachine.Reach s' →
    (∀ r, Eligible s.ospf s.thisInterface r ↔ Eligible s'.ospf s'.thisInterface r) → Agree s s' := by
  intro hall
  obtain ⟨dr, bdr, ⟨state, i, adjok, hel, -⟩, -⟩ := hall (segmentRouter 1 2) (segmentRouter 2 1)
    (segmentRouter_reach 1 2) (segmentRouter_reach 2 1) segment_eligible
  have hnone : drElection (segmentRouter 1 2).ospf (segmentRouter 1 2).thisInterface = none := by decide
  rw [hnone] at hel
  cases hel

end NetSim.Ospf
