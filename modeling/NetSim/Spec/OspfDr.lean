import NetSim.Spec.Ospf

/-!
# Election of the designated router

`OSPF_DR.c`. `NULL` pointers that are dereferenced give `none`. An interface comes with the router's
own declaration, as addresses; neighbours declare router ids.
-/

namespace NetSim.Ospf

/-- `drEligibleRouter`. The options are never set. -/
structure DrEligibleRouter where
  routerId : Ip
  routerPriority : UInt8
  routerAddr : Ip
  designatedRouter : Option Ip
  backupDesignatedRouter : Option Ip
deriving DecidableEq, Repr

/-- `ospf_DR_listEligibleRouter`: the router itself, then the neighbours in state 2Way and higher. -/
def listEligibleRouter (ospf : Pds) (thisInterface : OspfIf) : List DrEligibleRouter :=
  (if thisInterface.routerPriority > 0 then
    [⟨ospf.routerId, thisInterface.routerPriority, thisInterface.ipIfAddr,
      thisInterface.designaterRouterAddr, thisInterface.backupDesignaterRouterAddr⟩]
  else []) ++
  (thisInterface.neighborRouterList.filter fun neigh =>
    decide (NeighState.twoWay.val ≤ neigh.state.val) && decide (neigh.neighborPriority > 0)).map fun neigh =>
      ⟨neigh.neighborId, neigh.neighborPriority, neigh.neighborIPAddr, neigh.neighborDesignateRouter,
        neigh.neighborDesignateBackupRouter⟩

/-- The comparison in both elections. `int_ip` is an array, so `>` compares the places of two ids. -/
def DrEligibleRouter.beats (a b : DrEligibleRouter) : Bool :=
  decide (a.routerPriority > b.routerPriority) ||
    a.routerPriority == b.routerPriority && decide (a.routerId.ptr > b.routerId.ptr)

/-- One more candidate: the one so far stays if it beats it. -/
def challenge (champion : Option DrEligibleRouter) (routerInfo : DrEligibleRouter) : Option DrEligibleRouter :=
  if champion.any (·.beats routerInfo) then champion else some routerInfo

/-- One router in the loop of `ospf_DR_electBDR`, with `flag` and `tempBDR`. -/
def electBdrStep (acc : Bool × Option DrEligibleRouter) (routerInfo : DrEligibleRouter) :
    Option (Bool × Option DrEligibleRouter) := do
  let (flag, tempBDR) := acc
  let declaredDR ← sameAs routerInfo.designatedRouter routerInfo.routerId
  -- a router that declares itself to be DR is not eligible
  if declaredDR then return (flag, tempBDR)
  let declaredBDR ← sameAs routerInfo.backupDesignatedRouter routerInfo.routerId
  if declaredBDR then
    if flag then return (true, challenge tempBDR routerInfo)
    else return (true, some routerInfo)
  else if !flag then return (flag, challenge tempBDR routerInfo)
  else return (flag, tempBDR)

/-- `ospf_DR_electBDR`. -/
def electBDR (thisInterface : OspfIf) (eligibleRouter : List DrEligibleRouter) : Option OspfIf := do
  let (_, tempBDR) ← eligibleRouter.foldlM electBdrStep (false, none)
  return { thisInterface with
    backupDesignaterRouter := tempBDR.map DrEligibleRouter.routerId
    backupDesignaterRouterAddr := tempBDR.map DrEligibleRouter.routerAddr }

/-- One router in the loop of `ospf_DR_electDR`. -/
def electDrStep (tempDR : Option DrEligibleRouter) (routerInfo : DrEligibleRouter) :
    Option (Option DrEligibleRouter) := do
  let declaredDR ← sameAs routerInfo.designatedRouter routerInfo.routerAddr
  if declaredDR then return challenge tempDR routerInfo
  else return tempDR

/-- `ospf_DR_electDR`: the interface state and the interface after it. -/
def electDR (ospf : Pds) (thisInterface : OspfIf) (eligibleRouter : List DrEligibleRouter) :
    Option (IfState × OspfIf) := do
  let tempDR ← eligibleRouter.foldlM electDrStep none
  let thisInterface := match tempDR with
    | some tempDR => { thisInterface with
        designaterRouter := some tempDR.routerId
        designaterRouterAddr := some tempDR.routerAddr }
    | none => { thisInterface with
        designaterRouter := thisInterface.backupDesignaterRouter
        designaterRouterAddr := thisInterface.backupDesignaterRouterAddr }
  let isDR ← sameAs thisInterface.designaterRouter ospf.routerId
  if isDR then return (.dr, thisInterface)
  let isBDR ← sameAs thisInterface.backupDesignaterRouter ospf.routerId
  if isBDR then return (.backup, thisInterface) else return (.drOther, thisInterface)

/-- One round: `ospf_DR_listEligibleRouter`, `ospf_DR_electBDR` and `ospf_DR_electDR`. -/
def electRound (ospf : Pds) (thisInterface : OspfIf) : Option (IfState × OspfIf) := do
  let eligibleRoutersList := listEligibleRouter ospf thisInterface
  let thisInterface ← electBDR thisInterface eligibleRoutersList
  electDR ospf thisInterface eligibleRoutersList

/-- The condition for a second round. -/
def electAgain (oldState newState : IfState) : Bool :=
  newState != oldState && (newState != .drOther || decide (IfState.drOther.val < oldState.val))

/-- The first round and, if the state changes, a second one. -/
def electRounds (ospf : Pds) (thisInterface : OspfIf) : Option (IfState × OspfIf) := do
  let (newState, i) ← electRound ospf thisInterface
  if electAgain thisInterface.state newState then electRound ospf i else return (newState, i)

/-- Whether the DR or the BDR has changed. -/
def electionChanged (oldDR oldBDR : Option Ip) (designaterRouter backupDesignaterRouter : Ip) :
    Option Bool := do
  let sameDR ← sameAs oldDR designaterRouter
  if sameDR then (sameAs oldBDR backupDesignaterRouter).map (!·) else return true

/-- `ospf_DR_election`: the new state, the interface, and the neighbours that an `OSPF_Adjok` event is
added for. The log reads both ids. -/
def drElection (ospf : Pds) (thisInterface : OspfIf) : Option (IfState × OspfIf × List Neighbor) := do
  let oldDR := thisInterface.designaterRouter
  let oldBDR := thisInterface.backupDesignaterRouter
  let (newState, thisInterface) ← electRounds ospf thisInterface
  let designaterRouter ← thisInterface.designaterRouter
  let backupDesignaterRouter ← thisInterface.backupDesignaterRouter
  let changed ← electionChanged oldDR oldBDR designaterRouter backupDesignaterRouter
  let adjok := if changed then
      thisInterface.neighborRouterList.filter fun neigh => neigh.state == .twoWay
    else []
  return (newState, thisInterface, adjok)

/-- The events that may start an election. -/
inductive IfEvent
  | waitTimer
  | backupSeen
  | neighborChange
deriving DecidableEq, Repr

/-- `ospf_interface_handleMultipleInterfaceEvent`. -/
def handleMultipleInterfaceEvent (ospf : Pds) (thisInterface : OspfIf) (e : IfEvent) : Option OspfIf :=
  if (e = .backupSeen ∨ e = .waitTimer) ∧ thisInterface.state ≠ .waiting ∨
      e = .neighborChange ∧ thisInterface.state ≠ .drOther ∧ thisInterface.state ≠ .backup ∧
        thisInterface.state ≠ .dr then
    some thisInterface
  else (drElection ospf thisInterface).map fun r => { r.2.1 with state := r.1 }

/-- `ospf_handle_interfaceDown_event`. The neighbours are removed by their own events. -/
def handleInterfaceDown (thisInterface : OspfIf) : OspfIf :=
  { thisInterface with
    designaterRouter := none
    designaterRouterAddr := none
    backupDesignaterRouter := none
    backupDesignaterRouterAddr := none
    updateLSAList := []
    state := .down }

end NetSim.Ospf
