import NetSim.Lib.Champion
import Mathlib.Algebra.Order.Field.Rat
import Mathlib.Data.Rat.Floor

/-!
# The rank and the parents of an RPL node

A node of a DODAG keeps the last DIO message of each neighbour. `choose_parents_and_siblings` takes the neighbour
through which its rank is the least as the preferred parent, and sorts the others into parents, siblings and those to
forget. A pointer to a neighbour is its position in the list, which only grows.

`rpl_node_is_joined` and `rpl_node_is_poisoning` are not in the sources, and the quality of a link is what the medium
says of it: both are parameters. Timers, DAO messages and the trickle timer play no part here.
-/

namespace NetSim.Rpl

/-- Numbers of 16 bits are compared as numbers. -/
instance linearOrderUInt16 : LinearOrder UInt16 where
  le_refl := UInt16.le_refl
  le_trans _ _ _ h h' := UInt16.le_trans h h'
  lt_iff_le_not_ge a b := by
    rw [UInt16.lt_iff_toNat_lt, UInt16.le_iff_toNat_le, UInt16.le_iff_toNat_le]
    omega
  le_antisymm _ _ h h' := UInt16.le_antisymm h h'
  le_total := UInt16.le_total
  toDecidableLE := inferInstance
  toDecidableEq := inferInstance
  toDecidableLT := inferInstance

/-- `INFINITE_RANK`. -/
def infiniteRank : UInt16 := 0xFFFF

/-- `RPL_RANK_ROOT`. -/
def rplRankRoot : UInt16 := 1

/-- `RPL_MINIMUM_RANK_INCREMENT`. -/
def rplMinimumRankIncrement : ℚ := 1

/-- `RPL_MAXIMUM_RANK_INCREMENT`. -/
def rplMaximumRankIncrement : ℚ := 16

/-- `RPL_DODAG_CONFIG_OPTION`. -/
structure DodagConfigOption where
  dioIntDoubl : UInt8
  dioIntMin : UInt8
  dioRedun : UInt8
  maxRankIncrease : UInt16
  minHopRankIncrease : UInt16
deriving DecidableEq

/-- A DIO message: the checksum of `RPL_CTRL_MSG`, `RPL_DIO_BASE` and the DODAG configuration option. -/
structure DioMsg (ι : Type*) where
  checksum : UInt16
  rank : UInt16
  g : Bool
  prf : Fin 8
  dtsn : UInt8
  dodagId : ι
  config : Option DodagConfigOption
deriving DecidableEq

/-- `RPL_NEIGHBOR`. -/
structure Neighbor (ι : Type*) where
  nodeId : ℕ
  lastDioMsg : Option (DioMsg ι)
deriving DecidableEq

/-- `RPL_ROOT`. -/
structure RootInfo (ι : Type*) where
  dodagId : Option ι
  dodagPref : UInt8
  grounded : Bool
deriving DecidableEq

/-- `RPL_DODAG`. -/
structure Dodag (ι : Type*) where
  dodagId : ι
  dodagPref : Fin 8
  grounded : Bool
  config : DodagConfigOption
  seqNum : UInt8
  lowestRank : UInt16
  rank : UInt16
  parentList : List ℕ
  siblingList : List ℕ
  prefParent : Option ℕ
deriving DecidableEq

/-- `RPL_NODE` of the device `nodeId`, with the address of its interface and the route that it has to its parent. -/
structure Node (ι : Type*) where
  nodeId : ℕ
  address : ι
  rootInfo : RootInfo ι
  joinedDodag : Option (Dodag ι)
  neighborList : List (Neighbor ι)
  poisonCountSoFar : UInt8
  routeToParent : Option ℕ
deriving DecidableEq

/-- What is not in the sources: the two predicates on a node, and the link qualities. -/
structure Environment (ι : Type*) where
  rplNodeIsJoined : Node ι → Bool
  rplNodeIsPoisoning : Node ι → Bool
  linkQuality : ℕ → ℕ → ℚ
  linkQuality_nonneg : ∀ a b, 0 ≤ linkQuality a b
  linkQuality_le_one : ∀ a b, linkQuality a b ≤ 1

variable {ι : Type*} [DecidableEq ι]

/-! ### DIO.c and DODAG.c -/

/-- `create_root_dio_message` without the DODAG configuration and the sequence number. -/
def createRootDioMessage (n : Node ι) : DioMsg ι where
  checksum := 0
  rank := rplRankRoot
  g := n.rootInfo.grounded
  prf := Fin.ofNat 8 n.rootInfo.dodagPref.toNat
  dtsn := 0
  dodagId := n.rootInfo.dodagId.getD n.address
  config := none

/-- Whether a message takes the place of the best one. -/
def betterDio (best m : DioMsg ι) : Bool :=
  if !best.g && m.g then true
  else if best.g = m.g then decide (best.prf < m.prf) || (decide (best.prf = m.prf) && decide (best.dtsn < m.dtsn))
  else false

/-- Whether `get_preferred_dodag_dio_pdu` looks at a message. -/
def considered (env : Environment ι) (n : Node ι) (m : DioMsg ι) : Bool :=
  m.config.isSome && decide (m.rank < infiniteRank) &&
    !(env.rplNodeIsJoined n && n.joinedDodag.any fun dodag => m.dodagId = dodag.dodagId && m.rank ≥ dodag.rank)

/-- One neighbour in the loop of `get_preferred_dodag_dio_pdu`. -/
def bestDioStep (env : Environment ι) (n : Node ι) (best : Option (DioMsg ι)) (neighbor : Neighbor ι) :
    Option (DioMsg ι) :=
  match neighbor.lastDioMsg with
  | none => best
  | some m => if considered env n m && betterDio (best.getD (createRootDioMessage n)) m then some m else best

/-- The loop: the best message, if it is not the own one. -/
def bestDio (env : Environment ι) (n : Node ι) : Option (DioMsg ι) := n.neighborList.foldl (bestDioStep env n) none

/-- The message of a neighbour. -/
def Node.lastDioMsg (n : Node ι) (i : ℕ) : Option (DioMsg ι) := n.neighborList[i]?.bind (·.lastDioMsg)

/-- Whether a message is of the DODAG iteration that the node has joined. -/
def Node.sameIteration (n : Node ι) (m : DioMsg ι) : Bool :=
  n.joinedDodag.any fun dodag => dodag.dodagId = m.dodagId && dodag.seqNum = m.dtsn

/-- `get_preferred_dodag_dio_pdu`, with `same`. -/
def getPreferredDodagDioPdu (env : Environment ι) (n : Node ι) : Option (DioMsg ι × Bool) :=
  match bestDio env n with
  | some m => some (m, (env.rplNodeIsJoined n || env.rplNodeIsPoisoning n) && n.sameIteration m)
  | none =>
    let oldPrefParent := if env.rplNodeIsJoined n then n.joinedDodag.bind (·.prefParent) else none
    match oldPrefParent.bind n.lastDioMsg with
    | some m =>
      let root := createRootDioMessage n
      if m.g = root.g ∧ m.prf = root.prf then some (m, n.sameIteration m) else none
    | none => none

/-- `rpl_dodag_create`. `none` is the access to a DODAG configuration that is not in the message. -/
def rplDodagCreate (m : DioMsg ι) : Option (Dodag ι) :=
  m.config.map fun config =>
    { dodagId := m.dodagId
      dodagPref := m.prf
      grounded := m.g
      config := config
      seqNum := m.dtsn
      lowestRank := infiniteRank
      rank := infiniteRank
      parentList := []
      siblingList := []
      prefParent := none }

/-- `join_dodag_iteration`. -/
def joinDodagIteration (n : Node ι) (m : DioMsg ι) : Option (Node ι) :=
  (rplDodagCreate m).map fun dodag =>
    { n with
      rootInfo := { n.rootInfo with dodagId := none }
      joinedDodag := some dodag
      routeToParent := if n.joinedDodag.isSome then none else n.routeToParent }

/-- `start_dio_poisoning`. -/
def startDioPoisoning (n : Node ι) (dodag : Dodag ι) : Node ι :=
  { n with
    joinedDodag := some { dodag with
      parentList := [], prefParent := none, rank := infiniteRank, lowestRank := infiniteRank }
    neighborList := n.neighborList.map fun neighbor => { neighbor with lastDioMsg := none }
    poisonCountSoFar := 0
    routeToParent := none }

/-! ### Neighbor.c -/

/-- The increment of the rank over a link: `(UINT16)` of a number that is not negative. -/
def rankIncrement (env : Environment ι) (d r : ℕ) : ℕ :=
  let linkQuality := (env.linkQuality d r + env.linkQuality r d) / 2
  ⌊(rplMaximumRankIncrement - rplMinimumRankIncrement) * (1 - linkQuality) ^ 2 + rplMinimumRankIncrement⌋₊

/-- `compute_candidate_rank`. The sum is one of 16 bits. -/
def computeCandidateRank (env : Environment ι) (d nodeId : ℕ) (m : DioMsg ι) : UInt16 :=
  if nodeId = 0 then infiniteRank
  else
    let rank := UInt16.ofNat (rankIncrement env d nodeId) + m.rank
    if rank > infiniteRank then infiniteRank else rank

/-- Whether a message is of the DODAG iteration and does not poison. -/
def ofIteration (dodag : Dodag ι) (m : DioMsg ι) : Bool :=
  m.dodagId = dodag.dodagId && m.dtsn = dodag.seqNum && !decide (m.rank ≥ infiniteRank)

/-- The rank that the first pass computes for a neighbour. -/
def candidateRank (env : Environment ι) (d : ℕ) (dodag : Dodag ι) (neighbor : Neighbor ι) : Option UInt16 :=
  neighbor.lastDioMsg.bind fun m =>
    if ofIteration dodag m && !decide (m.rank > dodag.rank) then some (computeCandidateRank env d neighbor.nodeId m)
    else none

/-- The first pass forgets the neighbours of a greater rank. -/
def forgetHigher (dodag : Dodag ι) (neighbor : Neighbor ι) : Neighbor ι :=
  { neighbor with lastDioMsg := neighbor.lastDioMsg.filter fun m => !(ofIteration dodag m && m.rank > dodag.rank) }

/-- What the last pass makes of a neighbour. -/
inductive Relation
  | parent
  | sibling
  | forgotten
deriving DecidableEq

/-- The last pass, for one neighbour with its matching rank. -/
def relationTo (bestRank : UInt16) (matchingRank : UInt16) (m : DioMsg ι) : Relation :=
  if matchingRank ≥ infiniteRank then .forgotten
  else if m.rank < bestRank then .parent
  else if m.rank = bestRank then .sibling
  else .forgotten

/-- The relation to the neighbour at a position. -/
def relationAt (bestRank : UInt16) (matchingRanks : List (Option UInt16)) (l : List (Neighbor ι)) (i : ℕ) : Relation :=
  match l[i]?.bind (·.lastDioMsg) with
  | none => .forgotten
  | some m => relationTo bestRank ((matchingRanks[i]?.join).getD infiniteRank) m

/-- The end of `choose_parents_and_siblings`, when a preferred parent has been found. -/
def selectParent (n : Node ι) (dodag : Dodag ι) (matchingRanks : List (Option UInt16)) (bestRankIndex : ℕ)
    (bestRank : UInt16) : Node ι :=
  let rel := relationAt bestRank matchingRanks n.neighborList
  let positions := List.range n.neighborList.length
  { n with
    joinedDodag := some { dodag with
      rank := bestRank
      lowestRank := if bestRank < dodag.lowestRank then bestRank else dodag.lowestRank
      parentList := positions.filter fun i => rel i = .parent
      siblingList := positions.filter fun i => rel i = .sibling
      prefParent := some bestRankIndex }
    neighborList := n.neighborList.mapIdx fun i neighbor =>
      { neighbor with lastDioMsg := if rel i = .forgotten then none else neighbor.lastDioMsg }
    routeToParent := n.neighborList[bestRankIndex]?.map (·.nodeId) }

/-- How a call of `choose_parents_and_siblings` goes on. -/
inductive Outcome (ι : Type*)
  | selected (n : Node ι)
  | poisoning (n : Node ι)
  | again (n : Node ι)
deriving DecidableEq

/-- `choose_parents_and_siblings` of a node in a DODAG, up to its recursive call.

`best_rank_index` is an `INT16`: with an index that it cannot hold the code reads before the arrays. The message of
the preferred parent is read through the wrong type, so that its checksum stands for its rank. -/
def chooseInDodag (env : Environment ι) (n : Node ι) (dodag : Dodag ι) : Option (Outcome ι) :=
  let dodag := { dodag with parentList := [], siblingList := [] }
  let matchingRanks := n.neighborList.map (candidateRank env n.nodeId dodag)
  let n := { n with
    joinedDodag := some dodag
    neighborList := n.neighborList.map (forgetHigher dodag)
    routeToParent := none }
  match FirstLeast.scan 0 none matchingRanks with
  | none =>
    match getPreferredDodagDioPdu env n with
    | some (m, false) => (joinDodagIteration n m).map .again
    | _ => some (.poisoning (startDioPoisoning n dodag))
  | some (bestRankIndex, bestRank) =>
    if bestRankIndex ≥ 2 ^ 15 then none
    else if (bestRank.toNat : ℤ) - dodag.lowestRank.toNat > dodag.config.maxRankIncrease.toNat ∨
        bestRank ≥ infiniteRank then
      match dodag.prefParent.bind n.lastDioMsg with
      | some m =>
        if m.checksum < infiniteRank then (joinDodagIteration n m).map .again
        else some (.poisoning (startDioPoisoning n dodag))
      | none => some (.poisoning (startDioPoisoning n dodag))
    else
      some (.selected (selectParent n dodag matchingRanks bestRankIndex bestRank))

/-- One call. `none` is the access to the DODAG of a node that has not joined any, and what the calls crash on. -/
def chooseOnce (env : Environment ι) (n : Node ι) : Option (Outcome ι) :=
  n.joinedDodag.bind (chooseInDodag env n)

/-- At most `fuel` nested calls. -/
def chooseUpTo (env : Environment ι) : ℕ → Node ι → Option (Outcome ι)
  | 0, n => some (.again n)
  | fuel + 1, n =>
    match chooseOnce env n with
    | some (.again n') => chooseUpTo env fuel n'
    | r => r

/-- `choose_parents_and_siblings`. It never needs a fourth nested call. -/
def chooseParentsAndSiblings (env : Environment ι) (n : Node ι) : Option (Outcome ι) := chooseUpTo env 3 n

end NetSim.Rpl
