import Mathlib.Data.Int.Basic
import Mathlib.Data.List.FinRange
import Mathlib.Logic.Function.Basic
import Mathlib.Tactic.Common

/-!
# The routes of the fast emulation

`dijkstra_algo` and what it prints. A link table holds non-negative values of type `int`, the additions of the
source are those of `int`, and the parent `-1` is a missing one. The list that is printed holds device ids.
-/

namespace NetSim.FastEmulation

/-- `V`. -/
def V : ℕ := 500

abbrev Vertex := Fin V

/-- `INT_MAX_VALUE`, the label of a vertex without a path. -/
def intMaxValue : ℕ := 100000

/-- `INT_MAX`. -/
def intMax : ℕ := 2147483647

/-- `graph`, where 0 is no link. -/
abbrev LinkTable := Vertex → Vertex → Fin (intMax + 1)

/-- The sum of two values of type `int`. -/
def addInt (a b : ℤ) : ℤ := Int.bmod (a + b) 4294967296

/-- The local arrays of `dijkstra_algo`. -/
structure Search where
  dist : Vertex → ℤ
  sptSet : Vertex → Bool
  parent : Vertex → Option Vertex

/-- A round of the loop of `minDistance`, on `min` and `min_index`. -/
def minRound (dist : Vertex → ℤ) (sptSet : Vertex → Bool) (acc : ℤ × Vertex) (v : Vertex) : ℤ × Vertex :=
  if sptSet v = false ∧ dist v ≤ acc.1 then (dist v, v) else acc

/-- `minDistance`. -/
def minDistance (dist : Vertex → ℤ) (sptSet : Vertex → Bool) : Vertex :=
  ((List.finRange V).foldl (minRound dist sptSet) (intMax, ⟨0, by decide⟩)).2

namespace Search

/-- The initialization of `dijkstra_algo`. -/
def start (src : Vertex) : Search where
  dist := Function.update (fun _ => intMaxValue) src 0
  sptSet _ := false
  parent _ := none

/-- A round of the inner loop. -/
def relax (graph : LinkTable) (u : Vertex) (s : Search) (v : Vertex) : Search :=
  if s.sptSet v = false ∧ (graph u v).val ≠ 0 ∧ addInt (s.dist u) (graph u v).val < s.dist v then
    { s with
      parent := Function.update s.parent v (some u)
      dist := Function.update s.dist v (addInt (s.dist u) (graph u v).val) }
  else s

/-- A round of the outer loop. -/
def round (graph : LinkTable) (s : Search) : Search :=
  let u := minDistance s.dist s.sptSet
  (List.finRange V).foldl (relax graph u) { s with sptSet := Function.update s.sptSet u true }

/-- The outer loop. -/
def rounds (graph : LinkTable) (src : Vertex) : ℕ → Search
  | 0 => start src
  | count + 1 => (rounds graph src count).round graph

end Search

/-- What is written for a destination: a line that says that there is no path, or the list of devices. -/
inductive PathList
  | noPath
  | path (devices : List ℕ)
deriving DecidableEq, Repr

/-- `printPath`, for as many calls as given. -/
def printPath (parent : Vertex → Option Vertex) : ℕ → Vertex → Option (List ℕ)
  | 0, _ => none
  | calls + 1, j =>
    match parent j with
    | none => some []
    | some p => (printPath parent calls p).map fun list => list ++ [j.val + 1]

/-- `printSolution_list`. -/
def printSolutionList (calls : ℕ) (s : Search) (src dest : Vertex) : Option PathList :=
  if s.dist dest ≠ intMaxValue then
    (printPath s.parent calls dest).map fun list => .path ((src.val + 1) :: list)
  else some .noPath

/-- `dijkstra_algo`. -/
def dijkstraAlgo (calls : ℕ) (graph : LinkTable) (src dest : Vertex) : Option PathList :=
  printSolutionList calls (Search.rounds graph src (V - 1)) src dest

end NetSim.FastEmulation
