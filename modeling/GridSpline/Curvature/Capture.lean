import GridSpline.Equations.Stiffness

/-!
# Captured curvature

The second differences of a solution, at every node along every axis. Nodes that lack a neighbour
along an axis have none there, and get zero.
-/

namespace GridSpline

open Scalar Failure

variable {α : Type} [Scalar α]

/-- A weighted second difference of three node values. -/
def weightedDifference (w : α × α) (before here after : α) : α :=
  w.1 * before - (w.1 + w.2) * here + w.2 * after

/-- The second difference at a node along an axis. -/
def captureAt? (x : Array α) (a : Axis) (spacing : Option (List α)) (node : Nat) :
    Except (Failure α) α :=
  if a.IsInterior node then do
    let w ← differenceWeights? spacing (a.coord node)
    let before ← require .indexOutOfRange x[node - a.stride]?
    let here ← require .indexOutOfRange x[node]?
    let after ← require .indexOutOfRange x[node + a.stride]?
    return weightedDifference w before here after
  else return 0

/-- The second differences along one axis. -/
def captureAlong? (res : List Nat) (x : Array α) (spacing : List (Option (List α))) (a : Axis) :
    Except (Failure α) (Array α) := do
  let s ← require .indexOutOfRange spacing[a.index]?
  return (← (List.range (Lattice.size res)).mapM (captureAt? x a s)).toArray

/-- The second differences along all axes. -/
def captureCurvature? (res : List Nat) (x : Array α) (spacing : List (Option (List α))) :
    Except (Failure α) (Curvature α) := do
  if res.isEmpty then throw .shapeMismatch
  (Lattice.axes res).mapM (captureAlong? res x spacing)

/-- The second differences of an array of node values. More axes than that of the nodes do no harm
only if they have one place each and there is a single second difference along every axis. -/
def captureArray? (res : List Nat) (x : Dense α) (spacing : List (Option (List α))) :
    Except (Failure α) (Curvature α) := do
  if res.isEmpty then throw .shapeMismatch
  let nodes ← require .indexOutOfRange x.shape.head?
  let ccv ← captureCurvature? res ((List.range nodes).map (x.data.getD · 0)).toArray spacing
  let single := (Lattice.axes res).all fun a => (Lattice.interior res a).length = 1
  if x.rank = 1 ∨ (single ∧ x.shape.tail.all (· = 1)) then return ccv else throw .shapeMismatch

end GridSpline
