import GridSpline.Dense.Basic
import GridSpline.Lattice.Axis
import GridSpline.Equations.Basic

/-!
# Stiffness

What keeps a fit smooth: for every node and every axis along which it has two neighbours, the square
of the second difference there. A second difference is the upper difference minus the lower one;
where the nodes have a spacing each difference is divided by its width and multiplied by the
geometric mean of the two widths, so that it stays comparable to an even spacing.

At the surface of the grid, and next to it, second differences count more. This makes up for the
nodes there being part of fewer of them.

## Main definitions

* `differenceWeights?` — the weights of the lower and the upper difference.
* `edgeFactor` — how much more a second difference counts near the surface.
* `stiffness?` — all weighted squares of a lattice.
* `stiffnessOfArray?` — the same for weights that come in as an array.
-/

namespace GridSpline

open Scalar Failure

variable {α : Type} [Scalar α]

/-- What second differences are drawn to, for each axis a value at every node. -/
abbrev Curvature (α : Type) := List (Array α)

namespace Curvature

/-- The curvature as a table with a row for every node. -/
def toDense (nodes : Nat) (ccv : Curvature α) : Dense α := .ofComponents nodes [ccv.length] ccv

/-- The components of a table; other arrays have none. -/
def ofDense (d : Dense α) : Curvature α := if d.rank = 2 then d.components?.getD [] else []

/-- The same, unless some axis is long enough to need a component and finds one that is no
vector. -/
def ofDense? (res : List Nat) (d : Dense α) : Except (Failure α) (Curvature α) :=
  match res.findIdx? (3 ≤ ·) with
  | some e => if 2 < d.rank ∧ e < d.shape.getD 1 0 then throw .shapeMismatch else return ofDense d
  | none => return ofDense d

end Curvature

/-! ## Second differences -/

/-- The weights of the lower and the upper difference at a node of an axis. -/
def differenceWeights? (spacing : Option (List α)) (centre : Int) :
    Except (Failure α) (α × α) :=
  match spacing with
  | none => return (1, 1)
  | some s => do
    let before ← entryAt s (centre - 1)
    let here ← entryAt s centre
    let after ← entryAt s (centre + 1)
    let d0 := magnitude (here - before)
    let d1 := magnitude (after - here)
    let mean := sqrt (d0 * d1)
    return (mean / d0, mean / d1)

/-- The weights at an array of nodes. Without a spacing they are as many as the array is long. -/
def differenceWeightsAt? (spacing : Option (List α)) (centres : Dense Int) :
    Except (Failure α) (Dense (α × α)) := do
  match spacing, centres.shape with
  | none, [] => throw .wrongKind
  | none, n :: _ => return .vector (List.replicate n (1, 1))
  | some _, shape =>
    return { shape, data := (← centres.entries.mapM (differenceWeights? spacing)).toArray }

/-- The second difference as a linear form around its middle node. -/
def secondDifference (stride : Nat) (w : α × α) : List (Int × α) :=
  [(-(stride : Int), w.1), (0, -(w.1 + w.2)), ((stride : Int), w.2)]

/-! ## Edges -/

/-- The factor of stiffness for a coordinate among `count` of them. -/
def edgeFactor (coord count : Int) : α :=
  if coord = 0 ∨ coord = count - 1 then 2.0
  else if coord = 1 ∨ coord = count - 2 then 1.15
  else 1

/-- The weight of a second difference along an axis, times its edge factors: along the axis the
middle nodes count, along all other axes all nodes. -/
def edgeWeight (axes : List Axis) (along : Axis) (weight : α) (node : Nat) : α :=
  axes.foldl (fun w a => if a.index = along.index then w
      else w * edgeFactor (a.coord node) a.count)
    (weight * edgeFactor ((along.coord node : Int) - 1) ((along.count : Int) - 2))

/-! ## Weighted squares -/

/-- What the second differences along an axis are drawn to. -/
def axisTargets? (ccv : Option (Curvature α)) (axis : Nat) :
    Except (Failure α) (Option (Array α)) :=
  match ccv with
  | none => return none
  | some parts => some <$> require .indexOutOfRange parts[axis]?

/-- What the second difference at a node is drawn to. -/
def curvatureTarget? (targets : Option (Array α)) (node : Nat) : Except (Failure α) (Option α) :=
  match targets with
  | none => return none
  | some part => some <$> require .indexOutOfRange part[node]?

/-- The weighted square of the second difference along an axis at one node. -/
def stiffnessAt? (axes : List Axis) (a : Axis) (weight : α) (spacing : Option (List α))
    (targets : Option (Array α)) (node : Nat) : Except (Failure α) (Residual α) := do
  let w ← differenceWeights? spacing (a.coord node)
  let target ← curvatureTarget? targets node
  return { weight := edgeWeight axes a weight node, base := node,
           terms := secondDifference a.stride w, target }

/-- The weighted squares along one axis. Short axes have none, and need no weight or spacing. -/
def stiffnessAlong? (res : List Nat) (weights : List α) (spacing : List (Option (List α)))
    (ccv : Option (Curvature α)) (a : Axis) : Except (Failure α) (List (Residual α)) := do
  if a.count < 3 then return []
  let s ← require .indexOutOfRange spacing[a.index]?
  let w ← require .indexOutOfRange weights[a.index]?
  let targets ← axisTargets? ccv a.index
  (Lattice.interior res a).reverse.mapM (stiffnessAt? (Lattice.axes res) a w s targets)

/-- The weighted squares of all second differences. -/
def stiffness? (res : List Nat) (weights : List α) (spacing : List (Option (List α)))
    (ccv : Option (Curvature α)) : Except (Failure α) (List (Residual α)) := do
  if res.isEmpty then throw .shapeMismatch
  return (← (Lattice.axes res).mapM (stiffnessAlong? res weights spacing ccv)).flatten

/-! ## Weights in an array -/

/-- Squares times a weight that they share, or each times its own. -/
def reweigh? (weights : List α) (squares : List (Residual α)) : Option (List (Residual α)) :=
  let times (r : Residual α) (w : α) : Residual α := { r with weight := r.weight * w }
  match weights with
  | [w] => some (squares.map (times · w))
  | _ => if weights.length = squares.length then some (List.zipWith times squares weights)
    else none

/-- The squares along an axis with the weights that a table has in the row of the axis. They go with
the nodes, of which the last one comes first. -/
def reweighAlong? (rows : List (List α)) (a : Axis) (squares : List (Residual α)) :
    Option (List (Residual α)) :=
  if a.count < 3 then some [] else reweigh? (rows.getD a.index []).reverse squares

/-- The weighted squares for an array of weights: one for each axis, or in a table a row of them. -/
def stiffnessOfArray? (res : List Nat) (weights : Dense α) (spacing : List (Option (List α)))
    (ccv : Option (Curvature α)) : Except (Failure α) (List (Residual α)) := do
  if weights.rank < 2 then
    return ← stiffness? res (if weights.rank = 0 then [] else weights.entries) spacing ccv
  if res.isEmpty then throw .shapeMismatch
  let even := List.replicate (weights.shape.headD 0) 1
  let parts ← (Lattice.axes res).mapM fun a => do
    let squares ← stiffnessAlong? res even spacing ccv a
    require .shapeMismatch (reweighAlong? (weights.rows?.getD []) a squares)
  return parts.flatten

end GridSpline
