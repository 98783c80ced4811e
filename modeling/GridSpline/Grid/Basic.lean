import GridSpline.Failure.Basic
import GridSpline.Lattice.Axis
import GridSpline.Stretch

/-!
# Grids

A grid is a lattice laid over a box of the input space, with the values of all output channels at
its nodes. The nodes divide the box evenly. A spacing, where there is one, does not move the nodes
in the box; it tells how far apart neighbours count when curvature is measured.
-/

namespace GridSpline

open Scalar

variable {α : Type}

/-- A regular grid with node values. -/
structure Grid (α : Type) where
  res : List Nat
  low : List α
  high : List α
  /-- The width of a cell along each axis. -/
  width : List α
  /-- The spacing of each axis, if it has one. -/
  spacing : List (Option (List α))
  /-- For each channel the value at every node. -/
  values : List (Array α)

namespace Grid

variable [Scalar α]

/-- The widths of the cells between two bounds. -/
def cellWidths? (low high : List α) (res : List Nat) : Option (List α) := do
  let extents ← zipStretch? (fun h l => h - l) high low
  zipStretch? (fun extent (r : Nat) => extent / ((r : α) - 1)) extents res

/-- A grid with one value for all nodes and channels. -/
def constant? (low high : List α) (res : List Nat) (channels : Nat)
    (spacing : List (Option (List α))) (default : α) : Option (Grid α) := do
  let width ← cellWidths? low high res
  let values := List.replicate channels (Array.replicate (Lattice.size res) default)
  return { res, low, high, width, spacing, values }

/-- The position of the node with the given coordinates. -/
def positionAt? (low width : List α) (coords : List Nat) : Option (List α) := do
  zipStretch? (· + ·) low (← zipStretch? (fun (c : Nat) w => (c : α) * w) coords width)

/-- The position of every node, in the order of the node numbers. -/
def nodePositions? (g : Grid α) : Option (List (List α)) := do
  (← Lattice.allCoords? g.res).mapM (positionAt? g.low g.width)

/-- The node values as a table with a row for every node. -/
def valueTable (g : Grid α) : Dense α :=
  .table g.values.length ((List.range (Lattice.size g.res)).map fun i => g.values.map (·.getD i 0))

/-- The node values in the shape of the lattice. -/
def shapedValues? (g : Grid α) : Option (Dense α) := Lattice.shaped? g.res g.valueTable

/-- Gives every node a value for every channel. Leading axes of length one beyond those of a table
do not count. -/
def assign? (g : Grid α) (values : Dense α) : Option (Grid α) := do
  let gno := Lattice.size g.res
  let channels := g.values.length
  let table ← (values.dropUnits 2).broadcastTo? [gno, channels]
  let columns := (List.range channels).map fun f =>
    ((List.range gno).map fun i => table.data.getD (i * channels + f) 0).toArray
  return { g with values := columns }

end Grid

end GridSpline
