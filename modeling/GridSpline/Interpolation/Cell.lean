import GridSpline.Failure.Basic
import GridSpline.Sample.Table
import GridSpline.Stretch
import GridSpline.Word

/-!
# Cells

A point of the grid lies in a cell. The cell is named by its lowest node, and the point by its place
between the lower and the upper node along each axis. The outermost node along an axis is not the
lowest of any cell, so a point on the upper bound has place 1 in the last cell.

## Main definitions

* `Cell.ofPoint?` — the cell of a point.
* `Cell.locate?` — the cells of a table of points, none of which may be outside the bounds.
* `Cell.locateArray?` — the same for points along the last axis of an array.
-/

namespace GridSpline

open Scalar Failure

variable {α : Type} [Scalar α]

/-- The place of a point in a cell. -/
structure Cell (α : Type) where
  /-- The number of the lowest node. -/
  base : Int
  /-- The place between the nodes along each axis. -/
  fraction : List α
deriving Repr

/-- The coordinate of the lower node next to a place along an axis, which is measured in cells. An
axis with a single node has no cell but one that would end at that node. -/
def cellNumber (t : α) (count : Nat) : Int := min (max (cellFloor t) 0) ((count : Int) - 2)

namespace Cell

/-- The cell with the given coordinates at the lowest node, and the place in it, from the place
measured in cells. -/
def ofPlace? (res : List Nat) (t : List α) : Option (Cell α) := do
  let numbers ← zipStretch? cellNumber t res
  if numbers.length ≠ (Lattice.strides res).length then none
  else
    let fraction ← zipStretch? (fun t (n : Int) => t - (n : α)) t numbers
    return { base := Lattice.stepOffset res numbers, fraction }

/-- The cell of a point. -/
def ofPoint? (res : List Nat) (low width point : List α) : Option (Cell α) := do
  ofPlace? res (← zipStretch? (· / ·) (← zipStretch? (· - ·) point low) width)

/-- For each axis whether the point is outside the bounds. -/
def outside? (low high point : List α) : Option (List Bool) := do
  let below ← zipStretch? (fun p l => decide (p < l)) point low
  let above ← zipStretch? (fun p h => decide (h < p)) point high
  zipStretch? (· || ·) below above

/-- Refuses the first point that is outside the bounds, counting from the given number. -/
def refuseOutside (low high : List α) : Nat → List (List α) → Except (Failure α) Unit
  | _, [] => return ()
  | n, point :: rest => do
    let flags ← require .shapeMismatch (outside? low high point)
    match flags.findIdx? id with
    -- The bounds may be given for more axes than the point has.
    | some e =>
      let l ← entryAt low e
      let p ← entryAt point e
      let h ← entryAt high e
      throw (.outsideGrid n l p h)
    | none => refuseOutside low high (n + 1) rest

/-- The cells of all points, none of which may be outside the bounds. The shapes have to fit even if
there are no points. -/
def locate? (res : List Nat) (low high width : List α) (points : SampleTable α) :
    Except (Failure α) (List (Cell α)) := do
  let origin : List α := List.replicate points.columns 0
  discard (require .shapeMismatch (outside? low high origin))
  refuseOutside low high 0 points.rows
  discard (require .shapeMismatch (ofPoint? res low width origin))
  points.rows.mapM fun point => require .shapeMismatch (ofPoint? res low width point)

/-- The cells of the points along the last axis of an array: their lowest nodes as machine words,
and the places. A point outside the bounds is named only if there is a table of points to name it
in. -/
def locateArray? (res : List Nat) (low high width : List α) (points : Dense α) :
    Except (Failure α) (Dense Int × Dense α) := do
  let table := SampleTable.ofLastAxis points
  let cells := locate? res low high width table
  let cells ← if points.rank ≤ 2 then cells else require .shapeMismatch cells.toOption
  let place ← require .shapeMismatch (ofPoint? res low width (List.replicate table.columns 0))
  let shape := if points.rank < 2 then [1] else points.shape.dropLast
  return ({ shape, data := (cells.map fun c => Word.wrap c.base).toArray },
    { shape := shape ++ [place.fraction.length], data := (cells.flatMap (·.fraction)).toArray })

end Cell

end GridSpline
