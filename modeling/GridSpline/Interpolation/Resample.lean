import GridSpline.Interpolation.Corner
import GridSpline.Interpolation.Cell

/-!
# Resampling

Node values on one lattice are carried to another lattice over the same domain, by interpolation
between the corners of the cell in which each new node lies. The outermost nodes of both lattices
coincide.
-/

namespace GridSpline

open Scalar Failure

variable {α : Type} [Scalar α]

/-- The place of a node of one lattice, measured in cells of another one. -/
def placeIn? (source target : List Nat) (coords : List Nat) : Option (List α) := do
  let shares ← zipStretch? (fun (c r : Nat) => (c : α) / ((r : α) - 1)) coords target
  zipStretch? (fun share (r : Nat) => share * ((r : α) - 1)) shares source

/-- The node values at the corners of a cell. -/
def cornerValues? (x : Array α) (base : Int) (offsets : List Int) : Option (List α) :=
  offsets.mapM fun o => (Lattice.position? x.size (base + o)).bind (x[·]?)

/-- The interpolated value. Every corner takes part, also one without weight. -/
def blendCorners (weights values : List α) : α :=
  (List.zipWith (· * ·) weights values).foldl (· + ·) 0

/-- The cell of one lattice in which the node of another one with the given coordinates lies. -/
def cellIn? (source target coords : List Nat) : Except (Failure α) (Cell α) :=
  require .shapeMismatch do Cell.ofPlace? source (← placeIn? source target coords)

/-- The cells of one lattice in which the nodes of another one lie. The lattices have to fit even if
there are no nodes. -/
def cellsIn? (source target : List Nat) : Except (Failure α) (List (Cell α)) := do
  let coords ← require .shapeMismatch (Lattice.allCoords? target)
  discard (cellIn? source target (target.map fun _ => 0) : Except (Failure α) (Cell α))
  coords.mapM (cellIn? source target)

/-- Node values at given cells. -/
def sampleCells? (source : List Nat) (cells : List (Cell α)) (x : Array α) :
    Except (Failure α) (Array α) := do
  let offsets := cornerOffsets ((Lattice.strides source).map Int.ofNat)
  let values ← cells.mapM fun cell => do
    let values ← require .indexOutOfRange (cornerValues? x cell.base offsets)
    return blendCorners (cornerWeights cell.fraction) values
  return values.toArray

/-- Node values on one lattice carried to another. -/
def resample? (source target : List Nat) (x : Array α) : Except (Failure α) (Array α) := do
  sampleCells? source (← cellsIn? source target) x

/-- Several node vectors carried to another lattice. -/
def resampleAll? (source target : List Nat) (xs : List (Array α)) :
    Except (Failure α) (List (Array α)) := do
  let cells ← cellsIn? source target
  xs.mapM (sampleCells? source cells)

/-- An array of node values carried to another lattice. The nodes have to exist even if there are no
values for them. -/
def resampleArray? (source target : List Nat) (x : Dense α) : Except (Failure α) (Dense α) := do
  let cells ← cellsIn? source target
  let parts ← require .indexOutOfRange x.components?
  discard (sampleCells? source cells (Array.replicate (x.shape.headD 0) 0))
  let out ← parts.mapM (sampleCells? source cells)
  return .ofComponents (Lattice.size target) (x.shape.drop 1) out

end GridSpline
