import GridSpline.Interpolation.Corner
import GridSpline.Interpolation.Cell
import GridSpline.Sparse.Matrix

/-!
# The interpolation matrix

The value of a fit at a point is a weighted sum of the node values at the corners of its cell. The
matrix has a row for every point with these weights. Weights of zero are left out, so that a node
outside the grid with no weight does no harm.
-/

namespace GridSpline

open Scalar Failure

variable {α : Type} [Scalar α]

/-- The places that the corners of all cells have in the matrix, by point. -/
def cornerPlaces (bases offsets : List Int) : List (Int × Int) :=
  bases.zipIdx.flatMap fun (base, n) => offsets.map fun o => ((n : Int), base + o)

/-- The matrix of the given weights, which are listed point by point. -/
def interpolationMatrix? (bases : List Int) (weights : List α) (offsets : List Int) (nodes : Nat) :
    Except (Failure α) (SparseMatrix α) := do
  let places := cornerPlaces bases offsets
  if weights.length ≠ places.length then throw .indexOutOfRange
  let entries := (places.zip weights).filterMap fun ((i, j), w) =>
    if IsZero w then none else some (i, j, w)
  require .shapeMismatch (SparseMatrix.ofTriplets? bases.length nodes entries)

end GridSpline
