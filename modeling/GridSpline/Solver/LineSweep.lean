import GridSpline.Lattice.Lines
import GridSpline.Solver.ConjugateGradient
import GridSpline.Stretch

/-!
# Line relaxation

Every line of the lattice, along one axis after the other, is solved with all nodes off the line
held fixed. Lines go in red-black order, so that neighbouring lines see each other's new values.
-/

namespace GridSpline

open Scalar Failure

variable {α : Type} [Scalar α]

/-- The lines of all axes, in the order in which they are solved. -/
def allLines (res : List Nat) : List (List Nat) :=
  (List.range res.length).flatMap fun axis => (Lattice.lines? res axis).getD []

/-- Solves all lines once. -/
def lineSweep (A : SparseMatrix α) (b : Array α) (res : List Nat) (steps : Nat) (tolerance : α)
    (x : Array α) : Array α :=
  (allLines res).foldl (fun x line => (conjugateGradient A b line steps tolerance x).1) x

/-- Solves lines one after the other, up to the first for which it cannot be done. The lines before
that one stay solved. -/
def relaxLines (A : SparseMatrix α) (b : Array α) (steps : Option Nat) (tolerance : Option α) :
    List (List Nat) → Array α → Array α × Except (Failure α) Unit
  | [], x => (x, return ())
  | line :: rest, x =>
    match conjugateGradient? A b (line.map Int.ofNat) steps tolerance x with
    | .ok (x, _) => relaxLines A b steps tolerance rest x
    | .error f => (x, throw f)

/-! ## Errors -/

/-- The length of the residual as a part of the given length. -/
def solutionError (A : SparseMatrix α) (b : Array α) (scale : α) (x : Array α) : α :=
  lengthOf (minus b (A.mulVec x)) / scale

/-- The same if there is a node value for every column. A right-hand side with a single entry stands
for one that has the same entry everywhere, and so does a product with a single entry. -/
def solutionError? (A : SparseMatrix α) (b : Array α) (scale : α) (x : Array α) :
    Except (Failure α) α := do
  let product ← require .shapeMismatch (A.mulVec? x)
  if b.size = product.size then return solutionError A b scale x
  let residual ← require .shapeMismatch (zipStretch? (· - ·) b.toList product.toList)
  return lengthOf residual.toArray / scale

end GridSpline
