import GridSpline.Failure.Basic
import GridSpline.Solver.ConjugateGradient
import GridSpline.Stretch

/-!
# Relaxation

A sweep visits the nodes in order and gives each the value that satisfies its own equation, using
the new values of the nodes before it. It solves the lower triangle of the matrix for the right-hand
side less the product of the upper triangle.

The triangle is solved with its columns divided by their pivots, so that every row begins with the
right-hand side and loses one product after the other. The pivots come in at the end. In their place
the triangle has zeros that take part in the products, so that a value that is not finite does not
pass for a solution.

## Main definitions

* `forwardSubstitution` — solves a lower triangular system.
* `gaussSeidel?` — one sweep; it fails if a node has no pivot.
* `sweeps?`, `sweepsFrom?` — several sweeps, the latter from node values of any number.
-/

namespace GridSpline

open Scalar Failure

variable {α : Type} [Scalar α]

/-- The reciprocals of the diagonal. -/
def pivotScale (A : SparseMatrix α) : Array α :=
  (Array.range A.rows.size).map fun i => 1 / A.entry i i

/-- What is left of a row after one of its entries, from what was left before it. The pivot comes
last, with zero in its place. An entry that vanishes in the division by its pivot is none. -/
def reduceBy (scale found : Array α) (i : Nat) (rest : α) (entry : Nat × α) : α :=
  let (j, v) := entry
  if j < i then
    let c := v * scale.getD j 0
    if IsZero c then rest else rest - found.getD j 0 * c
  else rest - rest * 0

/-- The next entry of the solution of a triangle with ones on its diagonal, after those already
found. -/
def substituteRow (lower : SparseMatrix α) (scale rhs found : Array α) : α :=
  let i := found.size
  (lower.row i).foldl (reduceBy scale found i) (rhs.getD i 0)

/-- Solves a triangle with ones on its diagonal row by row. -/
def substituteRows (lower : SparseMatrix α) (scale rhs : Array α) : Array α :=
  (List.range rhs.size).foldl (fun found _ => found.push (substituteRow lower scale rhs found))
    (Array.emptyWithCapacity rhs.size)

/-- Solves a lower triangular system. -/
def forwardSubstitution (lower : SparseMatrix α) (rhs : Array α) : Array α :=
  let scale := pivotScale lower
  Array.zipWith (· * ·) (substituteRows lower scale rhs) scale

/-- Some row has nothing on the diagonal. -/
def hasZeroPivot (A : SparseMatrix α) : Bool :=
  (List.range A.rows.size).any fun i => decide (IsZero (A.entry i i))

/-- One sweep. -/
def gaussSeidel? (lower upper : SparseMatrix α) (b x : Array α) : Except (Failure α) (Array α) :=
  if hasZeroPivot lower then throw .singular
  else return forwardSubstitution lower (minus b (upper.mulVec x))

/-- Several sweeps. -/
def sweeps? (lower upper : SparseMatrix α) (b : Array α) : Nat → Array α →
    Except (Failure α) (Array α)
  | 0, x => return x
  | n + 1, x => do sweeps? lower upper b n (← gaussSeidel? lower upper b x)

/-- Several sweeps from any node values. There must be one for every column, unless there is no
sweep; a right-hand side with a single entry stands for one that has the same entry everywhere. -/
def sweepsFrom? (A : SparseMatrix α) (b : Array α) (count : Nat) (x : Array α) :
    Except (Failure α) (Array α) := do
  if count = 0 then return x
  if x.size ≠ A.columns then throw .shapeMismatch
  let b ← require .shapeMismatch (stretch? A.rows.size b.toList)
  sweeps? A.lower A.upper b.toArray count x

end GridSpline
