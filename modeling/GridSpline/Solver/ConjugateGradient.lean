import GridSpline.Failure.Basic
import GridSpline.Sparse.Matrix

/-!
# Conjugate gradients

The values of some nodes are solved for while all other nodes keep theirs. Every step moves along a
direction that is conjugate to the earlier ones, preconditioned by the diagonal, and stops when the
residual is small or after a number of steps.

## Main definitions

* `Descent` — the state: solution, residual and direction.
* `Descent.step`, `Descent.run` — one step, and steps until the residual is small.
* `conjugateGradient` — the solution for some nodes of a larger system.
* `conjugateGradient?` — the same, unless what is given does not fit together.
-/

namespace GridSpline

open Scalar Failure

variable {α : Type} [Scalar α]

/-- The entries of a vector at some nodes. -/
def gather (x : Array α) (nodes : List Nat) : Array α := (nodes.map fun i => x.getD i 0).toArray

/-- The vector with other values at some nodes. -/
def scatter (x : Array α) (nodes : List Nat) (values : Array α) : Array α :=
  nodes.zipIdx.foldl (fun x (i, j) => x.setIfInBounds i (values.getD j 0)) x

/-- The sum of two vectors. -/
def plus (x y : Array α) : Array α := Array.zipWith (· + ·) x y

/-- The difference of two vectors. -/
def minus (x y : Array α) : Array α := Array.zipWith (· - ·) x y

/-- A vector times a number. -/
def times (c : α) (x : Array α) : Array α := x.map (c * ·)

/-- The state of a descent. -/
structure Descent (α : Type) where
  x : Array α
  /-- What the right-hand side exceeds the product by. -/
  residual : Array α
  /-- The direction of the last step, with the squared length of the residual before it. -/
  last : Option (Array α × α)

namespace Descent

/-- The state before the first step. -/
def start (A : SparseMatrix α) (b x : Array α) : Descent α :=
  { x, residual := minus b (A.mulVec x), last := none }

/-- One step. `scale` is the preconditioner, a factor for each entry. -/
def step (A : SparseMatrix α) (scale : Array α) (s : Descent α) : Descent α :=
  let z := Array.zipWith (· * ·) scale s.residual
  let rho := dot s.residual z
  let p := match s.last with
    | none => z
    | some (direction, previous) => plus z (times (rho / previous) direction)
  let q := A.mulVec p
  let length := rho / dot p q
  { x := plus s.x (times length p)
    residual := minus s.residual (times length q)
    last := some (p, rho) }

/-- Steps until the residual is shorter than the bound, at most a given number of them. -/
def run (A : SparseMatrix α) (scale : Array α) (bound : α) : Nat → Descent α → Descent α
  | 0, s => s
  | n + 1, s => if lengthOf s.residual < bound then s else run A scale bound n (s.step A scale)

end Descent

/-- The reciprocals of the diagonal; one where it is zero. -/
def jacobiScale (A : SparseMatrix α) : Array α :=
  (Array.range A.rows.size).map fun i =>
    let d := A.entry i i
    if IsZero d then 1 else 1 / d

/-- Solves `A x = b` from a start. A system with nothing on its right-hand side has the solution
zero, wherever it starts. -/
def descend (A : SparseMatrix α) (b x : Array α) (steps : Nat) (bound : α) : Array α :=
  if IsZero (lengthOf b) then b.map fun _ => 0
  else (Descent.run A (jacobiScale A) bound steps (.start A b x)).x

/-- The length that an error is measured against: that of the right-hand side, unless it is zero. -/
def errorScale (b : Array α) : α :=
  let length := lengthOf b
  if IsZero length then 1 else length

/-- Solves for the given nodes of `A x = b`, with the other nodes moved to the right-hand side.
Returns the node values and the error that is left at these nodes. -/
def conjugateGradient (A : SparseMatrix α) (b : Array α) (nodes : List Nat) (steps : Nat)
    (tolerance : α) (x : Array α) : Array α × α :=
  let scale := errorScale (gather b nodes)
  let rows := A.selectRows nodes
  let inner := rows.selectColumns nodes
  let start := gather x nodes
  let rhs := plus (minus (gather b nodes) (rows.mulVec x)) (inner.mulVec start)
  let solved := descend inner rhs start steps (tolerance * scale)
  (scatter x nodes solved, lengthOf (minus rhs (inner.mulVec solved)) / scale)

/-- The same for nodes that may count from the end, if it can be done at all: the nodes have a row
and an entry on the right-hand side, every column has a node value, and there is a tolerance that
does not ask for an error below zero. Where no number of steps is given there are at most ten for
every node. -/
def conjugateGradient? (A : SparseMatrix α) (b : Array α) (nodes : List Int) (steps : Option Nat)
    (tolerance : Option α) (x : Array α) : Except (Failure α) (Array α × α) := do
  discard (require .indexOutOfRange (nodes.mapM (Lattice.position? b.size)))
  let places ← require .indexOutOfRange (nodes.mapM (Lattice.position? A.rows.size))
  if x.size ≠ A.columns then throw .shapeMismatch
  let t ← require .wrongKind tolerance
  if t * errorScale (gather b places) < 0 then throw .negativeBound
  return conjugateGradient A b places (steps.getD (10 * places.length)) t x

end GridSpline
