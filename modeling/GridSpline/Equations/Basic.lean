import GridSpline.Sparse.Packed

/-!
# Least-squares equations

A fit minimises an energy: a sum of weighted squares, each of a linear form in a few node values
minus a target. The minimum solves `A x = b`, where `A` and `b` are the derivatives of the energy.
The equations are assembled square by square; each adds the products of its coefficients to `A` and
its coefficients times the target to `b`, all times twice its weight.

## Main definitions

* `Residual` — one weighted square.
* `Residual.value`, `Residual.energy` — the linear form minus the target, and the weighted square.
* `PackedMatrix.addSquare?`, `addTargets?` — the assembly of `A` and of `b`.
-/

namespace GridSpline

open Scalar Failure

variable {α : Type}

/-- A weighted square of a linear form minus a target. -/
structure Residual (α : Type) where
  weight : α
  /-- The node from which the terms are counted. -/
  base : Int
  /-- The nodes that take part, as differences of node numbers, with their coefficients. -/
  terms : List (Int × α)
  /-- What the form is drawn to. Without a target it is drawn to zero and leaves `b` as it is. -/
  target : Option α
deriving Repr

variable [Scalar α]

namespace Residual

/-- The linear form minus the target, for node values given by their numbers. -/
def value (r : Residual α) (x : Int → α) : α :=
  sum (r.terms.map fun (o, c) => c * x (r.base + o)) - r.target.getD 0

/-- The weighted square. -/
def energy (r : Residual α) (x : Int → α) : α := r.weight * (r.value x * r.value x)

/-- Twice the weight: the factor of a square in its derivatives. -/
def slope (r : Residual α) : α := r.weight + r.weight

end Residual

/-! ## The matrix -/

/-- Adds the products of one coefficient, times the factor, with those of nodes further on. -/
def PackedMatrix.addProducts? (node start : Int) (factor : α) :
    List (Int × α) → PackedMatrix α → Except (Failure α) (PackedMatrix α)
  | [], A => return A
  | (o, c) :: rest, A => do
    addProducts? node start factor rest (← A.addTerm? node (o - start) (factor * c))

/-- Adds the products of all pairs of coefficients, each pair once. -/
def PackedMatrix.addPairs? (base : Int) (slope : α) :
    List (Int × α) → PackedMatrix α → Except (Failure α) (PackedMatrix α)
  | [], A => return A
  | (o, c) :: rest, A => do
    addPairs? base slope rest (← addProducts? (base + o) o (slope * c) ((o, c) :: rest) A)

/-- Adds the second derivatives of a weighted square, whose terms are in the order of the nodes. -/
def PackedMatrix.addSquare? (A : PackedMatrix α) (r : Residual α) :
    Except (Failure α) (PackedMatrix α) :=
  addPairs? r.base r.slope r.terms A

/-- Adds the second derivatives of weighted squares. -/
def PackedMatrix.addSquares? (A : PackedMatrix α) (rs : List (Residual α)) :
    Except (Failure α) (PackedMatrix α) :=
  rs.foldlM addSquare? A

/-! ## The right-hand side -/

/-- Adds the coefficients, times the slope and the target, to the right-hand side. -/
def addMultiples? (base : Int) (slope target : α) : List (Int × α) → Array α →
    Except (Failure α) (Array α)
  | [], b => return b
  | (o, c) :: rest, b =>
    match Lattice.position? b.size (base + o) with
    | some i => addMultiples? base slope target rest (b.modify i (· + slope * c * target))
    | none => throw .indexOutOfRange

/-- Adds what a weighted square draws its nodes to. -/
def addTarget? (b : Array α) (r : Residual α) : Except (Failure α) (Array α) :=
  match r.target with
  | some t => addMultiples? r.base r.slope t r.terms b
  | none => return b

/-- Adds what weighted squares draw their nodes to. -/
def addTargets? (b : Array α) (rs : List (Residual α)) : Except (Failure α) (Array α) :=
  rs.foldlM addTarget? b

/-- The right-hand side of a lattice before anything is added. -/
def zeroRhs (res : List Nat) : Array α := Array.replicate (Lattice.size res) 0

end GridSpline
