import GridSpline.Binary64

/-!
# Scalars

The fit is written once, for any type of scalars: it runs on floating-point numbers and is reasoned
about on real numbers. `Scalar` collects what the algorithm asks of such a type. It is a class of
operations only; no law is assumed, so nothing here is false of rounded arithmetic.

## Comparisons

A floating-point type has a value that is no number, which compares false with everything. Order
tests are therefore never negated into each other: `a < b` and `¬ b ≤ a` are different tests.
Equality of scalars is `a ≤ b ∧ b ≤ a`, and a scalar is a number when `a ≤ a`.

## Main definitions

* `Scalar` — the operations.
* `Scalar.IsZero`, `Scalar.IsNumber`, `Scalar.IsFinite` — decidable tests.
* `Scalar.larger`, `Scalar.maximum`, `Scalar.minimum` — two kinds of greatest value, told apart by
  what they do with a value that is no number.
* `Scalar.sum`, `Scalar.dot`, `Scalar.lengthOf` — the vector operations of the solver.
-/

namespace GridSpline

/-- What the fit asks of a type of numbers. -/
class Scalar (α : Type) extends Zero α, One α, Add α, Sub α, Mul α, Div α, Neg α, NatCast α,
    IntCast α, OfScientific α, LT α, LE α where
  /-- `a < b` can be tested. -/
  decidableLT : DecidableLT α
  /-- `a ≤ b` can be tested. -/
  decidableLE : DecidableLE α
  /-- The square root. -/
  sqrt : α → α
  /-- The exponential function. -/
  exp : α → α
  /-- The natural logarithm. -/
  log : α → α
  /-- `pow x y` is `x` to the power `y`. -/
  pow : α → α → α
  /-- The greatest integer at most `x`, if `x` is finite. -/
  floor? : α → Except NotFinite Int
  /-- The greatest integer at most `x`, for use as a cell number. A scalar whose integer part is not
  the number of any cell, because it has none or it exceeds a machine word, counts as far below. -/
  cellFloor : α → Int

namespace Scalar

variable {α : Type} [Scalar α]

instance : DecidableLT α := Scalar.decidableLT

instance : DecidableLE α := Scalar.decidableLE

/-! ## Tests -/

/-- Equal to zero, of either sign. -/
def IsZero (x : α) : Prop := x ≤ 0 ∧ 0 ≤ x

instance (x : α) : Decidable (IsZero x) := inferInstanceAs (Decidable (_ ∧ _))

/-- A number: what is none does not even compare with itself. -/
def IsNumber (x : α) : Prop := x ≤ x

instance (x : α) : Decidable (IsNumber x) := inferInstanceAs (Decidable (x ≤ x))

/-- A finite number: subtracted from itself it gives zero. -/
def IsFinite (x : α) : Prop := IsZero (x - x)

instance (x : α) : Decidable (IsFinite x) := inferInstanceAs (Decidable (IsZero _))

/-! ## Integer parts -/

/-- The integer part, rounded towards zero. -/
def truncate? (x : α) : Except NotFinite Int :=
  if 0 ≤ x then floor? x else (- ·) <$> floor? (-x)

/-- The least integer that is at least `x`. -/
def ceil? (x : α) : Except NotFinite Int := (- ·) <$> floor? (-x)

/-! ## Magnitudes -/

/-- The absolute value. -/
def magnitude (x : α) : α := if x < 0 then -x else x

/-- The second argument if it is greater, else the first. A first argument that is no number
stays. -/
def larger (a b : α) : α := if a < b then b else a

/-- The greater argument; no number if one of them is none. -/
def maximum (a b : α) : α := if b ≤ a then a else if a ≤ b then b else a + b

/-- The lesser argument; no number if one of them is none. -/
def minimum (a b : α) : α := if a ≤ b then a else if b ≤ a then b else a + b

/-! ## Vectors -/

/-- The sum of the entries. -/
def sum (l : List α) : α := l.foldl (· + ·) 0

/-- The sum of the products of corresponding entries. -/
def dot (x y : Array α) : α := (Array.zipWith (· * ·) x y).foldl (· + ·) 0

/-- The Euclidean length. -/
def lengthOf (x : Array α) : α := sqrt (dot x x)

end Scalar

end GridSpline
