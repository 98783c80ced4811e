import GridSpline.Failure.Basic
import GridSpline.Word

/-!
# Numbers as they are given

A number comes in as an integer, which is exact and may be of any size, or as a scalar. Counts are
taken from the integer as it is. Where a scalar is needed the nearest one is taken, unless the
integer is too large to have one.

## Main definitions

* `Number` — a number as it is given.
* `Number.toScalar?` — its scalar.
* `Number.IsWord` — the numbers that vectorised functions such as the logarithm are defined for.
-/

namespace GridSpline

open Scalar Failure

/-- A number as it is given. -/
inductive Number (α : Type) where
  /-- An integer of any size. -/
  | integer (n : Int)
  | scalar (x : α)
deriving Repr

namespace Number

variable {α : Type}

/-- An integer that is a machine word, or any scalar. -/
def IsWord : Number α → Prop
  | integer n => Word.FitsEither n
  | scalar _ => True

instance : (x : Number α) → Decidable x.IsWord
  | integer n => inferInstanceAs (Decidable (Word.FitsEither n))
  | scalar _ => inferInstanceAs (Decidable True)

variable [Scalar α]

/-- The nearest scalar; an infinite one for an integer beyond all finite ones. -/
def toScalar : Number α → α
  | integer n => (n : α)
  | scalar x => x

/-- The nearest scalar, unless the integer is beyond all finite ones. -/
def toScalar? : Number α → Except (Failure α) α
  | integer n => if IsFinite (n : α) then return (n : α) else throw .overflow
  | scalar x => return x

/-- The integer part, rounded towards zero. -/
def truncate? : Number α → Except NotFinite Int
  | integer n => .ok n
  | scalar x => Scalar.truncate? x

/-- Equal to an integer. -/
def equals (x : Number α) (n : Int) : Bool :=
  match x with
  | integer m => m = n
  | scalar x => decide (IsZero ((n : α) - x))

/-- Less than zero. -/
def IsNegative : Number α → Prop
  | integer n => n < 0
  | scalar x => x < 0

instance : (x : Number α) → Decidable x.IsNegative
  | integer n => inferInstanceAs (Decidable (n < 0))
  | scalar x => inferInstanceAs (Decidable (x < 0))

/-- At most zero. -/
def IsNotPositive : Number α → Prop
  | integer n => n ≤ 0
  | scalar x => x ≤ 0

instance : (x : Number α) → Decidable x.IsNotPositive
  | integer n => inferInstanceAs (Decidable (n ≤ 0))
  | scalar x => inferInstanceAs (Decidable (x ≤ 0))

end Number

end GridSpline
