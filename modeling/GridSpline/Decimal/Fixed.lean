import GridSpline.Decimal.Scientific

/-!
# Fixed-point notation

All digits before the point and a fixed number after it: `0.250000`. Ties go to even, and a
negative value keeps its sign even when all its digits are zero.
-/

namespace GridSpline.Decimal

/-- The value written with `places` digits after the point. -/
def fixedText (places : Nat) (b : Binary64) : String :=
  let one := Nat.pow 10 places
  let units := roundDiv (b.numerator * one) b.denominator
  (if b.negative then "-" else "") ++ toString (units / one) ++ "." ++ padded places (units % one)

/-- Fixed-point notation with `places` digits after the point. -/
def fixed (places : Nat) (x : Float) : String :=
  match Binary64.ofFloat x with
  | .ok b => fixedText places b
  | .error e => notFiniteText x e

end GridSpline.Decimal
