import GridSpline.Decimal.Rounding

/-!
# Scientific notation with a fixed number of digits

One digit, a point, `places` digits, the letter `e` and a signed power of ten with at least two
digits: `1.50e-03`. The digits are those of the exact value, rounded to nearest with ties to even.
-/

namespace GridSpline.Decimal

/-- A decimal number `±digits · 10^(power - places)`, where `digits` has `places + 1` digits. -/
structure Scientific where
  negative : Bool
  digits : Nat
  power : Int
deriving DecidableEq, Repr

/-- The value rounded to `places` digits after the first. Rounding up to a further digit moves the
point. -/
def Scientific.ofBinary64 (places : Nat) (b : Binary64) : Scientific :=
  if b.mantissa = 0 then { negative := b.negative, digits := 0, power := 0 }
  else
    let power := leadingPower b.numerator b.denominator
    let (num, den) := scale b.numerator b.denominator (places - power)
    let digits := roundDiv num den
    -- Rounding may have carried into a digit more.
    if digits < Nat.pow 10 (places + 1) then { negative := b.negative, digits, power }
    else { negative := b.negative, digits := digits / 10, power := power + 1 }

/-- The power of ten as it is written: a sign and at least two digits. -/
def powerText (power : Int) : String :=
  "e" ++ (if power < 0 then "-" else "+") ++ padded 2 power.natAbs

/-- The written form; `digits` must have `places + 1` digits, or be zero. -/
def Scientific.text (places : Nat) (s : Scientific) : String :=
  let all := padded (places + 1) s.digits
  let point := if places = 0 then "" else "."
  (if s.negative then "-" else "") ++ (all.take 1).toString ++ point ++ (all.drop 1).toString
    ++ powerText s.power

/-- The text of what is not finite. -/
def notFiniteText (x : Float) : NotFinite → String
  | .notANumber => "nan"
  | .infinite => if x < 0 then "-inf" else "inf"

/-- Scientific notation with `places` digits after the point. -/
def scientific (places : Nat) (x : Float) : String :=
  match Binary64.ofFloat x with
  | .ok b => (Scientific.ofBinary64 places b).text places
  | .error e => notFiniteText x e

end GridSpline.Decimal
