import GridSpline.Decimal.Scientific

/-!
# The shortest decimal that reads back

A floating-point number is written with the fewest significant digits that still identify it: the
decimal lies in the interval of reals that round to the number. Of two such decimals with equally
few digits the nearer one is taken, and of two equally near ones the one with an even last digit.

The interval reaches halfway to the two neighbouring numbers. Below a power of two the neighbour is
only half as far, so the interval is not symmetric there. Its ends belong to it when the mantissa
is even, because ties go to even.

The text is positional while the first digit stands between the fourth place after the point and
the sixteenth before it, and scientific otherwise.
-/

namespace GridSpline.Decimal

/-- The reals that round to a number, as three quotients over one denominator. -/
structure RoundingInterval where
  low : Nat
  value : Nat
  high : Nat
  den : Nat
  /-- Whether the two ends round to the number as well. -/
  closed : Bool

namespace RoundingInterval

/-- The interval around the magnitude of a non-zero number, in quarters of its unit. -/
def ofBinary64 (b : Binary64) : RoundingInterval :=
  -- The mantissa of a power of two is the least of its exponent: the number below is closer.
  let below := if b.mantissa = Binary64.leadingBit ∧ -1074 < b.exponent then 1 else 2
  let shift := (b.exponent - 2).toNat
  { low := (4 * b.mantissa - below) <<< shift
    value := (4 * b.mantissa) <<< shift
    high := (4 * b.mantissa + 2) <<< shift
    den := 1 <<< (2 - b.exponent).toNat
    closed := b.mantissa % 2 = 0 }

/-- Whether the quotient `num / den` lies in the interval, all scaled by the same power of ten. -/
def holds (r : RoundingInterval) (num : Nat) : Bool :=
  if r.closed then r.low ≤ num && num ≤ r.high else r.low < num && num < r.high

/-- The interval multiplied by `10^places`. -/
def scaled (r : RoundingInterval) (places : Int) : RoundingInterval :=
  let up := Nat.pow 10 places.toNat
  { low := r.low * up, value := r.value * up, high := r.high * up
    den := r.den * Nat.pow 10 (-places).toNat, closed := r.closed }

/-- The integer of the interval that is nearest to the value, if there is one. Only the two
neighbours of the value can be it. -/
def nearestInteger? (r : RoundingInterval) : Option Nat :=
  let down := r.value / r.den
  let up := down + 1
  match r.holds (down * r.den), r.holds (up * r.den) with
  | true, true => some (roundDiv r.value r.den)
  | true, false => some down
  | false, true => some up
  | false, false => none

end RoundingInterval

/-- The digits without the zeros that end them, and how many of those there were. -/
def dropTrailingZeros (n : Nat) : Nat × Nat :=
  if n = 0 then (0, 0)
  else if n % 10 = 0 then
    let (m, k) := dropTrailingZeros (n / 10)
    (m, k + 1)
  else (n, 0)
termination_by n
decreasing_by exact Nat.div_lt_self (by omega) (by omega)

/-- Tries decimals with more and more digits, starting from those that are multiples of
`10^-places`, and returns the digits with the number of places. -/
def firstThatReadsBack (r : RoundingInterval) : Nat → Int → Nat × Int
  | 0, places => (roundDiv (r.scaled places).value (r.scaled places).den, places)
  | fuel + 1, places =>
    match (r.scaled places).nearestInteger? with
    | some 0 | none => firstThatReadsBack r fuel (places + 1)
    | some digits => (digits, places)

/-- The digits of the shortest decimal and the power of ten at the first of them. Seventeen digits
identify every number. -/
def shortestDigits (b : Binary64) : Nat × Int :=
  let r := RoundingInterval.ofBinary64 b
  let (digits, places) := firstThatReadsBack r 17 (-leadingPower b.numerator b.denominator)
  let (kept, dropped) := dropTrailingZeros digits
  (kept, (digitCount kept : Int) - 1 - places + dropped)

/-- The text of a positive number from its digits and the power of ten at the first of them. -/
def shortestText (digits : Nat) (power : Int) : String :=
  let text := toString digits
  if power < -4 ∨ 16 ≤ power then
    let point := if text.length = 1 then "" else "."
    (text.take 1).toString ++ point ++ (text.drop 1).toString ++ powerText power
  else if power < 0 then "0." ++ "".pushn '0' (-power - 1).toNat ++ text
  else
    let whole := power.toNat + 1
    let filled := text.pushn '0' (whole - text.length)
    let rest := (filled.drop whole).toString
    (filled.take whole).toString ++ "." ++ if rest = "" then "0" else rest

/-- The shortest decimal that reads back as the number. -/
def shortest (x : Float) : String :=
  match Binary64.ofFloat x with
  | .ok b =>
    let sign := if b.negative then "-" else ""
    if b.mantissa = 0 then sign ++ "0.0"
    else
      let (digits, power) := shortestDigits b
      sign ++ shortestText digits power
  | .error e => notFiniteText x e

end GridSpline.Decimal
