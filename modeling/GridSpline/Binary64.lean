/-!
# Binary64 values as integers

A finite floating-point number is `±mantissa · 2^exponent` with natural mantissa. Everything that
must be exact (the integer part of a coordinate, the digits of a printed number) starts from this
form and goes on in integer arithmetic.

## Main definitions

* `NotFinite` — the two ways in which a number can fail to have an integer part.
* `Binary64.ofFloat` — the exact value of a number, read off its bits.
* `Binary64.floor` — its integer part.
-/

namespace GridSpline

/-- Why a number has no integer part. -/
inductive NotFinite where
  /-- It is no number at all. -/
  | notANumber
  /-- It is an infinity. -/
  | infinite
deriving DecidableEq, Repr

/-- The finite value `±mantissa · 2^exponent`. -/
structure Binary64 where
  /-- Whether the sign is set; zero has a sign too. -/
  negative : Bool
  /-- The magnitude in units of `2^exponent`. -/
  mantissa : Nat
  /-- The unit's binary exponent. -/
  exponent : Int
deriving DecidableEq, Repr

namespace Binary64

/-- The bit above the 52 bits of fraction, which is not stored. -/
def leadingBit : Nat := 1 <<< 52

/-- Reads a number off its bits: 52 bits of fraction below 11 bits of exponent below the sign. An
exponent of all ones is kept for what is not finite, one of all zeros drops the leading bit. -/
def ofFloat (x : Float) : Except NotFinite Binary64 :=
  let bits := x.toBits
  let biased := ((bits >>> 52) &&& 0x7FF).toNat
  let fraction := (bits &&& 0xFFFFFFFFFFFFF).toNat
  let negative := (bits >>> 63) == 1
  -- All ones: an infinity if the fraction is empty, else no number.
  if biased = 0x7FF then
    .error (if fraction = 0 then .infinite else .notANumber)
  -- All zeros: the unit stays that of the smallest exponent, and the leading bit is missing.
  else if biased = 0 then
    .ok { negative, mantissa := fraction, exponent := -1074 }
  else
    .ok { negative, mantissa := leadingBit + fraction, exponent := (biased : Int) - 1075 }

/-- The magnitude as a quotient of natural numbers. -/
def numerator (b : Binary64) : Nat := b.mantissa <<< b.exponent.toNat

/-- The divisor that goes with `numerator`; a power of two. -/
def denominator (b : Binary64) : Nat := 1 <<< (-b.exponent).toNat

/-- Powers of two are positive. -/
theorem denominator_pos (b : Binary64) : 0 < b.denominator := by
  rw [denominator, Nat.one_shiftLeft]
  exact Nat.two_pow_pos _

/-- The greatest integer that is at most the value. -/
def floor (b : Binary64) : Int :=
  let signed : Int := if b.negative then -(b.numerator : Int) else b.numerator
  signed.fdiv b.denominator

/-- The integer part is at most the value and less than one below it. -/
theorem floor_bounds (b : Binary64) :
    let signed : Int := if b.negative then -(b.numerator : Int) else b.numerator
    b.floor * b.denominator ≤ signed ∧ signed < (b.floor + 1) * b.denominator := by
  intro signed
  have hpos : (0 : Int) < b.denominator := by exact_mod_cast b.denominator_pos
  have hdiv : b.floor * b.denominator + signed.fmod b.denominator = signed := by
    rw [Int.mul_comm]; exact Int.mul_fdiv_add_fmod signed b.denominator
  have hlow := Int.fmod_nonneg_of_pos signed hpos
  have hhigh := Int.fmod_lt_of_pos signed hpos
  rw [Int.add_mul]
  omega

end Binary64

end GridSpline
