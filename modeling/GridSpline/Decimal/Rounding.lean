import GridSpline.Binary64

/-!
# Rounding quotients to integers

A printed number is a quotient of natural numbers, scaled by a power of ten and rounded to an
integer. Here are the two parts that every format shares: rounding a quotient to the nearest
integer, and the position of a quotient's first decimal digit.

## Main statements

* `roundDiv_bounds` — the rounded quotient is within half a unit.
* `roundDiv_of_tie` — a quotient halfway between two integers goes to the even one.
-/

namespace GridSpline.Decimal

/-- The integer nearest to `num / den`; of two equally near ones the even one. -/
def roundDiv (num den : Nat) : Nat :=
  let low := num / den
  let twice := 2 * (num % den)
  if twice < den then low
  else if den < twice then low + 1
  else if low % 2 = 0 then low else low + 1

/-- The rounded quotient is within half a unit of the quotient. -/
theorem roundDiv_bounds (num : Nat) {den : Nat} (h : 0 < den) :
    2 * num ≤ (2 * roundDiv num den + 1) * den ∧ 2 * (roundDiv num den * den) ≤ 2 * num + den := by
  have hdiv := Nat.div_add_mod num den
  have hmod := Nat.mod_lt num h
  rw [Nat.mul_comm] at hdiv
  unfold roundDiv
  simp only
  split
  · rw [Nat.add_mul, Nat.mul_assoc]; omega
  · split
    · rw [Nat.add_mul, Nat.mul_assoc, Nat.add_mul]; omega
    · split
      · rw [Nat.add_mul, Nat.mul_assoc]; omega
      · rw [Nat.add_mul, Nat.mul_assoc, Nat.add_mul]; omega

/-- A quotient halfway between two integers goes to the even one. -/
theorem roundDiv_of_tie {num den : Nat} (h : 2 * (num % den) = den) :
    roundDiv num den % 2 = 0 := by
  unfold roundDiv
  simp only [h, Nat.lt_irrefl, if_false]
  split <;> omega

/-- The number of decimal digits; zero has none. -/
def digitCount (n : Nat) : Nat :=
  if n = 0 then 0 else digitCount (n / 10) + 1
termination_by n
decreasing_by exact Nat.div_lt_self (by omega) (by omega)

/-- How many times a quotient below one must be multiplied by ten to reach one. The first argument
bounds the search. -/
def placesBelowOne : Nat → Nat → Nat → Nat
  | 0, _, _ => 0
  | fuel + 1, num, den => if den ≤ num then 0 else placesBelowOne fuel (num * 10) den + 1

/-- The power of ten at the first digit of a positive quotient: the greatest `e` with
`10^e ≤ num / den`. -/
def leadingPower (num den : Nat) : Int :=
  if den ≤ num then (digitCount (num / den) : Int) - 1
  else -(placesBelowOne (den.log2 + 1) num den : Int)

/-- The quotient `num / den · 10^places` as a new quotient. -/
def scale (num den : Nat) (places : Int) : Nat × Nat :=
  (num * Nat.pow 10 places.toNat, den * Nat.pow 10 (-places).toNat)

/-- The decimal digits, padded with zeros on the left to the given width. -/
def padded (width n : Nat) : String :=
  let digits := toString n
  "".pushn '0' (width - digits.length) ++ digits

end GridSpline.Decimal
