import GridSpline.Number
import GridSpline.Smoothing.Table

/-!
# The optimal smoothing factor

The factor is read from a table by interpolation between the logarithms of its axes, bilinearly in
the logarithm of the factor. Beyond the ends of an axis its first or last entry counts.

## Main definitions

* `logBracket` — between which two entries of an axis a value lies, and the weight of the lower one.
* `optimalSmoothing?` — the factor that the settings of a fit multiply.
-/

namespace GridSpline

open Scalar Failure

variable {α : Type} [Scalar α]

/-- The place of a value between two neighbouring entries of an axis. -/
structure Bracket (α : Type) where
  /-- The number of the lower entry. -/
  index : Int
  /-- The share of the lower entry; the upper one has the rest. -/
  weight : α
deriving Repr

/-- An entry of an axis is not above the value. What is no number is above all numbers. -/
def IsNotAbove (value entry : α) : Prop := ¬ value < entry ∧ (IsNumber entry ∨ ¬ IsNumber value)

instance (value entry : α) : Decidable (IsNotAbove value entry) :=
  inferInstanceAs (Decidable (_ ∧ _))

/-- Searches the places from `low` to before `high` for the first entry above the value, halving
their number with every look. -/
def firstAbove (axis : Array α) (value : α) (low high : Nat) : Nat :=
  if low < high then
    let middle := low + (high - low) / 2
    if IsNotAbove value (axis.getD middle 0) then firstAbove axis value (middle + 1) high
    else firstAbove axis value low middle
  else low
termination_by high - low

/-- How many entries of an ascending axis are not above the value. -/
def countNotAbove (axis : List α) (value : α) : Nat :=
  firstAbove axis.toArray value 0 axis.length

/-- The share of the lower of two entries, by the distances of the logarithms. -/
def logWeight (lower upper value : α) : α :=
  1 - (log value - log lower) / (log upper - log lower)

/-- Finds a value in an ascending axis. Values beyond the ends are taken to the ends. -/
def logBracket (axis : List α) (value : α) : Except (Failure α) (Bracket α) := do
  let first ← entryAt axis 0
  if value ≤ first then return { index := 0, weight := 1 }
  let last ← entryAt axis (-1)
  let lastPair : Int := axis.length - 2
  if last ≤ value then return { index := lastPair, weight := 0 }
  let index := min ((countNotAbove axis value : Int) - 1) lastPair
  let lower ← entryAt axis index
  let upper ← entryAt axis (index + 1)
  return { index, weight := logWeight lower upper value }

/-- The same for numbers as they are given. Logarithms are taken of words and scalars only; values
beyond the ends need none. -/
def logBracketOf (axis : List (Number α)) (value : Number α) : Except (Failure α) (Bracket α) := do
  let b ← logBracket (axis.map Number.toScalar) value.toScalar
  let first ← entryAt axis 0
  let last ← entryAt axis (-1)
  if value.toScalar ≤ first.toScalar ∨ last.toScalar ≤ value.toScalar then return b
  let lower ← entryAt axis b.index
  let upper ← entryAt axis (b.index + 1)
  if value.IsWord ∧ lower.IsWord ∧ upper.IsWord then return b else throw .wrongKind

/-- The number of samples per axis: the root of their number. -/
def samplesPerAxis (axes : Nat) (count : α) : α := pow count (1 / (axes : α))

/-- The logarithm at a place of the table, weighted from its four neighbours. -/
def SmoothingTable.blend (t : SmoothingTable α) (row column : Bracket α) : α :=
  let i := row.index.toNat
  let j := column.index.toNat
  t.log i j * row.weight * column.weight
    + t.log i (j + 1) * row.weight * (1 - column.weight)
    + t.log (i + 1) j * (1 - row.weight) * column.weight
    + t.log (i + 1) (j + 1) * (1 - row.weight) * (1 - column.weight)

/-- The smoothing factor for a number of axes, a number of samples and their average deviation.
There is no root of a negative number, unless it is infinite or there is a single axis, along which
none is taken. -/
def optimalSmoothing? (axes : Int) (count deviation : α) : Except (Failure α) α := do
  let axes := (max axes 1).toNat
  if 1 < axes ∧ count < 0 ∧ IsFinite count then throw .wrongKind
  let table : SmoothingTable α := .forAxes axes
  let row ← logBracket table.counts (samplesPerAxis axes count)
  let column ← logBracket table.deviations deviation
  return pow 10.0 (table.blend row column)

end GridSpline
