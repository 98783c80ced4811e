import GridSpline.Failure.Basic
import GridSpline.Text.IntTable
import GridSpline.Decimal.Fixed
import GridSpline.Decimal.Shortest

/-!
# Messages

The words for a failure. Only the reasons that belong to the domain have any; a failed look-up or a
division by zero is told by its kind alone.
-/

namespace GridSpline

namespace Text

/-- A list of integers as a tuple: `(4, 8)`, and `(4,)` if there is only one. -/
def tuple (l : List Int) : String :=
  match l with
  | [x] => "(" ++ toString x ++ ",)"
  | _ => "(" ++ ", ".intercalate (l.map toString) ++ ")"

end Text

open Decimal Text

/-- The name of one bound of the domain. -/
def Side.boundName (side : Side) (axis : Nat) : String :=
  let word := match side with
    | .low => "glow"
    | .high => "ghigh"
  s!"{word}[{axis}]"

/-- The message for a failure, if it has one. -/
def Failure.message? : Failure Float → Option String
  | .unknownOption field given => some s!"Invalid {field} option: {given}"
  | .ambiguousOption field given => some s!"Ambiguous {field} option: {given}"
  | .notACount field => some s!"{field} must be a non-negative integer."
  | .toleranceNotPositive => some "Tolerance must be positive."
  | .notAFunction => some "weak_function must be callable."
  | .weakWeightNegative => some "Weak default function weighting must be non-negative."
  | .sampleRank field => some s!"{field} must be a 1-D or 2-D array."
  | .entryCount field expected got => some s!"{field} must have {expected} entries, got {got}."
  | .resolutionNotIntegral => some "Resolution must be one or more integers."
  | .tooManyAxes count => some s!"Fit can't handle di = {count} (maximum 4)."
  | .resolutionTooSmall => some "Grid resolution must be >= 2."
  | .channelCount count => some s!"Fit can't handle fdi = {count} (maximum 10)."
  | .positionColumns got expected =>
    some s!"positions have {got} dimensions, resolution has {expected}."
  | .sampleCounts => some "positions and values must have the same number of samples."
  | .weightShape => some "weights must be (N,) or (N, fdi)."
  | .weightNotPositive => some "Data point weights must be > 0."
  | .beyondDomain side axis value bound =>
    let place := side.boundName axis
    let shown := shortest value
    match side with
    | .low =>
      let excess := fixed 6 (bound - value)
      some s!"Some g[{axis}] ({shown}) falls below {place} by {excess}"
    | .high =>
      let excess := fixed 6 (value - bound)
      some s!"Some g[{axis}] ({shown}) falls above {place} by {excess}"
  | .emptyDomain => some "Grid high bounds must be greater than low bounds."
  | .spacingAxes expected => some s!"ipos must have {expected} entries (one per axis)."
  | .spacingEntries axis expected got =>
    some s!"ipos[{axis}] must have {expected} entries, got {got}."
  | .spacingTooClose axis entry =>
    let previous := entry - 1
    some s!"ipos[{axis}][{entry}] to ipos[{axis}][{previous}] is nearly zero!"
  | .outsideGrid point low value high =>
    let below := scientific 6 low
    let shown := scientific 6 value
    let above := scientific 6 high
    some s!"Data point {point} outside grid {below} <= {shown} <= {above}"
  | .offsetBeyond offset =>
    let shown := intTable offset
    some s!"Offset {shown} is outside the sparse stencil"
  | .offsetBetween offset =>
    let shown := intTable offset
    some s!"Offset {shown} is not an allowed sparse stencil offset"
  | .ladderMisses reached target =>
    let last := tuple reached
    let wanted := tuple target
    some s!"Internal error: final resolution {last} != intended resolution {wanted}"
  | .ladderDecreases before after =>
    let coarse := tuple before
    let fine := tuple after
    some s!"Internal error: resolution ladder decreases from {coarse} to {fine}"
  | .indexOutOfRange | .shapeMismatch | .noInteger _ | .overflow | .divisionByZero | .negativeBound
  | .singular | .wrongKind | .absent => none

end GridSpline
