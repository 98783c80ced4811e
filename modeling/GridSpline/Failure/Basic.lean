import GridSpline.Dense.Basic

/-!
# What can go wrong

Every operation that can fail says why with a value of `Failure`. Settings and samples are refused
for a reason of the domain, and such a reason carries what its message needs. Arithmetic and
look-ups fail for reasons that need no words.
-/

namespace GridSpline

/-- The two ends of an axis. -/
inductive Side where
  | low
  | high
deriving DecidableEq, Repr

/-- Why an operation did not give a result. -/
inductive Failure (α : Type) where
  /-- The text abbreviates none of the options. -/
  | unknownOption (field given : String)
  /-- The text abbreviates several options. -/
  | ambiguousOption (field given : String)
  /-- A count is negative or not an integer. -/
  | notACount (field : String)
  | toleranceNotPositive
  /-- What is given as the weak default function is not a function. -/
  | notAFunction
  | weakWeightNegative
  /-- Samples are a list of numbers or of rows; this is neither. -/
  | sampleRank (field : String)
  /-- A list has the wrong number of entries. -/
  | entryCount (field : String) (expected : Int) (got : Nat)
  | resolutionNotIntegral
  | tooManyAxes (count : Nat)
  | resolutionTooSmall
  | channelCount (count : Nat)
  /-- The positions have another number of coordinates than the grid. -/
  | positionColumns (got expected : Nat)
  /-- There are not as many values as positions. -/
  | sampleCounts
  | weightShape
  | weightNotPositive
  /-- A sample lies outside the domain, which must not be extended. -/
  | beyondDomain (side : Side) (axis : Nat) (value bound : α)
  | emptyDomain
  /-- Node spacings are not given for every axis. -/
  | spacingAxes (expected : Nat)
  /-- The spacing of an axis does not have one entry per node. -/
  | spacingEntries (axis expected got : Nat)
  /-- An entry of a spacing is too close to the one before it. -/
  | spacingTooClose (axis entry : Nat)
  /-- A point to be located lies outside the grid. -/
  | outsideGrid (point : Nat) (low value high : α)
  /-- An offset beyond the reach of the stencil. -/
  | offsetBeyond (offset : Dense Int)
  /-- An offset that no step of the stencil has. -/
  | offsetBetween (offset : Dense Int)
  /-- The last level of a ladder is not the resolution asked for. -/
  | ladderMisses (reached target : List Int)
  /-- A level of a ladder is coarser than the one before it. -/
  | ladderDecreases (before after : List Int)
  /-- A position in a sequence lies outside it. -/
  | indexOutOfRange
  /-- The shapes of two arrays do not fit each other. -/
  | shapeMismatch
  /-- A number has no integer part. -/
  | noInteger (reason : NotFinite)
  /-- A number is too large to be represented. -/
  | overflow
  | divisionByZero
  /-- An iteration cannot end at an error below zero. -/
  | negativeBound
  /-- A triangular system has a zero on its diagonal. -/
  | singular
  /-- A value of another kind is needed. -/
  | wrongKind
  /-- What is asked for has not been made yet. -/
  | absent
deriving Repr, DecidableEq

namespace Failure

variable {α β : Type}

/-- An absent result as a failure for the given reason. -/
def require (reason : Failure α) : Option β → Except (Failure α) β
  | some b => .ok b
  | none => .error reason

/-- An integer part as a result that may fail. -/
def integer : Except NotFinite β → Except (Failure α) β
  | .ok i => .ok i
  | .error reason => .error (.noInteger reason)

/-- The entry at a position, which counts from the end if it is negative. -/
def entryAt (l : List β) (i : Int) : Except (Failure α) β :=
  require .indexOutOfRange ((Lattice.position? l.length i).bind (l[·]?))

end Failure

end GridSpline
