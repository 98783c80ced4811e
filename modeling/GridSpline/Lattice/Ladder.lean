import GridSpline.Lattice.Layout

/-!
# Ladders of resolutions

A fit is solved on a ladder of lattices, from a coarse one to the one asked for. The levels grow by
a common factor. That factor is chosen near the given ratio so that a whole number of steps leads
from the start to the largest resolution; an axis that comes within one node of its target is put
on it and stays there.

## Main definitions

* `meanResolution` — the geometric mean of the resolutions.
* `Lattice.radii`, `Lattice.levelAt` — the growing edge length, and the resolutions that belong to
  one.
* `Lattice.levelsThrough?` — the levels of given edge lengths, which must end on the resolutions
  asked for.
* `Lattice.ladder?` — the whole ladder.
* `Lattice.ladderOf?` — the same for numbers as they are given.
-/

namespace GridSpline

open Scalar Failure

variable {α : Type} [Scalar α]

/-- The geometric mean of the resolutions. -/
def meanResolution (res : List α) : α :=
  pow (res.foldl (· * ·) 1) (1 / (res.length : α))

/-- The geometric mean, unless there is nothing to take it of. -/
def meanResolution? (res : List α) : Except (Failure α) α :=
  if res.isEmpty then throw .divisionByZero else return meanResolution res

/-- The geometric mean of an array of resolutions. The first axis tells how many there are. -/
def meanOfArray? (res : Dense α) : Except (Failure α) α :=
  match res.shape with
  | [] => throw .wrongKind
  | 0 :: _ => throw .divisionByZero
  | n :: _ => return pow (res.entries.foldl (· * ·) 1) (1 / (n : α))

namespace Lattice

/-- The resolutions of a lattice as scalars. -/
def scalars (res : List Nat) : List α := res.map fun (r : Nat) => (r : α)

/-- The geometric mean of the resolutions of a lattice. -/
def meanOf (res : List Nat) : α := meanResolution (scalars res)

/-! ## Levels -/

/-- The edge length of each of `n` levels, from the given one on. -/
def radii (ratio : α) : Nat → α → List α
  | 0, _ => []
  | n + 1, r => r :: radii ratio n (r * ratio)

/-- The resolution of one axis at an edge length rounded to the given integer. -/
def snap (rounded target : Int) : Int := if target ≤ rounded + 1 then target else rounded

/-- The resolutions of the level with the given edge length. -/
def levelAt (res : List Int) (r : α) : Except (Failure α) (List Int) := do
  let rounded ← integer (truncate? (r + 0.5))
  return res.map (snap rounded)

/-- The number of levels and the factor between them. Lattices that are at most `ratio` times the
start have two levels; others have one more than there are steps, and the number of steps is
rounded. -/
def growth? (largest : Int) (start ratio : α) : Except (Failure α) (Int × α) := do
  let whole : α := largest
  if IsZero start then throw .divisionByZero
  -- One step is enough.
  if whole / start ≤ ratio then return (2, whole / start)
  let distance := log whole - log start
  let steps ← integer (truncate? (distance / log ratio + 0.5))
  return (steps + 1, exp (distance / (steps : α)))

/-- Every level is followed by one that is nowhere coarser. -/
def findDecrease : List (List Int) → Option (List Int × List Int)
  | before :: after :: rest =>
    if (List.zipWith (fun p c => decide (c < p)) before after).any id then some (before, after)
    else findDecrease (after :: rest)
  | _ => none

/-- The levels with the given edge lengths, which must end on the resolutions asked for. -/
def levelsThrough? (res : List Int) (lengths : List α) :
    Except (Failure α) (List (List Int)) := do
  let levels ← lengths.mapM (levelAt res)
  let last ← require .indexOutOfRange levels.getLast?
  if last ≠ res then throw (.ladderMisses last res)
  match findDecrease levels with
  | some (before, after) => throw (.ladderDecreases before after)
  | none => return levels

/-- The ladder from about `start` nodes per axis to the given resolutions. -/
def ladder? (res : List Int) (start ratio : α) : Except (Failure α) (List (List Int)) := do
  let largest ← require .shapeMismatch res.max?
  let (count, factor) ← growth? largest start ratio
  levelsThrough? res (radii factor count.toNat start)

/-- The ladder for numbers as they are given. Logarithms are taken of words and scalars only, and no
more than one step does without them. -/
def ladderOf? (res : List Int) (start ratio : Number α) : Except (Failure α) (List (List Int)) := do
  let largest ← require .shapeMismatch (res.max?.map Number.integer)
  let whole ← largest.toScalar?
  let s ← start.toScalar?
  let oneStep := decide (IsZero s) || decide (whole / s ≤ ratio.toScalar)
  if ¬ oneStep ∧ ¬ (largest.IsWord ∧ start.IsWord ∧ ratio.IsWord) then throw .wrongKind
  ladder? res s ratio.toScalar

/-- The edge length of the coarsest level of a fit. -/
def startResolution : Nat := 4

/-- How much finer each level of a fit is meant to be than the one before it. -/
def growthRatio : Nat := 2

/-- The ladder of a fit. -/
def fitLadder? (res : List Nat) : Except (Failure α) (List (List Nat)) := do
  let levels ← ladder? (res.map Int.ofNat) (startResolution : α) (growthRatio : α)
  return levels.map fun level => level.map Int.toNat

end Lattice

end GridSpline
