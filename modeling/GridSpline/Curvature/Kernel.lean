import GridSpline.Lattice.Ladder

/-!
# Smoothing kernels

The weights of a low-pass filter along an axis: a normal distribution, summed over the cells around
the centre at a few places in each, and normalised. It reaches five standard deviations to both
sides, at least one node and at most to the other end of the axis.
-/

namespace GridSpline

open Scalar Failure

variable {α : Type} [Scalar α]

/-- The weights of a filter. -/
structure Kernel (α : Type) where
  weights : List α
  /-- The place of the middle weight. -/
  centre : Nat
deriving Repr

/-! ## Scale -/

/-- The resolution in which smoothness is measured along each axis: the axis' own if the domain has
the same extent in all directions, else the mean. -/
def scaleResolutions (symmetric : Bool) (res : List α) : List α :=
  if symmetric then res else List.replicate res.length (meanResolution res)

/-- The same, unless the mean of nothing is needed. -/
def scaleResolutions? (symmetric : Bool) (res : List α) : Except (Failure α) (List α) :=
  if ¬ symmetric ∧ res.isEmpty then throw .divisionByZero
  else return scaleResolutions symmetric res

/-- The same for an array of resolutions. -/
def scaleArray? (symmetric : Bool) (res : Dense α) : Except (Failure α) (Dense α) := do
  if symmetric then return res
  return .vector (List.replicate (res.shape.headD 0) (← meanOfArray? res))

/-- The same for a lattice. -/
def latticeScales (symmetric : Bool) (res : List Nat) : List α :=
  scaleResolutions symmetric (Lattice.scalars res)

/-! ## Weights -/

/-- The ratio of a circle's circumference to its diameter. -/
def circleRatio : α := 3.141592653589793

/-- The places inside a cell at which the distribution is summed. -/
def subsamples : List α := [-4, -3, -2, -1, 0, 1, 2, 3, 4].map fun (i : Int) => (i : α) / 9.0

/-- The weight of the cell at a distance from the centre, of a distribution with factor `k1` and
exponent `k2`, where a cell is the given part of the domain. -/
def tapWeight (k1 k2 cells : α) (tap : Int) : α :=
  sum <| subsamples.map fun s =>
    let offset := magnitude (((tap : α) + s) / cells)
    k1 * exp (-k2 * (offset * offset))

/-- The exponent of the distribution. -/
def kernelExponent? (stdev : α) : Except (Failure α) α := do
  let square := magnitude stdev * magnitude stdev
  -- A square beyond all numbers is refused, unless the deviation is infinite already.
  if IsFinite stdev ∧ ¬ IsFinite square then throw .overflow
  if IsZero (2.0 * square) then throw .divisionByZero
  return 1 / (2.0 * square)

/-- The first and the last tap on an axis with `count` nodes. -/
def tapRange? (stdev : α) (count : Nat) (cells : α) : Except (Failure α) (Int × Int) := do
  let first ← integer (floor? (-5.0 * stdev * cells))
  let last ← integer (ceil? (5.0 * stdev * cells))
  return (min (max first (1 - (count : Int))) (-1), max (min last ((count : Int) - 1)) 1)

/-- The kernel of a standard deviation, in units of the domain, for an axis with `count` nodes; the
domain has `resolution - 1` cells. -/
def gaussianKernel? (stdev : α) (count : Nat) (resolution : α) :
    Except (Failure α) (Kernel α) := do
  let k2 ← kernelExponent? stdev
  let k1 := k2 / circleRatio
  let cells := resolution - 1
  let (first, last) ← tapRange? stdev count cells
  let taps := (List.range (last - first + 1).toNat).map fun (i : Nat) => first + (i : Int)
  let raw := taps.map (tapWeight k1 k2 cells)
  let total := sum raw
  return { weights := raw.map (· / total), centre := (-first).toNat }

end GridSpline
