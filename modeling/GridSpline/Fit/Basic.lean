import GridSpline.Grid.Monotone
import GridSpline.Sample.Prepared
import GridSpline.Solver.Solve

/-!
# Fits

A fit holds what it was given, and after a run also what it found. Settings are replaced by their
checked form when a run starts, and the average deviations by the completed ones; a run that fails
later leaves behind what it had found until then.
-/

namespace GridSpline

open Scalar Failure

variable {α : Type}

/-- A fit of samples to a grid. -/
structure Fit (α : Type) where
  given : GivenSamples α
  settings : Settings α
  /-- Whether every solve is done twice, the second time towards the smoothed curvature of the
  first one. -/
  twoPass : Bool
  /-- Whether all axes have the same extent, whatever their resolutions. -/
  symmetricDomain : Bool
  /-- Whether errors are reported on the way. -/
  verbose : Bool
  /-- The samples of the last run that got past its checks. -/
  prepared : Option (Prepared α)
  grid : Option (Grid α)
  /-- The resolutions of the levels, from coarse to fine. -/
  ladder : List (List Nat)
  /-- The outcomes of all solves of the last run. -/
  reports : List (SolveReport α)
  /-- Whether some channel changes direction along some axis. -/
  nonMonotonic : Bool

namespace Fit

/-- A fit that has not been run. -/
def make (given : GivenSamples α) (settings : Settings α)
    (twoPass symmetricDomain verbose : Bool) : Fit α :=
  { given, settings, twoPass, symmetricDomain, verbose
    prepared := none, grid := none, ladder := [], reports := [], nonMonotonic := false }

variable [Scalar α]

/-- The standard deviation of the filter of curvature, for each unit of smoothness. -/
def filterStdevPerSmoothness : α := 0.05

/-- The standard deviation of the filter of curvature. A negative smoothness gives it directly. -/
def filterStdev? (f : Fit α) : Except (Failure α) α := do
  let s ← (← require .wrongKind f.settings.smoothness).toScalar?
  return if 0 ≤ s then filterStdevPerSmoothness * s else -s

/-- The average deviation of a channel. -/
def deviationOf? (f : Fit α) (channel : Int) : Except (Failure α) α :=
  match f.given.deviation with
  | some (.list l) => do
    match ← entryAt l channel with
    | .entry d => return d
    | _ => throw .wrongKind
  | some (.block d) => entryAt d.entries channel
  | _ => throw .wrongKind

/-- What a run found so far. -/
def prepared? (f : Fit α) : Except (Failure α) (Prepared α) := require .absent f.prepared

/-- The grid, once there is one. -/
def grid? (f : Fit α) : Except (Failure α) (Grid α) := require .absent f.grid

end Fit

end GridSpline
