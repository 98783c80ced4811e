import GridSpline.Curvature.Kernel
import GridSpline.Interpolation.Resample
import GridSpline.Equations.Stiffness

/-!
# Curvature on coarser lattices

A curvature captured on one lattice serves as target on another one over the same domain. It is
resampled, and scaled by the square of the ratio of the cell widths, since a second difference grows
with the square of the distance of the nodes.
-/

namespace GridSpline

open Scalar Failure

variable {α : Type} [Scalar α]

/-- The ratio of second differences along each axis. -/
def curvatureScale? (source target : List α) (symmetric : Bool) : Except (Failure α) (List α) := do
  let s ← scaleResolutions? symmetric source
  let t ← scaleResolutions? symmetric target
  require .shapeMismatch <|
    zipStretch? (fun s t => let ratio := (s - 1) / (t - 1); ratio * ratio) s t

/-- The curvature carried from one lattice to another. -/
def downsample? (source target : List Nat) (symmetric : Bool) (ccv : Curvature α) :
    Except (Failure α) (Curvature α) := do
  let scale ← curvatureScale? (Lattice.scalars source) (Lattice.scalars target) symmetric
  let parts ← resampleAll? source target ccv
  require .shapeMismatch (zipStretch? (fun (x : Array α) s => x.map (· * s)) parts scale)

/-- An array carried from one lattice to another. The scale belongs to the last axis of the array,
which has an entry for every axis of the lattices; it is that of the resolutions as they are given,
of which the lattices have the integer parts. -/
def downsampleArray? (source target : List α) (symmetric : Bool) (ccv : Dense α) :
    Except (Failure α) (Dense α) := do
  let scale ← curvatureScale? source target symmetric
  let out ← resampleArray? (← Lattice.ofScalars? source) (← Lattice.ofScalars? target) ccv
  require .shapeMismatch (Dense.zipWith? (· * ·) out (.table scale.length [scale]))

end GridSpline
