import GridSpline.Settings.WeakFunction
import GridSpline.Equations.Basic

/-!
# The weak default

Where there are no samples near, a fit may be drawn to a default function. Every node gets a
weighted square of its value minus the value of the function there. The weight is shared between the
nodes and axes, so that the overall effect does not depend on the resolution.
-/

namespace GridSpline

open Scalar Failure

variable {α : Type} [Scalar α]

/-- The overall effect of the default function at the nominal weight. -/
def nominalWeakWeight : α := 0.1

/-- The weight at each node. -/
def weakNodeWeight? (weight : α) (nodes axes : Nat) : Except (Failure α) α :=
  if nodes * axes = 0 then throw .divisionByZero
  else return weight * nominalWeakWeight / ((nodes * axes : Nat) : α)

/-- The weighted squares at nodes with the given positions. -/
def weakDefault? (positions : List (List α)) (f : WeakFunction α) (channel : Int)
    (weight : α) : Except (Failure α) (List (Residual α)) := do
  let w ← weakNodeWeight? weight positions.length (positions.headD []).length
  let values ← positions.mapM (f.valueAt channel)
  return values.zipIdx.map fun (v, i) =>
    { weight := w, base := i, terms := [(0, 1)], target := some v }

end GridSpline
