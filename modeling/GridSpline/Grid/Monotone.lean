import GridSpline.Grid.Basic

/-!
# Monotone grids

A channel is monotone along an axis if it nowhere falls along it, or nowhere rises; the direction is
the same on all lines of the axis. A fit reports whether all channels are monotone along all axes,
which a device that is to be inverted must be.
-/

namespace GridSpline

open Scalar

variable {α : Type} [Scalar α]

/-- The differences of neighbouring nodes along an axis. -/
def stepsAlong (res : List Nat) (a : Axis) (x : Array α) : List α :=
  ((List.range (Lattice.size res)).filter fun i => a.coord i + 1 < a.count).map fun i =>
    x.getD (i + a.stride) 0 - x.getD i 0

/-- The node values rise in one place along the axis and fall in another. -/
def changesDirection (res : List Nat) (a : Axis) (x : Array α) : Bool :=
  let steps := stepsAlong res a x
  steps.any (fun d => decide (0 < d)) && steps.any (fun d => decide (d < 0))

/-- Some channel changes direction along some axis. -/
def Grid.isNonMonotonic (g : Grid α) : Bool :=
  (Lattice.axes g.res).any fun a => g.values.any (changesDirection g.res a)

end GridSpline
