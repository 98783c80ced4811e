import GridSpline.Curvature.Kernel
import GridSpline.Equations.Stiffness

/-!
# Filtered curvature

Every component of a captured curvature is smoothed along every axis in turn. A line is continued
past its ends by point reflection about the end values, so that a line that is straight stays as it
is, and so do the ends of every line.

## Main definitions

* `reflected` — a line with its continuation.
* `filterAlong` — the filter along one axis.
* `filterCurvature?` — the filter along all axes.
-/

namespace GridSpline

open Scalar Failure

variable {α : Type} [Scalar α]

/-- The value at a place of a line with `count` nodes, continued past its ends by point reflection.
A line with a single node is continued by its value. -/
def reflected (count : Nat) (u : Nat → α) (p : Int) : α :=
  if count ≤ 1 then u 0
  else if p < 0 then u 0 + u 0 - u (-p).toNat
  else if (count : Int) ≤ p then
    u (count - 1) + u (count - 1) - u (2 * ((count : Int) - 1) - p).toNat
  else u p.toNat

/-- The filtered value at a place of a line. -/
def filteredAt (k : Kernel α) (count : Nat) (u : Nat → α) (place : Nat) : α :=
  (k.weights.zipIdx).foldl (fun acc (w, j) =>
    acc + w * reflected count u ((place : Int) + (j : Int) - (k.centre : Int))) 0

/-- The node vector filtered along an axis. -/
def filterAlong (nodes : Nat) (a : Axis) (k : Kernel α) (x : Array α) : Array α :=
  (Array.range nodes).map fun i =>
    let place := a.coord i
    let start := i - place * a.stride
    filteredAt k a.count (fun p => x.getD (start + p * a.stride) 0) place

/-- The kernel of an axis. Its reach is measured in whole cells. A line without nodes cannot be
continued past its ends. -/
def axisKernel? (stdev : α) (a : Axis) (resolution : α) : Except (Failure α) (Kernel α) := do
  let k ← gaussianKernel? stdev a.count ((cellFloor resolution : Int) : α)
  if a.count = 0 then throw .shapeMismatch
  return k

/-- The kernels of all axes, for the given resolutions in which smoothness is measured. -/
def filterKernels? (res : List Nat) (stdev : α) (scales : List α) :
    Except (Failure α) (List (Axis × Kernel α)) :=
  ((Lattice.axes res).zip scales).mapM fun (a, r) => do return (a, ← axisKernel? stdev a r)

/-- The curvature filtered along all axes. Every component must have a value at each node. -/
def filterCurvature? (res : List Nat) (stdev : α) (symmetric : Bool) (ccv : Curvature α) :
    Except (Failure α) (Curvature α) := do
  let nodes := Lattice.size res
  let scales ← scaleResolutions? symmetric (Lattice.scalars res)
  if ccv.any fun part => part.size ≠ nodes then throw .shapeMismatch
  let kernels ← filterKernels? res stdev scales
  return ccv.map fun part => kernels.foldl (fun x (a, k) => filterAlong nodes a k x) part

/-- An array filtered along all axes. Its entries are taken as node values, whatever the length of
its first axis. -/
def filterArray? (res : List Nat) (stdev : α) (symmetric : Bool) (ccv : Dense α) :
    Except (Failure α) (Dense α) := do
  discard (scaleResolutions? symmetric (Lattice.scalars res) : Except (Failure α) (List α))
  let shape := Lattice.size res :: ccv.shape.drop 1
  if ccv.data.size ≠ Lattice.size shape then throw .shapeMismatch
  let parts ← require .shapeMismatch { shape, data := ccv.data : Dense α }.components?
  return .ofComponents (Lattice.size res) (ccv.shape.drop 1)
    (← filterCurvature? res stdev symmetric parts)

end GridSpline
