import GridSpline.Curvature.Downsample
import GridSpline.Equations.WeakDefault
import GridSpline.Fit.Basic
import GridSpline.Fit.Spacing
import GridSpline.Interpolation.Matrix
import GridSpline.Smoothing.Optimum

/-!
# Levels

A level is one channel of a fit on one lattice of its ladder: the stiffness along each axis, the
cells of the samples, the equations and the node values. What does not depend on the channel's
targets is worked out when the level is made; the equations are built from what the fit holds at
that time.

## Main definitions

* `stiffnessWeights?` — the stiffness that keeps the balance with the samples on every lattice.
* `Level.make?` — a level of a fit.
* `Level.squares?` — the weighted squares whose sum the level minimises.
* `Level.setup?` — the equations.
* `Level.seed?`, `Level.solve` — the first node values and the solution.
* `Level.addMisfit?` — the misfit added to the targets.
-/

namespace GridSpline

open Scalar Failure

variable {α : Type}

/-- One channel of a fit on one lattice. -/
structure Level (α : Type) where
  res : List Nat
  channel : Int
  low : List α
  high : List α
  /-- The width of a cell along each axis. -/
  width : List α
  /-- The spacing of each axis. -/
  spacing : List (Spacing α)
  /-- The stiffness along each axis, for values of unit range. -/
  stiffness : List α
  /-- The lowest node of the cell of every sample. -/
  bases : List Int
  /-- The weights of the corners of the cell of every sample. -/
  cornerWeights : List (List α)
  cornerOffsets : List Int
  /-- Takes node values to values at the samples. -/
  interpolation : SparseMatrix α
  /-- What second differences are drawn to. -/
  ccv : Option (Curvature α)
  /-- The matrix of the equations, once they are set up. -/
  matrix : Option (PackedMatrix α)
  rhs : Array α
  /-- The node values. -/
  x : Array α
  /-- The length that the error of a solve is measured against. -/
  scale : α

variable [Scalar α]

/-- The least length that the error of a solve is measured against. -/
def minScale : α := 1e-4

/-! ## Stiffness -/

/-- The number of nodes with neighbours on both sides along all axes. Axes with a single node count
negatively. -/
def interiorCount (res : List Nat) : Int :=
  res.foldl (fun (n : Int) (r : Nat) => n * ((r : Int) - 2)) 1

/-- How smoothness is weighted: by fixed factors if every solve is done twice, else by a multiple of
the optimum, or by a negative smoothness directly. -/
def smoothnessFactor? (fit : Fit α) (axes : Nat) (channel : Int) (secondPass : Bool) :
    Except (Failure α) α := do
  if fit.twoPass then return if secondPass then 1e-4 else 1e-6
  let s ← (← require .wrongKind fit.settings.smoothness).toScalar?
  if 0 ≤ s then
    let p ← fit.prepared?
    let deviation ← fit.deviationOf? channel
    return s * (← optimalSmoothing? axes (p.samples.length : α) deviation)
  else return -s

/-- The stiffness along each axis. It makes up for the number of nodes at which second differences
are taken, and for their size, so that the balance with the samples is the same on all lattices. -/
def stiffnessWeights? (fit : Fit α) (res : List Nat) (channel : Int) (secondPass : Bool) :
    Except (Failure α) (List α) := do
  let interior := interiorCount res
  if interior ≤ 0 then return res.map fun _ => 0
  let factor ← smoothnessFactor? fit res.length channel secondPass
  let scales : List α := latticeScales fit.symmetricDomain res
  return scales.map fun r =>
    let square := (r - 1) * (r - 1)
    factor * (square * square / (interior : α))

namespace Level

/-- The level of a channel on a lattice over the domain of the fit. -/
def make? (fit : Fit α) (res : List Nat) (channel : Int) (secondPass : Bool) :
    Except (Failure α) (Level α) := do
  let final ← fit.grid?
  let spacing := List.zipWith (fun (s : Spacing α) r => s.map (downsampleSpacing · r))
    final.spacing res
  let width ← require .shapeMismatch (Grid.cellWidths? final.low final.high res)
  discard (meanResolution? (Lattice.scalars res) : Except (Failure α) α)
  let stiffness ← stiffnessWeights? fit res channel secondPass
  let data ← fit.prepared?
  let points : SampleTable α :=
    { columns := data.res.length, rows := data.samples.map (·.position) }
  let cells ← Cell.locate? res final.low final.high width points
  let bases := cells.map (·.base)
  let cornerWeights := cells.map fun c => GridSpline.cornerWeights c.fraction
  let cornerOffsets := GridSpline.cornerOffsets ((Lattice.strides res).map Int.ofNat)
  let nodes := Lattice.size res
  let interpolation ← interpolationMatrix? bases cornerWeights.flatten cornerOffsets nodes
  return {
    res, channel, low := final.low, high := final.high, width, spacing, stiffness, bases
    cornerWeights, cornerOffsets, interpolation
    ccv := none, matrix := none, rhs := Array.replicate nodes 0, x := Array.replicate nodes 0
    scale := minScale }

/-- Takes a curvature captured on another lattice as target. -/
def setCurvature? (level : Level α) (fit : Fit α) (source : List Nat) (ccv : Curvature α) :
    Except (Failure α) (Level α) := do
  return { level with ccv := some (← downsample? source level.res fit.symmetricDomain ccv) }

/-! ## Equations -/

/-- One channel of the samples: its values. -/
def channelOf? (data : Prepared α) (channel : Int) (part : Sample α → List α) :
    Except (Failure α) (List α) :=
  data.samples.mapM fun s => entryAt (part s) channel

/-- The weighted squares of the second differences. -/
def stiffnessResiduals? (level : Level α) (data : Prepared α) :
    Except (Failure α) (List (Residual α)) := do
  let range ← entryAt data.valueRange level.channel
  stiffness? level.res (level.stiffness.map (· * range)) level.spacing level.ccv

/-- The weighted squares of the misfit to the default function. -/
def weakResiduals? (level : Level α) (fit : Fit α) : Except (Failure α) (List (Residual α)) :=
  match fit.settings.weakFunction with
  | none => return []
  | some f => do
    let positions ← require .shapeMismatch
      ((Lattice.allCoords level.res).mapM (Grid.positionAt? level.low level.width))
    let weight ← (← require .wrongKind fit.settings.weak).toScalar?
    weakDefault? positions f level.channel weight

/-- The weighted square of the misfit to one sample. -/
def sampleResidual (offsets : List Int) (base : Int) (weights : List α) (weight target : α) :
    Residual α :=
  { weight, base, terms := offsets.zip weights, target := some target }

/-- The weighted squares of the misfit to the samples. -/
def sampleResiduals? (level : Level α) (data : Prepared α) :
    Except (Failure α) (List (Residual α)) := do
  let count := level.bases.length
  let weights ← channelOf? data level.channel (·.weights)
  let weights ← require .shapeMismatch (stretch? count weights)
  let targets ← channelOf? data level.channel (·.targets)
  let targets ← require .shapeMismatch (stretch? count targets)
  let cells := level.bases.zip level.cornerWeights
  return List.zipWith (fun (base, corners) (weight, target) =>
    sampleResidual level.cornerOffsets base corners weight target) cells (weights.zip targets)

/-- Refuses corners of cells that cannot be coupled. For one corner after the other, its node must
exist in every cell, and the differences to the later corners must be those of steps of the stencil;
the latter is asked for even if there are no cells. -/
def refuseCorners (A : PackedMatrix α) (bases : List Int) : List Int → Except (Failure α) Unit
  | [] => return ()
  | o :: later => do
    discard (require .indexOutOfRange (bases.mapM fun b => Lattice.position? A.nodes (b + o)))
    discard (later.mapM fun p => A.column? (p - o))
    refuseCorners A bases later

/-- The weighted squares of a level, by what they are drawn to. -/
structure Squares (α : Type) where
  stiff : List (Residual α)
  weak : List (Residual α)
  samples : List (Residual α)

/-- All weighted squares; the level minimises their sum. -/
def Squares.all (s : Squares α) : List (Residual α) := s.stiff ++ (s.weak ++ s.samples)

/-- The weighted squares of a level, from what the fit holds now. -/
def squares? (level : Level α) (fit : Fit α) : Except (Failure α) (Squares α) := do
  let data ← fit.prepared?
  let stiff ← level.stiffnessResiduals? data
  let weak ← level.weakResiduals? fit
  let samples ← level.sampleResiduals? data
  return { stiff, weak, samples }

/-- The length that errors are measured against: that of the right-hand side, without the part that
comes from captured curvature. -/
def errorScale (curvatureRhs rhs : Array α) : α :=
  larger (sqrt (larger (dot rhs rhs - dot curvatureRhs curvatureRhs) 0)) minScale

/-- Builds the equations from what the fit holds now. -/
def setup? (level : Level α) (fit : Fit α) : Except (Failure α) (Level α) := do
  let squares ← level.squares? fit
  let empty : PackedMatrix α := .zero level.res
  refuseCorners empty level.bases level.cornerOffsets
  -- The part that comes from captured curvature is kept to be left out of the scale.
  let curvatureRhs ← addTargets? (zeroRhs level.res) squares.stiff
  let rhs ← addTargets? curvatureRhs (squares.weak ++ squares.samples)
  let matrix ← empty.addSquares? squares.all
  return { level with matrix := some matrix, rhs, scale := errorScale curvatureRhs rhs }

/-! ## Solution -/

/-- The first node values: the average of the samples, or those of a coarser level. -/
def seed? (level : Level α) (fit : Fit α) (coarser : Option (Level α)) :
    Except (Failure α) (Level α) :=
  match coarser with
  | none => do
    let average ← entryAt (← fit.prepared?).average level.channel
    return { level with x := level.x.map fun _ => average }
  | some c => do return { level with x := ← resample? c.res level.res c.x }

/-- Solves from the present node values. The outcome holds the new ones also if it is a failure. -/
def solve (level : Level α) (fit : Fit α) (tolerance : Option α) : LevelSystem.Outcome α :=
  match level.matrix with
  | none => .refuse level.x .absent
  | some A =>
    let system := LevelSystem.make level.res A.toSparse level.rhs level.scale
    system.solveGiven tolerance fit.settings.lineSweeps level.x

/-- The values at the samples. -/
def interpolate? (level : Level α) : Except (Failure α) (Array α) :=
  require .shapeMismatch (level.interpolation.mulVec? level.x)

/-- Adds to one target of a sample. -/
def addToTarget (channel : Nat) (error : α) (s : Sample α) : Sample α :=
  { s with targets := s.targets.modify channel (· + error) }

/-- The samples with their misfit to the present node values added to their targets. -/
def addMisfit? (level : Level α) (data : Prepared α) : Except (Failure α) (Prepared α) := do
  let channel ← require .indexOutOfRange (Lattice.position? data.channels level.channel)
  let values ← channelOf? data level.channel (·.values)
  let fitted ← level.interpolate?
  let fitted ← require .shapeMismatch (stretch? values.length fitted.toList)
  let errors := List.zipWith (· - ·) values fitted
  return { data with samples := List.zipWith (addToTarget channel) errors data.samples }

end Level

end GridSpline
