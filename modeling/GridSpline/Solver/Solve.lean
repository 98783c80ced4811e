import GridSpline.Lattice.Ladder
import GridSpline.Notice
import GridSpline.Solver.GaussSeidel
import GridSpline.Solver.LineSweep

/-!
# Solving one level

Small lattices are solved by conjugate gradients at once. On others a few iterations may relax whole
lines, as long as that makes good progress; after that sweeps of relaxation come in batches. The
size of a batch is estimated from the rate at which the error fell before. The iterations end when
the error is within the tolerance, when it hardly falls any more, or after a fixed number. Not to
reach the tolerance is no failure.

## Main definitions

* `LevelSystem` — what is solved.
* `Progress` — where an iteration stands.
* `LevelSystem.advance?` — one iteration.
* `LevelSystem.solve` — the whole solve.
* `LevelSystem.solveGiven` — the same for settings that may be missing.
-/

namespace GridSpline

open Scalar Failure

variable {α : Type}

/-! ## Limits -/

/-- The greatest number of iterations. -/
def maxIterations : Nat := 500

/-- The greatest number of sweeps in a batch. -/
def maxBatch : Nat := 16

/-- The largest resolution that is solved by conjugate gradients at once. -/
def directResolution : Nat := 4

variable [Scalar α]

/-- An iteration that leaves more than this part of the error ends the solve. -/
def slowestProgress : α := 0.998

/-- Relaxing lines is given up when more than this part of the error is left. -/
def lineStall : α := 0.8

/-- The tolerance of each line, as a multiple of that of the solve. -/
def lineTolerance : α := 1

/-! ## State -/

/-- The equations of one level. -/
structure LevelSystem (α : Type) where
  res : List Nat
  matrix : SparseMatrix α
  lower : SparseMatrix α
  upper : SparseMatrix α
  rhs : Array α
  /-- The length that errors are measured against. -/
  scale : α
  tolerance : α

/-- Where an iteration stands. -/
structure Progress (α : Type) where
  x : Array α
  error : α
  /-- The error before the last iteration. -/
  previous : α
  /-- The part of the error that the last iteration left, for each of its sweeps. -/
  ratio : α
  /-- The number of sweeps in the last batch; none before the first one. -/
  batch : Nat
  /-- The number of the last iteration that may relax lines. -/
  lineLimit : Nat

/-- The outcome of a solve. -/
structure SolveReport (α : Type) where
  res : List Nat
  error : α
  iterations : Nat
  converged : Bool
deriving Repr

namespace LevelSystem

/-- The equations with their two triangles, to be solved without error. -/
def make (res : List Nat) (matrix : SparseMatrix α) (rhs : Array α) (scale : α) :
    LevelSystem α :=
  { res, matrix, lower := matrix.lower, upper := matrix.upper, rhs, scale, tolerance := 0 }

/-- The error of node values. -/
def errorOf (s : LevelSystem α) (x : Array α) : α := solutionError s.matrix s.rhs s.scale x

/-- The state before the first iteration. -/
def begin (s : LevelSystem α) (lineLimit : Nat) (x : Array α) : Progress α :=
  { x, error := s.errorOf x, previous := 1, ratio := 1, batch := 0, lineLimit }

/-! ## Iterations -/

/-- How many sweeps of the rate of the last batch lead to the tolerance. -/
def sweepEstimate (s : LevelSystem α) (p : Progress α) : α :=
  (log s.tolerance - log p.error) * (p.batch : α) / (log p.error - log p.previous)

/-- The number of sweeps in the next batch: one, until a batch has shown the rate. -/
def nextBatch? (s : LevelSystem α) (p : Progress α) : Except (Failure α) Nat := do
  -- Without a rate there is nothing to estimate from.
  if p.batch = 0 ∨ p.error ≤ 0 ∨ p.previous ≤ p.error then return 1
  let estimate ← integer (truncate? (s.sweepEstimate p))
  return (min (max estimate 1) maxBatch).toNat

/-- An iteration that relaxes lines. -/
def advanceLines (s : LevelSystem α) (steps : Nat) (p : Progress α) : Progress α :=
  let x := lineSweep s.matrix s.rhs s.res steps (s.tolerance * lineTolerance) p.x
  let error := s.errorOf x
  let ratio := if 0 < p.error then error / p.error else 0
  { x, error, previous := p.error, ratio, batch := p.batch
    lineLimit := if lineStall < ratio then 0 else p.lineLimit }

/-- An iteration that relaxes nodes. -/
def advanceNodes? (s : LevelSystem α) (p : Progress α) : Except (Failure α) (Progress α) := do
  let batch ← s.nextBatch? p
  let x ← sweeps? s.lower s.upper s.rhs batch p.x
  let error := s.errorOf x
  let ratio := if 0 < p.error then pow (error / p.error) (1 / (batch : α)) else 0
  return { x, error, previous := p.error, ratio, batch, lineLimit := p.lineLimit }

/-- The iteration with the given number. -/
def advance? (s : LevelSystem α) (iteration : Nat) (p : Progress α) :
    Except (Failure α) (Progress α) := do
  if iteration ≤ p.lineLimit then
    let steps ← integer (truncate? (Lattice.meanOf s.res : α))
    return s.advanceLines steps.toNat p
  else s.advanceNodes? p

/-- Nothing more is to be gained. -/
def isDone (s : LevelSystem α) (p : Progress α) : Bool :=
  p.error < s.tolerance || p.ratio ≤ 1 && slowestProgress < p.ratio

/-- The outcome after the given number of iterations. -/
def report (s : LevelSystem α) (iterations : Nat) (error : α) : SolveReport α :=
  { res := s.res, error, iterations, converged := error < s.tolerance }

/-- What a solve leaves behind: the node values, also when it fails, the outcome, and the error
after each iteration. -/
structure Outcome (α : Type) where
  x : Array α
  result : Except (Failure α) (SolveReport α)
  notices : List (Notice α)

/-- Iterations, at most the given number of them, after those already `done`. -/
def iterate (s : LevelSystem α) : Nat → Nat → Progress α → List (Notice α) → Outcome α
  | 0, done, p, notices =>
    { x := p.x, result := .ok (s.report done p.error), notices := notices.reverse }
  | n + 1, done, p, notices =>
    match s.advance? (done + 1) p with
    | .error f => { x := p.x, result := .error f, notices := notices.reverse }
    | .ok p =>
      let notices := .iterated s.res (done + 1) p.error :: notices
      if s.isDone p then
        { x := p.x, result := .ok (s.report (done + 1) p.error), notices := notices.reverse }
      else iterate s n (done + 1) p notices

/-- The lattice is small enough to be solved at once. -/
def isSmall (s : LevelSystem α) : Bool := s.res.all (· ≤ directResolution)

/-- An outcome that leaves the node values as they are. -/
def Outcome.refuse (x : Array α) (f : Failure α) : Outcome α :=
  { x, result := .error f, notices := [] }

/-- Solves by conjugate gradients at once. The error is that of the whole system, which must have as
many right-hand sides as there are nodes. -/
def solveDirect (s : LevelSystem α) (tolerance : Option α) (x : Array α) : Outcome α :=
  let nodes := (List.range x.size).map Int.ofNat
  match conjugateGradient? s.matrix s.rhs nodes none tolerance x with
  | .error f => .refuse x f
  | .ok (x, _) =>
    { x, result := s.report 1 <$> solutionError? s.matrix s.rhs s.scale x, notices := [] }

/-- The equations with a right-hand side for every node, from node values for all of them. A single
right-hand side stands for all. -/
def fitted? (s : LevelSystem α) (x : Array α) : Option (LevelSystem α) :=
  if x.size ≠ s.matrix.columns then none
  else if s.rhs.size = s.matrix.rows.size then some s
  else (stretch? s.matrix.rows.size s.rhs.toList).map fun rhs => { s with rhs := rhs.toArray }

/-- Solves from the given node values. -/
def solve (s : LevelSystem α) (lineLimit : Nat) (x : Array α) : Outcome α :=
  if s.res.isEmpty then .refuse x .shapeMismatch
  else if s.isSmall then s.solveDirect (some s.tolerance) x
  else match s.fitted? x with
    | none => .refuse x .shapeMismatch
    | some s =>
      -- Lines cannot be solved to an error below zero.
      if 0 < lineLimit ∧ s.tolerance < 0 then .refuse x .negativeBound
      else s.iterate maxIterations 0 (s.begin lineLimit x) []

/-- What a solve without a tolerance leaves behind. It fails when the tolerance is asked for first,
and that is after an iteration if that one relaxes nodes. -/
def solveUnbounded (s : LevelSystem α) (lineLimit : Nat) (x : Array α) : Outcome α :=
  if s.res.isEmpty then .refuse x .shapeMismatch
  else if s.isSmall then s.solveDirect none x
  else match s.fitted? x with
    | none => .refuse x .shapeMismatch
    | some s =>
      if 0 < lineLimit then .refuse x .wrongKind
      else match s.advanceNodes? (s.begin 0 x) with
        | .ok p => .refuse p.x .wrongKind
        | .error f => .refuse x f

end LevelSystem

/-- How many iterations have a number that is at most the given one. -/
def iterationsUpTo (x : Number α) : Nat :=
  match x.truncate? with
  | .ok n => (min (max n 0) maxIterations).toNat
  | .error .infinite => if x.IsNegative then 0 else maxIterations
  | .error .notANumber => 0

/-- Solves from the given node values. The tolerance and the number of iterations that may relax
lines are asked for when they are needed; the latter after the first error, if lines may be relaxed
at all. -/
def LevelSystem.solveGiven (s : LevelSystem α) (tolerance : Option α)
    (lineSweeps : Option (Number α)) (x : Array α) : Outcome α :=
  let run (lineLimit : Nat) : Outcome α :=
    match tolerance with
    | some t => { s with tolerance := t }.solve lineLimit x
    | none => s.solveUnbounded lineLimit x
  match lineSweeps with
  | some n => run (iterationsUpTo n)
  | none =>
    if s.isSmall then run 0
    else .refuse x (if (s.fitted? x).isSome then .wrongKind else .shapeMismatch)

end GridSpline
