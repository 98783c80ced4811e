import GridSpline.Curvature.Capture
import GridSpline.Curvature.Filter
import GridSpline.Fit.Level

/-!
# Running a fit

A run checks the settings and samples, lays the grid, and solves every channel over the ladder of
lattices, each level starting from the one before it. With two passes the ladder is climbed a second
time, towards the smoothed curvature of the first result. With extra passes all of this is repeated
after the misfit was added to the targets. In the end the grid is checked for changes of direction.

## Main definitions

* `FitM` — steps that change a fit, report on the way and may fail; what was changed before a
  failure stays.
* `solveLadder`, `solvePasses`, `solveChannel` — one climb, one or two of them, and all.
* `Fit.run` — a run.
-/

namespace GridSpline

open Scalar Failure

variable {α : Type}

/-- A fit that is being run. -/
structure Running (α : Type) where
  fit : Fit α
  /-- What was reported, the latest first. -/
  notices : List (Notice α)

/-- Steps of a run. -/
abbrev FitM (α : Type) := ExceptT (Failure α) (StateM (Running α))

namespace FitM

/-- The fit as it is now. -/
def fit : FitM α (Fit α) := do return (← get).fit

/-- Changes the fit. -/
def change (f : Fit α → Fit α) : FitM α Unit := modify fun r => { r with fit := f r.fit }

/-- Goes on with a result, or fails without one. -/
def require {β : Type} (reason : Failure α) : Option β → FitM α β
  | some b => return b
  | none => throw reason

/-- Reports something. -/
def notify (l : List (Notice α)) : FitM α Unit :=
  modify fun r => { r with notices := l.reverse ++ r.notices }

end FitM

variable [Scalar α]

/-! ## Channels -/

/-- Solves one level, starting from a coarser one if there is any. -/
def solveLevel (channel : Nat) (secondPass : Bool) (ccv : Option (Curvature α)) (tolerance : α)
    (coarser : Option (Level α)) (res : List Nat) : FitM α (Level α) := do
  let fit ← FitM.fit
  let level ← Level.make? fit res channel secondPass
  let level ← match ccv with
    | some c => do pure (← level.setCurvature? fit (← fit.grid?).res c)
    | none => pure level
  let level ← level.setup? fit
  let level ← level.seed? fit coarser
  let outcome := level.solve fit (some tolerance)
  if fit.verbose then FitM.notify outcome.notices
  let report ← outcome.result
  FitM.change fun f => { f with reports := f.reports ++ [report] }
  if fit.verbose then
    FitM.notify [.solved channel report.res report.error report.iterations]
  return { level with x := outcome.x }

/-- Climbs the ladder and returns the last level. -/
def solveLadder (channel : Nat) (secondPass : Bool) (ccv : Option (Curvature α)) (tolerance : α) :
    FitM α (Level α) := do
  let last ← (← FitM.fit).ladder.foldlM (fun coarser res =>
    some <$> solveLevel channel secondPass ccv tolerance coarser res) none
  FitM.require .absent last

/-- The curvature of a solution, smoothed. -/
def smoothedCurvature? (fit : Fit α) (level : Level α) : Except (Failure α) (Curvature α) := do
  let ccv ← captureCurvature? level.res level.x level.spacing
  filterCurvature? level.res (← fit.filterStdev?) fit.symmetricDomain ccv

/-- Climbs the ladder once, or twice with the smoothed curvature of the first result as target. -/
def solvePasses (channel : Nat) (tolerance : α) : FitM α (Level α) := do
  if (← FitM.fit).twoPass then
    let first ← solveLadder channel false none tolerance
    let ccv ← smoothedCurvature? (← FitM.fit) first
    solveLadder channel true (some ccv) tolerance
  else solveLadder channel false none tolerance

/-- Solves a channel, and again as often as extra passes are wanted. -/
def solveChannel (channel : Nat) (tolerance : α) : Nat → FitM α (Level α)
  | 0 => solvePasses channel tolerance
  | extra + 1 => do
    let level ← solvePasses channel tolerance
    let data ← level.addMisfit? (← (← FitM.fit).prepared?)
    FitM.change fun f => { f with prepared := some data }
    solveChannel channel tolerance extra

/-- Gives a channel of the grid its node values. -/
def Grid.setChannel (g : Grid α) (channel : Nat) (x : Array α) : Grid α :=
  { g with values := g.values.set channel x }

/-- Solves channels one by one. -/
def solveChannels (tolerance : α) (extra : Nat) : List Nat → FitM α Unit
  | [] => return ()
  | channel :: rest => do
    let level ← solveChannel channel tolerance extra
    FitM.change fun f => { f with grid := f.grid.map (·.setChannel channel level.x) }
    solveChannels tolerance extra rest

/-! ## Runs -/

/-- Checked settings in place of the given ones. -/
def Settings.ofChecked (s : Settings α) (c : CheckedSettings α) : Settings α :=
  { s with
    smoothness := some (.scalar c.smoothness)
    extend := some c.extend
    extraFit := some (.integer c.extraFit)
    lineSweeps := some (.integer c.lineSweeps)
    tolerance := some (.scalar c.tolerance)
    weak := some (.scalar c.weak) }

/-- Completed samples in place of earlier ones. -/
def Fit.withPrepared (f : Fit α) (data : Prepared α) : Fit α :=
  { f with
    prepared := some data
    given := { f.given with deviation := some (.list (data.deviation.map .entry)) } }

/-- Checks everything, lays the grid and solves all channels. Returns whether some channel changes
direction. -/
def runFit : FitM α Bool := do
  let checked ← (← FitM.fit).settings.check
  FitM.change fun f => { f with settings := f.settings.ofChecked checked }
  let given := (← FitM.fit).given
  let extended ← given.extend? (.ofWord checked.extend)
  -- Bounds that moved are reported before the checks go on.
  FitM.notify extended.notices
  let data ← extended.complete? given.spacing
  FitM.change (·.withPrepared data)
  let grid ← FitM.require .shapeMismatch
    (Grid.constant? data.low data.high data.res data.channels data.spacing defaultAverage)
  FitM.change fun f => { f with grid := some grid }
  let ladder ← (Lattice.fitLadder? data.res : Except (Failure α) _)
  FitM.change fun f => { f with ladder, reports := [] }
  -- Without samples the grid stays as it was laid.
  if data.samples.isEmpty then
    FitM.change fun f => { f with nonMonotonic := false }
    return false
  solveChannels checked.tolerance checked.extraFit (List.range data.channels)
  let nonMonotonic := (← (← FitM.fit).grid?).isNonMonotonic
  FitM.change fun f => { f with nonMonotonic }
  return nonMonotonic

/-- The outcome of a run. -/
structure RunOutcome (α : Type) where
  /-- The fit afterwards. -/
  fit : Fit α
  /-- Whether some channel changes direction. -/
  result : Except (Failure α) Bool
  /-- What was reported, in order. -/
  notices : List (Notice α)

/-- Runs a fit. -/
def Fit.run (f : Fit α) : RunOutcome α :=
  let (result, after) := (runFit : FitM α Bool).run.run { fit := f, notices := [] }
  { fit := after.fit, result, notices := after.notices.reverse }

end GridSpline
