import GridSpline.Notice
import GridSpline.Sample.Table
import GridSpline.Settings.Basic

/-!
# Prepared samples

Before anything is fitted the samples are checked and completed. Rows in which something is no
number are dropped; the domain is extended to the samples that lie outside it, if that is allowed;
missing bounds, weights and deviations get their defaults. The checks run in a fixed order.

## Main definitions

* `Sample` — one sample with its weights and its targets, the values that the fit is drawn to.
* `GivenSamples` — what the caller hands over.
* `Extended` — what is known when the domain is found.
* `Prepared` — what the fit works on.
* `extendDomain?` — the bounds after the samples were taken in.
* `GivenSamples.extend?`, `Extended.complete?` — the checks up to the domain, and those after it.
* `GivenSamples.prepare` — all checks in order.
-/

namespace GridSpline

open Scalar Failure

variable {α : Type}

/-- A sample of all channels at one position. -/
structure Sample (α : Type) where
  position : List α
  values : List α
  /-- How much the sample counts in each channel. -/
  weights : List α
  /-- What each channel is drawn to: the values at first, and then the values with the misfit of
  earlier passes added. -/
  targets : List α
deriving Repr

/-- The spacing of the nodes of an axis; without one the nodes are equidistant. -/
abbrev Spacing (α : Type) := Option (List α)

/-- What the caller hands over. -/
structure GivenSamples (α : Type) where
  positions : Nested α
  values : Nested α
  /-- One resolution or one for each axis; missing if an entry of it is. -/
  resolution : Option (Nested (Number α))
  weights : Option (Nested α)
  low : Option (Nested α)
  high : Option (Nested α)
  valueLow : Option (Nested α)
  valueHigh : Option (Nested α)
  deviation : Option (Nested α)
  /-- The spacing of each axis, if spacings are given; missing inside if that is no list. -/
  spacing : Option (Option (List (Option (Nested α))))

/-- What the fit works on. -/
structure Prepared (α : Type) where
  res : List Nat
  /-- The number of channels. -/
  channels : Nat
  samples : List (Sample α)
  low : List α
  high : List α
  /-- The mean of the values of each channel. -/
  average : List α
  valueLow : List α
  /-- The extent of the values of each channel, which scales its stiffness. -/
  valueRange : List α
  /-- The average deviation of each channel. -/
  deviation : List α
  spacing : List (Spacing α)

/-- Samples whose domain is found. -/
structure Extended (α : Type) where
  res : List Nat
  channels : Nat
  samples : List (Sample α)
  /-- The ends of each axis. -/
  bounds : List (α × α)
  /-- The ends of each channel as they were given. -/
  valueBounds : List (α × α)
  deviation : List α
  /-- What is to be reported of the bounds, also if a check fails that comes later. -/
  notices : List (Notice α)

/-! ## Limits -/

/-- The greatest number of axes. -/
def maxAxes : Nat := 4

/-- The greatest number of channels. -/
def maxChannels : Nat := 10

variable [Scalar α]

/-- The average deviation of samples about which nothing is known. -/
def defaultDeviation : α := 0.005

/-- The value of a node about which nothing is known. -/
def defaultAverage : α := 0.5

/-- The least distance of neighbouring nodes. -/
def minSpacing : α := 1e-12

/-! ## Resolution -/

/-- Equal to its integer part; infinities count. -/
def isIntegral (x : Number α) : Bool :=
  match x.truncate? with
  | .ok i => x.equals i
  | .error .infinite => true
  | .error .notANumber => false

/-- The resolution that a number stands for: a word. -/
def resolutionWord : Number α → Int
  | .integer n => Word.wrap n
  | .scalar x => cellFloor x

/-- The resolutions, which fix the number of axes. Only words and scalars can be rounded. -/
def resolutions? (given : Option (Nested (Number α))) : Except (Failure α) (List Nat) := do
  let nested ← require .wrongKind given
  let d ← require .shapeMismatch (Dense.ofNested? nested)
  let entries := d.entries
  if ¬ entries.all fun x => decide x.IsWord then throw .wrongKind
  if entries.isEmpty ∨ ¬ entries.all isIntegral then throw .resolutionNotIntegral
  let res := entries.map resolutionWord
  if maxAxes < res.length then throw (.tooManyAxes res.length)
  if res.any (· < 2) then throw .resolutionTooSmall
  return res.map Int.toNat

/-! ## Rows -/

/-- Weights, one for all channels of a sample or one for each of them. -/
def weightRows? (count channels : Nat) (given : Option (Nested α)) :
    Except (Failure α) (List (List α)) :=
  match given with
  | none => return List.replicate count (List.replicate channels 1)
  | some nested => do
    let d ← require .shapeMismatch (Dense.ofNested? nested)
    match d.shape with
    | [n] =>
      if n = count then return d.entries.map (List.replicate channels) else throw .weightShape
    | [n, m] =>
      if n = count ∧ m = channels then require .weightShape d.rows? else throw .weightShape
    | _ => throw .weightShape

/-- Samples from rows of positions, values and weights. -/
def assemble : List (List α) → List (List α) → List (List α) → List (Sample α)
  | p :: ps, v :: vs, k :: ks =>
    { position := p, values := v, weights := k, targets := v } :: assemble ps vs ks
  | _, _, _ => []

/-- Nothing in the sample is missing. -/
def Sample.IsComplete (s : Sample α) : Prop :=
  (∀ x ∈ s.position, IsNumber x) ∧ (∀ x ∈ s.values, IsNumber x) ∧ ∀ x ∈ s.weights, IsNumber x

instance (s : Sample α) : Decidable s.IsComplete := inferInstanceAs (Decidable (_ ∧ _))

/-- One coordinate of every row. -/
def column (rows : List (List α)) (e : Nat) : List α := rows.filterMap (·[e]?)

/-- The least number of a column, if there is one. -/
def least? : List α → Option α
  | [] => none
  | x :: xs => some (xs.foldl minimum x)

/-- The greatest number of a column, if there is one. -/
def greatest? : List α → Option α
  | [] => none
  | x :: xs => some (xs.foldl maximum x)

/-! ## The domain -/

/-- An end of an axis together with the outermost coordinate of the samples on that side. -/
def extendBound (mode : Extend) (side : Side) (axis : Nat) (bound value : α) :
    Except (Failure α) (α × List (Notice α)) :=
  let beyond := match side with
    | .low => decide (value < bound)
    | .high => decide (bound < value)
  if beyond then
    match mode with
    | .never => throw (.beyondDomain side axis value bound)
    | .warning => return (value, [.moved side axis bound value])
    | .always => return (value, [])
  else return (bound, [])

/-- Both ends of an axis after the coordinates of the samples were taken in. -/
def extendAxis (mode : Extend) (axis : Nat) (low high : α) (coordinates : List α) :
    Except (Failure α) ((α × α) × List (Notice α)) :=
  match least? coordinates, greatest? coordinates with
  | some first, some last => do
    let (low, below) ← extendBound mode .low axis low first
    let (high, above) ← extendBound mode .high axis high last
    return ((low, high), below ++ above)
  | _, _ => return ((low, high), [])

/-- The bounds of every axis, from the given one on, after the samples were taken in. -/
def extendDomain? (mode : Extend) (positions : List (List α)) :
    Nat → List (α × α) → Except (Failure α) (List (α × α) × List (Notice α))
  | _, [] => return ([], [])
  | axis, (low, high) :: rest => do
    let (bounds, moved) ← extendAxis mode axis low high (column positions axis)
    let (others, more) ← extendDomain? mode positions (axis + 1) rest
    return (bounds :: others, moved ++ more)

/-- Some axis has no extent. -/
def hasEmptyAxis (bounds : List (α × α)) : Bool := bounds.any fun (l, h) => decide (h ≤ l)

/-! ## Spacings -/

/-- The number of the first entry that is too close to the one before it. -/
def firstTooClose (spacing : List α) : Option Nat :=
  let close := List.zipWith (fun a b => decide (magnitude (b - a) < minSpacing)) spacing
    (spacing.drop 1)
  (close.findIdx? id).map (· + 1)

/-- The spacing of one axis. -/
def spacingOf? (axis count : Nat) (given : Option (Nested α)) : Except (Failure α) (Spacing α) :=
  match given with
  | none => return none
  | some nested => do
    let spacing := (← require .shapeMismatch (Dense.ofNested? nested)).entries
    if spacing.length ≠ count then throw (.spacingEntries axis count spacing.length)
    match firstTooClose spacing with
    | some i => throw (.spacingTooClose axis i)
    | none => return some spacing

/-- The spacings of all axes, from the given one on. -/
def spacingsFrom? : Nat → List (Nat × Option (Nested α)) → Except (Failure α) (List (Spacing α))
  | _, [] => return []
  | axis, (count, given) :: rest => do
    let spacing ← spacingOf? axis count given
    return spacing :: (← spacingsFrom? (axis + 1) rest)

/-- The spacings of all axes. -/
def spacings? (res : List Nat) (given : Option (Option (List (Option (Nested α))))) :
    Except (Failure α) (List (Spacing α)) :=
  match given with
  | none => return res.map fun _ => none
  | some entries => do
    let l ← require .wrongKind entries
    if l.length ≠ res.length then throw (.spacingAxes res.length)
    spacingsFrom? 0 (res.zip l)

/-! ## All together -/

/-- The extent of a channel: the given one, widened to the values. -/
def widen (low high : α) (values : List α) : α × α :=
  match least? values, greatest? values with
  | some first, some last => (minimum low first, maximum high last)
  | _, _ => (low, high)

/-- The mean, or the default if there is nothing to take it of. -/
def meanOr (default : α) (values : List α) : α :=
  if values.isEmpty then default else sum values / (values.length : α)

/-- Positions, values and weights as samples, without those in which something is missing, and the
number of channels. -/
def GivenSamples.samples? (g : GivenSamples α) (axes : Nat) :
    Except (Failure α) (Nat × List (Sample α)) := do
  let p ← SampleTable.ofNested? "positions" (some axes) g.positions
  let v ← SampleTable.ofNested? "values" none g.values
  let channels := v.columns
  if channels < 1 ∨ maxChannels < channels then throw (.channelCount channels)
  if p.columns ≠ axes then throw (.positionColumns p.columns axes)
  if p.rows.length ≠ v.rows.length then throw .sampleCounts
  let k ← weightRows? p.rows.length channels g.weights
  let samples := (assemble p.rows v.rows k).filter fun s => decide s.IsComplete
  if samples.any fun s => s.weights.any fun w => decide (w ≤ 0) then throw .weightNotPositive
  return (channels, samples)

/-- Checks what the caller hands over up to the domain, which takes the samples in. -/
def GivenSamples.extend? (g : GivenSamples α) (mode : Extend) :
    Except (Failure α) (Extended α) := do
  let res ← resolutions? g.resolution
  let axes := res.length
  let (channels, samples) ← g.samples? axes
  let low ← entriesOf? "glow" axes 0 g.low
  let high ← entriesOf? "ghigh" axes 1 g.high
  let valueLow ← entriesOf? "vlow" channels 0 g.valueLow
  let valueHigh ← entriesOf? "vhigh" channels 1 g.valueHigh
  let deviation ← entriesOf? "avgdev" channels defaultDeviation g.deviation
  let (bounds, notices) ← extendDomain? mode (samples.map (·.position)) 0 (low.zip high)
  return { res, channels, samples, bounds, valueBounds := valueLow.zip valueHigh, deviation, notices }

/-- Samples with what is derived from their values, and with a spacing for each axis. -/
def Extended.completed (e : Extended α) (spacing : List (Spacing α)) : Prepared α :=
  let columns := (List.range e.channels).map (column (e.samples.map (·.values)))
  -- The range of the values only scales the stiffness, so it grows without a notice.
  let extents := List.zipWith (fun (l, h) values => widen l h values) e.valueBounds columns
  { res := e.res
    channels := e.channels
    samples := e.samples
    low := e.bounds.map (·.1)
    high := e.bounds.map (·.2)
    average := columns.map (meanOr defaultAverage)
    valueLow := extents.map (·.1)
    valueRange := extents.map fun (l, h) => h - l
    deviation := e.deviation
    spacing }

/-- Checks what is left and completes the samples. -/
def Extended.complete? (e : Extended α) (given : Option (Option (List (Option (Nested α))))) :
    Except (Failure α) (Prepared α) := do
  if hasEmptyAxis e.bounds then throw .emptyDomain
  return e.completed (← spacings? e.res given)

/-- Checks and completes what the caller hands over. -/
def GivenSamples.prepare (g : GivenSamples α) (mode : Extend) :
    Except (Failure α) (Prepared α × List (Notice α)) := do
  let extended ← g.extend? mode
  let prepared ← extended.complete? g.spacing
  return (prepared, extended.notices)

end GridSpline
