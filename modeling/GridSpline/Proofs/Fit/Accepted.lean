import Mathlib
import GridSpline.Fit.Run
import GridSpline.Proofs.Fit.Made
import GridSpline.Proofs.Lattice.Ladder

/-!
# Accepted input

A run begins with checks. Input that passes them makes the fit ready: the settings are replaced by
their checked form, the samples are completed, a grid is laid over their domain and a ladder of
lattices leads to it. Of the weak default, which is code of the caller, it is asked that it has a
value of every channel wherever it is applied.

## Main definitions

* `Fit.IsAccepted` — input that passes the checks.
* `Fit.begun` — the fit when the first level is made.

## Main statements

* `IsAccepted.isReady_begun` — that fit is ready.
* `isAccepted_narrow` — a single sample on a narrow lattice is accepted.
-/

namespace GridSpline

open Scalar Failure
open GridSpline.Lattice

/-- The grid over the domain of samples, before anything is known about its values. -/
noncomputable def Grid.laid (data : Prepared ℝ) : Grid ℝ where
  res := data.res
  low := data.low
  high := data.high
  width := Grid.cellWidths data.low data.high data.res
  spacing := data.spacing
  values := List.replicate data.channels (Array.replicate (size data.res) defaultAverage)

theorem Prepared.IsValid.constant?_eq {data : Prepared ℝ} (h : data.IsValid) :
    Grid.constant? data.low data.high data.res data.channels data.spacing defaultAverage =
      some (Grid.laid data) := by
  unfold Grid.constant?
  rw [Grid.cellWidths?_eq h.low (h.length_high rfl)]
  rfl

namespace Fit

variable {f : Fit ℝ} {c : CheckedSettings ℝ} {data : Prepared ℝ}

/-- Input that passes the checks. -/
structure IsAccepted (f : Fit ℝ) (c : CheckedSettings ℝ) (data : Prepared ℝ) : Prop where
  checked : f.settings.check = .ok c
  prepared : ∃ notices, f.given.prepare (.ofWord c.extend) = .ok (data, notices)
  weakFunction : ∀ w, f.settings.weakFunction = some w →
    ∀ channel < data.channels, w.IsDefinedOn channel data.res.length

/-- The fit when the first level is made. -/
noncomputable def begun (f : Fit ℝ) (c : CheckedSettings ℝ) (data : Prepared ℝ)
    (ladder : List (List ℕ)) : Fit ℝ :=
  { Fit.withPrepared { f with settings := f.settings.ofChecked c } data with
    grid := some (Grid.laid data), ladder, reports := [] }

namespace IsAccepted

variable (h : f.IsAccepted c data)

include h

theorem isValid : data.IsValid := by
  obtain ⟨notices, hprepare⟩ := h.prepared
  exact isValid_prepare hprepare

/-- That fit is ready. -/
theorem isReady_begun (ladder : List (List ℕ)) : (f.begun c data ladder).IsReady data where
  prepared := rfl
  valid := h.isValid
  grid := ⟨Grid.laid data, rfl, rfl, rfl, rfl, rfl⟩
  deviation := rfl
  smoothness := ⟨c.smoothness, rfl, (isValid_check h.checked).smoothness⟩
  weak := ⟨c.weak, rfl, (isValid_check h.checked).weak⟩
  weakFunction := h.weakFunction
  lineSweeps := ⟨c.lineSweeps, rfl⟩

/-- There is a ladder of lattices with at least two nodes along every axis. -/
theorem exists_ladder : ∃ ladder, (fitLadder? data.res : Except (Failure ℝ) _) = .ok ladder ∧
    ladder.getLast? = some data.res ∧
    ∀ res ∈ ladder, res.length = data.res.length ∧ ∀ r ∈ res, 2 ≤ r := by
  obtain ⟨ladder, hladder, hlast, -, hlevels⟩ :=
    exists_fitLadder? h.isValid.axes h.isValid.resolutions
  exact ⟨ladder, hladder, hlast, fun res hres => ⟨(hlevels res hres).length_eq,
    forall_le_level (hlevels res hres) (by decide) h.isValid.resolutions⟩⟩

end IsAccepted

/-! ## A narrow lattice -/

/-- A sample in a corner of a lattice with two nodes along one axis and five along the other, and
nothing else. -/
noncomputable def narrow : Fit ℝ :=
  Fit.make
    { positions := .block { shape := [1, 2], data := #[0, 0] }
      values := .block { shape := [1], data := #[1] }
      resolution := some (.block { shape := [2], data := #[.integer 2, .integer 5] })
      weights := none, low := none, high := none, valueLow := none, valueHigh := none
      deviation := none, spacing := none }
    { smoothness := none, extend := some "always", extraFit := some (.integer 0)
      lineSweeps := some (.integer 0), tolerance := some (.scalar 1e-8)
      weak := some (.integer 0), weakFunction := none }
    false false false

/-- What the checks make of its samples. -/
noncomputable def narrowData : Prepared ℝ where
  res := [2, 5]
  channels := 1
  samples := [{ position := [0, 0], values := [1], weights := [1], targets := [1] }]
  low := [0, 0]
  high := [1, 1]
  average := [1]
  valueLow := [0]
  valueRange := [1]
  deviation := [defaultDeviation]
  spacing := [none, none]

/-- What the checks make of its settings. -/
noncomputable def narrowSettings : CheckedSettings ℝ where
  smoothness := 1
  extend := "always"
  extraFit := 0
  lineSweeps := 0
  tolerance := 1e-8
  weak := 0

/-- The same sample on another lattice, which may have a spacing. -/
noncomputable def narrowOn (resolution : Array (Number ℝ))
    (spacing : Option (Option (List (Option (Nested ℝ))))) : Fit ℝ :=
  { narrow with given := { narrow.given with
      resolution := some (.block { shape := [2], data := resolution }), spacing } }

/-- What the checks make of its samples. -/
noncomputable def narrowDataOn (m n : ℕ) (spacing : List (Spacing ℝ)) : Prepared ℝ :=
  { narrowData with res := [m, n], spacing }

theorem yields_narrowOn (resolution : Array (Number ℝ))
    (given : Option (Option (List (Option (Nested ℝ))))) {m n : ℕ} {spacing : List (Spacing ℝ)}
    (hres : resolutions? (narrowOn resolution given).given.resolution = .ok [m, n])
    (hspacing : spacings? [m, n] given = .ok spacing) :
    (narrowOn resolution given).given.Yields .always (narrowDataOn m n spacing) where
  resolutions := hres
  samples := samples?_of_tables (p := { columns := 2, rows := [[0, 0]] })
    (v := { columns := 1, rows := [[1]] }) (k := [[1]]) rfl rfl rfl (by decide) rfl rfl (by simp)
  bounds := by
    have hlt : ¬(1 : ℝ) < 0 := by norm_num
    refine ⟨[0, 0], [1, 1], [], rfl, rfl, ?_⟩
    simp [narrowDataOn, narrowData, extendDomain?, extendAxis, column, least?, greatest?,
      extendBound, hlt]
  paired := rfl
  extended := by simp [narrowDataOn, narrowData]
  values := by
    have hwiden : widen (0 : ℝ) 1 [1] = (0, 1) := by simp [widen, least?, greatest?]
    refine ⟨[0], [1], rfl, rfl, ?_⟩
    simp [narrowDataOn, narrowData, Prepared.columns, List.range_succ, column, hwiden]
  average := by
    simp [narrowDataOn, narrowData, Prepared.columns, List.range_succ, column, meanOr]
  deviation := rfl
  spacing := hspacing

theorem check_narrow : narrow.settings.check = .ok narrowSettings := by
  have hword : (resolveAbbreviation "extend" Extend.words "always" : Except (Failure ℝ) String) =
      .ok "always" := rfl
  have hcount : countOf "extra_fit" (some (.integer 0) : Option (Number ℝ)) = .ok 0 := rfl
  have hsweeps : countOf "line_sweeps" (some (.integer 0) : Option (Number ℝ)) = .ok 0 := rfl
  unfold Settings.check
  have htolerance : ¬(Number.scalar (1e-8 : ℝ)).IsNotPositive := by
    rw [Number.isNotPositive_iff]
    norm_num [Number.toScalar]
  have hweak : ¬(Number.integer 0 : Number ℝ).IsNegative := by
    rw [Number.isNegative_iff]
    simp [Number.toScalar]
  simp only [narrow, Fit.make, nominalSmoothness, pure_bind, require_some, ok_bind, hword, hcount,
    hsweeps, Number.toScalar?_eq]
  rw [if_neg htolerance, if_neg (by simp), if_neg hweak]
  simp [narrowSettings, Number.toScalar]

theorem isAccepted_narrowOn {resolution : Array (Number ℝ)}
    {given : Option (Option (List (Option (Nested ℝ))))} {m n : ℕ} {spacing : List (Spacing ℝ)}
    (hres : resolutions? (narrowOn resolution given).given.resolution = .ok [m, n])
    (hspacing : spacings? [m, n] given = .ok spacing) :
    (narrowOn resolution given).IsAccepted narrowSettings (narrowDataOn m n spacing) where
  checked := check_narrow
  prepared := GivenSamples.prepare_iff.mpr (yields_narrowOn _ _ hres hspacing)
  weakFunction w hw := absurd hw (by simp [narrowOn, narrow, Fit.make])

/-- A single sample on a narrow lattice is accepted. -/
theorem isAccepted_narrow : narrow.IsAccepted narrowSettings narrowData := by
  have haccepted : (narrowOn #[.integer 2, .integer 5] none).IsAccepted narrowSettings
      (narrowDataOn 2 5 [none, none]) := isAccepted_narrowOn rfl rfl
  exact haccepted

/-! ## A bump -/

/-- Four samples along the middle of a lattice with inner nodes along both axes. The values go up
and down again, and two samples in the middle contradict each other. -/
noncomputable def bump : Fit ℝ :=
  { narrow with given := { narrow.given with
      positions := .block { shape := [4, 2], data := #[0, 0.5, 0.5, 0.5, 0.5, 0.5, 1, 0.5] }
      values := .block { shape := [4], data := #[0, 1, 0.5, 0.5] }
      resolution := some (.block { shape := [2], data := #[.integer 3, .integer 4] }) } }

/-- One of them. -/
noncomputable def bumpSample (x value : ℝ) : Sample ℝ :=
  { position := [x, 0.5], values := [value], weights := [1], targets := [value] }

/-- What the checks make of its samples. -/
noncomputable def bumpData : Prepared ℝ :=
  { narrowDataOn 3 4 [none, none] with
    samples := [bumpSample 0 0, bumpSample 0.5 1, bumpSample 0.5 0.5, bumpSample 1 0.5]
    average := [0.5] }

theorem yields_bump : bump.given.Yields .always bumpData where
  resolutions := rfl
  samples := samples?_of_tables
    (p := { columns := 2, rows := [[0, 0.5], [0.5, 0.5], [0.5, 0.5], [1, 0.5]] })
    (v := { columns := 1, rows := [[0], [1], [0.5], [0.5]] }) (k := [[1], [1], [1], [1]])
    rfl rfl rfl (by decide) rfl rfl (by simp)
  bounds := by
    have hx : least? [(0 : ℝ), 0.5, 0.5, 1] = some 0 ∧ greatest? [(0 : ℝ), 0.5, 0.5, 1] = some 1 := by
      norm_num [least?, greatest?]
    have hy : least? [(0.5 : ℝ), 0.5, 0.5, 0.5] = some 0.5 ∧
        greatest? [(0.5 : ℝ), 0.5, 0.5, 0.5] = some 0.5 := by
      norm_num [least?, greatest?]
    have hinside : ¬(0.5 : ℝ) < 0 ∧ ¬(1 : ℝ) < 0.5 := by norm_num
    refine ⟨[0, 0], [1, 1], [], rfl, rfl, ?_⟩
    simp [bumpData, bumpSample, narrowDataOn, narrowData, extendDomain?, extendAxis, column,
      extendBound, hx, hy, hinside]
  paired := rfl
  extended := by simp [bumpData, narrowDataOn, narrowData]
  values := by
    have hwiden : widen (0 : ℝ) 1 [0, 1, 0.5, 0.5] = (0, 1) := by
      norm_num [widen, least?, greatest?]
    refine ⟨[0], [1], rfl, rfl, ?_⟩
    simp [bumpData, bumpSample, narrowDataOn, narrowData, Prepared.columns, List.range_succ, column,
      hwiden]
  average := by
    have hmean : meanOr (defaultAverage : ℝ) [0, 1, 0.5, 0.5] = 0.5 := by norm_num [meanOr]
    simp [bumpData, bumpSample, narrowDataOn, narrowData, Prepared.columns, List.range_succ, column,
      hmean]
  deviation := rfl
  spacing := rfl

theorem isAccepted_bump : bump.IsAccepted narrowSettings bumpData where
  checked := check_narrow
  prepared := GivenSamples.prepare_iff.mpr yields_bump
  weakFunction w hw := absurd hw (by simp [bump, narrow, Fit.make])

end Fit

end GridSpline
