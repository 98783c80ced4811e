import Mathlib
import GridSpline.Proofs.Fit.Unread
import GridSpline.Proofs.Incomplete.Reading
import GridSpline.Proofs.Incomplete.Rows

/-!
# Runs of samples with incomplete rows

Rows in which something is no number are inert. Wherever and however many of them are added to the
samples of a fit, whatever else stands in them, the checks make the same of the samples in every
mode, and a run ends the same: it fails for the same reason, or it finds the same.

## Main statements

* `Fit.run_of_addsRows` — a run of samples to which such rows were added.
-/

namespace GridSpline

open Scalar Failure

variable {α : Type} [Scalar α] {f : Fit α} {g g' : GivenSamples α}

/-- Nothing that is given for the axes and channels changes with the rows. -/
theorem given_eq_of_addsRows (h : Relation.ReflTransGen GivenSamples.AddsRow g g') :
    g'.deviation = g.deviation ∧ g'.spacing = g.spacing := by
  induction h with
  | refl => exact ⟨rfl, rfl⟩
  | tail _ hrow ih =>
    obtain ⟨hdeviation, hspacing⟩ := given_eq_of_addsRow hrow
    exact ⟨hdeviation.trans ih.1, hspacing.trans ih.2⟩

/-- The domain that is found of samples with any number of such rows added. -/
theorem extend?_eq_of_addsRows (h : Relation.ReflTransGen GivenSamples.AddsRow g g')
    (mode : Extend) : g'.extend? mode = g.extend? mode := by
  induction h with
  | refl => rfl
  | tail _ hrow ih => exact (extend?_eq_of_addsRow hrow mode).trans ih

/-- Rows in which something is no number are inert: whichever are added, the checks make the same of
the samples and report the same, and the whole run ends the same, but for the samples that are kept
as they were given. -/
theorem Fit.run_of_addsRows (h : Relation.ReflTransGen GivenSamples.AddsRow f.given g) :
    (∀ mode, g.prepare mode = f.given.prepare mode ∧ g.reported mode = f.given.reported mode) ∧
      ({ f with given := g } : Fit α).run = { f.run with
        fit := { f.run.fit with given := { g with deviation := f.run.fit.given.deviation } } } := by
  have hextend := extend?_eq_of_addsRows h
  obtain ⟨hdeviation, hspacing⟩ := given_eq_of_addsRows h
  have hgiven : ({ g with deviation := f.given.deviation } : GivenSamples α) = g := by
    rw [← hdeviation]
  have hfit : ({ f with given := g } : Fit α) = f.withUnread g f.nonMonotonic := by
    rw [withUnread, hgiven]
  refine ⟨fun mode => ⟨prepare_congr_of_extend? (hextend mode) hspacing,
    reported_congr_of_extend? (hextend mode)⟩, ?_⟩
  rw [hfit, run_withUnread f.nonMonotonic (fun mode => by rw [hgiven, hextend]) hspacing,
    ← nonMonotonic_run]
  rfl

/-! ## Two samples and two blanks -/

/-- Samples on a lattice that is solved at once, each with a weight. -/
noncomputable def readings (positions values : List (List Reading)) (weights : List Reading) :
    GivenSamples Reading where
  positions := .block (.table 2 positions)
  values := .block (.table 1 values)
  resolution := some (.block { shape := [2], data := #[.integer 2, .integer 2] })
  weights := some (.block (.vector weights))
  low := none
  high := none
  valueLow := none
  valueHigh := none
  deviation := none
  spacing := none

/-- A fit of two readings in opposite corners. -/
noncomputable def Fit.fullReadings : Fit Reading :=
  .make (readings [[0, 0], [1, 1]] [[0], [1]] [1, 1])
    { smoothness := none, extend := some "warning", extraFit := some (.integer 0)
      lineSweeps := some (.integer 0), tolerance := some (.integer 1)
      weak := some (.integer 0), weakFunction := none } false false false

/-- A reading between them with a blank coordinate far outside, and one before them with a blank
value and a weight that is not positive. -/
noncomputable def blankReadings : GivenSamples Reading :=
  readings [[1, 1], [0, 0], [-1, .blank], [1, 1]] [[.blank], [0], [0], [1]] [-1, 1, 1, 1]

theorem addsRow_readings {i : ℕ} {p v : List (List Reading)} {k : List Reading}
    {position values : List Reading} {weight : Reading} (hp : ∀ r ∈ p, r.length = 2)
    (hv : ∀ r ∈ v, r.length = 1) (hposition : position.length = 2) (hvalues : values.length = 1)
    (hi : i ≤ p.length ∧ i ≤ v.length ∧ i ≤ k.length)
    (hblank : Reading.blank ∈ position ++ (values ++ [weight])) :
    (readings p v k).AddsRow
      (readings (p.insertIdx i position) (v.insertIdx i values) (k.insertIdx i weight)) :=
  ⟨i, position, values, [weight], {
    positions := Nested.addsPart_table hp hposition hi.1
    values := Nested.addsPart_table hv hvalues hi.2.1
    weights := .ofSample (Nested.addsPart_vector hi.2.2 weight)
    incomplete := ⟨_, hblank, Reading.not_isNumber_blank⟩
    others := rfl }⟩

/-- Two blanks change nothing. -/
theorem Fit.run_of_addsRows_blank :
    Relation.ReflTransGen GivenSamples.AddsRow fullReadings.given blankReadings ∧
      (∀ mode, blankReadings.prepare mode = fullReadings.given.prepare mode ∧
        blankReadings.reported mode = fullReadings.given.reported mode) ∧
      ({ fullReadings with given := blankReadings } : Fit Reading).run = { fullReadings.run with
        fit := { fullReadings.run.fit with
          given := { blankReadings with
            deviation := fullReadings.run.fit.given.deviation } } } := by
  have hbetween : fullReadings.given.AddsRow
      (readings [[0, 0], [-1, .blank], [1, 1]] [[0], [0], [1]] [1, 1, 1]) :=
    addsRow_readings (i := 1) (by simp) (by simp) rfl rfl (by simp) (by simp)
  have hbefore : (readings [[0, 0], [-1, .blank], [1, 1]] [[0], [0], [1]] [1, 1, 1]).AddsRow
      blankReadings :=
    addsRow_readings (i := 0) (by simp) (by simp) rfl rfl (by simp) (by simp)
  have hrows := (Relation.ReflTransGen.single hbetween).tail hbefore
  exact ⟨hrows, run_of_addsRows hrows⟩

end GridSpline
