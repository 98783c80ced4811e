import Mathlib
import GridSpline.Proofs.Fit.Run
import GridSpline.Proofs.History.Calls

/-!
# Runs and what came before

What happened to a fit before a run does not show in the run. After any assignments and runs, some
of which may have failed, a run that is refused leaves what was found before, and if it is refused
for its settings everything. Else it ends as the first run of a fit that is made of what was
assigned: it fails for the same reason, or it finds and reports the same.

## Main definitions

* `Fit.remade` — a fit that is made of what another one was given.
* `RunOutcome.EndsAs` — outcomes that cannot be told apart.

## Main statements

* `Fit.Remembers.endsAs_remade` — a run of a fit that holds what means what was assigned.
* `Fit.run_after` — a run after any calls.
-/

namespace GridSpline

open Scalar Failure FitM
open GridSpline.Lattice

variable {α : Type}

/-- A fit that is made of what this one was given. -/
def Fit.remade (f : Fit α) : Fit α :=
  .make f.given f.settings f.twoPass f.symmetricDomain f.verbose

variable [Scalar α]

/-! ## What was found before -/

/-- Outcomes that cannot be told apart, but for the fit that a failure leaves. -/
structure RunOutcome.EndsAs (out out' : RunOutcome α) : Prop where
  result : out.result = out'.result
  notices : out.notices = out'.notices
  fit : ∀ b, out.result = .ok b → out.fit = out'.fit

variable (c : CheckedSettings α) (data : Prepared α)

/-- The rest of a run does not depend on what was found out about changes of direction before. -/
theorem endsAs_solveLaid (r : Running α) (nonMonotonic : Bool) :
    (RunOutcome.recorded
        ((solveLaid c data).run.run (r.withUnread r.fit.given nonMonotonic))).EndsAs
      (.recorded ((solveLaid c data).run.run r)) := by
  have hkeeps := (isSolving_solveLaid c data).keeps r
  rw [(isSolving_solveLaid c data).ignores]
  rcases hrun : (solveLaid c data).run.run r with ⟨_ | found, after⟩
  · exact ⟨rfl, rfl, fun b hb => nomatch hb⟩
  · rw [hrun] at hkeeps
    have hgiven : ({ r.fit.given with deviation := after.fit.given.deviation } : GivenSamples α) =
        after.fit.given := by
      rw [← hkeeps.given]
    refine ⟨rfl, rfl, fun _ _ => ?_⟩
    show ({ after.fit with given := { r.fit.given with deviation := _ }, nonMonotonic := found } :
      Fit α) = _
    rw [hgiven]
    rfl

/-- A run from the completed samples on does not depend on what was found before. -/
theorem endsAs_solveData {f f' : Fit α} (notices : List (Notice α))
    (hlaid : ∀ grid ladder, f.laid grid ladder =
      (f'.laid grid ladder).withUnread f'.given f.nonMonotonic) :
    (RunOutcome.recorded ((solveData c data).run.run { fit := f, notices })).EndsAs
      (.recorded ((solveData c data).run.run { fit := f', notices })) := by
  rw [run_solveData, run_solveData]
  cases Grid.constant? data.low data.high data.res data.channels data.spacing defaultAverage with
  | none => exact ⟨rfl, rfl, fun b hb => nomatch hb⟩
  | some grid =>
    cases (fitLadder? data.res : Except (Failure α) _) with
    | error e => exact ⟨rfl, rfl, fun b hb => nomatch hb⟩
    | ok ladder =>
      simp only [hlaid]
      exact endsAs_solveLaid c data { fit := f'.laid grid ladder, notices } f.nonMonotonic

/-! ## After any calls -/

namespace Fit.Remembers

variable {f : Fit α} {h : History α}

/-- The same domain is found for what a fit holds as for what was assigned. -/
theorem extend?_eq (hf : f.Remembers h) (hcolumns : h.KeepsChannels) (mode : Extend) :
    f.given.extend? mode = h.assigned.given.extend? mode := by
  have hgiven : f.given = { h.assigned.given with deviation := f.given.deviation } :=
    congrArg (fun g => { g with deviation := f.given.deviation }) hf.given
  rw [hgiven]
  exact extend?_eq_of_deviation (fun n hn => hf.deviation.entriesOf?_eq fun m hm =>
    hcolumns m hm n hn) mode

/-- A run of what means what was assigned ends as the first run of what was assigned. -/
theorem endsAs_remade (hf : f.Remembers h) (hcolumns : h.KeepsChannels) :
    f.run.EndsAs h.assigned.remade.run := by
  have hread : h.assigned.remade.settings.check = f.settings.check := hf.settings.check_eq.symm
  have hextend : ∀ mode, h.assigned.remade.given.extend? mode = f.given.extend? mode := fun mode =>
    (hf.extend?_eq hcolumns mode).symm
  have hspacing : h.assigned.remade.given.spacing = f.given.spacing :=
    (congrArg GivenSamples.spacing hf.given).symm
  have hsame : ∀ mode, h.assigned.remade.given.prepare mode = f.given.prepare mode := fun mode =>
    prepare_congr_of_extend? (hextend mode) hspacing
  cases hcheck : f.settings.check with
  | error e =>
    rw [run_of_check_eq_error hcheck, run_of_check_eq_error (hread.trans hcheck)]
    exact ⟨rfl, rfl, fun b hb => nomatch hb⟩
  | ok c =>
    rcases hprepare : f.given.prepare (.ofWord c.extend) with e | ⟨data, notices⟩
    · rw [run_of_prepare_eq_error hcheck hprepare,
        run_of_prepare_eq_error (hread.trans hcheck) ((hsame _).trans hprepare),
        reported_congr_of_extend? (hextend _)]
      exact ⟨rfl, rfl, fun b hb => nomatch hb⟩
    · rw [run_of_prepare hcheck hprepare,
        run_of_prepare (hread.trans hcheck) ((hsame _).trans hprepare)]
      -- What is given by now is the same, since the run has put its own normal forms in place.
      have hgiven : ({ f.given with deviation := completedDeviation data.deviation } :
          GivenSamples α) =
          { h.assigned.given with deviation := completedDeviation data.deviation } :=
        congrArg (fun g => { g with deviation := completedDeviation data.deviation }) hf.given
      refine endsAs_solveData c data notices.reverse fun grid ladder => ?_
      unfold remade make withPrepared withChecked laid withUnread
      simp only [Fit.mk.injEq, and_true]
      exact ⟨hgiven, hf.settings.ofChecked_eq c, hf.twoPass, hf.symmetricDomain, hf.verbose⟩

end Fit.Remembers

/-- Nothing that happened to a fit shows in a run. Refused for its settings, the run leaves the fit
as it was; refused for its samples, it leaves everything but the settings. If every run since
deviations were assigned has had as many channels as there are now, then it ends as the first run of
a fit that is made of what was assigned. -/
theorem Fit.run_after [OrdersIntegers α] (made : Fit α) (calls : List (Call α)) :
    (∀ e, (made.after calls).settings.check = .error e →
      (made.after calls).run.result = .error e ∧ (made.after calls).run.fit = made.after calls) ∧
    (∀ c e, (made.after calls).settings.check = .ok c →
      (made.after calls).given.prepare (.ofWord c.extend) = .error e →
      (made.after calls).run.result = .error e ∧
        (made.after calls).run.fit = (made.after calls).withChecked c) ∧
    ((made.history calls).KeepsChannels →
      (made.after calls).run.EndsAs (made.history calls).assigned.remade.run) := by
  refine ⟨fun e hcheck => ?_, fun c e hcheck hprepare => ?_,
    (made.remembers_after calls).endsAs_remade⟩
  · rw [run_of_check_eq_error hcheck]
    exact ⟨rfl, rfl⟩
  · rw [run_of_prepare_eq_error hcheck hprepare]
    exact ⟨rfl, rfl⟩

/-! ## A few calls -/

/-- A sample in a corner of a lattice that is solved at once. -/
noncomputable def Fit.square : Fit ℝ := narrowOn #[.integer 2, .integer 2] none

theorem isAccepted_square :
    Fit.square.IsAccepted Fit.narrowSettings (Fit.narrowDataOn 2 2 [none, none]) :=
  Fit.isAccepted_narrowOn rfl rfl

/-- A run, and then a tolerance that is refused. -/
noncomputable def badTolerance : List (Call ℝ) :=
  [.run, .assign (.tolerance (some (.integer (-1))))]

/-- A run, and then no resolution. -/
noncomputable def noResolution : List (Call ℝ) := [.run, .assign (.resolution none)]

/-- Runs between which settings are assigned, one of which is refused, until everything is assigned
as it was in the beginning. -/
noncomputable def roundTrip : List (Call ℝ) :=
  [.run, .assign (.extend (some "NEV")), .assign (.smoothness (some (.integer 0))), .run,
    .assign (.tolerance (some (.integer (-1)))), .run, .assign (.tolerance (some (.scalar 1e-8))),
    .assign (.extend (some "always")), .assign (.smoothness none)]

theorem keepsChannels_roundTrip : (Fit.square.history roundTrip).KeepsChannels := by
  have hcolumns : (Fit.square.history roundTrip).columns = [1, 1, 1] := rfl
  have hnow : (Fit.square.history roundTrip).assigned.given.columns? = some 1 := rfl
  intro n hn m hm
  rw [hcolumns] at hn
  rw [hnow, Option.some.injEq] at hm
  subst hm
  simpa using hn

/-- The tolerance and the missing resolution are refused, and after all assignments were taken back
a run has the result of the first one and leaves the same. -/
theorem Fit.run_after_roundTrip :
    ((square.after badTolerance).run.result = .error .toleranceNotPositive ∧
      (square.after badTolerance).run.fit = square.after badTolerance) ∧
    ((square.after noResolution).run.result = .error .wrongKind ∧
      (square.after noResolution).run.fit =
        (square.after noResolution).withChecked narrowSettings) ∧
    (square.history roundTrip).KeepsChannels ∧ ∃ b, square.run.result = .ok b ∧
      (square.after roundTrip).run.result = .ok b ∧
      (square.after roundTrip).run.notices = square.run.notices ∧
      (square.after roundTrip).run.fit = square.run.fit := by
  have hbad : (square.after badTolerance).settings.check = .error .toleranceNotPositive :=
    (square.remembers_after badTolerance).settings.check_eq.trans rfl
  have hchecked : (square.after noResolution).settings.check = .ok narrowSettings :=
    (square.remembers_after noResolution).settings.check_eq.trans check_narrow
  have hmissing : (square.after noResolution).given.prepare (.ofWord narrowSettings.extend) =
    .error .wrongKind := rfl
  have hends : (square.after roundTrip).run.EndsAs square.run :=
    (run_after square roundTrip).2.2 keepsChannels_roundTrip
  obtain ⟨b, hrun⟩ := isAccepted_square.exists_run_eq_ok (by decide) (by simp [narrowDataOn])
  have hresult := hends.result.trans hrun
  exact ⟨(run_after square badTolerance).1 _ hbad,
    (run_after square noResolution).2.1 _ _ hchecked hmissing,
    keepsChannels_roundTrip, b, hrun, hresult, hends.notices, hends.fit b hresult⟩

end GridSpline
