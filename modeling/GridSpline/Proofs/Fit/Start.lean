import GridSpline.Proofs.Fit.Running
import GridSpline.Proofs.Sample.Checks

/-!
# How a run begins and ends

A run first checks everything, lays the grid and the ladder. None of this needs the state, so what
it makes of the input is worked out here as one result that may fail. What then remains is to solve
the channels, if there are samples, and to look at the grid.

## Main definitions

* `Fit.start?` — what a run makes of its input before it solves anything.
* `Fit.started` — the fit when the first level is made.
* `finish` — the rest of a run.

## Main statements

* `leads_runFit_of_start`, `leads_runFit_of_error` — a run is its start and the rest.
* `leads_finish` — with samples the rest is to solve the channels.
* `Fit.run_of_leads` — the outcome of a run.
-/

namespace GridSpline

open Failure FitM
open GridSpline.Lattice

variable {α : Type}

/-- What a run makes of its input before it solves anything. -/
structure Start (α : Type) where
  checked : CheckedSettings α
  data : Prepared α
  /-- What was reported about the domain. -/
  notices : List (Notice α)
  /-- The grid as it was laid. -/
  grid : Grid α
  ladder : List (List Nat)

variable [Scalar α]

/-- What a run makes of its input before it solves anything. -/
def Fit.start? (f : Fit α) : Except (Failure α) (Start α) := do
  let checked ← f.settings.check
  let (data, notices) ← f.given.prepare (.ofWord checked.extend)
  let grid ← Failure.require .shapeMismatch
    (Grid.constant? data.low data.high data.res data.channels data.spacing defaultAverage)
  let ladder ← (fitLadder? data.res : Except (Failure α) _)
  return { checked, data, notices, grid, ladder }

/-- The fit when the first level is made. -/
def Fit.started (f : Fit α) (s : Start α) : Fit α :=
  { Fit.withPrepared { f with settings := f.settings.ofChecked s.checked } s.data with
    grid := some s.grid, ladder := s.ladder, reports := [] }

/-- A run that has started. -/
def Fit.running (f : Fit α) (s : Start α) : Running α :=
  { fit := f.started s, notices := s.notices.reverse }

/-- The rest of a run: all channels are solved, if there are samples, and the grid is looked at. -/
def finish (s : Start α) : FitM α Bool := do
  if s.data.samples.isEmpty then
    FitM.change fun f => { f with nonMonotonic := false }
    return false
  solveChannels s.checked.tolerance s.checked.extraFit (List.range s.data.channels)
  let nonMonotonic := (← (← FitM.fit).grid?).isNonMonotonic
  FitM.change fun f => { f with nonMonotonic }
  return nonMonotonic

variable {f : Fit α} {s : Start α} {good : Bool → Running α → Prop} {bad : Failure α → Prop}

theorem Fit.start?_eq_ok_iff : f.start? = .ok s ↔ f.settings.check = .ok s.checked ∧
    f.given.prepare (.ofWord s.checked.extend) = .ok (s.data, s.notices) ∧
    Grid.constant? s.data.low s.data.high s.data.res s.data.channels s.data.spacing
      defaultAverage = some s.grid ∧
    (fitLadder? s.data.res : Except (Failure α) _) = .ok s.ladder := by
  unfold start?
  simp only [bind_eq_ok, pure_eq_ok, require_eq_ok, Prod.exists]
  constructor
  · rintro ⟨checked, hcheck, data, notices, hprepare, grid, hgrid, ladder, hladder, rfl⟩
    exact ⟨hcheck, hprepare, hgrid, hladder⟩
  · rintro ⟨hcheck, hprepare, hgrid, hladder⟩
    exact ⟨_, hcheck, _, _, hprepare, _, hgrid, _, hladder, rfl⟩

/-- The grid is laid over the domain, with all channels. -/
theorem Fit.grid_of_start? (hstart : f.start? = .ok s) : s.grid.low = s.data.low ∧
    s.grid.high = s.data.high ∧ s.grid.values.length = s.data.channels := by
  obtain ⟨-, -, hgrid, -⟩ := Fit.start?_eq_ok_iff.mp hstart
  unfold Grid.constant? at hgrid
  simp only [Option.bind_eq_bind, Option.bind_eq_some_iff, Option.pure_def, Option.some.injEq]
    at hgrid
  obtain ⟨width, -, hlaid⟩ := hgrid
  rw [← hlaid]
  exact ⟨rfl, rfl, List.length_replicate⟩

/-- A run that starts goes on with the rest. -/
theorem leads_runFit_of_start (hstart : f.start? = .ok s)
    (h : Leads (finish s) (f.running s) good bad) :
    Leads runFit { fit := f, notices := [] } good bad := by
  obtain ⟨hcheck, hprepare, hgrid, hladder⟩ := Fit.start?_eq_ok_iff.mp hstart
  obtain ⟨e, hextend, hcomplete, hnotices⟩ := prepare_eq_ok_iff_extend?.mp hprepare
  unfold runFit
  refine leads_bind (leads_fit (leads_bind (leads_lift hcheck (leads_bind (leads_change ?_)))))
  refine leads_bind (leads_fit (leads_bind (leads_lift hextend (leads_bind (leads_notify ?_)))))
  refine leads_bind (leads_lift hcomplete (leads_bind (leads_change ?_)))
  refine leads_bind (leads_require hgrid (leads_bind (leads_change ?_)))
  refine leads_bind (leads_lift hladder (leads_bind (leads_change ?_)))
  rw [List.append_nil, hnotices]
  exact h

/-- A run that does not start fails for the same reason. -/
theorem leads_runFit_of_error {e : Failure α} (hstart : f.start? = .error e) (h : bad e) :
    Leads runFit { fit := f, notices := [] } good bad := by
  unfold Fit.start? at hstart
  unfold runFit
  simp only [bind_eq_error, require_eq_error, prepare_eq_error_iff, Prod.exists] at hstart
  refine leads_bind (leads_fit (leads_bind ?_))
  rcases hstart with hcheck | ⟨checked, hcheck, hstart⟩
  · exact leads_lift_error hcheck h
  refine leads_lift hcheck (leads_bind (leads_change (leads_bind (leads_fit (leads_bind ?_)))))
  rcases hstart with (hextend | ⟨found, hextend, hcomplete⟩) | ⟨data, notices, hprepare, hstart⟩
  · exact leads_lift_error hextend h
  · exact leads_lift hextend (leads_bind (leads_notify (leads_bind (leads_lift_error hcomplete h))))
  obtain ⟨found, hextend, hcomplete, -⟩ := prepare_eq_ok_iff_extend?.mp hprepare
  refine leads_lift hextend (leads_bind (leads_notify (leads_bind (leads_lift hcomplete ?_))))
  refine leads_bind (leads_change (leads_bind ?_))
  rcases hstart with ⟨hgrid, rfl⟩ | ⟨grid, hgrid, hstart⟩
  · exact leads_require_none hgrid h
  refine leads_require (require_eq_ok.mp hgrid) (leads_bind (leads_change (leads_bind ?_)))
  rcases hstart with hladder | ⟨ladder, hladder, hstart⟩
  · exact leads_lift_error hladder h
  · cases hstart

/-- Without samples nothing is solved. -/
theorem leads_finish_of_isEmpty (hempty : s.data.samples = [])
    {r : Running α} (h : good false { r with fit := { r.fit with nonMonotonic := false } }) :
    Leads (finish s) r good bad := by
  unfold finish
  rw [if_pos (by rw [hempty]; rfl)]
  exact leads_bind (leads_change (leads_pure h))

/-- With samples all channels are solved, and then the grid is looked at. -/
theorem leads_finish (hsamples : s.data.samples ≠ []) {r : Running α}
    (h : Leads (solveChannels s.checked.tolerance s.checked.extraFit (List.range s.data.channels)) r
      (fun _ after => ∃ g, after.fit.grid = some g ∧ good g.isNonMonotonic
        { after with fit := { after.fit with nonMonotonic := g.isNonMonotonic } }) bad) :
    Leads (finish s) r good bad := by
  unfold finish
  rw [if_neg (by simpa using hsamples)]
  refine leads_bind (h.imp ?_)
  rintro _ after ⟨g, hg, hgood⟩
  have hgrid : after.fit.grid? = .ok g := by
    unfold Fit.grid?
    rw [hg, require_some]
  exact leads_bind (leads_fit (leads_bind (leads_lift hgrid
    (leads_bind (leads_change (leads_pure hgood))))))

/-! ## Outcomes -/

/-- The outcome of a run. -/
theorem Fit.run_of_leads (h : Leads runFit { fit := f, notices := [] } good bad) :
    (∃ b after, f.run = { fit := after.fit, result := .ok b, notices := after.notices.reverse } ∧
      good b after) ∨ ∃ e, f.run.result = .error e ∧ bad e := by
  unfold Leads at h
  unfold Fit.run
  rcases hrun : (runFit : FitM α Bool).run.run { fit := f, notices := [] } with ⟨e | b, after⟩
  · rw [hrun] at h
    exact Or.inr ⟨e, rfl, h⟩
  · rw [hrun] at h
    exact Or.inl ⟨b, after, rfl, h⟩

/-- The outcome of a run whose steps cannot fail. -/
theorem Fit.exists_run_eq
    (h : Leads runFit { fit := f, notices := [] } good fun _ => False) :
    ∃ b after, f.run = { fit := after.fit, result := .ok b, notices := after.notices.reverse } ∧
      good b after :=
  (Fit.run_of_leads h).resolve_right fun ⟨_, _, hfalse⟩ => hfalse

/-- What a run with a result has found, whatever could have failed. -/
theorem Fit.exists_of_run_eq_ok {b : Bool}
    (h : Leads runFit { fit := f, notices := [] } good fun _ => True) (hrun : f.run.result = .ok b) :
    ∃ after, f.run.fit = after.fit ∧ f.run.notices = after.notices.reverse ∧ good b after := by
  rcases Fit.run_of_leads h with ⟨b', after, heq, hgood⟩ | ⟨e, he, -⟩
  · rw [heq] at hrun ⊢
    cases hrun
    exact ⟨after, rfl, rfl, hgood⟩
  · rw [he] at hrun
    cases hrun

/-- A run with a result has started. -/
theorem Fit.exists_start?_of_run_eq_ok {b : Bool} (hrun : f.run.result = .ok b) :
    ∃ s, f.start? = .ok s := by
  cases hstart : f.start? with
  | ok s => exact ⟨s, rfl⟩
  | error e =>
    have hleads : Leads runFit { fit := f, notices := [] } (fun _ _ => False) fun _ => True :=
      leads_runFit_of_error hstart trivial
    obtain ⟨_, _, _, hfalse⟩ := Fit.exists_of_run_eq_ok hleads hrun
    exact hfalse.elim

end GridSpline
