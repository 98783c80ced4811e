import Mathlib
import GridSpline.Proofs.Fit.Unread
import GridSpline.Proofs.History.Deviation
import GridSpline.Proofs.History.Settings

/-!
# The history of a fit

Between its runs a fit can be assigned to. A run overwrites what it was given with normal forms, and
leaves behind what it found, also when it fails. Beside the fit that went through all this stands
the one that was only assigned to. The two are told apart by nothing that a check reads: what the
one holds means what was assigned to the other, with deviations completed for as many channels as
some run had since they were assigned.

## Main definitions

* `Assignment`, `Call` — what can be done to a fit.
* `Fit.after` — a fit after a sequence of calls.
* `History`, `Fit.history` — what was assigned to it, and the channels of its runs.
* `Fit.Remembers` — what a fit holds means what was assigned.

## Main statements

* `Fit.Remembers.call` — every call preserves this.
* `Fit.remembers_after` — so it holds after all calls.
-/

namespace GridSpline

open Scalar Failure

variable {α : Type}

/-! ## Calls -/

/-- An assignment to something that a fit was given, or to something that a run found. -/
inductive Assignment (α : Type) where
  | positions (value : Nested α)
  | values (value : Nested α)
  | resolution (value : Option (Nested (Number α)))
  | weights (value : Option (Nested α))
  | low (value : Option (Nested α))
  | high (value : Option (Nested α))
  | valueLow (value : Option (Nested α))
  | valueHigh (value : Option (Nested α))
  | deviation (value : Option (Nested α))
  | spacing (value : Option (Option (List (Option (Nested α)))))
  | smoothness (value : Option (Number α))
  | extend (value : Option String)
  | extraFit (value : Option (Number α))
  | lineSweeps (value : Option (Number α))
  | tolerance (value : Option (Number α))
  | weak (value : Option (Number α))
  | weakFunction (value : Option (WeakFunction α))
  | twoPass (value : Bool)
  | symmetricDomain (value : Bool)
  | verbose (value : Bool)
  | prepared (value : Option (Prepared α))
  | grid (value : Option (Grid α))
  | ladder (value : List (List ℕ))
  | reports (value : List (SolveReport α))
  | nonMonotonic (value : Bool)

/-- The fit with the assigned value. -/
def Assignment.apply (f : Fit α) : Assignment α → Fit α
  | positions value => { f with given := { f.given with positions := value } }
  | values value => { f with given := { f.given with values := value } }
  | resolution value => { f with given := { f.given with resolution := value } }
  | weights value => { f with given := { f.given with weights := value } }
  | low value => { f with given := { f.given with low := value } }
  | high value => { f with given := { f.given with high := value } }
  | valueLow value => { f with given := { f.given with valueLow := value } }
  | valueHigh value => { f with given := { f.given with valueHigh := value } }
  | deviation value => { f with given := { f.given with deviation := value } }
  | spacing value => { f with given := { f.given with spacing := value } }
  | smoothness value => { f with settings := { f.settings with smoothness := value } }
  | extend value => { f with settings := { f.settings with extend := value } }
  | extraFit value => { f with settings := { f.settings with extraFit := value } }
  | lineSweeps value => { f with settings := { f.settings with lineSweeps := value } }
  | tolerance value => { f with settings := { f.settings with tolerance := value } }
  | weak value => { f with settings := { f.settings with weak := value } }
  | weakFunction value => { f with settings := { f.settings with weakFunction := value } }
  | twoPass value => { f with twoPass := value }
  | symmetricDomain value => { f with symmetricDomain := value }
  | verbose value => { f with verbose := value }
  | prepared value => { f with prepared := value }
  | grid value => { f with grid := value }
  | ladder value => { f with ladder := value }
  | reports value => { f with reports := value }
  | nonMonotonic value => { f with nonMonotonic := value }

/-- An assignment to the deviations. -/
def Assignment.setsDeviation : Assignment α → Bool
  | deviation _ => true
  | _ => false

/-- What can be done to a fit. -/
inductive Call (α : Type) where
  | assign (a : Assignment α)
  | run

variable [Scalar α]

/-- The fit after a call. -/
def Fit.call (f : Fit α) : Call α → Fit α
  | .assign a => a.apply f
  | .run => f.run.fit

/-- The fit after some calls, one after the other. -/
def Fit.after (f : Fit α) (calls : List (Call α)) : Fit α := calls.foldl Fit.call f

/-! ## Histories -/

/-- What calls leave to be known of a fit. -/
structure History (α : Type) where
  /-- The fit with everything that was assigned to it, as if it had never been run. -/
  assigned : Fit α
  /-- The numbers of channels in the runs since deviations were assigned. -/
  columns : List ℕ

/-- The history with one more call. -/
def History.next (h : History α) : Call α → History α
  | .assign a =>
    { assigned := a.apply h.assigned
      columns := if a.setsDeviation then [] else h.columns }
  | .run => { h with columns := h.columns ++ h.assigned.given.columns?.toList }

/-- The history of a fit. -/
def Fit.history (f : Fit α) (calls : List (Call α)) : History α :=
  calls.foldl History.next { assigned := f, columns := [] }

/-- Every run since deviations were assigned had as many channels as there are now. -/
def History.KeepsChannels (h : History α) : Prop :=
  ∀ n ∈ h.columns, ∀ m, h.assigned.given.columns? = some m → n = m

/-- Deviations are those that were assigned, or what these were completed to for as many channels as
some run had. -/
def DeviationsStandFor (columns : List ℕ) (assigned given : Option (Nested α)) : Prop :=
  given = assigned ∨ ∃ n ∈ columns, ∃ l,
    entriesOf? "avgdev" (n : ℕ) defaultDeviation assigned = .ok l ∧ given = completedDeviation l

/-- What a fit holds means what was assigned. -/
structure Fit.Remembers (f : Fit α) (h : History α) : Prop where
  given : ({ f.given with deviation := none } : GivenSamples α) =
    { h.assigned.given with deviation := none }
  deviation : DeviationsStandFor h.columns h.assigned.given.deviation f.given.deviation
  settings : f.settings.ReadsAs h.assigned.settings
  twoPass : f.twoPass = h.assigned.twoPass
  symmetricDomain : f.symmetricDomain = h.assigned.symmetricDomain
  verbose : f.verbose = h.assigned.verbose

namespace DeviationsStandFor

variable {columns columns' : List ℕ} {assigned given : Option (Nested α)}

theorem mono (h : DeviationsStandFor columns assigned given) (hsub : columns ⊆ columns') :
    DeviationsStandFor columns' assigned given := by
  rcases h with h | ⟨n, hn, hl⟩
  · exact Or.inl h
  · exact Or.inr ⟨n, hsub hn, hl⟩

/-- Whatever they are completed to, the assigned ones are. -/
theorem entriesOf?_eq_ok (h : DeviationsStandFor columns assigned given) {n : ℕ} {l : List α}
    (hl : entriesOf? "avgdev" n defaultDeviation given = .ok l) :
    entriesOf? "avgdev" n defaultDeviation assigned = .ok l := by
  rcases h with rfl | ⟨m, -, l', hl', rfl⟩
  · exact hl
  · exact entriesOf?_of_completedDeviation hl' hl

/-- Completed for the same number of channels they are the same. -/
theorem entriesOf?_eq (h : DeviationsStandFor columns assigned given) {n : ℕ}
    (hcolumns : ∀ m ∈ columns, m = n) : entriesOf? "avgdev" n defaultDeviation given =
      entriesOf? "avgdev" n defaultDeviation assigned := by
  rcases h with rfl | ⟨m, hm, l, hl, rfl⟩
  · rfl
  · obtain rfl := hcolumns m hm
    rw [hl, entriesOf?_completedDeviation hl]

end DeviationsStandFor

namespace Fit.Remembers

variable {f : Fit α} {h : History α}

theorem columns?_eq (hf : f.Remembers h) : f.given.columns? = h.assigned.given.columns? := by
  have hvalues := congrArg (fun g => g.values) hf.given
  unfold GivenSamples.columns?
  rw [show f.given.values = h.assigned.given.values from hvalues]

/-- An assignment is remembered. -/
theorem assign (hf : f.Remembers h) (a : Assignment α) :
    (a.apply f).Remembers (h.next (.assign a)) where
  given := by
    cases a with
    | positions value => exact congrArg (fun g => { g with positions := value }) hf.given
    | values value => exact congrArg (fun g => { g with values := value }) hf.given
    | resolution value => exact congrArg (fun g => { g with resolution := value }) hf.given
    | weights value => exact congrArg (fun g => { g with weights := value }) hf.given
    | low value => exact congrArg (fun g => { g with low := value }) hf.given
    | high value => exact congrArg (fun g => { g with high := value }) hf.given
    | valueLow value => exact congrArg (fun g => { g with valueLow := value }) hf.given
    | valueHigh value => exact congrArg (fun g => { g with valueHigh := value }) hf.given
    | spacing value => exact congrArg (fun g => { g with spacing := value }) hf.given
    | _ => exact hf.given
  deviation := by
    cases a with
    | deviation value => exact Or.inl rfl
    | _ => exact hf.deviation
  settings := by
    cases a with
    | smoothness value => exact { hf.settings with smoothness := rfl }
    | extend value => exact { hf.settings with extend := rfl }
    | extraFit value => exact { hf.settings with extraFit := rfl }
    | lineSweeps value => exact { hf.settings with lineSweeps := rfl }
    | tolerance value => exact { hf.settings with tolerance := Number.ReadsAs.rel_refl _ }
    | weak value => exact { hf.settings with weak := Number.ReadsAs.rel_refl _ }
    | weakFunction value => exact { hf.settings with weakFunction := rfl }
    | _ => exact hf.settings
  twoPass := by
    cases a with
    | twoPass value => rfl
    | _ => exact hf.twoPass
  symmetricDomain := by
    cases a with
    | symmetricDomain value => rfl
    | _ => exact hf.symmetricDomain
  verbose := by
    cases a with
    | verbose value => rfl
    | _ => exact hf.verbose

variable [OrdersIntegers α]

/-- A run puts normal forms in place of what it was given, whether it fails or not. -/
theorem run (hf : f.Remembers h) : f.run.fit.Remembers (h.next .run) := by
  have hdeviation : DeviationsStandFor (h.next .run).columns h.assigned.given.deviation
      f.given.deviation := hf.deviation.mono (List.subset_append_left _ _)
  cases hcheck : f.settings.check with
  | error e =>
    rw [run_of_check_eq_error hcheck]
    exact { hf with deviation := hdeviation }
  | ok c =>
    have hsettings : (f.settings.ofChecked c).ReadsAs h.assigned.settings :=
      (readsAs_ofChecked hcheck).trans hf.settings
    rcases hprepare : f.given.prepare (.ofWord c.extend) with e | ⟨data, notices⟩
    · rw [run_of_prepare_eq_error hcheck hprepare]
      exact { hf with deviation := hdeviation, settings := hsettings }
    · have hkeeps := keeps_run hcheck hprepare
      obtain ⟨n, hn, hl⟩ := exists_columns?_of_prepare hprepare
      have hmem : n ∈ (h.next .run).columns := by
        refine List.mem_append_right _ ?_
        rw [← hf.columns?_eq, hn]
        exact List.mem_singleton_self n
      exact {
        given := by
          rw [hkeeps.given]
          exact hf.given
        deviation := by
          rw [hkeeps.given]
          exact Or.inr ⟨n, hmem, data.deviation, hf.deviation.entriesOf?_eq_ok hl, rfl⟩
        settings := by
          rw [hkeeps.settings]
          exact hsettings
        twoPass := hkeeps.twoPass.trans hf.twoPass
        symmetricDomain := hkeeps.symmetricDomain.trans hf.symmetricDomain
        verbose := hkeeps.verbose.trans hf.verbose }

/-- Every call is remembered. -/
theorem call (hf : f.Remembers h) (c : Call α) : (f.call c).Remembers (h.next c) := by
  cases c with
  | assign a => exact hf.assign a
  | run => exact hf.run

end Fit.Remembers

/-- After any calls a fit holds what means what was assigned. -/
theorem Fit.remembers_after [OrdersIntegers α] (f : Fit α) (calls : List (Call α)) :
    (f.after calls).Remembers (f.history calls) := by
  have hstart : f.Remembers { assigned := f, columns := [] } :=
    ⟨rfl, Or.inl rfl, .refl _, rfl, rfl, rfl⟩
  -- Every call preserves it, whatever came before.
  have hcalls : ∀ (g : Fit α) (h : History α), g.Remembers h →
      (calls.foldl Fit.call g).Remembers (calls.foldl History.next h) := by
    induction calls with
    | nil => exact fun _ _ hg => hg
    | cons c calls ih => exact fun g h hg => ih (g.call c) (h.next c) (hg.call c)
  exact hcalls f _ hstart

end GridSpline
