import GridSpline.Fit.Run
import GridSpline.Proofs.Result

/-!
# Reasoning about runs

A step of a run reads and changes the fit, and may fail. `Leads` says where a step leads from a
given state: what holds of its result and of the state afterwards, and how it may fail. The lemmas
below follow a run step by step.

## Main definitions

* `FitM.Leads` — where a step leads.
* `solvePosed` — the part of solving a level that does not depend on what it is drawn to.

## Main statements

* `run_bind`, `leads_bind` — one step after another.
* `leads_lift` — a step that has its result without the state.
* `Leads.mono` — what follows from where a step leads.
* `solveLevel_none`, `solveLevel_some` — a level is made, and then solved.
-/

namespace GridSpline

open Failure

namespace FitM

variable {α β γ : Type} {r : Running α} {bad : Failure α → Prop}

/-- A step leads to a result and a state, or it fails. -/
def Leads (m : FitM α β) (r : Running α) (good : β → Running α → Prop) (bad : Failure α → Prop) :
    Prop :=
  match m.run.run r with
  | (.ok b, after) => good b after
  | (.error e, _) => bad e

theorem leads_pure {b : β} {good : β → Running α → Prop} (h : good b r) :
    Leads (pure b) r good bad := h

/-- One step after another: the second one starts where the first one ends. -/
theorem run_bind (m : FitM α β) (k : β → FitM α γ) (r : Running α) :
    (m >>= k).run.run r = match m.run.run r with
      | (.ok b, after) => (k b).run.run after
      | (.error e, after) => (.error e, after) := by
  rw [ExceptT.run_bind, StateT.run_bind]
  rcases m.run.run r with ⟨_ | _, _⟩ <;> rfl

/-- One step after another. -/
theorem leads_bind {m : FitM α β} {k : β → FitM α γ} {good : γ → Running α → Prop}
    (h : Leads m r (fun b after => Leads (k b) after good bad) bad) :
    Leads (m >>= k) r good bad := by
  unfold Leads at h ⊢
  rw [run_bind]
  rcases hm : m.run.run r with ⟨e | b, after⟩
  · rw [hm] at h
    exact h
  · rw [hm] at h
    exact h

/-- What follows from where a step leads. -/
theorem Leads.mono {m : FitM α β} {good good' : β → Running α → Prop} {bad' : Failure α → Prop}
    (h : Leads m r good bad) (hgood : ∀ b after, good b after → good' b after)
    (hbad : ∀ e, bad e → bad' e) : Leads m r good' bad' := by
  unfold Leads at h ⊢
  rcases hm : m.run.run r with ⟨e | b, after⟩
  · rw [hm] at h
    exact hbad e h
  · rw [hm] at h
    exact hgood b after h

theorem Leads.imp {m : FitM α β} {good good' : β → Running α → Prop} (h : Leads m r good bad)
    (hgood : ∀ b after, good b after → good' b after) : Leads m r good' bad :=
  h.mono hgood fun _ he => he

/-- What is known of where a step leads holds together. -/
theorem Leads.and {m : FitM α β} {good good' : β → Running α → Prop} {bad' : Failure α → Prop}
    (h : Leads m r good bad) (h' : Leads m r good' bad') :
    Leads m r (fun b after => good b after ∧ good' b after) fun e => bad e ∧ bad' e := by
  unfold Leads at h h' ⊢
  rcases hm : m.run.run r with ⟨e | b, after⟩
  · rw [hm] at h h'
    exact ⟨h, h'⟩
  · rw [hm] at h h'
    exact ⟨h, h'⟩

/-- Where a step that cannot fail leads. -/
theorem Leads.exists_run_eq {m : FitM α β} {good : β → Running α → Prop}
    (h : Leads m r good fun _ => False) :
    ∃ b after, m.run.run r = (.ok b, after) ∧ good b after := by
  unfold Leads at h
  rcases hm : m.run.run r with ⟨_ | b, after⟩
  · rw [hm] at h
    exact h.elim
  · rw [hm] at h
    exact ⟨b, after, rfl, h⟩

theorem leads_of_run_eq {m : FitM α β} {b : β} {after : Running α} {good : β → Running α → Prop}
    (hm : m.run.run r = (.ok b, after)) (h : good b after) : Leads m r good bad := by
  unfold Leads
  rw [hm]
  exact h

theorem Leads.of_run_eq {m : FitM α β} {b : β} {after : Running α} {good : β → Running α → Prop}
    (h : Leads m r good bad) (hm : m.run.run r = (.ok b, after)) : good b after := by
  unfold Leads at h
  rwa [hm] at h

theorem leads_map {m : FitM α β} {f : β → γ} {good : γ → Running α → Prop}
    (h : Leads m r (fun b after => good (f b) after) bad) : Leads (f <$> m) r good bad := by
  rw [← bind_pure_comp]
  exact leads_bind (h.imp fun _ _ hb => leads_pure hb)

/-! ## Single steps -/

/-- A step that has its result without the state. -/
theorem leads_lift {x : Except (Failure α) β} {b : β} {good : β → Running α → Prop}
    (hx : x = .ok b) (h : good b r) : Leads (liftM x) r good bad := by
  subst hx
  exact h

theorem leads_lift_error {x : Except (Failure α) β} {e : Failure α} {good : β → Running α → Prop}
    (hx : x = .error e) (h : bad e) : Leads (liftM x) r good bad := by
  subst hx
  exact h

theorem leads_fit {good : Fit α → Running α → Prop} (h : good r.fit r) :
    Leads FitM.fit r good bad := h

theorem leads_change {f : Fit α → Fit α} {good : Unit → Running α → Prop}
    (h : good () { r with fit := f r.fit }) : Leads (change f) r good bad := h

theorem leads_require {reason : Failure α} {o : Option β} {b : β} {good : β → Running α → Prop}
    (ho : o = some b) (h : good b r) : Leads (require reason o) r good bad := by
  subst ho
  exact h

theorem leads_require_none {reason : Failure α} {o : Option β} {good : β → Running α → Prop}
    (ho : o = none) (h : bad reason) : Leads (require reason o) r good bad := by
  subst ho
  exact h

/-- A step that has its result without the state, whatever it is. -/
theorem leads_lift_any {x : Except (Failure α) β} {good : β → Running α → Prop}
    (hok : ∀ b, x = .ok b → good b r) (herror : ∀ e, x = .error e → bad e) :
    Leads (liftM x) r good bad := by
  cases hx : x with
  | ok b => exact leads_lift rfl (hok b hx)
  | error e => exact leads_lift_error rfl (herror e hx)

theorem leads_notify {l : List (Notice α)} {good : Unit → Running α → Prop}
    (h : good () { r with notices := l.reverse ++ r.notices }) :
    Leads (notify l) r good bad := h

/-- Something that is reported only if it is asked for. -/
theorem leads_notify_if {verbose : Bool} {l : List (Notice α)} {k : Unit → FitM α β}
    {good : β → Running α → Prop} (h : ∀ notices, Leads (k ()) { r with notices } good bad) :
    Leads (if verbose = true then notify l >>= k else k ()) r good bad := by
  cases verbose with
  | true => exact leads_bind (leads_notify (h _))
  | false => exact h r.notices

theorem leads_lift_ok {x : Except (Failure α) β} {good : β → Running α → Prop}
    (h : ∀ b, x = .ok b → good b r) : Leads (liftM x) r good fun _ => True :=
  leads_lift_any h fun _ _ => trivial

end FitM

/-! ## The two parts of solving a level -/

section Level

variable {α : Type} [Scalar α] {channel : Nat} {tolerance : α}

/-- The part of solving a level that follows when it may have been drawn to a captured curvature. -/
def solvePosed (channel : Nat) (tolerance : α) (coarser : Option (Level α)) (fit : Fit α)
    (level : Level α) : FitM α (Level α) := do
  let level ← level.setup? fit
  let level ← level.seed? fit coarser
  let outcome := level.solve fit (some tolerance)
  if fit.verbose then FitM.notify outcome.notices
  let report ← outcome.result
  FitM.change fun f => { f with reports := f.reports ++ [report] }
  if fit.verbose then
    FitM.notify [.solved channel report.res report.error report.iterations]
  return { level with x := outcome.x }

theorem solveLevel_none (secondPass : Bool) (coarser : Option (Level α)) (res : List Nat) :
    solveLevel channel secondPass none tolerance coarser res = (do
      let fit ← FitM.fit
      let level ← Level.make? fit res channel secondPass
      solvePosed channel tolerance coarser fit level) := rfl

theorem solveLevel_some (secondPass : Bool) (ccv : Curvature α) (coarser : Option (Level α))
    (res : List Nat) :
    solveLevel channel secondPass (some ccv) tolerance coarser res = (do
      let fit ← FitM.fit
      let level ← Level.make? fit res channel secondPass
      let grid ← fit.grid?
      let level ← level.setCurvature? fit grid.res ccv
      solvePosed channel tolerance coarser fit level) := rfl

end Level

end GridSpline
