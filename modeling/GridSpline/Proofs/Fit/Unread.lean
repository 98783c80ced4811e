import GridSpline.Proofs.Fit.Running
import GridSpline.Proofs.Sample.Checks

/-!
# What no solve reads

Once a run has completed its samples, it works on these. It reads the samples as they were given no
more, apart from the deviations, nor what an earlier run found out about changes of direction; and
it changes neither, nor any setting. The rest of the run is therefore the same whatever they are,
and so is all that it finds, also when it fails on the way.

## Main definitions

* `Fit.withUnread` — a fit with something else in place of what no solve reads.
* `FitM.IsSolving` — steps that neither read nor change it.
* `solveData` — a run from the completed samples on, until changes of direction are recorded.

## Main statements

* `isSolving_solveData` — such a run is made of such steps.
* `Fit.run_of_check_eq_error`, `Fit.run_of_prepare_eq_error` — what a run that is refused leaves.
* `Fit.run_of_prepare` — the outcome of a run that is not refused.
-/

namespace GridSpline

open Failure
open GridSpline.Lattice

variable {α β γ : Type}

/-- The fit with something else in place of what no solve reads: the samples as they were given,
apart from the deviations, and what was found out about changes of direction. -/
def Fit.withUnread (f : Fit α) (given : GivenSamples α) (nonMonotonic : Bool) : Fit α :=
  { f with given := { given with deviation := f.given.deviation }, nonMonotonic }

@[inherit_doc Fit.withUnread]
def Running.withUnread (r : Running α) (given : GivenSamples α) (nonMonotonic : Bool) : Running α :=
  { r with fit := r.fit.withUnread given nonMonotonic }

/-- Two fits have the same input. -/
structure Fit.Keeps (f after : Fit α) : Prop where
  given : after.given = f.given
  settings : after.settings = f.settings
  twoPass : after.twoPass = f.twoPass
  symmetricDomain : after.symmetricDomain = f.symmetricDomain
  verbose : after.verbose = f.verbose

namespace Fit.Keeps

theorem refl (f : Fit α) : f.Keeps f := ⟨rfl, rfl, rfl, rfl, rfl⟩

theorem trans {f g h : Fit α} (hfg : f.Keeps g) (hgh : g.Keeps h) : f.Keeps h where
  given := hgh.given.trans hfg.given
  settings := hgh.settings.trans hfg.settings
  twoPass := hgh.twoPass.trans hfg.twoPass
  symmetricDomain := hgh.symmetricDomain.trans hfg.symmetricDomain
  verbose := hgh.verbose.trans hfg.verbose

end Fit.Keeps

/-! ## Steps -/

namespace FitM

/-- Steps that keep the input, whether they fail or not, and do the same whatever stands in place of
what no solve reads. -/
structure IsSolving (m : FitM α β) : Prop where
  keeps : ∀ r : Running α, r.fit.Keeps (m.run.run r).2.fit
  ignores : ∀ (r : Running α) given nonMonotonic, m.run.run (r.withUnread given nonMonotonic) =
    ((m.run.run r).1, (m.run.run r).2.withUnread given nonMonotonic)

/-- What was found out about changes of direction stays. -/
theorem IsSolving.nonMonotonic_eq {m : FitM α β} (hm : IsSolving m) (r : Running α) :
    (m.run.run r).2.fit.nonMonotonic = r.fit.nonMonotonic := by
  have hsame := hm.ignores r r.fit.given r.fit.nonMonotonic
  exact congrArg (fun out => out.2.fit.nonMonotonic) hsame

theorem isSolving_pure (b : β) : IsSolving (pure b : FitM α β) :=
  ⟨fun r => .refl r.fit, fun _ _ _ => rfl⟩

/-- One step after another. -/
theorem isSolving_bind {m : FitM α β} {k : β → FitM α γ} (hm : IsSolving m)
    (hk : ∀ b, IsSolving (k b)) : IsSolving (m >>= k) where
  keeps r := by
    have hfirst := hm.keeps r
    rw [run_bind]
    rcases hrun : m.run.run r with ⟨_ | b, after⟩
    · rwa [hrun] at hfirst
    · rw [hrun] at hfirst
      exact hfirst.trans ((hk b).keeps after)
  ignores r given nonMonotonic := by
    rw [run_bind, run_bind, hm.ignores]
    rcases m.run.run r with ⟨_ | b, after⟩
    · rfl
    · exact (hk b).ignores after given nonMonotonic

/-- Looking at the fit, and at nothing that no solve reads. -/
theorem isSolving_fit_bind {k : Fit α → FitM α β} (hk : ∀ f, IsSolving (k f))
    (hread : ∀ f given nonMonotonic, k (Fit.withUnread f given nonMonotonic) = k f) :
    IsSolving (fit >>= k) where
  keeps r := (hk r.fit).keeps r
  ignores r given nonMonotonic := by
    show (k (r.fit.withUnread given nonMonotonic)).run.run (r.withUnread given nonMonotonic) = _
    rw [hread]
    exact (hk r.fit).ignores r given nonMonotonic

theorem isSolving_map {m : FitM α β} (f : β → γ) (hm : IsSolving m) : IsSolving (f <$> m) := by
  rw [← bind_pure_comp]
  exact isSolving_bind hm fun b => isSolving_pure (f b)

theorem isSolving_lift (x : Except (Failure α) β) : IsSolving (liftM x : FitM α β) := by
  cases x with
  | ok b => exact ⟨fun r => .refl r.fit, fun _ _ _ => rfl⟩
  | error e => exact ⟨fun r => .refl r.fit, fun _ _ _ => rfl⟩

theorem isSolving_require (reason : Failure α) (o : Option β) : IsSolving (require reason o) := by
  cases o with
  | some b => exact ⟨fun r => .refl r.fit, fun _ _ _ => rfl⟩
  | none => exact ⟨fun r => .refl r.fit, fun _ _ _ => rfl⟩

theorem isSolving_notify (l : List (Notice α)) : IsSolving (notify l) :=
  ⟨fun r => .refl r.fit, fun _ _ _ => rfl⟩

theorem isSolving_notify_if {verbose : Bool} {l : List (Notice α)} {k : Unit → FitM α β}
    (hk : IsSolving (k ())) : IsSolving (if verbose = true then notify l >>= k else k ()) := by
  cases verbose with
  | true => exact isSolving_bind (isSolving_notify l) fun _ => hk
  | false => exact hk

/-- A change to what a solve finds. -/
theorem isSolving_change {f : Fit α → Fit α} (hkeeps : ∀ g : Fit α, g.Keeps (f g))
    (hread : ∀ g given nonMonotonic, f (Fit.withUnread g given nonMonotonic) =
      (f g).withUnread given nonMonotonic) : IsSolving (change f) where
  keeps r := hkeeps r.fit
  ignores r given nonMonotonic := by
    show (_, { r with fit := f (r.fit.withUnread given nonMonotonic) }) = _
    rw [hread]
    rfl

/-- Steps along a list. -/
theorem isSolving_foldlM {f : γ → β → FitM α γ} (hf : ∀ c b, IsSolving (f c b)) (l : List β)
    (c : γ) : IsSolving (l.foldlM f c) := by
  induction l generalizing c with
  | nil => exact isSolving_pure c
  | cons b l ih => exact isSolving_bind (hf c b) ih

end FitM

open FitM

/-! ## Solving -/

section Solving

variable [Scalar α] (channel : Nat) (tolerance : α)

/-- Neither solving a level nor what follows from it asks for what no solve reads. -/
theorem isSolving_solvePosed (coarser : Option (Level α)) (f : Fit α) (level : Level α) :
    IsSolving (solvePosed channel tolerance coarser f level) := by
  refine isSolving_bind (isSolving_lift _) fun posed => isSolving_bind (isSolving_lift _)
    fun seeded => isSolving_notify_if (isSolving_bind (isSolving_lift _) fun report => ?_)
  exact isSolving_bind (isSolving_change (fun g => ⟨rfl, rfl, rfl, rfl, rfl⟩)
    fun _ _ _ => rfl) fun _ => isSolving_notify_if (isSolving_pure _)

theorem isSolving_solveLevel (secondPass : Bool) (ccv : Option (Curvature α))
    (coarser : Option (Level α)) (res : List Nat) :
    IsSolving (solveLevel channel secondPass ccv tolerance coarser res) := by
  cases ccv with
  | none =>
    rw [solveLevel_none]
    exact isSolving_fit_bind (fun f => isSolving_bind (isSolving_lift _) fun level =>
      isSolving_solvePosed channel tolerance coarser f level) fun _ _ _ => rfl
  | some c =>
    rw [solveLevel_some]
    exact isSolving_fit_bind (fun f => isSolving_bind (isSolving_lift _) fun level =>
      isSolving_bind (isSolving_lift _) fun grid => isSolving_bind (isSolving_lift _) fun level =>
        isSolving_solvePosed channel tolerance coarser f level) fun _ _ _ => rfl

theorem isSolving_solveLadder (secondPass : Bool) (ccv : Option (Curvature α)) :
    IsSolving (solveLadder channel secondPass ccv tolerance) :=
  isSolving_fit_bind (fun _ => isSolving_bind
    (isSolving_foldlM (fun coarser res =>
      isSolving_map some (isSolving_solveLevel channel tolerance secondPass ccv coarser res)) _ _)
    fun last => isSolving_require _ last) fun _ _ _ => rfl

theorem isSolving_solvePasses : IsSolving (solvePasses channel tolerance) := by
  refine isSolving_fit_bind (fun f => ?_) fun _ _ _ => rfl
  have hclimb := isSolving_solveLadder channel tolerance
  cases f.twoPass with
  | true =>
    exact isSolving_bind (hclimb false none) fun first => isSolving_fit_bind
      (fun g => isSolving_bind (isSolving_lift _) fun ccv => hclimb true (some ccv))
      fun _ _ _ => rfl
  | false => exact hclimb false none

theorem isSolving_solveChannel (extra : Nat) :
    IsSolving (solveChannel channel tolerance extra) := by
  induction extra with
  | zero => exact isSolving_solvePasses channel tolerance
  | succ extra ih =>
    refine isSolving_bind (isSolving_solvePasses channel tolerance) fun level =>
      isSolving_fit_bind (fun f => ?_) fun _ _ _ => rfl
    exact isSolving_bind (isSolving_lift _) fun data => isSolving_bind (isSolving_lift _)
      fun data => isSolving_bind (isSolving_change (fun g => ⟨rfl, rfl, rfl, rfl, rfl⟩)
        fun _ _ _ => rfl) fun _ => ih

theorem isSolving_solveChannels (extra : Nat) (channels : List Nat) :
    IsSolving (solveChannels tolerance extra channels) := by
  induction channels with
  | nil => exact isSolving_pure ()
  | cons channel rest ih =>
    exact isSolving_bind (isSolving_solveChannel channel tolerance extra) fun level =>
      isSolving_bind (isSolving_change (fun g => ⟨rfl, rfl, rfl, rfl, rfl⟩)
        fun _ _ _ => rfl) fun _ => ih

end Solving

/-! ## Runs -/

section Runs

variable [Scalar α]

/-- The rest of a run, when the grid and the ladder are laid: all channels are solved, if there are
samples, and the grid is looked at. -/
def solveLaid (c : CheckedSettings α) (data : Prepared α) : FitM α Bool :=
  if data.samples.isEmpty then return false
  else do
    solveChannels c.tolerance c.extraFit (List.range data.channels)
    return (← (← FitM.fit).grid?).isNonMonotonic

/-- A run from the completed samples on. -/
def solveData (c : CheckedSettings α) (data : Prepared α) : FitM α Bool := do
  let grid ← FitM.require .shapeMismatch
    (Grid.constant? data.low data.high data.res data.channels data.spacing defaultAverage)
  FitM.change fun f => { f with grid := some grid }
  let ladder ← (fitLadder? data.res : Except (Failure α) _)
  FitM.change fun f => { f with ladder, reports := [] }
  solveLaid c data

/-- Records whether some channel changes direction. -/
def record (nonMonotonic : Bool) : FitM α Bool := do
  FitM.change fun f => { f with nonMonotonic }
  return nonMonotonic

/-- The fit with checked settings in place of the given ones. -/
def Fit.withChecked (f : Fit α) (c : CheckedSettings α) : Fit α :=
  { f with settings := f.settings.ofChecked c }

/-- The fit with a grid and a ladder, before anything is solved. -/
def Fit.laid (f : Fit α) (grid : Grid α) (ladder : List (List Nat)) : Fit α :=
  { f with grid := some grid, ladder, reports := [] }

/-- A run that has completed its samples. -/
def Fit.completed (f : Fit α) (c : CheckedSettings α) (data : Prepared α)
    (notices : List (Notice α)) : Running α :=
  { fit := (f.withChecked c).withPrepared data, notices := notices.reverse }

/-- The outcome of a run from that of its solves. -/
def RunOutcome.recorded (out : Except (Failure α) Bool × Running α) : RunOutcome α where
  fit := match out.1 with
    | .ok nonMonotonic => { out.2.fit with nonMonotonic }
    | .error _ => out.2.fit
  result := out.1
  notices := out.2.notices.reverse

variable {f : Fit α} {c : CheckedSettings α} {data : Prepared α} {notices : List (Notice α)}

theorem isSolving_solveLaid (c : CheckedSettings α) (data : Prepared α) :
    IsSolving (solveLaid c data) := by
  unfold solveLaid
  split
  · exact isSolving_pure false
  · exact isSolving_bind (isSolving_solveChannels _ _ _) fun _ => isSolving_fit_bind
      (fun f => isSolving_bind (isSolving_lift _) fun grid => isSolving_pure _) fun _ _ _ => rfl

theorem isSolving_solveData (c : CheckedSettings α) (data : Prepared α) :
    IsSolving (solveData c data) := by
  refine isSolving_bind (isSolving_require _ _) fun grid => isSolving_bind
    (isSolving_change (fun g => ⟨rfl, rfl, rfl, rfl, rfl⟩) fun _ _ _ => rfl) fun _ => ?_
  exact isSolving_bind (isSolving_lift _) fun ladder => isSolving_bind
    (isSolving_change (fun g => ⟨rfl, rfl, rfl, rfl, rfl⟩) fun _ _ _ => rfl) fun _ =>
      isSolving_solveLaid c data

/-- The grid and the ladder take the place of earlier ones. -/
theorem run_solveData (r : Running α) : (solveData c data).run.run r =
    match Grid.constant? data.low data.high data.res data.channels data.spacing defaultAverage with
    | none => (.error .shapeMismatch, r)
    | some grid => match (fitLadder? data.res : Except (Failure α) _) with
      | .error e => (.error e, { r with fit := { r.fit with grid := some grid } })
      | .ok ladder => (solveLaid c data).run.run { r with fit := r.fit.laid grid ladder } := by
  unfold solveData
  rw [run_bind]
  cases Grid.constant? data.low data.high data.res data.channels data.spacing defaultAverage with
  | none => rfl
  | some grid =>
    cases (fitLadder? data.res : Except (Failure α) _) with
    | error e => rfl
    | ok ladder => rfl

/-- A run checks the settings, completes the samples, solves, and records what it found. -/
theorem runFit_eq : (runFit : FitM α Bool) = (do
    let c ← (← FitM.fit).settings.check
    FitM.change (·.withChecked c)
    let given := (← FitM.fit).given
    let extended ← given.extend? (.ofWord c.extend)
    FitM.notify extended.notices
    let data ← extended.complete? given.spacing
    FitM.change (·.withPrepared data)
    let nonMonotonic ← solveData c data
    record nonMonotonic) := by
  unfold runFit solveData solveLaid record
  simp only [bind_assoc]
  refine bind_congr fun f => bind_congr fun c => bind_congr fun _ => bind_congr fun f => ?_
  refine bind_congr fun found => bind_congr fun _ => bind_congr fun data => bind_congr fun _ => ?_
  refine bind_congr fun grid => bind_congr fun _ => bind_congr fun ladder => bind_congr fun _ => ?_
  split
  · rfl
  · simp only [bind_assoc, pure_bind]

/-- A run that is refused for its samples has reported what moved until then. -/
theorem run_runFit : (runFit : FitM α Bool).run.run { fit := f, notices := [] } =
    match f.settings.check with
    | .error e => (.error e, { fit := f, notices := [] })
    | .ok c => match f.given.prepare (.ofWord c.extend) with
      | .error e => (.error e,
        { fit := f.withChecked c, notices := (f.given.reported (.ofWord c.extend)).reverse })
      | .ok (data, notices) =>
        (solveData c data >>= record).run.run (f.completed c data notices) := by
  rw [runFit_eq]
  change (liftM f.settings.check >>= _ : FitM α Bool).run.run _ = _
  cases f.settings.check with
  | error e => rfl
  | ok c =>
    change (liftM (f.given.extend? (.ofWord c.extend)) >>= _ : FitM α Bool).run.run _ = _
    unfold GivenSamples.prepare GivenSamples.reported
    rcases hextend : f.given.extend? (.ofWord c.extend) with e | found
    · simp only [hextend, error_bind]
      rfl
    · simp only [hextend, ok_bind]
      change (liftM (found.complete? f.given.spacing) >>= _ : FitM α Bool).run.run
        { fit := f.withChecked c, notices := found.notices.reverse ++ [] } = _
      rw [List.append_nil]
      rcases found.complete? f.given.spacing with e | data <;> rfl

/-- A run that is refused for its settings leaves everything as it was. -/
theorem Fit.run_of_check_eq_error {e : Failure α} (hcheck : f.settings.check = .error e) :
    f.run = { fit := f, result := .error e, notices := [] } := by
  unfold run
  rw [run_runFit, hcheck]
  rfl

/-- A run that is refused for its samples leaves everything but the settings as it was. What moved
until then is reported. -/
theorem Fit.run_of_prepare_eq_error {e : Failure α} (hcheck : f.settings.check = .ok c)
    (hprepare : f.given.prepare (.ofWord c.extend) = .error e) :
    f.run = { fit := f.withChecked c, result := .error e
              notices := f.given.reported (.ofWord c.extend) } := by
  unfold run
  rw [run_runFit, hcheck]
  simp only [hprepare]
  rw [List.reverse_reverse]

/-- A run that is not refused solves, and records what it found. -/
theorem Fit.run_of_prepare (hcheck : f.settings.check = .ok c)
    (hprepare : f.given.prepare (.ofWord c.extend) = .ok (data, notices)) :
    f.run = .recorded ((solveData c data).run.run (f.completed c data notices)) := by
  unfold run
  rw [run_runFit, hcheck]
  simp only [hprepare, run_bind]
  rcases (solveData c data).run.run (f.completed c data notices) with ⟨_ | b, after⟩ <;> rfl

/-- What a run keeps that is not refused. -/
theorem Fit.keeps_run (hcheck : f.settings.check = .ok c)
    (hprepare : f.given.prepare (.ofWord c.extend) = .ok (data, notices)) :
    ((f.withChecked c).withPrepared data).Keeps f.run.fit := by
  have hkeeps := (isSolving_solveData c data).keeps (f.completed c data notices)
  rw [run_of_prepare hcheck hprepare]
  unfold RunOutcome.recorded
  split <;> exact ⟨hkeeps.given, hkeeps.settings, hkeeps.twoPass, hkeeps.symmetricDomain,
    hkeeps.verbose⟩

/-- A run with a result records it, and one that fails leaves what was recorded. -/
theorem Fit.nonMonotonic_run : f.run.fit.nonMonotonic = match f.run.result with
    | .ok found => found
    | .error _ => f.nonMonotonic := by
  cases hcheck : f.settings.check with
  | error e => rw [run_of_check_eq_error hcheck]
  | ok c =>
    rcases hprepare : f.given.prepare (.ofWord c.extend) with e | ⟨data, notices⟩
    · rw [run_of_prepare_eq_error hcheck hprepare]
      rfl
    · have hkept := (isSolving_solveData c data).nonMonotonic_eq (f.completed c data notices)
      rw [run_of_prepare hcheck hprepare]
      rcases hrun : (solveData c data).run.run (f.completed c data notices) with ⟨_ | found, after⟩
      · rw [hrun] at hkept
        exact hkept
      · rfl

/-- With something else in place of what no solve reads, for which the checks find the same domain, a
run finds the same and reports the same, also when it fails. -/
theorem Fit.run_withUnread {given : GivenSamples α} (nonMonotonic : Bool)
    (hsame : ∀ mode, ({ given with deviation := f.given.deviation } : GivenSamples α).extend? mode =
      f.given.extend? mode) (hspacing : given.spacing = f.given.spacing) :
    (f.withUnread given nonMonotonic).run = { f.run with
      fit := f.run.fit.withUnread given (match f.run.result with
        | .ok found => found
        | .error _ => nonMonotonic) } := by
  have hread : ∀ mode, (f.withUnread given nonMonotonic).given.prepare mode =
    f.given.prepare mode := fun mode => prepare_congr_of_extend? (hsame mode) hspacing
  cases hcheck : f.settings.check with
  | error e =>
    have hcheck' : (f.withUnread given nonMonotonic).settings.check = .error e := hcheck
    rw [run_of_check_eq_error hcheck, run_of_check_eq_error hcheck']
  | ok c =>
    have hcheck' : (f.withUnread given nonMonotonic).settings.check = .ok c := hcheck
    rcases hprepare : f.given.prepare (.ofWord c.extend) with e | ⟨data, notices⟩
    · have hmoved : (f.withUnread given nonMonotonic).given.reported (.ofWord c.extend) =
        f.given.reported (.ofWord c.extend) := reported_congr_of_extend? (hsame _)
      rw [run_of_prepare_eq_error hcheck hprepare,
        run_of_prepare_eq_error hcheck' ((hread _).trans hprepare), hmoved]
      rfl
    · have hignores := (isSolving_solveData c data).ignores (f.completed c data notices) given
        nonMonotonic
      rw [run_of_prepare hcheck hprepare, run_of_prepare hcheck' ((hread _).trans hprepare)]
      change RunOutcome.recorded ((solveData c data).run.run
        ((f.completed c data notices).withUnread given nonMonotonic)) = _
      rw [hignores]
      rcases (solveData c data).run.run (f.completed c data notices) with ⟨_ | found, after⟩ <;> rfl

end Runs

end GridSpline
