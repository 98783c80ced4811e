import GridSpline.Proofs.Channel.Level
import GridSpline.Proofs.Fit.Alike

/-!
# Solving one channel alone

Level by level, climb by climb and pass by pass, a fit of a channel alone does what the fit of all
channels does when it comes to that channel. The two runs go alike, so they end with the same node
values and append the same reports.

## Main statements

* `alike_solveLevel`, `alike_solveLadder`, `alike_solvePasses`, `alike_solveChannel` — the steps.
-/

namespace GridSpline

open Scalar Failure FitM

variable {α : Type} {c : ℕ} {before : List (SolveReport α)} {r r' : Running α}

/-- Two runs that have just solved a channel, the second one of the channel alone. -/
structure Running.HaveSolved (c : ℕ) (before : List (SolveReport α)) (level level' : Level α)
    (r r' : Running α) : Prop where
  fit : r.fit.IsChannelOf c before r'.fit
  channel : level.channel = c
  alone : level' = level.alone

theorem Fit.IsChannelOf.withReport {fit fit' : Fit α} (h : fit.IsChannelOf c before fit')
    (report : SolveReport α) : IsChannelOf c before
      { fit with reports := fit.reports ++ [report] }
      { fit' with reports := fit'.reports ++ [report] } :=
  { h with reports := by rw [h.reports, List.append_assoc] }

variable [Scalar α] (tolerance : α)

/-! ## Levels -/

theorem alike_solvePosed (h : r.fit.IsChannelOf c before r'.fit) {level : Level α} {res : List ℕ}
    (hfor : level.IsFor c res) (coarser : Option (Level α)) :
    Alike (solvePosed c tolerance coarser r.fit level)
      (solvePosed 0 tolerance (coarser.map Level.alone) r'.fit level.alone) r r'
      (Running.HaveSolved c before) := by
  unfold solvePosed
  refine alike_bind (alike_lift_map (h.setup?_eq hfor.channel) fun up hup => ?_)
  have hup := hfor.of_keeps (Level.keeps_setup? hup)
  refine alike_bind (alike_lift_map (h.seed?_eq hup.channel coarser) fun seeded hseed => ?_)
  have hseeded := hup.of_keeps (Level.keeps_seed? hseed)
  rw [h.verbose, h.solve_eq]
  refine alike_notify_if fun first first' _ => ?_
  refine alike_bind (alike_lift_map (id_map _).symm fun report _ => ?_)
  refine alike_bind (alike_change (alike_notify_if fun second second' _ => alike_pure ?_))
  exact ⟨h.withReport report, hseeded.channel, rfl⟩

theorem alike_solveLevel (h : r.fit.IsChannelOf c before r'.fit) (secondPass : Bool)
    (ccv : Option (Curvature α)) (coarser : Option (Level α)) (res : List ℕ) :
    Alike (solveLevel c secondPass ccv tolerance coarser res)
      (solveLevel 0 secondPass ccv tolerance (coarser.map Level.alone) res) r r'
      (Running.HaveSolved c before) := by
  cases ccv with
  | none =>
    rw [solveLevel_none, solveLevel_none]
    refine alike_bind (alike_fit (alike_bind (alike_lift_map (h.make?_eq res secondPass)
      fun level hmake => ?_)))
    exact alike_solvePosed tolerance h (Level.isFor_make? hmake) coarser
  | some ccv =>
    obtain ⟨g, values, hg, hg'⟩ := h.exists_grid?
    rw [solveLevel_some, solveLevel_some]
    refine alike_bind (alike_fit (alike_bind (alike_lift_map (h.make?_eq res secondPass)
      fun level hmake => ?_)))
    refine alike_bind (alike_lift_ok hg hg' ?_)
    refine alike_bind (alike_lift_map (h.setCurvature?_eq g.res ccv) fun bent hbent => ?_)
    exact alike_solvePosed tolerance h
      ((Level.isFor_make? hmake).of_keeps (Level.keeps_setCurvature? hbent)) coarser

theorem alike_foldlM (h : r.fit.IsChannelOf c before r'.fit) (secondPass : Bool)
    (ccv : Option (Curvature α)) (levels : List (List ℕ)) {coarser : Option (Level α)}
    (hcoarser : ∀ coarse, coarser = some coarse → coarse.channel = c) :
    Alike
      (levels.foldlM (fun coarser res =>
        some <$> solveLevel c secondPass ccv tolerance coarser res) coarser)
      (levels.foldlM (fun coarser res =>
        some <$> solveLevel 0 secondPass ccv tolerance coarser res) (coarser.map Level.alone)) r r'
      fun last last' after after' => after.fit.IsChannelOf c before after'.fit ∧
        last' = last.map Level.alone ∧ ∀ finest, last = some finest → finest.channel = c := by
  induction levels generalizing r r' coarser with
  | nil => exact alike_pure ⟨h, rfl, hcoarser⟩
  | cons res levels ih =>
    rw [List.foldlM_cons, List.foldlM_cons]
    refine alike_bind (alike_map ((alike_solveLevel tolerance h secondPass ccv coarser res).imp ?_))
    rintro level _ after after' ⟨hafter, hchannel, rfl⟩
    have hlevel : ∀ coarse, some level = some coarse → coarse.channel = c := by
      rintro _ ⟨⟩
      exact hchannel
    exact ih hafter hlevel

/-! ## Climbs -/

theorem alike_solveLadder (h : r.fit.IsChannelOf c before r'.fit) (secondPass : Bool)
    (ccv : Option (Curvature α)) :
    Alike (solveLadder c secondPass ccv tolerance) (solveLadder 0 secondPass ccv tolerance) r r'
      (Running.HaveSolved c before) := by
  unfold solveLadder
  refine alike_bind (alike_fit ?_)
  rw [h.ladder]
  have hnone : ∀ coarse, (none : Option (Level α)) = some coarse → coarse.channel = c :=
    fun coarse hsome => absurd hsome (Option.some_ne_none coarse).symm
  refine alike_bind ((alike_foldlM tolerance h secondPass ccv r.fit.ladder hnone).imp ?_)
  rintro last _ after after' ⟨hafter, rfl, hlast⟩
  refine alike_require ?_
  cases last with
  | none => exact .none
  | some finest => exact .some ⟨hafter, hlast finest rfl, rfl⟩

theorem alike_solvePasses (h : r.fit.IsChannelOf c before r'.fit) :
    Alike (solvePasses c tolerance) (solvePasses 0 tolerance) r r'
      (Running.HaveSolved c before) := by
  unfold solvePasses
  refine alike_bind (alike_fit ?_)
  rw [h.twoPass]
  by_cases htwo : r.fit.twoPass = true
  · rw [if_pos htwo, if_pos htwo]
    refine alike_bind ((alike_solveLadder tolerance h false none).imp ?_)
    rintro first _ after after' ⟨hafter, -, rfl⟩
    refine alike_bind (alike_fit (alike_bind ?_))
    rw [hafter.smoothedCurvature?_eq]
    exact alike_lift_map (id_map _).symm fun ccv _ =>
      alike_solveLadder tolerance hafter true (some ccv)
  · rw [if_neg htwo, if_neg htwo]
    exact alike_solveLadder tolerance h false none

/-- All passes over a channel go alike if the channel is alone. -/
theorem alike_solveChannel (h : r.fit.IsChannelOf c before r'.fit) (extra : ℕ) :
    Alike (solveChannel c tolerance extra) (solveChannel 0 tolerance extra) r r'
      (Running.HaveSolved c before) := by
  induction extra generalizing r r' with
  | zero => exact alike_solvePasses tolerance h
  | succ extra ih =>
    refine alike_bind ((alike_solvePasses tolerance h).imp ?_)
    rintro level _ after after' ⟨hafter, hchannel, rfl⟩
    obtain ⟨data, hdata, hc, hdata'⟩ := hafter.exists_prepared?
    refine alike_bind (alike_fit (alike_bind (alike_lift_ok hdata hdata' ?_)))
    refine alike_bind (alike_lift_map (Level.addMisfit?_alone hchannel hc) fun next hnext => ?_)
    refine alike_bind (alike_change (ih { hafter with prepared := ⟨next, rfl, ?_, rfl⟩ }))
    rw [(Level.keepsTargets_addMisfit? hchannel hnext).rest]
    exact hc

end GridSpline
