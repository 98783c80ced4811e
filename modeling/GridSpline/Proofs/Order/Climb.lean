import Mathlib
import GridSpline.Proofs.Fit.Alike
import GridSpline.Proofs.Order.Level

/-!
# Solving samples in another order

Level by level, climb by climb and pass by pass, a run of samples in another order does what the run
of the samples does. The two runs go alike: they end with the same node values, the same reports and
the same notices, and with the same targets, in that order.

## Main definitions

* `Running.AreReordered` — two runs that have just solved, the second one in another order.

## Main statements

* `alike_solveLevel_reordered`, `alike_solveLadder_reordered`, `alike_solvePasses_reordered`,
  `alike_solveChannel_reordered`, `alike_solveChannels_reordered` — the steps.
-/

namespace GridSpline

open Scalar Failure FitM

variable {α : Type} [Scalar α] {order kept : List ℕ} {data : Prepared α} {channel : ℕ}
  {r : Running α}

/-- Two runs that have just solved, the second one of the same samples in another order. -/
structure Running.AreReordered (order kept : List ℕ) (data : Prepared α) (channel : ℕ)
    (level level' : Level α) (r r' : Running α) : Prop where
  takes : r.fit.TakesOrder kept data
  channel : level.channel = channel
  cells : level.HasCells data.samples.length
  level : level' = level.reordered kept
  rest : r' = r.reordered order kept

namespace Fit.TakesOrder

variable {fit : Fit α} (h : fit.TakesOrder kept data)

include h

theorem withReports (reports : List (SolveReport α)) :
    ({ fit with reports } : Fit α).TakesOrder kept data :=
  ⟨h.prepared, h.within, h.order⟩

theorem setChannel (channel : ℕ) (x : Array α) :
    ({ fit with grid := fit.grid.map (·.setChannel channel x) } : Fit α).TakesOrder kept data := by
  refine ⟨h.prepared, fun g hg => ?_, h.order⟩
  obtain ⟨laid, hlaid, rfl⟩ := Option.map_eq_some_iff.mp hg
  exact h.within laid hlaid

/-- The order is one of the samples with other targets as well. -/
theorem retarget {next : Prepared α} (hto : data.KeepsTargets channel next) :
    ({ fit with prepared := some next } : Fit α).TakesOrder kept next := by
  refine ⟨rfl, fun g hg t ht => ?_, hto.samples.length_eq ▸ h.order⟩
  obtain ⟨i, hi, rfl⟩ := List.getElem_of_mem ht
  have hi' : i < data.samples.length := hto.samples.length_eq ▸ hi
  have hposition : next.samples[i].position = data.samples[i].position :=
    congrArg (·.position) (hto.samples.get hi' hi).rest
  rw [hposition]
  exact h.within g hg _ (List.getElem_mem hi')

end Fit.TakesOrder

variable [IsExact α] (tolerance : α)

/-! ## Levels -/

theorem alike_solvePosed_reordered (h : r.fit.TakesOrder kept data) {level : Level α} {res : List ℕ}
    (hfor : level.IsFor channel res) (hcells : level.HasCells data.samples.length)
    (coarser : Option (Level α)) :
    Alike (solvePosed channel tolerance coarser r.fit level)
      (solvePosed channel tolerance (coarser.map (Level.reordered kept))
        (r.fit.reordered order kept) (level.reordered kept)) r (r.reordered order kept)
      (Running.AreReordered order kept data channel) := by
  unfold solvePosed
  refine alike_bind (alike_lift_map (h.setup?_eq hcells) fun up hup => ?_)
  have hup := Level.keeps_setup? hup
  refine alike_bind (alike_lift_map (h.seed?_eq coarser) fun seeded hseed => ?_)
  have hseeded := Level.keeps_seed? hseed
  have hverbose : (r.fit.reordered order kept).verbose = r.fit.verbose := rfl
  rw [hverbose, Level.solve_reordered]
  refine alike_notify_if fun first first' hfirst => ?_
  obtain rfl := hfirst rfl rfl
  refine alike_bind (alike_lift_map (id_map _).symm fun report _ => ?_)
  refine alike_bind (alike_change (alike_notify_if fun second second' hsecond => alike_pure ?_))
  obtain rfl := hsecond rfl rfl
  exact ⟨h.withReports _, ((hfor.of_keeps hup).of_keeps hseeded).channel,
    ((hcells.of_keeps hup).of_keeps hseeded).of_keeps rfl, rfl, rfl⟩

theorem alike_solveLevel_reordered (h : r.fit.TakesOrder kept data) (secondPass : Bool)
    (ccv : Option (Curvature α)) (coarser : Option (Level α)) (res : List ℕ) :
    Alike (solveLevel channel secondPass ccv tolerance coarser res)
      (solveLevel channel secondPass ccv tolerance (coarser.map (Level.reordered kept)) res) r
      (r.reordered order kept) (Running.AreReordered order kept data channel) := by
  have hcells : ∀ {level}, Level.make? r.fit res channel secondPass = .ok level →
      level.HasCells data.samples.length := Level.hasCells_make? h.prepared?_eq
  cases ccv with
  | none =>
    rw [solveLevel_none, solveLevel_none]
    refine alike_bind (alike_fit (alike_bind (alike_lift_map (h.make?_eq res channel secondPass)
      fun level hmake => ?_)))
    exact alike_solvePosed_reordered tolerance h (Level.isFor_make? hmake) (hcells hmake) coarser
  | some ccv =>
    rw [solveLevel_some, solveLevel_some]
    refine alike_bind (alike_fit (alike_bind (alike_lift_map (h.make?_eq res channel secondPass)
      fun level hmake => ?_)))
    refine alike_bind (alike_lift_map (id_map _).symm fun g _ => ?_)
    refine alike_bind (alike_lift_map (Level.setCurvature?_reordered kept g.res ccv)
      fun bent hbent => ?_)
    have hkeeps := Level.keeps_setCurvature? hbent
    exact alike_solvePosed_reordered tolerance h
      ((Level.isFor_make? hmake).of_keeps hkeeps) ((hcells hmake).of_keeps hkeeps) coarser

theorem alike_foldlM_reordered (h : r.fit.TakesOrder kept data) (secondPass : Bool)
    (ccv : Option (Curvature α)) (levels : List (List ℕ)) {coarser : Option (Level α)}
    (hcoarser : ∀ coarse, coarser = some coarse →
      coarse.channel = channel ∧ coarse.HasCells data.samples.length) :
    Alike
      (levels.foldlM (fun coarser res =>
        some <$> solveLevel channel secondPass ccv tolerance coarser res) coarser)
      (levels.foldlM (fun coarser res =>
        some <$> solveLevel channel secondPass ccv tolerance coarser res)
          (coarser.map (Level.reordered kept))) r (r.reordered order kept)
      fun last last' after after' => after.fit.TakesOrder kept data ∧
        last' = last.map (Level.reordered kept) ∧ after' = after.reordered order kept ∧
        ∀ finest, last = some finest →
          finest.channel = channel ∧ finest.HasCells data.samples.length := by
  induction levels generalizing r coarser with
  | nil => exact alike_pure ⟨h, rfl, rfl, hcoarser⟩
  | cons res levels ih =>
    rw [List.foldlM_cons, List.foldlM_cons]
    refine alike_bind (alike_map ((alike_solveLevel_reordered tolerance h secondPass ccv coarser
      res).imp ?_))
    rintro level _ after _ ⟨hafter, hchannel, hcells, rfl, rfl⟩
    have hlevel : ∀ coarse, some level = some coarse →
        coarse.channel = channel ∧ coarse.HasCells data.samples.length := by
      rintro _ ⟨⟩
      exact ⟨hchannel, hcells⟩
    exact ih hafter hlevel

/-! ## Climbs -/

theorem alike_solveLadder_reordered (h : r.fit.TakesOrder kept data) (secondPass : Bool)
    (ccv : Option (Curvature α)) :
    Alike (solveLadder channel secondPass ccv tolerance)
      (solveLadder channel secondPass ccv tolerance) r (r.reordered order kept)
      (Running.AreReordered order kept data channel) := by
  unfold solveLadder
  have hnone : ∀ coarse, (none : Option (Level α)) = some coarse →
      coarse.channel = channel ∧ coarse.HasCells data.samples.length :=
    fun coarse hsome => absurd hsome (Option.some_ne_none coarse).symm
  refine alike_bind (alike_fit (alike_bind ((alike_foldlM_reordered tolerance h secondPass ccv
    r.fit.ladder hnone).imp ?_)))
  rintro last _ after _ ⟨hafter, rfl, rfl, hlast⟩
  refine alike_require ?_
  cases last with
  | none => exact .none
  | some finest => exact .some ⟨hafter, (hlast finest rfl).1, (hlast finest rfl).2, rfl, rfl⟩

theorem alike_solvePasses_reordered (h : r.fit.TakesOrder kept data) :
    Alike (solvePasses channel tolerance) (solvePasses channel tolerance) r
      (r.reordered order kept) (Running.AreReordered order kept data channel) := by
  unfold solvePasses
  refine alike_bind (alike_fit ?_)
  have htwoPass : (r.reordered order kept).fit.twoPass = r.fit.twoPass := rfl
  rw [htwoPass]
  by_cases htwo : r.fit.twoPass = true
  · rw [if_pos htwo]
    refine alike_bind ((alike_solveLadder_reordered tolerance h false none).imp ?_)
    rintro first _ after _ ⟨hafter, -, -, rfl, rfl⟩
    refine alike_bind (alike_fit (alike_bind ?_))
    exact alike_lift_map (Level.smoothedCurvature?_reordered.trans (id_map _).symm) fun ccv _ =>
      alike_solveLadder_reordered tolerance hafter true (some ccv)
  · rw [if_neg htwo]
    exact alike_solveLadder_reordered tolerance h false none

/-! ## Channels -/

/-- All passes over a channel go alike: the misfits that are added to the targets in between are
those of the same samples. -/
theorem alike_solveChannel_reordered (h : r.fit.TakesOrder kept data) (extra : ℕ) :
    Alike (solveChannel channel tolerance extra) (solveChannel channel tolerance extra) r
      (r.reordered order kept) fun level level' after after' => level'.x = level.x ∧
        after' = after.reordered order kept ∧ ∃ next, after.fit.TakesOrder kept next := by
  induction extra generalizing r data with
  | zero =>
    refine (alike_solvePasses_reordered tolerance h).imp ?_
    rintro level _ after _ ⟨hafter, -, -, rfl, rfl⟩
    exact ⟨rfl, rfl, data, hafter⟩
  | succ extra ih =>
    refine alike_bind ((alike_solvePasses_reordered tolerance h).imp ?_)
    rintro level _ after _ ⟨hafter, hchannel, hcells, rfl, rfl⟩
    refine alike_bind (alike_fit (alike_bind (alike_lift_ok hafter.prepared?_eq
      hafter.prepared?_reordered ?_)))
    refine alike_bind (alike_lift_map (Level.addMisfit?_reordered hcells h.order)
      fun next hnext => ?_)
    exact alike_bind (alike_change
      (ih (hafter.retarget (Level.keepsTargets_addMisfit? hchannel hnext))))

/-- All channels are solved alike. -/
theorem alike_solveChannels_reordered (h : r.fit.TakesOrder kept data) (extra : ℕ)
    (channels : List ℕ) :
    Alike (solveChannels tolerance extra channels) (solveChannels tolerance extra channels) r
      (r.reordered order kept) fun _ _ after after' => after' = after.reordered order kept := by
  induction channels generalizing r data with
  | nil => exact alike_pure rfl
  | cons c channels ih =>
    refine alike_bind ((alike_solveChannel_reordered tolerance h extra).imp ?_)
    rintro level level' after _ ⟨hx, rfl, next, hafter⟩
    refine alike_bind (alike_change ?_)
    rw [hx]
    exact ih (hafter.setChannel c level.x)

end GridSpline
