import Mathlib
import GridSpline.Proofs.Fit.Flat
import GridSpline.Proofs.Fit.Frame
import GridSpline.Proofs.Fit.Run

/-!
# Constant samples through a run

Constant samples give the constant grid. The average is the constant, so the coarsest level starts
at it; a solve leaves it as it is, and it is carried to the next level as it is. Its curvature is
zero, filtered or not, so a second pass is drawn to nothing. And it misses no sample, so extra
passes find the targets that they had.

## Main definitions

* `Prepared.IsPlain` — a channel with constant samples, on lattices where all nodes are held.
* `Running.Settles` — a run that goes on with the constant on its latest level.

## Main statements

* `settles_solveLevel`, `settles_solveLadder`, `settles_solvePasses`, `settles_solveChannel` — every
  step keeps the constant.
-/

namespace GridSpline

open Scalar Failure FitM
open Matrix
open GridSpline.Lattice

/-- A channel with constant samples, on lattices with interior nodes along every axis, whose nodes
are in order, without a weak default. -/
structure Prepared.IsPlain (data : Prepared ℝ) (settings : Settings ℝ) (ladder : List (List ℕ))
    (channel : ℕ) (value : ℝ) : Prop where
  samples : data.samples ≠ []
  isChannel : channel < data.channels
  isLadder : data.IsLadder ladder
  resolutions : ∀ res ∈ ladder, ∀ r ∈ res, 3 ≤ r
  spacing : ∀ res ∈ ladder, ∀ s ∈ data.spacingOn res, IsMonotoneSpacing s
  weak : settings.weakFunction = none
  range : 0 < data.rangeOf channel
  flat : data.IsFlat channel value

/-- A run that goes on with the constant as node values of its latest level. -/
structure Running.Settles (r after : Running ℝ) (data : Prepared ℝ) (settings : Settings ℝ)
    (ladder : List (List ℕ)) (channel : ℕ) (value : ℝ) (level : Level ℝ) (res : List ℕ)
    (reports : List (SolveReport ℝ)) : Prop where
  solved : after.HasSolved data settings ladder channel level res
  values : level.x = Array.replicate (size res) value
  fit : after.fit = { r.fit with reports := r.fit.reports ++ reports }

/-- Carried to another lattice the constant is what it was. -/
theorem arrayOf_carried_const {source target : List ℕ} (hlen : source.length = target.length)
    (hsource : ∀ r ∈ source, 2 ≤ r) (htarget : ∀ r ∈ target, 2 ≤ r) (hne : source ≠ [])
    (value : ℝ) :
    arrayOf (size target) (carried source target
      (vectorOf (size source) (Array.replicate (size source) value))) =
        Array.replicate (size target) value := by
  refine eq_of_vectorOf_eq (size_arrayOf _ _) Array.size_replicate ?_
  rw [vectorOf_arrayOf, vectorOf_replicate, vectorOf_replicate]
  funext i
  exact carried_const hlen hsource htarget hne value i

/-- The constant misses no sample. -/
theorem Level.IsPosed.addMisfit_eq_self {level : Level ℝ} {fit : Fit ℝ} {data : Prepared ℝ}
    {channel : ℕ} {res : List ℕ} {value : ℝ} (h : level.IsPosed fit data channel)
    (hlaid : level.IsLaidOn data res) (hvalid : data.IsValid) (hflat : data.IsFlat channel value)
    (hx : level.x = Array.replicate (size res) value) : level.addMisfit data channel = data := by
  have hlen := h.length_misfits
  have hsamples : (level.addMisfit data channel).samples = data.samples := by
    refine List.ext_getElem ?_ fun i h1 h2 => ?_
    · show (List.zipWith _ _ _).length = _
      rw [List.length_zipWith, hlen, min_self]
    · have hvalue := hflat.values _ (List.getElem_mem h2)
      have hmisfit := h.getElem_misfits h2 (hlen.symm ▸ h2)
      rw [hx, ← hlaid.res_eq, vectorOf_replicate, h.sampleMatrix_mulVec_const hlaid hvalid, hvalue,
        sub_self] at hmisfit
      have hsample : (level.addMisfit data channel).samples[i] =
          addToTarget channel (level.misfits data channel)[i] data.samples[i] :=
        List.getElem_zipWith ..
      rw [hsample, hmisfit]
      unfold addToTarget
      simp only [add_zero]
      exact congrArg (fun targets => { data.samples[i] with targets }) (List.modify_id _ _)
  exact congrArg (fun samples => { data with samples }) hsamples

section Steps

variable {r : Running ℝ} {data : Prepared ℝ} {settings : Settings ℝ} {ladder : List (List ℕ)}
  {channel : ℕ} {value tolerance : ℝ} (hplain : data.IsPlain settings ladder channel value)
  (ht : 0 < tolerance)

include hplain

theorem Prepared.IsPlain.isStiff {level : Level ℝ} {res : List ℕ}
    (hres : res ∈ ladder) (hlaid : level.IsLaidOn data res) : level.IsStiff data channel where
  resolutions := hlaid.res_eq.symm ▸ hplain.resolutions res hres
  spacing := hlaid.spacing.symm ▸ hplain.spacing res hres
  stiffness w hw := mul_pos (hlaid.stiff (hplain.resolutions res hres) w hw) hplain.range

include ht

/-! ## Levels -/

theorem settles_solvePosed (h : r.IsUnderWay data settings ladder) {coarser : Option (Level ℝ)}
    (hcoarser : ∀ c, coarser = some c → ∃ source ∈ ladder, c.IsLaidOn data source ∧
      c.x = Array.replicate (size source) value) {res : List ℕ} (hres : res ∈ ladder)
    {level : Level ℝ} (hposed : level.IsPosed r.fit data channel) (hlaid : level.IsLaidOn data res)
    (hccv : ∀ c, level.ccv = some c → c.Vanishes) :
    Leads (solvePosed channel tolerance coarser r.fit level) r
      (fun last after => r.Settles after data settings ladder channel value last res
        [.atOnce res]) fun _ => False := by
  have hvalid := h.ready.valid
  have hlen := (hplain.isLadder.levels res hres).1
  obtain ⟨up, hsetup, hup, hx, hresult⟩ := hposed.exists_setup?_solve_const hlaid hvalid
    (hplain.isStiff hres hlaid) (by rw [h.settings]; exact hplain.weak) h.ready
    hplain.isChannel hplain.samples hplain.range hplain.flat hccv ht
  have hsize : size up.res = size res := by rw [hup.laid.res_eq]
  have hseed : up.seed? r.fit coarser =
      .ok { up with x := Array.replicate (size res) value } := by
    cases coarser with
    | none => rw [hup.seed?_none hvalid hplain.isChannel, hplain.flat.average, hsize]
    | some c =>
      obtain ⟨source, hsource, hcoarse, hvalues⟩ := hcoarser c rfl
      obtain ⟨hcount, hbelow⟩ := hplain.isLadder.levels source hsource
      rw [hup.seed?_some hcoarse (hcount.trans hlen.symm) hbelow, hvalues, hup.laid.res_eq,
        arrayOf_carried_const (hcount.trans hlen.symm) hbelow (hplain.isLadder.levels res hres).2
          (hvalid.ne_nil hcount)]
  have hseeded := hup.withValues (x := Array.replicate (size res) value)
    (Array.size_replicate.trans hsize.symm)
  unfold solvePosed
  refine leads_bind (leads_lift hsetup (leads_bind (leads_lift hseed ?_)))
  refine leads_notify_if fun first => ?_
  refine leads_bind (leads_lift hresult (leads_bind (leads_change ?_)))
  refine leads_notify_if fun second => leads_pure ⟨⟨?_, ?_, ?_⟩, hx, rfl⟩
  · exact ((h.withNotices first).withReports _).withNotices second
  · exact { hseeded.posed with }
  · exact { hseeded.laid with x := by rw [hx, Array.size_replicate] }

/-- A level keeps the constant. -/
theorem settles_solveLevel (h : r.IsUnderWay data settings ladder) (secondPass : Bool)
    {ccv : Option (Curvature ℝ)} (hccv : ∀ c, ccv = some c → c.IsOn data.res ∧ c.Vanishes)
    {coarser : Option (Level ℝ)} (hcoarser : ∀ c, coarser = some c → ∃ source ∈ ladder,
      c.IsLaidOn data source ∧ c.x = Array.replicate (size source) value)
    {res : List ℕ} (hres : res ∈ ladder) :
    Leads (solveLevel channel secondPass ccv tolerance coarser res) r
      (fun last after => r.Settles after data settings ladder channel value last res
        [.atOnce res]) fun _ => False := by
  obtain ⟨hlen, htwo⟩ := hplain.isLadder.levels res hres
  obtain ⟨made, hmake, hposed, hlaid, hnone⟩ :=
    h.ready.exists_make? hlen htwo hplain.isChannel secondPass
  cases ccv with
  | none =>
    rw [solveLevel_none]
    refine leads_bind (leads_fit (leads_bind (leads_lift hmake
      (settles_solvePosed hplain ht h hcoarser hres hposed hlaid fun c hc => ?_))))
    rw [hnone] at hc
    cases hc
  | some c =>
    obtain ⟨hon, hvanishes⟩ := hccv c rfl
    obtain ⟨g, hgrid, hgres, -⟩ := h.ready.exists_grid?
    obtain ⟨bent, hbent, hposed', hlaid', hdown⟩ :=
      Level.exists_setCurvature? hposed hlaid h.ready.valid hlen hon
    rw [← hgres] at hbent
    rw [solveLevel_some]
    refine leads_bind (leads_fit (leads_bind (leads_lift hmake (leads_bind (leads_lift hgrid
      (leads_bind (leads_lift hbent
        (settles_solvePosed hplain ht h hcoarser hres hposed' hlaid' fun b hb => ?_))))))))
    rw [hdown] at hb
    rw [← Option.some.inj hb]
    exact vanishes_downsampled hvanishes _

theorem settles_foldlM (secondPass : Bool) {ccv : Option (Curvature ℝ)}
    (hccv : ∀ c, ccv = some c → c.IsOn data.res ∧ c.Vanishes) {levels : List (List ℕ)}
    (hlevels : ∀ res ∈ levels, res ∈ ladder) {first : Running ℝ} {level : Level ℝ}
    {source : List ℕ} {reports : List (SolveReport ℝ)} (hsource : source ∈ ladder)
    (h : first.Settles r data settings ladder channel value level source reports) :
    Leads (levels.foldlM (fun coarser res =>
        some <$> solveLevel channel secondPass ccv tolerance coarser res) (some level)) r
      (fun last after => ∃ finest, last = some finest ∧
        first.Settles after data settings ladder channel value finest
          ((source :: levels).getLast (List.cons_ne_nil _ _))
          (reports ++ levels.map .atOnce)) fun _ => False := by
  induction levels generalizing r level source reports with
  | nil => exact leads_pure ⟨level, rfl, by rwa [List.map_nil, List.append_nil]⟩
  | cons res levels ih =>
    have hres : res ∈ ladder := hlevels res List.mem_cons_self
    have hcoarser : ∀ c, some level = some c → ∃ source ∈ ladder, c.IsLaidOn data source ∧
        c.x = Array.replicate (size source) value := by
      rintro c ⟨⟩
      exact ⟨source, hsource, h.solved.laid, h.values⟩
    rw [List.foldlM_cons]
    refine leads_bind (leads_map ((settles_solveLevel hplain ht h.solved.underWay secondPass hccv
      hcoarser hres).imp ?_))
    intro next after hafter
    have hnext : first.Settles after data settings ladder channel value next res
        (reports ++ [.atOnce res]) :=
      ⟨hafter.solved, hafter.values, by rw [hafter.fit, h.fit, List.append_assoc]⟩
    refine (ih (fun x hx => hlevels x (List.mem_cons_of_mem res hx)) hres hnext).imp ?_
    rintro last final ⟨finest, hlast, hfinest⟩
    refine ⟨finest, hlast, ?_⟩
    rwa [List.append_assoc, ← List.getLast_cons (List.cons_ne_nil _ _)] at hfinest

/-- A climb keeps the constant. -/
theorem settles_solveLadder (h : r.IsUnderWay data settings ladder) (secondPass : Bool)
    {ccv : Option (Curvature ℝ)} (hccv : ∀ c, ccv = some c → c.IsOn data.res ∧ c.Vanishes) :
    Leads (solveLadder channel secondPass ccv tolerance) r
      (fun last after => r.Settles after data settings ladder channel value last data.res
        (ladder.map .atOnce)) fun _ => False := by
  obtain ⟨coarsest, levels, rfl⟩ := List.exists_cons_of_ne_nil hplain.isLadder.ne_nil
  have hfirst : coarsest ∈ coarsest :: levels := List.mem_cons_self
  have hfinal : (coarsest :: levels).getLast (List.cons_ne_nil _ _) = data.res := by
    have hlast := hplain.isLadder.last
    rwa [List.getLast?_eq_getLast_of_ne_nil (List.cons_ne_nil _ _), Option.some.injEq] at hlast
  unfold solveLadder
  refine leads_bind (leads_fit (leads_bind ?_))
  rw [h.ladder, List.foldlM_cons]
  refine leads_bind (leads_map ((settles_solveLevel hplain ht h secondPass hccv
    (fun c hc => absurd hc (Option.some_ne_none c).symm) hfirst).imp ?_))
  intro level after hafter
  refine (settles_foldlM hplain ht secondPass hccv
    (fun res hres => List.mem_cons_of_mem coarsest hres) hfirst hafter).imp ?_
  rintro last final ⟨finest, hlast, hfinest⟩
  exact leads_require hlast (hfinal ▸ hfinest)

/-! ## Passes -/

omit hplain ht in
/-- The constant has no curvature to be drawn to. -/
theorem Running.Settles.exists_smoothedCurvature? {before : Running ℝ} {level : Level ℝ}
    {reports : List (SolveReport ℝ)}
    (h : before.Settles r data settings ladder channel value level data.res reports) :
    ∃ ccv, smoothedCurvature? r.fit level = .ok ccv ∧ ccv.IsOn data.res ∧ ccv.Vanishes := by
  obtain ⟨stdev, hccv, hon⟩ := h.solved.exists_smoothedCurvature?
  refine ⟨_, hccv, hon, ?_⟩
  rw [h.values, ← h.solved.laid.res_eq]
  exact vanishes_filteredCurvature (vanishes_captured value _) _ _

/-- One or two climbs keep the constant. -/
theorem settles_solvePasses (h : r.IsUnderWay data settings ladder) :
    Leads (solvePasses channel tolerance) r
      (fun last after => r.Settles after data settings ladder channel value last data.res
        (List.replicate (if r.fit.twoPass then 2 else 1) (ladder.map .atOnce)).flatten)
      fun _ => False := by
  have hnone : ∀ c, (none : Option (Curvature ℝ)) = some c → c.IsOn data.res ∧ c.Vanishes :=
    fun c hc => absurd hc (Option.some_ne_none c).symm
  unfold solvePasses
  refine leads_bind (leads_fit ?_)
  by_cases htwo : r.fit.twoPass = true
  · rw [if_pos htwo, if_pos htwo]
    refine leads_bind ((settles_solveLadder hplain ht h false hnone).imp ?_)
    intro first after hfirst
    obtain ⟨ccv, hccv, hon⟩ := hfirst.exists_smoothedCurvature?
    have hsome : ∀ c, some ccv = some c → c.IsOn data.res ∧ c.Vanishes := by
      rintro c ⟨⟩
      exact hon
    refine leads_bind (leads_fit (leads_bind (leads_lift hccv ?_)))
    refine (settles_solveLadder hplain ht hfirst.solved.underWay true hsome).imp ?_
    intro last final hlast
    refine ⟨hlast.solved, hlast.values, ?_⟩
    rw [hlast.fit, hfirst.fit, List.append_assoc]
    simp
  · rw [if_neg htwo, if_neg htwo]
    refine (settles_solveLadder hplain ht h false hnone).imp ?_
    intro last after hlast
    simpa using hlast

/-- All passes over a channel keep the constant. -/
theorem settles_solveChannel (extra : ℕ) (h : r.IsUnderWay data settings ladder) :
    Leads (solveChannel channel tolerance extra) r
      (fun last after => r.Settles after data settings ladder channel value last data.res
        (List.replicate ((extra + 1) * if r.fit.twoPass then 2 else 1)
          (ladder.map .atOnce)).flatten) fun _ => False := by
  induction extra generalizing r with
  | zero =>
    rw [Nat.zero_add, Nat.one_mul]
    exact settles_solvePasses hplain ht h
  | succ extra ih =>
    refine leads_bind ((settles_solvePasses hplain ht h).imp ?_)
    intro level after hafter
    have hsolved := hafter.solved
    have hready := hsolved.underWay.ready
    have hmisfit := hsolved.posed.addMisfit?_eq hready.valid hplain.isChannel hsolved.laid.size_x
    rw [hsolved.posed.addMisfit_eq_self hsolved.laid hready.valid hplain.flat hafter.values]
      at hmisfit
    refine leads_bind (leads_fit (leads_bind (leads_lift hready.prepared?_eq (leads_bind
      (leads_lift hmisfit (leads_bind (leads_change ?_)))))))
    have hsame : ({ after with fit := { after.fit with prepared := some data } } : Running ℝ) =
        after := by
      rw [← hready.prepared]
    rw [hsame]
    refine (ih hsolved.underWay).imp fun last final hfinal => ?_
    refine ⟨hfinal.solved, hfinal.values, ?_⟩
    have htwo : after.fit.twoPass = r.fit.twoPass := by rw [hafter.fit]
    have hcount : ∀ k, (extra + 1 + 1) * k = k + (extra + 1) * k := fun k => by ring
    rw [hfinal.fit, htwo, hafter.fit, hcount, List.replicate_add, List.flatten_append,
      ← List.append_assoc]

end Steps

end GridSpline
