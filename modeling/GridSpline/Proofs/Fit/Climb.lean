import Mathlib
import GridSpline.Proofs.Fit.Misfit
import GridSpline.Proofs.Fit.Running
import GridSpline.Proofs.Fit.Solved

/-!
# Climbing the ladder

Every level of a ladder is made, set up, given first node values and solved. All of this succeeds,
but for the solve: it fails if the lattice is too large to be solved at once and has a node that
nothing holds. Solving a level only adds to the reports. So the fit is as ready for the next level
as it was before, and the samples, the settings and the ladder stay what they are.

## Main definitions

* `Running.IsUnderWay` — what the steps of a run keep.
* `Prepared.HoldsLadder` — all nodes are held wherever it matters.
* `Prepared.MeetsFreeNode` — how a run fails.

## Main statements

* `leads_solveLevel` — what solving one level does.
* `leads_solveLadder` — what climbing the ladder does.
-/

namespace GridSpline

open Scalar Failure FitM
open GridSpline.Lattice

/-! ## What a run keeps -/

/-- A ladder of lattices over the domain of the samples. -/
structure Prepared.IsLadder (data : Prepared ℝ) (ladder : List (List ℕ)) : Prop where
  levels : ∀ res ∈ ladder, res.length = data.res.length ∧ ∀ r ∈ res, 2 ≤ r
  last : ladder.getLast? = some data.res

/-- No lattice of the ladder has two neighbours at one place. -/
def Prepared.KeepsAllApart (data : Prepared ℝ) (ladder : List (List ℕ)) : Prop :=
  ∀ res ∈ ladder, data.KeepsApart res

/-- All nodes are held on every lattice that is not solved at once. -/
def Prepared.HoldsLadder (data : Prepared ℝ) (settings : Settings ℝ)
    (ladder : List (List ℕ)) : Prop :=
  ∀ res ∈ ladder, IsLarge res → ∀ channel < data.channels, data.HoldsAll settings res channel

/-- How a run fails: some node is not held. -/
def Prepared.MeetsFreeNode (data : Prepared ℝ) (settings : Settings ℝ) (ladder : List (List ℕ))
    (e : Failure ℝ) : Prop :=
  e = .singular ∧ (data.KeepsAllApart ladder → ¬data.HoldsLadder settings ladder)

/-- What is known when a run goes on after a lattice, if lines are not relaxed. -/
def Prepared.Relaxes (data : Prepared ℝ) (settings : Settings ℝ) (res : List ℕ)
    (channel : ℕ) : Prop :=
  settings.lineSweeps = some (.integer 0) → data.KeepsApart res → IsLarge res →
    data.HoldsAll settings res channel

/-- A run that has got past its checks and laid its ladder. -/
structure Running.IsUnderWay (r : Running ℝ) (data : Prepared ℝ) (settings : Settings ℝ)
    (ladder : List (List ℕ)) : Prop where
  ready : r.fit.IsReady data
  settings : r.fit.settings = settings
  ladder : r.fit.ladder = ladder

/-- A run that has just solved a level. -/
structure Running.HasSolved (r : Running ℝ) (data : Prepared ℝ) (settings : Settings ℝ)
    (ladder : List (List ℕ)) (channel : ℕ) (level : Level ℝ) (res : List ℕ) : Prop where
  underWay : r.IsUnderWay data settings ladder
  posed : level.IsPosed r.fit data channel
  laid : level.IsLaidOn data res

theorem Prepared.IsLadder.ne_nil {data : Prepared ℝ} {ladder : List (List ℕ)}
    (h : data.IsLadder ladder) : ladder ≠ [] := by
  rintro rfl
  cases h.last

/-- Without spacings no two neighbours are at one place. -/
theorem Prepared.keepsAllApart_of_forall_none {data : Prepared ℝ}
    (h : ∀ s ∈ data.spacing, s = none) (ladder : List (List ℕ)) : data.KeepsAllApart ladder := by
  intro res _ s hs l hl
  obtain ⟨i, hi, rfl⟩ := List.mem_iff_getElem.mp hs
  simp only [Prepared.spacingOn, List.getElem_zipWith, Option.map_eq_some_iff] at hl
  obtain ⟨spacing, hspacing, -⟩ := hl
  rw [h _ (List.getElem_mem _)] at hspacing
  cases hspacing

namespace Prepared.IsRetargeted

variable {data next : Prepared ℝ} (h : data.IsRetargeted next) {settings : Settings ℝ}

include h

theorem holdsAll_iff {res : List ℕ} {channel : ℕ} :
    next.HoldsAll settings res channel ↔ data.HoldsAll settings res channel :=
  forall₂_congr fun i _ => h.holdsNode_iff settings res channel i

theorem keepsApart_iff {res : List ℕ} : next.KeepsApart res ↔ data.KeepsApart res := by
  unfold Prepared.KeepsApart
  rw [h.spacingOn]

theorem meetsFreeNode_iff {ladder : List (List ℕ)} {e : Failure ℝ} :
    next.MeetsFreeNode settings ladder e ↔ data.MeetsFreeNode settings ladder e := by
  unfold Prepared.MeetsFreeNode Prepared.KeepsAllApart Prepared.HoldsLadder
  simp only [h.channels, h.holdsAll_iff, h.keepsApart_iff]

theorem relaxes_iff {res : List ℕ} {channel : ℕ} :
    next.Relaxes settings res channel ↔ data.Relaxes settings res channel := by
  unfold Prepared.Relaxes
  rw [h.holdsAll_iff, h.keepsApart_iff]

theorem isLadder {ladder : List (List ℕ)} (hladder : data.IsLadder ladder) :
    next.IsLadder ladder where
  levels res hres := h.res.symm ▸ hladder.levels res hres
  last := h.res.symm ▸ hladder.last

end Prepared.IsRetargeted

section Steps

variable {r : Running ℝ} {data : Prepared ℝ} {settings : Settings ℝ} {ladder : List (List ℕ)}
  {channel : ℕ} {tolerance : ℝ}

namespace Running.IsUnderWay

theorem withReports (h : r.IsUnderWay data settings ladder) (reports : List (SolveReport ℝ)) :
    ({ r with fit := { r.fit with reports } } : Running ℝ).IsUnderWay data settings ladder :=
  ⟨{ h.ready with }, h.settings, h.ladder⟩

theorem withNotices (h : r.IsUnderWay data settings ladder) (notices : List (Notice ℝ)) :
    ({ r with notices } : Running ℝ).IsUnderWay data settings ladder :=
  ⟨h.ready, h.settings, h.ladder⟩

end Running.IsUnderWay

/-! ## One level -/

variable (hsamples : data.samples ≠ []) (hladder : data.IsLadder ladder)
  (hc : channel < data.channels) (ht : 0 ≤ tolerance)

include hsamples hladder hc ht

theorem leads_solvePosed (h : r.IsUnderWay data settings ladder) {coarser : Option (Level ℝ)}
    (hcoarser : ∀ c, coarser = some c → ∃ source ∈ ladder, c.IsLaidOn data source)
    {res : List ℕ} (hres : res ∈ ladder) {level : Level ℝ}
    (hposed : level.IsPosed r.fit data channel) (hlaid : level.IsLaidOn data res) :
    Leads (solvePosed channel tolerance coarser r.fit level) r
      (fun level after => after.HasSolved data settings ladder channel level res ∧
        data.Relaxes settings res channel)
      (data.MeetsFreeNode settings ladder) := by
  have hlen := (hladder.levels res hres).1
  have hsource : ∀ c, coarser = some c → ∃ source, c.IsLaidOn data source ∧
      source.length = res.length ∧ ∀ r ∈ source, 2 ≤ r := by
    intro c hsome
    obtain ⟨source, hmem, hcoarse⟩ := hcoarser c hsome
    obtain ⟨hcount, hbelow⟩ := hladder.levels source hmem
    exact ⟨source, hcoarse, hcount.trans hlen.symm, hbelow⟩
  obtain ⟨posed, hsetup, hup⟩ := hposed.exists_isSetUp hlaid
  obtain ⟨x, hseed, hx⟩ := hup.exists_seed? h.ready.valid hc hsource
  have hseeded := hup.withValues hx
  obtain ⟨hsize, hresult⟩ := hseeded.solve_cases h.ready hc hsamples ht
  rw [h.settings] at hresult
  unfold solvePosed
  refine leads_bind (leads_lift hsetup (leads_bind (leads_lift hseed ?_)))
  refine leads_notify_if ?_
  intro first
  rcases hresult with ⟨report, hok⟩ | ⟨hsingular, hlarge, hfree⟩
  · refine leads_bind (leads_lift hok (leads_bind (leads_change ?_)))
    refine leads_notify_if fun second => leads_pure ⟨⟨?_, ?_, ?_⟩, ?_⟩
    · exact ((h.withNotices first).withReports _).withNotices second
    · exact { (hseeded.withValues hsize).posed with }
    · exact (hseeded.withValues hsize).laid
    · intro hn hapart hlarge
      by_contra hfree
      rw [← h.settings] at hn hfree
      rw [hseeded.solve_eq_error h.ready hc hsamples ht hapart hn hlarge hfree] at hok
      cases hok
  · refine leads_bind (leads_lift_error hsingular ⟨rfl, ?_⟩)
    intro hapart hall
    exact hfree (hapart res hres) (hall res hres hlarge channel hc)

/-- What solving one level does. -/
theorem leads_solveLevel (h : r.IsUnderWay data settings ladder) (secondPass : Bool)
    {ccv : Option (Curvature ℝ)} (hccv : ∀ c, ccv = some c → c.IsOn data.res)
    {coarser : Option (Level ℝ)}
    (hcoarser : ∀ c, coarser = some c → ∃ source ∈ ladder, c.IsLaidOn data source)
    {res : List ℕ} (hres : res ∈ ladder) :
    Leads (solveLevel channel secondPass ccv tolerance coarser res) r
      (fun level after => after.HasSolved data settings ladder channel level res ∧
        data.Relaxes settings res channel)
      (data.MeetsFreeNode settings ladder) := by
  obtain ⟨hlen, htwo⟩ := hladder.levels res hres
  obtain ⟨made, hmake, hposed, hlaid, -⟩ := h.ready.exists_make? hlen htwo hc secondPass
  cases ccv with
  | none =>
    rw [solveLevel_none]
    exact leads_bind (leads_fit (leads_bind (leads_lift hmake
      (leads_solvePosed hsamples hladder hc ht h hcoarser hres hposed hlaid))))
  | some c =>
    obtain ⟨g, hgrid, hgres, -⟩ := h.ready.exists_grid?
    obtain ⟨bent, hbent, hposed', hlaid', -⟩ :=
      Level.exists_setCurvature? hposed hlaid h.ready.valid hlen (hccv c rfl)
    rw [← hgres] at hbent
    rw [solveLevel_some]
    exact leads_bind (leads_fit (leads_bind (leads_lift hmake (leads_bind (leads_lift hgrid
      (leads_bind (leads_lift hbent
        (leads_solvePosed hsamples hladder hc ht h hcoarser hres hposed' hlaid'))))))))

/-! ## All levels -/

/-- What the levels above a level do. -/
theorem leads_foldlM (secondPass : Bool) {ccv : Option (Curvature ℝ)}
    (hccv : ∀ c, ccv = some c → c.IsOn data.res) {levels : List (List ℕ)}
    (hlevels : ∀ res ∈ levels, res ∈ ladder) {level : Level ℝ} {source : List ℕ}
    (hsource : source ∈ ladder) (h : r.HasSolved data settings ladder channel level source) :
    Leads (levels.foldlM (fun coarser res =>
        some <$> solveLevel channel secondPass ccv tolerance coarser res) (some level)) r
      (fun last after => (∃ finest, last = some finest ∧
        after.HasSolved data settings ladder channel finest
          ((source :: levels).getLast (List.cons_ne_nil _ _))) ∧
        ∀ res ∈ levels, data.Relaxes settings res channel)
      (data.MeetsFreeNode settings ladder) := by
  induction levels generalizing r level source with
  | nil =>
    exact leads_pure ⟨⟨level, rfl, h⟩, fun res hres => absurd hres List.not_mem_nil⟩
  | cons res levels ih =>
    have hres : res ∈ ladder := hlevels res List.mem_cons_self
    have hcoarser : ∀ c, some level = some c → ∃ source ∈ ladder, c.IsLaidOn data source := by
      rintro c ⟨⟩
      exact ⟨source, hsource, h.laid⟩
    rw [List.foldlM_cons]
    refine leads_bind (leads_map ?_)
    refine (leads_solveLevel hsamples hladder hc ht h.underWay secondPass hccv hcoarser hres).imp ?_
    rintro next after ⟨hafter, hrelaxes⟩
    refine (ih (fun x hx => hlevels x (List.mem_cons_of_mem res hx)) hres hafter).imp ?_
    rintro last final ⟨⟨finest, hlast, hfinest⟩, hall⟩
    refine ⟨⟨finest, hlast, ?_⟩, ?_⟩
    · rw [List.getLast_cons (List.cons_ne_nil _ _)]
      exact hfinest
    · intro x hx
      rcases List.mem_cons.mp hx with rfl | hx
      · exact hrelaxes
      · exact hall x hx

/-- What climbing the ladder does. -/
theorem leads_solveLadder (h : r.IsUnderWay data settings ladder) (secondPass : Bool)
    {ccv : Option (Curvature ℝ)} (hccv : ∀ c, ccv = some c → c.IsOn data.res) :
    Leads (solveLadder channel secondPass ccv tolerance) r
      (fun level after => after.HasSolved data settings ladder channel level data.res ∧
        ∀ res ∈ ladder, data.Relaxes settings res channel)
      (data.MeetsFreeNode settings ladder) := by
  obtain ⟨first, levels, rfl⟩ := List.exists_cons_of_ne_nil hladder.ne_nil
  have hfirst : first ∈ first :: levels := List.mem_cons_self
  have hnone : ∀ c, (none : Option (Level ℝ)) = some c →
      ∃ source ∈ first :: levels, c.IsLaidOn data source :=
    fun c hc => absurd hc (Option.some_ne_none c).symm
  have hfinal : (first :: levels).getLast (List.cons_ne_nil _ _) = data.res := by
    have hlast := hladder.last
    rwa [List.getLast?_eq_getLast_of_ne_nil (List.cons_ne_nil _ _), Option.some.injEq] at hlast
  unfold solveLadder
  refine leads_bind (leads_fit (leads_bind ?_))
  rw [h.ladder, List.foldlM_cons]
  refine leads_bind (leads_map ?_)
  refine (leads_solveLevel hsamples hladder hc ht h secondPass hccv hnone hfirst).imp ?_
  rintro coarsest after ⟨hafter, hrelaxes⟩
  refine (leads_foldlM hsamples hladder hc ht secondPass hccv
    (fun res hres => List.mem_cons_of_mem first hres) hfirst hafter).imp ?_
  rintro last final ⟨⟨finest, hlast, hfinest⟩, hall⟩
  refine leads_require hlast ⟨hfinal ▸ hfinest, ?_⟩
  intro res hres
  rcases List.mem_cons.mp hres with rfl | hres
  · exact hrelaxes
  · exact hall res hres

end Steps

end GridSpline
