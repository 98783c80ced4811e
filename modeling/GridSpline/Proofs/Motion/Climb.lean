import Mathlib
import GridSpline.Proofs.Fit.Run
import GridSpline.Proofs.Motion.Made

/-!
# Solving the levels of a moved problem

All that happens to a level before its equations are solved happens alike to the level of the moved
problem: it is made, drawn to a captured curvature, and gets its equations and its first node
values. So does what happens to a solution afterwards, when its curvature is captured, filtered and
carried to other lattices. Solving itself is left out: its sweeps go through the nodes in the order
of their numbers.

## Main definitions

* `Level.equations?` — the part of solving a level up to its equations.
* `Relates.MovesCurvature` — curvature whose parts move with the axes and nodes.
* `Relates.IsSetUpAlike` — equations, first node values and captured curvature are the same up to
  the numbers of the nodes.
* `Relates.ClimbsAlike` — so they are for all levels on a lattice, and so are filtered and carried
  curvature.

## Main statements

* `solveLevel_eq` — a level is solved from its equations on.
* `Fit.IsMoved.climbsAlike` — the levels of a moved problem.
-/

namespace GridSpline

open Scalar Failure
open Matrix
open GridSpline.Lattice

/-! ## One level -/

/-- The part of solving a level up to its equations. -/
noncomputable def Level.equations? (fit : Fit ℝ) (res : List ℕ) (channel : ℤ) (secondPass : Bool)
    (ccv : Option (Curvature ℝ)) : Except (Failure ℝ) (Level ℝ) := do
  let level ← Level.make? fit res channel secondPass
  let level ← match ccv with
    | some c => do level.setCurvature? fit (← fit.grid?).res c
    | none => pure level
  level.setup? fit

/-- A level is solved from its equations on. -/
theorem solveLevel_eq (channel : ℕ) (secondPass : Bool) (ccv : Option (Curvature ℝ)) (tolerance : ℝ)
    (coarser : Option (Level ℝ)) (res : List ℕ) :
    solveLevel channel secondPass ccv tolerance coarser res = (do
      let fit ← FitM.fit
      let level ← Level.equations? fit res channel secondPass ccv
      let level ← level.seed? fit coarser
      let outcome := level.solve fit (some tolerance)
      if fit.verbose then FitM.notify outcome.notices
      let report ← outcome.result
      FitM.change fun f => { f with reports := f.reports ++ [report] }
      if fit.verbose then
        FitM.notify [.solved channel report.res report.error report.iterations]
      return { level with x := outcome.x }) := by
  have hlift : ∀ {β γ : Type} (x : Except (Failure ℝ) β) (f : β → Except (Failure ℝ) γ),
      (liftM (x >>= f) : FitM ℝ γ) = (liftM x >>= fun b => liftM (f b)) := by
    intro β γ x f
    cases x <;> rfl
  unfold solveLevel Level.equations?
  refine bind_congr fun fit => ?_
  cases ccv with
  | none => rw [hlift, bind_assoc]; rfl
  | some c => simp only [hlift, bind_assoc]; rfl

/-! ## Levels that are set up alike -/

namespace Rearrangement.Relates

variable {m : Rearrangement} {res res' : List ℕ} (rel : m.Relates res res')

/-- Curvature whose parts move with the axes and nodes. -/
def MovesCurvature (ccv ccv' : Curvature ℝ) : Prop :=
  ccv.IsOn res ∧ Moves m.axis (fun _ => rel.renumbered) ccv ccv'

/-- A level and that on the rearranged lattice: the equations, the first node values and captured
curvature are the same up to the numbers of the nodes. -/
structure IsSetUpAlike (fit fit' : Fit ℝ) (level level' : Level ℝ) : Prop where
  matrix : ∃ A A', level.matrix = some A ∧ level'.matrix = some A' ∧
    A'.toSparse.toMatrix (size res') (size res') =
      reindex rel.nodes rel.nodes (A.toSparse.toMatrix (size res) (size res))
  size_rhs : level.rhs.size = size res
  rhs : level'.rhs = rel.renumbered level.rhs
  scale : level'.scale = level.scale
  /-- The first node values without a coarser level. -/
  average : ∃ x, x.size = size res ∧ level.seed? fit none = .ok { level with x } ∧
    level'.seed? fit' none = .ok { level' with x := rel.renumbered x }
  /-- The first node values from a coarser level. -/
  coarser : ∀ (coarse coarse' : Level ℝ) (below : m.Relates coarse.res coarse'.res),
    coarse.res.length = res.length → coarse.x.size = size coarse.res →
    coarse'.x = below.renumbered coarse.x →
    ∃ x, x.size = size res ∧ level.seed? fit (some coarse) = .ok { level with x } ∧
      level'.seed? fit' (some coarse') = .ok { level' with x := rel.renumbered x }
  captured : ∀ x : Array ℝ, x.size = size res → ∃ ccv ccv',
    captureCurvature? level.res x level.spacing = .ok ccv ∧
    captureCurvature? level'.res (rel.renumbered x) level'.spacing = .ok ccv' ∧
    rel.MovesCurvature ccv ccv'

/-- The levels of two fits on a lattice and on the rearranged one, for all channels and passes,
which may be drawn to curvature on the final lattice; and curvature that is filtered there or
carried there from another lattice. -/
structure ClimbsAlike {final final' : List ℕ} (last : m.Relates final final') (fit fit' : Fit ℝ)
    (channels : ℕ) : Prop where
  levels : ∀ channel < channels, ∀ (secondPass : Bool) (target target' : Option (Curvature ℝ)),
    Option.Rel last.MovesCurvature target target' → ∃ level level',
      Level.equations? fit res channel secondPass target = .ok level ∧
      Level.equations? fit' res' channel secondPass target' = .ok level' ∧
      rel.IsSetUpAlike fit fit' level level'
  stdev : ∃ stdev, stdev ≠ 0 ∧ fit.filterStdev? = .ok stdev ∧ fit'.filterStdev? = .ok stdev
  filtered : ∀ stdev : ℝ, stdev ≠ 0 → ∀ ccv ccv', rel.MovesCurvature ccv ccv' → ∃ out out',
    filterCurvature? res stdev fit.symmetricDomain ccv = .ok out ∧
    filterCurvature? res' stdev fit'.symmetricDomain ccv' = .ok out' ∧ rel.MovesCurvature out out'
  downsampled : ∀ {source source' : List ℕ} (above : m.Relates source source'),
    source.length = res.length → ∀ ccv ccv', above.MovesCurvature ccv ccv' → ∃ out out',
      downsample? source res fit.symmetricDomain ccv = .ok out ∧
      downsample? source' res' fit'.symmetricDomain ccv' = .ok out' ∧ rel.MovesCurvature out out'

/-! ## Curvature -/

variable {rel}

theorem MovesCurvature.isOn' {ccv ccv' : Curvature ℝ} (h : rel.MovesCurvature ccv ccv') :
    ccv'.IsOn res' where
  axes := by rw [h.2.length_eq, h.1.axes, rel.length_eq]
  nodes p hp := by
    obtain ⟨e, x, -, rfl⟩ := h.2.exists_of_mem hp
    exact rel.size_renumbered x

variable (rel)

theorem exists_captureCurvature? (hne : res ≠ []) {x : Array ℝ} (hx : x.size = size res)
    {spacing spacing' : List (Option (List ℝ))}
    (hlen : List.Forall₂ (fun s r => ∀ l, s = some l → l.length = r) spacing res)
    (hlen' : List.Forall₂ (fun s r => ∀ l, s = some l → l.length = r) spacing' res')
    (hs : Moves m.axis m.turnSpacing spacing spacing') : ∃ ccv ccv',
      captureCurvature? res x spacing = .ok ccv ∧
      captureCurvature? res' (rel.renumbered x) spacing' = .ok ccv' ∧
      rel.MovesCurvature ccv ccv' :=
  ⟨_, _, captureCurvature?_eq hne hx hlen,
    captureCurvature?_eq (rel.ne_nil hne) (rel.size_renumbered x) hlen',
    ⟨length_captured res x spacing, fun _ hp => size_of_mem_captured hp⟩,
    rel.moves_captured hlen hs⟩

theorem exists_filterCurvature? (hne : res ≠ []) {stdev : ℝ} (hstdev : stdev ≠ 0)
    (symmetric : Bool) {ccv ccv' : Curvature ℝ} (h : rel.MovesCurvature ccv ccv') : ∃ out out',
      filterCurvature? res stdev symmetric ccv = .ok out ∧
      filterCurvature? res' stdev symmetric ccv' = .ok out' ∧ rel.MovesCurvature out out' := by
  refine ⟨_, _, filterCurvature?_eq hne rel.two_le hstdev symmetric h.1.nodes,
    filterCurvature?_eq (rel.ne_nil hne) rel.two_le' hstdev symmetric h.isOn'.nodes, ⟨?_, ?_⟩,
    rel.moves_filteredCurvature stdev symmetric h.2⟩
  · unfold filteredCurvature
    rw [List.length_map, h.1.axes]
  · intro p hp
    obtain ⟨q, hq, rfl⟩ := List.mem_map.mp hp
    exact size_filtered stdev _ (h.1.nodes q hq)

theorem exists_downsample? {source source' : List ℕ} (above : m.Relates source source')
    (hne : res ≠ []) (hlen : source.length = res.length) (symmetric : Bool) {ccv ccv' : Curvature ℝ}
    (h : above.MovesCurvature ccv ccv') : ∃ out out',
      downsample? source res symmetric ccv = .ok out ∧
      downsample? source' res' symmetric ccv' = .ok out' ∧ rel.MovesCurvature out out' := by
  have hlen' : source'.length = res'.length := by rw [above.length_eq, rel.length_eq, hlen]
  have hsource : source ≠ [] := by
    rintro rfl
    exact hne (List.length_eq_zero_iff.mp hlen.symm)
  exact ⟨_, _,
    downsample?_eq hlen hsource symmetric above.two_le rel.two_le h.1.axes h.1.nodes,
    downsample?_eq hlen' (above.ne_nil hsource) symmetric above.two_le' rel.two_le' h.isOn'.axes
      h.isOn'.nodes,
    ⟨length_downsampled hlen symmetric h.1.axes, fun _ hp => size_of_mem_downsampled symmetric hp⟩,
    above.moves_downsampled rel symmetric h.2⟩

end Rearrangement.Relates

/-! ## The levels of a moved problem -/

namespace Fit.IsMoved

variable {v : Motion} {fit fit' : Fit ℝ} {data data' : Prepared ℝ}
  (h : fit.IsMoved v fit' data data')

include h

theorem exists_filterStdev? : ∃ stdev, stdev ≠ 0 ∧ fit.filterStdev? = .ok stdev ∧
    fit'.filterStdev? = .ok stdev := by
  obtain ⟨stdev, hstdev, hne⟩ := h.ready.exists_filterStdev?
  have heq : fit'.filterStdev? = fit.filterStdev? := by
    unfold filterStdev?
    rw [h.settings]
  exact ⟨stdev, hne, hstdev, heq.trans hstdev⟩

theorem relates : v.rearrangement.Relates data.res data'.res where
  resolutions := h.data.res
  two_le := h.ready.valid.resolutions

variable {channel : ℕ}

/-- Levels that are made alike can be drawn to curvature that moves with the nodes. -/
theorem exists_setCurvature? {level level' : Level ℝ} (hlen : level.res.length = data.res.length)
    (hposed : level.IsPosed fit data channel) (hposed' : level'.IsPosed fit' data' channel)
    (hmoved : level.IsMoved v level') {ccv ccv' : Curvature ℝ}
    (hccv : h.relates.MovesCurvature ccv ccv') : ∃ bent bent',
      level.setCurvature? fit data.res ccv = .ok { level with ccv := some bent } ∧
      level'.setCurvature? fit' data'.res ccv' = .ok { level' with ccv := some bent' } ∧
      ({ level with ccv := some bent } : Level ℝ).IsPosed fit data channel ∧
      ({ level' with ccv := some bent' } : Level ℝ).IsPosed fit' data' channel ∧
      ({ level with ccv := some bent } : Level ℝ).IsMoved v { level' with ccv := some bent' } := by
  obtain ⟨bent, bent', hdown, hdown', hbent⟩ :=
    hmoved.lattice.exists_downsample? h.relates hposed.axes hlen.symm fit.symmetricDomain hccv
  have hon' := hbent.isOn'
  refine ⟨bent, bent', ?_, ?_, hposed.withCurvature hbent.1.axes hbent.1.nodes,
    hposed'.withCurvature hon'.axes hon'.nodes, { hmoved with ccv := .some hbent.2 }⟩
  · unfold Level.setCurvature?
    rw [hdown]
    rfl
  · unfold Level.setCurvature?
    rw [h.symmetricDomain, hdown']
    rfl

variable {res res' : List ℕ} (rel : v.rearrangement.Relates res res')
  (hlen : res.length = data.res.length) (hc : channel < data.channels)

include rel hlen hc

/-- The levels whose equations are set up. -/
theorem exists_equations? (secondPass : Bool) {target target' : Option (Curvature ℝ)}
    (htarget : Option.Rel h.relates.MovesCurvature target target') : ∃ level level' : Level ℝ,
      Level.equations? fit res channel secondPass target = level.setup? fit ∧
      Level.equations? fit' res' channel secondPass target' = level'.setup? fit' ∧
      level.IsPosed fit data channel ∧ level'.IsPosed fit' data' channel ∧
      level.IsLaidOn data res ∧ level'.IsLaidOn data' res' ∧ level.IsMoved v level' := by
  obtain ⟨level, level', hmake, hmake', hposed, hposed', hlaid, hlaid', hmoved⟩ :=
    h.exists_make? rel hlen hc secondPass
  unfold Level.equations?
  rw [hmake, hmake', ok_bind, ok_bind]
  cases htarget with
  | none => exact ⟨level, level', rfl, rfl, hposed, hposed', hlaid, hlaid', hmoved⟩
  | some hccv =>
    obtain ⟨g, hg, hres, -⟩ := h.ready.exists_grid?
    obtain ⟨g', hg', hres', -⟩ := h.ready'.exists_grid?
    obtain ⟨bent, bent', hset, hset', hbent, hbent', hmovedBent⟩ :=
      h.exists_setCurvature? (hlaid.res_eq ▸ hlen) hposed hposed' hmoved hccv
    simp only [hg, hg', ok_bind, hres, hres', hset, hset']
    exact ⟨_, _, rfl, rfl, hbent, hbent', { hlaid with }, { hlaid' with }, hmovedBent⟩

/-- What the equations and all that surrounds them have in common. -/
theorem exists_isSetUpAlike (secondPass : Bool) {target target' : Option (Curvature ℝ)}
    (htarget : Option.Rel h.relates.MovesCurvature target target') : ∃ level level',
      Level.equations? fit res channel secondPass target = .ok level ∧
      Level.equations? fit' res' channel secondPass target' = .ok level' ∧
      rel.IsSetUpAlike fit fit' level level' := by
  obtain ⟨level, level', hlevel, hlevel', hposed, hposed', hlaid, hlaid', hmoved⟩ :=
    h.exists_equations? rel hlen hc secondPass htarget
  have hres := hlaid.res_eq
  have hres' := hlaid'.res_eq
  subst hres hres'
  obtain ⟨A, b, A', scale, hsetup, hsetup', hsize, hmatrix⟩ :=
    hmoved.exists_setup? h hposed hlaid hposed' hlaid'
  obtain ⟨up, hup, hseeds⟩ := hposed.exists_isSetUp hlaid
  obtain ⟨up', hup', hseeds'⟩ := hposed'.exists_isSetUp hlaid'
  rw [hsetup, Except.ok.injEq] at hup
  rw [hsetup', Except.ok.injEq] at hup'
  subst hup hup'
  refine ⟨_, _, hlevel.trans hsetup, hlevel'.trans hsetup', {
    matrix := ⟨A, A', rfl, rfl, hmatrix⟩
    size_rhs := hsize
    rhs := rfl
    scale := rfl
    average := ⟨_, Array.size_replicate, hseeds.seed?_none h.ready.valid hc, ?_⟩
    coarser := fun coarse coarse' below hcount hx hx' => ?_
    captured := fun x hx => rel.exists_captureCurvature? hposed.axes hx hposed.stiffness.spacing
      hposed'.stiffness.spacing hmoved.spacing }⟩
  · rw [hseeds'.seed?_none h.ready'.valid (h.data.channels ▸ hc), rel.renumbered_replicate,
      h.data.average]
  · have hne : coarse.res ≠ [] := by
      intro hnil
      rw [hnil, List.length_nil] at hcount
      exact hposed.axes (List.length_eq_zero_iff.mp hcount.symm)
    obtain ⟨y, hy, hysize, hy'⟩ := below.exists_resample? rel hne hcount hx
    refine ⟨y, hysize, ?_, ?_⟩
    · unfold Level.seed?
      simp only
      rw [hy]
      rfl
    · unfold Level.seed?
      simp only
      rw [hx', hy']
      rfl

omit hc in
/-- The levels of a moved problem. -/
theorem climbsAlike : rel.ClimbsAlike h.relates fit fit' data.channels := by
  have hne := h.ready.valid.ne_nil hlen
  refine {
    levels := fun channel hc secondPass target target' htarget =>
      h.exists_isSetUpAlike rel hlen hc secondPass htarget
    stdev := h.exists_filterStdev?
    filtered := fun stdev hstdev ccv ccv' hccv => ?_
    downsampled := fun above hsource ccv ccv' hccv => ?_ }
  · rw [h.symmetricDomain]
    exact rel.exists_filterCurvature? hne hstdev _ hccv
  · rw [h.symmetricDomain]
    exact rel.exists_downsample? above hne hsource _ hccv

end Fit.IsMoved

end GridSpline
