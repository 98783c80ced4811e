import Mathlib
import GridSpline.Proofs.Fit.NullSpace
import GridSpline.Proofs.Interpolation.MultiAffine

/-!
# Trends

A multi-affine trend passes through a fit unchanged. If it is added to the targets of all samples
and to the weak default, the matrix of the equations stays the same and the right-hand side grows by
what the matrix makes of the trend at the nodes, so the solutions grow by the trend. Second
differences do not see the trend, interpolation gives its value at every sample, and the weak
default is compared with it node by node.

## Main definitions

* `Residual.IsRaisedBy` — a weighted square drawn further by what its form makes of some node
  values.
* `Level.trend` — a map at the nodes of a level.
* `Level.IsRaisedBy` — levels of the same fit before and after a map is added.

## Main statements

* `pull_of_isRaisedBy`, `addSquares?_of_isRaisedBy` — what raised squares have in common.
* `IsPosed.exists_setup?_trend` — what adding a multi-affine map does to the equations of a level.
-/

namespace GridSpline

open Scalar Failure
open Matrix
open GridSpline.Lattice

/-! ## Raised squares -/

section Squares

variable {n : ℕ} {r r' : Residual ℝ} {rs rs' : List (Residual ℝ)} {x : Fin n → ℝ}

/-- A weighted square that is drawn further by what its form makes of some node values. -/
structure Residual.IsRaisedBy (x : Fin n → ℝ) (r r' : Residual ℝ) : Prop where
  weight : r'.weight = r.weight
  base : r'.base = r.base
  terms : r'.terms = r.terms
  aim : r'.aim = r.aim + r.form n ⬝ᵥ x

namespace Residual.IsRaisedBy

theorem refl (h : r.form n ⬝ᵥ x = 0) : r.IsRaisedBy x r where
  weight := rfl
  base := rfl
  terms := rfl
  aim := by rw [h, add_zero]

variable (h : r.IsRaisedBy x r')

include h

theorem form_eq : r'.form n = r.form n := by
  unfold form
  rw [h.base, h.terms]

theorem slope_eq_slope : r'.slope = r.slope := by
  rw [r'.slope_eq, r.slope_eq, h.weight]

theorem addSquare?_eq (A : PackedMatrix ℝ) : A.addSquare? r' = A.addSquare? r := by
  unfold PackedMatrix.addSquare?
  rw [h.base, h.terms, h.slope_eq_slope]

end Residual.IsRaisedBy

theorem vecMulVec_self_mulVec (a x : Fin n → ℝ) : vecMulVec a a *ᵥ x = (a ⬝ᵥ x) • a := by
  rw [vecMulVec_mulVec, op_smul_eq_smul]

/-- Raised squares pull further by what the matrix makes of the node values. -/
theorem pull_of_isRaisedBy (h : List.Forall₂ (Residual.IsRaisedBy x) rs rs') :
    pull n rs' = pull n rs + hessian n rs *ᵥ x := by
  induction h with
  | nil => simp [pull, hessian]
  | @cons r r' rs rs' hr _ ih =>
    rw [pull_cons, pull_cons, hessian_cons, ih, hr.form_eq, hr.slope_eq_slope, hr.aim, add_mulVec,
      smul_mulVec, vecMulVec_self_mulVec, smul_smul, mul_add, add_smul]
    abel

/-- The matrix does not depend on what squares are drawn to. -/
theorem addSquares?_of_isRaisedBy (h : List.Forall₂ (Residual.IsRaisedBy x) rs rs')
    (A : PackedMatrix ℝ) : A.addSquares? rs' = A.addSquares? rs := by
  unfold PackedMatrix.addSquares?
  induction h generalizing A with
  | nil => rfl
  | cons hr _ ih =>
    rw [List.foldlM_cons, List.foldlM_cons, hr.addSquare?_eq]
    exact congrArg _ (funext ih)

/-- The squares of a weak default are raised by what is added to its values. -/
theorem forall₂_weakSquares {v v' : ℕ → ℝ} (hv : ∀ i : Fin n, v' i = v i + x i) (w : ℝ) :
    List.Forall₂ (Residual.IsRaisedBy x) (weakSquares w ((List.range n).map v))
      (weakSquares w ((List.range n).map v')) := by
  unfold weakSquares
  refine List.forall₂_iff_get.mpr ⟨by simp, fun i h1 h2 => ?_⟩
  have hi : i < n := by simpa using h1
  simp only [List.get_eq_getElem, List.getElem_map, List.getElem_zipIdx, List.getElem_range,
    Nat.zero_add]
  refine ⟨rfl, rfl, rfl, ?_⟩
  rw [form_node x ⟨i, hi⟩]
  exact hv ⟨i, hi⟩

/-- Node values that meet what every square is drawn to solve the equations. -/
theorem hessian_mulVec_eq_pull_of_forall (h : ∀ r ∈ rs, r.form n ⬝ᵥ x = r.aim) :
    hessian n rs *ᵥ x = pull n rs := by
  induction rs with
  | nil => simp [pull, hessian]
  | cons r rs ih =>
    rw [hessian_cons, pull_cons, add_mulVec, smul_mulVec, vecMulVec_self_mulVec,
      h r List.mem_cons_self, smul_smul, ih fun s hs => h s (List.mem_cons_of_mem r hs)]

end Squares

namespace Level

/-! ## A map at the nodes -/

/-- A map at the nodes of a level. -/
noncomputable def trend (level : Level ℝ) (g : List ℝ → ℝ) : Fin (size level.res) → ℝ :=
  fun i => g (level.positionOf i)

theorem trend_eq (level : Level ℝ) (g : List ℝ → ℝ) :
    level.trend g = nodeTrend level.res level.low level.width g := by
  funext i
  unfold trend positionOf nodeTrend boxPoint
  rw [List.zipWith_map_left]

/-- Nodes are spread evenly along every axis. -/
structure IsEven (level : Level ℝ) : Prop where
  spacing : ∀ s ∈ level.spacing, s = none
  width : ∀ w ∈ level.width, w ≠ 0

namespace IsPosed

variable {level : Level ℝ} {fit : Fit ℝ} {data : Prepared ℝ} {channel : ℕ} {g : List ℝ → ℝ}
  (h : level.IsPosed fit data channel)

include h

section Forms

variable (heven : level.IsEven) (hg : IsMultiAffineMap level.res.length g)

include heven hg

/-- Second differences do not see the map. -/
theorem form_stiff_trend {r : Residual ℝ} (hr : r ∈ level.stiffSquares data channel) :
    r.form (size level.res) ⬝ᵥ level.trend g = 0 := by
  have hpos : ∀ r ∈ level.res, 0 < r := fun r hr => by
    have := h.resolutions r hr
    omega
  obtain ⟨l, hl, hmem⟩ := List.mem_flatten.mp hr
  obtain ⟨a, ha, rfl⟩ := List.mem_map.mp hl
  obtain ⟨i, hi, rfl⟩ := List.mem_map.mp hmem
  have hnone := heven.spacing _ (h.spacing_getD_mem ha).1
  rw [trend_eq, hnone]
  refine (isAffineAlong_nodeTrend hg hpos h.low h.width ha).form_eq_zero
    (stride_pos one_pos hpos ha) ?_ ?_ _ _ (List.mem_reverse.mp hi)
  · exact fun l hl => absurd hl (Option.some_ne_none l).symm
  · exact fun l hl => absurd hl (Option.some_ne_none l).symm

/-- Interpolation gives the value of the map at a sample. -/
theorem form_sample_trend {s : Sample ℝ} (hs : s ∈ data.samples) :
    (level.sampleSquare channel s).form (size level.res) ⬝ᵥ level.trend g = g s.position := by
  have hpoint := dotProduct_nodeTrend_ofPoint hg h.axes h.resolutions h.low h.width heven.width
    (h.positions s hs)
  rw [trend_eq]
  unfold Residual.form sampleSquare sampleResidual cellOf
  simp only
  rw [h.cornerOffsets]
  exact hpoint

end Forms

/-- The matrix of the equations is made of the squares. -/
theorem addSquares?_of_setup? {A : PackedMatrix ℝ} {b : Array ℝ} {scale : ℝ}
    (hsetup : level.setup? fit = .ok { level with matrix := some A, rhs := b, scale }) :
    (PackedMatrix.zero level.res : PackedMatrix ℝ).addSquares?
      (level.squaresOf fit data channel).all = .ok A := by
  unfold setup? at hsetup
  rw [h.squares?_eq, ok_bind] at hsetup
  simp only [bind_eq_ok, pure_eq_ok] at hsetup
  obtain ⟨-, -, _, -, _, -, M, hM, heq⟩ := hsetup
  have hmatrix := congrArg Level.matrix heq
  simp only [Option.some.injEq] at hmatrix
  rw [hM, hmatrix]

end IsPosed

/-! ## Adding a map -/

/-- Levels of the same fit before and after a map is added to the targets of the samples and to the
weak default. The stiffness may be another one if it counts the same. -/
structure IsRaisedBy (g : List ℝ → ℝ) (channel : ℕ) (level level' : Level ℝ) (fit fit' : Fit ℝ)
    (data data' : Prepared ℝ) : Prop where
  res : level'.res = level.res
  low : level'.low = level.low
  width : level'.width = level.width
  spacing : level'.spacing = level.spacing
  ccv : level'.ccv = level.ccv
  stiffness : level'.stiffness.map (· * data'.rangeOf channel) =
    level.stiffness.map (· * data.rangeOf channel)
  samples : List.Forall₂ (fun s s' => s'.position = s.position ∧
    s'.weightIn channel = s.weightIn channel ∧
    s'.targetIn channel = s.targetIn channel + g s.position) data.samples data'.samples
  weak : fit'.settings.weak = fit.settings.weak
  weakFunction : Option.Rel (fun f f' => ∀ p : List ℝ, p.length = level.res.length →
    f'.value channel p = f.value channel p + g p) fit.settings.weakFunction
    fit'.settings.weakFunction

section Raised

variable {level level' : Level ℝ} {fit fit' : Fit ℝ} {data data' : Prepared ℝ} {channel : ℕ}
  {g : List ℝ → ℝ} (h : level.IsPosed fit data channel) (h' : level'.IsPosed fit' data' channel)
  (hr : IsRaisedBy g channel level level' fit fit' data data')

include h hr

theorem forall₂_weakSquaresOf : List.Forall₂ (Residual.IsRaisedBy (level.trend g))
    (level.weakSquaresOf fit channel) (level'.weakSquaresOf fit' channel) := by
  have hposition : level'.positionOf = level.positionOf := by
    funext i
    unfold positionOf
    rw [hr.res, hr.low, hr.width]
  have hfunction := hr.weakFunction
  unfold weakSquaresOf
  rw [hr.weak, hr.res, hposition]
  revert hfunction
  generalize fit.settings.weakFunction = f
  generalize fit'.settings.weakFunction = f'
  intro hfunction
  cases hfunction with
  | none => exact .nil
  | some hvalue =>
    cases fit.settings.weak with
    | none => exact .nil
    | some w => exact forall₂_weakSquares (fun i => hvalue _ (h.length_positionOf i)) _

include h'

theorem forall₂_sampleSquares (heven : level.IsEven) (hg : IsMultiAffineMap level.res.length g) :
    List.Forall₂ (Residual.IsRaisedBy (level.trend g))
      (data.samples.map (level.sampleSquare channel))
      (data'.samples.map (level'.sampleSquare channel)) := by
  have hcorners : level'.cornerOffsets = level.cornerOffsets := by
    rw [h'.cornerOffsets, h.cornerOffsets, hr.res]
  have hmem := (List.forall₂_and_left _ _).mpr
    ⟨fun s (hs : s ∈ data.samples) => hs, hr.samples⟩
  rw [List.forall₂_map_left_iff, List.forall₂_map_right_iff]
  refine hmem.imp ?_
  rintro s s' ⟨hs, hposition, hweight, htarget⟩
  have hcell : level'.cellOf s' = level.cellOf s := by
    unfold cellOf
    rw [hr.res, hr.low, hr.width, hposition]
  refine ⟨hweight, congrArg Cell.base hcell, ?_, ?_⟩
  · unfold sampleSquare sampleResidual
    simp only [hcorners, hcell]
  · rw [h.form_sample_trend heven hg hs]
    exact htarget

/-- The squares of the level are raised by the map at its nodes. -/
theorem forall₂_squaresOf (heven : level.IsEven) (hg : IsMultiAffineMap level.res.length g) :
    List.Forall₂ (Residual.IsRaisedBy (level.trend g)) (level.squaresOf fit data channel).all
      (level'.squaresOf fit' data' channel).all := by
  have hstiff : level'.stiffSquares data' channel = level.stiffSquares data channel := by
    unfold stiffSquares
    rw [hr.res, hr.stiffness, hr.spacing, hr.ccv]
  unfold Squares.all squaresOf
  simp only [hstiff]
  refine List.rel_append ?_ (List.rel_append (forall₂_weakSquaresOf h hr)
    (forall₂_sampleSquares h h' hr heven hg))
  refine List.forall₂_same.mpr ?_
  intro r hmem
  exact .refl (h.form_stiff_trend heven hg hmem)

end Raised

/-! ## The equations -/

/-- What a square of the weak default is made of. -/
theorem exists_eq_of_mem_weakSquaresOf {level : Level ℝ} {fit : Fit ℝ} {channel : ℕ}
    {r : Residual ℝ} (hr : r ∈ level.weakSquaresOf fit channel) :
    ∃ f, fit.settings.weakFunction = some f ∧ ∃ (i : Fin (size level.res)) (weight : ℝ),
      r = { weight, base := (i : ℤ), terms := [(0, 1)],
            target := some (f.value channel (level.positionOf i)) } := by
  unfold weakSquaresOf at hr
  split at hr
  · rename_i f w hf _
    obtain ⟨⟨v, i⟩, hmem, rfl⟩ := List.mem_map.mp hr
    rw [List.mk_mem_zipIdx_iff_getElem?, List.getElem?_map, Option.map_eq_some_iff] at hmem
    obtain ⟨j, hj, rfl⟩ := hmem
    obtain ⟨hi, rfl⟩ := List.getElem?_eq_some_iff.mp hj
    rw [List.length_range] at hi
    rw [List.getElem_range]
    exact ⟨f, hf, ⟨i, hi⟩, _, rfl⟩
  · exact absurd hr List.not_mem_nil

/-- Every square of a level is met by a map that all its targets lie on. -/
theorem IsPosed.form_trend_eq_aim {level : Level ℝ} {fit : Fit ℝ} {data : Prepared ℝ} {channel : ℕ}
    {g : List ℝ → ℝ} (h : level.IsPosed fit data channel) (heven : level.IsEven)
    (hg : IsMultiAffineMap level.res.length g) (hcurvature : ∀ a i, level.curvatureTarget a i = 0)
    (htargets : ∀ s ∈ data.samples, s.targetIn channel = g s.position)
    (hweak : ∀ f, fit.settings.weakFunction = some f →
      ∀ p : List ℝ, p.length = level.res.length → f.value channel p = g p)
    {r : Residual ℝ} (hr : r ∈ (level.squaresOf fit data channel).all) :
    r.form (size level.res) ⬝ᵥ level.trend g = r.aim := by
  rcases List.mem_append.mp hr with hstiff | hrest
  · rw [h.form_stiff_trend heven hg hstiff]
    obtain ⟨l, hl, hmem⟩ := List.mem_flatten.mp hstiff
    obtain ⟨a, -, rfl⟩ := List.mem_map.mp hl
    obtain ⟨i, -, rfl⟩ := List.mem_map.mp hmem
    exact (hcurvature a i).symm.trans (getD_targetsAlong level a i).symm
  · rcases List.mem_append.mp hrest with hnode | hsample
    · obtain ⟨f, hf, i, w, rfl⟩ := exists_eq_of_mem_weakSquaresOf hnode
      rw [form_node]
      exact (hweak f hf _ (h.length_positionOf i)).symm
    · obtain ⟨s, hs, rfl⟩ := List.mem_map.mp hsample
      rw [h.form_sample_trend heven hg hs]
      exact (htargets s hs).symm

/-- What adding a multi-affine map does to the equations of a level: the matrix stays the same, and
the right-hand side grows by what the matrix makes of the map at the nodes. So the solutions grow by
the map, and the map itself is a solution if all targets lie on it. -/
theorem IsPosed.exists_setup?_trend {level level' : Level ℝ} {fit fit' : Fit ℝ}
    {data data' : Prepared ℝ} {channel : ℕ} {g : List ℝ → ℝ}
    (h : level.IsPosed fit data channel) (h' : level'.IsPosed fit' data' channel)
    (heven : level.IsEven) (hg : IsMultiAffineMap level.res.length g)
    (hr : IsRaisedBy g channel level level' fit fit' data data') : ∃ A b scale b' scale',
    level.setup? fit = .ok { level with matrix := some A, rhs := b, scale } ∧
    level'.setup? fit' = .ok { level' with matrix := some A, rhs := b', scale := scale' } ∧
    vectorOf (size level.res) b' = vectorOf (size level.res) b +
      A.toSparse.toMatrix (size level.res) (size level.res) *ᵥ level.trend g ∧
    (∀ x, A.toSparse.toMatrix (size level.res) (size level.res) *ᵥ x =
        vectorOf (size level.res) b ↔
      A.toSparse.toMatrix (size level.res) (size level.res) *ᵥ (x + level.trend g) =
        vectorOf (size level.res) b') ∧
    ((∀ a i, level.curvatureTarget a i = 0) →
      (∀ s ∈ data.samples, s.targetIn channel = g s.position) →
      (∀ f, fit.settings.weakFunction = some f →
        ∀ p : List ℝ, p.length = level.res.length → f.value channel p = g p) →
      A.toSparse.toMatrix (size level.res) (size level.res) *ᵥ level.trend g =
        vectorOf (size level.res) b) := by
  have hsquares := forall₂_squaresOf h h' hr heven hg
  obtain ⟨A, b, scale, hsetup, -, -, hmatrix, hrhs⟩ := h.exists_setup?
  obtain ⟨A', b', scale', hsetup', -, -, -, hrhs'⟩ := h'.exists_setup?
  have hsame : A' = A := by
    have hA := h.addSquares?_of_setup? hsetup
    have hA' := h'.addSquares?_of_setup? hsetup'
    rw [hr.res, addSquares?_of_isRaisedBy hsquares, hA, Except.ok.injEq] at hA'
    exact hA'.symm
  subst hsame
  have hshift : vectorOf (size level.res) b' = vectorOf (size level.res) b +
      A'.toSparse.toMatrix (size level.res) (size level.res) *ᵥ level.trend g := by
    rw [hr.res] at hrhs'
    rw [hrhs', hrhs, hmatrix, pull_of_isRaisedBy hsquares]
  refine ⟨A', b, scale, b', scale', hsetup, hsetup', hshift, ?_, ?_⟩
  · intro x
    rw [hshift, mulVec_add, add_left_inj]
  · intro hcurvature htargets hweak
    rw [hmatrix, hrhs]
    exact hessian_mulVec_eq_pull_of_forall fun r hmem =>
      h.form_trend_eq_aim heven hg hcurvature htargets hweak hmem

/-! ## A single sample -/

/-- A map that is affine in each of two coordinates, but not in both together. -/
noncomputable def saddle (p : List ℝ) : ℝ :=
  1 + p.getD 0 0 - p.getD 1 0 + p.getD 0 0 * p.getD 1 0

theorem isMultiAffineMap_saddle : IsMultiAffineMap 2 saddle := by
  intro p hp e he
  obtain ⟨x, y, rfl⟩ := List.length_eq_two.mp hp
  obtain rfl | rfl : e = 0 ∨ e = 1 := by omega
  · refine ⟨1 - y, 1 + y, fun t => ?_⟩
    simp only [saddle, List.set_cons_zero, List.getD_cons_zero, List.getD_cons_succ]
    ring
  · refine ⟨1 + x, x - 1, fun t => ?_⟩
    simp only [saddle, List.set_cons_succ, List.set_cons_zero, List.getD_cons_zero,
      List.getD_cons_succ]
    ring

/-- The single sample with the map added to its target. -/
noncomputable def narrowRaised : Prepared ℝ :=
  { Fit.narrowData with
    samples := [{ position := [0, 0], values := [1], weights := [1],
                  targets := [1 + saddle [0, 0]] }] }

/-- The map is added to a single sample. -/
theorem exists_trend_narrow :
    let fit := Fit.narrow.begun Fit.narrowSettings Fit.narrowData []
    ∃ level, make? fit [3, 4] 0 false = .ok level ∧
      ∃ A b scale b' scale',
        level.setup? fit = .ok { level with matrix := some A, rhs := b, scale } ∧
        level.setup? { fit with prepared := some narrowRaised } =
          .ok { level with matrix := some A, rhs := b', scale := scale' } ∧
        vectorOf (size level.res) b' = vectorOf (size level.res) b +
          A.toSparse.toMatrix (size level.res) (size level.res) *ᵥ level.trend saddle ∧
        ∀ x, A.toSparse.toMatrix (size level.res) (size level.res) *ᵥ x =
            vectorOf (size level.res) b ↔
          A.toSparse.toMatrix (size level.res) (size level.res) *ᵥ (x + level.trend saddle) =
            vectorOf (size level.res) b' := by
  intro fit
  have hlen : [3, 4].length = Fit.narrowData.res.length := rfl
  have hready : fit.IsReady Fit.narrowData := Fit.isAccepted_narrow.isReady_begun []
  obtain ⟨level, hmake, hposed, hlaid, -⟩ :=
    hready.exists_make? hlen (by decide) Nat.one_pos false
  have hraised : level.IsPosed { fit with prepared := some narrowRaised } narrowRaised 0 :=
    { hposed with
      prepared := rfl
      positions := by simpa [narrowRaised, Fit.narrowData] using hposed.positions
      weights := by simp [narrowRaised]
      targets := by simp [narrowRaised]
      range := hposed.range
      bases := hposed.bases
      cornerWeights := hposed.cornerWeights }
  have heven : level.IsEven := by
    constructor
    · rw [hlaid.spacing]
      simp [Prepared.spacingOn, Fit.narrowData]
    · rw [hlaid.width]
      norm_num [Grid.cellWidths, Fit.narrowData]
  have hg : IsMultiAffineMap level.res.length saddle := by
    rw [hlaid.res_eq]
    exact isMultiAffineMap_saddle
  have hr : IsRaisedBy saddle 0 level level fit { fit with prepared := some narrowRaised }
      Fit.narrowData narrowRaised :=
    { res := rfl, low := rfl, width := rfl, spacing := rfl, ccv := rfl, stiffness := rfl
      samples := .cons ⟨rfl, rfl, rfl⟩ .nil
      weak := rfl
      weakFunction := .none }
  obtain ⟨A, b, scale, b', scale', hsetup, hsetup', hshift, hsolves, -⟩ :=
    hposed.exists_setup?_trend hraised heven hg hr
  exact ⟨level, hmake, A, b, scale, b', scale', hsetup, hsetup', hshift, hsolves⟩

end Level

end GridSpline
