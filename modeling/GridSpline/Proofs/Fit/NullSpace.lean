import Mathlib
import GridSpline.Proofs.Equations.Affine
import GridSpline.Proofs.Fit.Energy
import GridSpline.Proofs.Fit.Pivot

/-!
# What the equations of a level cannot see

On a level with interior nodes along every axis the second differences see everything but node
values that are affine along every grid line. What the equations take to zero are those of them that
also vanish at all samples. So the equations have more than one solution only if the samples do not
determine such multi-affine node values, and a weak default that counts leaves no room at all.

## Main definitions

* `Level.IsStiff` — a level whose second differences all count.
* `Level.IsMultiAffine` — node values that are affine along every grid line.

## Main statements

* `IsPosed.hessian_mulVec_eq_zero_iff_isMultiAffine` — the null space without a weak default.
* `IsPosed.eq_zero_of_hasDefault` — with one that counts there is none.
* `IsPosed.exists_setup?_nullSpace` — the same for the equations that are set up.
-/

namespace GridSpline

open Matrix
open GridSpline.Lattice

namespace Level

/-- A level whose second differences all count: there are interior nodes along every axis, the
places of the nodes are in order, and the stiffness is positive. -/
structure IsStiff (level : Level ℝ) (data : Prepared ℝ) (channel : ℕ) : Prop where
  resolutions : ∀ r ∈ level.res, 3 ≤ r
  spacing : ∀ s ∈ level.spacing, IsMonotoneSpacing s
  stiffness : ∀ w ∈ level.stiffness, 0 < w * data.rangeOf channel

/-- Along every grid line the node values are affine in the places of the nodes. -/
def IsMultiAffine (level : Level ℝ) (x : Fin (size level.res) → ℝ) : Prop :=
  ∀ a ∈ Lattice.axes level.res, IsAffineAlong level.res a (level.spacing.getD a.index none) x

namespace IsPosed

variable {level : Level ℝ} {fit : Fit ℝ} {data : Prepared ℝ} {channel : ℕ}
  (h : level.IsPosed fit data channel)

include h

/-! ## Second differences -/

theorem spacing_getD_mem {a : Axis} (ha : a ∈ Lattice.axes level.res) :
    level.spacing.getD a.index none ∈ level.spacing ∧
      ∀ l, level.spacing.getD a.index none = some l → l.length = a.count := by
  obtain ⟨hlt, hcount⟩ := List.getElem?_eq_some_iff.mp (getElem?_index ha)
  have hindex : a.index < level.spacing.length := by rwa [h.stiffness.spacing.length_eq]
  have hlen := h.stiffness.spacing.get hindex hlt
  simp only [List.get_eq_getElem, hcount] at hlen
  rw [List.getD_eq_getElem _ _ hindex]
  exact ⟨List.getElem_mem hindex, hlen⟩

theorem weight_pos_of_isStiff (hstiff : level.IsStiff data channel) {r : Residual ℝ}
    (hr : r ∈ level.stiffSquares data channel) : 0 < r.weight := by
  obtain ⟨l, hl, hmem⟩ := List.mem_flatten.mp hr
  obtain ⟨a, ha, rfl⟩ := List.mem_map.mp hl
  obtain ⟨c, hc, rfl⟩ := List.mem_map.mp hmem
  have hlt : a.index < level.stiffness.length := h.stiffness.weights.symm ▸ index_lt ha
  show 0 < edgeWeight (Lattice.axes level.res) a _ c
  rw [edgeWeight_pos_iff h.resolutions (mem_interior.mp (List.mem_reverse.mp hc)).2,
    List.getD_eq_getElem _ _ (by rwa [List.length_map]), List.getElem_map]
  exact hstiff.stiffness _ (List.getElem_mem hlt)

/-- No second difference sees the node values that are affine along every grid line, and only
those. -/
theorem isMultiAffine_iff (hstiff : level.IsStiff data channel) (x : Fin (size level.res) → ℝ) :
    level.IsMultiAffine x ↔
      ∀ r ∈ level.stiffSquares data channel, r.form (size level.res) ⬝ᵥ x = 0 := by
  have haxis : ∀ a ∈ Lattice.axes level.res,
      (IsAffineAlong level.res a (level.spacing.getD a.index none) x ↔
        ∀ r ∈ stiffnessAlong level.res (level.stiffness.map (· * data.rangeOf channel))
          level.spacing level.ccv a, r.form (size level.res) ⬝ᵥ x = 0) := by
    intro a ha
    obtain ⟨hmem, hlen⟩ := h.spacing_getD_mem ha
    rw [isAffineAlong_iff hstiff.resolutions ha (hstiff.spacing _ hmem) hlen
      ((level.stiffness.map (· * data.rangeOf channel)).getD a.index 0) (targetsAlong level.ccv a)]
    unfold stiffnessAlong
    simp only [List.forall_mem_map, List.mem_reverse]
  unfold IsMultiAffine stiffSquares
  simp only [List.forall_mem_flatten, List.forall_mem_map]
  exact forall₂_congr haxis

/-! ## Samples and the weak default -/

section Channel

variable (channel)

theorem forms_samples_eq_zero_iff (x : Fin (size level.res) → ℝ) :
    (∀ r ∈ data.samples.map (level.sampleSquare channel), r.form (size level.res) ⬝ᵥ x = 0) ↔
      ∀ m, (level.sampleMatrix data *ᵥ x) m = 0 := by
  rw [List.forall_mem_map]
  constructor
  · intro hzero m
    rw [h.interpolation_mulVec]
    exact hzero _ (List.getElem_mem m.isLt)
  · intro hzero s hs
    obtain ⟨i, hi, rfl⟩ := List.mem_iff_getElem.mp hs
    have := hzero ⟨i, hi⟩
    rwa [h.interpolation_mulVec] at this

/-- A weak default that counts sees every node by itself. -/
theorem exists_weak_form (hdefault : fit.settings.HasDefault) (i : Fin (size level.res)) :
    ∃ r ∈ level.weakSquaresOf fit channel, 0 < r.weight ∧
      ∀ x : Fin (size level.res) → ℝ, r.form (size level.res) ⬝ᵥ x = x i := by
  obtain ⟨f, w, hf, hw, hpos⟩ := hdefault
  have hvalue : (f.value channel (level.positionOf i), (i : ℕ)) ∈
      ((List.range (size level.res)).map fun i => f.value channel (level.positionOf i)).zipIdx := by
    rw [List.mk_mem_zipIdx_iff_getElem?, List.getElem?_map, List.getElem?_range i.isLt,
      Option.map_some]
  unfold weakSquaresOf
  rw [hf, hw]
  refine ⟨_, List.mem_map_of_mem hvalue, ?_, fun x => form_node x i _ _⟩
  exact (weakNodeWeight_pos_iff h.size_pos (List.length_pos_iff.mpr h.axes)).mpr hpos

end Channel

/-! ## The null space -/

section Weighted

variable (hw : level.IsWeighted fit data channel)

include hw

/-- Without a weak default the equations take to zero the node values that are affine along every
grid line and vanish at all samples. -/
theorem hessian_mulVec_eq_zero_iff_isMultiAffine (hstiff : level.IsStiff data channel)
    (hnone : fit.settings.weakFunction = none) (x : Fin (size level.res) → ℝ) :
    hessian (size level.res) (level.squaresOf fit data channel).all *ᵥ x = 0 ↔
      level.IsMultiAffine x ∧ ∀ m, (level.sampleMatrix data *ᵥ x) m = 0 := by
  have hweak : level.weakSquaresOf fit channel = [] := by
    unfold weakSquaresOf
    rw [hnone]
  rw [hessian_mulVec_eq_zero_iff fun r hr => h.weight_nonneg hw hr, h.isMultiAffine_iff hstiff,
    ← h.forms_samples_eq_zero_iff channel]
  simp only [Squares.all, squaresOf, hweak, List.nil_append, List.forall_mem_append]
  refine and_congr (forall₂_congr fun r hr => ?_) (forall₂_congr fun r hr => ?_)
  · exact forall_prop_of_true (h.weight_pos_of_isStiff hstiff hr)
  · obtain ⟨s, hs, rfl⟩ := List.mem_map.mp hr
    exact forall_prop_of_true (hw.samples s hs)

/-- With a weak default that counts the equations take nothing else to zero. -/
theorem eq_zero_of_hasDefault (hdefault : fit.settings.HasDefault) {x : Fin (size level.res) → ℝ}
    (hx : hessian (size level.res) (level.squaresOf fit data channel).all *ᵥ x = 0) : x = 0 := by
  rw [hessian_mulVec_eq_zero_iff fun r hr => h.weight_nonneg hw hr] at hx
  funext i
  obtain ⟨r, hr, hweight, hform⟩ := h.exists_weak_form channel hdefault i
  have hmem : r ∈ (level.squaresOf fit data channel).all :=
    List.mem_append_right _ (List.mem_append_left _ hr)
  rw [← hform x]
  exact hx r hmem hweight

/-- The null space of the equations that are set up, and when they are positive definite. -/
theorem exists_setup?_nullSpace : ∃ A b scale,
    level.setup? fit = .ok { level with matrix := some A, rhs := b, scale } ∧
    (level.IsStiff data channel → fit.settings.weakFunction = none →
      (∀ x, A.toSparse.toMatrix (size level.res) (size level.res) *ᵥ x = 0 ↔
        level.IsMultiAffine x ∧ ∀ m, (level.sampleMatrix data *ᵥ x) m = 0) ∧
      ((A.toSparse.toMatrix (size level.res) (size level.res)).PosDef ↔
        ∀ x, level.IsMultiAffine x → (∀ m, (level.sampleMatrix data *ᵥ x) m = 0) → x = 0)) ∧
    (fit.settings.HasDefault →
      (A.toSparse.toMatrix (size level.res) (size level.res)).PosDef) := by
  obtain ⟨A, b, scale, hsetup, -, -, hmatrix, -⟩ := h.exists_setup?
  have hnonneg : ∀ r ∈ (level.squaresOf fit data channel).all, 0 ≤ r.weight :=
    fun r hr => h.weight_nonneg hw hr
  refine ⟨A, b, scale, hsetup, ?_, ?_⟩
  · intro hstiff hnone
    have hkernel := h.hessian_mulVec_eq_zero_iff_isMultiAffine hw hstiff hnone
    rw [hmatrix]
    refine ⟨hkernel, ?_⟩
    rw [posDef_hessian_iff hnonneg]
    simp only [hkernel, and_imp]
  · intro hdefault
    rw [hmatrix, posDef_hessian_iff hnonneg]
    exact fun x hx => h.eq_zero_of_hasDefault hw hdefault hx

end Weighted

end IsPosed

/-! ## A single sample -/

/-- The fit of a single sample, drawn to zero. -/
noncomputable def narrowDrawn : Fit ℝ :=
  let fit := Fit.narrow.begun Fit.narrowSettings Fit.narrowData []
  { fit with settings := { fit.settings with
      weak := some (.scalar 1), weakFunction := some (.function fun _ => .ok [0]) } }

theorem isReady_narrowDrawn : narrowDrawn.IsReady Fit.narrowData where
  prepared := rfl
  valid := Fit.isAccepted_narrow.isValid
  grid := ⟨Grid.laid Fit.narrowData, rfl, rfl, rfl, rfl, rfl⟩
  deviation := rfl
  smoothness := ⟨1, rfl, one_ne_zero⟩
  weak := ⟨1, rfl, zero_le_one⟩
  weakFunction f hf channel hc := by
    have hchannel : channel = 0 := Nat.lt_one_iff.mp hc
    subst hchannel
    cases hf
    exact fun p _ => ⟨0, rfl⟩
  lineSweeps := ⟨0, rfl⟩

theorem isStiff_narrow {level : Level ℝ} (hlaid : level.IsLaidOn Fit.narrowData [3, 4]) :
    level.IsStiff Fit.narrowData 0 where
  resolutions := by
    rw [hlaid.res_eq]
    decide
  spacing s hs l hl := by
    rw [hlaid.spacing, hl] at hs
    simp [Prepared.spacingOn, Fit.narrowData] at hs
  stiffness w hw := by
    have hpos := hlaid.stiff (by decide) w hw
    have hrange : Fit.narrowData.rangeOf 0 = 1 := rfl
    rw [hrange, mul_one]
    exact hpos

/-- A single sample leaves out the multi-affine node values that vanish at it, unless the fit is
drawn to something everywhere. -/
theorem exists_nullSpace_narrow :
    (∃ level, make? (Fit.narrow.begun Fit.narrowSettings Fit.narrowData []) [3, 4] 0 false =
        .ok level ∧
      ∃ A b scale, level.setup? (Fit.narrow.begun Fit.narrowSettings Fit.narrowData []) =
          .ok { level with matrix := some A, rhs := b, scale } ∧
        (∀ x, A.toSparse.toMatrix (size level.res) (size level.res) *ᵥ x = 0 ↔
          level.IsMultiAffine x ∧ ∀ m, (level.sampleMatrix Fit.narrowData *ᵥ x) m = 0) ∧
        ((A.toSparse.toMatrix (size level.res) (size level.res)).PosDef ↔ ∀ x,
          level.IsMultiAffine x → (∀ m, (level.sampleMatrix Fit.narrowData *ᵥ x) m = 0) → x = 0)) ∧
    ∃ level, make? narrowDrawn [3, 4] 0 false = .ok level ∧
      ∃ A b scale, level.setup? narrowDrawn =
          .ok { level with matrix := some A, rhs := b, scale } ∧
        (A.toSparse.toMatrix (size level.res) (size level.res)).PosDef := by
  have hlen : [3, 4].length = Fit.narrowData.res.length := rfl
  have htwo : ∀ r ∈ [3, 4], 2 ≤ r := by decide
  have hfirst : 0 < Fit.narrowData.channels := Nat.one_pos
  constructor
  · have hready := Fit.isAccepted_narrow.isReady_begun []
    obtain ⟨level, hmake, hposed, hlaid, -⟩ := hready.exists_make? hlen htwo hfirst false
    obtain ⟨A, b, scale, hsetup, hnull, -⟩ := hposed.exists_setup?_nullSpace
      (hready.isWeighted hlaid hfirst (List.cons_ne_nil _ _))
    exact ⟨level, hmake, A, b, scale, hsetup, hnull (isStiff_narrow hlaid) rfl⟩
  · have hready := isReady_narrowDrawn
    obtain ⟨level, hmake, hposed, hlaid, -⟩ := hready.exists_make? hlen htwo hfirst false
    obtain ⟨A, b, scale, hsetup, -, hdefault⟩ := hposed.exists_setup?_nullSpace
      (hready.isWeighted hlaid hfirst (List.cons_ne_nil _ _))
    exact ⟨level, hmake, A, b, scale, hsetup, hdefault ⟨_, _, rfl, rfl, one_pos⟩⟩

end Level

end GridSpline
