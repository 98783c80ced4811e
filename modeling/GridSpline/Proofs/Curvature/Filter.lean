import Mathlib
import GridSpline.Curvature.Filter
import GridSpline.Proofs.Curvature.Downsample
import GridSpline.Proofs.Lattice.Offset
import GridSpline.Proofs.Real
import GridSpline.Proofs.Result

/-!
# Filtering curvature

A filter with a deviation other than zero has a kernel for every axis with nodes, so a curvature
with a value at every node can always be filtered, and keeps a value at every node. The kernel
reaches as far to one side as to the other.

## Main definitions

* `kernelReach`, `kernelOf` — the last tap of the kernel of a deviation, and the kernel.
* `filtered` — node values filtered along some axes.

## Main statements

* `gaussianKernel?_eq` — the kernel of a deviation.
* `filterCurvature?_eq` — the filter along all axes.
-/

namespace GridSpline

open Scalar Failure
open GridSpline.Lattice

/-! ## Kernels -/

/-- The last tap of a kernel. -/
noncomputable def kernelReach (stdev : ℝ) (count : ℕ) (cells : ℝ) : ℤ :=
  max (min ⌈5.0 * stdev * cells⌉ ((count : ℤ) - 1)) 1

/-- The weight of a tap, before the weights are made to add up to one. -/
noncomputable def rawTap (stdev cells : ℝ) (tap : ℤ) : ℝ :=
  tapWeight (1 / (2.0 * (|stdev| * |stdev|)) / circleRatio) (1 / (2.0 * (|stdev| * |stdev|))) cells
    tap

/-- The weights of all taps, before they are made to add up to one. -/
noncomputable def rawTaps (stdev : ℝ) (count : ℕ) (cells : ℝ) : List ℝ :=
  (List.range (2 * kernelReach stdev count cells + 1).toNat).map fun (i : ℕ) =>
    rawTap stdev cells ((i : ℤ) - kernelReach stdev count cells)

/-- The kernel of a deviation. -/
noncomputable def kernelOf (stdev : ℝ) (count : ℕ) (resolution : ℝ) : Kernel ℝ where
  weights := (rawTaps stdev count (resolution - 1)).map
    (· / (rawTaps stdev count (resolution - 1)).sum)
  centre := (kernelReach stdev count (resolution - 1)).toNat

/-- The taps reach as far to one side as to the other. -/
theorem tapRange?_eq (stdev : ℝ) (count : ℕ) (cells : ℝ) :
    tapRange? stdev count cells =
      .ok (-kernelReach stdev count cells, kernelReach stdev count cells) := by
  have hfloor : ⌊-5.0 * stdev * cells⌋ = -⌈5.0 * stdev * cells⌉ := by
    rw [← Int.floor_neg]
    norm_num
  unfold tapRange? kernelReach
  simp only [floor?_eq, ceil?_eq, hfloor]
  show Except.ok (_, _) = _
  refine congrArg Except.ok (Prod.ext ?_ rfl)
  simp only
  omega

/-- The kernel of a deviation. -/
theorem gaussianKernel?_eq {stdev : ℝ} (h : stdev ≠ 0) (count : ℕ) (resolution : ℝ) :
    gaussianKernel? stdev count resolution = .ok (kernelOf stdev count resolution) := by
  have hsquare : ¬IsZero (2.0 * (magnitude stdev * magnitude stdev)) := by
    rw [isZero_iff, magnitude_eq, abs_mul_abs_self]
    have := mul_self_ne_zero.mpr h
    norm_num
    exact h
  have hexponent : kernelExponent? stdev = .ok (1 / (2.0 * (|stdev| * |stdev|))) := by
    unfold kernelExponent?
    simp only
    rw [if_neg fun hover => hover.2 (isFinite _), if_neg hsquare, magnitude_eq]
    rfl
  unfold gaussianKernel?
  rw [hexponent, ok_bind]
  simp only
  rw [tapRange?_eq, ok_bind]
  show Except.ok _ = _
  simp only
  have htaps : ((List.range (kernelReach stdev count (resolution - 1) -
      -kernelReach stdev count (resolution - 1) + 1).toNat).map fun (i : ℕ) =>
        -kernelReach stdev count (resolution - 1) + (i : ℤ)).map
      (tapWeight (1 / (2.0 * (|stdev| * |stdev|)) / circleRatio)
        (1 / (2.0 * (|stdev| * |stdev|))) (resolution - 1)) =
      rawTaps stdev count (resolution - 1) := by
    unfold rawTaps
    rw [List.map_map, sub_neg_eq_add, ← two_mul]
    refine List.map_congr_left fun i _ => ?_
    rw [Function.comp_apply, neg_add_eq_sub]
    rfl
  rw [htaps, sum_eq, neg_neg]
  rfl

theorem axisKernel?_eq {stdev : ℝ} (h : stdev ≠ 0) {a : Axis} (ha : a.count ≠ 0)
    (resolution : ℝ) :
    axisKernel? stdev a resolution = .ok (kernelOf stdev a.count (⌊resolution⌋ : ℤ)) := by
  unfold axisKernel?
  rw [gaussianKernel?_eq h, ok_bind, if_neg ha]
  rfl

/-! ## Filters -/

/-- A filtered value is a sum over the taps. -/
theorem filteredAt_eq_sum (k : Kernel ℝ) (count : ℕ) (u : ℕ → ℝ) (place : ℕ) :
    filteredAt k count u place = (k.weights.zipIdx.map fun p =>
      p.1 * reflected count u ((place : ℤ) + (p.2 : ℤ) - (k.centre : ℤ))).sum := by
  unfold filteredAt
  rw [List.sum_eq_foldl, List.foldl_map]

theorem reflected_zero (count : ℕ) (p : ℤ) : reflected count (fun _ => (0 : ℝ)) p = 0 := by
  unfold reflected
  split_ifs <;> simp

theorem filteredAt_zero (k : Kernel ℝ) (count place : ℕ) :
    filteredAt k count (fun _ => 0) place = 0 := by
  rw [filteredAt_eq_sum]
  refine List.sum_eq_zero fun v hv => ?_
  obtain ⟨p, -, rfl⟩ := List.mem_map.mp hv
  rw [reflected_zero, mul_zero]

theorem size_filterAlong (nodes : ℕ) (a : Axis) (k : Kernel ℝ) (x : Array ℝ) :
    (filterAlong nodes a k x).size = nodes := by
  unfold filterAlong
  rw [Array.size_map, Array.size_range]

/-- Node values filtered along axes, each with the resolution in which smoothness is measured. -/
noncomputable def filtered (nodes : ℕ) (stdev : ℝ) (scaled : List (Axis × ℝ)) (x : Array ℝ) :
    Array ℝ :=
  scaled.foldl (fun x p => filterAlong nodes p.1 (kernelOf stdev p.1.count (⌊p.2⌋ : ℤ)) x) x

theorem size_filtered {nodes : ℕ} (stdev : ℝ) (scaled : List (Axis × ℝ)) {x : Array ℝ}
    (hx : x.size = nodes) : (filtered nodes stdev scaled x).size = nodes := by
  unfold filtered
  induction scaled generalizing x with
  | nil => exact hx
  | cons p scaled ih => exact ih (size_filterAlong nodes p.1 _ x)

/-- Curvature, filtered along all axes. -/
noncomputable def filteredCurvature (res : List ℕ) (stdev : ℝ) (symmetric : Bool)
    (ccv : Curvature ℝ) : Curvature ℝ :=
  ccv.map (filtered (size res) stdev ((axes res).zip (latticeScales symmetric res)))

/-- The filter along all axes. -/
theorem filterCurvature?_eq {res : List ℕ} (hne : res ≠ []) (hres : ∀ r ∈ res, 2 ≤ r)
    {stdev : ℝ} (h : stdev ≠ 0) (symmetric : Bool) {ccv : Curvature ℝ}
    (hsize : ∀ p ∈ ccv, p.size = size res) :
    filterCurvature? res stdev symmetric ccv = .ok (filteredCurvature res stdev symmetric ccv) := by
  have hfits : ¬(ccv.any fun part => decide (part.size ≠ size res)) = true := by
    rw [List.any_eq_true]
    rintro ⟨p, hp, hwrong⟩
    exact of_decide_eq_true hwrong (hsize p hp)
  have hkernels : filterKernels? res stdev (latticeScales symmetric res) =
      .ok (((axes res).zip (latticeScales symmetric res)).map fun (p : Axis × ℝ) =>
        (p.1, kernelOf stdev p.1.count (⌊p.2⌋ : ℤ))) := by
    refine mapM_eq_ok_map fun p hp => ?_
    have hcount : p.1.count ≠ 0 := by
      have := hres _ (count_mem (List.of_mem_zip hp).1)
      omega
    obtain ⟨a, r⟩ := p
    simp only [axisKernel?_eq h hcount, ok_bind]
    rfl
  unfold filterCurvature?
  simp only
  rw [scaleResolutions?_scalars hne, ok_bind, if_neg hfits, hkernels]
  refine congrArg Except.ok (List.map_congr_left fun part _ => ?_)
  rw [List.foldl_map]
  rfl

end GridSpline
