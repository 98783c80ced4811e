import Mathlib
import GridSpline.Proofs.Curvature.Straight

/-!
# The weights of a kernel

The nearer a cell is to the centre of a kernel, the nearer to it are all places of the cell at which
the distribution is summed: they lie less than half a cell from its middle. So the weights fall to
both sides of the centre. They are positive, hence can be divided by their sum, and a kernel reaches
at least one node and at most the length of a line to either side. A line is never continued further
past its ends than it has nodes to be reflected.

## Main definitions

* `Kernel.IsProper` — what is asked of the kernel for lines with a number of nodes.

## Main statements

* `rawTap_lt` — a tap that is further from the centre weighs less.
* `exists_gaussianKernel?_isProper` — the kernel of a deviation.
-/

namespace GridSpline

open Scalar

/-! ## Taps -/

theorem abs_le_of_mem_subsamples {s : ℝ} (hs : s ∈ (subsamples : List ℝ)) : |s| ≤ 4 / 9 := by
  unfold subsamples at hs
  obtain ⟨i, hi, rfl⟩ := List.mem_map.mp hs
  have hi : |i| ≤ 4 := by
    simp only [List.mem_cons, List.not_mem_nil, or_false] at hi
    rw [abs_le]
    omega
  have hcast : |(i : ℝ)| ≤ 4 := by exact_mod_cast hi
  rw [abs_div]
  norm_num
  linarith

/-- All places of a cell are further from the centre than the same places of a nearer one. -/
theorem abs_add_lt_abs_add {m n : ℤ} (hm : 0 ≤ m) (hmn : m < n) {s : ℝ} (hs : |s| ≤ 4 / 9) :
    |(m : ℝ) + s| < |(n : ℝ) + s| := by
  obtain ⟨hlow, hhigh⟩ := abs_le.mp hs
  have hm : (0 : ℝ) ≤ m := by exact_mod_cast hm
  have hmn : (m : ℝ) + 1 ≤ n := by exact_mod_cast hmn
  rw [abs_of_pos (by linarith : (0 : ℝ) < n + s), abs_lt]
  constructor <;> linarith

theorem rawTap_lt_of_nonneg {stdev cells : ℝ} (hstdev : stdev ≠ 0) (hcells : 0 < cells) {m n : ℤ}
    (hm : 0 ≤ m) (hmn : m < n) : rawTap stdev cells n < rawTap stdev cells m := by
  have hcircle : (0 : ℝ) < circleRatio := by
    unfold circleRatio
    norm_num
  have hsquare : 0 < |stdev| * |stdev| := mul_pos (abs_pos.mpr hstdev) (abs_pos.mpr hstdev)
  have hk2 : (0 : ℝ) < 1 / (2.0 * (|stdev| * |stdev|)) := by positivity
  have hne : (subsamples : List ℝ) ≠ [] := by simp [subsamples]
  unfold rawTap tapWeight
  rw [sum_eq, sum_eq]
  refine List.sum_lt_sum_of_ne_nil hne _ _ fun s hs => ?_
  have hdistance : |((m : ℝ) + s) / cells| < |((n : ℝ) + s) / cells| := by
    rw [abs_div, abs_div]
    exact div_lt_div_of_pos_right (abs_add_lt_abs_add hm hmn (abs_le_of_mem_subsamples hs))
      (abs_pos.mpr hcells.ne')
  simp only [magnitude_eq, exp_eq]
  refine mul_lt_mul_of_pos_left (Real.exp_lt_exp.mpr ?_) (div_pos hk2 hcircle)
  rw [neg_mul, neg_mul, neg_lt_neg_iff]
  exact mul_lt_mul_of_pos_left (mul_self_lt_mul_self (abs_nonneg _) hdistance) hk2

/-- A tap that is further from the centre weighs less. -/
theorem rawTap_lt {stdev cells : ℝ} (hstdev : stdev ≠ 0) (hcells : 0 < cells) {m n : ℤ}
    (hmn : |m| < |n|) : rawTap stdev cells n < rawTap stdev cells m := by
  have habs : ∀ k : ℤ, rawTap stdev cells |k| = rawTap stdev cells k := by
    intro k
    rcases abs_choice k with h | h
    · rw [h]
    · rw [h, rawTap_neg]
  rw [← habs m, ← habs n]
  exact rawTap_lt_of_nonneg hstdev hcells (abs_nonneg m) hmn

/-! ## Kernels -/

/-- What is asked of the kernel for lines with the given number of nodes. -/
structure Kernel.IsProper (k : Kernel ℝ) (count : ℕ) : Prop where
  /-- It reaches at least one node to either side, and no further than a line is long. -/
  centre : 1 ≤ k.centre ∧ k.centre ≤ count - 1
  length : k.weights.length = 2 * k.centre + 1
  positive : ∀ w ∈ k.weights, 0 < w
  symmetric : k.weights.reverse = k.weights
  /-- A weight that is further from the centre is less. -/
  falling : ∀ i j : ℕ, j < k.weights.length → |(i : ℤ) - k.centre| < |(j : ℤ) - k.centre| →
    k.weights.getD j 0 < k.weights.getD i 0
  sum : k.weights.sum = 1
  /-- A line is continued by no more nodes than it has past each of its ends. -/
  padding : ∀ place < count, ∀ j < k.weights.length,
    -((count : ℤ) - 1) ≤ (place : ℤ) + j - k.centre ∧
      (place : ℤ) + j - k.centre ≤ (count : ℤ) - 1 + ((count : ℤ) - 1)
  /-- A filtered line depends on the values of the line alone. -/
  reads : ∀ u v : ℕ → ℝ, (∀ p < count, u p = v p) → ∀ place < count,
    filteredAt k count u place = filteredAt k count v place

theorem isProper_kernelOf {stdev : ℝ} (hstdev : stdev ≠ 0) {count : ℕ} (hcount : 2 ≤ count)
    {resolution : ℝ} (hresolution : 1 < resolution) :
    (kernelOf stdev count resolution).IsProper count := by
  have hcentred := isCentred_kernelOf stdev hcount resolution
  have hlength := hcentred.length
  have hreach := hcentred.reach
  have hcentre := centre_kernelOf stdev count resolution
  have hone := one_le_kernelReach stdev count (resolution - 1)
  have htotal := sum_rawTaps_pos hstdev count (resolution - 1)
  refine ⟨⟨by omega, by omega⟩, hlength, fun w hw => ?_, ?_, fun i j hj hij => ?_,
    sum_weights_kernelOf hstdev count resolution, fun place hplace j hj => ⟨by omega, by omega⟩,
    fun u v huv place hplace => filteredAt_congr hcentred huv hplace⟩
  · obtain ⟨raw, hraw, rfl⟩ := List.mem_map.mp hw
    obtain ⟨i, -, rfl⟩ := List.mem_map.mp hraw
    exact div_pos (rawTap_pos hstdev _ _) htotal
  · refine List.ext_getElem (List.length_reverse ..) fun i h1 h2 => ?_
    rw [List.getElem_reverse, ← List.getD_eq_getElem _ 0, ← List.getD_eq_getElem _ 0]
    exact hcentred.symm _ _ (by omega)
  · have hi : i < (kernelOf stdev count resolution).weights.length := by
      rw [abs_lt, lt_abs] at hij
      omega
    rw [getD_weights_kernelOf _ _ _ hi, getD_weights_kernelOf _ _ _ hj]
    exact div_lt_div_of_pos_right (rawTap_lt hstdev (by linarith) hij) htotal

/-- A deviation that is not zero has a proper kernel: the weights of its taps, divided by their sum,
which is positive. -/
theorem exists_gaussianKernel?_isProper {stdev : ℝ} (hstdev : 0 < stdev) {count : ℕ}
    (hcount : 2 ≤ count) {resolution : ℝ} (hresolution : 1 < resolution) :
    ∃ k, gaussianKernel? stdev count resolution = .ok k ∧ k.IsProper count ∧
      0 < (rawTaps stdev count (resolution - 1)).sum ∧
      k.weights = (rawTaps stdev count (resolution - 1)).map
        (· / (rawTaps stdev count (resolution - 1)).sum) :=
  ⟨_, gaussianKernel?_eq hstdev.ne' count resolution,
    isProper_kernelOf hstdev.ne' hcount hresolution, sum_rawTaps_pos hstdev.ne' _ _, rfl⟩

/-- A deviation of the whole domain on five nodes, and a resolution that is no integer: the kernel
reaches to the other end of the line. -/
theorem exists_gaussianKernel?_isProper_wide : (0 : ℝ) < 1 ∧ 2 ≤ 5 ∧ (1 : ℝ) < 2.5 ∧
    ∃ k, gaussianKernel? (1 : ℝ) 5 2.5 = .ok k ∧ k.IsProper 5 ∧ k.centre = 4 := by
  obtain ⟨k, hk, hproper, -, -⟩ :=
    exists_gaussianKernel?_isProper one_pos (by decide : 2 ≤ 5) (by norm_num : (1 : ℝ) < 2.5)
  obtain rfl : kernelOf 1 5 2.5 = k :=
    Except.ok.inj ((gaussianKernel?_eq one_ne_zero 5 2.5).symm.trans hk)
  have hlast : ⌈(5.0 * 1 * (2.5 - 1) : ℝ)⌉ = 8 := by
    rw [Int.ceil_eq_iff]
    norm_num
  have hcentre := centre_kernelOf 1 5 2.5
  rw [kernelReach, hlast] at hcentre
  exact ⟨one_pos, by decide, by norm_num, _, hk, hproper, by omega⟩

end GridSpline
