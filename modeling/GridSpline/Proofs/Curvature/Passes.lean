import Mathlib
import GridSpline.Proofs.Curvature.Filter
import GridSpline.Proofs.Lattice.Line

/-!
# The passes of the filter

The filter goes along one axis after the other. A pass works on every line by itself and is linear
in its values, those continued past the ends included, since a kernel does not reach further than a
line is long. So passes along two axes can be made in either order. The weights of a kernel are the
same to both sides, and so is the way in which a line is continued: from the other end a line is
filtered to the same values.

## Main definitions

* `Kernel.IsCentred` — the weights of a kernel are the same to both sides, and it reaches no further
  than a line.

## Main statements

* `isCentred_kernelOf` — the kernel of a deviation.
* `filteredAt_congr` — a filter reads no further than a line is long.
* `filteredAt_reverse` — a line that is filtered from the other end.
* `filterAlong_comm` — passes along two axes can be exchanged.
-/

namespace GridSpline

open Scalar
open GridSpline.Lattice

/-! ## Kernels -/

/-- The weights of a kernel are the same to both sides, and it reaches no further than a line with
the given number of nodes. -/
structure Kernel.IsCentred (k : Kernel ℝ) (count : ℕ) : Prop where
  length : k.weights.length = 2 * k.centre + 1
  reach : k.centre < count
  symm : ∀ i j, i + j = 2 * k.centre → k.weights.getD i 0 = k.weights.getD j 0

theorem Kernel.IsCentred.count_pos {k : Kernel ℝ} {count : ℕ} (h : k.IsCentred count) : 0 < count :=
  (Nat.zero_le _).trans_lt h.reach

theorem map_neg_subsamples : (subsamples : List ℝ).map (-·) = subsamples.reverse := by
  simp only [subsamples, List.map_cons, List.map_nil, List.reverse_cons, List.reverse_nil,
    List.nil_append, List.cons_append]
  norm_num

/-- The weight of a tap depends on its distance from the centre alone. -/
theorem rawTap_neg (stdev cells : ℝ) (tap : ℤ) :
    rawTap stdev cells (-tap) = rawTap stdev cells tap := by
  have hterm : ∀ s : ℝ, |(((-tap : ℤ) : ℝ) + s) / cells| = |((tap : ℝ) + -s) / cells| := by
    intro s
    rw [← abs_neg (((tap : ℝ) + -s) / cells), ← neg_div]
    push_cast
    ring_nf
  -- The subsamples lie symmetrically about the tap.
  have hreverse : ∀ f : ℝ → ℝ, (subsamples.map fun s => f (-s)).sum = (subsamples.map f).sum := by
    intro f
    have hmap := congrArg (fun l : List ℝ => (l.map f).sum) map_neg_subsamples
    simp only [List.map_map, List.map_reverse, List.sum_reverse] at hmap
    exact hmap
  unfold rawTap tapWeight
  simp only [sum_eq, magnitude_eq, hterm]
  exact hreverse fun s => _ * exp (_ * (|((tap : ℝ) + s) / cells| * |((tap : ℝ) + s) / cells|))

theorem one_le_kernelReach (stdev : ℝ) (count : ℕ) (cells : ℝ) :
    1 ≤ kernelReach stdev count cells :=
  le_max_right _ _

theorem centre_kernelOf (stdev : ℝ) (count : ℕ) (resolution : ℝ) :
    ((kernelOf stdev count resolution).centre : ℤ) = kernelReach stdev count (resolution - 1) :=
  Int.toNat_of_nonneg (zero_le_one.trans (one_le_kernelReach _ _ _))

theorem length_weights_kernelOf (stdev : ℝ) (count : ℕ) (resolution : ℝ) :
    (kernelOf stdev count resolution).weights.length =
      2 * (kernelOf stdev count resolution).centre + 1 := by
  have hcentre := centre_kernelOf stdev count resolution
  show (List.map _ (List.map _ (List.range _))).length = _
  rw [List.length_map, List.length_map, List.length_range]
  omega

/-- A weight is that of a tap, as a part of the sum of all. -/
theorem getD_weights_kernelOf (stdev : ℝ) (count : ℕ) (resolution : ℝ) {i : ℕ}
    (hi : i < (kernelOf stdev count resolution).weights.length) :
    (kernelOf stdev count resolution).weights.getD i 0 =
      rawTap stdev (resolution - 1) ((i : ℤ) - (kernelOf stdev count resolution).centre) /
        (rawTaps stdev count (resolution - 1)).sum := by
  rw [List.getD_eq_getElem _ _ hi, centre_kernelOf]
  simp only [kernelOf, rawTaps, List.getElem_map, List.getElem_range]

/-- The kernel of a deviation. -/
theorem isCentred_kernelOf (stdev : ℝ) {count : ℕ} (h : 2 ≤ count) (resolution : ℝ) :
    (kernelOf stdev count resolution).IsCentred count := by
  have hcentre := centre_kernelOf stdev count resolution
  have hlength := length_weights_kernelOf stdev count resolution
  have hreach : kernelReach stdev count (resolution - 1) < count := by
    unfold kernelReach
    omega
  refine ⟨hlength, by omega, fun i j hij => ?_⟩
  rw [getD_weights_kernelOf _ _ _ (by omega), getD_weights_kernelOf _ _ _ (by omega), ← rawTap_neg]
  congr 3
  omega

/-! ## One line -/

/-- A filtered value is a sum over the taps. -/
theorem filteredAt_eq_sum_range (k : Kernel ℝ) (count : ℕ) (u : ℕ → ℝ) (place : ℕ) :
    filteredAt k count u place = ∑ j ∈ Finset.range k.weights.length,
      k.weights.getD j 0 * reflected count u ((place : ℤ) + (j : ℤ) - (k.centre : ℤ)) := by
  have hlist : k.weights.zipIdx.map (fun p =>
      p.1 * reflected count u ((place : ℤ) + (p.2 : ℤ) - (k.centre : ℤ))) =
      (List.range k.weights.length).map fun (j : ℕ) =>
        k.weights.getD j 0 * reflected count u ((place : ℤ) + (j : ℤ) - (k.centre : ℤ)) := by
    refine List.ext_getElem (by simp) fun j h1 h2 => ?_
    have hj : j < k.weights.length := by simpa using h2
    simp only [List.getElem_map, List.getElem_zipIdx, List.getElem_range, Nat.zero_add,
      List.getD_eq_getElem _ _ hj]
  rw [filteredAt_eq_sum, hlist]
  rfl

theorem reflected_sum {ι : Type} (count : ℕ) (s : Finset ι) (c : ι → ℝ) (v : ι → ℕ → ℝ) (p : ℤ) :
    reflected count (fun i => ∑ q ∈ s, c q * v q i) p = ∑ q ∈ s, c q * reflected count (v q) p := by
  unfold reflected
  split_ifs
  · rfl
  · rw [← Finset.sum_add_distrib, ← Finset.sum_sub_distrib]
    exact Finset.sum_congr rfl fun q _ => by ring
  · rw [← Finset.sum_add_distrib, ← Finset.sum_sub_distrib]
    exact Finset.sum_congr rfl fun q _ => by ring
  · rfl

/-- The filter is linear in the values of a line. -/
theorem filteredAt_sum {ι : Type} (k : Kernel ℝ) (count : ℕ) (s : Finset ι) (c : ι → ℝ)
    (v : ι → ℕ → ℝ) (place : ℕ) : filteredAt k count (fun i => ∑ q ∈ s, c q * v q i) place =
      ∑ q ∈ s, c q * filteredAt k count (v q) place := by
  simp only [filteredAt_eq_sum_range, reflected_sum, Finset.mul_sum]
  rw [Finset.sum_comm]
  refine Finset.sum_congr rfl fun q _ => Finset.sum_congr rfl fun j _ => ?_
  ring

/-- What is continued past one end corresponds to what is continued past the other. -/
theorem reflected_reverse {count : ℕ} {u v : ℕ → ℝ} (h : ∀ p < count, v (count - 1 - p) = u p)
    {p : ℤ} (hlow : -(count : ℤ) < p) (hhigh : p < 2 * (count : ℤ) - 1) :
    reflected count v ((count : ℤ) - 1 - p) = reflected count u p := by
  have hback : ∀ q q' : ℕ, q + q' + 1 = count → v q = u q' := by
    intro q q' hq
    rw [← h q' (by omega)]
    congr 1
    omega
  unfold reflected
  by_cases hone : count ≤ 1
  · rw [if_pos hone, if_pos hone]
    exact hback 0 0 (by omega)
  · rw [if_neg hone, if_neg hone]
    by_cases hneg : p < 0
    · rw [if_neg (by omega), if_pos (by omega), if_pos hneg, hback (count - 1) 0 (by omega),
        hback _ (-p).toNat (by omega)]
    · rw [if_neg hneg]
      by_cases hpast : (count : ℤ) ≤ p
      · rw [if_pos (by omega), if_pos hpast, hback 0 (count - 1) (by omega),
          hback _ (2 * ((count : ℤ) - 1) - p).toNat (by omega)]
      · rw [if_neg (by omega), if_neg (by omega), if_neg hpast, hback _ p.toNat (by omega)]

/-- A line is not continued further past its ends than it has nodes to be reflected. -/
theorem reflected_congr {count : ℕ} {u v : ℕ → ℝ} (huv : ∀ p < count, u p = v p) {z : ℤ}
    (hlow : -(count : ℤ) < z) (hhigh : z < 2 * (count : ℤ) - 1) :
    reflected count u z = reflected count v z := by
  unfold reflected
  split_ifs with hone hneg hpast
  · exact huv 0 (by omega)
  · rw [huv 0 (by omega), huv _ (by omega)]
  · rw [huv _ (by omega), huv _ (by omega)]
  · exact huv _ (by omega)

section Centred

variable {k : Kernel ℝ} {count : ℕ} (hk : k.IsCentred count)

include hk

/-- Only the values of the line itself count. -/
theorem filteredAt_congr {u v : ℕ → ℝ} (h : ∀ p < count, u p = v p) {place : ℕ}
    (hplace : place < count) : filteredAt k count u place = filteredAt k count v place := by
  rw [filteredAt_eq_sum_range, filteredAt_eq_sum_range]
  refine Finset.sum_congr rfl fun j hj => ?_
  rw [Finset.mem_range, hk.length] at hj
  have hreach := hk.reach
  rw [reflected_congr h (by omega) (by omega)]

/-- A filtered value is a combination of the values of the line. -/
theorem filteredAt_eq_sum_single (u : ℕ → ℝ) {place : ℕ} (hplace : place < count) :
    filteredAt k count u place =
      ∑ p ∈ Finset.range count, u p * filteredAt k count (Pi.single p 1) place := by
  rw [← filteredAt_sum]
  refine filteredAt_congr hk (fun i hi => ?_) hplace
  rw [Finset.sum_eq_single i]
  · rw [Pi.single_eq_same, mul_one]
  · intro p _ hne
    rw [Pi.single_eq_of_ne hne.symm, mul_zero]
  · exact fun hmem => absurd (Finset.mem_range.mpr hi) hmem

/-- A line that is filtered from the other end. -/
theorem filteredAt_reverse {u v : ℕ → ℝ} (h : ∀ p < count, v (count - 1 - p) = u p) {place : ℕ}
    (hplace : place < count) :
    filteredAt k count v (count - 1 - place) = filteredAt k count u place := by
  have hreach := hk.reach
  -- The taps are gone through from the other end too.
  rw [filteredAt_eq_sum_range, filteredAt_eq_sum_range, ← Finset.sum_range_reflect]
  refine Finset.sum_congr rfl fun j hj => ?_
  rw [hk.length, Finset.mem_range] at hj
  rw [hk.symm (k.weights.length - 1 - j) j (by rw [hk.length]; omega), hk.length,
    ← reflected_reverse h (by omega) (by omega)]
  congr 2
  omega

end Centred

/-! ## Lattices -/

/-- A pass replaces every value by the filtered value of its line. -/
theorem getD_filterAlong {nodes : ℕ} (a : Axis) (k : Kernel ℝ) (x : Array ℝ) {i : ℕ}
    (hi : i < nodes) : (filterAlong nodes a k x).getD i 0 =
      filteredAt k a.count (fun p => x.getD (lineNode a i p) 0) (a.coord i) := by
  rw [Array.getD_eq_getD_getElem?, Array.getElem?_eq_getElem (by rwa [size_filterAlong])]
  unfold filterAlong
  rw [Array.getElem_map, Array.getElem_range]
  rfl

/-- Passes along two axes can be exchanged. -/
theorem filterAlong_comm {res : List ℕ} (hres : ∀ r ∈ res, 0 < r) {a b : Axis} (ha : a ∈ axes res)
    (hb : b ∈ axes res) (hne : b.index ≠ a.index) {k l : Kernel ℝ} (hk : k.IsCentred a.count)
    (hl : l.IsCentred b.count) (x : Array ℝ) :
    filterAlong (size res) b l (filterAlong (size res) a k x) =
      filterAlong (size res) a k (filterAlong (size res) b l x) := by
  refine eq_of_vectorOf_eq (size_filterAlong _ _ _ _) (size_filterAlong _ _ _ _) ?_
  funext i
  have hi := i.isLt
  have hca : a.coord i < a.count := Nat.mod_lt _ hk.count_pos
  have hcb : b.coord i < b.count := Nat.mod_lt _ hl.count_pos
  -- Along the second axis the values are combinations of values along the first one.
  have hfirst : filteredAt l b.count
      (fun q => (filterAlong (size res) a k x).getD (lineNode b i q) 0) (b.coord i) =
      filteredAt l b.count (fun q => ∑ p ∈ Finset.range a.count,
        filteredAt k a.count (Pi.single p 1) (a.coord i) *
          x.getD (lineNode b (lineNode a i p) q) 0) (b.coord i) := by
    refine filteredAt_congr hl (fun q hq => ?_) hcb
    rw [getD_filterAlong a k x (lineNode_lt_size hb hi hq), coord_lineNode_of_ne hres hb hi hq ha
      hne.symm, filteredAt_eq_sum_single hk _ hca]
    refine Finset.sum_congr rfl fun p hp => ?_
    rw [lineNode_comm hres hb hi hq ha hne.symm (Finset.mem_range.mp hp), mul_comm]
  have hsecond : ∀ p < a.count, (filterAlong (size res) b l x).getD (lineNode a i p) 0 =
      filteredAt l b.count (fun q => x.getD (lineNode b (lineNode a i p) q) 0) (b.coord i) := by
    intro p hp
    rw [getD_filterAlong b l x (lineNode_lt_size ha hi hp),
      coord_lineNode_of_ne hres ha hi hp hb hne]
  show (filterAlong _ b l (filterAlong _ a k x)).getD i 0 = (filterAlong _ a k _).getD i 0
  rw [getD_filterAlong b l _ hi, getD_filterAlong a k _ hi, hfirst, filteredAt_sum,
    filteredAt_eq_sum_single hk _ hca]
  refine Finset.sum_congr rfl fun p hp => ?_
  rw [hsecond p (Finset.mem_range.mp hp), mul_comm]

end GridSpline
