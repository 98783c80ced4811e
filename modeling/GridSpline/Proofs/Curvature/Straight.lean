import Mathlib
import GridSpline.Proofs.Curvature.Passes

/-!
# What the filter leaves as it is

The weights of a kernel add up to one and are the same to both sides. So the filter keeps the value
at a place about which the continued line is balanced: two places at the same distance from it have
this value on average. A straight line is balanced about each of its places, and every line about
its ends, past which it is continued by point reflection.

## Main statements

* `sum_weights_kernelOf` — the weights of a kernel add up to one.
* `filteredAt_eq_of_balanced` — the value at a place about which a line is balanced.
* `filteredAt_affine`, `filteredAt_end` — straight lines and the ends of lines.
-/

namespace GridSpline

open Scalar

/-! ## Weights -/

theorem rawTap_pos {stdev : ℝ} (h : stdev ≠ 0) (cells : ℝ) (tap : ℤ) :
    0 < rawTap stdev cells tap := by
  have hcircle : (0 : ℝ) < circleRatio := by
    unfold circleRatio
    norm_num
  have hsquare : 0 < |stdev| * |stdev| := mul_pos (abs_pos.mpr h) (abs_pos.mpr h)
  unfold rawTap tapWeight
  rw [sum_eq]
  refine List.sum_pos _ (fun v hv => ?_) (by simp [subsamples])
  obtain ⟨s, -, rfl⟩ := List.mem_map.mp hv
  simp only [exp_eq]
  positivity

theorem sum_rawTaps_pos {stdev : ℝ} (h : stdev ≠ 0) (count : ℕ) (cells : ℝ) :
    0 < (rawTaps stdev count cells).sum := by
  refine List.sum_pos _ (fun v hv => ?_) ?_
  · obtain ⟨i, -, rfl⟩ := List.mem_map.mp hv
    exact rawTap_pos h _ _
  · have := one_le_kernelReach stdev count cells
    unfold rawTaps
    rw [ne_eq, List.map_eq_nil_iff, List.range_eq_nil]
    omega

/-- The weights of a kernel add up to one. -/
theorem sum_weights_kernelOf {stdev : ℝ} (h : stdev ≠ 0) (count : ℕ) (resolution : ℝ) :
    (kernelOf stdev count resolution).weights.sum = 1 := by
  have hpos := sum_rawTaps_pos h count (resolution - 1)
  show ((rawTaps stdev count (resolution - 1)).map
    (· / (rawTaps stdev count (resolution - 1)).sum)).sum = 1
  simp only [div_eq_mul_inv]
  rw [List.sum_map_mul_right, List.map_id', mul_inv_cancel₀ hpos.ne']

theorem sum_range_getD (l : List ℝ) : ∑ j ∈ Finset.range l.length, l.getD j 0 = l.sum := by
  induction l with
  | nil => rfl
  | cons b bs ih =>
    rw [List.length_cons, Finset.sum_range_succ', List.sum_cons, ← ih, add_comm]
    rfl

/-! ## Lines -/

/-- A straight line is continued straight. -/
theorem reflected_affine {count : ℕ} {u : ℕ → ℝ} {p q : ℝ} (hu : ∀ j < count, u j = p + q * j)
    {z : ℤ} (hlow : -(count : ℤ) < z) (hhigh : z < 2 * (count : ℤ) - 1) :
    reflected count u z = p + q * z := by
  unfold reflected
  split_ifs with hone hneg hpast
  · obtain rfl : z = 0 := by omega
    rw [hu 0 (by omega), Nat.cast_zero, Int.cast_zero]
  · obtain ⟨n, rfl⟩ : ∃ n : ℕ, z = -(n : ℤ) := ⟨(-z).toNat, by omega⟩
    rw [neg_neg, Int.toNat_natCast, hu 0 (by omega), hu n (by omega)]
    push_cast
    ring
  · obtain ⟨n, hn⟩ : ∃ n : ℕ, (n : ℤ) = 2 * ((count : ℤ) - 1) - z :=
      ⟨(2 * ((count : ℤ) - 1) - z).toNat, by omega⟩
    have hz : (z : ℝ) = 2 * ((count : ℝ) - 1) - n := by
      have : z = 2 * ((count : ℤ) - 1) - n := by omega
      rw [this]
      push_cast
      rfl
    rw [← hn, Int.toNat_natCast, hu (count - 1) (by omega), hu n (by omega),
      Nat.cast_sub (by omega), Nat.cast_one, hz]
    ring
  · obtain ⟨n, rfl⟩ := Int.eq_ofNat_of_zero_le (not_lt.mp hneg)
    rw [Int.toNat_natCast, hu n (by omega), Int.cast_natCast]

/-- Past its start a line is continued by point reflection. -/
theorem reflected_add_reflected_neg {count : ℕ} (u : ℕ → ℝ) {m : ℤ} (hlow : -(count : ℤ) < m)
    (hhigh : m < count) : reflected count u m + reflected count u (-m) = 2 * u 0 := by
  have hside : ∀ n : ℕ, n < count →
      reflected count u n + reflected count u (-(n : ℤ)) = 2 * u 0 := by
    intro n hn
    unfold reflected
    by_cases hone : count ≤ 1
    · rw [if_pos hone, if_pos hone, two_mul]
    · rw [if_neg hone, if_neg hone, if_neg (by omega), if_neg (by omega), Int.toNat_natCast]
      rcases Nat.eq_zero_or_pos n with rfl | hpos
      · rw [Nat.cast_zero, neg_zero, if_neg (lt_irrefl 0), if_neg (by omega), Int.toNat_zero,
          two_mul]
      · rw [if_pos (by omega), neg_neg, Int.toNat_natCast]
        ring
  obtain ⟨n, rfl | rfl⟩ := m.eq_nat_or_neg
  · exact hside n (by omega)
  · rw [neg_neg, add_comm]
    exact hside n (by omega)

section Kept

variable {k : Kernel ℝ} {count : ℕ} (hk : k.IsCentred count) (hsum : k.weights.sum = 1)

include hk hsum

/-- The value at a place about which a line is balanced is kept. -/
theorem filteredAt_eq_of_balanced {u : ℕ → ℝ} {place : ℕ} {v : ℝ}
    (h : ∀ m : ℤ, |m| ≤ k.centre →
      reflected count u (place + m) + reflected count u (place - m) = 2 * v) :
    filteredAt k count u place = v := by
  have hlen := hk.length
  -- The taps are gone through from both ends at once.
  have hback : filteredAt k count u place = ∑ j ∈ Finset.range k.weights.length,
      k.weights.getD j 0 * reflected count u ((place : ℤ) - ((j : ℤ) - (k.centre : ℤ))) := by
    rw [filteredAt_eq_sum_range, ← Finset.sum_range_reflect]
    refine Finset.sum_congr rfl fun j hj => ?_
    have hj := Finset.mem_range.mp hj
    rw [hk.symm (k.weights.length - 1 - j) j (by omega)]
    congr 2
    omega
  have htwice : filteredAt k count u place + filteredAt k count u place = 2 * v :=
    calc filteredAt k count u place + filteredAt k count u place
        = ∑ j ∈ Finset.range k.weights.length, k.weights.getD j 0 * (2 * v) := by
          nth_rewrite 2 [hback]
          rw [filteredAt_eq_sum_range, ← Finset.sum_add_distrib]
          refine Finset.sum_congr rfl fun j hj => ?_
          have hj := Finset.mem_range.mp hj
          rw [← mul_add, add_sub_assoc, h _ (abs_le.mpr ⟨by omega, by omega⟩)]
      _ = 2 * v := by rw [← Finset.sum_mul, sum_range_getD, hsum, one_mul]
  linarith

/-- A straight line is kept. -/
theorem filteredAt_affine {u : ℕ → ℝ} {p q : ℝ} (hu : ∀ j < count, u j = p + q * j) {place : ℕ}
    (hplace : place < count) : filteredAt k count u place = p + q * place := by
  have hreach := hk.reach
  refine filteredAt_eq_of_balanced hk hsum fun m hm => ?_
  have hm := abs_le.mp hm
  rw [reflected_affine hu (by omega) (by omega), reflected_affine hu (by omega) (by omega)]
  push_cast
  ring

theorem filteredAt_zero_place (u : ℕ → ℝ) : filteredAt k count u 0 = u 0 := by
  have hreach := hk.reach
  refine filteredAt_eq_of_balanced hk hsum fun m hm => ?_
  have hm := abs_le.mp hm
  rw [Nat.cast_zero, zero_add, zero_sub]
  exact reflected_add_reflected_neg u (by omega) (by omega)

/-- The ends of a line are kept. -/
theorem filteredAt_end (u : ℕ → ℝ) {place : ℕ} (h : place = 0 ∨ place + 1 = count) :
    filteredAt k count u place = u place := by
  rcases h with rfl | rfl
  · exact filteredAt_zero_place hk hsum u
  · -- The last value is the first one from the other end.
    have hline : ∀ p < place + 1, u (place + 1 - 1 - p) = (fun j => u (place - j)) p :=
      fun p _ => rfl
    have hreverse := filteredAt_reverse hk hline (Nat.succ_pos place)
    rwa [filteredAt_zero_place hk hsum, Nat.add_sub_cancel, Nat.sub_zero] at hreverse

end Kept

end GridSpline
