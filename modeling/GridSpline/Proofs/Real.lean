import Mathlib
import GridSpline.Scalar.Basic

/-!
# Real scalars

The instance over which the theory is stated. Every real number is finite, the order tests are those
of the reals, and integer parts are not limited to machine words. The lemmas translate what
`Scalar` defines for any type of scalars into the notions of the reals.
-/

namespace GridSpline

noncomputable instance : Scalar ℝ where
  decidableLT := Real.decidableLT
  decidableLE := Real.decidableLE
  sqrt := Real.sqrt
  exp := Real.exp
  log := Real.log
  pow x y := x ^ y
  floor? x := .ok ⌊x⌋
  cellFloor x := ⌊x⌋

namespace Scalar

variable (x y : ℝ)

/-! ## Tests -/

@[simp] theorem isZero_iff : IsZero x ↔ x = 0 := by
  constructor
  · rintro ⟨h1, h2⟩
    exact le_antisymm h1 h2
  · rintro rfl
    exact ⟨le_rfl, le_rfl⟩

@[simp] theorem isNumber : IsNumber x := le_refl x

@[simp] theorem isFinite : IsFinite x := by
  unfold IsFinite
  rw [isZero_iff, sub_self]

/-! ## Integer parts -/

@[simp] theorem floor?_eq : floor? x = .ok ⌊x⌋ := rfl

@[simp] theorem cellFloor_eq : cellFloor x = ⌊x⌋ := rfl

theorem truncate?_of_nonneg (h : 0 ≤ x) : truncate? x = .ok ⌊x⌋ := by
  unfold truncate?
  rw [if_pos h, floor?_eq]

theorem exists_truncate? : ∃ n, truncate? x = .ok n := by
  unfold truncate?
  split
  · exact ⟨⌊x⌋, rfl⟩
  · exact ⟨-⌊-x⌋, rfl⟩

@[simp] theorem ceil?_eq : ceil? x = .ok ⌈x⌉ := by
  unfold ceil?
  rw [floor?_eq, Int.floor_neg]
  show Except.ok (- -⌈x⌉) = _
  rw [neg_neg]

/-! ## Functions -/

@[simp] theorem sqrt_eq : sqrt x = Real.sqrt x := rfl

@[simp] theorem exp_eq : exp x = Real.exp x := rfl

@[simp] theorem log_eq : log x = Real.log x := rfl

@[simp] theorem pow_eq : pow x y = x ^ y := rfl

/-! ## Magnitudes -/

@[simp] theorem magnitude_eq : magnitude x = |x| := by
  unfold magnitude
  split
  · rename_i h
    rw [abs_of_neg h]
  · rename_i h
    rw [abs_of_nonneg (not_lt.mp h)]

@[simp] theorem larger_eq : larger x y = max x y := by
  unfold larger
  split
  · rename_i h
    rw [max_eq_right h.le]
  · rename_i h
    rw [max_eq_left (not_lt.mp h)]

@[simp] theorem maximum_eq : maximum x y = max x y := by
  unfold maximum
  split
  · rename_i h
    rw [max_eq_left h]
  · rename_i h
    rw [if_pos (le_of_not_ge h), max_eq_right (le_of_not_ge h)]

@[simp] theorem minimum_eq : minimum x y = min x y := by
  unfold minimum
  split
  · rename_i h
    rw [min_eq_left h]
  · rename_i h
    rw [if_pos (le_of_not_ge h), min_eq_right (le_of_not_ge h)]

/-! ## Sums -/

theorem foldl_add (l : List ℝ) (a : ℝ) : l.foldl (· + ·) a = a + l.sum := by
  induction l generalizing a with
  | nil => simp
  | cons b bs ih => rw [List.foldl_cons, ih, List.sum_cons, add_assoc]

@[simp] theorem sum_eq (l : List ℝ) : sum l = l.sum := by
  unfold sum
  rw [foldl_add, zero_add]

end Scalar

end GridSpline
