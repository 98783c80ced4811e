import Mathlib
import GridSpline.Proofs.Solver.Vector

/-!
# Descent by relaxation

A sweep solves the lower triangle row by row. The rows that are done stay solved, because a row of
the triangle ends at the diagonal and a value found later is not in it; the row at hand is solved
because its pivot is not zero. A symmetric matrix with a positive diagonal has its potential lowered
by solving the triangle, so sweeps never raise it.

## Main definitions

* `SolvesTriangle` — the rows of a triangle that are solved by the values found so far.

## Main statements

* `entry_lower`, `entry_upper`, `toMatrix_lower_add_upper` — the matrix as the sum of its triangles.
* `solvesTriangle_substituteRows` — the rows are solved one after the other.
* `toMatrix_mulVec_forwardSubstitution` — forward substitution solves a triangle.
* `exists_sweeps?_lowers` — sweeps succeed and do not raise the potential.
-/

namespace GridSpline

open Scalar
open Matrix

/-! ## The triangles -/

namespace SparseRow

variable {row : SparseRow ℝ}

theorem coeff_filter (h : Ascending row) (q : ℕ → Prop) [DecidablePred q] (j : ℕ) :
    coeff (row.filter fun e => decide (q e.1)) j = if q j then coeff row j else 0 := by
  by_cases hq : q j
  · rw [if_pos hq]
    unfold coeff
    rw [find?_filter h]
    exact fun _ => decide_eq_true hq
  · rw [if_neg hq]
    have hnone : find? j (row.filter fun e => decide (q e.1)) = none := by
      rw [Option.eq_none_iff_forall_ne_some]
      intro v hv
      rw [find?_eq_some_iff (List.Pairwise.filter _ h), List.mem_filter] at hv
      exact hq (of_decide_eq_true hv.2)
    unfold coeff
    rw [hnone, Option.getD_none]

/-- The product with a vector that has one entry more. -/
theorem dot_push {n : ℕ} (h : Ascending row) (hn : ∀ e ∈ row, e.1 < n) {x : Array ℝ}
    (hx : x.size < n) (v : ℝ) : dot row (x.push v) = dot row x + coeff row x.size * v := by
  have hsingle : ∑ j : Fin n, coeff row j * (if (j : ℕ) = x.size then v else 0) =
      coeff row x.size * v := by
    rw [Finset.sum_eq_single ⟨x.size, hx⟩]
    · rw [if_pos rfl]
    · intro j _ hj
      rw [if_neg fun heq => hj (Fin.ext heq), mul_zero]
    · exact fun hmem => absurd (Finset.mem_univ _) hmem
  rw [dot_eq_sum h hn, dot_eq_sum h hn, ← hsingle, ← Finset.sum_add_distrib]
  refine Finset.sum_congr rfl fun j _ => ?_
  rw [← mul_add]
  congr 1
  simp only [Array.getD_eq_getD_getElem?, Array.getElem?_push]
  by_cases hj : (j : ℕ) = x.size
  · rw [if_pos hj, if_pos hj, hj, Array.getElem?_eq_none le_rfl, Option.getD_some, Option.getD_none,
      zero_add]
  · rw [if_neg hj, if_neg hj, add_zero]

end SparseRow

namespace SparseMatrix

variable {A : SparseMatrix ℝ} {n : ℕ}

theorem row_upper (A : SparseMatrix ℝ) (i : ℕ) :
    A.upper.row i = (A.row i).filter fun e => decide (i < e.1) := by
  unfold row upper
  simp only [Array.getD_eq_getD_getElem?, Array.getElem?_mapIdx]
  cases A.rows[i]? <;> rfl

theorem tidy_lower (h : A.Tidy n n) : A.lower.Tidy n n :=
  h.of_sublist ((size_lower A).trans h.rows) h.columns fun i => ⟨i, by
    rw [row_lower]
    exact List.filter_sublist⟩

theorem tidy_upper (h : A.Tidy n n) : A.upper.Tidy n n :=
  h.of_sublist ((size_upper A).trans h.rows) h.columns fun i => ⟨i, by
    rw [row_upper]
    exact List.filter_sublist⟩

theorem entry_lower (h : A.Tidy n n) (i j : ℕ) :
    A.lower.entry i j = if j ≤ i then A.entry i j else 0 := by
  rw [entry_eq_coeff, entry_eq_coeff, row_lower]
  exact SparseRow.coeff_filter (h.ascending i) (· ≤ i) j

theorem entry_upper (h : A.Tidy n n) (i j : ℕ) :
    A.upper.entry i j = if i < j then A.entry i j else 0 := by
  rw [entry_eq_coeff, entry_eq_coeff, row_upper]
  exact SparseRow.coeff_filter (h.ascending i) (i < ·) j

/-- Above the diagonal the lower triangle is empty. -/
theorem toMatrix_lower_apply (h : A.Tidy n n) (i j : Fin n) (hij : i < j) :
    A.lower.toMatrix n n i j = 0 := by
  show A.lower.entry i j = 0
  rw [entry_lower h, if_neg (Nat.not_le.mpr hij)]

/-- The upper triangle is without the diagonal. -/
theorem toMatrix_upper_apply (h : A.Tidy n n) (i j : Fin n) (hji : j ≤ i) :
    A.upper.toMatrix n n i j = 0 := by
  show A.upper.entry i j = 0
  rw [entry_upper h, if_neg (Nat.not_lt.mpr hji)]

/-- A matrix is the sum of its triangles. -/
theorem toMatrix_lower_add_upper (h : A.Tidy n n) :
    A.toMatrix n n = A.lower.toMatrix n n + A.upper.toMatrix n n := by
  ext i j
  show A.entry i j = A.lower.entry i j + A.upper.entry i j
  rw [entry_lower h, entry_upper h]
  by_cases hij : (j : ℕ) ≤ i
  · rw [if_pos hij, if_neg (not_lt.mpr hij), add_zero]
  · rw [if_neg hij, if_pos (not_le.mp hij), zero_add]

end SparseMatrix

/-! ## Forward substitution -/

/-- What was found, times the reciprocals of the pivots, solves the rows down to the last one for
which something was found. -/
def SolvesTriangle (lower : SparseMatrix ℝ) (scale rhs found : Array ℝ) : Prop :=
  ∀ i < found.size,
    (lower.row i).dot (Array.zipWith (· * ·) found scale) = rhs.getD i 0

section Triangle

variable {lower : SparseMatrix ℝ} {scale rhs found : Array ℝ} {n : ℕ}

/-- An entry takes its product away; one beyond what was found takes nothing. -/
theorem reduceBy_eq (hscale : found.size ≤ scale.size) (rest : ℝ) (e : ℕ × ℝ) :
    reduceBy scale found found.size rest e =
      rest - e.2 * (Array.zipWith (· * ·) found scale).getD e.1 0 := by
  obtain ⟨j, v⟩ := e
  unfold reduceBy
  simp only [Array.getD_eq_getD_getElem?, Array.getElem?_zipWith]
  by_cases hj : j < found.size
  · rw [if_pos hj, Array.getElem?_eq_getElem hj, Array.getElem?_eq_getElem (hj.trans_le hscale)]
    simp only [Option.getD_some]
    by_cases hzero : IsZero (v * scale[j])
    · rw [if_pos hzero]
      rw [isZero_iff] at hzero
      rw [mul_left_comm, hzero, mul_zero, sub_zero]
    · rw [if_neg hzero]
      ring
  · rw [if_neg hj, Array.getElem?_eq_none (not_lt.mp hj)]
    simp

theorem substituteRow_eq (hscale : found.size ≤ scale.size) :
    substituteRow lower scale rhs found = rhs.getD found.size 0 -
      (lower.row found.size).dot (Array.zipWith (· * ·) found scale) := by
  have hfold : ∀ (row : SparseRow ℝ) (rest : ℝ),
      row.foldl (reduceBy scale found found.size) rest =
        rest - (row.map fun e => e.2 * (Array.zipWith (· * ·) found scale).getD e.1 0).sum := by
    intro row
    induction row with
    | nil => simp
    | cons e row ih =>
      intro rest
      rw [List.foldl_cons, ih, reduceBy_eq hscale, List.map_cons, List.sum_cons, sub_sub]
  unfold substituteRow SparseRow.dot
  rw [hfold, SparseRow.foldl_eq_add_sum, zero_add]

theorem zipWith_push (hscale : found.size < scale.size) (v : ℝ) :
    Array.zipWith (· * ·) (found.push v) scale =
      (Array.zipWith (· * ·) found scale).push (v * scale.getD found.size 0) := by
  refine Array.ext (by simp; omega) ?_
  intro i h1 h2
  rw [Array.getElem_zipWith, Array.getElem_push, Array.getElem_push]
  by_cases hi : i < found.size
  · rw [dif_pos hi, dif_pos (by simp; omega), Array.getElem_zipWith]
  · have heq : i = found.size := by
      rw [Array.size_push, Array.size_zipWith] at h2
      omega
    subst heq
    rw [dif_neg hi, dif_neg (by simp), Array.getD_eq_getD_getElem?,
      Array.getElem?_eq_getElem hscale, Option.getD_some]

variable (hlower : lower.Tidy n n) (hends : ∀ i j, i < j → lower.entry i j = 0)
  (hscale : scale.size = n) (hpivot : ∀ i < n, lower.entry i i * scale.getD i 0 = 1)

include hlower hends hscale hpivot

/-- The next row is solved, and those before it stay solved. -/
theorem SolvesTriangle.push (h : SolvesTriangle lower scale rhs found) (hfound : found.size < n) :
    SolvesTriangle lower scale rhs (found.push (substituteRow lower scale rhs found)) := by
  have hzip : (Array.zipWith (· * ·) found scale).size = found.size := by
    rw [Array.size_zipWith, hscale]
    omega
  intro i hi
  rw [Array.size_push] at hi
  rw [zipWith_push (by omega), SparseRow.dot_push (hlower.ascending i) (hlower.within i)
    (by omega), hzip]
  rcases Nat.lt_succ_iff_lt_or_eq.mp hi with hlt | rfl
  · have hbeyond : SparseRow.coeff (lower.row i) found.size = 0 := hends i _ hlt
    rw [hbeyond, zero_mul, add_zero]
    exact h i hlt
  · have hunit : SparseRow.coeff (lower.row found.size) found.size * scale.getD found.size 0 = 1 :=
      hpivot _ hfound
    rw [mul_left_comm, hunit, mul_one, substituteRow_eq (by omega), add_sub_cancel]

/-- The rows are solved one after the other. -/
theorem solvesTriangle_substituteRows (hrhs : rhs.size = n) :
    SolvesTriangle lower scale rhs (substituteRows lower scale rhs) := by
  have hfold : ∀ (l : List ℕ) (found : Array ℝ), found.size + l.length ≤ n →
      SolvesTriangle lower scale rhs found → SolvesTriangle lower scale rhs
        (l.foldl (fun found _ => found.push (substituteRow lower scale rhs found)) found) := by
    intro l
    induction l with
    | nil => exact fun found _ h => h
    | cons k l ih =>
      intro found hroom h
      rw [List.length_cons] at hroom
      rw [List.foldl_cons]
      exact ih _ (by rw [Array.size_push]; omega)
        (h.push hlower hends hscale hpivot (by omega))
  refine hfold _ _ (by simp [hrhs]) ?_
  intro i hi
  simp at hi

end Triangle

section Substitution

variable {lower : SparseMatrix ℝ} {n : ℕ}

/-- Forward substitution solves a triangle without a zero on its diagonal. -/
theorem toMatrix_mulVec_forwardSubstitution (hlower : lower.Tidy n n)
    (hends : ∀ i j, i < j → lower.entry i j = 0) (hdiag : ∀ i < n, lower.entry i i ≠ 0)
    {rhs : Array ℝ} (hrhs : rhs.size = n) :
    lower.toMatrix n n *ᵥ vectorOf n (forwardSubstitution lower rhs) = vectorOf n rhs := by
  have hscale : (pivotScale lower).size = n := by
    simp [pivotScale, hlower.rows]
  have hpivot : ∀ i < n, lower.entry i i * (pivotScale lower).getD i 0 = 1 := by
    intro i hi
    have hget : (pivotScale lower).getD i 0 = 1 / lower.entry i i := by
      simp [pivotScale, hlower.rows, hi]
    rw [hget, mul_one_div_cancel (hdiag i hi)]
  have hsolved := solvesTriangle_substituteRows hlower hends hscale hpivot hrhs
  rw [← SparseMatrix.vectorOf_mulVec hlower]
  funext i
  have hi : (i : ℕ) < lower.rows.size := by
    rw [hlower.rows]
    exact i.isLt
  have hrow := hsolved i (by rw [size_substituteRows, hrhs]; exact i.isLt)
  rw [vectorOf_apply (by rw [SparseMatrix.size_mulVec, hlower.rows])]
  simp only [SparseMatrix.mulVec, Array.getElem_map]
  rw [← SparseMatrix.row_eq_getElem hi]
  exact hrow

end Substitution

/-! ## Sweeps -/

section Sweeps

variable {A : SparseMatrix ℝ} {b x : Array ℝ} {n : ℕ} (hA : A.Tidy n n)
  (hsymm : (A.toMatrix n n).IsSymm) (hdiag : ∀ i, 0 < A.toMatrix n n i i) (hb : b.size = n)

include hA hsymm hdiag hb

omit hsymm in
/-- A sweep solves the lower triangle, with the product of the upper one moved to the right-hand
side. -/
theorem exists_gaussSeidel?_triangle (x : Array ℝ) :
    ∃ y, gaussSeidel? A.lower A.upper b x = .ok y ∧ y.size = n ∧
      A.lower.toMatrix n n *ᵥ vectorOf n y =
        vectorOf n b - A.upper.toMatrix n n *ᵥ vectorOf n x := by
  have hpivot : ¬hasZeroPivot A.lower = true := by
    rw [SparseMatrix.hasZeroPivot_lower_iff hA]
    exact fun ⟨i, hi⟩ => (hdiag i).ne' hi
  have hlower := SparseMatrix.tidy_lower hA
  have hproduct : (A.upper.mulVec x).size = n := by
    rw [SparseMatrix.size_mulVec, (SparseMatrix.tidy_upper hA).rows]
  have hrhs : (minus b (A.upper.mulVec x)).size = n := size_minus hb hproduct
  have hends : ∀ i j, i < j → A.lower.entry i j = 0 := fun i j hij => by
    rw [SparseMatrix.entry_lower hA, if_neg (not_le.mpr hij)]
  refine ⟨_, by rw [gaussSeidel?, if_neg hpivot]; rfl, ?_, ?_⟩
  · rw [size_forwardSubstitution, hrhs, hlower.rows, min_self]
  · rw [toMatrix_mulVec_forwardSubstitution hlower hends _ hrhs, vectorOf_minus hb hproduct,
      SparseMatrix.vectorOf_mulVec (SparseMatrix.tidy_upper hA)]
    intro i hi
    rw [SparseMatrix.entry_lower_self hA]
    exact (hdiag ⟨i, hi⟩).ne'

/-- A sweep succeeds and does not raise the potential. -/
theorem exists_gaussSeidel?_lowers (x : Array ℝ) :
    ∃ y, gaussSeidel? A.lower A.upper b x = .ok y ∧ Lowers A b n x y := by
  obtain ⟨y, hy, hsize, hsolved⟩ := exists_gaussSeidel?_triangle hA hdiag hb x
  have hdrop := potential_triangle hsymm (SparseMatrix.toMatrix_lower_add_upper hA)
    (SparseMatrix.toMatrix_lower_apply hA) (SparseMatrix.toMatrix_upper_apply hA) hsolved
  have hnonneg : 0 ≤ ∑ i, A.toMatrix n n i i * (vectorOf n y i - vectorOf n x i) ^ 2 :=
    Finset.sum_nonneg fun i _ => mul_nonneg (hdiag i).le (sq_nonneg _)
  exact ⟨y, hy, hsize, by linarith⟩

/-- Sweeps succeed and do not raise the potential. -/
theorem exists_sweeps?_lowers (count : ℕ) (hx : x.size = n) :
    ∃ y, sweeps? A.lower A.upper b count x = .ok y ∧ Lowers A b n x y := by
  induction count generalizing x with
  | zero => exact ⟨x, rfl, .refl hx⟩
  | succ count ih =>
    obtain ⟨y, hy, hfirst⟩ := exists_gaussSeidel?_lowers hA hsymm hdiag hb x
    obtain ⟨z, hz, hrest⟩ := ih hfirst.size
    refine ⟨z, ?_, hfirst.trans hrest⟩
    rw [sweeps?, hy]
    exact hz

end Sweeps

end GridSpline
