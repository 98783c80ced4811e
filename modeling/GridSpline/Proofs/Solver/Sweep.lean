import Mathlib
import GridSpline.Proofs.Result
import GridSpline.Proofs.Sparse.Matrix
import GridSpline.Solver.Solve

/-!
# Sweeps over the nodes

What the parts of the solver do to the number of node values, and when they fail. Conjugate
gradients and relaxed lines keep the number, and they never fail, since an entry of the diagonal
that is zero is replaced by one. A sweep of relaxation divides by the diagonal: it fails for every
vector if an entry of the diagonal is zero, and for none if not.

## Main statements

* `hasZeroPivot_lower_iff` — a triangle of a matrix has no pivot where its diagonal is zero.
* `exists_sweeps?` — without a zero on the diagonal sweeps succeed.
* `sweeps?_eq_error` — with one the first sweep fails.
-/

namespace GridSpline

open Scalar Failure

/-! ## Conjugate gradients -/

theorem size_scatter (x : Array ℝ) (nodes : List ℕ) (values : Array ℝ) :
    (scatter x nodes values).size = x.size := by
  have hfold : ∀ (l : List (ℕ × ℕ)) (y : Array ℝ),
      (l.foldl (fun y p => y.setIfInBounds p.1 (values.getD p.2 0)) y).size = y.size := by
    intro l
    induction l with
    | nil => exact fun y => rfl
    | cons p l ih =>
      intro y
      rw [List.foldl_cons, ih, Array.size_setIfInBounds]
  exact hfold nodes.zipIdx x

theorem size_conjugateGradient (A : SparseMatrix ℝ) (b : Array ℝ) (nodes : List ℕ) (steps : ℕ)
    (tolerance : ℝ) (x : Array ℝ) :
    (conjugateGradient A b nodes steps tolerance x).1.size = x.size := size_scatter _ _ _

theorem size_lineSweep (A : SparseMatrix ℝ) (b : Array ℝ) (res : List ℕ) (steps : ℕ)
    (tolerance : ℝ) (x : Array ℝ) : (lineSweep A b res steps tolerance x).size = x.size := by
  unfold lineSweep
  induction allLines res generalizing x with
  | nil => rfl
  | cons line lines ih => rw [List.foldl_cons, ih, size_conjugateGradient]

theorem errorScale_pos (b : Array ℝ) : 0 < errorScale b := by
  unfold errorScale
  simp only
  by_cases hzero : IsZero (lengthOf b)
  · rw [if_pos hzero]
    exact one_pos
  · rw [if_neg hzero]
    rw [isZero_iff] at hzero
    exact lt_of_le_of_ne (Real.sqrt_nonneg _) (Ne.symm hzero)

section Given

variable {A : SparseMatrix ℝ} {b x : Array ℝ} {n : ℕ} (hrows : A.rows.size = n)
  (hcolumns : A.columns = n) (hb : b.size = n) (hx : x.size = n) {tolerance : ℝ}
  (ht : 0 ≤ tolerance)

include hrows hcolumns hb hx ht

/-- Any nodes of a square system can be solved for. -/
theorem conjugateGradient?_ofNat {nodes : List ℕ} (hnodes : ∀ i ∈ nodes, i < n)
    (steps : Option ℕ) :
    conjugateGradient? A b (nodes.map Int.ofNat) steps (some tolerance) x =
      .ok (conjugateGradient A b nodes (steps.getD (10 * nodes.length)) tolerance x) := by
  have hplaces : (nodes.map Int.ofNat).mapM (Lattice.position? n) = some nodes := by
    rw [List.mapM_map, mapM_eq_some_map (g := id), List.map_id]
    intro i hi
    exact Lattice.position?_ofNat (hnodes i hi)
  have hbound : ¬tolerance * errorScale (gather b nodes) < 0 :=
    not_lt.mpr (mul_nonneg ht (errorScale_pos _).le)
  unfold conjugateGradient?
  rw [hb, hrows, hplaces]
  simp only [require_some, discard, Functor.mapConst, ok_bind]
  rw [if_neg (by rw [hx, hcolumns]; simp), if_neg hbound]
  rfl

/-- All nodes of a square system can be solved for at once. -/
theorem conjugateGradient?_eq :
    conjugateGradient? A b ((List.range x.size).map Int.ofNat) none (some tolerance) x =
      .ok (conjugateGradient A b (List.range n) (10 * n) tolerance x) := by
  rw [hx, conjugateGradient?_ofNat hrows hcolumns hb hx ht (fun i hi => List.mem_range.mp hi),
    Option.getD_none, List.length_range]

end Given

/-! ## The triangles -/

namespace SparseRow

theorem find?_filter {row : SparseRow ℝ} (h : Ascending row) {j : ℕ} {p : ℕ × ℝ → Bool}
    (hp : ∀ v, p (j, v) = true) : find? j (row.filter p) = find? j row := by
  have hfilter : Ascending (row.filter p) := List.Pairwise.filter p h
  ext v
  rw [find?_eq_some_iff hfilter, find?_eq_some_iff h, List.mem_filter]
  exact and_iff_left (hp v)

end SparseRow

namespace SparseMatrix

variable {A : SparseMatrix ℝ} {n : ℕ}

theorem size_lower (A : SparseMatrix ℝ) : A.lower.rows.size = A.rows.size := by
  simp [lower]

theorem size_upper (A : SparseMatrix ℝ) : A.upper.rows.size = A.rows.size := by
  simp [upper]

theorem row_lower (A : SparseMatrix ℝ) (i : ℕ) :
    A.lower.row i = (A.row i).filter fun e => decide (e.1 ≤ i) := by
  unfold row lower
  simp only [Array.getD_eq_getD_getElem?, Array.getElem?_mapIdx]
  cases A.rows[i]? <;> rfl

/-- The lower triangle has the diagonal of the matrix. -/
theorem entry_lower_self (h : A.Tidy n n) (i : ℕ) : A.lower.entry i i = A.entry i i := by
  rw [entry_eq_coeff, entry_eq_coeff, row_lower]
  unfold SparseRow.coeff
  rw [SparseRow.find?_filter (h.ascending i)]
  intro v
  exact decide_eq_true (le_refl i)

/-- A triangle of a matrix has no pivot where its diagonal is zero. -/
theorem hasZeroPivot_lower_iff (h : A.Tidy n n) :
    hasZeroPivot A.lower = true ↔ ∃ i : Fin n, A.toMatrix n n i i = 0 := by
  unfold hasZeroPivot
  rw [List.any_eq_true]
  constructor
  · rintro ⟨i, hi, hzero⟩
    rw [List.mem_range, size_lower, h.rows] at hi
    rw [decide_eq_true_eq, isZero_iff, entry_lower_self h] at hzero
    exact ⟨⟨i, hi⟩, hzero⟩
  · rintro ⟨i, hzero⟩
    refine ⟨i, by rw [List.mem_range, size_lower, h.rows]; exact i.isLt, ?_⟩
    rw [decide_eq_true_eq, isZero_iff, entry_lower_self h]
    exact hzero

end SparseMatrix

/-! ## Relaxation -/

theorem size_substituteRows (lower : SparseMatrix ℝ) (scale rhs : Array ℝ) :
    (substituteRows lower scale rhs).size = rhs.size := by
  have hfold : ∀ (l : List ℕ) (found : Array ℝ),
      (l.foldl (fun found _ => found.push (substituteRow lower scale rhs found)) found).size =
        found.size + l.length := by
    intro l
    induction l with
    | nil => exact fun found => rfl
    | cons i l ih =>
      intro found
      rw [List.foldl_cons, ih, Array.size_push, List.length_cons]
      omega
  unfold substituteRows
  rw [hfold, List.length_range]
  simp

theorem size_forwardSubstitution (lower : SparseMatrix ℝ) (rhs : Array ℝ) :
    (forwardSubstitution lower rhs).size = min rhs.size lower.rows.size := by
  unfold forwardSubstitution pivotScale
  simp [size_substituteRows]

section Sweeps

variable {lower upper : SparseMatrix ℝ} {b : Array ℝ} {n : ℕ}

/-- Without a zero on the diagonal sweeps succeed. -/
theorem exists_sweeps? (hpivot : hasZeroPivot lower = false) (hlower : lower.rows.size = n)
    (hupper : upper.rows.size = n) (hb : b.size = n) (count : ℕ) {x : Array ℝ} (hx : x.size = n) :
    ∃ y, sweeps? lower upper b count x = .ok y ∧ y.size = n := by
  induction count generalizing x with
  | zero => exact ⟨x, rfl, hx⟩
  | succ count ih =>
    have hsize : (forwardSubstitution lower (minus b (upper.mulVec x))).size = n := by
      rw [size_forwardSubstitution]
      simp [minus, SparseMatrix.size_mulVec, hlower, hupper, hb]
    have hsweep : gaussSeidel? lower upper b x =
        .ok (forwardSubstitution lower (minus b (upper.mulVec x))) := by
      unfold gaussSeidel?
      rw [if_neg (by rw [hpivot]; exact Bool.false_ne_true)]
      rfl
    obtain ⟨y, hy, hysize⟩ := ih hsize
    refine ⟨y, ?_, hysize⟩
    rw [sweeps?, hsweep]
    exact hy

/-- With one the first sweep fails. -/
theorem sweeps?_eq_error (hpivot : hasZeroPivot lower = true) {count : ℕ} (hcount : 0 < count)
    (x : Array ℝ) : sweeps? lower upper b count x = .error .singular := by
  cases count with
  | zero => omega
  | succ count =>
    rw [sweeps?, gaussSeidel?, if_pos hpivot]
    rfl

end Sweeps

end GridSpline
