import Mathlib
import GridSpline.Proofs.Solver.Rest

/-!
# A sweep node by node

A sweep is computed from the two triangles of a matrix. It does what its name says: it visits the
nodes in order and gives each the value that satisfies its own equation, with the new values of the
nodes before it and the old values of those after it. For a symmetric matrix every visit goes to the
lowest point of the potential along its axis, and what a sweep gains is the sum of what its visits
gain. So a sweep gains something unless there is nothing to solve.

## Main definitions

* `nodeSolution` — the value that satisfies the equation of a node.
* `relaxNode`, `relaxNodes` — a visit to one node, and to several in order.

## Main statements

* `vectorOf_relaxNodes_range` — the first visits have changed the first values to those of a sweep.
* `gaussSeidel?_eq_relaxNodes`, `sweeps?_eq_iterate` — a sweep is a visit to all nodes.
* `gaussSeidel?_visits` — what it gains.
-/

namespace GridSpline

open Scalar
open Matrix

/-! ## Visits -/

/-- The value that satisfies the equation of a node while all other nodes keep theirs. -/
noncomputable def nodeSolution (A : SparseMatrix ℝ) (b x : Array ℝ) (i : ℕ) : ℝ :=
  (b.getD i 0 - ∑ j ∈ (Finset.range x.size).erase i, A.entry i j * x.getD j 0) / A.entry i i

/-- Gives a node that value. -/
noncomputable def relaxNode (A : SparseMatrix ℝ) (b x : Array ℝ) (i : ℕ) : Array ℝ :=
  x.setIfInBounds i (nodeSolution A b x i)

/-- Visits nodes in order, with the new values of those visited before. -/
noncomputable def relaxNodes (A : SparseMatrix ℝ) (b : Array ℝ) (nodes : List ℕ) (x : Array ℝ) :
    Array ℝ :=
  nodes.foldl (relaxNode A b) x

section Visits

variable {A : SparseMatrix ℝ} {b x : Array ℝ} {n : ℕ}

theorem size_relaxNode (A : SparseMatrix ℝ) (b x : Array ℝ) (i : ℕ) :
    (relaxNode A b x i).size = x.size := Array.size_setIfInBounds

theorem size_relaxNodes (A : SparseMatrix ℝ) (b : Array ℝ) (nodes : List ℕ) (x : Array ℝ) :
    (relaxNodes A b nodes x).size = x.size := by
  induction nodes generalizing x with
  | nil => rfl
  | cons i nodes ih => exact (ih (relaxNode A b x i)).trans (size_relaxNode A b x i)

theorem relaxNodes_range_succ (A : SparseMatrix ℝ) (b : Array ℝ) (k : ℕ) (x : Array ℝ) :
    relaxNodes A b (List.range (k + 1)) x =
      relaxNode A b (relaxNodes A b (List.range k) x) k := by
  unfold relaxNodes
  rw [List.range_succ, List.foldl_append, List.foldl_cons, List.foldl_nil]

/-- The value of a node, by the row of the matrix without the diagonal. -/
theorem nodeSolution_eq (hx : x.size = n) (i : Fin n) : nodeSolution A b x i =
    (vectorOf n b i - ∑ j ∈ Finset.univ.erase i, A.toMatrix n n i j * vectorOf n x j) /
      A.toMatrix n n i i := by
  have hrow : ∑ j ∈ (Finset.range x.size).erase i, A.entry i j * x.getD j 0 =
      ∑ j ∈ Finset.univ.erase i, A.toMatrix n n i j * vectorOf n x j := by
    have hi : (i : ℕ) ∈ Finset.range n := Finset.mem_range.mpr i.isLt
    rw [hx, Finset.sum_erase_eq_sub hi, Finset.sum_erase_eq_sub (Finset.mem_univ i),
      Finset.sum_range]
    rfl
  unfold nodeSolution
  rw [hrow]
  rfl

/-- A visit changes the value of its node only. -/
theorem vectorOf_relaxNode (hx : x.size = n) (i : Fin n) :
    vectorOf n (relaxNode A b x i) = Function.update (vectorOf n x) i (nodeSolution A b x i) := by
  funext j
  rw [vectorOf_apply ((size_relaxNode A b x i).trans hx)]
  unfold relaxNode
  rw [Array.getElem_setIfInBounds]
  by_cases hij : j = i
  · subst hij
    rw [if_pos rfl, Function.update_self]
  · rw [if_neg fun h => hij (Fin.ext h.symm), Function.update_of_ne hij, vectorOf_apply hx]

end Visits

/-! ## A sweep -/

section Sweeps

variable {A : SparseMatrix ℝ} {b x y : Array ℝ} {n : ℕ} (hA : A.Tidy n n)
  (hdiag : ∀ i, 0 < A.toMatrix n n i i)

include hA

/-- Below the diagonal a row of the matrix is one of the lower triangle, above it one of the upper
triangle. -/
theorem sum_row_of_triangle
    (hsolved : A.lower.toMatrix n n *ᵥ vectorOf n y =
      vectorOf n b - A.upper.toMatrix n n *ᵥ vectorOf n x) (i : Fin n) :
    ∑ j ∈ Finset.univ.erase i, A.toMatrix n n i j *
        (if j < i then vectorOf n y j else vectorOf n x j) =
      vectorOf n b i - A.toMatrix n n i i * vectorOf n y i := by
  have hrow : (A.lower.toMatrix n n *ᵥ vectorOf n y) i +
      (A.upper.toMatrix n n *ᵥ vectorOf n x) i = vectorOf n b i := by
    rw [hsolved, Pi.sub_apply, sub_add_cancel]
  have hparts : ∑ j, (A.lower.toMatrix n n i j * vectorOf n y j +
      A.upper.toMatrix n n i j * vectorOf n x j) = vectorOf n b i := by
    rw [Finset.sum_add_distrib]
    exact hrow
  rw [← Finset.add_sum_erase _ _ (Finset.mem_univ i)] at hparts
  have hsum := congrFun (congrFun (SparseMatrix.toMatrix_lower_add_upper hA) i)
  have hself : A.lower.toMatrix n n i i = A.toMatrix n n i i := by
    rw [hsum, Matrix.add_apply, SparseMatrix.toMatrix_upper_apply hA i i le_rfl, add_zero]
  have hothers : ∀ j ∈ Finset.univ.erase i, A.toMatrix n n i j *
        (if j < i then vectorOf n y j else vectorOf n x j) =
      A.lower.toMatrix n n i j * vectorOf n y j + A.upper.toMatrix n n i j * vectorOf n x j := by
    intro j hj
    rw [hsum, Matrix.add_apply]
    rcases lt_or_gt_of_ne (Finset.ne_of_mem_erase hj) with hlt | hgt
    · rw [if_pos hlt, SparseMatrix.toMatrix_upper_apply hA i j hlt.le]
      ring
    · rw [if_neg (not_lt.mpr hgt.le), SparseMatrix.toMatrix_lower_apply hA i j hgt]
      ring
  rw [Finset.sum_congr rfl hothers]
  rw [hself, SparseMatrix.toMatrix_upper_apply hA i i le_rfl] at hparts
  linarith

include hdiag

/-- After the first visits the first nodes have the values of a sweep, and the others their own. -/
theorem vectorOf_relaxNodes_range (hx : x.size = n)
    (hsolved : A.lower.toMatrix n n *ᵥ vectorOf n y =
      vectorOf n b - A.upper.toMatrix n n *ᵥ vectorOf n x) {k : ℕ} (hk : k ≤ n) :
    vectorOf n (relaxNodes A b (List.range k) x) =
      fun j : Fin n => if (j : ℕ) < k then vectorOf n y j else vectorOf n x j := by
  induction k with
  | zero =>
    funext j
    rw [if_neg (Nat.not_lt_zero j)]
    rfl
  | succ k ih =>
    obtain ⟨i, rfl⟩ : ∃ i : Fin n, (i : ℕ) = k := ⟨⟨k, hk⟩, rfl⟩
    have hsize : (relaxNodes A b (List.range i) x).size = n := (size_relaxNodes _ _ _ _).trans hx
    have hbefore := ih i.isLt.le
    have hvalue : nodeSolution A b (relaxNodes A b (List.range i) x) i = vectorOf n y i := by
      have hrow := sum_row_of_triangle hA hsolved i
      rw [nodeSolution_eq hsize, hbefore, div_eq_iff (hdiag i).ne']
      simp only [Fin.val_fin_lt]
      rw [hrow]
      ring
    rw [relaxNodes_range_succ, vectorOf_relaxNode hsize, hvalue, hbefore]
    funext j
    rcases eq_or_ne j i with rfl | hne
    · rw [Function.update_self, if_pos (Nat.lt_succ_self j)]
    · rw [Function.update_of_ne hne]
      have hval : (j : ℕ) ≠ i := fun h => hne (Fin.ext h)
      simp only [show (j : ℕ) < i + 1 ↔ (j : ℕ) < i by omega]

/-- A sweep visits all nodes in order. -/
theorem gaussSeidel?_eq_relaxNodes (hb : b.size = n) (hx : x.size = n) :
    gaussSeidel? A.lower A.upper b x = .ok (relaxNodes A b (List.range n) x) := by
  obtain ⟨y, hy, hsize, hsolved⟩ := exists_gaussSeidel?_triangle hA hdiag hb x
  have hvisited : vectorOf n (relaxNodes A b (List.range n) x) = vectorOf n y := by
    rw [vectorOf_relaxNodes_range hA hdiag hx hsolved le_rfl]
    funext j
    rw [if_pos j.isLt]
  rw [hy, eq_of_vectorOf_eq ((size_relaxNodes A b _ x).trans hx) hsize hvisited]

/-- A batch of sweeps visits all nodes in order, as many times as there are sweeps. -/
theorem sweeps?_eq_iterate (hb : b.size = n) (count : ℕ) (hx : x.size = n) :
    sweeps? A.lower A.upper b count x = .ok ((relaxNodes A b (List.range n))^[count] x) := by
  induction count generalizing x with
  | zero => rfl
  | succ count ih =>
    rw [sweeps?, gaussSeidel?_eq_relaxNodes hA hdiag hb hx, ok_bind,
      ih ((size_relaxNodes A b _ x).trans hx), Function.iterate_succ_apply]

/-- A symmetric matrix with a positive diagonal: a sweep visits all nodes in order. It lowers the
potential by the squares of the changes, weighted with the diagonal; that is something unless the
equations hold, and if they hold it changes nothing. -/
theorem gaussSeidel?_visits (hsymm : (A.toMatrix n n).IsSymm) (hb : b.size = n) (hx : x.size = n)
    (res : List ℕ) (scale : ℝ) :
    let s := LevelSystem.make res A b scale
    let y := relaxNodes A b (List.range n) x
    let J := fun z => potential (A.toMatrix n n) (vectorOf n b) (vectorOf n z)
    gaussSeidel? s.lower s.upper s.rhs x = .ok y ∧ y.size = n ∧
      J x - J y =
        1 / 2 * ∑ i, A.toMatrix n n i i * (vectorOf n y i - vectorOf n x i) ^ 2 ∧
      (A.toMatrix n n *ᵥ vectorOf n x ≠ vectorOf n b → J y < J x) ∧
      (y = x ↔ A.toMatrix n n *ᵥ vectorOf n x = vectorOf n b) := by
  intro s y J
  have hsweep : gaussSeidel? A.lower A.upper b x = .ok y :=
    gaussSeidel?_eq_relaxNodes hA hdiag hb hx
  have hsize : y.size = n := (size_relaxNodes A b _ x).trans hx
  obtain ⟨z, hz, -, hsolved⟩ := exists_gaussSeidel?_triangle hA hdiag hb x
  obtain rfl : y = z := Except.ok.inj (hsweep.symm.trans hz)
  have hsum := SparseMatrix.toMatrix_lower_add_upper hA
  have hdrop : J x - J y =
      1 / 2 * ∑ i, A.toMatrix n n i i * (vectorOf n y i - vectorOf n x i) ^ 2 :=
    potential_triangle hsymm hsum (SparseMatrix.toMatrix_lower_apply hA)
      (SparseMatrix.toMatrix_upper_apply hA) hsolved
  have hfixed : y = x ↔ A.toMatrix n n *ᵥ vectorOf n x = vectorOf n b := by
    constructor
    · intro heq
      rw [heq] at hsolved
      rw [hsum, add_mulVec, hsolved, sub_add_cancel]
    · intro hsolution
      have hself := gaussSeidel?_eq_self hA hx hsolution hb hdiag
      exact Except.ok.inj (hsweep.symm.trans hself)
  refine ⟨hsweep, hsize, hdrop, fun hopen => ?_, hfixed⟩
  -- Some value has changed, and its square counts.
  obtain ⟨i, hi⟩ : ∃ i, vectorOf n y i ≠ vectorOf n x i := by
    by_contra hsame
    push Not at hsame
    exact hopen (hfixed.mp (eq_of_vectorOf_eq hsize hx (funext hsame)))
  have hpos : 0 < ∑ i, A.toMatrix n n i i * (vectorOf n y i - vectorOf n x i) ^ 2 := by
    refine Finset.sum_pos' (fun j _ => mul_nonneg (hdiag j).le (sq_nonneg _))
      ⟨i, Finset.mem_univ i, mul_pos (hdiag i) (sq_pos_of_ne_zero (sub_ne_zero.mpr hi))⟩
  linarith

end Sweeps

/-- A matrix that is not semidefinite. -/
theorem gaussSeidel?_visits_indefinite :
    let A := LevelSystem.ones 3 (-0.5)
    let b := Array.replicate 3 1
    let x := Array.replicate 3 0
    ∃ y, gaussSeidel? A.lower A.upper b x = .ok y ∧ y ≠ x ∧
      potential (A.toMatrix 3 3) (vectorOf 3 b) (vectorOf 3 y) <
        potential (A.toMatrix 3 3) (vectorOf 3 b) (vectorOf 3 x) := by
  intro A b x
  have hmatrix : A.toMatrix 3 3 = vecMulVec 1 1 + (-0.5 : ℝ) • 1 := LevelSystem.toMatrix_ones 3 _
  have hdiag : ∀ i, 0 < A.toMatrix 3 3 i i := by
    intro i
    rw [hmatrix]
    norm_num [vecMulVec]
  have hsymm : (A.toMatrix 3 3).IsSymm := by
    rw [hmatrix]
    exact (isSymm_of_isHermitian (LevelSystem.posSemidef_vecMulVec_one 3).isHermitian).add
      (isSymm_one.smul _)
  have hopen : A.toMatrix 3 3 *ᵥ vectorOf 3 x ≠ vectorOf 3 b := by
    have hzero : vectorOf 3 x = 0 := funext fun i => by
      rw [vectorOf_apply (by simp [x]), Array.getElem_replicate]
      rfl
    rw [hzero, mulVec_zero]
    intro h
    exact zero_ne_one (congrFun h 0)
  obtain ⟨hsweep, -, -, hlt, hfixed⟩ := gaussSeidel?_visits (LevelSystem.tidy_ones 3 (-0.5)) hdiag
    hsymm (b := b) (x := x) (by simp [b]) (by simp [x]) [3] 1
  exact ⟨_, hsweep, fun h => hopen (hfixed.mp h), hlt hopen⟩

end GridSpline
