import Mathlib
import GridSpline.Proofs.Solver.Lowering

/-!
# Solves that start at a solution

A solve that starts from node values that satisfy the equations leaves them as they are: nothing is
left for a descent to do, and a sweep finds the values that it started from. There is one exception.
Equations with nothing on the right-hand side are answered by zero wherever the start is. For some
nodes of the lattice, with all others moved to the right-hand side, that is the case when the rows
and columns of the nodes take their values to zero. Where this happens to no values but zero, the
solve ends after one iteration without an error.

## Main definitions

* `IsHeld` — node values that the equations for some nodes do not take to zero.

## Main statements

* `conjugateGradient_eq_self`, `lineSweep_eq_self`, `gaussSeidel?_eq_self` — single methods.
* `IsSolvable.solve_eq_self` — the whole solve.
-/

namespace GridSpline

open Scalar Failure
open Matrix

/-- Node values that are zero at some nodes, or that the rows and columns of these nodes do not take
to zero. -/
def IsHeld {n k : ℕ} (M : Matrix (Fin n) (Fin n) ℝ) (x : Fin n → ℝ) (e : Fin k → Fin n) : Prop :=
  M.submatrix e e *ᵥ (x ∘ e) = 0 → x ∘ e = 0

variable {n : ℕ} {A : SparseMatrix ℝ} {b x : Array ℝ}

/-! ## Conjugate gradients -/

/-- Where no residual is left there is no step to make. -/
theorem Descent.run_eq_self (scale : Array ℝ) {bound : ℝ} (hbound : 0 < bound) (steps : ℕ)
    {s : Descent ℝ} {k : ℕ} (hsize : s.residual.size = k) (hzero : vectorOf k s.residual = 0) :
    Descent.run A scale bound steps s = s := by
  have hshort : lengthOf s.residual < bound := by
    by_contra hlong
    exact vectorOf_ne_zero_of_lengthOf hsize hbound hlong hzero
  cases steps with
  | zero => rfl
  | succ steps => rw [Descent.run, if_pos hshort]

/-- A descent from a solution ends where it starts, unless nothing is on the right-hand side. -/
theorem vectorOf_descend_eq_self {k : ℕ} (hA : A.Tidy k k) (hb : b.size = k)
    (hsolution : A.toMatrix k k *ᵥ vectorOf k x = vectorOf k b)
    (hheld : vectorOf k b = 0 → vectorOf k x = 0) (steps : ℕ) {bound : ℝ} (hbound : 0 < bound) :
    vectorOf k (descend A b x steps bound) = vectorOf k x := by
  have hproduct : (A.mulVec x).size = k := by
    rw [SparseMatrix.size_mulVec, hA.rows]
  unfold descend
  by_cases hzero : IsZero (lengthOf b)
  · rw [if_pos hzero, vectorOf_map_zero, hheld ((isZero_lengthOf_iff hb).mp hzero)]
  · have hresidual : vectorOf k (Descent.start A b x).residual = 0 := by
      show vectorOf k (minus b (A.mulVec x)) = 0
      rw [vectorOf_minus hb hproduct, SparseMatrix.vectorOf_mulVec hA, hsolution, sub_self]
    rw [if_neg hzero, Descent.run_eq_self _ hbound steps (size_minus hb hproduct) hresidual]
    rfl

section Solution

variable (hA : A.Tidy n n) (hb : b.size = n) (hx : x.size = n)
  (hsolution : A.toMatrix n n *ᵥ vectorOf n x = vectorOf n b)

include hA hx hsolution

/-- Solving for some nodes leaves a solution as it is. -/
theorem conjugateGradient_eq_self {nodes : List ℕ} (hnodes : ∀ i ∈ nodes, i < n)
    (hnodup : nodes.Nodup) (hheld : IsHeld (A.toMatrix n n) (vectorOf n x) (nodeAt hnodes))
    (steps : ℕ) {tolerance : ℝ} (ht : 0 < tolerance) :
    (conjugateGradient A b nodes steps tolerance x).1 = x := by
  have hlocal : vectorOf nodes.length (localRhs A b nodes x) =
      (A.toMatrix n n).submatrix (nodeAt hnodes) (nodeAt hnodes) *ᵥ
        (vectorOf n x ∘ nodeAt hnodes) := by
    have hresidual : (0 : Fin n → ℝ) ∘ nodeAt hnodes = 0 := rfl
    rw [vectorOf_localRhs hA hnodes, innerRhs, hsolution, sub_self, hresidual, zero_add]
  have hstart := vectorOf_gather hnodes x
  have hsolved := vectorOf_descend_eq_self (SparseMatrix.tidy_restrict A nodes)
    (size_localRhs A b nodes x)
    (by rw [SparseMatrix.toMatrix_restrict hnodes, hstart, hlocal])
    (by rw [hlocal, hstart]; exact hheld) steps (mul_pos ht (errorScale_pos (gather b nodes)))
  refine eq_of_vectorOf_eq ((size_conjugateGradient _ _ _ _ _ _).trans hx) hx ?_
  rw [conjugateGradient_eq, vectorOf_scatter hnodes hnodup hx, hsolved, hstart, sub_self]
  unfold spread
  rw [zero_vecMul, add_zero]

/-- Solving all lines leaves a solution as it is. -/
theorem lineSweep_eq_self {res : List ℕ} (hres : Lattice.size res = n)
    (hheld : ∀ line (hline : line ∈ allLines res), IsHeld (A.toMatrix n n) (vectorOf n x)
      (nodeAt (hres ▸ Lattice.lt_size_of_mem_allLines hline)))
    (steps : ℕ) {tolerance : ℝ} (ht : 0 < tolerance) :
    lineSweep A b res steps tolerance x = x := by
  have hfold : ∀ lines : List (List ℕ), (∀ line ∈ lines, line ∈ allLines res) →
      lines.foldl (fun y line => (conjugateGradient A b line steps tolerance y).1) x = x := by
    intro lines hlines
    induction lines with
    | nil => rfl
    | cons line lines ih =>
      have hline := hlines line List.mem_cons_self
      rw [List.foldl_cons, conjugateGradient_eq_self hA hx hsolution _
        (Lattice.nodup_of_mem_allLines hline) (hheld line hline) steps ht]
      exact ih fun l hl => hlines l (List.mem_cons_of_mem line hl)
  exact hfold (allLines res) fun _ hline => hline

/-! ## Relaxation -/

/-- A sweep leaves a solution as it is. -/
theorem gaussSeidel?_eq_self (hb : b.size = n) (hdiag : ∀ i, 0 < A.toMatrix n n i i) :
    gaussSeidel? A.lower A.upper b x = .ok x := by
  obtain ⟨y, hy, hsize, hsolved⟩ := exists_gaussSeidel?_triangle hA hdiag hb x
  have hdifference : A.lower.toMatrix n n *ᵥ (vectorOf n y - vectorOf n x) = 0 := by
    rw [mulVec_sub, hsolved, ← hsolution, SparseMatrix.toMatrix_lower_add_upper hA, add_mulVec]
    abel
  have hlower : ∀ i : Fin n, A.lower.toMatrix n n i i ≠ 0 := fun i => by
    show A.lower.entry i i ≠ 0
    rw [SparseMatrix.entry_lower_self hA]
    exact (hdiag i).ne'
  have hzero := eq_zero_of_lower_mulVec (SparseMatrix.toMatrix_lower_apply hA) hlower hdifference
  rw [hy, eq_of_vectorOf_eq hsize hx (sub_eq_zero.mp hzero)]

omit hx in
/-- A solution has no error. -/
theorem solutionError_eq_zero (hb : b.size = n) (scale : ℝ) : solutionError A b scale x = 0 := by
  have hproduct : (A.mulVec x).size = n := by
    rw [SparseMatrix.size_mulVec, hA.rows]
  have hlength : IsZero (lengthOf (minus b (A.mulVec x))) := by
    rw [isZero_lengthOf_iff (size_minus hb hproduct), vectorOf_minus hb hproduct,
      SparseMatrix.vectorOf_mulVec hA, hsolution, sub_self]
  unfold solutionError
  rw [(isZero_iff _).mp hlength, zero_div]

end Solution

/-! ## A solve -/

namespace LevelSystem

variable {s : LevelSystem ℝ}

/-- The outcome of a solve that finds nothing to do. -/
def atRest (s : LevelSystem ℝ) : SolveReport ℝ where
  res := s.res
  error := 0
  iterations := 1
  converged := true

/-- Node values that satisfy the equations of a system, and that are taken to zero neither by all of
its equations nor by those of a line, unless they are zero there. -/
structure RestsAt (s : LevelSystem ℝ) (n : ℕ) (x : Array ℝ) : Prop where
  size : x.size = n
  solution : s.matrix.toMatrix n n *ᵥ vectorOf n x = vectorOf n s.rhs
  all : vectorOf n s.rhs = 0 → vectorOf n x = 0
  lines : ∀ line ∈ allLines s.res, ∀ hline : ∀ i ∈ line, i < n,
    IsHeld (s.matrix.toMatrix n n) (vectorOf n x) (nodeAt hline)

namespace IsSolvable

variable (h : s.IsSolvable n) (hrest : s.RestsAt n x)

include h hrest

theorem errorOf_eq_zero : s.errorOf x = 0 :=
  solutionError_eq_zero h.tidy hrest.solution h.rhs s.scale

theorem report_errorOf : s.report 1 (s.errorOf x) = s.atRest := by
  have hconverged : decide ((0 : ℝ) < s.tolerance) = true := decide_eq_true h.tolerance_pos
  rw [h.errorOf_eq_zero hrest, report, hconverged]
  rfl

/-- Solving for all nodes at once leaves a solution as it is. -/
theorem conjugateGradient_range_eq_self (steps : ℕ) :
    (conjugateGradient s.matrix s.rhs (List.range n) steps s.tolerance x).1 = x := by
  have hrange : ∀ i ∈ List.range n, i < n := fun i hi => List.mem_range.mp hi
  refine conjugateGradient_eq_self h.tidy hrest.size hrest.solution hrange List.nodup_range ?_
    steps h.tolerance_pos
  intro hzero
  -- All nodes together have all equations.
  have hbijective := bijective_nodeAt_range hrange
  have hlocal := innerRhs_of_bijective (s.matrix.toMatrix n n) (vectorOf n s.rhs) (vectorOf n x)
    hbijective
  have hrhs : vectorOf n s.rhs = 0 := by
    unfold innerRhs at hlocal
    rw [hrest.solution, sub_self, hzero, add_zero] at hlocal
    funext i
    obtain ⟨j, rfl⟩ := hbijective.surjective i
    exact (congrFun hlocal j).symm
  rw [hrest.all hrhs]
  rfl

/-- The first iteration leaves a solution as it is, and is the last one. -/
theorem exists_advance?_eq_self (lineLimit : ℕ) : ∃ p, s.advance? 1 (s.begin lineLimit x) = .ok p ∧
    p.x = x ∧ p.error = s.errorOf x ∧ s.isDone p = true := by
  have hdone : ∀ p : Progress ℝ, p.error = s.errorOf x → s.isDone p = true := by
    intro p hp
    have hsmall : decide (p.error < s.tolerance) = true := by
      rw [hp, h.errorOf_eq_zero hrest]
      exact decide_eq_true h.tolerance_pos
    unfold isDone
    rw [hsmall, Bool.true_or]
  unfold advance?
  by_cases hline : 1 ≤ (s.begin lineLimit x).lineLimit
  · obtain ⟨steps, hsteps⟩ := exists_truncate? (Lattice.meanOf s.res : ℝ)
    have ht : 0 < s.tolerance * lineTolerance := mul_pos h.tolerance_pos one_pos
    have hx : lineSweep s.matrix s.rhs s.res steps.toNat (s.tolerance * lineTolerance) x = x :=
      lineSweep_eq_self h.tidy hrest.size hrest.solution h.nodes
        (fun line hmem => hrest.lines line hmem _) steps.toNat ht
    have herror : (s.advanceLines steps.toNat (s.begin lineLimit x)).error = s.errorOf x :=
      congrArg s.errorOf hx
    rw [if_pos hline, hsteps]
    exact ⟨_, rfl, hx, herror, hdone _ herror⟩
  · have hsweep : sweeps? s.lower s.upper s.rhs 1 x = .ok x := by
      rw [sweeps?, h.lower, h.upper, gaussSeidel?_eq_self h.tidy hrest.size hrest.solution h.rhs
        h.diagonal]
      rfl
    have hbatch : s.nextBatch? (s.begin lineLimit x) = .ok 1 := by
      unfold nextBatch?
      exact if_pos (Or.inl rfl)
    rw [if_neg hline]
    unfold advanceNodes?
    rw [hbatch, ok_bind]
    show ∃ p, (sweeps? s.lower s.upper s.rhs 1 x >>= _) = .ok p ∧ _
    rw [hsweep, ok_bind]
    exact ⟨_, rfl, rfl, rfl, hdone _ rfl⟩

/-- A solve that starts at a solution leaves it as it is, and reports one iteration without an
error. -/
theorem solve_eq_self (lineLimit : ℕ) :
    (s.solve lineLimit x).x = x ∧ (s.solve lineLimit x).result = .ok s.atRest := by
  cases hsmall : s.isSmall with
  | true =>
    have hx := h.conjugateGradient_range_eq_self hrest (10 * n)
    rw [h.solve_of_isSmall hsmall]
    unfold solveDirect
    simp only
    rw [conjugateGradient?_eq h.rows h.columns h.rhs hrest.size h.tolerance]
    simp only
    rw [hx, h.solutionError?_eq hrest.size]
    exact ⟨rfl, congrArg Except.ok (h.report_errorOf hrest)⟩
  | false =>
    obtain ⟨p, hp, hx, herror, hdone⟩ := h.exists_advance?_eq_self hrest lineLimit
    have hfuel : maxIterations = 499 + 1 := rfl
    rw [h.solve_of_large hsmall lineLimit hrest.size, hfuel, iterate, Nat.zero_add, hp]
    simp only
    rw [if_pos hdone, herror, h.report_errorOf hrest]
    exact ⟨hx, rfl⟩

end IsSolvable

end LevelSystem

end GridSpline
