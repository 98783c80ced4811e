import Mathlib
import GridSpline.Proofs.Solver.Sweep

/-!
# How a solve can fail

Not to reach the tolerance is no failure, so a solve of a square system fails in one way only: the
lattice is large enough for sweeps of relaxation, an iteration makes one, and there is a zero on the
diagonal. Where no iteration relaxes lines the first one makes a sweep, and then a zero on the
diagonal is a failure for certain.

The failure is that of a single iteration. What an iteration keeps, the iterations keep, and so does
a solve: here it is the number of node values.

## Main definitions

* `LevelSystem.IsSquare` — a system with as many rows and right-hand sides as columns.
* `LevelSystem.MeetsZero` — a system that sweeps cannot relax.

## Main statements

* `iterate_of_advance?`, `IsSquare.solve_of_advance?` — what iterations and a solve preserve.
* `IsSquare.advance?_cases` — what a single iteration does.
* `IsSquare.solve_cases` — what a solve does.
* `IsSquare.solve_eq_error` — a system that sweeps cannot relax, if lines are not relaxed.
-/

namespace GridSpline

open Scalar Failure

namespace LevelSystem

/-- A system with as many rows and right-hand sides as columns, and with its own triangles. -/
structure IsSquare (s : LevelSystem ℝ) (n : ℕ) : Prop where
  axes : s.res ≠ []
  rows : s.matrix.rows.size = n
  columns : s.matrix.columns = n
  lower : s.lower = s.matrix.lower
  upper : s.upper = s.matrix.upper
  rhs : s.rhs.size = n
  tolerance : 0 ≤ s.tolerance

/-- A system that is not solved at once and has a zero on its diagonal. -/
def MeetsZero (s : LevelSystem ℝ) : Prop := s.isSmall = false ∧ hasZeroPivot s.lower = true

variable {s : LevelSystem ℝ} {n : ℕ}

/-- There is at least one sweep in a batch. -/
theorem exists_nextBatch? (s : LevelSystem ℝ) (p : Progress ℝ) :
    ∃ batch, s.nextBatch? p = .ok batch ∧ 0 < batch := by
  unfold nextBatch?
  by_cases hfirst : p.batch = 0 ∨ p.error ≤ 0 ∨ p.previous ≤ p.error
  · rw [if_pos hfirst]
    exact ⟨1, rfl, one_pos⟩
  · obtain ⟨estimate, hestimate⟩ := exists_truncate? (s.sweepEstimate p)
    rw [if_neg hfirst, hestimate]
    refine ⟨_, rfl, ?_⟩
    have : (maxBatch : ℤ) = 16 := rfl
    omega

theorem advanceNodes?_eq_error (hpivot : hasZeroPivot s.lower = true) (p : Progress ℝ) :
    s.advanceNodes? p = .error .singular := by
  obtain ⟨batch, hbatch, hpos⟩ := exists_nextBatch? s p
  unfold advanceNodes?
  rw [hbatch, ok_bind, sweeps?_eq_error hpivot hpos]
  rfl

/-- What every single iteration preserves, all iterations preserve, and they fail only as one of
them does. -/
theorem iterate_of_advance? {P : Array ℝ → Prop} {E : Failure ℝ → Prop}
    (hadvance : ∀ k (p : Progress ℝ), P p.x → (∃ q, s.advance? k p = .ok q ∧ P q.x) ∨
      ∃ f, s.advance? k p = .error f ∧ E f)
    (fuel done : ℕ) {p : Progress ℝ} (hp : P p.x) (notices : List (Notice ℝ)) :
    P (s.iterate fuel done p notices).x ∧
      ((∃ r, (s.iterate fuel done p notices).result = .ok r) ∨
        ∃ f, (s.iterate fuel done p notices).result = .error f ∧ E f) := by
  induction fuel generalizing done p notices with
  | zero => exact ⟨hp, Or.inl ⟨_, rfl⟩⟩
  | succ fuel ih =>
    unfold iterate
    rcases hadvance (done + 1) p hp with ⟨q, hq, hkept⟩ | ⟨f, herror, hcause⟩
    · rw [hq]
      simp only
      by_cases hdone : s.isDone q = true
      · rw [if_pos hdone]
        exact ⟨hkept, Or.inl ⟨_, rfl⟩⟩
      · rw [if_neg hdone]
        exact ih (done + 1) hkept _
    · rw [herror]
      exact ⟨hp, Or.inr ⟨f, rfl, hcause⟩⟩

namespace IsSquare

variable (h : s.IsSquare n)

include h

/-! ## One iteration -/

theorem exists_advanceNodes? (hpivot : hasZeroPivot s.lower = false) {p : Progress ℝ}
    (hx : p.x.size = n) : ∃ q, s.advanceNodes? p = .ok q ∧ q.x.size = n := by
  obtain ⟨batch, hbatch, -⟩ := exists_nextBatch? s p
  have hlower : s.lower.rows.size = n := by rw [h.lower, SparseMatrix.size_lower, h.rows]
  have hupper : s.upper.rows.size = n := by rw [h.upper, SparseMatrix.size_upper, h.rows]
  obtain ⟨y, hy, hsize⟩ := exists_sweeps? hpivot hlower hupper h.rhs batch hx
  unfold advanceNodes?
  rw [hbatch, ok_bind, hy, ok_bind]
  exact ⟨_, rfl, hsize⟩

/-- What a single iteration does. -/
theorem advance?_cases (iteration : ℕ) {p : Progress ℝ} (hx : p.x.size = n) :
    (∃ q, s.advance? iteration p = .ok q ∧ q.x.size = n) ∨
      ∃ f, s.advance? iteration p = .error f ∧ f = .singular ∧ hasZeroPivot s.lower = true := by
  unfold advance?
  by_cases hline : iteration ≤ p.lineLimit
  · obtain ⟨steps, hsteps⟩ := exists_truncate? (Lattice.meanOf s.res : ℝ)
    rw [if_pos hline, hsteps]
    exact Or.inl ⟨_, rfl, (size_lineSweep _ _ _ _ _ _).trans hx⟩
  · rw [if_neg hline]
    cases hpivot : hasZeroPivot s.lower with
    | true => exact Or.inr ⟨_, advanceNodes?_eq_error hpivot p, rfl, rfl⟩
    | false => exact Or.inl (h.exists_advanceNodes? hpivot hx)

/-! ## A solve -/

theorem isEmpty_res : s.res.isEmpty = false := by
  cases hres : s.res with
  | nil => exact absurd hres h.axes
  | cons r rs => rfl

theorem fitted?_eq {x : Array ℝ} (hx : x.size = n) : s.fitted? x = some s := by
  unfold fitted?
  rw [if_neg (by rw [hx, h.columns]; simp), if_pos (by rw [h.rhs, h.rows])]

theorem solutionError?_eq {x : Array ℝ} (hx : x.size = n) :
    solutionError? s.matrix s.rhs s.scale x = .ok (solutionError s.matrix s.rhs s.scale x) := by
  have hproduct : s.matrix.mulVec? x = some (s.matrix.mulVec x) := by
    unfold SparseMatrix.mulVec?
    rw [if_pos (hx.trans h.columns.symm)]
  unfold solutionError?
  rw [hproduct, require_some, ok_bind, if_pos (by rw [SparseMatrix.size_mulVec, h.rhs, h.rows])]
  rfl

/-- To solve at once is to solve for all nodes. -/
theorem solveDirect_eq {x : Array ℝ} (hx : x.size = n) :
    (s.solveDirect (some s.tolerance) x).x =
        (conjugateGradient s.matrix s.rhs (List.range n) (10 * n) s.tolerance x).1 ∧
      ∃ r, (s.solveDirect (some s.tolerance) x).result = .ok r := by
  unfold solveDirect
  simp only
  rw [conjugateGradient?_eq h.rows h.columns h.rhs hx h.tolerance]
  refine ⟨rfl, ?_⟩
  simp only
  rw [h.solutionError?_eq ((size_conjugateGradient _ _ _ _ _ _).trans hx)]
  exact ⟨_, rfl⟩

theorem solve_of_isSmall (hsmall : s.isSmall = true) (lineLimit : ℕ) (x : Array ℝ) :
    s.solve lineLimit x = s.solveDirect (some s.tolerance) x := by
  unfold solve
  rw [h.isEmpty_res, if_neg Bool.false_ne_true, if_pos hsmall]

theorem solve_of_large (hlarge : s.isSmall = false) (lineLimit : ℕ) {x : Array ℝ}
    (hx : x.size = n) :
    s.solve lineLimit x = s.iterate maxIterations 0 (s.begin lineLimit x) [] := by
  have hsign : ¬(0 < lineLimit ∧ s.tolerance < 0) :=
    fun hboth => absurd hboth.2 (not_lt.mpr h.tolerance)
  unfold solve
  rw [h.isEmpty_res, if_neg Bool.false_ne_true, hlarge, if_neg Bool.false_ne_true,
    h.fitted?_eq hx]
  simp only
  rw [if_neg hsign]

/-- What every single iteration preserves, and a solution for all nodes has, a solve preserves. It
fails only where it makes iterations, and as one of them does. -/
theorem solve_of_advance? {P : Array ℝ → Prop} {E : Failure ℝ → Prop}
    (hadvance : ∀ k (p : Progress ℝ), P p.x → (∃ q, s.advance? k p = .ok q ∧ P q.x) ∨
      ∃ f, s.advance? k p = .error f ∧ E f)
    (lineLimit : ℕ) {x : Array ℝ} (hx : x.size = n) (hP : P x)
    (hdirect : P (conjugateGradient s.matrix s.rhs (List.range n) (10 * n) s.tolerance x).1) :
    P (s.solve lineLimit x).x ∧
      ((∃ r, (s.solve lineLimit x).result = .ok r) ∨
        s.isSmall = false ∧ ∃ f, (s.solve lineLimit x).result = .error f ∧ E f) := by
  cases hsmall : s.isSmall with
  | true =>
    obtain ⟨hvalues, hresult⟩ := h.solveDirect_eq hx
    rw [h.solve_of_isSmall hsmall, hvalues]
    exact ⟨hdirect, Or.inl hresult⟩
  | false =>
    rw [h.solve_of_large hsmall lineLimit hx]
    obtain ⟨hkept, hresult⟩ :=
      iterate_of_advance? hadvance maxIterations 0 (p := s.begin lineLimit x) hP []
    exact ⟨hkept, hresult.imp_right fun herror => ⟨rfl, herror⟩⟩

/-- What a solve does. -/
theorem solve_cases (lineLimit : ℕ) {x : Array ℝ} (hx : x.size = n) :
    (s.solve lineLimit x).x.size = n ∧
      ((∃ r, (s.solve lineLimit x).result = .ok r) ∨
        ((s.solve lineLimit x).result = .error .singular ∧ s.MeetsZero)) := by
  obtain ⟨hsize, hresult⟩ := h.solve_of_advance? (P := fun y => y.size = n)
    (fun k p hp => h.advance?_cases k hp) lineLimit hx hx
    ((size_conjugateGradient _ _ _ _ _ _).trans hx)
  refine ⟨hsize, ?_⟩
  rcases hresult with hok | ⟨hsmall, _, herror, rfl, hpivot⟩
  · exact Or.inl hok
  · exact Or.inr ⟨herror, hsmall, hpivot⟩

/-- A system that sweeps cannot relax, if lines are not relaxed. -/
theorem solve_eq_error (hzero : s.MeetsZero) {x : Array ℝ} (hx : x.size = n) :
    (s.solve 0 x).result = .error .singular := by
  obtain ⟨hsmall, hpivot⟩ := hzero
  have hfirst : s.advance? 1 (s.begin 0 x) = .error .singular := by
    unfold advance?
    rw [if_neg (by simp [begin])]
    exact advanceNodes?_eq_error hpivot _
  have hfuel : maxIterations = 499 + 1 := rfl
  rw [h.solve_of_large hsmall 0 hx, hfuel, iterate, Nat.zero_add, hfirst]

end IsSquare

end LevelSystem

end GridSpline
