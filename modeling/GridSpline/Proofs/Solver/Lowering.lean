import Mathlib
import GridSpline.Proofs.Lattice.Lines
import GridSpline.Proofs.Solver.ConjugateGradient
import GridSpline.Proofs.Solver.Relaxation
import GridSpline.Proofs.Solver.Solve

/-!
# A solve lowers the potential

Whatever mixture of methods a solve comes to use, each of them leaves node values of no higher
potential: solving for all nodes at once, solving line after line, and sweeps of relaxation. The
choices in between depend on errors alone and play no part. Nothing can fail on the way.

## Main definitions

* `LevelSystem.IsSolvable` — consistent equations on a lattice.

## Main statements

* `lowers_lineSweep` — solving all lines does not raise the potential.
* `IsSolvable.exists_advance?_lowers` — nor does a single iteration.
* `IsSolvable.solve_lowers` — nor does a solve.
* `solve_potential_le` — the same for the equations of a level, with all divisions on the way.
-/

namespace GridSpline

open Scalar Failure
open Matrix

/-! ## Lines -/

/-- Solving all lines does not raise the potential. -/
theorem lowers_lineSweep {n : ℕ} {A : SparseMatrix ℝ} {b x : Array ℝ} (hA : A.Tidy n n)
    (hM : IsConsistent (A.toMatrix n n) (vectorOf n b)) {res : List ℕ}
    (hres : Lattice.size res = n) (steps : ℕ) {tolerance : ℝ} (ht : 0 < tolerance)
    (hx : x.size = n) : Lowers A b n x (lineSweep A b res steps tolerance x) := by
  have hfold : ∀ lines : List (List ℕ), (∀ line ∈ lines, line ∈ allLines res) →
      ∀ y : Array ℝ, y.size = n → Lowers A b n y
        (lines.foldl (fun y line => (conjugateGradient A b line steps tolerance y).1) y) := by
    intro lines
    induction lines with
    | nil => exact fun _ y hy => .refl hy
    | cons line lines ih =>
      intro hlines y hy
      have hline := hlines line List.mem_cons_self
      have hfirst := lowers_conjugateGradient hA hM
        (fun i hi => hres ▸ Lattice.lt_size_of_mem_allLines hline i hi)
        (Lattice.nodup_of_mem_allLines hline) hy steps ht
      exact hfirst.trans (ih (fun l hl => hlines l (List.mem_cons_of_mem line hl)) _ hfirst.size)
  exact hfold (allLines res) (fun _ hline => hline) x hx

namespace LevelSystem

/-- Consistent equations on a lattice, with something on the diagonal for every node. -/
structure IsSolvable (s : LevelSystem ℝ) (n : ℕ) : Prop extends s.IsSquare n where
  nodes : Lattice.size s.res = n
  tidy : s.matrix.Tidy n n
  consistent : IsConsistent (s.matrix.toMatrix n n) (vectorOf n s.rhs)
  diagonal : ∀ i, 0 < s.matrix.toMatrix n n i i
  tolerance_pos : 0 < s.tolerance

namespace IsSolvable

variable {s : LevelSystem ℝ} {n : ℕ} (h : s.IsSolvable n)

include h

/-! ## One iteration -/

theorem lowers_advanceLines (steps : ℕ) {p : Progress ℝ} (hx : p.x.size = n) :
    Lowers s.matrix s.rhs n p.x (s.advanceLines steps p).x := by
  have ht : 0 < s.tolerance * lineTolerance := mul_pos h.tolerance_pos one_pos
  exact lowers_lineSweep h.tidy h.consistent h.nodes steps ht hx

theorem exists_advanceNodes?_lowers {p : Progress ℝ} (hx : p.x.size = n) :
    ∃ q, s.advanceNodes? p = .ok q ∧ Lowers s.matrix s.rhs n p.x q.x := by
  obtain ⟨batch, hbatch, -⟩ := exists_nextBatch? s p
  obtain ⟨y, hy, hlowers⟩ :=
    exists_sweeps?_lowers h.tidy h.consistent.isSymm h.diagonal h.rhs batch hx
  unfold advanceNodes?
  rw [hbatch, ok_bind, h.lower, h.upper, hy, ok_bind]
  exact ⟨_, rfl, hlowers⟩

/-- A single iteration succeeds and does not raise the potential. -/
theorem exists_advance?_lowers (iteration : ℕ) {p : Progress ℝ} (hx : p.x.size = n) :
    ∃ q, s.advance? iteration p = .ok q ∧ Lowers s.matrix s.rhs n p.x q.x := by
  unfold advance?
  by_cases hline : iteration ≤ p.lineLimit
  · obtain ⟨steps, hsteps⟩ := exists_truncate? (Lattice.meanOf s.res : ℝ)
    rw [if_pos hline, hsteps]
    exact ⟨_, rfl, h.lowers_advanceLines steps.toNat hx⟩
  · rw [if_neg hline]
    exact h.exists_advanceNodes?_lowers hx

/-! ## A solve -/

/-- A solve succeeds and does not raise the potential. -/
theorem solve_lowers (lineLimit : ℕ) {x : Array ℝ} (hx : x.size = n) :
    (∃ r, (s.solve lineLimit x).result = .ok r) ∧
      Lowers s.matrix s.rhs n x (s.solve lineLimit x).x := by
  have hadvance : ∀ k (p : Progress ℝ), Lowers s.matrix s.rhs n x p.x →
      (∃ q, s.advance? k p = .ok q ∧ Lowers s.matrix s.rhs n x q.x) ∨
        ∃ f, s.advance? k p = .error f ∧ False := by
    intro k p hp
    obtain ⟨q, hq, hlowers⟩ := h.exists_advance?_lowers k hp.size
    exact Or.inl ⟨q, hq, hp.trans hlowers⟩
  obtain ⟨hlowers, hresult⟩ := h.solve_of_advance? hadvance lineLimit hx (.refl hx)
    (lowers_conjugateGradient h.tidy h.consistent (fun i hi => List.mem_range.mp hi)
      List.nodup_range hx (10 * n) h.tolerance_pos)
  refine ⟨?_, hlowers⟩
  rcases hresult with hok | ⟨-, _, -, hnever⟩
  · exact hok
  · exact hnever.elim

end IsSolvable

/-! ## The equations of a level -/

section Level

variable {n : ℕ} {A : SparseMatrix ℝ} {b x : Array ℝ} {res : List ℕ}

/-- For a positive semidefinite matrix with a positive diagonal, and a right-hand side in its range,
a solve succeeds with node values of no higher potential, and no step of conjugate gradients divides
by zero, neither for all nodes nor for the nodes of a line. If the matrix is positive definite, the
solution is left as it is. -/
theorem solve_potential_le (hA : A.Tidy n n) (hM : (A.toMatrix n n).PosSemidef)
    (hdiag : ∀ i, 0 < A.toMatrix n n i i) (hb : b.size = n)
    (hrange : ∃ y, A.toMatrix n n *ᵥ y = vectorOf n b) (hx : x.size = n)
    (hres : Lattice.size res = n) (scale : ℝ) {t : ℝ} (ht : 0 < t) (lineSweeps : ℕ) :
    let out := { make res A b scale with tolerance := t }.solve lineSweeps x
    (res ≠ [] → ∃ r, out.result = .ok r) ∧ out.x.size = n ∧
      potential (A.toMatrix n n) (vectorOf n b) (vectorOf n out.x) ≤
        potential (A.toMatrix n n) (vectorOf n b) (vectorOf n x) ∧
      (∀ nodes, nodes = List.range n ∨ nodes ∈ allLines res → ∀ steps u, 0 < u → ∀ y,
        SolvesSafely A b nodes steps u y) ∧
      ((A.toMatrix n n).PosDef → A.toMatrix n n *ᵥ vectorOf n x = vectorOf n b → out.x = x) := by
  intro out
  have hconsistent := IsConsistent.of_solvable hM hrange
  have hlowers : (res ≠ [] → ∃ r, out.result = .ok r) ∧ Lowers A b n x out.x := by
    by_cases hne : res = []
    · subst hne
      exact ⟨fun h => absurd rfl h, .refl hx⟩
    · have hsolvable : ({ make res A b scale with tolerance := t }).IsSolvable n :=
        { axes := hne, rows := hA.rows, columns := hA.columns, lower := rfl, upper := rfl,
          rhs := hb, tolerance := ht.le, nodes := hres, tidy := hA, consistent := hconsistent,
          diagonal := hdiag, tolerance_pos := ht }
      obtain ⟨hresult, hlowers⟩ := hsolvable.solve_lowers lineSweeps hx
      exact ⟨fun _ => hresult, hlowers⟩
  obtain ⟨hresult, hsize, hle⟩ := hlowers
  refine ⟨hresult, hsize, hle, ?_, ?_⟩
  · intro nodes hnodes steps u hu y
    refine solvesSafely hA hconsistent ?_ steps hu y
    rcases hnodes with rfl | hline
    · exact fun i hi => List.mem_range.mp hi
    · exact fun i hi => hres ▸ Lattice.lt_size_of_mem_allLines hline i hi
  · intro hdefinite hsolution
    exact eq_of_vectorOf_eq hsize hx (eq_of_potential_le hdefinite hsolution hle)

/-! ### Equations with and without a single solution -/

/-- One in all places, and a number more on the diagonal. -/
noncomputable def ones (n : ℕ) (c : ℝ) : SparseMatrix ℝ where
  columns := n
  rows := Array.ofFn fun i : Fin n =>
    List.ofFn fun j : Fin n => ((j : ℕ), if i = j then 1 + c else 1)

theorem row_ones (n : ℕ) (c : ℝ) (i : ℕ) : (ones n c).row i =
    if h : i < n then List.ofFn fun j : Fin n => ((j : ℕ), if ⟨i, h⟩ = j then 1 + c else 1)
    else [] := by
  unfold SparseMatrix.row ones
  rw [Array.getD_eq_getD_getElem?, Array.getElem?_ofFn]
  split <;> rfl

theorem tidy_ones (n : ℕ) (c : ℝ) : (ones n c).Tidy n n := by
  refine ⟨by simp [ones], rfl, fun i => ?_, fun i e he => ?_⟩
  · rw [row_ones]
    split
    · exact List.pairwise_ofFn.mpr fun j l hjl => hjl
    · exact List.Pairwise.nil
  · rw [row_ones] at he
    split at he
    · obtain ⟨j, rfl⟩ := (List.mem_ofFn' _ _).mp he
      exact j.isLt
    · exact absurd he List.not_mem_nil

theorem toMatrix_ones (n : ℕ) (c : ℝ) : (ones n c).toMatrix n n = vecMulVec 1 1 + c • 1 := by
  ext i j
  have hmem : ((j : ℕ), if i = j then 1 + c else 1) ∈ (ones n c).row i := by
    rw [row_ones, dif_pos i.isLt]
    exact (List.mem_ofFn' _ _).mpr ⟨j, rfl⟩
  show (ones n c).entry i j = _
  rw [SparseMatrix.entry_eq_coeff, SparseRow.coeff_of_mem ((tidy_ones n c).ascending i) hmem]
  by_cases hij : i = j
  · subst hij
    simp [vecMulVec]
  · simp [vecMulVec, hij]

theorem posSemidef_vecMulVec_one (n : ℕ) :
    (vecMulVec 1 1 : Matrix (Fin n) (Fin n) ℝ).PosSemidef := by
  have hones := posSemidef_vecMulVec_self_star (1 : Fin n → ℝ)
  rwa [star_trivial] at hones

theorem ones_mulVec_one (n : ℕ) (c : ℝ) :
    (ones n c).toMatrix n n *ᵥ vectorOf n (Array.replicate n 1) =
      vectorOf n (Array.replicate n (n + c)) := by
  have hreplicate : ∀ v : ℝ, vectorOf n (Array.replicate n v) = fun _ => v := fun v => by
    funext i
    rw [vectorOf_apply (by simp), Array.getElem_replicate]
  rw [hreplicate, hreplicate, toMatrix_ones, add_mulVec, smul_mulVec, one_mulVec]
  funext i
  simp [mulVec, dotProduct, vecMulVec]

theorem solve_ones :
    (∃ r, ({ make [5] (ones 5 0) (Array.replicate 5 (5 + 0)) 1 with tolerance := 1 }.solve 3
        (Array.replicate 5 0)).result = .ok r) ∧
      ({ make [5] (ones 5 1) (Array.replicate 5 (5 + 1)) 1 with tolerance := 1 }.solve 3
        (Array.replicate 5 1)).x = Array.replicate 5 1 := by
  have hdiag : ∀ c : ℝ, 0 ≤ c → ∀ i, 0 < (ones 5 c).toMatrix 5 5 i i := by
    intro c hc i
    have hentry : (ones 5 c).toMatrix 5 5 i i = 1 + c := by
      rw [toMatrix_ones]
      simp [vecMulVec]
    rw [hentry]
    linarith
  have hsemi : ((ones 5 0).toMatrix 5 5).PosSemidef := by
    rw [toMatrix_ones, zero_smul, add_zero]
    exact posSemidef_vecMulVec_one 5
  have hdefinite : ((ones 5 1).toMatrix 5 5).PosDef := by
    rw [toMatrix_ones, one_smul]
    exact PosDef.posSemidef_add (posSemidef_vecMulVec_one 5) PosDef.one
  constructor
  · exact (solve_potential_le (tidy_ones 5 0) hsemi (hdiag 0 le_rfl) (by simp)
      ⟨_, ones_mulVec_one 5 0⟩ (by simp) (by decide) 1 one_pos 3).1 (by simp)
  · exact (solve_potential_le (tidy_ones 5 1) hdefinite.posSemidef (hdiag 1 one_pos.le) (by simp)
      ⟨_, ones_mulVec_one 5 1⟩ (by simp) (by decide) 1 one_pos 3).2.2.2.2 hdefinite
      (ones_mulVec_one 5 1)

end Level

end LevelSystem

end GridSpline
