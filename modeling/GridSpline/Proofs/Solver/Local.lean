import Mathlib
import GridSpline.Proofs.Solver.Conjugacy

/-!
# Solving for some nodes

A solve for some nodes holds all others fixed. What it leaves of the equations for these nodes is
what the descent leaves of the system that is made of them, and a descent that may make a step for
each node leaves less than it is asked for. So the error that is returned is the true one, and it is
below the tolerance. A small lattice is solved in this way for all of its nodes at once.

## Main statements

* `lengthOf_minus_mulVec_descend_lt` — a system of its own.
* `gather_minus_mulVec_scatter` — what is left of the equations for some nodes.
* `solve_small` — a lattice that is solved at once.
* `exists_conjugateGradient?_solves` — all that a solve for some nodes does.
-/

namespace GridSpline

open Scalar
open Matrix

variable {n : ℕ}

/-! ## A system of its own -/

section Descend

variable {A : SparseMatrix ℝ} {b x : Array ℝ} (hA : A.Tidy n n)
  (hM : IsConsistent (A.toMatrix n n) (vectorOf n b)) (hb : b.size = n) (hx : x.size = n)
  {steps : ℕ} (hsteps : n ≤ steps) {bound : ℝ} (hbound : 0 < bound)

include hA hM hb hx hbound

theorem lengthOf_run_start_lt (hsteps : n ≤ steps) :
    lengthOf (Descent.run A (jacobiScale A) bound steps (.start A b x)).residual < bound := by
  have hscale := isScale_jacobiScale hA fun i => hM.posSemidef.diag_nonneg
  exact (Descent.follows_start _ _ A b x).lengthOf_run_lt hA hM hscale hbound
    (Descent.isSound_start hA hb hx) (by simpa using hsteps)

include hsteps

/-- More steps than there are nodes change nothing. -/
theorem descend_eq_of_le : descend A b x steps bound = descend A b x n bound := by
  unfold descend
  rw [Descent.run_eq_of_le A (jacobiScale A) bound hsteps
    (lengthOf_run_start_lt hA hM hb hx hbound le_rfl)]

/-- What the solution of a system leaves of it is short. -/
theorem lengthOf_minus_mulVec_descend_lt :
    lengthOf (minus b (A.mulVec (descend A b x steps bound))) < bound := by
  unfold descend
  by_cases hzero : IsZero (lengthOf b)
  · rw [if_pos hzero]
    have hproduct : (A.mulVec (b.map fun _ => 0)).size = n := by
      rw [SparseMatrix.size_mulVec, hA.rows]
    have hresidual : vectorOf n (minus b (A.mulVec (b.map fun _ => 0))) = 0 := by
      rw [vectorOf_minus hb hproduct, SparseMatrix.vectorOf_mulVec hA, vectorOf_map_zero,
        mulVec_zero, sub_zero, (isZero_lengthOf_iff hb).mp hzero]
    by_contra hlong
    exact vectorOf_ne_zero_of_lengthOf (size_minus hb hproduct) hbound hlong hresidual
  · rw [if_neg hzero]
    have hscale := isScale_jacobiScale hA fun i => hM.posSemidef.diag_nonneg
    obtain ⟨hsound, -, -⟩ :=
      (Descent.isSound_start hA hb hx).run hA hM hscale hbound steps
    have hproduct := (SparseMatrix.size_mulVec A
      (Descent.run A (jacobiScale A) bound steps (.start A b x)).x).trans hA.rows
    have hresidual : minus b (A.mulVec
        (Descent.run A (jacobiScale A) bound steps (.start A b x)).x) =
        (Descent.run A (jacobiScale A) bound steps (.start A b x)).residual := by
      refine eq_of_vectorOf_eq (size_minus hb hproduct) hsound.size_residual ?_
      rw [vectorOf_minus hb hproduct, SparseMatrix.vectorOf_mulVec hA, hsound.residual]
    rw [hresidual]
    exact lengthOf_run_start_lt hA hM hb hx hbound hsteps

end Descend

/-! ## Some nodes of a system -/

theorem gather_range {v : Array ℝ} (hv : v.size = n) : gather v (List.range n) = v := by
  refine Array.ext (by simp [gather, hv]) fun i h1 h2 => ?_
  simp [gather, Array.getD_eq_getD_getElem?, h2]

theorem getD_scatter_of_not_mem {nodes : List ℕ} {i : ℕ} (hi : i ∉ nodes) (x values : Array ℝ) :
    (scatter x nodes values).getD i 0 = x.getD i 0 := by
  refine getD_foldl_set_of_ne nodes.zipIdx values x ?_
  rintro ⟨k, j⟩ hmem rfl
  exact hi (List.fst_mem_of_mem_zipIdx hmem)

section Nodes

variable {A : SparseMatrix ℝ} {b x : Array ℝ} {nodes : List ℕ} (hA : A.Tidy n n)
  (hb : b.size = n) (hx : x.size = n) (hnodes : ∀ i ∈ nodes, i < n)

include hA hb hx hnodes

/-- What is left of the equations for some nodes when these are given new values. -/
theorem gather_minus_mulVec_scatter (hnodup : nodes.Nodup) (values : Array ℝ) :
    gather (minus b (A.mulVec (scatter x nodes values))) nodes =
      minus (localRhs A b nodes x) ((A.restrict nodes).mulVec values) := by
  have hproduct : (A.mulVec (scatter x nodes values)).size = n := by
    rw [SparseMatrix.size_mulVec, hA.rows]
  have hinner : ((A.restrict nodes).mulVec values).size = nodes.length := by
    rw [SparseMatrix.size_mulVec, (SparseMatrix.tidy_restrict A nodes).rows]
  refine eq_of_vectorOf_eq (size_gather _ nodes)
    (size_minus (size_localRhs A b nodes x) hinner) ?_
  rw [vectorOf_gather hnodes, vectorOf_minus hb hproduct, SparseMatrix.vectorOf_mulVec hA,
    vectorOf_scatter hnodes hnodup hx, vectorOf_minus (size_localRhs A b nodes x) hinner,
    vectorOf_localRhs hA hnodes, SparseMatrix.vectorOf_mulVec (SparseMatrix.tidy_restrict A nodes),
    SparseMatrix.toMatrix_restrict hnodes, mulVec_add, ← sub_sub]
  have hspread := mulVec_spread_comp (M := A.toMatrix n n) (e := nodeAt hnodes)
    (d := vectorOf nodes.length values - vectorOf n x ∘ nodeAt hnodes)
  rw [mulVec_sub] at hspread
  unfold innerRhs
  funext j
  have hentry := congrFun hspread j
  simp only [Function.comp_apply, Pi.sub_apply, Pi.add_apply] at hentry ⊢
  rw [hentry]
  ring

/-- The error that a solve for some nodes returns is the one that it leaves at these nodes. -/
theorem snd_conjugateGradient_eq (hnodup : nodes.Nodup) (steps : ℕ) (tolerance : ℝ) :
    (conjugateGradient A b nodes steps tolerance x).2 =
      lengthOf (gather
        (minus b (A.mulVec (conjugateGradient A b nodes steps tolerance x).1)) nodes) /
        errorScale (gather b nodes) := by
  rw [conjugateGradient_eq, gather_minus_mulVec_scatter hA hb hx hnodes hnodup]
  rfl

/-- Where nothing is left on the right-hand side for some nodes, their equations are solved. -/
theorem vectorOf_gather_of_localRhs (hnodup : nodes.Nodup)
    (hrhs : vectorOf nodes.length (localRhs A b nodes x) = 0) (steps : ℕ) (tolerance : ℝ) :
    vectorOf nodes.length (gather
      (minus b (A.mulVec (conjugateGradient A b nodes steps tolerance x).1)) nodes) = 0 := by
  have hzero : IsZero (lengthOf (localRhs A b nodes x)) :=
    (isZero_lengthOf_iff (size_localRhs A b nodes x)).mpr hrhs
  have htidy := SparseMatrix.tidy_restrict A nodes
  rw [conjugateGradient_eq, gather_minus_mulVec_scatter hA hb hx hnodes hnodup]
  unfold descend
  rw [if_pos hzero, vectorOf_minus (size_localRhs A b nodes x)
    (by rw [SparseMatrix.size_mulVec, htidy.rows]), SparseMatrix.vectorOf_mulVec htidy,
    vectorOf_map_zero, mulVec_zero, hrhs, sub_zero]

variable (hM : IsConsistent (A.toMatrix n n) (vectorOf n b)) {tolerance : ℝ} (ht : 0 < tolerance)

include hM ht

omit hb hx in
/-- A solve for some nodes makes no more steps than there are nodes. -/
theorem length_iterationsOf_le (steps : ℕ) :
    (iterationsOf A b nodes steps tolerance x).length ≤ nodes.length := by
  have hlocal := isConsistent_restrict hA hM hnodes x
  have htidy := SparseMatrix.tidy_restrict A nodes
  have hscale := isScale_jacobiScale htidy fun i => hlocal.posSemidef.diag_nonneg
  have hstart := Descent.isSound_start htidy (size_localRhs A b nodes x) (size_gather x nodes)
  unfold iterationsOf
  split
  · exact Nat.zero_le _
  · have hlength := (Descent.follows_start _ _ (A.restrict nodes) (localRhs A b nodes x)
      (gather x nodes)).length_performed_le htidy hlocal hscale
        (mul_pos ht (errorScale_pos (gather b nodes))) steps hstart
    simpa using hlength

variable {steps : ℕ} (hsteps : nodes.length ≤ steps)

include hsteps

omit hb hx in
/-- More steps than there are nodes change nothing. -/
theorem conjugateGradient_eq_of_le : conjugateGradient A b nodes steps tolerance x =
    conjugateGradient A b nodes nodes.length tolerance x := by
  have hsolved := descend_eq_of_le (SparseMatrix.tidy_restrict A nodes)
    (isConsistent_restrict hA hM hnodes x) (size_localRhs A b nodes x) (size_gather x nodes) hsteps
    (mul_pos ht (errorScale_pos (gather b nodes)))
  unfold localRhs SparseMatrix.restrict at hsolved
  unfold conjugateGradient
  simp only
  rw [hsolved]

omit hb hx in
/-- With as many steps as there are nodes the error comes below the tolerance. -/
theorem snd_conjugateGradient_lt :
    (conjugateGradient A b nodes steps tolerance x).2 < tolerance := by
  have hshort := lengthOf_minus_mulVec_descend_lt (SparseMatrix.tidy_restrict A nodes)
    (isConsistent_restrict hA hM hnodes x) (size_localRhs A b nodes x) (size_gather x nodes) hsteps
    (mul_pos ht (errorScale_pos (gather b nodes)))
  exact (div_lt_iff₀ (errorScale_pos (gather b nodes))).mpr hshort

end Nodes

/-! ## All nodes at once -/

section Level

variable {A : SparseMatrix ℝ} {b x : Array ℝ} (hA : A.Tidy n n)
  (hM : IsConsistent (A.toMatrix n n) (vectorOf n b)) (hb : b.size = n) (hx : x.size = n) {t : ℝ}
  (ht : 0 < t)

include hA hM hb hx ht

/-- A small lattice is solved to an error below the tolerance, as a part of the right-hand side, or
exactly if nothing is there. -/
theorem solve_small {res : List ℕ} (hne : res ≠ []) (hsmall : ∀ r ∈ res, r ≤ directResolution)
    (scale : ℝ) (lineSweeps : ℕ) :
    let out := { LevelSystem.make res A b scale with tolerance := t }.solve lineSweeps x
    (∃ r, out.result = .ok r) ∧
      (lengthOf b ≠ 0 → lengthOf (minus b (A.mulVec out.x)) < t * lengthOf b) ∧
      (lengthOf b = 0 → A.mulVec out.x = b) := by
  intro out
  have hsquare : ({ LevelSystem.make res A b scale with tolerance := t }).IsSquare n :=
    { axes := hne, rows := hA.rows, columns := hA.columns, lower := rfl, upper := rfl, rhs := hb,
      tolerance := ht.le }
  obtain ⟨hvalues, hresult⟩ := hsquare.solveDirect_eq hx
  have hout := hsquare.solve_of_isSmall
    (List.all_eq_true.mpr fun r hr => decide_eq_true (hsmall r hr)) lineSweeps x
  rw [← hout] at hvalues hresult
  have hrange : ∀ i ∈ List.range n, i < n := fun i hi => List.mem_range.mp hi
  have hvalues : out.x = (conjugateGradient A b (List.range n) (10 * n) t x).1 := hvalues
  have hproduct : (A.mulVec out.x).size = n := by
    rw [SparseMatrix.size_mulVec, hA.rows]
  refine ⟨hresult, fun hlength => ?_, fun hlength => ?_⟩
  · have hlt := snd_conjugateGradient_lt hA hrange hM ht (x := x)
      (by rw [List.length_range]; omega : (List.range n).length ≤ 10 * n)
    have hscale : errorScale b = lengthOf b := if_neg (mt (isZero_iff _).mp hlength)
    rw [snd_conjugateGradient_eq hA hb hx hrange List.nodup_range, gather_range hb, ← hvalues,
      gather_range (size_minus hb hproduct), div_lt_iff₀ (errorScale_pos b), hscale] at hlt
    exact hlt
  · have hzero : vectorOf n b = 0 := (isZero_lengthOf_iff hb).mp ((isZero_iff _).mpr hlength)
    have hlocal : vectorOf (List.range n).length (localRhs A b (List.range n) x) = 0 := by
      rw [vectorOf_localRhs hA hrange, innerRhs_of_bijective _ _ _ (bijective_nodeAt_range hrange),
        hzero]
      rfl
    have hsolved := vectorOf_gather_of_localRhs hA hb hx hrange List.nodup_range hlocal (10 * n) t
    rw [← hvalues, gather_range (size_minus hb hproduct), List.length_range,
      vectorOf_minus hb hproduct, sub_eq_zero] at hsolved
    exact (eq_of_vectorOf_eq hb hproduct hsolved).symm

end Level

/-! ## What a solve for some nodes does -/

section Solves

variable {A : SparseMatrix ℝ} {b x : Array ℝ} {nodes : List ℕ} {steps : ℕ} {t : ℝ}

/-- For a positive semidefinite matrix and a right-hand side in its range, a solve for some nodes
that may make a step for each of them leaves the other nodes as they are and brings the error at
these nodes, which it returns, below the tolerance; no more steps are made if more are allowed. A
lattice that is small enough to be solved at once is solved to the tolerance. -/
theorem exists_conjugateGradient?_solves (hA : A.Tidy n n) (hM : (A.toMatrix n n).PosSemidef)
    (hb : b.size = n) (hrange : ∃ y, A.toMatrix n n *ᵥ y = vectorOf n b) (hx : x.size = n)
    (hnodes : ∀ i ∈ nodes, i < n) (hnodup : nodes.Nodup) (hsteps : nodes.length ≤ steps)
    (ht : 0 < t) :
    (∃ y error, conjugateGradient? A b (nodes.map Int.ofNat) (some steps) (some t) x =
        .ok (y, error) ∧
      y.size = n ∧ (∀ i, i ∉ nodes → y.getD i 0 = x.getD i 0) ∧
      error = lengthOf (gather (minus b (A.mulVec y)) nodes) /
        (if lengthOf (gather b nodes) = 0 then 1 else lengthOf (gather b nodes)) ∧
      error < t) ∧
    (iterationsOf A b nodes steps t x).length ≤ nodes.length ∧
    conjugateGradient A b nodes steps t x = conjugateGradient A b nodes nodes.length t x ∧
    ∀ res ≠ [], (∀ r ∈ res, r ≤ directResolution) → ∀ scale lineSweeps,
        let out := { LevelSystem.make res A b scale with tolerance := t }.solve lineSweeps x
        (∃ r, out.result = .ok r) ∧
          (lengthOf b ≠ 0 → lengthOf (minus b (A.mulVec out.x)) < t * lengthOf b) ∧
          (lengthOf b = 0 → A.mulVec out.x = b) := by
  have hconsistent := IsConsistent.of_solvable hM hrange
  have hscale : errorScale (gather b nodes) =
      if lengthOf (gather b nodes) = 0 then 1 else lengthOf (gather b nodes) := by
    unfold errorScale
    simp only [isZero_iff]
  refine ⟨⟨(conjugateGradient A b nodes steps t x).1, (conjugateGradient A b nodes steps t x).2,
    ?_, ?_, ?_, ?_, ?_⟩, ?_, ?_, ?_⟩
  · exact conjugateGradient?_ofNat hA.rows hA.columns hb hx ht.le hnodes (some steps)
  · exact (size_conjugateGradient _ _ _ _ _ _).trans hx
  · exact fun i hi => getD_scatter_of_not_mem hi x _
  · rw [← hscale]
    exact snd_conjugateGradient_eq hA hb hx hnodes hnodup steps t
  · exact snd_conjugateGradient_lt hA hnodes hconsistent ht hsteps
  · exact length_iterationsOf_le hA hnodes hconsistent ht steps
  · exact conjugateGradient_eq_of_le hA hnodes hconsistent ht hsteps
  · exact fun res hne hsmall scale lineSweeps =>
      solve_small hA hconsistent hb hx ht hne hsmall scale lineSweeps

open LevelSystem

/-- Two nodes of a lattice whose matrix is singular, and all of its nodes at once. -/
theorem exists_conjugateGradient?_ones :
    (∃ y error, conjugateGradient? (ones 4 0) (Array.replicate 4 (4 + 0)) [2, 0] (some 2) (some 1)
        (Array.replicate 4 0) = .ok (y, error) ∧
      y.getD 1 0 = 0 ∧ y.getD 3 0 = 0 ∧ error < 1) ∧
    ∃ r, ({ make [4] (ones 4 0) (Array.replicate 4 (4 + 0)) 1 with tolerance := 1 }.solve 0
      (Array.replicate 4 0)).result = .ok r := by
  have hsemi : ((ones 4 0).toMatrix 4 4).PosSemidef := by
    rw [toMatrix_ones, zero_smul, add_zero]
    exact posSemidef_vecMulVec_one 4
  obtain ⟨⟨y, error, hsolved, -, hfixed, -, hlt⟩, -, -, hsmall⟩ :=
    exists_conjugateGradient?_solves (tidy_ones 4 0) hsemi (by simp) ⟨_, ones_mulVec_one 4 0⟩
      (x := Array.replicate 4 0) (by simp) (by decide : ∀ i ∈ [2, 0], i < 4) (by decide)
      (le_refl 2) one_pos
  refine ⟨⟨y, error, hsolved, ?_, ?_, hlt⟩, ?_⟩
  · exact hfixed 1 (by decide)
  · exact hfixed 3 (by decide)
  · exact (hsmall [4] (by decide) (by decide) 1 0).1

end Solves

end GridSpline
