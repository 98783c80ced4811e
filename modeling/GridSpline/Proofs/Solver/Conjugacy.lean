import Mathlib
import GridSpline.Proofs.Solver.Lowering

/-!
# A descent comes to an end

The directions of a descent by conjugate gradients are conjugate to each other, and the residual
has nothing in common with any of them. Two facts carry this from one step to the next. The
preconditioned residual is a combination of the directions, the next one included. And a direction,
taken through the matrix and the preconditioner, is a combination of the directions, where the last
one needs the preconditioned residual as well. So the next direction is conjugate to all directions
but the last one without being bent, and it is bent away from the last one by just as much as is
needed.

Conjugate directions that are bent upwards are linearly independent. So there are no more of them
than there are nodes, and a descent that makes so many steps has no residual left. The matrix may be
singular; all that counts is that the equations are consistent.

## Main definitions

* `AreConjugate` — directions that are bent upwards and conjugate to each other.
* `Descent.Follows` — the directions of the steps up to a state.

## Main statements

* `AreConjugate.length_le` — there are no more of them than there are dimensions.
* `Descent.Follows.step` — the direction of a step follows those before it.
* `Descent.Follows.length_performed_le` — a run makes no more steps than there are dimensions.
* `Descent.Follows.lengthOf_run_lt` — with so many it ends with a short residual.
-/

namespace GridSpline

open Scalar
open Matrix

variable {n : ℕ} {M D : Matrix (Fin n) (Fin n) ℝ} {ds : List (Fin n → ℝ)}

/-! ## Conjugate directions -/

/-- Directions that are bent upwards and conjugate to each other. -/
structure AreConjugate (M : Matrix (Fin n) (Fin n) ℝ) (ds : List (Fin n → ℝ)) : Prop where
  pairwise : ds.Pairwise fun d e => d ⬝ᵥ (M *ᵥ e) = 0
  curved : ∀ d ∈ ds, 0 < d ⬝ᵥ (M *ᵥ d)

/-- There are no more conjugate directions than there are dimensions. -/
theorem AreConjugate.length_le (hM : M.IsSymm) (h : AreConjugate M ds) : ds.length ≤ n := by
  have happly : ∀ u v, Matrix.toLinearMap₂' ℝ M u v = u ⬝ᵥ (M *ᵥ v) :=
    fun u v => Matrix.toLinearMap₂'_apply' M u v
  have horthogonal : (Matrix.toLinearMap₂' ℝ M).IsOrthoᵢ fun i : Fin ds.length => ds[i] := by
    intro i j hij
    show Matrix.toLinearMap₂' ℝ M ds[i] ds[j] = 0
    rw [happly]
    rcases lt_or_gt_of_ne hij with hlt | hgt
    · exact List.pairwise_iff_getElem.mp h.pairwise i j i.isLt j.isLt hlt
    · rw [dotProduct_mulVec_comm hM]
      exact List.pairwise_iff_getElem.mp h.pairwise j i j.isLt i.isLt hgt
  have hindependent : LinearIndependent ℝ fun i : Fin ds.length => ds[i] := by
    refine LinearMap.linearIndependent_of_isOrthoᵢ horthogonal fun i hzero => ?_
    have hcurved := h.curved ds[i] (List.getElem_mem i.isLt)
    rw [← happly] at hcurved
    exact hcurved.ne' hzero
  simpa using hindependent.fintype_card_le_finrank

/-- What has nothing in common with some directions has nothing in common with what they span. -/
theorem dotProduct_eq_zero_of_mem_span {r v : Fin n → ℝ} (h : ∀ d ∈ ds, d ⬝ᵥ r = 0)
    (hv : v ∈ Submodule.span ℝ {d | d ∈ ds}) : v ⬝ᵥ r = 0 := by
  induction hv using Submodule.span_induction with
  | mem d hd => exact h d hd
  | zero => exact zero_dotProduct r
  | add u w _ _ hu hw => rw [add_dotProduct, hu, hw, add_zero]
  | smul c u _ hu => rw [smul_dotProduct, hu, smul_zero]

namespace Descent

/-! ## The directions of a descent -/

/-- What the last direction `d` and those before it have to do with the residual `r`. Taken through
the matrix and the preconditioner, a direction is a combination of the directions, and the last one
of the preconditioned residual as well. -/
structure Continues (M D : Matrix (Fin n) (Fin n) ℝ) (r d : Fin n → ℝ) (previous : ℝ)
    (rest : List (Fin n → ℝ)) : Prop where
  slope : previous * (d ⬝ᵥ (M *ᵥ (D *ᵥ r))) = -(r ⬝ᵥ (D *ᵥ r)) * (d ⬝ᵥ (M *ᵥ d))
  last : D *ᵥ (M *ᵥ d) ∈ Submodule.span ℝ (insert (D *ᵥ r) {e | e ∈ d :: rest})
  before : ∀ e ∈ rest, D *ᵥ (M *ᵥ e) ∈ Submodule.span ℝ {e | e ∈ d :: rest}

/-- The directions of the steps up to a state, the last one first. -/
structure Follows (M D : Matrix (Fin n) (Fin n) ℝ) (s : Descent ℝ) (ds : List (Fin n → ℝ)) :
    Prop where
  conjugate : AreConjugate M ds
  orthogonal : ∀ d ∈ ds, d ⬝ᵥ vectorOf n s.residual = 0
  first : s.last = none → ds = []
  next : ∀ d previous, s.last = some (d, previous) → ∃ rest, ds = vectorOf n d :: rest ∧
    Continues M D (vectorOf n s.residual) (vectorOf n d) previous rest

theorem follows_start (M D : Matrix (Fin n) (Fin n) ℝ) (A : SparseMatrix ℝ) (b x : Array ℝ) :
    (start A b x).Follows M D [] where
  conjugate := ⟨.nil, fun d hd => absurd hd List.not_mem_nil⟩
  orthogonal d hd := absurd hd List.not_mem_nil
  first _ := rfl
  next d previous hlast := by cases hlast

section Step

variable {A : SparseMatrix ℝ} {scale : Array ℝ} {b : Fin n → ℝ} {s : Descent ℝ}
  (hA : A.Tidy n n) (hM : IsConsistent (A.toMatrix n n) b) (hs : s.IsSound (A.toMatrix n n) b)
  (hscale : IsScale n scale) (hne : vectorOf n s.residual ≠ 0)
  (h : s.Follows (A.toMatrix n n) (diagonal (vectorOf n scale)) ds)

include hs hscale

theorem IsSound.vectorOf_preconditioned :
    vectorOf n (Array.zipWith (· * ·) scale s.residual) =
      diagonal (vectorOf n scale) *ᵥ vectorOf n s.residual := by
  rw [vectorOf_zipWith _ hscale.size hs.size_residual]
  funext i
  rw [mulVec_diagonal]

theorem IsSound.rho_eq : s.rho scale = vectorOf n s.residual ⬝ᵥ
    (diagonal (vectorOf n scale) *ᵥ vectorOf n s.residual) := by
  have hz : (Array.zipWith (· * ·) scale s.residual).size = n :=
    size_zipWith _ hscale.size hs.size_residual
  unfold rho
  rw [dot_eq hs.size_residual hz, hs.vectorOf_preconditioned hscale]

/-- The direction of a step is the preconditioned residual, bent away from the last direction. -/
theorem IsSound.vectorOf_direction_of_last {d : Array ℝ} {previous : ℝ}
    (hlast : s.last = some (d, previous)) : vectorOf n (s.direction scale) =
      diagonal (vectorOf n scale) *ᵥ vectorOf n s.residual +
        (s.rho scale / previous) • vectorOf n d := by
  have hz : (Array.zipWith (· * ·) scale s.residual).size = n :=
    size_zipWith _ hscale.size hs.size_residual
  obtain ⟨hsize, -, -⟩ := hs.last d previous hlast
  unfold direction
  rw [hlast]
  simp only
  rw [vectorOf_plus hz (size_times _ hsize), vectorOf_times _ hsize,
    hs.vectorOf_preconditioned hscale]

theorem IsSound.vectorOf_direction_of_first (hlast : s.last = none) :
    vectorOf n (s.direction scale) =
      diagonal (vectorOf n scale) *ᵥ vectorOf n s.residual := by
  rw [← hs.vectorOf_preconditioned hscale]
  unfold direction
  rw [hlast]

include h

theorem Follows.preconditioned_mem_span :
    diagonal (vectorOf n scale) *ᵥ vectorOf n s.residual ∈
      Submodule.span ℝ {e | e ∈ vectorOf n (s.direction scale) :: ds} := by
  have hdirection : vectorOf n (s.direction scale) ∈
      Submodule.span ℝ {e | e ∈ vectorOf n (s.direction scale) :: ds} :=
    Submodule.subset_span List.mem_cons_self
  cases hlast : s.last with
  | none => rwa [← hs.vectorOf_direction_of_first hscale hlast]
  | some last =>
    obtain ⟨rest, hds, -⟩ := h.next _ _ hlast
    have hold : vectorOf n last.1 ∈
        Submodule.span ℝ {e | e ∈ vectorOf n (s.direction scale) :: ds} :=
      Submodule.subset_span (List.mem_cons_of_mem _ (hds ▸ List.mem_cons_self))
    have heq : diagonal (vectorOf n scale) *ᵥ vectorOf n s.residual =
        vectorOf n (s.direction scale) - (s.rho scale / last.2) • vectorOf n last.1 := by
      rw [hs.vectorOf_direction_of_last hscale hlast, add_sub_cancel_right]
    rw [heq]
    exact Submodule.sub_mem _ hdirection (Submodule.smul_mem _ _ hold)

omit hs hscale in
/-- The directions up to a state, taken through the matrix and the preconditioner, are combinations
of them and of any direction that the preconditioned residual is made of. -/
theorem Follows.mulVec_mem_span {p : Fin n → ℝ}
    (hp : diagonal (vectorOf n scale) *ᵥ vectorOf n s.residual ∈
      Submodule.span ℝ {e | e ∈ p :: ds}) :
    ∀ e ∈ ds, diagonal (vectorOf n scale) *ᵥ (A.toMatrix n n *ᵥ e) ∈
      Submodule.span ℝ {e | e ∈ p :: ds} := by
  have hds : {e | e ∈ ds} ⊆ {e | e ∈ p :: ds} := fun e he => List.mem_cons_of_mem p he
  intro e he
  cases hlast : s.last with
  | none =>
    rw [h.first hlast] at he
    exact absurd he List.not_mem_nil
  | some last =>
    obtain ⟨rest, rfl, hcontinues⟩ := h.next _ _ hlast
    rcases List.mem_cons.mp he with rfl | hmem
    · have hle : Submodule.span ℝ (insert (diagonal (vectorOf n scale) *ᵥ vectorOf n s.residual)
          {e | e ∈ vectorOf n last.1 :: rest}) ≤
          Submodule.span ℝ {e | e ∈ p :: vectorOf n last.1 :: rest} :=
        Submodule.span_le.mpr (Set.insert_subset hp (hds.trans Submodule.subset_span))
      exact hle hcontinues.last
    · exact Submodule.span_mono hds (hcontinues.before e hmem)

include hM

/-- The next direction is conjugate to all before it. -/
theorem Follows.direction_conjugate : ∀ d ∈ ds,
    vectorOf n (s.direction scale) ⬝ᵥ (A.toMatrix n n *ᵥ d) = 0 := by
  cases hlast : s.last with
  | none =>
    rw [h.first hlast]
    exact fun d hd => absurd hd List.not_mem_nil
  | some last =>
    obtain ⟨d, previous⟩ := last
    obtain ⟨rest, rfl, hcontinues⟩ := h.next d previous hlast
    obtain ⟨-, hprevious, -⟩ := hs.last d previous hlast
    have hconjugate := List.pairwise_cons.mp h.conjugate.pairwise
    intro e he
    rw [hs.vectorOf_direction_of_last hscale hlast, add_dotProduct, smul_dotProduct, smul_eq_mul]
    rcases List.mem_cons.mp he with rfl | hmem
    · rw [dotProduct_mulVec_comm hM.isSymm, hs.rho_eq hscale]
      field_simp
      linear_combination hcontinues.slope
    · have hflat : (diagonal (vectorOf n scale) *ᵥ vectorOf n s.residual) ⬝ᵥ
          (A.toMatrix n n *ᵥ e) = 0 := by
        rw [dotProduct_comm, dotProduct_mulVec_comm (isSymm_diagonal _), dotProduct_comm]
        exact dotProduct_eq_zero_of_mem_span h.orthogonal (hcontinues.before e hmem)
      rw [hflat, hconjugate.1 e hmem, mul_zero, add_zero]

include hA hne

/-- The next direction together with all before it. -/
theorem Follows.conjugate_cons :
    AreConjugate (A.toMatrix n n) (vectorOf n (s.direction scale) :: ds) := by
  refine ⟨List.pairwise_cons.mpr ⟨h.direction_conjugate hM hs hscale, h.conjugate.pairwise⟩, ?_⟩
  intro d hd
  rcases List.mem_cons.mp hd with rfl | hmem
  · rw [← hs.curvature_eq hA hscale]
    exact (hs.dividesSafely hA hM hscale hne).1
  · exact h.conjugate.curved d hmem

/-- As long as there is a residual, there is room for another direction. -/
theorem Follows.length_lt : ds.length < n :=
  (h.conjugate_cons hA hM hs hscale hne).length_le hM.isSymm

/-- The new residual has nothing in common with the new direction nor with those before it. -/
theorem Follows.orthogonal_step : ∀ d ∈ vectorOf n (s.direction scale) :: ds,
    d ⬝ᵥ vectorOf n (s.step A scale).residual = 0 := by
  intro d hd
  rcases List.mem_cons.mp hd with rfl | hmem
  · refine ((hs.step hA hM hscale hne).last _ (s.rho scale) ?_).2.2
    rw [step_eq]
  · rw [hs.residual_step scale hA, dotProduct_sub, h.orthogonal d hmem, dotProduct_smul,
      dotProduct_mulVec_comm hM.isSymm, h.direction_conjugate hM hs hscale d hmem, smul_zero,
      sub_zero]

/-- The direction of a step follows those before it. -/
theorem Follows.step : (s.step A scale).Follows (A.toMatrix n n) (diagonal (vectorOf n scale))
    (vectorOf n (s.direction scale) :: ds) where
  conjugate := h.conjugate_cons hA hM hs hscale hne
  orthogonal := h.orthogonal_step hA hM hs hscale hne
  first hlast := by
    rw [step_eq] at hlast
    cases hlast
  next d previous hlast := by
    rw [step_eq, Option.some.injEq, Prod.mk.injEq] at hlast
    obtain ⟨rfl, rfl⟩ := hlast
    have hmem := h.preconditioned_mem_span hs hscale
    have hcurved := (hs.dividesSafely hA hM hscale hne).1
    have hresidual := hs.residual_step scale hA
    have hpositive : 0 < s.stepLength A scale := div_pos (hs.rho_pos hscale hne) hcurved
    have hlength : s.stepLength A scale * (vectorOf n (s.direction scale) ⬝ᵥ
        (A.toMatrix n n *ᵥ vectorOf n (s.direction scale))) = s.rho scale := by
      rw [← hs.curvature_eq hA hscale]
      exact div_mul_cancel₀ _ hcurved.ne'
    -- The new residual, preconditioned, has nothing in common with the old one.
    have hold : vectorOf n s.residual ⬝ᵥ
        (diagonal (vectorOf n scale) *ᵥ vectorOf n (s.step A scale).residual) = 0 := by
      rw [dotProduct_mulVec_comm (isSymm_diagonal _)]
      rw [dotProduct_comm]
      exact dotProduct_eq_zero_of_mem_span (h.orthogonal_step hA hM hs hscale hne) hmem
    refine ⟨ds, rfl, ?_, ?_, ?_⟩
    · have hsquare : vectorOf n (s.step A scale).residual ⬝ᵥ
          (diagonal (vectorOf n scale) *ᵥ vectorOf n (s.step A scale).residual) =
          -(s.stepLength A scale * (vectorOf n (s.direction scale) ⬝ᵥ (A.toMatrix n n *ᵥ
            (diagonal (vectorOf n scale) *ᵥ vectorOf n (s.step A scale).residual)))) := by
        calc vectorOf n (s.step A scale).residual ⬝ᵥ
              (diagonal (vectorOf n scale) *ᵥ vectorOf n (s.step A scale).residual)
            = (vectorOf n s.residual -
                s.stepLength A scale • (A.toMatrix n n *ᵥ vectorOf n (s.direction scale))) ⬝ᵥ
              (diagonal (vectorOf n scale) *ᵥ vectorOf n (s.step A scale).residual) := by
              rw [← hresidual]
          _ = _ := by
              rw [sub_dotProduct, hold, smul_dotProduct, smul_eq_mul, zero_sub, dotProduct_comm,
                dotProduct_mulVec_comm hM.isSymm]
      rw [hsquare, ← hlength]
      ring
    · have hproduct : A.toMatrix n n *ᵥ vectorOf n (s.direction scale) =
          (s.stepLength A scale)⁻¹ •
            (vectorOf n s.residual - vectorOf n (s.step A scale).residual) := by
        rw [hresidual, sub_sub_cancel, smul_smul, inv_mul_cancel₀ hpositive.ne', one_smul]
      rw [hproduct, mulVec_smul, mulVec_sub]
      refine Submodule.smul_mem _ _ (Submodule.sub_mem _ ?_ ?_)
      · exact Submodule.span_mono (Set.subset_insert _ _) hmem
      · exact Submodule.subset_span (Set.mem_insert _ _)
    · exact h.mulVec_mem_span hmem

end Step
/-! ## A run -/

theorem run_eq_of_le (A : SparseMatrix ℝ) (scale : Array ℝ) (bound : ℝ) {few many : ℕ}
    (hle : few ≤ many) {s : Descent ℝ}
    (hdone : lengthOf (run A scale bound few s).residual < bound) :
    run A scale bound many s = run A scale bound few s := by
  induction few generalizing many s with
  | zero =>
    have hshort : lengthOf s.residual < bound := hdone
    cases many with
    | zero => rfl
    | succ many =>
      show run A scale bound (many + 1) s = s
      rw [run, if_pos hshort]
  | succ few ih =>
    obtain ⟨more, rfl⟩ : ∃ more, many = more + 1 := ⟨many - 1, by omega⟩
    unfold run at hdone ⊢
    by_cases hshort : lengthOf s.residual < bound
    · rw [if_pos hshort, if_pos hshort]
    · rw [if_neg hshort] at hdone
      rw [if_neg hshort, if_neg hshort]
      exact ih (by omega) hdone

section Run

variable {A : SparseMatrix ℝ} {scale : Array ℝ} {b : Fin n → ℝ} {bound : ℝ}
  (hA : A.Tidy n n) (hM : IsConsistent (A.toMatrix n n) b) (hscale : IsScale n scale)
  (hbound : 0 < bound)

include hA hM hscale hbound

/-- A run makes no more steps than there are dimensions that no direction has reached. -/
theorem Follows.length_performed_le (steps : ℕ) {s : Descent ℝ}
    (hs : s.IsSound (A.toMatrix n n) b)
    (h : s.Follows (A.toMatrix n n) (diagonal (vectorOf n scale)) ds) :
    (performed A scale bound steps s).length + ds.length ≤ n := by
  have hroom := h.conjugate.length_le hM.isSymm
  induction steps generalizing s ds with
  | zero => simpa [performed] using hroom
  | succ steps ih =>
    unfold performed
    by_cases hdone : lengthOf s.residual < bound
    · rw [if_pos hdone]
      simpa using hroom
    · have hne := vectorOf_ne_zero_of_lengthOf hs.size_residual hbound hdone
      have hnext := ih (hs.step hA hM hscale hne) (h.step hA hM hs hscale hne)
        (h.length_lt hA hM hs hscale hne)
      rw [if_neg hdone]
      rw [List.length_cons] at hnext ⊢
      omega

/-- A run that may make as many steps as there are dimensions leaves a short residual. -/
theorem Follows.lengthOf_run_lt {steps : ℕ} {s : Descent ℝ} (hs : s.IsSound (A.toMatrix n n) b)
    (h : s.Follows (A.toMatrix n n) (diagonal (vectorOf n scale)) ds)
    (hsteps : n ≤ steps + ds.length) :
    lengthOf (run A scale bound steps s).residual < bound := by
  induction steps generalizing s ds with
  | zero =>
    by_contra hlong
    have hne := vectorOf_ne_zero_of_lengthOf hs.size_residual hbound hlong
    have hlt := h.length_lt hA hM hs hscale hne
    omega
  | succ steps ih =>
    unfold run
    by_cases hdone : lengthOf s.residual < bound
    · rwa [if_pos hdone]
    · have hne := vectorOf_ne_zero_of_lengthOf hs.size_residual hbound hdone
      rw [if_neg hdone]
      refine ih (hs.step hA hM hscale hne) (h.step hA hM hs hscale hne) ?_
      rw [List.length_cons]
      omega

end Run

end Descent

end GridSpline
