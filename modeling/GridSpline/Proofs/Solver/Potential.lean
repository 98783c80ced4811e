import Mathlib

/-!
# The potential of symmetric equations

For a symmetric matrix the equations `M x = b` are those for a stationary point of a quadratic
function, the potential. If the matrix is positive semidefinite and the right-hand side is in its
range, the potential has a least value and the solutions are where it is taken. Every method of the
solver lowers it: a step along a direction to the lowest point on it, solving for some nodes, and
solving a triangle.

## Main definitions

* `potential` — the function.
* `spread` — values at some nodes, with zero at all others.
* `IsConsistent` — a positive semidefinite matrix with a right-hand side that fits it.

## Main statements

* `potential_add` — the expansion of the potential.
* `IsConsistent.curvature_pos` — a direction that the residual has a part in is bent upwards.
* `IsConsistent.restrict` — the equations for some nodes are consistent as well.
* `potential_spread` — the potential of the equations for some nodes.
* `potential_triangle` — solving a triangle lowers the potential, and by how much.
-/

namespace GridSpline

open Matrix

variable {n k : ℕ} {M : Matrix (Fin n) (Fin n) ℝ} {b x : Fin n → ℝ}

/-! ## The potential -/

/-- What the equations `M x = b` make stationary. -/
noncomputable def potential (M : Matrix (Fin n) (Fin n) ℝ) (b x : Fin n → ℝ) : ℝ :=
  x ⬝ᵥ (M *ᵥ x) / (2 : ℕ) - b ⬝ᵥ x

theorem potential_eq (M : Matrix (Fin n) (Fin n) ℝ) (b x : Fin n → ℝ) :
    potential M b x = 1 / 2 * (x ⬝ᵥ (M *ᵥ x)) - b ⬝ᵥ x := by
  unfold potential
  push_cast
  ring

theorem dotProduct_mulVec_comm (hM : M.IsSymm) (u v : Fin n → ℝ) :
    u ⬝ᵥ (M *ᵥ v) = v ⬝ᵥ (M *ᵥ u) := by
  rw [dotProduct_mulVec, ← mulVec_transpose, hM, dotProduct_comm]

/-- The potential of changed values. -/
theorem potential_add (hM : M.IsSymm) (b x d : Fin n → ℝ) :
    potential M b (x + d) = potential M b x + d ⬝ᵥ (M *ᵥ x - b) + 1 / 2 * (d ⬝ᵥ (M *ᵥ d)) := by
  have hcross := dotProduct_mulVec_comm hM x d
  rw [potential_eq, potential_eq, mulVec_add, add_dotProduct, dotProduct_add, dotProduct_add,
    dotProduct_add, dotProduct_sub, hcross, dotProduct_comm d b]
  ring

/-- A step to the lowest point along a direction. -/
theorem potential_step (hM : M.IsSymm) {p : Fin n → ℝ} (hcurved : p ⬝ᵥ (M *ᵥ p) ≠ 0) {rho : ℝ}
    (hrho : p ⬝ᵥ (b - M *ᵥ x) = rho) :
    potential M b (x + (rho / (p ⬝ᵥ (M *ᵥ p))) • p) =
      potential M b x - 1 / 2 * (rho ^ 2 / (p ⬝ᵥ (M *ᵥ p))) := by
  have hslope : p ⬝ᵥ (M *ᵥ x - b) = -rho := by
    rw [← hrho, ← neg_sub b, dotProduct_neg]
  rw [potential_add hM, mulVec_smul, dotProduct_smul, smul_dotProduct, smul_dotProduct, hslope]
  simp only [smul_eq_mul]
  field_simp
  ring

/-! ## Consistent equations -/

/-- A positive semidefinite matrix, and a right-hand side without a part in what the matrix takes to
zero. -/
structure IsConsistent (M : Matrix (Fin n) (Fin n) ℝ) (b : Fin n → ℝ) : Prop where
  posSemidef : M.PosSemidef
  orthogonal : ∀ v, M *ᵥ v = 0 → v ⬝ᵥ b = 0

theorem isSymm_of_isHermitian (hM : M.IsHermitian) : M.IsSymm := by
  rwa [IsHermitian, conjTranspose_eq_transpose_of_trivial] at hM

/-- A right-hand side in the range of the matrix. -/
theorem IsConsistent.of_solvable (hM : M.PosSemidef) (hb : ∃ y, M *ᵥ y = b) : IsConsistent M b where
  posSemidef := hM
  orthogonal v hv := by
    obtain ⟨y, rfl⟩ := hb
    rw [dotProduct_mulVec_comm (isSymm_of_isHermitian hM.isHermitian), hv, dotProduct_zero]

namespace IsConsistent

variable (h : IsConsistent M b)

include h

theorem isSymm : M.IsSymm := isSymm_of_isHermitian h.posSemidef.isHermitian

theorem nonneg (v : Fin n → ℝ) : 0 ≤ v ⬝ᵥ (M *ᵥ v) := by
  have := h.posSemidef.dotProduct_mulVec_nonneg v
  rwa [star_trivial] at this

/-- A direction without curvature is one that the matrix takes to zero. -/
theorem mulVec_eq_zero {v : Fin n → ℝ} (hv : v ⬝ᵥ (M *ᵥ v) = 0) : M *ᵥ v = 0 := by
  refine (h.posSemidef.dotProduct_mulVec_zero_iff v).mp ?_
  rw [star_trivial]
  exact hv

/-- Nor has the residual a part in what the matrix takes to zero. -/
theorem dotProduct_residual_eq_zero {v : Fin n → ℝ} (hv : M *ᵥ v = 0) (x : Fin n → ℝ) :
    v ⬝ᵥ (b - M *ᵥ x) = 0 := by
  rw [dotProduct_sub, h.orthogonal v hv, dotProduct_mulVec_comm h.isSymm, hv, dotProduct_zero,
    sub_zero]

/-- A direction that the residual has a part in is bent upwards. -/
theorem curvature_pos {p : Fin n → ℝ} (hp : p ⬝ᵥ (b - M *ᵥ x) ≠ 0) : 0 < p ⬝ᵥ (M *ᵥ p) := by
  refine lt_of_le_of_ne (h.nonneg p) ?_
  intro hflat
  exact hp (h.dotProduct_residual_eq_zero (h.mulVec_eq_zero hflat.symm) x)

end IsConsistent

/-- The only solution of positive definite equations is the only point of least potential. -/
theorem eq_of_potential_le (hM : M.PosDef) {z : Fin n → ℝ} (hz : M *ᵥ z = b)
    (hle : potential M b x ≤ potential M b z) : x = z := by
  have hexpand := potential_add (isSymm_of_isHermitian hM.isHermitian) b z (x - z)
  rw [add_sub_cancel, hz, sub_self, dotProduct_zero, add_zero] at hexpand
  by_contra hne
  have hpos := hM.dotProduct_mulVec_pos (sub_ne_zero.mpr hne)
  rw [star_trivial] at hpos
  linarith

/-! ## Some nodes -/

/-- Values at some nodes, with zero at all others. -/
def spread (e : Fin k → Fin n) (d : Fin k → ℝ) : Fin n → ℝ :=
  d ᵥ* (1 : Matrix (Fin n) (Fin n) ℝ).submatrix e id

section Spread

variable (e : Fin k → Fin n) (d : Fin k → ℝ)

theorem spread_dotProduct (v : Fin n → ℝ) : spread e d ⬝ᵥ v = d ⬝ᵥ (v ∘ e) := by
  have hpick : (1 : Matrix (Fin n) (Fin n) ℝ).submatrix e id *ᵥ v = v ∘ e := by
    funext j
    exact congrFun (one_mulVec v) (e j)
  unfold spread
  rw [← dotProduct_mulVec, hpick]

theorem mulVec_spread_comp : (M *ᵥ spread e d) ∘ e = M.submatrix e e *ᵥ d := by
  funext j
  show M (e j) ⬝ᵥ spread e d = _
  rw [dotProduct_comm, spread_dotProduct, dotProduct_comm]
  rfl

/-- The rows and columns of some nodes have the curvature of the values that are zero elsewhere. -/
theorem spread_dotProduct_mulVec : spread e d ⬝ᵥ (M *ᵥ spread e d) =
    d ⬝ᵥ (M.submatrix e e *ᵥ d) := by
  rw [spread_dotProduct, mulVec_spread_comp]

theorem spread_apply {e : Fin k → Fin n} (he : Function.Injective e) (j : Fin k) :
    spread e d (e j) = d j := by
  unfold spread vecMul dotProduct
  rw [Finset.sum_eq_single j]
  · show d j * (1 : Matrix (Fin n) (Fin n) ℝ) (e j) (e j) = d j
    rw [one_apply_eq, mul_one]
  · intro l _ hl
    simp [he.ne hl]
  · exact fun hmem => absurd (Finset.mem_univ _) hmem

theorem spread_apply_of_not_mem {i : Fin n} (hi : ∀ j, e j ≠ i) : spread e d i = 0 := by
  unfold spread vecMul dotProduct
  refine Finset.sum_eq_zero ?_
  intro j _
  simp [hi j]

end Spread

/-- What is left for some nodes when all others keep their values. -/
def innerRhs (M : Matrix (Fin n) (Fin n) ℝ) (b x : Fin n → ℝ) (e : Fin k → Fin n) : Fin k → ℝ :=
  (b - M *ᵥ x) ∘ e + M.submatrix e e *ᵥ (x ∘ e)

/-- For all nodes nothing is moved to the right-hand side. -/
theorem innerRhs_of_bijective (M : Matrix (Fin n) (Fin n) ℝ) (b x : Fin n → ℝ)
    {e : Fin k → Fin n} (he : Function.Bijective e) : innerRhs M b x e = b ∘ e := by
  have hproduct : M.submatrix e e *ᵥ (x ∘ e) = (M *ᵥ x) ∘ e := by
    funext j
    exact he.sum_comp fun i => M (e j) i * x i
  unfold innerRhs
  rw [hproduct]
  funext j
  simp

/-- The equations for some nodes are consistent as well. -/
theorem IsConsistent.restrict (h : IsConsistent M b) (x : Fin n → ℝ) (e : Fin k → Fin n) :
    IsConsistent (M.submatrix e e) (innerRhs M b x e) where
  posSemidef := h.posSemidef.submatrix e
  orthogonal v hv := by
    have hflat : spread e v ⬝ᵥ (M *ᵥ spread e v) = 0 := by
      rw [spread_dotProduct_mulVec, hv, dotProduct_zero]
    have hzero := h.mulVec_eq_zero hflat
    unfold innerRhs
    rw [dotProduct_add, dotProduct_mulVec_comm (h.isSymm.submatrix e), hv, dotProduct_zero, add_zero,
      ← spread_dotProduct]
    exact h.dotProduct_residual_eq_zero hzero x

/-- The potential of the equations for some nodes is that of all, up to a constant. -/
theorem potential_spread (hM : M.IsSymm) (b x : Fin n → ℝ) (e : Fin k → Fin n) (d : Fin k → ℝ) :
    potential M b (x + spread e d) - potential M b x =
      potential (M.submatrix e e) (innerRhs M b x e) (x ∘ e + d) -
        potential (M.submatrix e e) (innerRhs M b x e) (x ∘ e) := by
  have hslope : M.submatrix e e *ᵥ (x ∘ e) - innerRhs M b x e = (M *ᵥ x - b) ∘ e := by
    unfold innerRhs
    rw [sub_add_cancel_right]
    funext j
    simp
  rw [potential_add hM, potential_add (hM.submatrix e), hslope, spread_dotProduct,
    spread_dotProduct_mulVec]
  ring

/-! ## Triangles -/

section Triangles

variable {L U : Matrix (Fin n) (Fin n) ℝ} (hM : M.IsSymm) (hsum : M = L + U)
  (hlower : ∀ i j, i < j → L i j = 0) (hupper : ∀ i j, j ≤ i → U i j = 0)

include hM hsum hlower hupper

/-- The lower triangle of a symmetric matrix mirrors the upper one, which is without the diagonal.
-/
theorem lower_eq_transpose_add : L = Uᵀ + diagonal fun i => M i i := by
  ext i j
  have hij := congrFun (congrFun hsum i) j
  have hji := congrFun (congrFun hsum j) i
  rw [hM.apply i j, hij] at hji
  simp only [Matrix.add_apply, transpose_apply] at hij hji ⊢
  rcases lt_trichotomy i j with hlt | rfl | hgt
  · rw [diagonal_apply_ne _ hlt.ne, hlower i j hlt, hupper j i hlt.le, add_zero]
  · rw [diagonal_apply_eq, hij, hupper i i le_rfl, add_zero, zero_add]
  · rw [diagonal_apply_ne _ hgt.ne', add_zero]
    rw [hupper i j hgt.le, hlower j i hgt, add_zero, zero_add] at hji
    exact hji

/-- Along a direction the two triangles differ by the diagonal. -/
theorem dotProduct_lower_mulVec (d : Fin n → ℝ) :
    d ⬝ᵥ (L *ᵥ d) = d ⬝ᵥ (U *ᵥ d) + ∑ i, M i i * d i ^ 2 := by
  have htranspose : d ⬝ᵥ (Uᵀ *ᵥ d) = d ⬝ᵥ (U *ᵥ d) := by
    rw [mulVec_transpose, dotProduct_comm, ← dotProduct_mulVec]
  have hsquares : d ⬝ᵥ (diagonal (fun i => M i i) *ᵥ d) = ∑ i, M i i * d i ^ 2 := by
    refine Finset.sum_congr rfl fun i _ => ?_
    rw [mulVec_diagonal]
    ring
  rw [lower_eq_transpose_add hM hsum hlower hupper, add_mulVec, dotProduct_add, htranspose, hsquares]

/-- Solving the lower triangle, with the product of the upper one moved to the right-hand side,
lowers the potential by the squares of the changes, weighted with the diagonal. -/
theorem potential_triangle {y : Fin n → ℝ} (hy : L *ᵥ y = b - U *ᵥ x) :
    potential M b x - potential M b y = 1 / 2 * ∑ i, M i i * (y i - x i) ^ 2 := by
  obtain ⟨d, rfl⟩ : ∃ d, y = x + d := ⟨y - x, (add_sub_cancel x y).symm⟩
  have hresidual : M *ᵥ x - b = -(L *ᵥ d) := by
    have hb : b = L *ᵥ (x + d) + U *ᵥ x := by
      rw [hy, sub_add_cancel]
    rw [hb, hsum, add_mulVec, mulVec_add]
    abel
  have hcurved : d ⬝ᵥ (M *ᵥ d) = d ⬝ᵥ (L *ᵥ d) + d ⬝ᵥ (U *ᵥ d) := by
    rw [hsum, add_mulVec, dotProduct_add]
  have hlow := dotProduct_lower_mulVec hM hsum hlower hupper d
  have hchange : ∀ i, (x + d) i - x i = d i := fun i => add_sub_cancel_left (x i) (d i)
  simp only [hchange]
  rw [potential_add hM, hresidual, dotProduct_neg, hcurved]
  linarith

omit hM hsum hupper in
/-- A triangle without a zero on its diagonal takes nothing else to zero. -/
theorem eq_zero_of_lower_mulVec (hdiag : ∀ i, L i i ≠ 0) {d : Fin n → ℝ} (hd : L *ᵥ d = 0) :
    d = 0 := by
  have hdet : L.det ≠ 0 := by
    rw [det_of_isLowerTriangular L fun i j hij => hlower i j hij]
    exact Finset.prod_ne_zero_iff.mpr fun i _ => hdiag i
  exact eq_zero_of_mulVec_eq_zero hdet hd

end Triangles

end GridSpline
