import Mathlib
import GridSpline.Equations.Basic
import GridSpline.Proofs.Real

/-!
# Least squares

What a list of weighted squares means, without regard to how its equations are stored. Each square
has a linear form on node vectors; the squares together have an energy, and the energy has a matrix
of second derivatives and a pull on every node.

## Main definitions

* `combination` — the coefficient of a node in a list of terms.
* `Residual.form`, `Residual.aim` — the linear form as a vector, and what it is drawn to.
* `totalEnergy` — the sum of the weighted squares.
* `nodeValue` — the value of a node, for node numbers of any size.
* `hessian`, `pull` — the matrix and the right-hand side of the equations for its minimum.

## Main statements

* `totalEnergy_add` — the expansion of the energy around any node vector.
* `isSymm_hessian`, `posSemidef_hessian` — the matrix is symmetric and positive semidefinite.
* `hessian_apply_self_pos_iff` — when a node has a place on the diagonal.
* `hessian_mulVec_eq_zero_iff`, `posDef_hessian_iff` — the kernel, and when the matrix is positive
  definite.
* `exists_hessian_mulVec_eq_pull` — the equations have a solution, even if the matrix is singular.
* `hessian_mulVec_eq_pull_iff` — the solutions are the node vectors of least energy.
-/

namespace GridSpline

open Matrix

/-! ## Squares -/

/-- The coefficient of a node, for coefficients that are listed by the differences of the node
numbers from a base. -/
noncomputable def combination (base : ℤ) (terms : List (ℤ × ℝ)) (i : ℤ) : ℝ :=
  (terms.map fun t => if base + t.1 = i then t.2 else 0).sum

@[simp] theorem combination_nil (base i : ℤ) : combination base [] i = 0 := rfl

theorem combination_cons (base : ℤ) (t : ℤ × ℝ) (terms : List (ℤ × ℝ)) (i : ℤ) :
    combination base (t :: terms) i =
      (if base + t.1 = i then t.2 else 0) + combination base terms i := by
  simp only [combination, List.map_cons, List.sum_cons]

/-- Nodes that do not take part have no coefficient. -/
theorem combination_eq_zero {base i : ℤ} {terms : List (ℤ × ℝ)}
    (h : ∀ t ∈ terms, base + t.1 ≠ i) : combination base terms i = 0 := by
  refine List.sum_eq_zero ?_
  intro x hx
  obtain ⟨t, ht, rfl⟩ := List.mem_map.mp hx
  rw [if_neg (h t ht)]

namespace Residual

variable (r : Residual ℝ)

/-- The linear form as a vector. -/
noncomputable def form (n : ℕ) : Fin n → ℝ := fun i => combination r.base r.terms i

/-- What the form is drawn to; zero without a target. -/
def aim : ℝ := r.target.getD 0

@[simp] theorem slope_eq : r.slope = 2 * r.weight := by
  unfold slope
  ring

theorem slope_nonneg (h : 0 ≤ r.weight) : 0 ≤ r.slope := by
  rw [slope_eq]
  linarith

end Residual

variable {n : ℕ} {r : Residual ℝ} {rs : List (Residual ℝ)}

/-- The value of a node; zero where there is no node. -/
noncomputable def nodeValue (x : Fin n → ℝ) (i : ℤ) : ℝ :=
  if h : 0 ≤ i ∧ i < n then x ⟨i.toNat, by omega⟩ else 0

theorem nodeValue_fin (x : Fin n → ℝ) (i : Fin n) : nodeValue x (i : ℤ) = x i := by
  unfold nodeValue
  rw [dif_pos ⟨Int.natCast_nonneg _, by exact_mod_cast i.isLt⟩]
  rfl

/-- The linear form sums the node values with their coefficients. -/
theorem dotProduct_combination (base : ℤ) (terms : List (ℤ × ℝ)) (x : Fin n → ℝ) :
    (fun i : Fin n => combination base terms i) ⬝ᵥ x =
      (terms.map fun t => t.2 * nodeValue x (base + t.1)).sum := by
  induction terms with
  | nil => simp [dotProduct]
  | cons t terms ih =>
    have hfirst : ∑ i : Fin n, (if base + t.1 = (i : ℤ) then t.2 else 0) * x i =
        t.2 * nodeValue x (base + t.1) := by
      unfold nodeValue
      split
      · rename_i hin
        rw [Finset.sum_eq_single ⟨(base + t.1).toNat, by omega⟩]
        · rw [if_pos (by simp only; omega)]
        · intro i _ hi
          rw [if_neg, zero_mul]
          exact fun heq => hi (Fin.ext (by simp only; omega))
        · exact fun hmem => absurd (Finset.mem_univ _) hmem
      · rename_i hin
        rw [mul_zero]
        refine Finset.sum_eq_zero ?_
        intro i _
        rw [if_neg, zero_mul]
        exact fun heq => hin ⟨by omega, by have := i.isLt; omega⟩
    rw [List.map_cons, List.sum_cons, ← ih, ← hfirst]
    simp only [dotProduct, ← Finset.sum_add_distrib]
    refine Finset.sum_congr rfl ?_
    intro i _
    rw [combination_cons]
    ring

namespace Residual

/-- The value of a square is its linear form minus what it is drawn to. -/
theorem value_eq (r : Residual ℝ) (x : Fin n → ℝ) :
    r.value (nodeValue x) = r.form n ⬝ᵥ x - r.aim := by
  unfold value form aim
  rw [Scalar.sum_eq, dotProduct_combination]

end Residual

/-! ## Energy and equations -/

/-- The sum of the weighted squares. -/
noncomputable def totalEnergy (n : ℕ) (rs : List (Residual ℝ)) (x : Fin n → ℝ) : ℝ :=
  (rs.map fun r => r.weight * (r.form n ⬝ᵥ x - r.aim) ^ 2).sum

/-- The second derivatives of the energy. -/
noncomputable def hessian (n : ℕ) (rs : List (Residual ℝ)) : Matrix (Fin n) (Fin n) ℝ :=
  (rs.map fun r => r.slope • vecMulVec (r.form n) (r.form n)).sum

/-- What the squares pull every node to, times their slopes. -/
noncomputable def pull (n : ℕ) (rs : List (Residual ℝ)) : Fin n → ℝ :=
  (rs.map fun r => (r.slope * r.aim) • r.form n).sum

theorem totalEnergy_cons (x : Fin n → ℝ) : totalEnergy n (r :: rs) x =
    r.weight * (r.form n ⬝ᵥ x - r.aim) ^ 2 + totalEnergy n rs x := by
  simp only [totalEnergy, List.map_cons, List.sum_cons]

theorem totalEnergy_append (rs ss : List (Residual ℝ)) (x : Fin n → ℝ) :
    totalEnergy n (rs ++ ss) x = totalEnergy n rs x + totalEnergy n ss x := by
  simp only [totalEnergy, List.map_append, List.sum_append]

theorem hessian_cons : hessian n (r :: rs) =
    r.slope • vecMulVec (r.form n) (r.form n) + hessian n rs := by
  simp only [hessian, List.map_cons, List.sum_cons]

theorem hessian_append (rs ss : List (Residual ℝ)) :
    hessian n (rs ++ ss) = hessian n rs + hessian n ss := by
  simp only [hessian, List.map_append, List.sum_append]

theorem pull_cons : pull n (r :: rs) = (r.slope * r.aim) • r.form n + pull n rs := by
  simp only [pull, List.map_cons, List.sum_cons]

theorem pull_append (rs ss : List (Residual ℝ)) :
    pull n (rs ++ ss) = pull n rs + pull n ss := by
  simp only [pull, List.map_append, List.sum_append]

/-- The energy of the whole is the sum of the weighted squares. -/
theorem totalEnergy_eq_sum_energy (rs : List (Residual ℝ)) (x : Fin n → ℝ) :
    totalEnergy n rs x = (rs.map fun r => r.energy (nodeValue x)).sum := by
  unfold totalEnergy
  refine congrArg List.sum (List.map_congr_left ?_)
  intro r _
  rw [Residual.energy, Residual.value_eq, sq]

/-- The bilinear form of one square. -/
theorem dotProduct_vecMulVec_mulVec (a u v : Fin n → ℝ) :
    u ⬝ᵥ (vecMulVec a a *ᵥ v) = (a ⬝ᵥ u) * (a ⬝ᵥ v) := by
  rw [vecMulVec_mulVec, dotProduct_smul, dotProduct_comm u a]
  simp

theorem dotProduct_hessian_cons (u v : Fin n → ℝ) : u ⬝ᵥ (hessian n (r :: rs) *ᵥ v) =
    r.slope * ((r.form n ⬝ᵥ u) * (r.form n ⬝ᵥ v)) + u ⬝ᵥ (hessian n rs *ᵥ v) := by
  rw [hessian_cons, add_mulVec, dotProduct_add, smul_mulVec, dotProduct_smul,
    dotProduct_vecMulVec_mulVec, smul_eq_mul]

theorem dotProduct_pull_cons (u : Fin n → ℝ) : u ⬝ᵥ pull n (r :: rs) =
    r.slope * r.aim * (r.form n ⬝ᵥ u) + u ⬝ᵥ pull n rs := by
  rw [pull_cons, dotProduct_add, dotProduct_smul, smul_eq_mul, dotProduct_comm u]

theorem dotProduct_pull (rs : List (Residual ℝ)) (u : Fin n → ℝ) :
    u ⬝ᵥ pull n rs = (rs.map fun r => r.slope * r.aim * (r.form n ⬝ᵥ u)).sum := by
  induction rs with
  | nil => simp [pull]
  | cons r rs ih => rw [dotProduct_pull_cons, ih, List.map_cons, List.sum_cons]

/-- The bilinear form of the matrix, square by square. -/
theorem dotProduct_hessian_mulVec (rs : List (Residual ℝ)) (u v : Fin n → ℝ) :
    u ⬝ᵥ (hessian n rs *ᵥ v) =
      (rs.map fun r => r.slope * ((r.form n ⬝ᵥ u) * (r.form n ⬝ᵥ v))).sum := by
  induction rs with
  | nil => simp [hessian]
  | cons r rs ih => rw [dotProduct_hessian_cons, ih, List.map_cons, List.sum_cons]

/-- The energy of a changed node vector. -/
theorem totalEnergy_add (rs : List (Residual ℝ)) (x h : Fin n → ℝ) :
    totalEnergy n rs (x + h) = totalEnergy n rs x + h ⬝ᵥ (hessian n rs *ᵥ x - pull n rs) +
      1 / 2 * (h ⬝ᵥ (hessian n rs *ᵥ h)) := by
  induction rs with
  | nil => simp [totalEnergy, hessian, pull]
  | cons r rs ih =>
    rw [totalEnergy_cons, totalEnergy_cons, ih, dotProduct_sub, dotProduct_sub,
      dotProduct_hessian_cons, dotProduct_hessian_cons, dotProduct_pull_cons, dotProduct_add,
      Residual.slope_eq]
    ring

/-! ## The matrix -/

/-- The matrix does not change when it is mirrored. -/
theorem isSymm_hessian (rs : List (Residual ℝ)) : (hessian n rs).IsSymm := by
  induction rs with
  | nil => exact isSymm_zero
  | cons r rs ih =>
    rw [hessian_cons]
    refine IsSymm.add (IsSymm.smul ?_ _) ih
    exact transpose_vecMulVec _ _

theorem hessian_apply_self (rs : List (Residual ℝ)) (i : Fin n) :
    hessian n rs i i = (rs.map fun r => r.slope * (r.form n i * r.form n i)).sum := by
  induction rs with
  | nil => rfl
  | cons r rs ih =>
    rw [hessian_cons, List.map_cons, List.sum_cons, ← ih]
    rfl

section Nonneg

variable (h : ∀ r ∈ rs, 0 ≤ r.weight)

include h

/-- A node has a place on the diagonal when it takes part in a square that counts. -/
theorem hessian_apply_self_pos_iff (i : Fin n) :
    0 < hessian n rs i i ↔ ∃ r ∈ rs, 0 < r.weight ∧ r.form n i ≠ 0 := by
  have hterm : ∀ r ∈ rs, 0 ≤ r.slope * (r.form n i * r.form n i) := fun r hr =>
    mul_nonneg (r.slope_nonneg (h r hr)) (mul_self_nonneg _)
  have hnonneg : ∀ x ∈ rs.map fun r => r.slope * (r.form n i * r.form n i), 0 ≤ x := by
    intro x hx
    obtain ⟨r, hr, rfl⟩ := List.mem_map.mp hx
    exact hterm r hr
  rw [hessian_apply_self]
  constructor
  · intro hpos
    by_contra hnone
    push Not at hnone
    have hzero : (rs.map fun r => r.slope * (r.form n i * r.form n i)).sum = 0 := by
      refine List.sum_eq_zero ?_
      intro x hx
      obtain ⟨r, hr, rfl⟩ := List.mem_map.mp hx
      rcases (h r hr).eq_or_lt with h0 | hlt
      · rw [r.slope_eq, ← h0, mul_zero, zero_mul]
      · rw [hnone r hr hlt, mul_zero, mul_zero]
    linarith
  · rintro ⟨r, hr, hweight, hform⟩
    have hle := List.single_le_sum hnonneg _ (List.mem_map_of_mem (f := fun r : Residual ℝ =>
      r.slope * (r.form n i * r.form n i)) hr)
    have hslope : 0 < r.slope := by
      rw [r.slope_eq]
      linarith
    exact lt_of_lt_of_le (mul_pos hslope (mul_self_pos.mpr hform)) hle

theorem sum_squares_nonneg (v : Fin n → ℝ) : 0 ≤ v ⬝ᵥ (hessian n rs *ᵥ v) := by
  rw [dotProduct_hessian_mulVec]
  refine List.sum_nonneg ?_
  intro t ht
  obtain ⟨r, hr, rfl⟩ := List.mem_map.mp ht
  exact mul_nonneg (r.slope_nonneg (h r hr)) (mul_self_nonneg _)

/-- With weights that are not negative the matrix is positive semidefinite. -/
theorem posSemidef_hessian : (hessian n rs).PosSemidef := by
  refine PosSemidef.of_dotProduct_mulVec_nonneg ?_ fun v => ?_
  · rw [IsHermitian, conjTranspose_eq_transpose_of_trivial]
    exact isSymm_hessian rs
  · rw [star_trivial]
    exact sum_squares_nonneg h v

/-- A direction in which nothing bends is one that no square with a weight sees. -/
theorem slope_mul_form_eq_zero {v : Fin n → ℝ} (hv : v ⬝ᵥ (hessian n rs *ᵥ v) = 0) :
    ∀ r ∈ rs, r.slope * (r.form n ⬝ᵥ v) = 0 := by
  intro r hr
  rw [dotProduct_hessian_mulVec] at hv
  have hterm : r.slope * ((r.form n ⬝ᵥ v) * (r.form n ⬝ᵥ v)) = 0 := by
    refine List.all_zero_of_le_zero_le_of_sum_eq_zero (fun t ht => ?_) hv
      (List.mem_map.mpr ⟨r, hr, rfl⟩)
    obtain ⟨s, hs, rfl⟩ := List.mem_map.mp ht
    exact mul_nonneg (s.slope_nonneg (h s hs)) (mul_self_nonneg _)
  rcases mul_eq_zero.mp hterm with hs | hf
  · rw [hs, zero_mul]
  · rw [mul_self_eq_zero.mp hf, mul_zero]

theorem hessian_mulVec_eq_zero {v : Fin n → ℝ} (hv : v ⬝ᵥ (hessian n rs *ᵥ v) = 0) :
    hessian n rs *ᵥ v = 0 := by
  have hzero := slope_mul_form_eq_zero h hv
  refine dotProduct_eq_zero _ ?_
  intro u
  rw [dotProduct_comm, dotProduct_hessian_mulVec]
  refine List.sum_eq_zero ?_
  intro t ht
  obtain ⟨r, hr, rfl⟩ := List.mem_map.mp ht
  rw [mul_left_comm, hzero r hr, mul_zero]

/-- What the nodes are pulled to has no part in a direction in which nothing bends. -/
theorem dotProduct_pull_eq_zero {v : Fin n → ℝ} (hv : v ⬝ᵥ (hessian n rs *ᵥ v) = 0) :
    v ⬝ᵥ pull n rs = 0 := by
  have hzero := slope_mul_form_eq_zero h hv
  rw [dotProduct_pull]
  refine List.sum_eq_zero ?_
  intro t ht
  obtain ⟨r, hr, rfl⟩ := List.mem_map.mp ht
  rw [mul_right_comm, hzero r hr, zero_mul]

/-- The matrix takes a node vector to zero when no square that counts sees the node vector. -/
theorem hessian_mulVec_eq_zero_iff {v : Fin n → ℝ} :
    hessian n rs *ᵥ v = 0 ↔ ∀ r ∈ rs, 0 < r.weight → r.form n ⬝ᵥ v = 0 := by
  constructor
  · intro hv r hr hweight
    have hzero := slope_mul_form_eq_zero h (by rw [hv, dotProduct_zero]) r hr
    rw [r.slope_eq] at hzero
    exact (mul_eq_zero.mp hzero).resolve_left (by positivity)
  · intro hv
    refine hessian_mulVec_eq_zero h ?_
    rw [dotProduct_hessian_mulVec]
    refine List.sum_eq_zero ?_
    intro t ht
    obtain ⟨r, hr, rfl⟩ := List.mem_map.mp ht
    rcases (h r hr).eq_or_lt with h0 | hlt
    · rw [r.slope_eq, ← h0, mul_zero, zero_mul]
    · rw [hv r hr hlt, mul_zero, mul_zero]

/-- The matrix is positive definite when it takes no other node vector to zero. -/
theorem posDef_hessian_iff : (hessian n rs).PosDef ↔ ∀ v, hessian n rs *ᵥ v = 0 → v = 0 := by
  constructor
  · intro hpos v hv
    by_contra hne
    have := hpos.dotProduct_mulVec_pos hne
    rw [hv, dotProduct_zero] at this
    exact lt_irrefl 0 this
  · intro hkernel
    refine PosDef.of_dotProduct_mulVec_pos (posSemidef_hessian h).isHermitian ?_
    intro v hne
    rw [star_trivial]
    refine lt_of_le_of_ne (sum_squares_nonneg h v) ?_
    intro h0
    exact hne (hkernel v (hessian_mulVec_eq_zero h h0.symm))

/-! ## Solutions -/

/-- The equations have a solution, also when the matrix is singular. -/
theorem exists_hessian_mulVec_eq_pull : ∃ x, hessian n rs *ᵥ x = pull n rs := by
  -- A symmetric matrix reaches everything that is orthogonal to its kernel.
  let A := (hessian n rs).toEuclideanLin
  have hadj : LinearMap.adjoint A = A := by
    rw [← toEuclideanLin_conjTranspose_eq_adjoint, conjTranspose_eq_transpose_of_trivial,
      isSymm_hessian rs]
  have hmem : WithLp.toLp 2 (pull n rs) ∈ LinearMap.range A := by
    rw [← hadj, ← LinearMap.orthogonal_ker, Submodule.mem_orthogonal]
    intro v hv
    have hv' : hessian n rs *ᵥ v.ofLp = 0 := by
      have := LinearMap.mem_ker.mp hv
      exact congrArg WithLp.ofLp this
    rw [EuclideanSpace.inner_eq_star_dotProduct, star_trivial, dotProduct_comm]
    exact dotProduct_pull_eq_zero h (by rw [hv', dotProduct_zero])
  obtain ⟨x, hx⟩ := hmem
  exact ⟨x.ofLp, congrArg WithLp.ofLp hx⟩

/-- The solutions of the equations are the node vectors of least energy. -/
theorem hessian_mulVec_eq_pull_iff {x : Fin n → ℝ} :
    hessian n rs *ᵥ x = pull n rs ↔ ∀ y, totalEnergy n rs x ≤ totalEnergy n rs y := by
  constructor
  · intro hx y
    have hy := totalEnergy_add rs x (y - x)
    rw [add_sub_cancel, hx, sub_self, dotProduct_zero, add_zero] at hy
    have := sum_squares_nonneg h (y - x)
    linarith
  · intro hmin
    obtain ⟨z, hz⟩ := exists_hessian_mulVec_eq_pull (n := n) h
    have hxz := totalEnergy_add rs z (x - z)
    rw [add_sub_cancel, hz, sub_self, dotProduct_zero, add_zero] at hxz
    have hzero : (x - z) ⬝ᵥ (hessian n rs *ᵥ (x - z)) = 0 := by
      have h1 := sum_squares_nonneg h (x - z)
      have h2 := hmin z
      linarith
    have hkernel := hessian_mulVec_eq_zero h hzero
    rw [mulVec_sub, hz, sub_eq_zero] at hkernel
    exact hkernel

end Nonneg

end GridSpline
