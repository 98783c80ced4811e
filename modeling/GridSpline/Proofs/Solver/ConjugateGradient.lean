import Mathlib
import GridSpline.Proofs.Solver.Vector

/-!
# Descent by conjugate gradients

On consistent equations a descent cannot break down. As long as the residual is not zero, its
preconditioned square is positive; the direction of a step has that much in common with the
residual, because the residual has nothing in common with the direction before; and a direction that
has something in common with the residual is bent upwards. So no step divides by zero, and every
step lowers the potential.

The equations for some nodes with all others held fixed are consistent if those for all nodes are.
So the same is true when only some nodes are solved for.

## Main definitions

* `Descent.rho`, `Descent.direction` — what a step computes first.
* `Descent.IsSound` — what every step preserves.
* `Descent.DividesSafely` — the step from a state divides by positive numbers.
* `Descent.performed`, `iterationsOf` — the states from which a run makes a step.
* `SolvesSafely` — a solve for some nodes all of whose steps divide safely.

## Main statements

* `IsSound.step`, `IsSound.potential_step_lt` — a step preserves soundness and lowers the potential.
* `IsSound.run` — so does a run, and all its steps divide safely.
* `solvesSafely` — a solve for some nodes goes where those steps lead.
* `lowers_conjugateGradient` — it does not raise the potential of all nodes.
-/

namespace GridSpline

open Scalar
open Matrix

namespace Descent

/-! ## One step -/

/-- The preconditioned square of the residual. -/
noncomputable def rho (scale : Array ℝ) (s : Descent ℝ) : ℝ :=
  dot s.residual (Array.zipWith (· * ·) scale s.residual)

/-- The direction of the next step. -/
noncomputable def direction (scale : Array ℝ) (s : Descent ℝ) : Array ℝ :=
  let z := Array.zipWith (· * ·) scale s.residual
  match s.last with
  | none => z
  | some (direction, previous) => plus z (times (s.rho scale / previous) direction)

/-- The length of the next step. -/
noncomputable def stepLength (A : SparseMatrix ℝ) (scale : Array ℝ) (s : Descent ℝ) : ℝ :=
  s.rho scale / dot (s.direction scale) (A.mulVec (s.direction scale))

theorem step_eq (A : SparseMatrix ℝ) (scale : Array ℝ) (s : Descent ℝ) : s.step A scale =
    { x := plus s.x (times (s.stepLength A scale) (s.direction scale))
      residual := minus s.residual
        (times (s.stepLength A scale) (A.mulVec (s.direction scale)))
      last := some (s.direction scale, s.rho scale) } := by
  unfold step stepLength direction rho
  cases s.last <;> rfl

/-- The step from a state divides by positive numbers: by the curvature along its direction, and by
the preconditioned square of the residual before the last step if there was one. -/
def DividesSafely (A : SparseMatrix ℝ) (scale : Array ℝ) (s : Descent ℝ) : Prop :=
  0 < dot (s.direction scale) (A.mulVec (s.direction scale)) ∧
    ∀ d previous, s.last = some (d, previous) → 0 < previous

variable {n : ℕ}

/-- The residual belongs to the solution, and has nothing in common with the last direction. -/
structure IsSound (M : Matrix (Fin n) (Fin n) ℝ) (b : Fin n → ℝ) (s : Descent ℝ) : Prop where
  size_x : s.x.size = n
  size_residual : s.residual.size = n
  residual : vectorOf n s.residual = b - M *ᵥ vectorOf n s.x
  last : ∀ d previous, s.last = some (d, previous) →
    d.size = n ∧ 0 < previous ∧ vectorOf n d ⬝ᵥ vectorOf n s.residual = 0

/-- A preconditioner with a positive factor for every entry. -/
structure IsScale (n : ℕ) (scale : Array ℝ) : Prop where
  size : scale.size = n
  pos : ∀ i, 0 < vectorOf n scale i

theorem isSound_start {A : SparseMatrix ℝ} {b x : Array ℝ} (hA : A.Tidy n n) (hb : b.size = n)
    (hx : x.size = n) : (start A b x).IsSound (A.toMatrix n n) (vectorOf n b) where
  size_x := hx
  size_residual := size_minus hb (by rw [SparseMatrix.size_mulVec, hA.rows])
  residual := by
    show vectorOf n (minus b (A.mulVec x)) = _
    rw [vectorOf_minus hb (by rw [SparseMatrix.size_mulVec, hA.rows]),
      SparseMatrix.vectorOf_mulVec hA]
    rfl
  last d previous hlast := by cases hlast

section Step

variable {A : SparseMatrix ℝ} {scale : Array ℝ} {b : Fin n → ℝ} {s : Descent ℝ}

theorem IsSound.rho_pos {M : Matrix (Fin n) (Fin n) ℝ} (hs : s.IsSound M b)
    (hscale : IsScale n scale) (hne : vectorOf n s.residual ≠ 0) : 0 < s.rho scale := by
  have hz : (Array.zipWith (· * ·) scale s.residual).size = n :=
    size_zipWith _ hscale.size hs.size_residual
  unfold rho
  rw [dot_eq hs.size_residual hz, vectorOf_zipWith _ hscale.size hs.size_residual]
  obtain ⟨i, hi⟩ := Function.ne_iff.mp hne
  refine Finset.sum_pos' (fun j _ => ?_) ⟨i, Finset.mem_univ i, ?_⟩
  · have := mul_nonneg (hscale.pos j).le (mul_self_nonneg (vectorOf n s.residual j))
    linarith
  · have := mul_pos (hscale.pos i) (mul_self_pos.mpr hi)
    linarith

section Direction

variable {M : Matrix (Fin n) (Fin n) ℝ} (hs : s.IsSound M b) (hscale : IsScale n scale)

include hs hscale

theorem IsSound.size_direction : (s.direction scale).size = n := by
  have hz : (Array.zipWith (· * ·) scale s.residual).size = n :=
    size_zipWith _ hscale.size hs.size_residual
  unfold direction
  cases hlast : s.last with
  | none => exact hz
  | some last => exact size_plus hz (size_times _ (hs.last _ _ hlast).1)

/-- The direction has as much in common with the residual as its preconditioned form has. -/
theorem IsSound.direction_dotProduct : vectorOf n (s.direction scale) ⬝ᵥ vectorOf n s.residual =
    s.rho scale := by
  have hz : (Array.zipWith (· * ·) scale s.residual).size = n :=
    size_zipWith _ hscale.size hs.size_residual
  have hrho : vectorOf n (Array.zipWith (· * ·) scale s.residual) ⬝ᵥ vectorOf n s.residual =
      s.rho scale := by
    rw [dotProduct_comm, ← dot_eq hs.size_residual hz]
    rfl
  unfold direction
  cases hlast : s.last with
  | none => exact hrho
  | some last =>
    obtain ⟨hsize, -, horthogonal⟩ := hs.last _ _ hlast
    simp only
    rw [vectorOf_plus hz (size_times _ hsize), vectorOf_times _ hsize, add_dotProduct,
      smul_dotProduct, horthogonal, hrho, smul_zero, add_zero]

end Direction

section Consistent

variable (hA : A.Tidy n n) (hM : IsConsistent (A.toMatrix n n) b)
  (hs : s.IsSound (A.toMatrix n n) b) (hscale : IsScale n scale)
  (hne : vectorOf n s.residual ≠ 0)

include hA hs hscale

theorem IsSound.curvature_eq : dot (s.direction scale) (A.mulVec (s.direction scale)) =
    vectorOf n (s.direction scale) ⬝ᵥ (A.toMatrix n n *ᵥ vectorOf n (s.direction scale)) := by
  rw [dot_eq (hs.size_direction hscale) (by rw [SparseMatrix.size_mulVec, hA.rows]),
    SparseMatrix.vectorOf_mulVec hA]

variable (scale) in
omit hscale in
/-- What a step takes away from the residual. -/
theorem IsSound.residual_step : vectorOf n (s.step A scale).residual = vectorOf n s.residual -
    s.stepLength A scale • (A.toMatrix n n *ᵥ vectorOf n (s.direction scale)) := by
  have hproduct : (A.mulVec (s.direction scale)).size = n := by
    rw [SparseMatrix.size_mulVec, hA.rows]
  rw [step_eq]
  simp only
  rw [vectorOf_minus hs.size_residual (size_times _ hproduct), vectorOf_times _ hproduct,
    SparseMatrix.vectorOf_mulVec hA]

include hM hne

/-- As long as the residual is not zero, no step divides by zero. -/
theorem IsSound.dividesSafely : s.DividesSafely A scale := by
  refine ⟨?_, fun d previous hlast => (hs.last d previous hlast).2.1⟩
  rw [hs.curvature_eq hA hscale]
  refine hM.curvature_pos (x := vectorOf n s.x) ?_
  rw [← hs.residual, hs.direction_dotProduct hscale]
  exact (hs.rho_pos hscale hne).ne'

/-- The next state is sound again. -/
theorem IsSound.step : (s.step A scale).IsSound (A.toMatrix n n) b := by
  have hsize := hs.size_direction hscale
  have hproduct : (A.mulVec (s.direction scale)).size = n := by
    rw [SparseMatrix.size_mulVec, hA.rows]
  have hcurved := (hs.dividesSafely hA hM hscale hne).1
  have hresidual := hs.residual_step scale hA
  refine ⟨?_, ?_, ?_, ?_⟩
  · rw [step_eq]
    exact size_plus hs.size_x (size_times _ hsize)
  · rw [step_eq]
    exact size_minus hs.size_residual (size_times _ hproduct)
  · rw [hresidual, hs.residual, step_eq]
    simp only
    rw [vectorOf_plus hs.size_x (size_times _ hsize), vectorOf_times _ hsize, mulVec_add,
      mulVec_smul]
    abel
  · intro d previous hlast
    rw [step_eq, Option.some.injEq, Prod.mk.injEq] at hlast
    obtain ⟨rfl, rfl⟩ := hlast
    refine ⟨hsize, hs.rho_pos hscale hne, ?_⟩
    -- The step goes exactly as far as the residual has something in common with the direction.
    rw [hresidual, dotProduct_sub, hs.direction_dotProduct hscale, dotProduct_smul,
      ← hs.curvature_eq hA hscale, smul_eq_mul]
    unfold stepLength
    rw [div_mul_cancel₀ _ hcurved.ne', sub_self]

/-- A step lowers the potential. -/
theorem IsSound.potential_step_lt : potential (A.toMatrix n n) b (vectorOf n (s.step A scale).x) <
    potential (A.toMatrix n n) b (vectorOf n s.x) := by
  have hsize := hs.size_direction hscale
  have hcurved := (hs.dividesSafely hA hM hscale hne).1
  have hrho := hs.rho_pos hscale hne
  have hcommon := hs.direction_dotProduct hscale
  rw [hs.residual] at hcommon
  rw [hs.curvature_eq hA hscale] at hcurved
  rw [step_eq]
  simp only
  rw [vectorOf_plus hs.size_x (size_times _ hsize), vectorOf_times _ hsize]
  unfold stepLength
  rw [hs.curvature_eq hA hscale, potential_step hM.isSymm hcurved.ne' hcommon]
  have : 0 < rho scale s ^ 2 / (vectorOf n (s.direction scale) ⬝ᵥ
      (A.toMatrix n n *ᵥ vectorOf n (s.direction scale))) := div_pos (pow_pos hrho 2) hcurved
  linarith

end Consistent

end Step

/-! ## A run -/

/-- The states from which a run makes a step. -/
noncomputable def performed (A : SparseMatrix ℝ) (scale : Array ℝ) (bound : ℝ) :
    ℕ → Descent ℝ → List (Descent ℝ)
  | 0, _ => []
  | n + 1, s => if lengthOf s.residual < bound then []
      else s :: performed A scale bound n (s.step A scale)

/-- A run makes one step after the other from where it starts. -/
theorem performed_eq (A : SparseMatrix ℝ) (scale : Array ℝ) (bound : ℝ) (steps : ℕ)
    (s : Descent ℝ) : ∃ count ≤ steps,
      performed A scale bound steps s = List.iterate (step A scale) s count ∧
      run A scale bound steps s = (step A scale)^[count] s := by
  induction steps generalizing s with
  | zero => exact ⟨0, le_rfl, rfl, rfl⟩
  | succ steps ih =>
    unfold performed run
    by_cases hdone : lengthOf s.residual < bound
    · rw [if_pos hdone, if_pos hdone]
      exact ⟨0, Nat.zero_le _, rfl, rfl⟩
    · rw [if_neg hdone, if_neg hdone]
      obtain ⟨count, hcount, hperformed, hrun⟩ := ih (s.step A scale)
      refine ⟨count + 1, Nat.succ_le_succ hcount, ?_, ?_⟩
      · rw [hperformed]
        rfl
      · rw [hrun]
        rfl

section Run

variable {A : SparseMatrix ℝ} {scale : Array ℝ} {b : Fin n → ℝ} {bound : ℝ}
  (hA : A.Tidy n n) (hM : IsConsistent (A.toMatrix n n) b) (hscale : IsScale n scale)
  (hbound : 0 < bound)

include hA hM hscale hbound

/-- A run keeps its state sound, does not raise the potential, and all its steps divide safely. -/
theorem IsSound.run (steps : ℕ) {s : Descent ℝ} (hs : s.IsSound (A.toMatrix n n) b) :
    (run A scale bound steps s).IsSound (A.toMatrix n n) b ∧
      potential (A.toMatrix n n) b (vectorOf n (Descent.run A scale bound steps s).x) ≤
        potential (A.toMatrix n n) b (vectorOf n s.x) ∧
      ∀ t ∈ performed A scale bound steps s, t.DividesSafely A scale := by
  induction steps generalizing s with
  | zero => exact ⟨hs, le_rfl, fun t ht => absurd ht List.not_mem_nil⟩
  | succ steps ih =>
    unfold Descent.run performed
    by_cases hdone : lengthOf s.residual < bound
    · rw [if_pos hdone, if_pos hdone]
      exact ⟨hs, le_rfl, fun t ht => absurd ht List.not_mem_nil⟩
    · rw [if_neg hdone, if_neg hdone]
      have hne := vectorOf_ne_zero_of_lengthOf hs.size_residual hbound hdone
      obtain ⟨hsound, hle, hsafe⟩ := ih (hs.step hA hM hscale hne)
      refine ⟨hsound, hle.trans (hs.potential_step_lt hA hM hscale hne).le, ?_⟩
      intro t ht
      rcases List.mem_cons.mp ht with rfl | hmem
      · exact hs.dividesSafely hA hM hscale hne
      · exact hsafe t hmem

end Run

end Descent

/-! ## The preconditioner -/

theorem isScale_jacobiScale {n : ℕ} {A : SparseMatrix ℝ} (hA : A.Tidy n n)
    (hdiag : ∀ i, 0 ≤ A.toMatrix n n i i) : Descent.IsScale n (jacobiScale A) := by
  have hsize : (jacobiScale A).size = n := by
    simp [jacobiScale, hA.rows]
  refine ⟨hsize, fun i => ?_⟩
  have hentry : vectorOf n (jacobiScale A) i =
      if IsZero (A.entry i i) then 1 else 1 / A.entry i i := by
    rw [vectorOf_apply hsize]
    simp [jacobiScale]
  rw [hentry]
  by_cases hzero : IsZero (A.entry i i)
  · rw [if_pos hzero]
    exact one_pos
  · rw [if_neg hzero]
    rw [isZero_iff] at hzero
    exact one_div_pos.mpr (lt_of_le_of_ne (hdiag i) (Ne.symm hzero))

/-! ## A system of its own -/

section Descend

variable {n : ℕ} {A : SparseMatrix ℝ} {b x : Array ℝ} (hA : A.Tidy n n)
  (hM : IsConsistent (A.toMatrix n n) (vectorOf n b)) (hb : b.size = n) (hx : x.size = n)

include hA hM hb hx

/-- The solution of a system does not raise its potential, not even where zero is taken for it. -/
theorem lowers_descend (steps : ℕ) {bound : ℝ} (hbound : 0 < bound) :
    Lowers A b n x (descend A b x steps bound) := by
  unfold descend
  by_cases hzero : IsZero (lengthOf b)
  · rw [if_pos hzero]
    refine ⟨by rw [Array.size_map, hb], ?_⟩
    -- Nothing pulls the nodes away from zero.
    have hnonneg := hM.nonneg (vectorOf n x)
    rw [isZero_lengthOf_iff hb] at hzero
    rw [potential_eq, potential_eq, vectorOf_map_zero, hzero, mulVec_zero, dotProduct_zero,
      zero_dotProduct]
    linarith
  · rw [if_neg hzero]
    have hscale := isScale_jacobiScale hA fun i => hM.posSemidef.diag_nonneg
    obtain ⟨hsound, hle, -⟩ :=
      (Descent.isSound_start hA hb hx).run hA hM hscale hbound steps
    exact ⟨hsound.size_x, hle⟩

end Descend

/-! ## Some nodes of a system -/

/-- What is left on the right-hand side for some nodes when all others keep their values. -/
noncomputable def localRhs (A : SparseMatrix ℝ) (b : Array ℝ) (nodes : List ℕ) (x : Array ℝ) :
    Array ℝ :=
  plus (minus (gather b nodes) ((A.selectRows nodes).mulVec x))
    ((A.restrict nodes).mulVec (gather x nodes))

/-- The states from which a solve for some nodes makes a step. There are none where nothing is left
on the right-hand side. -/
noncomputable def iterationsOf (A : SparseMatrix ℝ) (b : Array ℝ) (nodes : List ℕ) (steps : ℕ)
    (tolerance : ℝ) (x : Array ℝ) : List (Descent ℝ) :=
  if IsZero (lengthOf (localRhs A b nodes x)) then []
  else Descent.performed (A.restrict nodes) (jacobiScale (A.restrict nodes))
    (tolerance * errorScale (gather b nodes)) steps
    (.start (A.restrict nodes) (localRhs A b nodes x) (gather x nodes))

theorem conjugateGradient_eq (A : SparseMatrix ℝ) (b : Array ℝ) (nodes : List ℕ) (steps : ℕ)
    (tolerance : ℝ) (x : Array ℝ) : (conjugateGradient A b nodes steps tolerance x).1 =
      scatter x nodes (descend (A.restrict nodes) (localRhs A b nodes x) (gather x nodes) steps
        (tolerance * errorScale (gather b nodes))) := rfl

/-- A solve for some nodes makes one step after the other from where it starts, and each of them
divides safely. -/
structure SolvesSafely (A : SparseMatrix ℝ) (b : Array ℝ) (nodes : List ℕ) (steps : ℕ)
    (tolerance : ℝ) (x : Array ℝ) : Prop where
  iterations : ¬IsZero (lengthOf (localRhs A b nodes x)) → ∃ count ≤ steps,
    iterationsOf A b nodes steps tolerance x =
      List.iterate (Descent.step (A.restrict nodes) (jacobiScale (A.restrict nodes)))
        (.start (A.restrict nodes) (localRhs A b nodes x) (gather x nodes)) count ∧
    (conjugateGradient A b nodes steps tolerance x).1 = scatter x nodes
      ((Descent.step (A.restrict nodes) (jacobiScale (A.restrict nodes)))^[count]
        (.start (A.restrict nodes) (localRhs A b nodes x) (gather x nodes))).x
  divides : ∀ s ∈ iterationsOf A b nodes steps tolerance x,
    s.DividesSafely (A.restrict nodes) (jacobiScale (A.restrict nodes))

section Nodes

variable {n : ℕ} {A : SparseMatrix ℝ} {b x : Array ℝ} {nodes : List ℕ} (hA : A.Tidy n n)
  (hM : IsConsistent (A.toMatrix n n) (vectorOf n b)) (hnodes : ∀ i ∈ nodes, i < n)

theorem size_localRhs (A : SparseMatrix ℝ) (b : Array ℝ) (nodes : List ℕ) (x : Array ℝ) :
    (localRhs A b nodes x).size = nodes.length := by
  refine size_plus (size_minus (size_gather b nodes) ?_) ?_
  · rw [SparseMatrix.size_mulVec, SparseMatrix.size_selectRows]
  · rw [SparseMatrix.size_mulVec, (SparseMatrix.tidy_restrict A nodes).rows]

include hA

theorem vectorOf_localRhs (x : Array ℝ) : vectorOf nodes.length (localRhs A b nodes x) =
    innerRhs (A.toMatrix n n) (vectorOf n b) (vectorOf n x) (nodeAt hnodes) := by
  have hrows : ((A.selectRows nodes).mulVec x).size = nodes.length := by
    rw [SparseMatrix.size_mulVec, SparseMatrix.size_selectRows]
  have hinner : ((A.restrict nodes).mulVec (gather x nodes)).size = nodes.length := by
    rw [SparseMatrix.size_mulVec, (SparseMatrix.tidy_restrict A nodes).rows]
  unfold localRhs
  rw [vectorOf_plus (size_minus (size_gather b nodes) hrows) hinner,
    vectorOf_minus (size_gather b nodes) hrows, vectorOf_gather hnodes,
    SparseMatrix.vectorOf_mulVec_selectRows hA hnodes,
    SparseMatrix.vectorOf_mulVec (SparseMatrix.tidy_restrict A nodes),
    SparseMatrix.toMatrix_restrict hnodes, vectorOf_gather hnodes]
  rfl

include hM hnodes

theorem isConsistent_restrict (x : Array ℝ) :
    IsConsistent ((A.restrict nodes).toMatrix nodes.length nodes.length)
      (vectorOf nodes.length (localRhs A b nodes x)) := by
  rw [vectorOf_localRhs hA hnodes, SparseMatrix.toMatrix_restrict hnodes]
  exact hM.restrict _ _

/-- Every step of a solve for some nodes divides safely. -/
theorem solvesSafely (steps : ℕ) {tolerance : ℝ} (ht : 0 < tolerance) (x : Array ℝ) :
    SolvesSafely A b nodes steps tolerance x where
  iterations hrhs := by
    obtain ⟨count, hcount, hperformed, hrun⟩ := Descent.performed_eq (A.restrict nodes)
      (jacobiScale (A.restrict nodes)) (tolerance * errorScale (gather b nodes)) steps
      (.start (A.restrict nodes) (localRhs A b nodes x) (gather x nodes))
    refine ⟨count, hcount, ?_, ?_⟩
    · unfold iterationsOf
      rw [if_neg hrhs, hperformed]
    · rw [conjugateGradient_eq]
      unfold descend
      rw [if_neg hrhs, hrun]
  divides s hs := by
    have hlocal := isConsistent_restrict hA hM hnodes x
    have htidy := SparseMatrix.tidy_restrict A nodes
    have hscale := isScale_jacobiScale htidy fun i => hlocal.posSemidef.diag_nonneg
    have hstart := Descent.isSound_start htidy (size_localRhs A b nodes x) (size_gather x nodes)
    unfold iterationsOf at hs
    split at hs
    · exact absurd hs List.not_mem_nil
    · exact (hstart.run htidy hlocal hscale (mul_pos ht (errorScale_pos _)) steps).2.2 s hs

/-- Solving for some nodes does not raise the potential of all nodes. -/
theorem lowers_conjugateGradient (hnodup : nodes.Nodup) (hx : x.size = n) (steps : ℕ)
    {tolerance : ℝ} (ht : 0 < tolerance) :
    Lowers A b n x (conjugateGradient A b nodes steps tolerance x).1 := by
  refine ⟨(size_conjugateGradient _ _ _ _ _ _).trans hx, ?_⟩
  have hlocal := (lowers_descend (SparseMatrix.tidy_restrict A nodes)
    (isConsistent_restrict hA hM hnodes x) (size_localRhs A b nodes x) (size_gather x nodes) steps
    (mul_pos ht (errorScale_pos (gather b nodes)))).le
  rw [vectorOf_localRhs hA hnodes, SparseMatrix.toMatrix_restrict hnodes,
    vectorOf_gather hnodes] at hlocal
  have hspread := potential_spread hM.isSymm (vectorOf n b) (vectorOf n x) (nodeAt hnodes)
    (vectorOf nodes.length (descend (A.restrict nodes) (localRhs A b nodes x) (gather x nodes)
      steps (tolerance * errorScale (gather b nodes))) - vectorOf n x ∘ nodeAt hnodes)
  rw [add_sub_cancel] at hspread
  rw [conjugateGradient_eq, vectorOf_scatter hnodes hnodup hx]
  linarith

end Nodes

end GridSpline
