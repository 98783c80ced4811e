import Mathlib
import GridSpline.Proofs.Fit.Misfit

/-!
# Extra passes

Between two passes the misfit of every sample is added to its target, and the same lattice is solved
again. Extra passes never make the data fit worse: the weighted squares of the distances to the
given values do not grow, however often this is repeated.

No account of the misfits that were added in earlier passes is needed for this. The equations of two
passes in a row differ only by the misfit of the first one. Their difference, seen along the change
of the solution, says how much the new misfit and the change have in common; as the part of the
equations without samples is positive semidefinite, they do not point apart
(`sum_misfit_le_of_addBack`).

## Main definitions

* `Level.weightedMisfit` — the weighted squares of the distances to the given values.
* `Level.SolvesExactly` — a level of a fit with an exact solution.
* `ExtraPasses` — the levels of passes in a row, each with an exact solution.

## Main statements

* `IsPosed.weightedMisfit_pos` — samples that contradict each other leave a misfit.
* `exists_extraPasses` — there can be any number of extra passes.
* `ExtraPasses.pairwise_weightedMisfit` — the misfit of a later pass is at most that of an earlier
  one.
-/

namespace GridSpline

open Scalar Failure
open Matrix
open GridSpline.Lattice

/-! ## One pass more -/

section AddBack

variable {m n : ℕ} {R : Matrix (Fin n) (Fin n) ℝ} {W : Matrix (Fin m) (Fin n) ℝ}
  {k t v : Fin m → ℝ} {p x y : Fin n → ℝ}

/-- What two solutions differ by, where the second one has the misfit of the first one added to its
targets. The equations are given along all directions. -/
theorem dotProduct_mulVec_sub_of_addBack
    (hx : ∀ u, u ⬝ᵥ (R *ᵥ x) + ∑ i, 2 * k i * ((W *ᵥ u) i * (W *ᵥ x) i) =
      u ⬝ᵥ p + ∑ i, 2 * k i * t i * (W *ᵥ u) i)
    (hy : ∀ u, u ⬝ᵥ (R *ᵥ y) + ∑ i, 2 * k i * ((W *ᵥ u) i * (W *ᵥ y) i) =
      u ⬝ᵥ p + ∑ i, 2 * k i * (t i + (v i - (W *ᵥ x) i)) * (W *ᵥ u) i) :
    (y - x) ⬝ᵥ (R *ᵥ (y - x)) =
      ∑ i, 2 * k i * (((W *ᵥ y) i - (W *ᵥ x) i) * (v i - (W *ᵥ y) i)) := by
  have hfirst := hx (y - x)
  have hsecond := hy (y - x)
  have hpart : ∑ i, 2 * k i * (((W *ᵥ y) i - (W *ᵥ x) i) * (v i - (W *ᵥ y) i)) =
      ∑ i, 2 * k i * (t i + (v i - (W *ᵥ x) i)) * (W *ᵥ (y - x)) i -
        ∑ i, 2 * k i * t i * (W *ᵥ (y - x)) i -
        (∑ i, 2 * k i * ((W *ᵥ (y - x)) i * (W *ᵥ y) i) -
          ∑ i, 2 * k i * ((W *ᵥ (y - x)) i * (W *ᵥ x) i)) := by
    simp only [← Finset.sum_sub_distrib]
    refine Finset.sum_congr rfl ?_
    intro i _
    rw [mulVec_sub, Pi.sub_apply]
    ring
  rw [hpart]
  have hsplit : (y - x) ⬝ᵥ (R *ᵥ (y - x)) = (y - x) ⬝ᵥ (R *ᵥ y) - (y - x) ⬝ᵥ (R *ᵥ x) := by
    rw [← dotProduct_sub, ← mulVec_sub]
  rw [hsplit]
  linarith

/-- The weighted squares of the misfit do not grow when the misfit is added to the targets. -/
theorem sum_misfit_le_of_addBack (hk : ∀ i, 0 ≤ k i) (hR : ∀ u, 0 ≤ u ⬝ᵥ (R *ᵥ u))
    (hx : ∀ u, u ⬝ᵥ (R *ᵥ x) + ∑ i, 2 * k i * ((W *ᵥ u) i * (W *ᵥ x) i) =
      u ⬝ᵥ p + ∑ i, 2 * k i * t i * (W *ᵥ u) i)
    (hy : ∀ u, u ⬝ᵥ (R *ᵥ y) + ∑ i, 2 * k i * ((W *ᵥ u) i * (W *ᵥ y) i) =
      u ⬝ᵥ p + ∑ i, 2 * k i * (t i + (v i - (W *ᵥ x) i)) * (W *ᵥ u) i) :
    ∑ i, k i * (v i - (W *ᵥ y) i) ^ 2 ≤ ∑ i, k i * (v i - (W *ᵥ x) i) ^ 2 := by
  have hbend := hR (y - x)
  rw [dotProduct_mulVec_sub_of_addBack hx hy] at hbend
  have hchange : 0 ≤ ∑ i, k i * ((W *ᵥ y) i - (W *ᵥ x) i) ^ 2 :=
    Finset.sum_nonneg fun i _ => mul_nonneg (hk i) (sq_nonneg _)
  have hsum : ∑ i, k i * (v i - (W *ᵥ x) i) ^ 2 = ∑ i, k i * (v i - (W *ᵥ y) i) ^ 2 +
      (∑ i, k i * ((W *ᵥ y) i - (W *ᵥ x) i) ^ 2 +
        ∑ i, 2 * k i * (((W *ᵥ y) i - (W *ᵥ x) i) * (v i - (W *ᵥ y) i))) := by
    simp only [← Finset.sum_add_distrib]
    refine Finset.sum_congr rfl ?_
    intro i _
    ring
  linarith

end AddBack

/-! ## Passes -/

namespace Level

/-- The weighted squares of the distances between the given values of the samples and those that the
node values give for them. -/
noncomputable def weightedMisfit (level : Level ℝ) (data : Prepared ℝ) (channel : ℕ) : ℝ :=
  ∑ m : Fin data.samples.length, (data.samples.get m).weightIn channel *
    ((data.samples.get m).valueIn channel -
      (level.sampleMatrix data *ᵥ vectorOf (size level.res) level.x) m) ^ 2

/-- A level of a fit whose node values solve exactly the equations that are set up for it. -/
def SolvesExactly (level : Level ℝ) (fit : Fit ℝ) (res : List ℕ) (channel : ℕ) : Prop :=
  ∃ made posed A, make? fit res channel false = .ok made ∧ made.setup? fit = .ok posed ∧
    posed.matrix = some A ∧ level = { posed with x := level.x } ∧ level.x.size = size res ∧
    A.toSparse.toMatrix (size res) (size res) *ᵥ vectorOf (size res) level.x =
      vectorOf (size res) posed.rhs

end Level

/-- The levels of passes in a row. After each but the last one the misfit is added to the targets of
the fit. -/
inductive ExtraPasses (res : List ℕ) (channel : ℕ) : Fit ℝ → List (Level ℝ) → Prop
  | last {fit : Fit ℝ} {level : Level ℝ} (solves : level.SolvesExactly fit res channel) :
    ExtraPasses res channel fit [level]
  | again {fit : Fit ℝ} {level : Level ℝ} {data next : Prepared ℝ}
    {reports : List (SolveReport ℝ)} {levels : List (Level ℝ)}
    (solves : level.SolvesExactly fit res channel) (prepared : fit.prepared = some data)
    (added : level.addMisfit? data = .ok next)
    (rest : ExtraPasses res channel { fit with prepared := some next, reports } levels) :
    ExtraPasses res channel fit (level :: levels)

/-! ## Retargeted samples -/

theorem sum_map_eq_sum_fin {β : Type} {l : List β} {n : ℕ} (h : l.length = n) (f : β → ℝ) :
    (l.map f).sum = ∑ i : Fin n, f (l.get (i.cast h.symm)) := by
  subst h
  exact (Fin.sum_univ_fun_getElem l f).symm

namespace Level.IsPosed

variable {level : Level ℝ} {fit : Fit ℝ} {data next : Prepared ℝ} {channel : ℕ}
  (h : level.IsPosed fit data channel) (hto : data.IsRetargeted next)

include h hto

theorem form_sampleSquare (m : Fin data.samples.length) (u : Fin (size level.res) → ℝ) :
    (level.sampleSquare channel (next.samples.get (m.cast hto.samples.length_eq))).form
      (size level.res) ⬝ᵥ u = (level.sampleMatrix data *ᵥ u) m := by
  rw [h.interpolation_mulVec, hto.get_eq]
  rfl

/-- The part of the samples in the matrix does not depend on their targets. -/
theorem dotProduct_hessian_samples (u w : Fin (size level.res) → ℝ) :
    u ⬝ᵥ (hessian (size level.res) (next.samples.map (level.sampleSquare channel)) *ᵥ w) =
      ∑ m : Fin data.samples.length, 2 * (data.samples.get m).weightIn channel *
        ((level.sampleMatrix data *ᵥ u) m * (level.sampleMatrix data *ᵥ w) m) := by
  rw [dotProduct_hessian_mulVec, List.map_map, sum_map_eq_sum_fin hto.samples.length_eq.symm]
  refine Finset.sum_congr rfl ?_
  intro m _
  rw [Function.comp_apply, h.form_sampleSquare hto, h.form_sampleSquare hto, Residual.slope_eq]
  congr 2
  rw [hto.get_eq]
  rfl

theorem dotProduct_pull_samples (u : Fin (size level.res) → ℝ) :
    u ⬝ᵥ pull (size level.res) (next.samples.map (level.sampleSquare channel)) =
      ∑ m : Fin data.samples.length, 2 * (data.samples.get m).weightIn channel *
        (next.samples.get (m.cast hto.samples.length_eq)).targetIn channel *
        (level.sampleMatrix data *ᵥ u) m := by
  rw [dotProduct_pull, List.map_map, sum_map_eq_sum_fin hto.samples.length_eq.symm]
  refine Finset.sum_congr rfl ?_
  intro m _
  rw [Function.comp_apply, h.form_sampleSquare hto, Residual.slope_eq]
  congr 2
  rw [hto.get_eq]
  rfl

end Level.IsPosed

namespace Level

theorem weightedMisfit_of_isRetargeted {data next : Prepared ℝ} (hto : data.IsRetargeted next)
    (level : Level ℝ) (channel : ℕ) :
    level.weightedMisfit next channel = level.weightedMisfit data channel := by
  have hlen := hto.samples.length_eq
  unfold weightedMisfit
  refine (Fintype.sum_equiv (finCongr hlen) _ _ fun m => ?_).symm
  show _ = (next.samples.get (m.cast hlen)).weightIn channel *
    ((next.samples.get (m.cast hlen)).valueIn channel - _) ^ 2
  rw [hto.get_eq]
  rfl

/-- Samples at one place with different values are never fitted exactly. -/
theorem IsPosed.weightedMisfit_pos {level : Level ℝ} {fit : Fit ℝ} {data : Prepared ℝ}
    {channel : ℕ} (h : level.IsPosed fit data channel)
    (hw : ∀ s ∈ data.samples, 0 < s.weightIn channel) {i j : Fin data.samples.length}
    (hposition : (data.samples.get i).position = (data.samples.get j).position)
    (hvalue : (data.samples.get i).valueIn channel ≠ (data.samples.get j).valueIn channel) :
    0 < level.weightedMisfit data channel := by
  have hweight : ∀ m : Fin data.samples.length, 0 < (data.samples.get m).weightIn channel :=
    fun m => hw _ (List.getElem_mem m.isLt)
  -- What the node values give depends on the place only.
  have hsame : ∀ x : Fin (size level.res) → ℝ,
      (level.sampleMatrix data *ᵥ x) i = (level.sampleMatrix data *ᵥ x) j := by
    intro x
    rw [h.interpolation_mulVec, h.interpolation_mulVec]
    unfold sampleSquare cellOf
    rw [hposition]
    rfl
  obtain ⟨m, hm⟩ : ∃ m, (data.samples.get m).valueIn channel -
      (level.sampleMatrix data *ᵥ vectorOf (size level.res) level.x) m ≠ 0 := by
    by_contra hnone
    push Not at hnone
    have hboth := (hnone i).trans (hnone j).symm
    rw [hsame, sub_left_inj] at hboth
    exact hvalue hboth
  exact Finset.sum_pos' (fun m _ => mul_nonneg (hweight m).le (sq_nonneg _))
    ⟨m, Finset.mem_univ m, mul_pos (hweight m) (sq_pos_of_ne_zero hm)⟩

/-! ## Two passes in a row -/

/-- The squares of a level that have nothing to do with the samples. -/
noncomputable def ownSquares (level : Level ℝ) (fit : Fit ℝ) (data : Prepared ℝ) (channel : ℕ) :
    List (Residual ℝ) :=
  level.stiffSquares data channel ++ level.weakSquaresOf fit channel

theorem all_squaresOf (level : Level ℝ) (fit : Fit ℝ) (data : Prepared ℝ) (channel : ℕ) :
    (level.squaresOf fit data channel).all =
      level.ownSquares fit data channel ++ data.samples.map (level.sampleSquare channel) := by
  unfold Squares.all ownSquares squaresOf
  rw [List.append_assoc]

/-- The equations of a level with other targets, along a direction. -/
theorem IsPosed.dotProduct_equations {level : Level ℝ} {fit : Fit ℝ} {data next : Prepared ℝ}
    {channel : ℕ} (h : level.IsPosed fit data channel) (hto : data.IsRetargeted next)
    {x : Fin (size level.res) → ℝ}
    (hx : hessian (size level.res) (level.squaresOf fit next channel).all *ᵥ x =
      pull (size level.res) (level.squaresOf fit next channel).all) (u : Fin (size level.res) → ℝ) :
    u ⬝ᵥ (hessian (size level.res) (level.ownSquares fit data channel) *ᵥ x) +
      ∑ m : Fin data.samples.length, 2 * (data.samples.get m).weightIn channel *
        ((level.sampleMatrix data *ᵥ u) m * (level.sampleMatrix data *ᵥ x) m) =
    u ⬝ᵥ pull (size level.res) (level.ownSquares fit data channel) +
      ∑ m : Fin data.samples.length, 2 * (data.samples.get m).weightIn channel *
        (next.samples.get (m.cast hto.samples.length_eq)).targetIn channel *
        (level.sampleMatrix data *ᵥ u) m := by
  have hown : level.ownSquares fit next channel = level.ownSquares fit data channel := by
    unfold ownSquares stiffSquares
    rw [hto.rangeOf]
  rw [all_squaresOf, hown, hessian_append, pull_append, add_mulVec] at hx
  have hu := congrArg (u ⬝ᵥ ·) hx
  simp only [dotProduct_add] at hu
  rwa [h.dotProduct_hessian_samples hto, h.dotProduct_pull_samples hto] at hu

/-- The weighted misfit does not grow when the misfit was added to the targets. -/
theorem IsPosed.sum_misfit_le {level : Level ℝ} {fit : Fit ℝ} {data next : Prepared ℝ}
    {channel : ℕ} (h : level.IsPosed fit data channel) (hw : level.IsWeighted fit data channel)
    (hvalid : data.IsValid) (hto : data.IsRetargeted next) {x y : Fin (size level.res) → ℝ}
    (hx : hessian (size level.res) (level.squaresOf fit data channel).all *ᵥ x =
      pull (size level.res) (level.squaresOf fit data channel).all)
    (hy : hessian (size level.res) (level.squaresOf fit next channel).all *ᵥ y =
      pull (size level.res) (level.squaresOf fit next channel).all)
    (htarget : ∀ m : Fin data.samples.length,
      (next.samples.get (m.cast hto.samples.length_eq)).targetIn channel =
        (data.samples.get m).targetIn channel +
          ((data.samples.get m).valueIn channel - (level.sampleMatrix data *ᵥ x) m)) :
    ∑ m : Fin data.samples.length, (data.samples.get m).weightIn channel *
        ((data.samples.get m).valueIn channel - (level.sampleMatrix data *ᵥ y) m) ^ 2 ≤
      ∑ m : Fin data.samples.length, (data.samples.get m).weightIn channel *
        ((data.samples.get m).valueIn channel - (level.sampleMatrix data *ᵥ x) m) ^ 2 := by
  have hweight : ∀ m : Fin data.samples.length, 0 ≤ (data.samples.get m).weightIn channel :=
    fun m => (hw.samples _ (List.getElem_mem m.isLt)).le
  have hown : ∀ r ∈ level.ownSquares fit data channel, 0 ≤ r.weight := by
    intro r hr
    refine h.weight_nonneg hw ?_
    rw [all_squaresOf]
    exact List.mem_append_left _ hr
  refine sum_misfit_le_of_addBack hweight (sum_squares_nonneg hown)
    (h.dotProduct_equations (.refl hvalid) hx) fun u => ?_
  have hsecond := h.dotProduct_equations hto hy u
  simp only [htarget] at hsecond
  exact hsecond

/-! ## Passes in a row -/

variable {fit : Fit ℝ} {data : Prepared ℝ} {res : List ℕ} {channel : ℕ}

section Passes

variable (hready : fit.IsReady data) (hlen : res.length = data.res.length) (hres : ∀ r ∈ res, 2 ≤ r)
  (hc : channel < data.channels)

include hready hlen hres hc

/-- What a level with an exact solution is made of. -/
theorem SolvesExactly.exists_made {level : Level ℝ} (h : level.SolvesExactly fit res channel) :
    ∃ made A b scale, make? fit res channel false = .ok made ∧ made.IsPosed fit data channel ∧
      made.IsLaidOn data res ∧
      level = { made with matrix := some A, rhs := b, scale, x := level.x } ∧
      level.x.size = size made.res ∧
      hessian (size made.res) (made.squaresOf fit data channel).all *ᵥ
        vectorOf (size made.res) level.x =
      pull (size made.res) (made.squaresOf fit data channel).all := by
  obtain ⟨made, posed, A, hmake, hsetup, hA, hlevel, hx, hsolves⟩ := h
  obtain ⟨made', hmake', hposed, hlaid, -⟩ := hready.exists_make? hlen hres hc false
  rw [hmake, Except.ok.injEq] at hmake'
  subst hmake'
  obtain ⟨A', b, scale, hsetup', -, -, hmatrix, hrhs⟩ := hposed.exists_setup?
  rw [hsetup, Except.ok.injEq] at hsetup'
  subst hsetup'
  cases hA
  refine ⟨made, A, b, scale, hmake, hposed, hlaid, hlevel, by rw [hlaid.res_eq, hx], ?_⟩
  rw [← hmatrix, ← hrhs, hlaid.res_eq]
  exact hsolves

/-- After a pass the samples are the same but for their targets. -/
theorem SolvesExactly.addMisfit? {level : Level ℝ} (h : level.SolvesExactly fit res channel) :
    level.IsPosed fit data channel ∧
      level.addMisfit? data = .ok (level.addMisfit data channel) := by
  obtain ⟨made, A, b, scale, -, hposed, -, hlevel, hx, -⟩ := h.exists_made hready hlen hres hc
  have hposed' : level.IsPosed fit data channel := by
    rw [hlevel]
    exact { hposed with }
  exact ⟨hposed', hposed'.addMisfit?_eq hready.valid hc (by rw [hx, hlevel])⟩

/-- The next pass does not fit the samples worse. -/
theorem SolvesExactly.weightedMisfit_le {first second : Level ℝ}
    {reports : List (SolveReport ℝ)} (hfirst : first.SolvesExactly fit res channel)
    (hsecond : second.SolvesExactly
      { fit with prepared := some (first.addMisfit data channel), reports } res channel) :
    second.weightedMisfit data channel ≤ first.weightedMisfit data channel := by
  obtain ⟨hposed, -⟩ := hfirst.addMisfit? hready hlen hres hc
  have hto := hposed.isRetargeted_addMisfit hready.valid
  by_cases hne : data.samples = []
  · unfold weightedMisfit
    have hempty : IsEmpty (Fin data.samples.length) := by
      rw [hne]
      exact Fin.isEmpty
    rw [Finset.sum_of_isEmpty, Finset.sum_of_isEmpty]
  obtain ⟨made, A, b, scale, hmake, hmade, hlaid, hlevel, hx, hsolves⟩ :=
    hfirst.exists_made hready hlen hres hc
  obtain ⟨made', A', b', scale', hmake', -, -, hlevel', hx', hsolves'⟩ :=
    hsecond.exists_made (hto.isReady hready reports) (hto.res ▸ hlen) hres (hto.channels ▸ hc)
  -- Both passes start from the same level.
  rw [hto.make?_eq hready.prepared, hmake, Except.ok.injEq] at hmake'
  subst hmake'
  have hfitted : ∀ m, (first.sampleMatrix data *ᵥ vectorOf (size first.res) first.x) m =
      (made.sampleMatrix data *ᵥ vectorOf (size made.res) first.x) m := by
    intro m
    rw [hlevel]
    rfl
  have hle := hmade.sum_misfit_le (hready.isWeighted hlaid hc hne) hready.valid hto hsolves
    hsolves' fun m => by
      rw [← hfitted]
      exact hposed.targetIn_addMisfit m.isLt (hto.samples.length_eq ▸ m.isLt)
  rw [hlevel, hlevel']
  rw [hlevel] at hle
  exact hle

end Passes

end Level

namespace ExtraPasses

variable {fit : Fit ℝ} {data : Prepared ℝ} {res : List ℕ} {channel : ℕ}

theorem exists_head {levels : List (Level ℝ)} (h : ExtraPasses res channel fit levels) :
    ∃ level later, levels = level :: later ∧ level.SolvesExactly fit res channel := by
  cases h with
  | last solves => exact ⟨_, _, rfl, solves⟩
  | again solves _ _ _ => exact ⟨_, _, rfl, solves⟩

/-- Whatever the passes, a later one does not fit the samples worse than an earlier one. -/
theorem pairwise_weightedMisfit {levels : List (Level ℝ)}
    (h : ExtraPasses res channel fit levels) (hready : fit.IsReady data)
    (hlen : res.length = data.res.length) (hres : ∀ r ∈ res, 2 ≤ r) (hc : channel < data.channels) :
    levels.Pairwise fun first later =>
      later.weightedMisfit data channel ≤ first.weightedMisfit data channel := by
  induction h generalizing data with
  | last _ => exact List.pairwise_singleton _ _
  | again solves prepared added rest ih =>
    cases hready.prepared.symm.trans prepared
    obtain ⟨hposed, hadded⟩ := solves.addMisfit? hready hlen hres hc
    rw [hadded, Except.ok.injEq] at added
    subst added
    have hto := hposed.isRetargeted_addMisfit hready.valid
    have hlater := ih (hto.isReady hready _) (hto.res ▸ hlen) (hto.channels ▸ hc)
    simp only [Level.weightedMisfit_of_isRetargeted hto] at hlater
    obtain ⟨next, others, rfl, solves'⟩ := rest.exists_head
    have hnext := solves.weightedMisfit_le hready hlen hres hc solves'
    refine List.pairwise_cons.mpr ⟨fun level hmem => ?_, hlater⟩
    rcases List.mem_cons.mp hmem with rfl | hmem
    · exact hnext
    · exact (List.rel_of_pairwise_cons hlater hmem).trans hnext

end ExtraPasses

/-! ## Passes exist -/

namespace Fit.IsReady

variable {fit : Fit ℝ} {data : Prepared ℝ} {res : List ℕ} {channel : ℕ}

/-- The equations of a pass have an exact solution. -/
theorem exists_solvesExactly (hready : fit.IsReady data) (hne : data.samples ≠ [])
    (hlen : res.length = data.res.length) (hres : ∀ r ∈ res, 2 ≤ r) (hc : channel < data.channels) :
    ∃ level : Level ℝ, level.SolvesExactly fit res channel := by
  obtain ⟨made, hmake, hposed, hlaid, -⟩ := hready.exists_make? hlen hres hc false
  have hweighted := hready.isWeighted hlaid hc hne
  obtain ⟨A, b, scale, hsetup, -, -, hmatrix, hrhs⟩ := hposed.exists_setup?
  obtain ⟨x, hx⟩ := exists_hessian_mulVec_eq_pull (n := size made.res)
    fun r hr => hposed.weight_nonneg hweighted hr
  refine ⟨{ made with matrix := some A, rhs := b, scale, x := Array.ofFn x }, made, _, A, hmake,
    hsetup, rfl, rfl, by rw [Array.size_ofFn, hlaid.res_eq], ?_⟩
  rw [← hlaid.res_eq]
  have hvector : vectorOf (size made.res) (Array.ofFn x) = x := by
    funext i
    simp [vectorOf]
  rw [hvector, hmatrix, hrhs]
  exact hx

/-- There can be any number of extra passes. -/
theorem exists_extraPasses (hready : fit.IsReady data) (hne : data.samples ≠ [])
    (hlen : res.length = data.res.length) (hres : ∀ r ∈ res, 2 ≤ r) (hc : channel < data.channels)
    (extra : ℕ) :
    ∃ levels, levels.length = extra + 1 ∧ ExtraPasses res channel fit levels := by
  induction extra generalizing fit data with
  | zero =>
    obtain ⟨level, hsolves⟩ := hready.exists_solvesExactly hne hlen hres hc
    exact ⟨[level], rfl, .last hsolves⟩
  | succ extra ih =>
    obtain ⟨level, hsolves⟩ := hready.exists_solvesExactly hne hlen hres hc
    obtain ⟨hposed, hadded⟩ := hsolves.addMisfit? hready hlen hres hc
    have hto := hposed.isRetargeted_addMisfit hready.valid
    obtain ⟨levels, hcount, hpasses⟩ := ih (hto.isReady hready fit.reports)
      (hto.samples_ne_nil hne) (hto.res ▸ hlen) (hto.channels ▸ hc)
    refine ⟨level :: levels, by rw [List.length_cons, hcount], ?_⟩
    exact .again hsolves hready.prepared hadded hpasses

end Fit.IsReady

/-- Two extra passes over a bump, which is not fitted exactly. -/
theorem ExtraPasses.exists_pairwise_bump : ∃ first levels, levels.length = 2 ∧
    ExtraPasses [3, 4] 0 (Fit.bump.begun Fit.narrowSettings Fit.bumpData []) (first :: levels) ∧
    0 < first.weightedMisfit Fit.bumpData 0 ∧
    (first :: levels).Pairwise fun first later =>
      later.weightedMisfit Fit.bumpData 0 ≤ first.weightedMisfit Fit.bumpData 0 := by
  have hready := Fit.isAccepted_bump.isReady_begun []
  have htwo : ∀ r ∈ [3, 4], 2 ≤ r := by decide
  have hfirst : 0 < Fit.bumpData.channels := Nat.one_pos
  obtain ⟨levels, hcount, hpasses⟩ :=
    hready.exists_extraPasses (List.cons_ne_nil _ _) rfl htwo hfirst 2
  obtain ⟨first, later, rfl, hsolves⟩ := hpasses.exists_head
  obtain ⟨hposed, -⟩ := hsolves.addMisfit? hready rfl htwo hfirst
  have hweights : ∀ s ∈ Fit.bumpData.samples, 0 < s.weightIn 0 := by
    simp [Fit.bumpData, Fit.bumpSample, Sample.weightIn]
  have hmisfit := hposed.weightedMisfit_pos hweights (i := ⟨1, by decide⟩) (j := ⟨2, by decide⟩) rfl
    (by norm_num [Fit.bumpData, Fit.bumpSample, Sample.valueIn])
  exact ⟨first, later, Nat.succ_injective hcount, hpasses, hmisfit,
    hpasses.pairwise_weightedMisfit hready rfl htwo hfirst⟩

end GridSpline
