import Mathlib
import GridSpline.Proofs.Fit.Accepted

/-!
# The energy of a level

The energy that a level minimises is the sum of three parts: the weighted squares of all second
differences, those of the distances to the weak default at all nodes, and those of the misfits to
the samples, where the value at a sample is what the interpolation matrix gives for it. The
equations that are set up are the derivatives of this energy, however the parts were assembled.

The proof goes through the list of weighted squares that the program adds up: it has the same energy
(`IsPosed.energy_eq`), and the matrix and right-hand side of that list are known.

## Main definitions

* `Level.energy` — the energy.
* `Level.DerivesEnergy` — what makes equations the derivatives of the energy.

## Main statements

* `IsPosed.interpolation_mulVec` — the value at a sample is its linear form.
* `IsPosed.exists_setup?_derivesEnergy` — the equations that are set up are the derivatives of the
  energy.
-/

namespace GridSpline

open Scalar
open Matrix
open GridSpline.Lattice

namespace Level

/-! ## The three parts -/

/-- What the second difference along an axis is drawn to at a node. -/
noncomputable def curvatureTarget (level : Level ℝ) (a : Axis) (node : ℕ) : ℝ :=
  match level.ccv with
  | none => 0
  | some parts => (parts.getD a.index #[]).getD node 0

/-- The weighted square of a second difference. The weight is that of the axis, times the factor of
the middle node along the axis, times the factors of the node along all other axes. -/
noncomputable def curvatureTerm (level : Level ℝ) (data : Prepared ℝ) (channel : ℕ) {n : ℕ}
    (x : Fin n → ℝ) (a : Axis) (node : ℕ) : ℝ :=
  let edge := surfaceFactor (a.depth node - 1)
  let cross := (((axes level.res).filter fun b => b.index ≠ a.index).map fun b =>
    surfaceFactor (b.depth node)).prod
  let w := differenceWeights (level.spacing.getD a.index none) (a.coord node)
  level.stiffness.getD a.index 0 * data.rangeOf channel * edge * cross *
    (w.1 * nodeValue x (node - a.stride) - (w.1 + w.2) * nodeValue x node +
      w.2 * nodeValue x (node + a.stride) - level.curvatureTarget a node) ^ 2

/-- The sum over all axes and all nodes with two neighbours along them. -/
noncomputable def curvatureEnergy (level : Level ℝ) (data : Prepared ℝ) (channel : ℕ) {n : ℕ}
    (x : Fin n → ℝ) : ℝ :=
  ((axes level.res).map fun a =>
    ((interior level.res a).map (level.curvatureTerm data channel x a)).sum).sum

/-- The sum over all nodes of the weighted squares of the distances to the weak default. -/
noncomputable def weakEnergy (level : Level ℝ) (fit : Fit ℝ) (channel : ℕ)
    (x : Fin (size level.res) → ℝ) : ℝ :=
  match fit.settings.weakFunction, fit.settings.weak with
  | some f, some w => ∑ i : Fin (size level.res),
      weakNodeWeight w.toScalar (size level.res) level.res.length *
        (x i - f.value channel (level.positionOf i)) ^ 2
  | _, _ => 0

/-- The matrix that takes node values to values at the samples. -/
noncomputable def sampleMatrix (level : Level ℝ) (data : Prepared ℝ) :
    Matrix (Fin data.samples.length) (Fin (size level.res)) ℝ :=
  level.interpolation.toMatrix data.samples.length (size level.res)

/-- The sum over all samples of the weighted squares of the misfits. -/
noncomputable def sampleEnergy (level : Level ℝ) (data : Prepared ℝ) (channel : ℕ)
    (x : Fin (size level.res) → ℝ) : ℝ :=
  ∑ m : Fin data.samples.length, (data.samples.get m).weightIn channel *
    ((level.sampleMatrix data *ᵥ x) m - (data.samples.get m).targetIn channel) ^ 2

/-- The energy of a level. -/
noncomputable def energy (level : Level ℝ) (fit : Fit ℝ) (data : Prepared ℝ) (channel : ℕ)
    (x : Fin (size level.res) → ℝ) : ℝ :=
  level.curvatureEnergy data channel x + level.weakEnergy fit channel x +
    level.sampleEnergy data channel x

/-- The equations `M x = v` are the derivatives of the energy. -/
structure DerivesEnergy (level : Level ℝ) (fit : Fit ℝ) (data : Prepared ℝ) (channel : ℕ)
    (M : Matrix (Fin (size level.res)) (Fin (size level.res)) ℝ)
    (v : Fin (size level.res) → ℝ) : Prop where
  /-- They expand the energy around any node vector. -/
  expands : ∀ x d, level.energy fit data channel (x + d) =
    level.energy fit data channel x + d ⬝ᵥ (M *ᵥ x - v) + 1 / 2 * (d ⬝ᵥ (M *ᵥ d))
  isSymm : M.IsSymm
  posSemidef : M.PosSemidef
  /-- They have a solution, even if the matrix is singular. -/
  solvable : ∃ x, M *ᵥ x = v
  /-- Their solutions are the node vectors of least energy. -/
  solves_iff : ∀ x, M *ᵥ x = v ↔
    ∀ y, level.energy fit data channel x ≤ level.energy fit data channel y

/-! ## The squares have the same energy -/

theorem getD_targetsAlong (level : Level ℝ) (a : Axis) (i : ℕ) :
    ((targetsAlong level.ccv a).map fun part => part.getD i 0).getD 0 =
      level.curvatureTarget a i := by
  unfold targetsAlong curvatureTarget
  cases level.ccv <;> rfl

theorem energy_weakSquares (level : Level ℝ) (fit : Fit ℝ) (channel : ℕ)
    (x : Fin (size level.res) → ℝ) :
    totalEnergy (size level.res) (level.weakSquaresOf fit channel) x =
      level.weakEnergy fit channel x := by
  unfold weakSquaresOf weakEnergy
  cases fit.settings.weakFunction with
  | none => rfl
  | some f =>
    cases fit.settings.weak with
    | none => rfl
    | some w =>
      simp only
      rw [totalEnergy_weakSquares (by rw [List.length_map, List.length_range])]
      refine Finset.sum_congr rfl ?_
      intro i _
      rw [List.getD_eq_getElem _ _ (by simp), List.getElem_map, List.getElem_range]

namespace IsPosed

variable {level : Level ℝ} {fit : Fit ℝ} {data : Prepared ℝ} {channel : ℕ}
  (h : level.IsPosed fit data channel)

include h

theorem energy_stiffSquares {n : ℕ} (x : Fin n → ℝ) :
    totalEnergy n (level.stiffSquares data channel) x = level.curvatureEnergy data channel x := by
  rw [totalEnergy_eq_sum_energy]
  unfold stiffSquares curvatureEnergy
  rw [List.map_flatten, List.sum_flatten, List.map_map, List.map_map]
  refine congrArg List.sum (List.map_congr_left ?_)
  intro a ha
  simp only [Function.comp_apply, stiffnessAlong, List.map_map]
  rw [List.map_reverse, List.sum_reverse]
  refine congrArg List.sum (List.map_congr_left ?_)
  intro i hi
  have hlt : a.index < level.stiffness.length := h.stiffness.weights.symm ▸ index_lt ha
  have hweight : (level.stiffness.map (· * data.rangeOf channel)).getD a.index 0 =
      level.stiffness.getD a.index 0 * data.rangeOf channel := by
    rw [List.getD_eq_getElem _ _ (by rwa [List.length_map]), List.getD_eq_getElem _ _ hlt,
      List.getElem_map]
  rw [Function.comp_apply, energy_stiffnessAt, hweight,
    edgeWeight_eq h.resolutions (mem_interior.mp hi).2, getD_targetsAlong]
  rfl

/-- The rows of the interpolation matrix are the linear forms of the samples. -/
theorem tidy_interpolation : level.interpolation.Tidy data.samples.length (size level.res) ∧
    ∀ m : Fin data.samples.length, level.sampleMatrix data m =
      (level.sampleSquare channel (data.samples.get m)).form (size level.res) := by
  let cells := data.samples.map fun s =>
    ((level.cellOf s).base, GridSpline.cornerWeights (level.cellOf s).fraction)
  have hw : ∀ c ∈ cells, c.2.length = level.cornerOffsets.length := by
    intro c hc
    obtain ⟨s, hs, rfl⟩ := List.mem_map.mp hc
    exact h.length_cornerOffsets_eq hs
  have hin : ∀ c ∈ cells, ∀ o ∈ level.cornerOffsets,
      0 ≤ c.1 + o ∧ c.1 + o < size level.res := by
    intro c hc o ho
    obtain ⟨s, hs, rfl⟩ := List.mem_map.mp hc
    exact h.corner_mem hs ho
  obtain ⟨W, hW, htidy, hentry⟩ := exists_interpolationMatrix? hw hin
  have hlen : cells.length = data.samples.length := List.length_map _
  have hbases : cells.map Prod.fst = level.bases := by
    rw [List.map_map, h.bases]
    rfl
  have hweights : cells.map Prod.snd = level.cornerWeights := by
    rw [List.map_map, h.cornerWeights]
    rfl
  rw [hbases, hweights, h.interpolation, Except.ok.injEq] at hW
  rw [hlen] at htidy
  subst hW
  refine ⟨htidy, ?_⟩
  intro m
  funext j
  show level.interpolation.entry m j = _
  rw [hentry, List.getElem?_map, List.getElem?_eq_getElem m.isLt]
  rfl

/-- The value at a sample is its linear form. -/
theorem interpolation_mulVec (x : Fin (size level.res) → ℝ) (m : Fin data.samples.length) :
    (level.sampleMatrix data *ᵥ x) m =
      (level.sampleSquare channel (data.samples.get m)).form (size level.res) ⬝ᵥ x := by
  rw [mulVec, h.tidy_interpolation.2 m]

theorem energy_sampleSquares (x : Fin (size level.res) → ℝ) :
    totalEnergy (size level.res) (data.samples.map (level.sampleSquare channel)) x =
      level.sampleEnergy data channel x := by
  unfold totalEnergy sampleEnergy
  rw [List.map_map, ← Fin.sum_univ_fun_getElem]
  refine Finset.sum_congr rfl ?_
  intro m _
  rw [h.interpolation_mulVec]
  rfl

/-- The squares that are added up have the energy of the level. -/
theorem energy_eq (x : Fin (size level.res) → ℝ) :
    totalEnergy (size level.res) (level.squaresOf fit data channel).all x =
      level.energy fit data channel x := by
  unfold Squares.all energy
  rw [totalEnergy_append, totalEnergy_append, ← h.energy_sampleSquares, ← energy_weakSquares,
    ← h.energy_stiffSquares, add_assoc]
  rfl

/-! ## The equations are its derivatives -/

/-- The equations that are set up are the derivatives of the energy. -/
theorem exists_setup?_derivesEnergy (hw : level.IsWeighted fit data channel) : ∃ A b scale,
    level.setup? fit = .ok { level with matrix := some A, rhs := b, scale } ∧
    level.DerivesEnergy fit data channel
      (A.toSparse.toMatrix (size level.res) (size level.res)) (vectorOf (size level.res) b) := by
  obtain ⟨A, b, scale, hsetup, -, -, hmatrix, hrhs⟩ := h.exists_setup?
  have hweight : ∀ r ∈ (level.squaresOf fit data channel).all, 0 ≤ r.weight :=
    fun r hr => h.weight_nonneg hw hr
  refine ⟨A, b, scale, hsetup, ?_⟩
  rw [hmatrix, hrhs]
  refine ⟨fun x d => ?_, isSymm_hessian _, posSemidef_hessian hweight,
    exists_hessian_mulVec_eq_pull hweight, fun x => ?_⟩
  · rw [← h.energy_eq, ← h.energy_eq]
    exact totalEnergy_add _ x d
  · simp only [← h.energy_eq]
    exact hessian_mulVec_eq_pull_iff hweight

end IsPosed

/-- The level of a bump is an instance. -/
theorem exists_derivesEnergy_bump : ∃ level,
    make? (Fit.bump.begun Fit.narrowSettings Fit.bumpData []) [3, 4] 0 false = .ok level ∧
    ∃ A b scale, level.setup? (Fit.bump.begun Fit.narrowSettings Fit.bumpData []) =
        .ok { level with matrix := some A, rhs := b, scale } ∧
      level.DerivesEnergy (Fit.bump.begun Fit.narrowSettings Fit.bumpData []) Fit.bumpData 0
        (A.toSparse.toMatrix (size level.res) (size level.res))
        (vectorOf (size level.res) b) := by
  have hready := Fit.isAccepted_bump.isReady_begun []
  have htwo : ∀ r ∈ [3, 4], 2 ≤ r := by decide
  have hfirst : 0 < Fit.bumpData.channels := Nat.one_pos
  obtain ⟨level, hmake, hposed, hlaid, -⟩ := hready.exists_make? rfl htwo hfirst false
  have hweighted : level.IsWeighted _ Fit.bumpData 0 :=
    hready.isWeighted hlaid hfirst (List.cons_ne_nil _ _)
  exact ⟨level, hmake, hposed.exists_setup?_derivesEnergy hweighted⟩

end Level

end GridSpline
