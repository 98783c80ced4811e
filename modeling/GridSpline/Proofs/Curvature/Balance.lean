import Mathlib
import GridSpline.Fit.Level
import GridSpline.Proofs.Curvature.Capture
import GridSpline.Proofs.Curvature.Downsample
import GridSpline.Proofs.Equations.Affine
import GridSpline.Proofs.Fit.Ready
import GridSpline.Proofs.Fit.Trend

/-!
# Stiffness in balance

Second differences that are drawn to what they were captured as pull no node anywhere. So a solution
meets the equations of the stiffness whose targets were captured from it, for any weights along the
axes: what is captured and what is drawn are the same second differences, at the same nodes and with
the same weights of the neighbours. A curvature that is carried to the lattice it comes from stays
what it is, so the same holds for a level that takes it as target.

## Main statements

* `form_stiffnessAt_eq_capturedAt` — the linear form of a square is what is captured.
* `downsampled_self` — on the same lattice curvature stays what it is.
* `exists_equations_hold_captured` — the equations of the stiffness hold at the solution.
-/

namespace GridSpline

open Scalar Failure
open Matrix
open GridSpline.Lattice

variable {res : List ℕ} {a : Axis} {x : Array ℝ} {spacing : List (Option (List ℝ))}

/-! ## Captured targets -/

/-- The linear form of the square at a node with two neighbours is what is captured there. -/
theorem form_stiffnessAt_eq_capturedAt {n i : ℕ} (hi : a.IsInterior i) (w : ℝ)
    (s : Option (List ℝ)) (targets : Option (Array ℝ)) (v : Fin n → ℝ) :
    (stiffnessAt (axes res) a w s targets i).form n ⬝ᵥ v = capturedAt v a s i := by
  have hbelow : ((i - a.stride : ℕ) : ℤ) = (i : ℤ) - a.stride := by
    have := stride_le_of_isInterior hi
    omega
  rw [form_stiffnessAt, capturedAt, if_pos hi, hbelow]
  push_cast
  rfl

/-- What a node is drawn to along an axis, where the targets were captured. -/
theorem getD_targetsAlong_captured (ha : a ∈ axes res) {i : ℕ} (hi : i < size res) :
    ((targetsAlong (some (captured res x spacing)) a).map fun part => part.getD i 0) =
      some (capturedAt (vectorOf (size res) x) a (spacing.getD a.index none) i) := by
  have hplace := getElem?_axesFrom ha
  rw [Nat.sub_zero] at hplace
  have hpart : (captured res x spacing).getD a.index #[] =
      arrayOf (size res) (capturedAt (vectorOf (size res) x) a (spacing.getD a.index none)) := by
    unfold captured
    rw [List.getD_eq_getElem?_getD, List.getElem?_map,
      show (axes res)[a.index]? = some a from hplace]
    rfl
  unfold targetsAlong
  rw [Option.map_some, Option.map_some, hpart]
  exact congrArg some (congrFun (vectorOf_arrayOf (size res) _) ⟨i, hi⟩)

/-- Every square is met by the node values that its target was captured from. -/
theorem form_eq_aim_of_captured {weights : List ℝ} (ha : a ∈ axes res) {r : Residual ℝ}
    (hr : r ∈ stiffnessAlong res weights spacing (some (captured res x spacing)) a) :
    r.form (size res) ⬝ᵥ vectorOf (size res) x = r.aim := by
  obtain ⟨i, hi, rfl⟩ := List.mem_map.mp hr
  obtain ⟨hlt, hint⟩ := mem_interior.mp (List.mem_reverse.mp hi)
  rw [form_stiffnessAt_eq_capturedAt hint]
  unfold Residual.aim stiffnessAt
  simp only
  rw [getD_targetsAlong_captured ha hlt, Option.getD_some]

/-! ## The same lattice -/

theorem curvatureScales_self (hres : ∀ r ∈ res, 2 ≤ r) (symmetric : Bool) :
    curvatureScales res res symmetric = List.replicate res.length 1 := by
  refine List.eq_replicate_iff.mpr ⟨length_curvatureScales rfl symmetric, ?_⟩
  intro s hs
  unfold curvatureScales at hs
  rw [List.zipWith_self] at hs
  obtain ⟨r, hr, rfl⟩ := List.mem_map.mp hs
  have hone := one_lt_latticeScales hres hr
  rw [div_self (by linarith), mul_one]

/-- A curvature carried to the lattice it comes from stays what it is. -/
theorem downsampled_self (hres : ∀ r ∈ res, 2 ≤ r) (symmetric : Bool)
    {ccv : Curvature ℝ} (haxes : ccv.length = res.length) (hsize : ∀ p ∈ ccv, p.size = size res) :
    downsampled res res symmetric ccv = ccv := by
  have hpart : ∀ p ∈ ccv,
      (arrayOf (size res) (carried res res (vectorOf (size res) p))).map (· * 1) = p := by
    intro p hp
    refine eq_of_vectorOf_eq (by rw [Array.size_map, size_arrayOf]) (hsize p hp) ?_
    funext i
    rw [map_arrayOf, vectorOf_arrayOf]
    simp only
    rw [mul_one, carried_self hres]
  refine List.ext_getElem (by rw [length_downsampled rfl symmetric haxes, haxes]) fun e h1 h2 => ?_
  unfold downsampled
  simp only [curvatureScales_self hres, List.getElem_zipWith, List.getElem_replicate]
  exact hpart _ (List.getElem_mem h2)

/-! ## Balance -/

/-- The equations of squares that are all met by a node vector hold there. -/
theorem exists_equations_hold (hne : res ≠ []) (hx : x.size = size res)
    {squares : List (Residual ℝ)} (hplaced : ∀ r ∈ squares, r.Placed res)
    (hmet : ∀ r ∈ squares, r.form (size res) ⬝ᵥ vectorOf (size res) x = r.aim) : ∃ A b,
    (PackedMatrix.zero res : PackedMatrix ℝ).addSquares? squares = .ok A ∧
    addTargets? (zeroRhs res) squares = .ok b ∧ A.toSparse.mulVec? x = some b := by
  obtain ⟨A, hA, hover, hdense⟩ :=
    PackedMatrix.exists_addSquares? hne (PackedMatrix.isOver_zero res) hplaced
  obtain ⟨b, hb, hbsize, hpull⟩ := exists_addTargets? (b := zeroRhs res) (by simp [zeroRhs]) hplaced
  have htidy := PackedMatrix.tidy_toSparse hover
  refine ⟨A, b, hA, hb, ?_⟩
  rw [SparseMatrix.mulVec?_eq htidy hx]
  refine congrArg some (eq_of_vectorOf_eq ?_ hbsize ?_)
  · rw [SparseMatrix.size_mulVec, htidy.rows]
  · rw [SparseMatrix.vectorOf_mulVec htidy, PackedMatrix.toMatrix_toSparse hover, hdense,
      PackedMatrix.dense_zero, zero_add, hpull, vectorOf_zeroRhs, zero_add,
      hessian_mulVec_eq_pull_of_forall hmet]

section Balance

variable (hne : res ≠ []) (hres : ∀ r ∈ res, 2 ≤ r)

include hne hres

theorem downsample?_captured (symmetric : Bool) :
    downsample? res res symmetric (captured res x spacing) = .ok (captured res x spacing) := by
  have haxes := length_captured res x spacing
  have hsize : ∀ p ∈ captured res x spacing, p.size = size res :=
    fun p hp => size_of_mem_captured hp
  rw [downsample?_eq rfl hne symmetric hres hres haxes hsize,
    downsampled_self hres symmetric haxes hsize]

variable (hspacing : List.Forall₂ (fun s r => ∀ l, s = some l → l.length = r) spacing res)
  {weights : List ℝ} (hweights : weights.length = res.length) (hx : x.size = size res)

include hspacing hweights hx

/-- A solution meets the equations of the stiffness whose targets were captured from it. The targets
are those that a level takes if they are carried over from its own lattice. -/
theorem exists_equations_hold_captured : ∃ ccv squares A b,
    captureCurvature? res x spacing = .ok ccv ∧
    (∀ symmetric, downsample? res res symmetric ccv = .ok ccv) ∧
    stiffness? res weights spacing (some ccv) = .ok squares ∧
    (PackedMatrix.zero res : PackedMatrix ℝ).addSquares? squares = .ok A ∧
    addTargets? (zeroRhs res) squares = .ok b ∧
    A.toSparse.mulVec? x = some b ∧
    ∀ (fit : Fit ℝ) (level : Level ℝ) (data : Prepared ℝ) (range : ℝ),
      level.res = res → level.spacing = spacing →
      (entryAt data.valueRange level.channel : Except (Failure ℝ) ℝ) = .ok range →
      weights = level.stiffness.map (· * range) →
      level.setCurvature? fit res ccv = .ok { level with ccv := some ccv } ∧
        Level.stiffnessResiduals? { level with ccv := some ccv } data = .ok squares := by
  have hinput : StiffnessInput res weights spacing (some (captured res x spacing)) :=
    { weights := hweights
      spacing := hspacing
      targets := by
        rintro parts ⟨⟩
        exact ⟨length_captured res x spacing, fun p hp => size_of_mem_captured hp⟩ }
  have hmade := stiffness?_eq hinput hne
  obtain ⟨squares, hsquares⟩ : ∃ squares, squares =
    ((axes res).map (stiffnessAlong res weights spacing (some (captured res x spacing)))).flatten :=
    ⟨_, rfl⟩
  rw [← hsquares] at hmade
  have hmem : ∀ r ∈ squares, ∃ a ∈ axes res,
      r ∈ stiffnessAlong res weights spacing (some (captured res x spacing)) a := by
    intro r hr
    rw [hsquares, ← List.flatMap_def] at hr
    exact List.mem_flatMap.mp hr
  obtain ⟨A, b, hA, hb, hhold⟩ := exists_equations_hold hne hx
    (fun r hr => by
      obtain ⟨a, ha, hr⟩ := hmem r hr
      exact placed_of_mem_stiffnessAlong hres ha hr)
    (fun r hr => by
      obtain ⟨a, ha, hr⟩ := hmem r hr
      exact form_eq_aim_of_captured ha hr)
  refine ⟨captured res x spacing, squares, A, b, captureCurvature?_eq hne hx hspacing,
    downsample?_captured hne hres, hmade, hA, hb, hhold, ?_⟩
  rintro fit level data range rfl rfl hrange rfl
  constructor
  · unfold Level.setCurvature?
    rw [downsample?_captured hne hres, ok_bind]
    rfl
  · unfold Level.stiffnessResiduals?
    simp only
    rw [hrange, ok_bind, hmade]

end Balance

/-- Balance on a lattice with an uneven axis, an axis too short for second differences, and a weight
that is negative. -/
theorem exists_equations_hold_uneven : ∃ ccv squares A b,
    captureCurvature? [4, 2, 3] (arrayOf 24 fun i => (i : ℝ) ^ 3) [some [0, 1, 4, 2], none, none] =
      .ok ccv ∧
    (∀ symmetric, downsample? [4, 2, 3] [4, 2, 3] symmetric ccv = .ok ccv) ∧
    stiffness? [4, 2, 3] [3, 1, -2] [some [0, 1, 4, 2], none, none] (some ccv) = .ok squares ∧
    (PackedMatrix.zero [4, 2, 3] : PackedMatrix ℝ).addSquares? squares = .ok A ∧
    addTargets? (zeroRhs [4, 2, 3]) squares = .ok b ∧
    A.toSparse.mulVec? (arrayOf 24 fun i => (i : ℝ) ^ 3) = some b := by
  have hspacing : List.Forall₂ (fun (s : Option (List ℝ)) (r : ℕ) => ∀ l, s = some l → l.length = r)
      [some [0, 1, 4, 2], none, none] [4, 2, 3] := by
    refine .cons ?_ (.cons ?_ (.cons ?_ .nil))
    · rintro l ⟨⟩
      rfl
    · exact fun l hl => absurd hl (Option.some_ne_none l).symm
    · exact fun l hl => absurd hl (Option.some_ne_none l).symm
  have hweights : ([3, 1, -2] : List ℝ).length = [4, 2, 3].length := rfl
  obtain ⟨ccv, squares, A, b, hccv, hself, hmade, hA, hb, hhold, -⟩ :=
    exists_equations_hold_captured (by decide) (by decide) hspacing hweights (size_arrayOf 24 _)
  exact ⟨ccv, squares, A, b, hccv, hself, hmade, hA, hb, hhold⟩

end GridSpline
