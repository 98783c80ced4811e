import Mathlib
import GridSpline.Proofs.Fit.Solved
import GridSpline.Proofs.Fit.Spacing
import GridSpline.Proofs.Fit.Trend
import GridSpline.Proofs.Solver.Rest

/-!
# Constant samples on a level

If all samples have the same value in a channel, the constant node values satisfy the equations of
every level of the channel, as long as nothing else draws at the nodes. And if the level is stiff,
no equations of a single line take a constant other than zero to zero: values that are constant on
one line and zero elsewhere are bent along some other axis, or there is no other axis and a sample
sees them. So a solve that starts at the constant stays there.

## Main definitions

* `Prepared.IsFlat` — samples that have the same value in a channel.
* `Curvature.Vanishes` — a curvature that is zero everywhere.

## Main statements

* `IsPosed.hessian_mulVec_const` — the constant satisfies the equations.
* `IsPosed.isHeld_line` — no line takes it to zero.
* `IsPosed.exists_setup?_solve_const` — a solve leaves the constant as it is.
-/

namespace GridSpline

open Scalar Failure
open Matrix
open GridSpline.Lattice

/-- Samples that have the same value in a channel, and are drawn to it. -/
structure Prepared.IsFlat (data : Prepared ℝ) (channel : ℕ) (value : ℝ) : Prop where
  values : ∀ s ∈ data.samples, s.valueIn channel = value
  targets : ∀ s ∈ data.samples, s.targetIn channel = value
  average : data.average.getD channel 0 = value

/-- A curvature that is zero everywhere. -/
def Curvature.Vanishes (ccv : Curvature ℝ) : Prop := ∀ p ∈ ccv, ∀ i, p.getD i 0 = 0

/-- The outcome of a solve that found the solution at its start. -/
def SolveReport.atOnce (res : List ℕ) : SolveReport ℝ where
  res
  error := 0
  iterations := 1
  converged := true

theorem vectorOf_replicate (n : ℕ) (value : ℝ) :
    vectorOf n (Array.replicate n value) = fun _ => value := by
  funext i
  rw [vectorOf_apply Array.size_replicate, Array.getElem_replicate]

/-! ## Curvature -/

theorem getD_arrayOf_eq_zero {n : ℕ} {f : ℕ → ℝ} (hf : ∀ i < n, f i = 0) (i : ℕ) :
    (arrayOf n f).getD i 0 = 0 := by
  unfold arrayOf
  rw [Array.getD_eq_getD_getElem?, List.getElem?_toArray, List.getElem?_map]
  rcases Nat.lt_or_ge i n with hi | hi
  · rw [List.getElem?_range hi]
    exact hf i hi
  · rw [List.getElem?_eq_none (by rwa [List.length_range])]
    rfl

/-- Constant node values have no curvature. -/
theorem vanishes_captured {res : List ℕ} (value : ℝ) (spacing : List (Option (List ℝ))) :
    Curvature.Vanishes (captured res (Array.replicate (size res) value) spacing) := by
  intro p hp
  obtain ⟨a, ha, rfl⟩ := List.mem_map.mp hp
  refine getD_arrayOf_eq_zero fun i hi => ?_
  unfold capturedAt
  by_cases hint : a.IsInterior i
  · have hbelow := stride_le_of_isInterior hint
    have habove := add_stride_lt_of_isInterior ha hi hint
    have hconst : ∀ j < size res, nodeValue (fun _ : Fin (size res) => value) (j : ℤ) = value :=
      fun j hj => nodeValue_fin _ ⟨j, hj⟩
    rw [if_pos hint, vectorOf_replicate, hconst _ (by omega), hconst _ hi, hconst _ habove]
    unfold weightedDifference
    ring
  · rw [if_neg hint]

theorem getD_filterAlong_eq_zero {nodes : ℕ} {a : Axis} {k : Kernel ℝ} {x : Array ℝ}
    (hx : ∀ i, x.getD i 0 = 0) (i : ℕ) : (filterAlong nodes a k x).getD i 0 = 0 := by
  unfold filterAlong
  rw [Array.getD_eq_getD_getElem?, Array.getElem?_map]
  simp only [hx, filteredAt_zero]
  cases (Array.range nodes)[i]? <;> rfl

theorem vanishes_filteredCurvature {res : List ℕ} {ccv : Curvature ℝ} (h : ccv.Vanishes)
    (stdev : ℝ) (symmetric : Bool) : (filteredCurvature res stdev symmetric ccv).Vanishes := by
  intro p hp
  obtain ⟨q, hq, rfl⟩ := List.mem_map.mp hp
  have hfold : ∀ (scaled : List (Axis × ℝ)) (x : Array ℝ), (∀ i, x.getD i 0 = 0) →
      ∀ i, (filtered (size res) stdev scaled x).getD i 0 = 0 := by
    intro scaled
    induction scaled with
    | nil => exact fun x hx => hx
    | cons s scaled ih => exact fun x hx => ih _ (getD_filterAlong_eq_zero hx)
  exact hfold _ q (h q hq)

theorem vanishes_downsampled {source target : List ℕ} {ccv : Curvature ℝ} (h : ccv.Vanishes)
    (symmetric : Bool) : (downsampled source target symmetric ccv).Vanishes := by
  intro p hp
  unfold downsampled at hp
  obtain ⟨e, he, rfl⟩ := List.getElem_of_mem hp
  rw [List.length_zipWith] at he
  rw [List.getElem_zipWith, map_arrayOf]
  refine getD_arrayOf_eq_zero fun i _ => ?_
  have hzero : vectorOf (size source) ccv[e] = fun _ => 0 :=
    funext fun j => h _ (List.getElem_mem _) j
  unfold carried
  simp only [hzero, mul_zero, Finset.sum_const_zero, zero_mul]

/-- Node values that are constant are affine along every axis. -/
theorem isAffineAlong_const {res : List ℕ} {a : Axis} (ha : a ∈ axes res)
    (spacing : Option (List ℝ)) (value : ℝ) :
    IsAffineAlong res a spacing fun _ => value := by
  intro start hlt hstart
  refine ⟨value, 0, fun k hk => ?_⟩
  have hnode : start + k * a.stride < size res :=
    add_mul_stride_lt_size ha hlt (by rwa [hstart, Nat.zero_add])
  rw [zero_mul, add_zero]
  exact nodeValue_fin (fun _ : Fin (size res) => value) ⟨_, hnode⟩

/-- Node values that are zero outside a line, constant on it, and affine along an axis across it are
zero. -/
theorem IsAffineAlong.eq_zero_of_across {res line : List ℕ} {b : Axis} {spacing : Option (List ℝ)}
    {x : Fin (size res) → ℝ} (haffine : IsAffineAlong res b spacing x) (hb : b ∈ axes res)
    (hres : ∀ r ∈ res, 3 ≤ r) (hmono : IsMonotoneSpacing spacing)
    (hlen : ∀ l, spacing = some l → l.length = b.count)
    (hline : ∀ i ∈ line, ∀ j ∈ line, b.coord i = b.coord j)
    (hoff : ∀ i : Fin (size res), (i : ℕ) ∉ line → x i = 0) {i : Fin (size res)}
    (hi : (i : ℕ) ∈ line) : x i = 0 := by
  have hcount := hres _ (count_mem hb)
  have hstride : 0 < b.stride := stride_pos one_pos (fun r hr => by have := hres r hr; omega) hb
  have hcoord : b.coord i < b.count := Nat.mod_lt _ (by omega)
  obtain ⟨start, hstart, hnode⟩ := exists_lineStart b i
  have hbelow : start < size res := by
    have := i.isLt
    omega
  have hplaces : ∀ j < b.count, ∀ k < b.count, j ≠ k → nodePlace spacing j ≠ nodePlace spacing k :=
    fun j hj k hk hne => hmono.nodePlace_ne hlen hj hk hne
  have hzero := (haffine start hbelow hstart).eq_zero_of_forall_ne hplaces hcount hcoord ?_
  · rwa [← hnode, nodeValue_fin] at hzero
  · intro k hk hne
    have hlt : start + k * b.stride < size res :=
      add_mul_stride_lt_size hb hbelow (by rwa [hstart, Nat.zero_add])
    rw [nodeValue_fin x ⟨_, hlt⟩]
    refine hoff _ fun hmem => hne ?_
    have hsame := hline _ hmem _ hi
    rwa [coord_add_mul_stride hstride (by rwa [hstart, Nat.zero_add]), hstart, Nat.zero_add] at hsame

namespace Level.IsPosed

variable {level : Level ℝ} {fit : Fit ℝ} {data : Prepared ℝ} {channel : ℕ} {res : List ℕ}
  (h : level.IsPosed fit data channel) (hlaid : level.IsLaidOn data res) (hvalid : data.IsValid)

include h

omit h in
theorem isMultiAffine_const (value : ℝ) : level.IsMultiAffine fun _ => value :=
  fun _ ha => isAffineAlong_const ha _ value

include hlaid hvalid

/-- The value of a constant at a sample. -/
theorem form_sample_const {s : Sample ℝ} (hs : s ∈ data.samples) (value : ℝ) :
    (level.sampleSquare channel s).form (size level.res) ⬝ᵥ (fun _ => value) = value := by
  have hshares := sum_share h.resolutions h.axes (h.forall₂_placeAt hlaid hvalid hs)
  unfold dotProduct
  simp only [h.form_sampleSquare_apply hlaid hvalid hs]
  rw [← Finset.sum_mul, hshares, one_mul]

theorem sampleMatrix_mulVec_const (value : ℝ) (m : Fin data.samples.length) :
    (level.sampleMatrix data *ᵥ fun _ => value) m = value := by
  rw [h.interpolation_mulVec]
  exact h.form_sample_const hlaid hvalid (List.getElem_mem m.isLt) value

variable (hstiff : level.IsStiff data channel) (hnone : fit.settings.weakFunction = none)

include hstiff hnone

/-- The constant satisfies the equations. -/
theorem hessian_mulVec_const {value : ℝ} (hflat : data.IsFlat channel value)
    (hccv : ∀ c, level.ccv = some c → c.Vanishes) :
    (hessian (size level.res) (level.squaresOf fit data channel).all *ᵥ fun _ => value) =
      pull (size level.res) (level.squaresOf fit data channel).all := by
  refine hessian_mulVec_eq_pull_of_forall fun r hr => ?_
  rcases List.mem_append.mp hr with hbend | hrest
  · have htarget : r.aim = 0 := by
      obtain ⟨l, hl, hmem⟩ := List.mem_flatten.mp hbend
      obtain ⟨a, ha, rfl⟩ := List.mem_map.mp hl
      obtain ⟨i, -, rfl⟩ := List.mem_map.mp hmem
      refine (getD_targetsAlong level a i).trans ?_
      unfold curvatureTarget
      cases hc : level.ccv with
      | none => rfl
      | some c =>
        have hindex : a.index < c.length := (h.stiffness.targets c hc).1.symm ▸ index_lt ha
        simp only
        rw [List.getD_eq_getElem _ _ hindex]
        exact hccv c hc _ (List.getElem_mem hindex) i
    rw [htarget]
    exact (h.isMultiAffine_iff hstiff _).mp (isMultiAffine_const value) r hbend
  · rcases List.mem_append.mp hrest with hweak | hsample
    · obtain ⟨f, hf, -⟩ := exists_eq_of_mem_weakSquaresOf hweak
      rw [hnone] at hf
      cases hf
    · obtain ⟨s, hs, rfl⟩ := List.mem_map.mp hsample
      rw [h.form_sample_const hlaid hvalid hs]
      exact (hflat.targets s hs).symm

section Weighted

variable (hw : level.IsWeighted fit data channel) (hsamples : data.samples ≠ [])

include hw hsamples

/-- The equations take no constant but zero to zero. -/
theorem eq_zero_of_hessian_mulVec_const {value : ℝ}
    (hzero : (hessian (size level.res) (level.squaresOf fit data channel).all *ᵥ
      fun _ => value) = 0) : value = 0 := by
  have hpos := List.length_pos_iff.mpr hsamples
  have hsample := ((h.hessian_mulVec_eq_zero_iff_isMultiAffine hw hstiff hnone _).mp hzero).2
    ⟨0, hpos⟩
  rwa [h.sampleMatrix_mulVec_const hlaid hvalid] at hsample

/-- Nor do the equations of a line. -/
theorem isHeld_line {line : List ℕ} (hline : line ∈ allLines level.res)
    (hlt : ∀ i ∈ line, i < size level.res) (value : ℝ) :
    IsHeld (hessian (size level.res) (level.squaresOf fit data channel).all) (fun _ => value)
      (nodeAt hlt) := by
  intro hinner
  obtain ⟨x, hx⟩ : ∃ x, x = spread (nodeAt hlt) ((fun _ => value) ∘ nodeAt hlt) := ⟨_, rfl⟩
  have hinjective : Function.Injective (nodeAt hlt) := fun i j hij =>
    Fin.ext (((nodup_of_mem_allLines hline).getElem_inj_iff).mp (congrArg Fin.val hij))
  have hon : ∀ j, x (nodeAt hlt j) = value := fun j => by
    rw [hx, spread_apply _ hinjective, Function.comp_apply]
  have hoff : ∀ i : Fin (size level.res), (i : ℕ) ∉ line → x i = 0 := fun i hi => by
    rw [hx]
    exact spread_apply_of_not_mem _ _ fun j hj => hi (hj ▸ List.getElem_mem j.isLt)
  -- The constant on the line, and zero elsewhere, has no curvature at all.
  have hzero : hessian (size level.res) (level.squaresOf fit data channel).all *ᵥ x = 0 := by
    refine hessian_mulVec_eq_zero (fun r hr => h.weight_nonneg hw hr) ?_
    rw [hx, spread_dotProduct_mulVec, hinner, dotProduct_zero]
  have haffine := ((h.hessian_mulVec_eq_zero_iff_isMultiAffine hw hstiff hnone x).mp hzero).1
  obtain ⟨e, he, hsame⟩ := exists_axis_of_mem_allLines hline
  funext j
  show value = 0
  by_cases hone : level.res.length = 1
  · have hconst : x = fun _ => value := by
      funext i
      obtain ⟨k, hk, hik⟩ := List.getElem_of_mem (mem_line_of_length_eq_one hline hone i.isLt)
      rw [← hon ⟨k, hk⟩]
      exact congrArg x (Fin.ext hik.symm)
    exact h.eq_zero_of_hessian_mulVec_const hlaid hvalid hstiff hnone hw hsamples (hconst ▸ hzero)
  · obtain ⟨g, hg, hge⟩ : ∃ g < level.res.length, g ≠ e := by
      by_cases h0 : e = 0
      · exact ⟨1, by omega, by omega⟩
      · exact ⟨0, by omega, by omega⟩
    obtain ⟨b, hb, hbg⟩ := exists_axis hg
    have hbe : b.index ≠ e := hbg ▸ hge
    obtain ⟨hmem, hlen⟩ := h.spacing_getD_mem hb
    rw [← hon j]
    exact (haffine b hb).eq_zero_of_across hb hstiff.resolutions (hstiff.spacing _ hmem) hlen
      (hsame b hb hbe) hoff (List.getElem_mem j.isLt)

end Weighted

/-! ## The solve -/

/-- A solve that starts at the constant leaves it as it is. -/
theorem exists_setup?_solve_const (hready : fit.IsReady data) (hc : channel < data.channels)
    (hsamples : data.samples ≠ []) (hrange : 0 < data.rangeOf channel) {value : ℝ}
    (hflat : data.IsFlat channel value) (hccv : ∀ c, level.ccv = some c → c.Vanishes)
    {tolerance : ℝ} (ht : 0 < tolerance) :
    ∃ up, level.setup? fit = .ok up ∧ up.IsSetUp fit data res channel ∧
      (({ up with x := Array.replicate (size res) value } : Level ℝ).solve fit
        (some tolerance)).x = Array.replicate (size res) value ∧
      (({ up with x := Array.replicate (size res) value } : Level ℝ).solve fit
        (some tolerance)).result = .ok (.atOnce res) := by
  have hw := hready.isWeighted hlaid hc hsamples
  have hnonneg : ∀ r ∈ (level.squaresOf fit data channel).all, 0 ≤ r.weight :=
    fun r hr => h.weight_nonneg hw hr
  have hapart : data.KeepsApart res := by
    intro s hs l hl
    rw [← hlaid.spacing] at hs
    exact (hl ▸ hstiff.spacing s hs).isApart
  have hall : ∀ r ∈ res, 3 ≤ r := hlaid.res_eq ▸ hstiff.resolutions
  obtain ⟨n, hn⟩ := hready.lineSweeps
  obtain ⟨A, b, scale, hsetup, hover, hb, hmatrix, hrhs⟩ := h.exists_setup?
  have hup : ({ level with matrix := some A, rhs := b, scale } : Level ℝ).IsSetUp fit data res
      channel := ⟨{ h with }, { hlaid with }, hb, A, rfl, hover, hmatrix⟩
  obtain ⟨up, heq⟩ : ∃ up, up = ({ level with matrix := some A, rhs := b, scale } : Level ℝ) :=
    ⟨_, rfl⟩
  rw [← heq] at hsetup hup
  refine ⟨up, hsetup, hup, ?_⟩
  subst heq
  rw [← hlaid.res_eq, solve_eq rfl hn]
  have hsystem : (systemOf { level with
      matrix := some A, rhs := b, scale, x := Array.replicate (size level.res) value } A
      tolerance).IsSolvable (size level.res) := {
    (hup.withValues Array.size_replicate).isSquare rfl ht.le with
    nodes := rfl
    tidy := PackedMatrix.tidy_toSparse hover
    consistent := by
      show IsConsistent (A.toSparse.toMatrix _ _) (vectorOf _ b)
      rw [hmatrix, hrhs]
      exact .of_solvable (posSemidef_hessian hnonneg) (exists_hessian_mulVec_eq_pull hnonneg)
    diagonal := fun i => by
      show 0 < A.toSparse.toMatrix _ _ i i
      rw [hmatrix, h.hessian_apply_self_pos_iff_holdsNode hlaid hready.valid hw hapart]
      exact Or.inl ⟨hall, hrange⟩
    tolerance_pos := ht }
  refine hsystem.solve_eq_self ⟨Array.size_replicate, ?_, ?_, ?_⟩ _
  · show A.toSparse.toMatrix _ _ *ᵥ _ = vectorOf _ b
    rw [hmatrix, hrhs, vectorOf_replicate]
    exact h.hessian_mulVec_const hlaid hvalid hstiff hnone hflat hccv
  · intro hzero
    have hrest : (hessian (size level.res) (level.squaresOf fit data channel).all *ᵥ
        fun _ => value) = 0 := by
      rw [h.hessian_mulVec_const hlaid hvalid hstiff hnone hflat hccv, ← hrhs]
      exact hzero
    rw [vectorOf_replicate,
      h.eq_zero_of_hessian_mulVec_const hlaid hvalid hstiff hnone hw hsamples hrest]
    rfl
  · intro line hline hlt
    show IsHeld (A.toSparse.toMatrix _ _) _ _
    rw [hmatrix, vectorOf_replicate]
    exact h.isHeld_line hlaid hvalid hstiff hnone hw hsamples hline hlt value

end Level.IsPosed

end GridSpline
