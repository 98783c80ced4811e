import Mathlib
import GridSpline.Proofs.Fit.Level
import GridSpline.Proofs.Fit.Ready
import GridSpline.Proofs.Grid.Width
import GridSpline.Proofs.Interpolation.Interpolant

/-!
# Levels of a fit that is ready

A level can be made on every lattice with at least two nodes along each axis, for every channel and
for both passes. All its samples are located, since they lie within the bounds, and what it is made
of fits together.

## Main definitions

* `Prepared.spacingOn` — the spacings on a lattice.
* `Level.IsLaidOn` — a level that lies on a lattice over the domain of the samples.

## Main statements

* `IsReady.make?_eq_fresh`, `IsReady.exists_make?` — a level is made, and it is posed.
* `IsLaidOn.isWeighted` — with samples none of its squares counts negatively.
* `IsPosed.form_sampleSquare_apply` — the share of a node in the value at a sample.
-/

namespace GridSpline

open Scalar Failure
open GridSpline.Lattice

/-- The spacings on a lattice. -/
noncomputable def Prepared.spacingOn (data : Prepared ℝ) (res : List ℕ) : List (Spacing ℝ) :=
  List.zipWith (fun (s : Spacing ℝ) r => s.map (downsampleSpacing · r)) data.spacing res

/-- A level that lies on a lattice over the domain of the samples. Its stiffness is positive if the
lattice has interior nodes, and zero if not. -/
structure Level.IsLaidOn (level : Level ℝ) (data : Prepared ℝ) (res : List ℕ) : Prop where
  res_eq : level.res = res
  low : level.low = data.low
  width : level.width = Grid.cellWidths data.low data.high res
  spacing : level.spacing = data.spacingOn res
  x : level.x.size = size res
  stiff : (∀ r ∈ res, 3 ≤ r) → ∀ w ∈ level.stiffness, 0 < w
  slack : (∃ r ∈ res, r < 3) → ∀ w ∈ level.stiffness, w = 0

theorem Level.IsLaidOn.size_x {level : Level ℝ} {data : Prepared ℝ} {res : List ℕ}
    (h : level.IsLaidOn data res) : level.x.size = size level.res := by
  rw [h.x, h.res_eq]

/-- The cells of the samples on a lattice. -/
noncomputable def Prepared.cellsOn (data : Prepared ℝ) (res : List ℕ) : List (Cell ℝ) :=
  (data.samples.map (·.position)).map
    (Cell.ofPoint res data.low (Grid.cellWidths data.low data.high res))

/-- A level before its equations are set up. -/
noncomputable def Level.fresh (data : Prepared ℝ) (res : List ℕ) (channel : ℕ)
    (stiffness : List ℝ) (interpolation : SparseMatrix ℝ) : Level ℝ where
  res
  channel
  low := data.low
  high := data.high
  width := Grid.cellWidths data.low data.high res
  spacing := data.spacingOn res
  stiffness
  bases := (data.cellsOn res).map (·.base)
  cornerWeights := (data.cellsOn res).map fun c => GridSpline.cornerWeights c.fraction
  cornerOffsets := GridSpline.cornerOffsets ((strides res).map Int.ofNat)
  interpolation
  ccv := none
  matrix := none
  rhs := Array.replicate (size res) 0
  x := Array.replicate (size res) 0
  scale := minScale

theorem length_downsampleSpacing (spacing : List ℝ) (count : ℕ) :
    (downsampleSpacing spacing count).length = count := by
  unfold downsampleSpacing
  rw [List.length_map, List.length_range]

theorem forall₂_spacingOn {data : Prepared ℝ} {res : List ℕ}
    (h : data.spacing.length = res.length) :
    List.Forall₂ (fun (s : Spacing ℝ) r => ∀ l, s = some l → l.length = r)
      (data.spacingOn res) res := by
  refine List.forall₂_iff_get.mpr ⟨?_, ?_⟩
  · unfold Prepared.spacingOn
    rw [List.length_zipWith, h, min_self]
  · intro i h1 h2 l hl
    simp only [Prepared.spacingOn, List.get_eq_getElem, List.getElem_zipWith,
      Option.map_eq_some_iff] at hl
    obtain ⟨spacing, -, rfl⟩ := hl
    exact length_downsampleSpacing spacing _

namespace Prepared.IsValid

variable {data : Prepared ℝ} (h : data.IsValid) {res : List ℕ}
  (hlen : res.length = data.res.length)

include h hlen

theorem ne_nil : res ≠ [] := fun hnil => h.axes (by
  rw [← List.length_eq_zero_iff, ← hlen, hnil]
  rfl)

theorem length_low : data.low.length = res.length := h.low.trans hlen.symm

theorem length_high : data.high.length = res.length :=
  h.bounds.length_eq.symm.trans (h.length_low hlen)

theorem length_width : (Grid.cellWidths data.low data.high res).length = res.length :=
  Grid.length_cellWidths (h.length_low hlen) (h.length_high hlen)

theorem length_position {s : Sample ℝ} (hs : s ∈ data.samples) :
    s.position.length = res.length := (h.inside s hs).length_low.trans (h.length_low hlen)

/-- All samples are located. -/
theorem locate?_eq : Cell.locate? res data.low data.high (Grid.cellWidths data.low data.high res)
    { columns := data.res.length, rows := data.samples.map (·.position) } =
      .ok (data.cellsOn res) := by
  refine Cell.locate?_eq (h.ne_nil hlen) (h.length_low hlen) (h.length_high hlen)
    (h.length_width hlen) hlen.symm fun p hp => ?_
  obtain ⟨s, hs, rfl⟩ := List.mem_map.mp hp
  exact h.inside s hs

/-- The cells of the samples, which hold them, have a matrix. -/
theorem exists_interpolation (hres : ∀ r ∈ res, 2 ≤ r) : ∃ W, interpolationMatrix?
    ((data.cellsOn res).map (·.base))
    ((data.cellsOn res).map fun c => cornerWeights c.fraction).flatten
    (cornerOffsets ((strides res).map Int.ofNat)) (size res) = .ok W := by
  have hholds : List.Forall₂ (Cell.Holds res) ((data.samples.map (·.position)).map
      (Cell.placeAt data.low (Grid.cellWidths data.low data.high res))) (data.cellsOn res) := by
    unfold Prepared.cellsOn
    rw [List.forall₂_map_left_iff, List.forall₂_map_right_iff, List.forall₂_same]
    intro p hp
    obtain ⟨s, hs, rfl⟩ := List.mem_map.mp hp
    exact Cell.holds_ofPlace hres
      (Grid.forall₂_placeAt h.bounds (h.length_low hlen) hres (h.inside s hs))
  obtain ⟨W, hW, -, -⟩ := exists_cellMatrix? (h.ne_nil hlen) hholds
  exact ⟨W, hW⟩

end Prepared.IsValid

namespace Fit.IsReady

variable {fit : Fit ℝ} {data : Prepared ℝ} (h : fit.IsReady data)

include h

section Fresh

variable {res : List ℕ} (hlen : res.length = data.res.length) (hres : ∀ r ∈ res, 2 ≤ r)
  {channel : ℕ} (hc : channel < data.channels) {stiffness : List ℝ} {W : SparseMatrix ℝ}
  (hW : interpolationMatrix? ((data.cellsOn res).map (·.base))
    ((data.cellsOn res).map fun c => cornerWeights c.fraction).flatten
    (cornerOffsets ((strides res).map Int.ofNat)) (size res) = .ok W)

include hlen hW

/-- What a level is made of. -/
theorem make?_eq_fresh {secondPass : Bool}
    (hstiffness : stiffnessWeights? fit res channel secondPass = .ok stiffness) :
    Level.make? fit res channel secondPass = .ok (Level.fresh data res channel stiffness W) := by
  have hne := h.valid.ne_nil hlen
  have hwidth := Grid.cellWidths?_eq (h.valid.length_low hlen) (h.valid.length_high hlen)
  obtain ⟨g, hfinal, -, hglow, hghigh, hgspacing⟩ := h.exists_grid?
  have hmean : (meanResolution? (scalars res) : Except (Failure ℝ) ℝ) =
      .ok (meanResolution (scalars res)) := by
    unfold meanResolution?
    rw [if_neg (by simpa [scalars] using hne)]
    rfl
  unfold Level.make?
  rw [hfinal, ok_bind, hglow, hghigh, hwidth, require_some, ok_bind, hmean, hstiffness,
    h.prepared?_eq]
  simp only [ok_bind]
  rw [h.valid.locate?_eq hlen, ok_bind, hW, hgspacing]
  rfl

include hres hc

/-- A level is posed when it is made. -/
theorem isPosed_fresh (hcount : stiffness.length = res.length) :
    (Level.fresh data res channel stiffness W).IsPosed fit data channel := by
  have hspacing : data.spacing.length = res.length := h.valid.spacing.length_eq.trans hlen.symm
  refine ⟨h.prepared, rfl, h.valid.ne_nil hlen, hres, h.valid.length_low hlen,
    h.valid.length_width hlen, fun s hs => h.valid.length_position hlen hs, fun s hs => ?_,
    fun s hs => ?_, ?_, ⟨hcount, forall₂_spacingOn hspacing, ?_⟩, fun f hf => ?_, ?_, ?_, rfl, hW⟩
  · rwa [h.valid.weights s hs]
  · rwa [h.valid.targets s hs]
  · rwa [h.valid.range]
  · intro parts hparts
    cases hparts
  · obtain ⟨w, hw, -⟩ := h.weak
    exact ⟨hlen ▸ h.weakFunction f hf channel hc, _, hw⟩
  · show (data.cellsOn res).map (·.base) = _
    unfold Prepared.cellsOn
    rw [List.map_map, List.map_map]
    rfl
  · show ((data.cellsOn res).map fun c => cornerWeights c.fraction) = _
    unfold Prepared.cellsOn
    rw [List.map_map, List.map_map]
    rfl

end Fresh

/-- A level is made, and it is posed. -/
theorem exists_make? {res : List ℕ} (hlen : res.length = data.res.length) (hres : ∀ r ∈ res, 2 ≤ r)
    {channel : ℕ} (hc : channel < data.channels) (secondPass : Bool) :
    ∃ level, Level.make? fit res channel secondPass = .ok level ∧
      level.IsPosed fit data channel ∧ level.IsLaidOn data res ∧ level.ccv = none := by
  obtain ⟨stiffness, hstiffness, hcount, hstiff, hslack⟩ :=
    h.exists_stiffnessWeights? hres hc secondPass
  obtain ⟨W, hW⟩ := h.valid.exists_interpolation hlen hres
  exact ⟨Level.fresh data res channel stiffness W, h.make?_eq_fresh hlen hW hstiffness,
    h.isPosed_fresh hlen hres hc hW hcount,
    ⟨rfl, rfl, rfl, rfl, Array.size_replicate, hstiff, hslack⟩, rfl⟩

/-- With samples none of the squares of a level counts negatively. -/
theorem isWeighted {level : Level ℝ} {res : List ℕ} {channel : ℕ}
    (hlaid : level.IsLaidOn data res) (hc : channel < data.channels) (hne : data.samples ≠ []) :
    level.IsWeighted fit data channel := by
  refine ⟨?_, ?_, ?_⟩
  · intro s hs
    have hlt : channel < s.weights.length := by rwa [h.valid.weights s hs]
    unfold Sample.weightIn
    rw [List.getD_eq_getElem _ _ hlt]
    exact h.valid.weights_pos s hs _ (List.getElem_mem hlt)
  · intro w hw
    have hlt : channel < data.valueRange.length := by rwa [h.valid.range]
    have hrange : 0 ≤ data.rangeOf channel := by
      unfold Prepared.rangeOf
      rw [List.getD_eq_getElem _ _ hlt]
      exact h.valid.range_nonneg hne _ (List.getElem_mem hlt)
    by_cases hall : ∀ r ∈ res, 3 ≤ r
    · exact mul_nonneg (hlaid.stiff hall w hw).le hrange
    · push Not at hall
      rw [hlaid.slack hall w hw, zero_mul]
  · intro w hw
    obtain ⟨v, hv, h0⟩ := h.weak
    rw [hv, Option.some.injEq] at hw
    subst hw
    exact h0

end Fit.IsReady

/-! ## Captured curvature -/

namespace Level.IsPosed

variable {level : Level ℝ} {fit : Fit ℝ} {data : Prepared ℝ} {channel : ℕ}

/-- A level stays posed when it is drawn to a curvature that has a value for every axis and node. -/
theorem withCurvature (h : level.IsPosed fit data channel) {ccv : Curvature ℝ}
    (hlen : ccv.length = level.res.length) (hsize : ∀ p ∈ ccv, p.size = size level.res) :
    ({ level with ccv := some ccv } : Level ℝ).IsPosed fit data channel := by
  refine { h with stiffness := ⟨h.stiffness.weights, h.stiffness.spacing, fun parts hparts => ?_⟩ }
  cases hparts
  exact ⟨hlen, hsize⟩

end Level.IsPosed

/-! ## Samples -/

namespace Level.IsPosed

variable {level : Level ℝ} {fit : Fit ℝ} {data : Prepared ℝ} {channel : ℕ} {res : List ℕ}
  (h : level.IsPosed fit data channel) (hlaid : level.IsLaidOn data res) (hvalid : data.IsValid)
  {s : Sample ℝ} (hs : s ∈ data.samples)

include h hlaid hvalid hs

/-- The place of a sample, measured in cells, is on the lattice. -/
theorem forall₂_placeAt : List.Forall₂ (fun (t : ℝ) (r : ℕ) => 0 ≤ t ∧ t ≤ (r : ℝ) - 1)
    (Cell.placeAt level.low level.width s.position) level.res := by
  rw [hlaid.low, hlaid.width, ← hlaid.res_eq]
  exact Grid.forall₂_placeAt hvalid.bounds (hlaid.low ▸ h.low) h.resolutions (hvalid.inside s hs)

/-- Every node has its share in the value at a sample. -/
theorem form_sampleSquare_apply (i : Fin (size level.res)) :
    (level.sampleSquare channel s).form (size level.res) i =
      share level.res (Cell.placeAt level.low level.width s.position) i := by
  unfold Residual.form sampleSquare sampleResidual cellOf
  simp only
  rw [h.cornerOffsets]
  exact Cell.combination_ofPoint h.resolutions (h.forall₂_placeAt hlaid hvalid hs) h.axes i.isLt

end Level.IsPosed

end GridSpline
