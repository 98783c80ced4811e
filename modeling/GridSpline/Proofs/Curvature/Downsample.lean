import Mathlib
import GridSpline.Curvature.Downsample
import GridSpline.Proofs.Interpolation.Resample

/-!
# Carrying curvature to another lattice

A curvature with a value for every axis and node of one lattice becomes one of the other lattice:
its parts are carried over, and each is multiplied by the square of the ratio of the numbers of
cells.

## Main definitions

* `curvatureScales` — the factors along the axes.

## Main statements

* `downsample?_eq` — the curvature on the other lattice.
-/

namespace GridSpline

open Scalar Failure
open GridSpline.Lattice

theorem length_scaleResolutions (symmetric : Bool) (res : List ℝ) :
    (scaleResolutions symmetric res).length = res.length := by
  unfold scaleResolutions
  cases symmetric <;> simp

theorem length_latticeScales (symmetric : Bool) (res : List ℕ) :
    (latticeScales symmetric res : List ℝ).length = res.length := by
  unfold latticeScales
  rw [length_scaleResolutions, scalars, List.length_map]

theorem scaleResolutions?_scalars {res : List ℕ} (hne : res ≠ []) (symmetric : Bool) :
    (scaleResolutions? symmetric (scalars res) : Except (Failure ℝ) (List ℝ)) =
      .ok (latticeScales symmetric res) := by
  unfold scaleResolutions?
  rw [if_neg fun hempty => hne (by simpa [scalars] using hempty.2)]
  rfl

/-- The factors along the axes. -/
noncomputable def curvatureScales (source target : List ℕ) (symmetric : Bool) : List ℝ :=
  List.zipWith (fun s t => (s - 1) / (t - 1) * ((s - 1) / (t - 1)))
    (latticeScales symmetric source) (latticeScales symmetric target)

section Downsample

variable {source target : List ℕ} (hlen : source.length = target.length)
  (hne : source ≠ []) (symmetric : Bool)

include hlen in
theorem length_curvatureScales :
    (curvatureScales source target symmetric).length = source.length := by
  unfold curvatureScales
  rw [List.length_zipWith, length_latticeScales, length_latticeScales, hlen, min_self]

include hlen hne in
theorem curvatureScale?_eq :
    curvatureScale? (scalars source) (scalars target) symmetric =
      (.ok (curvatureScales source target symmetric) : Except (Failure ℝ) _) := by
  have htarget : target ≠ [] := by
    intro hnil
    rw [hnil, List.length_nil, List.length_eq_zero_iff] at hlen
    exact hne hlen
  unfold curvatureScale?
  rw [scaleResolutions?_scalars hne, ok_bind, scaleResolutions?_scalars htarget, ok_bind,
    zipStretch?_of_length _ (by rw [length_latticeScales, length_latticeScales, hlen]),
    require_some]
  rfl

/-- The curvature on the other lattice. -/
noncomputable def downsampled (source target : List ℕ) (symmetric : Bool) (ccv : Curvature ℝ) :
    Curvature ℝ :=
  List.zipWith (fun p s =>
    (arrayOf (size target) (carried source target (vectorOf (size source) p))).map (· * s)) ccv
    (curvatureScales source target symmetric)

include hlen in
theorem length_downsampled {ccv : Curvature ℝ} (haxes : ccv.length = source.length) :
    (downsampled source target symmetric ccv).length = target.length := by
  unfold downsampled
  rw [List.length_zipWith, haxes, length_curvatureScales hlen, min_self, hlen]

theorem size_of_mem_downsampled {ccv : Curvature ℝ} {p : Array ℝ}
    (hp : p ∈ downsampled source target symmetric ccv) : p.size = size target := by
  unfold downsampled at hp
  obtain ⟨i, hi, rfl⟩ := List.getElem_of_mem hp
  rw [List.getElem_zipWith, Array.size_map, size_arrayOf]

include hlen hne in
theorem downsample?_eq (hsource : ∀ r ∈ source, 2 ≤ r) (htarget : ∀ r ∈ target, 2 ≤ r)
    {ccv : Curvature ℝ} (haxes : ccv.length = source.length)
    (hsize : ∀ p ∈ ccv, p.size = size source) :
    downsample? source target symmetric ccv = .ok (downsampled source target symmetric ccv) := by
  unfold downsample? downsampled
  rw [curvatureScale?_eq hlen hne, ok_bind, resampleAll?_eq hlen hsource htarget hne hsize, ok_bind,
    zipStretch?_of_length _ (by rw [List.length_map, haxes, length_curvatureScales hlen]),
    require_some, List.zipWith_map_left]

end Downsample

end GridSpline
