import Mathlib
import GridSpline.Interpolation.Cell
import GridSpline.Proofs.Interpolation.Corner
import GridSpline.Proofs.Real
import GridSpline.Proofs.Result

/-!
# Locating points

A point between the bounds has a cell, whatever rounding does to its place: the number of the cell
is clamped to those that exist along every axis. So locating a table of points fails only for a
point that is outside the bounds.

## Main definitions

* `InBox` — a point between two bounds; `IsWithin`, one that is not outside, for any scalars.
* `Cell.coordsAt`, `Cell.ofPoint` — the coordinates of the lowest node of the cell of a point, and
  the cell.
* `Cell.ofPlace` — the cell of a place.

## Main statements

* `Cell.isCellCoords_coordsAt` — those coordinates belong to a cell of the lattice.
* `Cell.locate?_eq` — points between the bounds are located.
-/

namespace GridSpline

open Scalar Failure
open GridSpline.Lattice

/-- A point between the bounds along every axis. -/
def InBox (low high point : List ℝ) : Prop :=
  List.Forall₂ (· ≤ ·) low point ∧ List.Forall₂ (· ≤ ·) point high

/-- A point that is outside the bounds along no axis. What is no number is not outside. -/
def IsWithin {α : Type} [Scalar α] (low high point : List α) : Prop :=
  List.Forall₂ (fun l x => ¬x < l) low point ∧ List.Forall₂ (fun x h => ¬h < x) point high

theorem isWithin_iff_inBox {low high point : List ℝ} :
    IsWithin low high point ↔ InBox low high point := by
  simp only [IsWithin, InBox, not_lt]

theorem InBox.isWithin {low high point : List ℝ} (h : InBox low high point) :
    IsWithin low high point := isWithin_iff_inBox.mpr h

theorem InBox.length_low {low high point : List ℝ} (h : InBox low high point) :
    point.length = low.length := h.1.length_eq.symm

/-- The number of a cell is one of those along the axis. -/
theorem cellNumber_bounds (t : ℝ) {r : ℕ} (hr : 2 ≤ r) :
    0 ≤ cellNumber t r ∧ cellNumber t r + 2 ≤ r := by
  unfold cellNumber
  omega

namespace Cell

variable {res : List ℕ} {low high width point : List ℝ}

/-! ## One point -/

/-- The place of a point, measured in cells. -/
noncomputable def placeAt (low width point : List ℝ) : List ℝ :=
  List.zipWith (· / ·) (List.zipWith (· - ·) point low) width

/-- The coordinates of the lowest node of the cell of a point. -/
noncomputable def coordsAt (res : List ℕ) (low width point : List ℝ) : List ℤ :=
  List.zipWith cellNumber (placeAt low width point) res

/-- The cell of a place that is measured in cells. -/
noncomputable def ofPlace (res : List ℕ) (place : List ℝ) : Cell ℝ where
  base := stepOffset res (List.zipWith cellNumber place res)
  fraction := List.zipWith (fun t (n : ℤ) => t - (n : ℝ)) place (List.zipWith cellNumber place res)

/-- The cell of a point. -/
noncomputable def ofPoint (res : List ℕ) (low width point : List ℝ) : Cell ℝ where
  base := stepOffset res (coordsAt res low width point)
  fraction := List.zipWith (fun t (n : ℤ) => t - (n : ℝ)) (placeAt low width point)
    (coordsAt res low width point)

section Places

variable {place : List ℝ} (hplace : place.length = res.length)

include hplace

/-- The cell of a place belongs to the lattice. -/
theorem isCellCoords_zipWith_cellNumber (hres : ∀ r ∈ res, 2 ≤ r) :
    IsCellCoords res (List.zipWith cellNumber place res) := by
  refine List.forall₂_iff_get.mpr ⟨by rw [List.length_zipWith, hplace, min_self], ?_⟩
  intro i h1 h2
  simp only [List.get_eq_getElem, List.getElem_zipWith]
  exact cellNumber_bounds _ (hres _ (List.getElem_mem h2))

theorem length_fraction_ofPlace : (Cell.ofPlace res place).fraction.length = res.length := by
  show (List.zipWith _ _ _).length = _
  rw [List.length_zipWith, List.length_zipWith, hplace, min_self, min_self]

theorem ofPlace?_eq (hne : res ≠ []) : ofPlace? res place = some (Cell.ofPlace res place) := by
  have hnumbers : (List.zipWith cellNumber place res).length = res.length := by
    rw [List.length_zipWith, hplace, min_self]
  have hfraction := zipStretch?_of_length (fun t (n : ℤ) => t - (n : ℝ))
    (hplace.trans hnumbers.symm)
  unfold ofPlace?
  rw [zipStretch?_of_length _ hplace, Option.bind_eq_bind, Option.bind_some,
    if_neg (by rw [hnumbers, length_strides hne]; simp), hfraction]
  rfl

end Places

section Lengths

variable (hlow : low.length = res.length) (hwidth : width.length = res.length)
  (hpoint : point.length = res.length)

include hlow hwidth hpoint

theorem length_placeAt : (placeAt low width point).length = res.length := by
  unfold placeAt
  rw [List.length_zipWith, List.length_zipWith, hpoint, hlow, hwidth, min_self, min_self]

theorem length_coordsAt : (coordsAt res low width point).length = res.length := by
  unfold coordsAt
  rw [List.length_zipWith, length_placeAt hlow hwidth hpoint, min_self]

/-- There is a share along every axis. -/
theorem length_fraction_ofPoint :
    (Cell.ofPoint res low width point).fraction.length = res.length := by
  show (List.zipWith _ _ _).length = _
  rw [List.length_zipWith, length_placeAt hlow hwidth hpoint, length_coordsAt hlow hwidth hpoint,
    min_self]

/-- The cell of a point belongs to the lattice. -/
theorem isCellCoords_coordsAt (hres : ∀ r ∈ res, 2 ≤ r) :
    IsCellCoords res (coordsAt res low width point) :=
  isCellCoords_zipWith_cellNumber (length_placeAt hlow hwidth hpoint) hres

theorem ofPoint?_eq (hne : res ≠ []) :
    ofPoint? res low width point = some (Cell.ofPoint res low width point) := by
  have hdiff : (List.zipWith (· - ·) point low).length = width.length := by
    rw [List.length_zipWith, hpoint, hlow, hwidth, min_self]
  unfold ofPoint?
  rw [zipStretch?_of_length _ (hpoint.trans hlow.symm), Option.bind_eq_bind, Option.bind_some,
    zipStretch?_of_length _ hdiff, Option.bind_some]
  exact ofPlace?_eq (length_placeAt hlow hwidth hpoint) hne

end Lengths

/-! ## Tables of points -/

section Within

variable {α : Type} [Scalar α] {low high point : List α}

theorem outside?_of_length (hlow : point.length = low.length) (hhigh : point.length = high.length) :
    outside? low high point = some (List.zipWith (· || ·)
      (List.zipWith (fun p l => decide (p < l)) point low)
      (List.zipWith (fun p h => decide (h < p)) point high)) := by
  unfold outside?
  rw [zipStretch?_of_length _ hlow, Option.bind_eq_bind, Option.bind_some,
    zipStretch?_of_length _ hhigh, Option.bind_some,
    zipStretch?_of_length _ (by rw [List.length_zipWith, List.length_zipWith, ← hlow, ← hhigh])]

/-- A point within the bounds is outside along no axis. -/
theorem findIdx?_outside_eq_none (h : IsWithin low high point) :
    (List.zipWith (· || ·) (List.zipWith (fun p l => decide (p < l)) point low)
      (List.zipWith (fun p h => decide (h < p)) point high)).findIdx? id = none := by
  rw [List.findIdx?_eq_none_iff]
  intro b hb
  obtain ⟨i, hi, rfl⟩ := List.mem_iff_getElem.mp hb
  simp only [List.length_zipWith, lt_min_iff] at hi
  have hlow := h.1.get (i := i) hi.1.2 hi.1.1
  have hhigh := h.2.get (i := i) hi.2.1 hi.2.2
  simp only [List.get_eq_getElem] at hlow hhigh
  simp [hlow, hhigh]

theorem refuseOutside_eq_ok {points : List (List α)} (h : ∀ p ∈ points, IsWithin low high p)
    (n : ℕ) : refuseOutside low high n points = .ok () := by
  induction points generalizing n with
  | nil => rfl
  | cons point rest ih =>
    have hp := h point List.mem_cons_self
    unfold refuseOutside
    rw [outside?_of_length hp.1.length_eq.symm hp.2.length_eq, require_some, ok_bind,
      findIdx?_outside_eq_none hp]
    exact ih (fun p hp => h p (List.mem_cons_of_mem point hp)) (n + 1)

end Within

/-- Points between the bounds are located, each in its cell. -/
theorem locate?_eq (hne : res ≠ []) (hlow : low.length = res.length)
    (hhigh : high.length = res.length) (hwidth : width.length = res.length)
    {points : SampleTable ℝ} (hcolumns : points.columns = res.length)
    (h : ∀ p ∈ points.rows, InBox low high p) :
    locate? res low high width points = .ok (points.rows.map (Cell.ofPoint res low width)) := by
  have horigin : (List.replicate points.columns (0 : ℝ)).length = res.length := by
    rw [List.length_replicate, hcolumns]
  unfold locate?
  simp only
  rw [outside?_of_length (horigin.trans hlow.symm) (horigin.trans hhigh.symm),
    refuseOutside_eq_ok fun p hp => (h p hp).isWithin, ofPoint?_eq hlow hwidth horigin hne]
  have hcells : points.rows.mapM (fun point =>
      (require .shapeMismatch (ofPoint? res low width point) : Except (Failure ℝ) (Cell ℝ))) =
        .ok (points.rows.map (Cell.ofPoint res low width)) := by
    refine mapM_eq_ok_map ?_
    intro point hpoint
    have hlen := (h point hpoint).length_low.trans hlow
    rw [ofPoint?_eq hlow hwidth hlen hne, require_some]
  exact hcells

end Cell

end GridSpline
