import Mathlib
import GridSpline.Grid.Basic
import GridSpline.Proofs.Interpolation.Cell

/-!
# Cells of a box

The cells of a box between two bounds have a width along every axis, whatever the resolution, and a
point of the box lies between the first and the last node when its place is measured in cells.

## Main statements

* `cellWidths?_eq` — the widths of the cells.
* `positionAt?_eq` — the position of a node.
* `forall₂_placeAt` — the place of a point of the box.
-/

namespace GridSpline

open Scalar

namespace Grid

variable {low high : List ℝ} {res : List ℕ}

/-- The width of a cell along each axis. -/
noncomputable def cellWidths (low high : List ℝ) (res : List ℕ) : List ℝ :=
  List.zipWith (fun extent (r : ℕ) => extent / ((r : ℝ) - 1))
    (List.zipWith (fun h l => h - l) high low) res

theorem length_cellWidths (hlow : low.length = res.length) (hhigh : high.length = res.length) :
    (cellWidths low high res).length = res.length := by
  unfold cellWidths
  rw [List.length_zipWith, List.length_zipWith, hlow, hhigh, min_self, min_self]

/-- The widths of the cells. -/
theorem cellWidths?_eq (hlow : low.length = res.length) (hhigh : high.length = res.length) :
    cellWidths? low high res = some (cellWidths low high res) := by
  have hextent : (List.zipWith (fun h l => h - l) high low).length = res.length := by
    rw [List.length_zipWith, hlow, hhigh, min_self]
  unfold cellWidths?
  rw [zipStretch?_of_length _ (hhigh.trans hlow.symm), Option.bind_eq_bind, Option.bind_some,
    zipStretch?_of_length _ hextent]
  rfl

/-- The position of a node. -/
theorem positionAt?_eq {width : List ℝ} {coords : List ℕ} (hlow : low.length = width.length)
    (hcoords : coords.length = width.length) : positionAt? low width coords =
      some (List.zipWith (· + ·) low (List.zipWith (fun (c : ℕ) w => (c : ℝ) * w) coords width)) := by
  unfold positionAt?
  rw [zipStretch?_of_length _ hcoords, Option.bind_eq_bind, Option.bind_some]
  refine zipStretch?_of_length _ ?_
  rw [List.length_zipWith, hcoords, min_self, hlow]

/-- The place of a point of the box. -/
theorem forall₂_placeAt {point : List ℝ} (hbounds : List.Forall₂ (· < ·) low high)
    (hlow : low.length = res.length) (hres : ∀ r ∈ res, 2 ≤ r) (hin : InBox low high point) :
    List.Forall₂ (fun (t : ℝ) (r : ℕ) => 0 ≤ t ∧ t ≤ (r : ℝ) - 1)
      (Cell.placeAt low (cellWidths low high res) point) res := by
  have hhigh : high.length = res.length := hbounds.length_eq.symm.trans hlow
  have hpoint : point.length = res.length := hin.length_low.trans hlow
  refine List.forall₂_iff_get.mpr ⟨Cell.length_placeAt hlow (length_cellWidths hlow hhigh) hpoint,
    fun e h1 h2 => ?_⟩
  have hlt := hbounds.get (i := e) (by omega) (by omega)
  have hbelow := hin.1.get (i := e) (by omega) (by omega)
  have habove := hin.2.get (i := e) (by omega) (by omega)
  have hr : (2 : ℝ) ≤ res[e] := by exact_mod_cast hres _ (List.getElem_mem h2)
  simp only [List.get_eq_getElem] at hlt hbelow habove
  simp only [Cell.placeAt, cellWidths, List.get_eq_getElem, List.getElem_zipWith]
  have hwidth : 0 < (high[e] - low[e]) / ((res[e] : ℝ) - 1) :=
    div_pos (sub_pos.mpr hlt) (by linarith)
  constructor
  · exact div_nonneg (sub_nonneg.mpr hbelow) hwidth.le
  · rw [div_le_iff₀ hwidth, mul_div_cancel₀ _ (by linarith)]
    linarith

end Grid

end GridSpline
