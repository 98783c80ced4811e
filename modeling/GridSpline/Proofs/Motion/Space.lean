import Mathlib
import GridSpline.Proofs.Grid.Width
import GridSpline.Proofs.Motion.Equations

/-!
# Motions of the input space

The axes of the input space are put in another order, and along each of them the coordinates are
stretched and shifted. A negative factor reverses the axis, so the bounds along it change their
roles. A grid over the moved bounds has its nodes where those of the grid over the given bounds are
moved to, and a moved point lies at the same place among them, seen from the other end where an axis
is reversed.

## Main definitions

* `Motion` — a motion of the input space.
* `Motion.point`, `Motion.back` — where a point goes, and where it came from.
* `Motion.interval` — where the bounds along an axis go.
* `Motion.rearrangement` — what it does to a lattice.

## Main statements

* `back_point` — every point can be brought back.
* `moves_placeAt` — the place of a moved point.
* `moves_nodePosition` — the positions of the nodes.
-/

namespace GridSpline

open GridSpline.Lattice

/-- A motion of the input space: every axis goes to a place among the axes, and its coordinates are
stretched by a factor and shifted. -/
structure Motion where
  axis : Equiv.Perm ℕ
  factor : ℕ → ℝ
  shift : ℕ → ℝ
  factor_ne : ∀ e, factor e ≠ 0

namespace Motion

variable (v : Motion)

/-- Where a coordinate along an axis goes. -/
noncomputable def coordinate (e : ℕ) (x : ℝ) : ℝ := v.factor e * x + v.shift e

/-- Where a coordinate along an axis came from. -/
noncomputable def origin (e : ℕ) (x : ℝ) : ℝ := (x - v.shift e) / v.factor e

/-- Where a point goes. -/
noncomputable def point (p : List ℝ) : List ℝ := moved v.axis v.coordinate p

/-- Where a point came from. -/
noncomputable def back (p : List ℝ) : List ℝ :=
  moved v.axis.symm (fun e => v.origin (v.axis.symm e)) p

/-- Where the bounds along an axis go. -/
noncomputable def interval (e : ℕ) (b : ℝ × ℝ) : ℝ × ℝ :=
  if v.factor e < 0 then (v.coordinate e b.2, v.coordinate e b.1)
  else (v.coordinate e b.1, v.coordinate e b.2)

/-- What it does to a lattice: axes with a negative factor are reversed. -/
noncomputable def rearrangement : Rearrangement where
  axis := v.axis
  reversed e := decide (v.factor e < 0)

theorem factor_neg_or_pos (e : ℕ) : v.factor e < 0 ∨ 0 < v.factor e :=
  lt_or_gt_of_ne (v.factor_ne e)

@[simp] theorem origin_coordinate (e : ℕ) (x : ℝ) : v.origin e (v.coordinate e x) = x := by
  unfold origin coordinate
  rw [add_sub_cancel_right, mul_div_cancel_left₀ _ (v.factor_ne e)]

theorem length_point (p : List ℝ) : (v.point p).length = p.length := by
  unfold point moved
  rw [List.length_map, List.length_range]

theorem length_back (p : List ℝ) : (v.back p).length = p.length := by
  unfold back moved
  rw [List.length_map, List.length_range]

theorem moves_point {p : List ℝ} (h : Permutes v.axis p.length) :
    Moves v.axis v.coordinate p (v.point p) := moves_moved _ h

/-- Every point can be brought back. -/
theorem back_point {p : List ℝ} (h : Permutes v.axis p.length) : v.back (v.point p) = p := by
  have hthere := v.moves_point h
  have hback : Moves v.axis.symm (fun e => v.origin (v.axis.symm e)) (v.point p)
      (v.back (v.point p)) := moves_moved _ (by rw [v.length_point]; exact h.symm)
  refine List.ext_getElem? fun e => ?_
  have hentry := hback (v.axis e)
  rw [Equiv.symm_apply_apply, hthere e, Option.map_map] at hentry
  rw [hentry]
  cases p[e]? with
  | none => rfl
  | some x => simp

/-! ## Along one axis -/

/-- Bounds in order stay in order. -/
theorem interval_lt {e : ℕ} {b : ℝ × ℝ} (h : b.1 < b.2) :
    (v.interval e b).1 < (v.interval e b).2 := by
  unfold interval coordinate
  rcases v.factor_neg_or_pos e with hneg | hpos
  · rw [if_pos hneg]
    have := mul_lt_mul_of_neg_left h hneg
    simp only
    linarith
  · rw [if_neg hpos.not_gt]
    have := mul_lt_mul_of_pos_left h hpos
    simp only
    linarith

end Motion

namespace Grid

/-- The position of a node between two bounds that divide an axis evenly. -/
noncomputable def nodeBetween (b : ℝ × ℝ) (count coord : ℕ) : ℝ :=
  b.1 + coord * ((b.2 - b.1) / ((count : ℝ) - 1))

/-- The place of a position between two bounds, measured in cells. -/
noncomputable def placeBetween (b : ℝ × ℝ) (count : ℕ) (x : ℝ) : ℝ :=
  (x - b.1) / ((b.2 - b.1) / ((count : ℝ) - 1))

section Axes

variable {low high : List ℝ} {res : List ℕ} (hlow : low.length = res.length)
  (hhigh : high.length = res.length)

include hlow hhigh

/-- The positions of the nodes, axis by axis. -/
theorem nodePosition_eq {coords : List ℕ} (hcoords : coords.length = res.length) :
    List.zipWith (· + ·) low (List.zipWith (fun (c : ℕ) w => (c : ℝ) * w) coords
        (cellWidths low high res)) =
      List.zipWith (fun c (q : (ℝ × ℝ) × ℕ) => nodeBetween q.1 q.2 c) coords
        ((low.zip high).zip res) := by
  refine List.ext_getElem ?_ fun e h1 h2 => ?_
  · simp only [List.length_zipWith, List.length_zip, length_cellWidths hlow hhigh, hlow, hhigh,
      hcoords, min_self]
  · simp only [cellWidths, nodeBetween, List.getElem_zipWith, List.getElem_zip]

/-- The place of a point, axis by axis. -/
theorem placeAt_eq {point : List ℝ} (hpoint : point.length = res.length) :
    Cell.placeAt low (cellWidths low high res) point =
      List.zipWith (fun x (q : (ℝ × ℝ) × ℕ) => placeBetween q.1 q.2 x) point
        ((low.zip high).zip res) := by
  refine List.ext_getElem ?_ fun e h1 h2 => ?_
  · simp only [Cell.placeAt, List.length_zipWith, List.length_zip, length_cellWidths hlow hhigh,
      hlow, hhigh, hpoint, min_self]
  · simp only [Cell.placeAt, cellWidths, placeBetween, List.getElem_zipWith, List.getElem_zip]

end Axes

end Grid

namespace Motion

variable (v : Motion)

/-- A node of the moved bounds is where that of the given bounds went. -/
theorem nodeBetween_interval (e : ℕ) (b : ℝ × ℝ) {count c : ℕ} (hcount : 2 ≤ count)
    (hc : c < count) : Grid.nodeBetween (v.interval e b) count (v.rearrangement.turn e count c) =
      v.coordinate e (Grid.nodeBetween b count c) := by
  have hlast : (count : ℝ) - 1 ≠ 0 := by
    have : (2 : ℝ) ≤ count := by exact_mod_cast hcount
    linarith
  unfold Grid.nodeBetween interval coordinate Rearrangement.turn rearrangement
  by_cases hneg : v.factor e < 0
  · simp only [hneg, decide_true, if_true]
    rw [Nat.cast_sub (by omega), Nat.cast_sub (by omega), Nat.cast_one]
    field_simp
    ring
  · simp only [hneg, decide_false, Bool.false_eq_true, if_false]
    ring

/-- A moved position lies at the same place between the moved bounds. -/
theorem placeBetween_interval (e : ℕ) {b : ℝ × ℝ} (hb : b.1 < b.2) {count : ℕ}
    (hcount : 2 ≤ count) (x : ℝ) :
    Grid.placeBetween (v.interval e b) count (v.coordinate e x) =
      if v.rearrangement.reversed e then (count : ℝ) - 1 - Grid.placeBetween b count x
      else Grid.placeBetween b count x := by
  have hlast : (count : ℝ) - 1 ≠ 0 := by
    have : (2 : ℝ) ≤ count := by exact_mod_cast hcount
    linarith
  have hextent : b.2 - b.1 ≠ 0 := (sub_pos.mpr hb).ne'
  have hfactor := v.factor_ne e
  unfold Grid.placeBetween interval coordinate rearrangement
  by_cases hneg : v.factor e < 0
  · have hmoved : v.factor e * b.1 + v.shift e - (v.factor e * b.2 + v.shift e) ≠ 0 := by
      have hprod := mul_ne_zero hfactor hextent
      intro h0
      apply hprod
      linarith
    simp only [hneg, decide_true, if_true]
    field_simp
    ring
  · have hmoved : v.factor e * b.2 + v.shift e - (v.factor e * b.1 + v.shift e) ≠ 0 := by
      have hprod := mul_ne_zero hfactor hextent
      intro h0
      apply hprod
      linarith
    simp only [hneg, decide_false, Bool.false_eq_true, if_false]
    field_simp
    ring

/-! ## Along all axes -/

section Axes

variable {v} {low high low' high' : List ℝ} {res res' : List ℕ}
  (h : v.rearrangement.Relates res res')
  (hbounds : Moves v.axis v.interval (low.zip high) (low'.zip high'))
  (hlow : low.length = res.length) (hhigh : high.length = res.length)
  (hlow' : low'.length = res'.length) (hhigh' : high'.length = res'.length)

include h hbounds hlow hhigh hlow' hhigh'

/-- The positions of the nodes. -/
theorem moves_nodePosition (i : ℕ) : Moves v.axis v.coordinate
    (List.zipWith (· + ·) low (List.zipWith (fun (c : ℕ) w => (c : ℝ) * w) (coordsOf res i)
      (Grid.cellWidths low high res)))
    (List.zipWith (· + ·) low' (List.zipWith (fun (c : ℕ) w => (c : ℝ) * w)
      (coordsOf res' (v.rearrangement.nodeOn res res' i)) (Grid.cellWidths low' high' res'))) := by
  rw [Grid.nodePosition_eq hlow hhigh (length_coordsOf res i),
    Grid.nodePosition_eq hlow' hhigh' (length_coordsOf res' _)]
  refine (h.moves_coordsOf i).zipWith (hbounds.zip h.resolutions) fun e c q hc hq => ?_
  obtain ⟨he, rfl⟩ := List.getElem?_eq_some_iff.mp hc
  obtain ⟨he', rfl⟩ := List.getElem?_eq_some_iff.mp hq
  have her : e < res.length := by rwa [length_coordsOf] at he
  have hlt := (within_iff.mp (within_coordsOf h.pos i)).get he her
  simp only [List.getElem_zip, List.get_eq_getElem] at hlt ⊢
  unfold Rearrangement.turnOn
  rw [List.getD_eq_getElem _ _ her]
  exact v.nodeBetween_interval e _ (h.two_le _ (List.getElem_mem her)) hlt

/-- The place of a moved point. -/
theorem moves_placeAt (hlt : ∀ b ∈ low.zip high, b.1 < b.2) {p : List ℝ}
    (hp : p.length = res.length) :
    Moves v.axis (v.rearrangement.turnPlace res) (Cell.placeAt low (Grid.cellWidths low high res) p)
      (Cell.placeAt low' (Grid.cellWidths low' high' res') (v.point p)) := by
  have hp' : (v.point p).length = res'.length := by rw [v.length_point, hp, h.length_eq]
  have hpermutes : Permutes v.axis p.length := hp ▸ h.permutes
  rw [Grid.placeAt_eq hlow hhigh hp, Grid.placeAt_eq hlow' hhigh' hp']
  refine (v.moves_point hpermutes).zipWith (hbounds.zip h.resolutions) fun e x q _ hq => ?_
  obtain ⟨he, rfl⟩ := List.getElem?_eq_some_iff.mp hq
  have her : e < res.length := by
    rw [List.length_zip] at he
    omega
  have heb : e < (low.zip high).length := by
    rw [List.length_zip] at he
    omega
  simp only [List.getElem_zip]
  unfold Rearrangement.turnPlace
  rw [List.getD_eq_getElem _ _ her]
  refine v.placeBetween_interval e ?_ (h.two_le _ (List.getElem_mem her)) x
  have hin := hlt _ (List.getElem_mem heb)
  rwa [List.getElem_zip] at hin

end Axes

end Motion

end GridSpline
