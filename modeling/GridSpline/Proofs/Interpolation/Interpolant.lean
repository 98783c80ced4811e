import Mathlib
import GridSpline.Proofs.Grid.Width
import GridSpline.Proofs.Interpolation.Matrix
import GridSpline.Proofs.Interpolation.MultiAffine
import GridSpline.Proofs.Interpolation.Resample

/-!
# The interpolant of a grid

The interpolation matrix of a grid has a row for every point, and the entry of a row at a node is a
product of hats, one for each axis. It does not matter in which of the cells around it a point on
the border of a cell is located. So a row is a mean of the nodes around its point; at a node it is
that node alone, and it reproduces every multi-affine map of the position.

## Main definitions

* `cellMatrix?` — the interpolation matrix of cells.
* `Grid.Divides` — a grid whose nodes divide a box evenly. Without axes there would be no nodes to
  divide it.
* `Grid.nodeAt`, `Grid.placeOf` — the position of a node, and the place of a point.
* `Grid.Interpolates` — a matrix of the shares of the nodes at some points.

## Main statements

* `exists_cellMatrix?` — cells that hold some places have the matrix of the shares.
* `Grid.Divides.nodePositions?_eq`, `Grid.Divides.inBox_nodeAt` — the positions of the nodes, which
  are in the box.
* `Grid.Divides.placeOf_nodeAt` — the places of the nodes of another grid over the box.
* `Grid.Divides.exists_locate?_cellMatrix?` — points of the box are located, and have a matrix.
-/

namespace GridSpline

open Scalar Failure
open Matrix
open GridSpline.Lattice

/-! ## The matrix -/

/-- The interpolation matrix of cells. -/
def cellMatrix? {α : Type} [Scalar α] (res : List ℕ) (cells : List (Cell α)) :
    Except (Failure α) (SparseMatrix α) :=
  interpolationMatrix? (cells.map (·.base)) (cells.flatMap fun c => cornerWeights c.fraction)
    (cornerOffsets ((strides res).map Int.ofNat)) (size res)

/-- Cells that hold some places have the matrix of the shares. -/
theorem exists_cellMatrix? {res : List ℕ} (hne : res ≠ []) {places : List (List ℝ)}
    {cells : List (Cell ℝ)} (h : List.Forall₂ (Cell.Holds res) places cells) :
    ∃ W, cellMatrix? res cells = .ok W ∧ W.Tidy places.length (size res) ∧
      ∀ n (hn : n < places.length), ∀ i < size res, W.entry n i = share res places[n] i := by
  obtain ⟨rows, hrows⟩ : ∃ rows, rows = cells.map fun c => (c.base, cornerWeights c.fraction) :=
    ⟨_, rfl⟩
  have hheld : ∀ r ∈ rows, ∃ c place, r = (c.base, cornerWeights c.fraction) ∧
      Cell.Holds res place c := by
    intro r hr
    rw [hrows] at hr
    obtain ⟨c, hc, rfl⟩ := List.mem_map.mp hr
    obtain ⟨n, hn, rfl⟩ := List.mem_iff_getElem.mp hc
    exact ⟨_, _, rfl, h.get (h.length_eq ▸ hn) hn⟩
  have hweights : ∀ r ∈ rows,
      r.2.length = (cornerOffsets ((strides res).map Int.ofNat)).length := by
    intro r hr
    obtain ⟨c, place, rfl, hplace⟩ := hheld r hr
    rw [length_cornerWeights, hplace.length_fraction, length_cornerOffsets, List.length_map,
      length_strides hne]
  have hcorners : ∀ r ∈ rows, ∀ o ∈ cornerOffsets ((strides res).map Int.ofNat),
      0 ≤ r.1 + o ∧ r.1 + o < size res := by
    intro r hr o ho
    obtain ⟨c, place, rfl, hplace⟩ := hheld r hr
    exact hplace.corner_mem hne ho
  obtain ⟨W, hW, htidy, hentry⟩ := exists_interpolationMatrix? hweights hcorners
  have hlength : rows.length = places.length := by
    rw [hrows, List.length_map, h.length_eq]
  refine ⟨W, ?_, hlength ▸ htidy, fun n hn i hi => ?_⟩
  · rw [hrows, List.map_map, List.map_map] at hW
    unfold cellMatrix?
    rw [List.flatMap_def]
    exact hW
  · have hn' : n < cells.length := h.length_eq ▸ hn
    rw [hentry, hrows, List.getElem?_map, List.getElem?_eq_getElem hn', Option.map_some,
      Option.map_some, Option.getD_some]
    exact (h.get hn hn').combination_eq hne hi

/-! ## Grids -/

namespace Grid

/-- A grid whose nodes, at least two along every axis, divide the box between its bounds evenly. -/
structure Divides (g : Grid ℝ) : Prop where
  axes : g.res ≠ []
  nodes : ∀ r ∈ g.res, 2 ≤ r
  low : g.low.length = g.res.length
  bounds : List.Forall₂ (· < ·) g.low g.high
  width : cellWidths? g.low g.high g.res = some g.width

/-- A box has a grid for any numbers of nodes. -/
theorem exists_constant?_divides {low high : List ℝ} {res : List ℕ}
    (hbounds : List.Forall₂ (· < ·) low high) (hlow : low.length = res.length) (hne : res ≠ [])
    (hres : ∀ r ∈ res, 2 ≤ r) (channels : ℕ) (spacing : List (Option (List ℝ)))
    (default : ℝ) : ∃ g, constant? low high res channels spacing default = some g ∧ g.Divides ∧
      g.res = res ∧ g.low = low ∧ g.high = high := by
  have hwidth := cellWidths?_eq hlow (hbounds.length_eq.symm.trans hlow)
  unfold constant?
  rw [hwidth, Option.bind_eq_bind, Option.bind_some]
  exact ⟨_, rfl, ⟨hne, hres, hlow, hbounds, hwidth⟩, rfl, rfl, rfl⟩

/-- The position of a node. -/
noncomputable def nodeAt (g : Grid ℝ) (i : ℕ) : List ℝ :=
  boxPoint g.low g.width ((coordsOf g.res i).map fun c : ℕ => (c : ℝ))

/-- The place of a point, measured in cells. -/
noncomputable def placeOf (g : Grid ℝ) (point : List ℝ) : List ℝ :=
  Cell.placeAt g.low g.width point

/-- The cells of some points of the input space. -/
def locate? {α : Type} [Scalar α] (g : Grid α) (points : List (List α)) :
    Except (Failure α) (List (Cell α)) :=
  Cell.locate? g.res g.low g.high g.width { columns := g.res.length, rows := points }

namespace Divides

variable {g : Grid ℝ} (h : g.Divides)

include h

theorem high : g.high.length = g.res.length := h.bounds.length_eq.symm.trans h.low

theorem width_eq : g.width = cellWidths g.low g.high g.res := by
  have hwidth := h.width
  rw [cellWidths?_eq h.low h.high] at hwidth
  exact (Option.some.inj hwidth).symm

theorem length_width : g.width.length = g.res.length := by
  rw [h.width_eq, length_cellWidths h.low h.high]

theorem length_nodeAt (i : ℕ) : (g.nodeAt i).length = g.res.length :=
  length_boxPoint h.low h.length_width (by rw [List.length_map, length_coordsOf])

/-- The width of a cell is what its axis extends over, divided by the number of cells. -/
theorem getElem_width {e : ℕ} (hw : e < g.width.length) (hl : e < g.low.length)
    (hh : e < g.high.length) (hr : e < g.res.length) :
    g.width[e] = (g.high[e] - g.low[e]) / ((g.res[e] : ℝ) - 1) ∧
      0 < g.high[e] - g.low[e] ∧ 0 < (g.res[e] : ℝ) - 1 := by
  refine ⟨?_, sub_pos.mpr (h.bounds.get hl hh), sub_pos.mpr ?_⟩
  · simp only [h.width_eq, cellWidths, List.getElem_zipWith]
  · exact_mod_cast h.nodes _ (List.getElem_mem hr)

/-- The cells have a width along every axis. -/
theorem width_ne_zero : ∀ w ∈ g.width, w ≠ 0 := by
  intro w hw
  obtain ⟨e, he, rfl⟩ := List.mem_iff_getElem.mp hw
  have hr : e < g.res.length := h.length_width ▸ he
  obtain ⟨hwidth, hextent, hcells⟩ := h.getElem_width he (h.low ▸ hr) (h.high ▸ hr) hr
  rw [hwidth]
  exact (div_pos hextent hcells).ne'

/-- The place of a point of the box lies between the first and the last node. -/
theorem forall₂_placeOf {point : List ℝ} (hpoint : InBox g.low g.high point) :
    List.Forall₂ (fun (t : ℝ) (r : ℕ) => 0 ≤ t ∧ t ≤ (r : ℝ) - 1) (g.placeOf point) g.res := by
  unfold placeOf
  rw [h.width_eq]
  exact forall₂_placeAt h.bounds h.low h.nodes hpoint

/-- The positions of the nodes. -/
theorem nodePositions?_eq :
    g.nodePositions? = some ((List.range (size g.res)).map g.nodeAt) := by
  unfold nodePositions? allCoords?
  rw [if_neg (by simpa using h.axes), Option.bind_eq_bind, Option.bind_some]
  exact mapM_positionAt?_eq h.low h.length_width

/-- Points of the box are located. -/
theorem locate?_eq {points : List (List ℝ)} (hpoints : ∀ p ∈ points, InBox g.low g.high p) :
    g.locate? points = .ok (points.map (Cell.ofPoint g.res g.low g.width)) :=
  Cell.locate?_eq h.axes h.low h.high h.length_width rfl hpoints

/-- They lie in the cells in which they are located. -/
theorem forall₂_holds {points : List (List ℝ)} (hpoints : ∀ p ∈ points, InBox g.low g.high p) :
    List.Forall₂ (Cell.Holds g.res) (points.map g.placeOf)
      (points.map (Cell.ofPoint g.res g.low g.width)) := by
  rw [List.forall₂_map_left_iff, List.forall₂_map_right_iff, List.forall₂_same]
  exact fun p hp => Cell.holds_ofPlace h.nodes (h.forall₂_placeOf (hpoints p hp))

/-- Interpolation at a point of the box reproduces a multi-affine map. -/
theorem sum_share_mul_nodeAt {point : List ℝ} (hpoint : InBox g.low g.high point)
    {f : List ℝ → ℝ} (hf : IsMultiAffineMap g.res.length f) :
    ∑ i : Fin (size g.res), share g.res (g.placeOf point) i * f (g.nodeAt i) = f point := by
  rw [← dotProduct_nodeTrend_ofPoint hf h.axes h.nodes h.low h.length_width h.width_ne_zero
    (hpoint.length_low.trans h.low)]
  refine Finset.sum_congr rfl fun i _ => ?_
  simp only
  rw [Cell.combination_ofPoint h.nodes (h.forall₂_placeOf hpoint) h.axes i.isLt]
  rfl

/-- The nodes lie in the box. -/
theorem inBox_nodeAt (i : ℕ) : InBox g.low g.high (g.nodeAt i) := by
  have hnode := h.length_nodeAt i
  have hcoords := length_coordsOf g.res i
  have hwithin := within_iff.mp
    (within_coordsOf (fun r hr => Nat.zero_lt_of_lt (h.nodes r hr)) i)
  have hbetween : ∀ e (hn : e < (g.nodeAt i).length) (hl : e < g.low.length)
      (hh : e < g.high.length), g.low[e] ≤ (g.nodeAt i)[e] ∧ (g.nodeAt i)[e] ≤ g.high[e] := by
    intro e hn hl hh
    have hr : e < g.res.length := h.low ▸ hl
    obtain ⟨hwidth, hextent, hcells⟩ := h.getElem_width (h.length_width ▸ hr) hl hh hr
    have hlt := hwithin.get (hcoords ▸ hr) hr
    simp only [List.get_eq_getElem] at hlt
    simp only [nodeAt, boxPoint, List.getElem_zipWith, List.getElem_map]
    rw [hwidth]
    generalize (coordsOf g.res i)[e] = c at hlt
    have hc : (c : ℝ) ≤ (g.res[e] : ℝ) - 1 := by
      have : (c : ℝ) + 1 ≤ g.res[e] := by exact_mod_cast hlt
      linarith
    have hstep := div_nonneg hextent.le hcells.le
    have hlast : (c : ℝ) * ((g.high[e] - g.low[e]) / ((g.res[e] : ℝ) - 1)) ≤
        g.high[e] - g.low[e] :=
      calc _ ≤ ((g.res[e] : ℝ) - 1) * ((g.high[e] - g.low[e]) / ((g.res[e] : ℝ) - 1)) :=
            mul_le_mul_of_nonneg_right hc hstep
        _ = g.high[e] - g.low[e] := mul_div_cancel₀ _ hcells.ne'
    constructor
    · linarith [mul_nonneg (Nat.cast_nonneg (α := ℝ) c) hstep]
    · linarith
  constructor
  · exact List.forall₂_iff_get.mpr ⟨by rw [hnode, h.low], fun e h1 h2 =>
      (hbetween e h2 h1 (by rw [h.high, ← h.low]; exact h1)).1⟩
  · exact List.forall₂_iff_get.mpr ⟨by rw [hnode, h.high], fun e h1 h2 =>
      (hbetween e h1 (by rw [h.low, ← h.high]; exact h2) h2).2⟩

/-- The places of the nodes of another grid over the same box. -/
theorem placeOf_nodeAt {t : Grid ℝ} (ht : t.Divides) (hlow : t.low = g.low)
    (hhigh : t.high = g.high) (i : ℕ) :
    g.placeOf (t.nodeAt i) = placesIn g.res t.res (coordsOf t.res i) := by
  have hlen : t.res.length = g.res.length := by rw [← h.low, ← ht.low, hlow]
  have hnode := (ht.length_nodeAt i).trans hlen
  have hcoords := (length_coordsOf t.res i).trans hlen
  refine List.ext_getElem ?_ fun e h1 h2 => ?_
  · rw [length_placesIn hlen.symm (length_coordsOf t.res i)]
    exact Cell.length_placeAt h.low h.length_width hnode
  · have hr : e < g.res.length := by
      rwa [length_placesIn hlen.symm (length_coordsOf t.res i)] at h2
    obtain ⟨hw, hextent, hcells⟩ :=
      h.getElem_width (h.length_width ▸ hr) (h.low ▸ hr) (h.high ▸ hr) hr
    have hr' : e < t.res.length := hlen ▸ hr
    obtain ⟨hw', -, hcells'⟩ :=
      ht.getElem_width (ht.length_width ▸ hr') (ht.low ▸ hr') (ht.high ▸ hr') hr'
    simp only [placeOf, Cell.placeAt, nodeAt, boxPoint, placesIn, List.getElem_zipWith,
      List.getElem_map]
    rw [hw, hw']
    simp only [hlow, hhigh]
    field_simp
    ring

/-- The nodes are at their own coordinates. -/
theorem placeOf_nodeAt_self (i : ℕ) :
    g.placeOf (g.nodeAt i) = (coordsOf g.res i).map fun c : ℕ => (c : ℝ) := by
  rw [h.placeOf_nodeAt h rfl rfl, placesIn_self h.nodes (length_coordsOf g.res i)]

end Divides

/-! ## Interpolation -/

/-- A matrix with the shares of the nodes at some points as its rows. -/
structure Interpolates (g : Grid ℝ) (points : List (List ℝ)) (W : SparseMatrix ℝ) : Prop where
  tidy : W.Tidy points.length (size g.res)
  entry : ∀ n (hn : n < points.length), ∀ i < size g.res,
    W.entry n i = share g.res (g.placeOf points[n]) i

/-- Cells that hold some points have the matrix of the points, in whichever way the points on a
border are divided among them. -/
theorem exists_interpolates {g : Grid ℝ} (hne : g.res ≠ []) {points : List (List ℝ)}
    {cells : List (Cell ℝ)} (h : List.Forall₂ (Cell.Holds g.res) (points.map g.placeOf) cells) :
    ∃ W, cellMatrix? g.res cells = .ok W ∧ g.Interpolates points W := by
  obtain ⟨W, hW, htidy, hentry⟩ := exists_cellMatrix? hne h
  rw [List.length_map] at htidy
  refine ⟨W, hW, htidy, fun n hn i hi => ?_⟩
  rw [hentry n (by rwa [List.length_map]) i hi, List.getElem_map]

namespace Interpolates

variable {g : Grid ℝ} {points : List (List ℝ)} {W : SparseMatrix ℝ} (h : g.Interpolates points W)

include h

theorem toMatrix_apply (n : Fin points.length) (i : Fin (size g.res)) :
    W.toMatrix points.length (size g.res) n i = share g.res (g.placeOf points[n]) i :=
  h.entry n n.isLt i i.isLt

/-- At the nodes of the grid the matrix is the identity. -/
theorem toMatrix_eq_one (hg : g.Divides)
    (hpoints : points = (List.range (size g.res)).map g.nodeAt) :
    W.toMatrix (size g.res) (size g.res) = 1 := by
  funext n i
  have hn : (n : ℕ) < points.length := by
    rw [hpoints, List.length_map, List.length_range]
    exact n.isLt
  have hpoint : points[(n : ℕ)] = g.nodeAt n := by
    simp only [hpoints, List.getElem_map, List.getElem_range]
  show W.entry n i = _
  rw [h.entry n hn i i.isLt, hpoint, hg.placeOf_nodeAt_self, share_node]
  rfl

/-- A value at a point is the mean of the values at the nodes with their shares. -/
theorem vectorOf_mulVec (x : Array ℝ) (n : Fin points.length) :
    vectorOf points.length (W.mulVec x) n =
      ∑ i : Fin (size g.res), share g.res (g.placeOf points[n]) i * vectorOf (size g.res) x i := by
  rw [SparseMatrix.vectorOf_mulVec h.tidy, mulVec, dotProduct]
  simp only [h.toMatrix_apply]

/-- The values of a multi-affine map at the nodes give its values at the points. -/
theorem mulVec_eq (hg : g.Divides) (hpoints : ∀ p ∈ points, InBox g.low g.high p) {f : List ℝ → ℝ}
    (hf : IsMultiAffineMap g.res.length f) :
    W.mulVec (arrayOf (size g.res) fun i => f (g.nodeAt i)) = (points.map f).toArray := by
  have hsize : (points.map f).toArray.size = points.length := by
    rw [List.size_toArray, List.length_map]
  refine eq_of_vectorOf_eq ((SparseMatrix.size_mulVec W _).trans h.tidy.rows) hsize ?_
  funext n
  rw [h.vectorOf_mulVec, vectorOf_arrayOf, vectorOf_apply hsize, List.getElem_toArray,
    List.getElem_map]
  exact hg.sum_share_mul_nodeAt (hpoints _ (List.getElem_mem n.isLt)) hf

end Interpolates

/-- Points of the box are located, and the rows of their matrix are products of hats. -/
theorem Divides.exists_locate?_cellMatrix? {g : Grid ℝ} (h : g.Divides) {points : List (List ℝ)}
    (hpoints : ∀ p ∈ points, InBox g.low g.high p) :
    ∃ nodes cells, g.nodePositions? = some nodes ∧ g.locate? points = .ok cells ∧
      List.Forall₂ (Cell.Holds g.res) (points.map g.placeOf) cells ∧
      ∀ cells', List.Forall₂ (Cell.Holds g.res) (points.map g.placeOf) cells' →
        ∃ W, cellMatrix? g.res cells' = .ok W ∧ W.Tidy points.length (size g.res) ∧
          (∀ (n : Fin points.length) (i : Fin (size g.res)),
            W.toMatrix points.length (size g.res) n i =
              (List.zipWith hat (g.placeOf points[n]) (coordsOf g.res i)).prod ∧
            0 ≤ W.toMatrix points.length (size g.res) n i) ∧
          (∀ n, ∑ i, W.toMatrix points.length (size g.res) n i = 1) ∧
          (points = nodes → W.toMatrix (size g.res) (size g.res) = 1) ∧
          ∀ f, IsMultiAffineMap g.res.length f →
            W.mulVec (nodes.map f).toArray = (points.map f).toArray := by
  refine ⟨_, _, h.nodePositions?_eq, h.locate?_eq hpoints, h.forall₂_holds hpoints,
    fun cells' hcells => ?_⟩
  obtain ⟨W, hW, hrows⟩ := exists_interpolates h.axes hcells
  refine ⟨W, hW, hrows.tidy, fun n i => ?_, fun n => ?_, fun hnodes => ?_, fun f hf => ?_⟩
  · rw [hrows.toMatrix_apply]
    exact ⟨rfl, share_nonneg _ _ _⟩
  · rw [Finset.sum_congr rfl fun i _ => hrows.toMatrix_apply n i]
    exact sum_share h.nodes h.axes (h.forall₂_placeOf (hpoints _ (List.getElem_mem n.isLt)))
  · exact hrows.toMatrix_eq_one h hnodes
  · rw [List.map_map]
    exact hrows.mulVec_eq h hpoints hf

/-- A point on the upper bound along one axis and between two cells along the other. -/
theorem Divides.exists_locate?_cellMatrix?_face :
    ∃ g : Grid ℝ, constant? [0, 0] [1, 1] [2, 3] 1 [none, none] 0 = some g ∧
      ∃ cells W, g.locate? [[1, 0.5]] = .ok cells ∧ cellMatrix? g.res cells = .ok W ∧
        ∑ i, W.toMatrix 1 (size g.res) 0 i = 1 := by
  obtain ⟨g, hg, hdivides, -, hlow, hhigh⟩ := exists_constant?_divides
    (show List.Forall₂ (· < ·) [0, 0] [1, 1] by norm_num) (show 2 = [2, 3].length from rfl)
    (by simp) (by simp) 1 [none, none] 0
  have hpoints : ∀ p ∈ [[1, 0.5]], InBox g.low g.high p := by
    rw [hlow, hhigh]
    unfold InBox
    norm_num
  obtain ⟨nodes, cells, -, hcells, hholds, hmatrix⟩ := hdivides.exists_locate?_cellMatrix? hpoints
  obtain ⟨W, hW, -, -, hsum, -⟩ := hmatrix cells hholds
  exact ⟨g, hg, cells, W, hcells, hW, hsum 0⟩

end Grid

end GridSpline
