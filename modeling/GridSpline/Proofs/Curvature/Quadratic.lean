import Mathlib
import GridSpline.Proofs.Curvature.Balance
import GridSpline.Proofs.Grid.Width
import GridSpline.Proofs.Interpolation.MultiAffine

/-!
# The curvature of quadratic maps

A map that is multi-affine up to a square along every axis has the same second difference at all
nodes with two neighbours, on every lattice; at the ends of an axis none is taken, and the captured
value is zero. Carried to a lattice that is nowhere finer the zeros stay where they are: a node at
an end is read at an end, and a node with two neighbours is at least one cell away from both ends,
so it is read from nodes with two neighbours only. The factors between the lattices are those
between the second differences. So on the coarser lattice one gets what is captured there.

## Main definitions

* `bent` — a map with squares along the axes added.
* `valuesAtNodes?` — the values of a map at the nodes that divide a box evenly.
* `bentCurvature` — the second differences of such a map.

## Main statements

* `captureCurvature?_bent` — what is captured from the values at the nodes.
* `isInterior_iff_of_share_ne_zero` — a node is read from nodes of its own kind.
* `exists_downsample?_bent` — the curvature of the finer lattice becomes that of the coarser one.
-/

namespace GridSpline

open Scalar Failure
open GridSpline.Lattice

/-! ## The maps -/

/-- How far through a box a point is along an axis: zero at the lower bound, one at the upper. -/
noncomputable def wayThrough (low high p : List ℝ) (e : ℕ) : ℝ :=
  (p.getD e 0 - low.getD e 0) / (high.getD e 0 - low.getD e 0)

/-- A map with multiples of the squares of the ways through a box added. -/
noncomputable def bent (low high : List ℝ) (bends : ℕ → ℝ) (g : List ℝ → ℝ) (p : List ℝ) : ℝ :=
  g p + ∑ e ∈ Finset.range low.length, bends e * wayThrough low high p e ^ 2

/-- The values of a map at the nodes that divide a box evenly. -/
noncomputable def valuesAtNodes? (low high : List ℝ) (res : List ℕ) (q : List ℝ → ℝ) :
    Option (Array ℝ) := do
  let width ← Grid.cellWidths? low high res
  let positions ← (allCoords res).mapM (Grid.positionAt? low width)
  return (positions.map q).toArray

variable {low high : List ℝ} {bends : ℕ → ℝ} {g : List ℝ → ℝ} {res : List ℕ}

theorem wayThrough_set {p : List ℝ} {d : ℕ} (hd : d < p.length) (t : ℝ) (e : ℕ) :
    wayThrough low high (p.set d t) e = if e = d then
      (t - low.getD d 0) / (high.getD d 0 - low.getD d 0) else wayThrough low high p e := by
  unfold wayThrough
  by_cases he : e = d
  · subst he
    rw [if_pos rfl, List.getD_eq_getElem _ _ (by rwa [List.length_set]), List.getElem_set_self]
  · rw [if_neg he, List.getD_eq_getElem?_getD, List.getElem?_set_ne (Ne.symm he),
      ← List.getD_eq_getElem?_getD]

variable (high bends) in
/-- Along every axis only the square that belongs to it varies. -/
theorem exists_bent_set (hg : IsMultiAffineMap low.length g) {p : List ℝ}
    (hp : p.length = low.length) {e : ℕ} (he : e < low.length) : ∃ a b : ℝ, ∀ t,
    bent low high bends g (p.set e t) =
      a + b * t + bends e * ((t - low.getD e 0) / (high.getD e 0 - low.getD e 0)) ^ 2 := by
  obtain ⟨a, b, hab⟩ := hg p hp e he
  refine ⟨a + ∑ d ∈ (Finset.range low.length).erase e, bends d * wayThrough low high p d ^ 2, b,
    fun t => ?_⟩
  have hrest : ∑ d ∈ (Finset.range low.length).erase e,
        bends d * wayThrough low high (p.set e t) d ^ 2 =
      ∑ d ∈ (Finset.range low.length).erase e, bends d * wayThrough low high p d ^ 2 := by
    refine Finset.sum_congr rfl fun d hd => ?_
    rw [wayThrough_set (hp.symm ▸ he), if_neg (Finset.ne_of_mem_erase hd)]
  unfold bent
  rw [hab, ← Finset.add_sum_erase _ _ (Finset.mem_range.mpr he), hrest,
    wayThrough_set (hp.symm ▸ he), if_pos rfl]
  ring

variable (bends) in
/-- Measured in cells, the map has a square along every axis as well. -/
theorem exists_bent_boxPoint (hg : IsMultiAffineMap low.length g)
    (hbox : List.Forall₂ (· < ·) low high) (hlow : low.length = res.length) {place : List ℝ}
    (hplace : place.length = res.length) {e r : ℕ} (he : res[e]? = some r) : ∃ a b : ℝ, ∀ t,
    bent low high bends g (boxPoint low (Grid.cellWidths low high res) (place.set e t)) =
      a + b * t + bends e / ((r : ℝ) - 1) ^ 2 * t ^ 2 := by
  obtain ⟨hlt, hr⟩ := List.getElem?_eq_some_iff.mp he
  have hhigh : high.length = res.length := hbox.length_eq.symm.trans hlow
  have hwidth := Grid.length_cellWidths hlow hhigh
  have hextent : 0 < high[e] - low[e] :=
    sub_pos.mpr (hbox.get (i := e) (by omega) (by omega))
  obtain ⟨a, b, hab⟩ := exists_bent_set high bends hg
    ((length_boxPoint hlow hwidth hplace).trans hlow.symm) (hlow ▸ hlt : e < low.length)
  refine ⟨a + b * low[e], b * (Grid.cellWidths low high res)[e], fun t => ?_⟩
  rw [boxPoint_set (by omega) (by omega), hab, List.getD_eq_getElem _ _ (by omega),
    List.getD_eq_getElem _ _ (by omega)]
  have hshare : (low[e] + t * (Grid.cellWidths low high res)[e] - low[e]) / (high[e] - low[e]) =
      t / ((r : ℝ) - 1) := by
    simp only [Grid.cellWidths, List.getElem_zipWith, hr]
    field_simp
    ring
  rw [hshare, div_pow]
  ring

/-! ## Capturing -/

/-- The second differences of a map with squares along the axes: the same at all nodes that have
two neighbours. -/
noncomputable def bentCurvature (res : List ℕ) (bends : ℕ → ℝ) : Curvature ℝ :=
  (axes res).map fun a => arrayOf (size res) fun i =>
    if a.IsInterior i then 2 • (bends a.index / ((a.count : ℝ) - 1) ^ 2) else 0

section Capture

variable (hg : IsMultiAffineMap low.length g) (hbox : List.Forall₂ (· < ·) low high)
  (hlow : low.length = res.length)

include hbox hlow in
/-- The values of a map at the nodes. -/
theorem valuesAtNodes?_eq (q : List ℝ → ℝ) : valuesAtNodes? low high res q =
    some (((List.range (size res)).map fun i => q (boxPoint low (Grid.cellWidths low high res)
      ((coordsOf res i).map fun c : ℕ => (c : ℝ)))).toArray) := by
  have hhigh : high.length = res.length := hbox.length_eq.symm.trans hlow
  have hwidth := Grid.length_cellWidths hlow hhigh
  unfold valuesAtNodes?
  rw [Grid.cellWidths?_eq hlow hhigh, Option.bind_eq_bind, Option.bind_some,
    mapM_positionAt?_eq hlow hwidth, Option.bind_eq_bind, Option.bind_some, List.map_map]
  rfl

include hg hbox hlow

variable (bends) in
/-- What is captured at a node does not depend on where it is between the ends of the axis. -/
theorem capturedAt_bent (hres : ∀ r ∈ res, 2 ≤ r) {a : Axis} (ha : a ∈ axes res) {i : ℕ}
    (hi : i < size res) :
    capturedAt (nodeTrend res low (Grid.cellWidths low high res) (bent low high bends g)) a none i =
      if a.IsInterior i then 2 • (bends a.index / ((a.count : ℝ) - 1) ^ 2) else 0 := by
  have hpos : ∀ r ∈ res, 0 < r := fun r hr => by have := hres r hr; omega
  have hplace : ((coordsOf res i).map fun c : ℕ => (c : ℝ)).length = res.length := by
    rw [List.length_map, length_coordsOf]
  obtain ⟨p, q, hpq⟩ := exists_bent_boxPoint bends hg hbox hlow hplace (getElem?_index ha)
  have hline : ∀ k < a.count,
      nodeValue (nodeTrend res low (Grid.cellWidths low high res) (bent low high bends g))
        (lineNode a i k : ℕ) = p + q * k + bends a.index / ((a.count : ℝ) - 1) ^ 2 * (k : ℝ) ^ 2 := by
    intro k hk
    rw [nodeValue_fin _ ⟨lineNode a i k, lineNode_lt_size ha hi hk⟩]
    unfold nodeTrend
    rw [coordsOf_lineNode hpos ha hi hk, List.map_set]
    exact hpq k
  unfold capturedAt
  by_cases hint : a.IsInterior i
  · obtain ⟨hfirst, hlast⟩ := hint
    rw [if_pos ⟨hfirst, hlast⟩, if_pos ⟨hfirst, hlast⟩, ← lineNode_coord_pred hfirst,
      ← lineNode_coord_succ, hline _ (by omega), hline _ (by omega)]
    have hhere := hline (a.coord i) (by omega)
    rw [lineNode_coord] at hhere
    rw [hhere]
    simp only [weightedDifference, differenceWeights]
    rw [Nat.cast_sub hfirst]
    push_cast
    ring
  · rw [if_neg hint, if_neg hint]

variable (bends) in
/-- What is captured from the values of the map at the nodes. -/
theorem captureCurvature?_bent (hres : ∀ r ∈ res, 2 ≤ r) (hne : res ≠ []) : ∃ x,
    valuesAtNodes? low high res (bent low high bends g) = some x ∧
    captureCurvature? res x (List.replicate res.length none) = .ok (bentCurvature res bends) := by
  refine ⟨_, valuesAtNodes?_eq hbox hlow _, ?_⟩
  have hspacing : List.Forall₂ (fun (s : Option (List ℝ)) (r : ℕ) => ∀ l, s = some l → l.length = r)
      (List.replicate res.length none) res := by
    refine List.forall₂_iff_get.mpr ⟨List.length_replicate, fun e h1 h2 l hl => ?_⟩
    simp at hl
  rw [captureCurvature?_eq hne (by simp) hspacing]
  unfold captured bentCurvature
  refine congrArg Except.ok (List.map_congr_left fun a ha => ?_)
  have hnone : (List.replicate res.length (none : Option (List ℝ))).getD a.index none = none := by
    rw [List.getD_eq_getElem _ _ (by rw [List.length_replicate]; exact index_lt ha),
      List.getElem_replicate]
  refine eq_of_vectorOf_eq (size_arrayOf _ _) (size_arrayOf _ _) ?_
  rw [vectorOf_arrayOf, vectorOf_arrayOf, hnone]
  funext i
  rw [← capturedAt_bent bends hg hbox hlow hres ha i.isLt]
  congr 1
  exact vectorOf_arrayOf (size res) fun i => bent low high bends g (boxPoint low
    (Grid.cellWidths low high res) ((coordsOf res i).map fun c : ℕ => (c : ℝ)))

end Capture

/-! ## Carrying to a coarser lattice -/

/-- The place of a node along an axis, and the coordinate of a node less than one cell from it. -/
theorem abs_place_sub_coord_lt {source target : List ℕ} {i j : ℕ} {a b : Axis}
    (ha : a ∈ axes source) (hb : b ∈ axes target) (hindex : a.index = b.index)
    (hlen : source.length = target.length)
    (hshare : share source (placesIn source target (coordsOf target i)) j ≠ 0) :
    |(b.coord i : ℝ) / ((b.count : ℝ) - 1) * ((a.count : ℝ) - 1) - a.coord j| < 1 := by
  have hplaces := length_placesIn hlen (length_coordsOf target i)
  have hnear := (prod_hat_ne_zero_iff (by rw [hplaces, length_coordsOf])).mp hshare
  obtain ⟨h1, hcoord⟩ := List.getElem?_eq_some_iff.mp (getElem?_coordsOf ha j)
  obtain ⟨h2, hcoord'⟩ := List.getElem?_eq_some_iff.mp (getElem?_coordsOf hb i)
  obtain ⟨h3, hcount⟩ := List.getElem?_eq_some_iff.mp (getElem?_index ha)
  obtain ⟨h4, hcount'⟩ := List.getElem?_eq_some_iff.mp (getElem?_index hb)
  have hget := hnear.get (i := a.index) (by omega) h1
  simp only [hindex] at hcount hcoord
  simp only [List.get_eq_getElem, placesIn, List.getElem_zipWith, hindex, hcoord, hcoord', hcount,
    hcount'] at hget
  exact hget

/-- A node of a lattice that is nowhere finer is read from nodes of its own kind: nodes with two
neighbours if it has two neighbours, and else nodes at the same end. -/
theorem isInterior_iff_of_share_ne_zero {source target : List ℕ} {i j : ℕ} {a b : Axis}
    (htarget : ∀ r ∈ target, 2 ≤ r) (ha : a ∈ axes source) (hb : b ∈ axes target)
    (hindex : a.index = b.index) (hlen : source.length = target.length) (hle : b.count ≤ a.count)
    (hshare : share source (placesIn source target (coordsOf target i)) j ≠ 0) :
    a.IsInterior j ↔ b.IsInterior i := by
  have hnear := abs_lt.mp (abs_place_sub_coord_lt ha hb hindex hlen hshare)
  have hb2 := htarget _ (count_mem hb)
  have hb2' : (2 : ℝ) ≤ b.count := by exact_mod_cast hb2
  have hle' : (b.count : ℝ) ≤ a.count := by exact_mod_cast hle
  have hcells : (0 : ℝ) < (b.count : ℝ) - 1 := by linarith
  have hcoord : b.coord i < b.count := coord_lt htarget hb
  unfold Axis.IsInterior
  constructor
  · rintro ⟨hfirst, hlast⟩
    constructor
    · by_contra h0
      rw [Nat.lt_one_iff.mp (not_le.mp h0), Nat.cast_zero, zero_div, zero_mul] at hnear
      have : (1 : ℝ) ≤ a.coord j := by exact_mod_cast hfirst
      linarith
    · by_contra h1
      have hend : (b.coord i : ℝ) = (b.count : ℝ) - 1 := by
        rw [eq_sub_iff_add_eq]
        exact_mod_cast (by omega : b.coord i + 1 = b.count)
      rw [hend, div_self hcells.ne', one_mul] at hnear
      have : (a.coord j : ℝ) + 2 ≤ a.count := by exact_mod_cast hlast
      linarith
  · rintro ⟨hfirst, hlast⟩
    -- One cell of the coarser lattice is at least one of the finer one.
    have hcell : 1 ≤ ((a.count : ℝ) - 1) / ((b.count : ℝ) - 1) := by
      rw [one_le_div hcells]
      linarith
    have hfirst' : (1 : ℝ) ≤ b.coord i := by exact_mod_cast hfirst
    have hlast' : (b.coord i : ℝ) + 2 ≤ b.count := by exact_mod_cast hlast
    have hplace : (b.coord i : ℝ) / ((b.count : ℝ) - 1) * ((a.count : ℝ) - 1) =
        b.coord i * (((a.count : ℝ) - 1) / ((b.count : ℝ) - 1)) := by ring
    have hwhole : ((b.count : ℝ) - 1) * (((a.count : ℝ) - 1) / ((b.count : ℝ) - 1)) =
        (a.count : ℝ) - 1 := mul_div_cancel₀ _ hcells.ne'
    have hlow : 1 ≤ (b.coord i : ℝ) * (((a.count : ℝ) - 1) / ((b.count : ℝ) - 1)) := by nlinarith
    have hhigh : (b.coord i : ℝ) * (((a.count : ℝ) - 1) / ((b.count : ℝ) - 1)) ≤
        (a.count : ℝ) - 2 := by nlinarith
    rw [hplace] at hnear
    constructor
    · have : (0 : ℝ) < a.coord j := by linarith
      exact_mod_cast this
    · have : (a.coord j : ℝ) + 1 < a.count := by linarith
      have : a.coord j + 1 < a.count := by exact_mod_cast this
      omega

/-- A value at the nodes with two neighbours, and zero at the ends, is that on the coarser lattice
as well. -/
theorem carried_interior {source target : List ℕ} (hlen : source.length = target.length)
    (hsource : ∀ r ∈ source, 2 ≤ r) (htarget : ∀ r ∈ target, 2 ≤ r) (hne : source ≠ []) {a b : Axis}
    (ha : a ∈ axes source) (hb : b ∈ axes target) (hindex : a.index = b.index)
    (hle : b.count ≤ a.count) (v : ℝ) (i : ℕ) :
    carried source target (fun j => if a.IsInterior j then v else 0) i =
      if b.IsInterior i then v else 0 := by
  refine carried_eq_of_forall hlen hsource htarget hne fun j hshare => ?_
  exact if_congr (isInterior_iff_of_share_ne_zero htarget ha hb hindex hlen hle hshare) rfl rfl

/-! ## The factors -/

/-- The mean of resolutions that are all the same. -/
theorem meanResolution_replicate {n : ℕ} (hn : n ≠ 0) (r : ℕ) :
    meanResolution (scalars (List.replicate n r) : List ℝ) = r := by
  have hprod : ∀ (n : ℕ) (c : ℝ),
      (List.replicate n (r : ℝ)).foldl (· * ·) c = c * (r : ℝ) ^ n := by
    intro n
    induction n with
    | zero => simp
    | succ n ih =>
      intro c
      rw [List.replicate_succ, List.foldl_cons, ih, pow_succ]
      ring
  unfold meanResolution scalars
  rw [List.map_replicate, hprod, one_mul, List.length_replicate, pow_eq, one_div]
  exact Real.pow_rpow_inv_natCast (Nat.cast_nonneg r) hn

/-- Scales are the resolutions of a domain that has one extent in all directions, and also where all
resolutions are the same. -/
theorem latticeScales_eq (symmetric : Bool) {res : List ℕ} (hne : res ≠ [])
    (h : symmetric = true ∨ ∃ r, ∀ s ∈ res, s = r) :
    (latticeScales symmetric res : List ℝ) = scalars res := by
  unfold latticeScales scaleResolutions
  cases symmetric with
  | true => rfl
  | false =>
    obtain ⟨r, hr⟩ := h.resolve_left Bool.false_ne_true
    have hres : res = List.replicate res.length r := List.eq_replicate_iff.mpr ⟨rfl, hr⟩
    have hmean : meanResolution (scalars res : List ℝ) = r := by
      rw [hres, meanResolution_replicate fun h0 => hne (List.length_eq_zero_iff.mp h0)]
    rw [if_neg Bool.false_ne_true, hmean]
    conv_rhs => rw [hres]
    unfold scalars
    rw [List.map_replicate, List.length_map]

theorem getElem?_scalars {a : Axis} (ha : a ∈ axes res) :
    (scalars res : List ℝ)[a.index]? = some (a.count : ℝ) := by
  unfold scalars
  rw [List.getElem?_map, getElem?_index ha]
  rfl

theorem getElem?_bentCurvature {a : Axis} (ha : a ∈ axes res) (bends : ℕ → ℝ) :
    (bentCurvature res bends)[a.index]? = some (arrayOf (size res) fun i =>
      if a.IsInterior i then 2 • (bends a.index / ((a.count : ℝ) - 1) ^ 2) else 0) := by
  have hplace := getElem?_axesFrom ha
  rw [Nat.sub_zero] at hplace
  unfold bentCurvature
  rw [List.getElem?_map, show (axes res)[a.index]? = some a from hplace]
  rfl

theorem length_bentCurvature (res : List ℕ) (bends : ℕ → ℝ) :
    (bentCurvature res bends).length = res.length := by
  unfold bentCurvature
  rw [List.length_map, axes, length_axesFrom]

section Downsample

variable {source target : List ℕ} {symmetric : Bool} (hlen : source.length = target.length)
  (hsource : ∀ r ∈ source, 2 ≤ r) (htarget : ∀ r ∈ target, 2 ≤ r) (hne : source ≠ [])
  (hcoarser : List.Forall₂ (fun t s => t ≤ s) target source)
  (hscales : symmetric = true ∨ (∃ r, ∀ s ∈ source, s = r) ∧ ∃ r, ∀ t ∈ target, t = r)

include hlen hsource htarget hne hcoarser hscales

/-- Carried to the coarser lattice and scaled, the second differences are those taken there. -/
theorem downsampled_bentCurvature (bends : ℕ → ℝ) :
    downsampled source target symmetric (bentCurvature source bends) =
      bentCurvature target bends := by
  have hne' : target ≠ [] := by
    rintro rfl
    exact hne (List.length_eq_zero_iff.mp hlen)
  have hs := latticeScales_eq symmetric hne (hscales.imp_right And.left)
  have ht := latticeScales_eq symmetric hne' (hscales.imp_right And.right)
  have hlength := length_downsampled hlen symmetric (length_bentCurvature source bends)
  refine List.ext_getElem? fun e => ?_
  by_cases he : e < target.length
  · have he' : e < source.length := hlen ▸ he
    obtain ⟨a, ha, haindex⟩ := exists_axis he'
    obtain ⟨b, hb, rfl⟩ := exists_axis he
    have hle : b.count ≤ a.count := by
      have hsource := getElem?_index ha
      rw [haindex] at hsource
      obtain ⟨h1, hcount⟩ := List.getElem?_eq_some_iff.mp hsource
      obtain ⟨h2, hcount'⟩ := List.getElem?_eq_some_iff.mp (getElem?_index hb)
      have hget := hcoarser.get h2 h1
      rwa [List.get_eq_getElem, List.get_eq_getElem, hcount, hcount'] at hget
    have hcells : ((a.count : ℝ) - 1) ≠ 0 := by
      have : (2 : ℝ) ≤ a.count := by exact_mod_cast hsource _ (count_mem ha)
      linarith
    have hpart := getElem?_bentCurvature ha bends
    have hscale := getElem?_scalars ha
    rw [haindex] at hpart hscale
    unfold downsampled curvatureScales
    rw [hs, ht, getElem?_bentCurvature hb, List.getElem?_zipWith, List.getElem?_zipWith, hpart,
      hscale, getElem?_scalars hb]
    simp only [Option.some.injEq]
    rw [map_arrayOf, vectorOf_arrayOf]
    refine eq_of_vectorOf_eq (size_arrayOf _ _) (size_arrayOf _ _) ?_
    rw [vectorOf_arrayOf, vectorOf_arrayOf]
    funext i
    rw [carried_interior hlen hsource htarget hne ha hb haindex hle]
    split
    · rw [two_nsmul, two_nsmul]
      field_simp
    · rw [zero_mul]
  · rw [List.getElem?_eq_none (by omega),
      List.getElem?_eq_none (by rw [length_bentCurvature]; omega)]

/-- The curvature of a map with squares along the axes, captured on one lattice and carried to
another one that is nowhere finer, is what is captured there. -/
theorem exists_downsample?_bent {low high : List ℝ} {g : List ℝ → ℝ} (bends : ℕ → ℝ)
    (hg : IsMultiAffineMap low.length g) (hbox : List.Forall₂ (· < ·) low high)
    (hlow : low.length = source.length) : ∃ x y ccv ccv',
    valuesAtNodes? low high source (bent low high bends g) = some x ∧
    valuesAtNodes? low high target (bent low high bends g) = some y ∧
    captureCurvature? source x (List.replicate source.length none) = .ok ccv ∧
    captureCurvature? target y (List.replicate target.length none) = .ok ccv' ∧
    downsample? source target symmetric ccv = .ok ccv' ∧ ccv' = bentCurvature target bends := by
  have hne' : target ≠ [] := by
    rintro rfl
    exact hne (List.length_eq_zero_iff.mp hlen)
  obtain ⟨x, hx, hcapture⟩ :=
    captureCurvature?_bent bends hg hbox hlow hsource hne
  obtain ⟨y, hy, hcapture'⟩ :=
    captureCurvature?_bent bends hg hbox (hlow.trans hlen) htarget hne'
  refine ⟨x, y, _, _, hx, hy, hcapture, hcapture', ?_, rfl⟩
  have hsize : ∀ p ∈ bentCurvature source bends, p.size = size source := by
    intro p hp
    obtain ⟨a, -, rfl⟩ := List.mem_map.mp hp
    exact size_arrayOf _ _
  rw [downsample?_eq hlen hne symmetric hsource htarget (length_bentCurvature source bends) hsize,
    downsampled_bentCurvature hlen hsource htarget hne hcoarser hscales]

end Downsample

/-- A saddle with squares added, from five by three nodes to four by two. The nodes of the coarser
lattice lie between those of the finer one along the first axis, and the second axis has no nodes
with two neighbours there. -/
theorem exists_downsample?_saddle : ∃ x y ccv ccv',
    valuesAtNodes? [0, -1] [1, 3] [5, 3] (bent [0, -1] [1, 3] (fun e => 3 - 5 * e) Level.saddle) =
      some x ∧
    valuesAtNodes? [0, -1] [1, 3] [4, 2] (bent [0, -1] [1, 3] (fun e => 3 - 5 * e) Level.saddle) =
      some y ∧
    captureCurvature? [5, 3] x [none, none] = .ok ccv ∧
    captureCurvature? [4, 2] y [none, none] = .ok ccv' ∧
    downsample? [5, 3] [4, 2] true ccv = .ok ccv' ∧
    ccv' = bentCurvature [4, 2] fun e => 3 - 5 * e := by
  have hlen : ([5, 3] : List ℕ).length = ([4, 2] : List ℕ).length := rfl
  have hcoarser : List.Forall₂ (fun t s : ℕ => t ≤ s) [4, 2] [5, 3] :=
    .cons (by decide) (.cons (by decide) .nil)
  have hbox : List.Forall₂ (fun l h : ℝ => l < h) [0, -1] [1, 3] :=
    .cons (by norm_num) (.cons (by norm_num) .nil)
  exact exists_downsample?_bent hlen (by decide) (by decide) (by decide) hcoarser (.inl rfl) _
    Level.isMultiAffineMap_saddle hbox rfl

end GridSpline
