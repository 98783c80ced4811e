import Mathlib
import GridSpline.Proofs.Equations.Affine
import GridSpline.Proofs.Grid.Width
import GridSpline.Proofs.Interpolation.Cell

/-!
# Multi-affine maps

A map of positions is multi-affine when it is affine in each coordinate while the others are held
fixed. Interpolation in a cell reproduces such a map: the weights of the corners are products of one
share for each axis, and along every axis the two shares divide the way between the lower and the
upper value. It does not matter whether the point is in the cell.

## Main definitions

* `IsMultiAffineMap` — the maps.
* `boxPoint` — the point at a place that is measured in cells.
* `nodeTrend` — the values of a map at the nodes of a lattice over a box.

## Main statements

* `IsMultiAffineMap.sum_corners` — the weighted sum over the corners of a cell.
* `dotProduct_nodeTrend_ofPoint` — interpolation at a point gives the value of the map there.
* `isAffineAlong_nodeTrend` — along every line the nodes have affine values.
-/

namespace GridSpline

open Matrix
open GridSpline.Lattice

/-! ## Maps -/

/-- A map of positions with the given number of coordinates that is affine in each of them. -/
def IsMultiAffineMap (n : ℕ) (g : List ℝ → ℝ) : Prop :=
  ∀ p : List ℝ, p.length = n → ∀ e < n, ∃ a b : ℝ, ∀ t, g (p.set e t) = a + b * t

/-- The point of a box at a place that is measured in cells. -/
noncomputable def boxPoint (low width place : List ℝ) : List ℝ :=
  List.zipWith (· + ·) low (List.zipWith (· * ·) place width)

section Box

variable {n : ℕ} {low width place : List ℝ}

theorem boxPoint_set {e : ℕ} (hlow : e < low.length) (hwidth : e < width.length) (t : ℝ) :
    boxPoint low width (place.set e t) =
      (boxPoint low width place).set e (low[e] + t * width[e]) := by
  unfold boxPoint
  refine List.ext_getElem (by simp) ?_
  intro i h1 h2
  simp only [List.getElem_zipWith, List.getElem_set]
  by_cases hi : e = i
  · subst hi
    rw [if_pos rfl, if_pos rfl]
  · rw [if_neg hi, if_neg hi]

theorem length_boxPoint (hlow : low.length = n) (hwidth : width.length = n)
    (hplace : place.length = n) : (boxPoint low width place).length = n := by
  unfold boxPoint
  rw [List.length_zipWith, List.length_zipWith, hlow, hwidth, hplace, min_self, min_self]

/-- The place of a point leads back to the point. -/
theorem boxPoint_placeAt {point : List ℝ} (hlow : low.length = n) (hwidth : width.length = n)
    (hpoint : point.length = n) (hne : ∀ w ∈ width, w ≠ 0) :
    boxPoint low width (Cell.placeAt low width point) = point := by
  unfold boxPoint Cell.placeAt
  refine List.ext_getElem ?_ ?_
  · simp only [List.length_zipWith, hlow, hwidth, hpoint, min_self]
  · intro i h1 h2
    have hi : i < width.length := by omega
    simp only [List.getElem_zipWith]
    rw [div_mul_cancel₀ _ (hne _ (List.getElem_mem hi)), add_sub_cancel]

/-- The positions of the nodes of a lattice over a box. -/
theorem mapM_positionAt?_eq {res : List ℕ} (hlow : low.length = res.length)
    (hwidth : width.length = res.length) : (allCoords res).mapM (Grid.positionAt? low width) =
      some ((List.range (size res)).map fun i =>
        boxPoint low width ((coordsOf res i).map fun c : ℕ => (c : ℝ))) := by
  unfold allCoords
  rw [List.mapM_map]
  refine mapM_eq_some_map fun i _ => ?_
  unfold boxPoint
  rw [List.zipWith_map_left]
  exact Grid.positionAt?_eq (hlow.trans hwidth.symm) (by rw [length_coordsOf, hwidth])

end Box

namespace IsMultiAffineMap

variable {n : ℕ} {g : List ℝ → ℝ}

/-- Measured in cells, the map is multi-affine as well. -/
theorem comp_boxPoint (hg : IsMultiAffineMap n g) {low width : List ℝ} (hlow : low.length = n)
    (hwidth : width.length = n) : IsMultiAffineMap n fun place => g (boxPoint low width place) := by
  intro p hp e he
  obtain ⟨a, b, hab⟩ := hg (boxPoint low width p) (length_boxPoint hlow hwidth hp) e he
  refine ⟨a + b * low[e], b * width[e], ?_⟩
  intro t
  simp only
  rw [boxPoint_set (by omega) (by omega), hab]
  ring

theorem exists_head (hg : IsMultiAffineMap (n + 1) g) {rest : List ℝ} (hrest : rest.length = n) :
    ∃ a b : ℝ, ∀ t, g (t :: rest) = a + b * t := by
  have := hg (0 :: rest) (by rw [List.length_cons, hrest]) 0 (Nat.succ_pos n)
  exact this

theorem cons (hg : IsMultiAffineMap (n + 1) g) (x : ℝ) :
    IsMultiAffineMap n fun rest => g (x :: rest) := by
  intro p hp e he
  exact hg (x :: p) (by rw [List.length_cons, hp]) (e + 1) (Nat.succ_lt_succ he)

end IsMultiAffineMap

/-! ## Corners of a cell -/

theorem sum_zip_flatMap {β : Type} (f : β → ℝ → ℝ) (lower upper : β → β) (part : ℝ) (l : List β)
    (weights : List ℝ) :
    (((l.flatMap fun b => [lower b, upper b]).zip
        (weights.flatMap fun w => [(1 - part) * w, part * w])).map fun t => f t.1 t.2).sum =
      ((l.zip weights).map fun t =>
        f (lower t.1) ((1 - part) * t.2) + f (upper t.1) (part * t.2)).sum := by
  induction l generalizing weights with
  | nil => simp
  | cons b bs ih =>
    cases weights with
    | nil => simp
    | cons w ws =>
      rw [List.flatMap_cons, List.flatMap_cons, List.cons_append, List.cons_append,
        List.nil_append, List.cons_append, List.cons_append, List.nil_append,
        List.zip_cons_cons, List.zip_cons_cons, List.map_cons, List.map_cons, List.sum_cons,
        List.sum_cons, ih, List.zip_cons_cons, List.map_cons, List.sum_cons]
      ring

/-- The weighted sum over the corners of a cell. -/
theorem IsMultiAffineMap.sum_corners {n : ℕ} {g : List ℝ → ℝ} (hg : IsMultiAffineMap n g)
    {lower : List ℤ} {parts : List ℝ} (hlower : lower.length = n) (hparts : parts.length = n) :
    (((corners n).zip (cornerWeights parts)).map fun t =>
        t.2 * g ((List.zipWith (· + ·) lower (cornerStep t.1)).map fun x : ℤ => (x : ℝ))).sum =
      g (List.zipWith (fun (x : ℤ) part => (x : ℝ) + part) lower parts) := by
  induction n generalizing g lower parts with
  | zero =>
    rw [List.length_eq_zero_iff] at hlower hparts
    subst hlower hparts
    simp [corners, cornerWeights]
  | succ n ih =>
    cases lower with
    | nil => simp at hlower
    | cons x xs =>
      cases parts with
      | nil => simp at hparts
      | cons p ps =>
        have hxs : xs.length = n := by simpa using hlower
        -- The two corners that differ in the first axis only divide the way between them.
        have hpair : ∀ t ∈ (corners n).zip (cornerWeights ps),
            (1 - p) * t.2 * g ((List.zipWith (· + ·) (x :: xs)
                (cornerStep (false :: t.1))).map fun x : ℤ => (x : ℝ)) +
              p * t.2 * g ((List.zipWith (· + ·) (x :: xs)
                (cornerStep (true :: t.1))).map fun x : ℤ => (x : ℝ)) =
            t.2 * g ((x + p) :: (List.zipWith (· + ·) xs
              (cornerStep t.1)).map fun x : ℤ => (x : ℝ)) := by
          intro t ht
          have hbits := length_of_mem_corners (List.of_mem_zip ht).1
          have hrest : ((List.zipWith (· + ·) xs (cornerStep t.1)).map fun x : ℤ =>
              (x : ℝ)).length = n := by
            rw [List.length_map, List.length_zipWith, hxs, length_cornerStep, hbits, min_self]
          obtain ⟨a, b, hab⟩ := hg.exists_head hrest
          simp only [cornerStep, List.map_cons, List.zipWith_cons_cons, if_true,
            Bool.false_eq_true, if_false] at hab ⊢
          rw [hab, hab, hab]
          push_cast
          ring
        rw [corners, cornerWeights, sum_zip_flatMap
          (fun bits w => w * g ((List.zipWith (· + ·) (x :: xs)
            (cornerStep bits)).map fun x : ℤ => (x : ℝ))), List.map_congr_left hpair,
          ih (hg.cons (x + p)) hxs (by simpa using hparts), List.zipWith_cons_cons]

/-! ## Nodes -/

section Nodes

variable {res : List ℕ} {low width : List ℝ} {g : List ℝ → ℝ}

/-- The values of a map at the nodes of a lattice over a box. -/
noncomputable def nodeTrend (res : List ℕ) (low width : List ℝ) (g : List ℝ → ℝ) :
    Fin (size res) → ℝ :=
  fun i => g (boxPoint low width ((coordsOf res i).map fun c : ℕ => (c : ℝ)))

/-- Coordinates of the lattice, as integers, have the number of a node. -/
theorem exists_nodeOf_eq_offsetOf {c : List ℤ}
    (h : List.Forall₂ (fun (x : ℤ) (r : ℕ) => 0 ≤ x ∧ x < r) c res) :
    ∃ cs : List ℕ, Within res cs ∧ c = cs.map (fun x : ℕ => (x : ℤ)) ∧
      offsetOf res c = nodeOf res cs := by
  induction h with
  | nil => exact ⟨[], trivial, rfl, rfl⟩
  | @cons x r xs rs hx _ ih =>
    obtain ⟨cs, hwithin, rfl, hoffset⟩ := ih
    have hcast : ((x.toNat : ℕ) : ℤ) = x := Int.toNat_of_nonneg hx.1
    refine ⟨x.toNat :: cs, ⟨by omega, hwithin⟩, by rw [List.map_cons, hcast], ?_⟩
    rw [offsetOf_cons, hoffset, nodeOf]
    push_cast
    rw [hcast]

/-- The value of the map at the node with given coordinates. -/
theorem nodeValue_nodeTrend {c : List ℤ}
    (h : List.Forall₂ (fun (x : ℤ) (r : ℕ) => 0 ≤ x ∧ x < r) c res) :
    nodeValue (nodeTrend res low width g) (offsetOf res c) =
      g (boxPoint low width (c.map fun x : ℤ => (x : ℝ))) := by
  have hlt := offsetOf_lt_size (h.imp fun x r hx => hx.2)
  obtain ⟨cs, hwithin, rfl, hoffset⟩ := exists_nodeOf_eq_offsetOf h
  rw [hoffset] at hlt ⊢
  rw [nodeValue_fin _ ⟨nodeOf res cs, by exact_mod_cast hlt⟩]
  unfold nodeTrend
  rw [coordsOf_nodeOf hwithin, List.map_map]
  rfl

theorem forall₂_corner {lower : List ℤ} (h : IsCellCoords res lower) {bits : List Bool}
    (hbits : bits.length = res.length) :
    List.Forall₂ (fun (x : ℤ) (r : ℕ) => 0 ≤ x ∧ x < r)
      (List.zipWith (· + ·) lower (cornerStep bits)) res := by
  have hlen : lower.length = (cornerStep bits).length := by
    rw [length_cornerStep, hbits, h.length_eq]
  refine List.forall₂_iff_get.mpr ⟨?_, fun i h1 h2 => ?_⟩
  · rw [List.length_zipWith, ← hlen, min_self, h.length_eq]
  · rw [List.length_zipWith] at h1
    have hcell := h.get (i := i) (by omega) h2
    have hstep := mem_cornerStep (List.getElem_mem (l := cornerStep bits) (n := i) (by omega))
    simp only [List.get_eq_getElem, List.getElem_zipWith] at hcell ⊢
    omega

/-- Interpolation at a point gives the value of the map there. -/
theorem dotProduct_nodeTrend_ofPoint (hg : IsMultiAffineMap res.length g) (hne : res ≠ [])
    (hres : ∀ r ∈ res, 2 ≤ r) (hlow : low.length = res.length) (hwidth : width.length = res.length)
    (hwidths : ∀ w ∈ width, w ≠ 0) {point : List ℝ} (hpoint : point.length = res.length) :
    (fun i : Fin (size res) => combination (Cell.ofPoint res low width point).base
        ((cornerOffsets ((strides res).map Int.ofNat)).zip
          (cornerWeights (Cell.ofPoint res low width point).fraction)) i) ⬝ᵥ
      nodeTrend res low width g = g point := by
  have hcell := Cell.isCellCoords_coordsAt hlow hwidth hpoint hres
  have hcoords := Cell.length_coordsAt hlow hwidth hpoint
  have hplaces := Cell.length_placeAt hlow hwidth hpoint
  have hparts := Cell.length_fraction_ofPoint hlow hwidth hpoint
  have hbase : (Cell.ofPoint res low width point).base =
      offsetOf res (Cell.coordsAt res low width point) := stepOffset_eq hne _
  have hcorner : ∀ t ∈ (corners res.length).zip
      (cornerWeights (Cell.ofPoint res low width point).fraction),
      t.2 * nodeValue (nodeTrend res low width g)
          (offsetOf res (Cell.coordsAt res low width point) + offsetOf res (cornerStep t.1)) =
        t.2 * g (boxPoint low width ((List.zipWith (· + ·) (Cell.coordsAt res low width point)
          (cornerStep t.1)).map fun x : ℤ => (x : ℝ))) := by
    intro t ht
    have hbits := length_of_mem_corners (List.of_mem_zip ht).1
    rw [← offsetOf_add (by rw [hcoords, length_cornerStep, hbits]),
      nodeValue_nodeTrend (forall₂_corner hcell hbits)]
  have hplace : List.zipWith (fun (x : ℤ) part => (x : ℝ) + part)
      (Cell.coordsAt res low width point) (Cell.ofPoint res low width point).fraction =
      Cell.placeAt low width point := by
    refine List.ext_getElem ?_ fun i h1 h2 => ?_
    · rw [List.length_zipWith, hcoords, hparts, min_self, hplaces]
    · simp only [Cell.ofPoint, List.getElem_zipWith]
      ring
  rw [dotProduct_combination, cornerOffsets_strides hne, List.zip_map_left, List.map_map, hbase]
  calc _ = _ := congrArg List.sum (List.map_congr_left hcorner)
    _ = g (boxPoint low width (Cell.placeAt low width point)) := by
      rw [(hg.comp_boxPoint hlow hwidth).sum_corners hcoords hparts, hplace]
    _ = g point := by rw [boxPoint_placeAt hlow hwidth hpoint hwidths]

/-- Along every line the nodes have affine values. -/
theorem isAffineAlong_nodeTrend (hg : IsMultiAffineMap res.length g) (hres : ∀ r ∈ res, 0 < r)
    (hlow : low.length = res.length) (hwidth : width.length = res.length) {a : Axis}
    (ha : a ∈ axes res) : IsAffineAlong res a none (nodeTrend res low width g) := by
  intro start hlt hstart
  have hplace : ((coordsOf res start).map fun c : ℕ => (c : ℝ)).length = res.length := by
    rw [List.length_map, length_coordsOf]
  obtain ⟨p, q, hpq⟩ := hg.comp_boxPoint hlow hwidth _ hplace a.index (index_lt ha)
  refine ⟨p, q, ?_⟩
  intro k hk
  have hcoord : a.coord start + k < a.count := by omega
  have hnode := add_mul_stride_lt_size ha hlt hcoord
  simp only
  rw [nodeValue_fin _ ⟨start + k * a.stride, hnode⟩]
  unfold nodeTrend
  rw [coordsOf_add_mul_stride hres ha hlt hcoord, hstart, Nat.zero_add, List.map_set]
  exact hpq k

end Nodes

end GridSpline
