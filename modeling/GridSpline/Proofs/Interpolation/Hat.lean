import Mathlib
import GridSpline.Proofs.Equations.LeastSquares
import GridSpline.Proofs.Interpolation.Cell

/-!
# The weight of a node at a point

The weights of the corners of a cell are listed by corner, each with the difference of its node
number from that of the lowest node. Here they are read the other way, node by node: along every
axis the weight of a node falls from one at the node to zero at its neighbours, and the weight at a
point is the product over the axes. So a point has a share in exactly the nodes that are less than
one cell away from it along every axis, and it does not matter in which of the cells it was located
if it lies between two of them.

## Main definitions

* `axisShare` — the share of a coordinate in a place between two neighbours.
* `hat` — the same by the distance alone.
* `Cell.Holds` — a cell that a place lies in or on the border of.

## Main statements

* `combination_corners` — the weights of the corners, node by node.
* `Cell.Holds.combination_eq` — the weight of a node at a place is a product of hats.
* `combination_ofPoint_ne_zero_iff` — a point has a share in the nodes around it.
-/

namespace GridSpline

open Scalar
open GridSpline.Lattice

/-! ## Digit by digit -/

/-- The share of a coordinate in a place that is a given part of the way behind its lower
neighbour. -/
noncomputable def axisShare (lower : ℤ) (part : ℝ) (coord : ℕ) : ℝ :=
  if lower = coord then 1 - part else if lower + 1 = coord then part else 0

theorem digit_add_mul_eq_iff {r i : ℕ} {x q : ℤ} (h0 : 0 ≤ x) (hx : x < r) :
    x + r * q = i ↔ x = (i % r : ℕ) ∧ q = (i / r : ℕ) := by
  have hr : (0 : ℤ) < r := by omega
  have hunique := Int.ediv_emod_unique hr (a := (i : ℤ)) (r := x) (q := q)
  push_cast
  constructor
  · intro h
    obtain ⟨hdiv, hmod⟩ := hunique.mpr ⟨h, h0, hx⟩
    exact ⟨hmod.symm, hdiv.symm⟩
  · rintro ⟨hmod, hdiv⟩
    exact (hunique.mp ⟨hdiv.symm, hmod.symm⟩).1

/-- The two corners that differ in the first axis only take their shares in the first digit. -/
theorem pair_eq_axisShare_mul {r i : ℕ} {lower : ℤ} (h : 0 ≤ lower ∧ lower + 2 ≤ r) (part : ℝ)
    (base o : ℤ) (w : ℝ) :
    (if lower + r * base + r * o = i then (1 - part) * w else 0) +
        (if lower + r * base + (1 + r * o) = i then part * w else 0) =
      axisShare lower part (i % r) * if base + o = (i / r : ℕ) then w else 0 := by
  have hfirst : lower + r * base + r * o = i ↔ lower = (i % r : ℕ) ∧ base + o = (i / r : ℕ) := by
    rw [← digit_add_mul_eq_iff h.1 (by omega)]
    exact ⟨fun h => by linarith, fun h => by linarith⟩
  have hsecond : lower + r * base + (1 + r * o) = i ↔
      lower + 1 = (i % r : ℕ) ∧ base + o = (i / r : ℕ) := by
    rw [← digit_add_mul_eq_iff (by omega) (by omega)]
    exact ⟨fun h => by linarith, fun h => by linarith⟩
  simp only [hfirst, hsecond]
  unfold axisShare
  generalize i % r = c
  generalize i / r = q
  by_cases hrest : base + o = (q : ℤ)
  · by_cases h1 : lower = (c : ℤ)
    · simp [hrest, h1]
    · by_cases h2 : lower + 1 = (c : ℤ)
      · simp [hrest, h1, h2]
      · simp [h1, h2]
  · simp [hrest]

theorem combination_flatMap {r : ℕ} {lower : ℤ} (h : 0 ≤ lower ∧ lower + 2 ≤ r) (part : ℝ)
    (base : ℤ) (offsets : List ℤ) (weights : List ℝ) (i : ℕ) :
    combination (lower + r * base) ((offsets.flatMap fun o => [(r : ℤ) * o, 1 + r * o]).zip
        (weights.flatMap fun w => [(1 - part) * w, part * w])) i =
      axisShare lower part (i % r) * combination base (offsets.zip weights) (i / r : ℕ) := by
  induction offsets generalizing weights with
  | nil => simp
  | cons o os ih =>
    cases weights with
    | nil => simp
    | cons w ws =>
      rw [List.flatMap_cons, List.flatMap_cons, List.cons_append, List.cons_append,
        List.nil_append, List.cons_append, List.cons_append, List.nil_append,
        List.zip_cons_cons, List.zip_cons_cons, combination_cons, combination_cons, ← add_assoc, ih,
        pair_eq_axisShare_mul h, List.zip_cons_cons, combination_cons]
      ring

/-- The weights of the corners, node by node. -/
theorem combination_corners {res : List ℕ} {lower : List ℤ} {parts : List ℝ}
    (h : IsCellCoords res lower) (hparts : parts.length = res.length) {i : ℕ} (hi : i < size res) :
    combination (offsetOf res lower)
        (((corners res.length).map fun b => offsetOf res (cornerStep b)).zip
          (cornerWeights parts)) i =
      (List.zipWith (fun (p : ℤ × ℝ) c => axisShare p.1 p.2 c) (lower.zip parts)
        (coordsOf res i)).prod := by
  induction h generalizing parts i with
  | nil =>
    rw [List.length_nil, List.length_eq_zero_iff] at hparts
    subst hparts
    rw [size, Nat.lt_one_iff] at hi
    subst hi
    simp [corners, cornerWeights, combination_cons, coordsOf]
  | @cons x r xs rs hx _ ih =>
    cases parts with
    | nil => simp at hparts
    | cons p ps =>
      have hr : 0 < r := by omega
      have hrest : i / r < size rs := by
        rw [size] at hi
        exact Nat.div_lt_of_lt_mul hi
      have hoffsets : ((corners (r :: rs).length).map fun b => offsetOf (r :: rs) (cornerStep b)) =
          ((corners rs.length).map fun b => offsetOf rs (cornerStep b)).flatMap
            fun o => [(r : ℤ) * o, 1 + r * o] := by
        rw [List.length_cons, corners, List.map_flatMap, List.flatMap_map]
        simp [cornerStep]
      rw [hoffsets, offsetOf_cons, cornerWeights, combination_flatMap hx,
        ih (by simpa using hparts) hrest, coordsOf, List.zip_cons_cons, List.zipWith_cons_cons,
        List.prod_cons]

/-! ## At a point -/

/-- The weight of a coordinate at a place: one where they agree, falling to zero over one cell. -/
noncomputable def hat (place : ℝ) (coord : ℕ) : ℝ := max (1 - |place - coord|) 0

theorem hat_ne_zero_iff {place : ℝ} {coord : ℕ} : hat place coord ≠ 0 ↔ |place - coord| < 1 := by
  unfold hat
  constructor
  · intro h
    by_contra hge
    exact h (max_eq_right (by linarith))
  · intro h
    rw [max_eq_left (by linarith)]
    linarith

/-- A product of hats is zero as soon as one of the coordinates is a cell or more away. -/
theorem prod_hat_ne_zero_iff {place : List ℝ} {coords : List ℕ}
    (hlen : place.length = coords.length) : (List.zipWith hat place coords).prod ≠ 0 ↔
      List.Forall₂ (fun (t : ℝ) (c : ℕ) => |t - c| < 1) place coords := by
  rw [List.forall₂_iff_get, ne_eq, List.prod_eq_zero_iff]
  constructor
  · intro h
    refine ⟨hlen, fun e h1 h2 => hat_ne_zero_iff.mp fun h0 => h ?_⟩
    refine List.mem_iff_getElem.mpr ⟨e, by rw [List.length_zipWith]; omega, ?_⟩
    rw [List.getElem_zipWith]
    exact h0
  · rintro ⟨-, h⟩ hmem
    obtain ⟨e, he, h0⟩ := List.mem_iff_getElem.mp hmem
    rw [List.length_zipWith] at he
    rw [List.getElem_zipWith] at h0
    exact hat_ne_zero_iff.mpr (h e (by omega) (by omega)) h0

/-- Whichever of the cells around it a place on an axis is taken to belong to, the shares are the
same. -/
theorem axisShare_eq_hat {t : ℝ} {n : ℤ} (hn : (n : ℝ) ≤ t ∧ t ≤ n + 1) (c : ℕ) :
    axisShare n (t - n) c = hat t c := by
  unfold axisShare hat
  by_cases h1 : n = c
  · have hc : (n : ℝ) = c := by exact_mod_cast h1
    rw [if_pos h1, ← hc, abs_of_nonneg (by linarith), max_eq_left (by linarith)]
  · rw [if_neg h1]
    by_cases h2 : n + 1 = c
    · have hc : (n : ℝ) + 1 = c := by exact_mod_cast h2
      rw [if_pos h2, ← hc, abs_of_nonpos (by linarith), max_eq_left (by linarith)]
      ring
    · -- Any other coordinate is at least one cell away.
      rw [if_neg h2, max_eq_right]
      rcases lt_or_gt_of_ne h1 with hlt | hgt
      · have hc : (n : ℝ) + 2 ≤ c := by exact_mod_cast (show n + 2 ≤ (c : ℤ) by omega)
        rw [abs_of_nonpos (by linarith)]
        linarith
      · have hc : (c : ℝ) + 1 ≤ n := by exact_mod_cast (show (c : ℤ) + 1 ≤ n by omega)
        rw [abs_of_nonneg (by linarith)]
        linarith

/-- A place on the axis is in the cell that it is given or at its end. -/
theorem cellNumber_le_and_le {t : ℝ} {r : ℕ} (h0 : 0 ≤ t) (ht : t ≤ (r : ℝ) - 1) :
    (cellNumber t r : ℝ) ≤ t ∧ t ≤ cellNumber t r + 1 := by
  have hfloor : (0 : ℤ) ≤ ⌊t⌋ := Int.floor_nonneg.mpr h0
  unfold cellNumber
  rw [cellFloor_eq, max_eq_left hfloor]
  rcases min_cases ⌊t⌋ ((r : ℤ) - 2) with ⟨heq, -⟩ | ⟨heq, hlt⟩
  · rw [heq]
    exact ⟨Int.floor_le t, (Int.lt_floor_add_one t).le⟩
  · rw [heq]
    have hle : ((r : ℤ) - 2 : ℤ) + 1 ≤ ⌊t⌋ := by omega
    have hle' := Int.le_floor.mp hle
    push_cast at hle' ⊢
    constructor <;> linarith

namespace Cell

variable {res : List ℕ} {low width point : List ℝ}

/-- A cell of the lattice that a place lies in, or on the border of, with what is left of the place
from its lowest node on. -/
def Holds (res : List ℕ) (place : List ℝ) (cell : Cell ℝ) : Prop :=
  ∃ lower : List ℤ, IsCellCoords res lower ∧ cell.base = stepOffset res lower ∧
    cell.fraction = List.zipWith (fun t (n : ℤ) => t - (n : ℝ)) place lower ∧
    List.Forall₂ (fun (t : ℝ) (n : ℤ) => (n : ℝ) ≤ t ∧ t ≤ n + 1) place lower

section Places

variable {place : List ℝ}

/-- A place between the first and the last node lies in the cell that it is given. -/
theorem holds_ofPlace (hres : ∀ r ∈ res, 2 ≤ r)
    (hplace : List.Forall₂ (fun (t : ℝ) (r : ℕ) => 0 ≤ t ∧ t ≤ (r : ℝ) - 1) place res) :
    Holds res place (Cell.ofPlace res place) := by
  refine ⟨List.zipWith cellNumber place res,
    isCellCoords_zipWith_cellNumber hplace.length_eq hres, rfl, rfl,
    List.forall₂_iff_get.mpr ⟨by rw [List.length_zipWith, hplace.length_eq, min_self], ?_⟩⟩
  intro e h1 h2
  have hin := hplace.get h1 (hplace.length_eq ▸ h1)
  simp only [List.get_eq_getElem] at hin
  simp only [List.get_eq_getElem, List.getElem_zipWith]
  exact cellNumber_le_and_le hin.1 hin.2

theorem Holds.length_fraction {cell : Cell ℝ} (h : Holds res place cell) :
    cell.fraction.length = res.length := by
  obtain ⟨lower, hcell, -, hfraction, hin⟩ := h
  rw [hfraction, List.length_zipWith, hin.length_eq, min_self, hcell.length_eq]

/-- The corners of a cell that holds a place are nodes. -/
theorem Holds.corner_mem {cell : Cell ℝ} (h : Holds res place cell) (hne : res ≠ []) {o : ℤ}
    (ho : o ∈ cornerOffsets ((strides res).map Int.ofNat)) :
    0 ≤ cell.base + o ∧ cell.base + o < size res := by
  obtain ⟨lower, hcell, hbase, -⟩ := h
  rw [cornerOffsets_strides hne] at ho
  obtain ⟨bits, hbits, rfl⟩ := List.mem_map.mp ho
  rw [hbase, stepOffset_eq hne]
  exact corner_mem_lattice hcell (length_of_mem_corners hbits)

/-- The weight of a node at a place is a product of hats, in whichever of the cells that hold the
place it is taken. -/
theorem Holds.combination_eq {cell : Cell ℝ} (h : Holds res place cell) (hne : res ≠ []) {i : ℕ}
    (hi : i < size res) :
    combination cell.base ((cornerOffsets ((strides res).map Int.ofNat)).zip
        (cornerWeights cell.fraction)) i = (List.zipWith hat place (coordsOf res i)).prod := by
  have hparts := h.length_fraction
  obtain ⟨lower, hcell, hbase, hfraction, hin⟩ := h
  have hlower := hcell.length_eq
  have hplaces := hin.length_eq.trans hlower
  rw [hbase, stepOffset_eq hne, cornerOffsets_strides hne, combination_corners hcell hparts hi]
  congr 1
  refine List.ext_getElem ?_ fun e h1 h2 => ?_
  · simp only [List.length_zipWith, List.length_zip, length_coordsOf, hplaces, hlower, hparts,
      min_self]
  · have he : e < res.length := by
      rw [List.length_zipWith, length_coordsOf, hplaces, min_self] at h2
      exact h2
    have hbetween := hin.get (i := e) (by omega) (by omega)
    simp only [List.get_eq_getElem] at hbetween
    simp only [List.getElem_zipWith, List.getElem_zip, hfraction]
    exact axisShare_eq_hat hbetween _

/-- The weight of a node at a place is a product of hats. -/
theorem combination_ofPlace (hres : ∀ r ∈ res, 2 ≤ r)
    (hplace : List.Forall₂ (fun (t : ℝ) (r : ℕ) => 0 ≤ t ∧ t ≤ (r : ℝ) - 1) place res)
    (hne : res ≠ []) {i : ℕ} (hi : i < size res) :
    combination (Cell.ofPlace res place).base
        ((cornerOffsets ((strides res).map Int.ofNat)).zip
          (cornerWeights (Cell.ofPlace res place).fraction)) i =
      (List.zipWith hat place (coordsOf res i)).prod :=
  (holds_ofPlace hres hplace).combination_eq hne hi

end Places

section Weights

variable (hlow : low.length = res.length) (hwidth : width.length = res.length)
  (hpoint : point.length = res.length) (hres : ∀ r ∈ res, 2 ≤ r)
  (hplace : List.Forall₂ (fun (t : ℝ) (r : ℕ) => 0 ≤ t ∧ t ≤ (r : ℝ) - 1)
    (placeAt low width point) res)

include hres hplace in
/-- The weight of a node at a point is a product of hats. -/
theorem combination_ofPoint (hne : res ≠ []) {i : ℕ} (hi : i < size res) :
    combination (Cell.ofPoint res low width point).base
        ((cornerOffsets ((strides res).map Int.ofNat)).zip
          (cornerWeights (Cell.ofPoint res low width point).fraction)) i =
      (List.zipWith hat (placeAt low width point) (coordsOf res i)).prod :=
  combination_ofPlace hres hplace hne hi

include hlow hwidth hpoint hres hplace

/-- A point has a share in the nodes around it. -/
theorem combination_ofPoint_ne_zero_iff (hne : res ≠ []) {i : ℕ} (hi : i < size res) :
    combination (Cell.ofPoint res low width point).base
        ((cornerOffsets ((strides res).map Int.ofNat)).zip
          (cornerWeights (Cell.ofPoint res low width point).fraction)) i ≠ 0 ↔
      List.Forall₂ (fun (t : ℝ) (c : ℕ) => |t - c| < 1) (placeAt low width point)
        (coordsOf res i) := by
  have hlen : (placeAt low width point).length = (coordsOf res i).length := by
    rw [length_placeAt hlow hwidth hpoint, length_coordsOf]
  rw [combination_ofPoint hres hplace hne hi, prod_hat_ne_zero_iff hlen]

end Weights

end Cell

end GridSpline
