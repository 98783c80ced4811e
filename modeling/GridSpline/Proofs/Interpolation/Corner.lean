import Mathlib.Data.List.Zip
import GridSpline.Interpolation.Corner
import GridSpline.Proofs.Sparse.Stencil

/-!
# Corners as steps

The corners of a cell are the steps of zero or one node along every axis. On a lattice with at least
two nodes along every axis their binary order is the order of the nodes: the axes before one another
together reach less far than one step along the next. The difference of two corners is a step of the
stencil.

## Main definitions

* `cornerStep` — a corner as a step.

## Main statements

* `cornerOffsets_strides` — the offsets of the corners are those of the steps.
* `pairwise_cornerOffsets` — later corners have greater offsets, and the differences have a column.
* `corner_mem_lattice` — the corners of a cell of the lattice are nodes of it.
-/

namespace GridSpline

open GridSpline.Lattice

variable {res : List ℕ}

/-- The step to a corner. -/
def cornerStep (bits : List Bool) : List ℤ := bits.map fun b => if b then 1 else 0

theorem length_cornerStep (bits : List Bool) : (cornerStep bits).length = bits.length :=
  List.length_map _

theorem length_of_mem_corners {n : ℕ} {bits : List Bool} (h : bits ∈ corners n) :
    bits.length = n := by
  induction n generalizing bits with
  | zero =>
    rw [corners, List.mem_singleton] at h
    rw [h]
    rfl
  | succ n ih =>
    rw [corners, List.mem_flatMap] at h
    obtain ⟨rest, hrest, hbits⟩ := h
    have hl := ih hrest
    simp only [List.mem_cons, List.not_mem_nil, or_false] at hbits
    rcases hbits with rfl | rfl <;> simp [hl]

theorem mem_cornerStep {bits : List Bool} {x : ℤ} (h : x ∈ cornerStep bits) : x = 0 ∨ x = 1 := by
  obtain ⟨b, -, rfl⟩ := List.mem_map.mp h
  cases b
  · exact Or.inl rfl
  · exact Or.inr rfl

theorem cornerOffsets_stridesFrom (s : ℕ) (res : List ℕ) :
    cornerOffsets ((stridesFrom s res).map Int.ofNat) =
      (corners res.length).map fun bits => (s : ℤ) * offsetOf res (cornerStep bits) := by
  induction res generalizing s with
  | nil => rfl
  | cons r rs ih =>
    rw [stridesFrom, List.map_cons, cornerOffsets, ih, List.length_cons, corners, List.flatMap_map,
      List.map_flatMap]
    refine List.flatMap_congr ?_
    intro bits _
    simp only [cornerStep, List.map_cons, List.map_nil, offsetOf_cons]
    push_cast
    congr 1
    · simp
      ring
    · congr 1
      simp
      ring

/-- The offsets of the corners are those of the steps. -/
theorem cornerOffsets_strides (hne : res ≠ []) :
    cornerOffsets ((strides res).map Int.ofNat) =
      (corners res.length).map fun bits => offsetOf res (cornerStep bits) := by
  unfold strides
  rw [if_neg (by simpa using hne), cornerOffsets_stridesFrom]
  simp

/-! ## Order -/

/-- The binary order of the corners is the order of the nodes. -/
theorem pairwise_corners (hres : ∀ r ∈ res, 2 ≤ r) :
    (corners res.length).Pairwise fun b c =>
      offsetOf res (cornerStep b) < offsetOf res (cornerStep c) := by
  induction res with
  | nil => simp [corners]
  | cons r rs ih =>
    have hr : (2 : ℤ) ≤ r := by exact_mod_cast hres r List.mem_cons_self
    have hrest := ih fun x hx => hres x (List.mem_cons_of_mem r hx)
    rw [List.length_cons, corners, List.pairwise_flatMap]
    constructor
    · intro bits _
      simp [cornerStep]
    · refine hrest.imp fun {b c} hbc x hx y hy => ?_
      -- One step along the later axes is worth more than one along this axis.
      have hstep : (r : ℤ) * offsetOf rs (cornerStep b) + 2 ≤ r * offsetOf rs (cornerStep c) := by
        have hmul := mul_le_mul_of_nonneg_left (Int.add_one_le_iff.mpr hbc)
          (show (0 : ℤ) ≤ r by omega)
        linarith
      simp only [List.mem_cons, List.not_mem_nil, or_false] at hx hy
      rcases hx with rfl | rfl <;> rcases hy with rfl | rfl <;>
        simp only [cornerStep, List.map_cons, offsetOf_cons, if_true, Bool.false_eq_true,
          if_false] at hstep ⊢ <;> linarith

/-- The difference of two corners has a column unless it lowers the node number. -/
theorem sub_corner_mem_stencilOffsets (hne : res ≠ []) {b c : List Bool}
    (hb : b ∈ corners res.length) (hc : c ∈ corners res.length)
    (hlt : offsetOf res (cornerStep b) < offsetOf res (cornerStep c)) :
    (offsetOf res (cornerStep c) - offsetOf res (cornerStep b)).toNat ∈ stencilOffsets res := by
  have hlb : (cornerStep b).length = res.length := by
    rw [length_cornerStep, length_of_mem_corners hb]
  have hlc : (cornerStep c).length = res.length := by
    rw [length_cornerStep, length_of_mem_corners hc]
  refine near_mem_stencilOffsets hne
    (g := List.zipWith (· - ·) (cornerStep c) (cornerStep b)) ?_ ?_ ?_
  · rw [List.length_zipWith, hlb, hlc, min_self]
  · intro x hx
    obtain ⟨i, hi, rfl⟩ := List.mem_iff_getElem.mp hx
    rw [List.length_zipWith] at hi
    rw [List.getElem_zipWith]
    have h1 := mem_cornerStep (List.getElem_mem (l := cornerStep c) (n := i) (by omega))
    have h2 := mem_cornerStep (List.getElem_mem (l := cornerStep b) (n := i) (by omega))
    omega
  · rw [offsetOf_sub (hlc.trans hlb.symm)]
    omega

/-- Later corners have greater offsets, and the differences have a column. -/
theorem pairwise_cornerOffsets (hne : res ≠ []) (hres : ∀ r ∈ res, 2 ≤ r) :
    (cornerOffsets ((strides res).map Int.ofNat)).Pairwise fun o p =>
      o < p ∧ (p - o).toNat ∈ stencilOffsets res := by
  rw [cornerOffsets_strides hne, List.pairwise_map]
  refine (pairwise_corners hres).imp_of_mem fun {b c} hb hc hlt => ?_
  exact ⟨hlt, sub_corner_mem_stencilOffsets hne hb hc hlt⟩

/-! ## Cells of the lattice -/

/-- The lowest node of a cell of the lattice: it has an upper neighbour along every axis. -/
def IsCellCoords (res : List ℕ) (c : List ℤ) : Prop :=
  List.Forall₂ (fun (x : ℤ) (r : ℕ) => 0 ≤ x ∧ x + 2 ≤ r) c res

/-- The corners of a cell of the lattice are nodes of it. -/
theorem corner_mem_lattice {c : List ℤ} (h : IsCellCoords res c) {bits : List Bool}
    (hb : bits.length = res.length) :
    0 ≤ offsetOf res c + offsetOf res (cornerStep bits) ∧
      offsetOf res c + offsetOf res (cornerStep bits) < size res := by
  have hl : c.length = (cornerStep bits).length := by
    rw [length_cornerStep, hb, h.length_eq]
  rw [← offsetOf_add hl]
  constructor
  · refine offsetOf_nonneg ?_
    intro x hx
    obtain ⟨i, hi, rfl⟩ := List.mem_iff_getElem.mp hx
    rw [List.length_zipWith] at hi
    rw [List.getElem_zipWith]
    have h1 := mem_cornerStep (List.getElem_mem (l := cornerStep bits) (n := i) (by omega))
    have h2 := (h.get (i := i) (by omega) (by rw [← h.length_eq]; omega)).1
    simp only [List.get_eq_getElem] at h2
    omega
  · refine offsetOf_lt_size (List.forall₂_iff_get.mpr ⟨?_, ?_⟩)
    · rw [List.length_zipWith, ← hl, min_self, h.length_eq]
    · intro i h1 h2
      rw [List.length_zipWith] at h1
      simp only [List.get_eq_getElem, List.getElem_zipWith]
      have h3 := mem_cornerStep (List.getElem_mem (l := cornerStep bits) (n := i) (by omega))
      have h4 := (h.get (i := i) (by omega) h2).2
      simp only [List.get_eq_getElem] at h4
      omega

end GridSpline
