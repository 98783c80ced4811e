import Mathlib.Data.List.InsertIdx
import Mathlib.Data.List.Nodup
import GridSpline.Proofs.Dense.Components
import GridSpline.Proofs.Dense.Reshape

/-!
# Lines in red-black order

A line along an axis is one choice of the coordinates along all other axes, and every choice is made
once. So along each axis a node is on exactly one line, the one of its own other coordinates, and
the lines put together are a rearrangement of the nodes. The choices with an even sum come before
those with an odd one.

## Main definitions

* `AreLinesAlong` — lists of nodes are the lines along an axis, in red-black order.

## Main statements

* `mem_lineAt_iff` — a node is on the line of its own other coordinates.
* `flatten_lines_perm` — the lines along an axis have every node once.
* `areLinesAlong` — the lines along an axis.
* `count_flatten_allLines` — the lines of all axes have every node once for each axis.
-/

namespace GridSpline.Lattice

variable {res c : List ℕ} {e count i : ℕ}

/-! ## The other coordinates -/

theorem nodup_rowMajorCoords (res : List ℕ) : (rowMajorCoords res).Nodup := by
  induction res with
  | nil => simp [rowMajorCoords]
  | cons r rs ih =>
    rw [rowMajorCoords, List.nodup_flatMap]
    refine ⟨fun x _ => ih.map List.cons_injective, ?_⟩
    refine List.nodup_range.imp fun {x y} hxy c hx hy => ?_
    obtain ⟨xs, -, rfl⟩ := List.mem_map.mp hx
    obtain ⟨ys, -, heq⟩ := List.mem_map.mp hy
    exact hxy (List.cons.inj heq).1.symm

theorem nodup_redBlackCoords (others : List ℕ) : (redBlackCoords others).Nodup :=
  (redBlackCoords_perm others).nodup_iff.mpr (nodup_rowMajorCoords others)

theorem length_rowMajorCoords (res : List ℕ) : (rowMajorCoords res).length = res.prod := by
  induction res with
  | nil => rfl
  | cons r rs ih =>
    rw [rowMajorCoords, length_flatMap_of_length fun x _ => by rw [List.length_map, ih],
      List.length_range, List.prod_cons]

/-- Choices with an even sum come before those with an odd one. -/
theorem pairwise_redBlackCoords (others : List ℕ) :
    (redBlackCoords others).Pairwise fun c d => c.sum % 2 ≤ d.sum % 2 := by
  have hparity : ∀ p, ∀ c ∈ (rowMajorCoords others).filter fun c => entrySum c % 2 = p,
      c.sum % 2 = p := by
    intro p c hc
    rw [← entrySum_eq_sum]
    exact of_decide_eq_true (List.mem_filter.mp hc).2
  refine List.pairwise_append.mpr ⟨?_, ?_, fun c hc d _ => ?_⟩
  · exact List.pairwise_of_forall_mem_list fun c hc d hd =>
      ((hparity 0 c hc).trans (hparity 0 d hd).symm).le
  · exact List.pairwise_of_forall_mem_list fun c hc d hd =>
      ((hparity 1 c hc).trans (hparity 1 d hd).symm).le
  · rw [hparity 0 c hc]
    exact Nat.zero_le _

/-! ## The lines along an axis -/

/-- The coordinates of a node are within the lattice without one of its axes, too. -/
theorem within_eraseIdx (h : Within res c) (e : ℕ) : Within (res.eraseIdx e) (c.eraseIdx e) := by
  induction res generalizing c e with
  | nil =>
    cases c with
    | nil => exact h
    | cons _ _ => exact h.elim
  | cons r rs ih =>
    cases c with
    | nil => exact h.elim
    | cons x xs =>
      cases e with
      | zero => exact h.2
      | succ e => exact ⟨h.1, ih h.2 e⟩

/-- Lists of nodes are the lines along an axis, in red-black order. -/
structure AreLinesAlong (res : List ℕ) (e count : ℕ) (lines : List (List ℕ)) : Prop where
  /-- There is a line for every choice of the coordinates along the other axes. -/
  length : lines.length = (res.eraseIdx e).prod
  /-- The nodes of a line have one such choice in common, and go through the axis in order. -/
  coordinates : ∀ line ∈ lines, ∃ c, Within (res.eraseIdx e) c ∧
    line.map (coordsOf res) = (List.range count).map fun k => c.insertIdx e k
  /-- No two lines meet. -/
  disjoint : lines.Pairwise List.Disjoint
  /-- The nodes of the lattice are those on lines. -/
  covering : ∀ i, (∃ line ∈ lines, i ∈ line) ↔ i < size res
  /-- Lines whose other coordinates have an even sum come before those with an odd one. -/
  redBlack : lines.Pairwise fun l m => ∀ i ∈ l, ∀ j ∈ m,
    ((coordsOf res i).eraseIdx e).sum % 2 ≤ ((coordsOf res j).eraseIdx e).sum % 2

section Axis

variable (he : res[e]? = some count)

include he

/-- A node is on the line of its own other coordinates. -/
theorem mem_lineAt_iff (h : Within (res.eraseIdx e) c) :
    i ∈ lineAt res e count c ↔ i < size res ∧ (coordsOf res i).eraseIdx e = c := by
  constructor
  · intro hi
    obtain ⟨k, hk, rfl⟩ := List.mem_map.mp hi
    have hwithin := within_insertIdx he h (List.mem_range.mp hk)
    exact ⟨nodeOf_lt_size hwithin, by rw [coordsOf_nodeOf hwithin, List.eraseIdx_insertIdx_self]⟩
  · rintro ⟨hi, rfl⟩
    obtain ⟨hlt, rfl⟩ := List.getElem?_eq_some_iff.mp he
    have hplace : e < (coordsOf res i).length := by rwa [length_coordsOf]
    have hcoord := (within_iff.mp (within_coordsOf_of_lt hi)).get hplace hlt
    refine List.mem_map.mpr ⟨(coordsOf res i)[e], List.mem_range.mpr hcoord, ?_⟩
    rw [List.insertIdx_eraseIdx_getElem hplace, nodeOf_coordsOf hi]

theorem pairwise_disjoint_lines :
    ((redBlackCoords (res.eraseIdx e)).map (lineAt res e count)).Pairwise List.Disjoint := by
  rw [List.pairwise_map]
  refine (nodup_redBlackCoords _).imp_of_mem fun {c d} hc hd hcd i hic hid => hcd ?_
  rw [mem_redBlackCoords_iff] at hc hd
  exact ((mem_lineAt_iff he hc).mp hic).2.symm.trans ((mem_lineAt_iff he hd).mp hid).2

theorem exists_line_iff :
    (∃ line ∈ (redBlackCoords (res.eraseIdx e)).map (lineAt res e count), i ∈ line) ↔
      i < size res := by
  constructor
  · rintro ⟨line, hline, hi⟩
    obtain ⟨c, hc, rfl⟩ := List.mem_map.mp hline
    exact ((mem_lineAt_iff he (mem_redBlackCoords_iff.mp hc)).mp hi).1
  · intro hi
    have hwithin := within_eraseIdx (within_coordsOf_of_lt hi) e
    exact ⟨_, List.mem_map_of_mem (mem_redBlackCoords_iff.mpr hwithin),
      (mem_lineAt_iff he hwithin).mpr ⟨hi, rfl⟩⟩

/-- The lines along an axis have every node once. -/
theorem flatten_lines_perm :
    (((redBlackCoords (res.eraseIdx e)).map (lineAt res e count)).flatten).Perm
      (List.range (size res)) := by
  have hnodup : ((redBlackCoords (res.eraseIdx e)).map (lineAt res e count)).flatten.Nodup := by
    rw [List.nodup_flatten]
    refine ⟨fun line hline => ?_, pairwise_disjoint_lines he⟩
    obtain ⟨c, hc, rfl⟩ := List.mem_map.mp hline
    exact nodup_lineAt he (mem_redBlackCoords_iff.mp hc)
  rw [List.perm_ext_iff_of_nodup hnodup List.nodup_range]
  intro i
  rw [List.mem_flatten, exists_line_iff he, List.mem_range]

theorem areLinesAlong :
    AreLinesAlong res e count ((redBlackCoords (res.eraseIdx e)).map (lineAt res e count)) where
  length := by
    rw [List.length_map, (redBlackCoords_perm _).length_eq, length_rowMajorCoords]
  coordinates line hline := by
    obtain ⟨c, hc, rfl⟩ := List.mem_map.mp hline
    have hwithin := mem_redBlackCoords_iff.mp hc
    exact ⟨c, hwithin, map_coordsOf_lineAt he hwithin⟩
  disjoint := pairwise_disjoint_lines he
  covering _ := exists_line_iff he
  redBlack := by
    rw [List.pairwise_map]
    refine (pairwise_redBlackCoords _).imp_of_mem fun {c d} hc hd hcd i hi j hj => ?_
    rw [mem_redBlackCoords_iff] at hc hd
    rwa [((mem_lineAt_iff he hc).mp hi).2, ((mem_lineAt_iff he hd).mp hj).2]

end Axis

/-! ## The lines of all axes -/

/-- The lines of all axes have every node once for each axis. -/
theorem count_flatten_allLines (hi : i < size res) :
    (allLines res).flatten.count i = res.length := by
  have honce : ∀ e ∈ List.range res.length,
      (((lines? res e).getD []).flatten).count i = 1 := by
    intro e he
    have hcount : res[e]? = some _ := List.getElem?_eq_getElem (List.mem_range.mp he)
    rw [lines?_eq hcount, Option.getD_some, (flatten_lines_perm hcount).count_eq]
    exact List.count_eq_one_of_mem List.nodup_range (List.mem_range.mpr hi)
  have hsplit : (allLines res).flatten =
      (List.range res.length).flatMap fun e => ((lines? res e).getD []).flatten := by
    unfold allLines
    rw [List.flatMap_def, List.flatMap_def, List.flatten_flatten, List.map_map]
    rfl
  rw [hsplit, List.count_flatMap]
  calc ((List.range res.length).map fun e => ((lines? res e).getD []).flatten.count i).sum
      = ((List.range res.length).map fun _ => 1).sum := by rw [List.map_congr_left honce]
    _ = res.length := by
      rw [List.map_const', List.length_range, List.sum_replicate_nat, Nat.mul_one]

end GridSpline.Lattice
