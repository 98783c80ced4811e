import Mathlib.Data.List.Nodup
import Mathlib.Tactic.Ring
import GridSpline.Proofs.Lattice.Line
import GridSpline.Solver.LineSweep

/-!
# The lines of a lattice

A line along an axis is given by the coordinates along all other axes. Its nodes are those that have
one more coordinate inserted at the place of the axis. So they are nodes of the lattice, and no node
is twice on a line.

## Main definitions

* `lineAt` — the line with given coordinates along all other axes.
* `redBlackCoords` — the other coordinates of the lines along an axis, in their order.

## Main statements

* `mem_rowMajorCoords_iff` — the listed coordinates are those within the lattice.
* `lineStart_add_mul` — the nodes of a line by their coordinates.
* `lines?_eq` — the lines along an axis.
* `lt_size_of_mem_allLines`, `nodup_of_mem_allLines` — a line that is solved has different nodes of
  the lattice.
-/

namespace GridSpline.Lattice

variable {res c : List ℕ}

/-- The listed coordinates are those within the lattice. -/
theorem mem_rowMajorCoords_iff : c ∈ rowMajorCoords res ↔ Within res c := by
  induction res generalizing c with
  | nil => cases c <;> simp [rowMajorCoords, Within]
  | cons r rs ih => cases c <;> simp [rowMajorCoords, Within, ih]

/-- Coordinates within the lattice are those of a node. -/
theorem nodeOf_lt_size (h : Within res c) : nodeOf res c < size res := by
  induction res generalizing c with
  | nil =>
    cases c with
    | nil => exact Nat.one_pos
    | cons _ _ => exact h.elim
  | cons r rs ih =>
    cases c with
    | nil => exact h.elim
    | cons x xs =>
      have hstep : nodeOf rs xs + 1 ≤ size rs := ih h.2
      rw [nodeOf, size]
      calc x + r * nodeOf rs xs < r + r * nodeOf rs xs := Nat.add_lt_add_right h.1 _
        _ = r * (nodeOf rs xs + 1) := by ring
        _ ≤ r * size rs := Nat.mul_le_mul_left r hstep

theorem entrySum_eq_sum (c : List ℕ) : entrySum c = c.sum := by
  unfold entrySum
  rw [List.sum_eq_foldl]

/-! ## One line -/

section Line

variable {e count i : ℕ}

theorem le_length_of_within_eraseIdx (he : res[e]? = some count) (h : Within (res.eraseIdx e) c) :
    e ≤ c.length := by
  obtain ⟨hlt, -⟩ := List.getElem?_eq_some_iff.mp he
  rw [length_of_within h, List.length_eraseIdx_of_lt hlt]
  omega

/-- A coordinate of the axis fits in between all others. -/
theorem within_insertIdx (he : res[e]? = some count) (h : Within (res.eraseIdx e) c)
    (hi : i < count) : Within res (c.insertIdx e i) := by
  induction res generalizing c e with
  | nil => simp at he
  | cons r rs ih =>
    cases e with
    | zero =>
      rw [List.getElem?_cons_zero, Option.some.injEq] at he
      exact ⟨he ▸ hi, h⟩
    | succ e =>
      rw [List.eraseIdx_cons_succ] at h
      cases c with
      | nil => exact h.elim
      | cons x xs =>
        rw [List.insertIdx_succ_cons]
        exact ⟨h.1, ih he h.2⟩

theorem sum_mul_stridesFrom {s : ℕ} (h : Within res c) :
    (List.zipWith (· * ·) c (stridesFrom s res)).sum = s * nodeOf res c := by
  induction res generalizing c s with
  | nil =>
    cases c with
    | nil => rfl
    | cons _ _ => exact h.elim
  | cons r rs ih =>
    cases c with
    | nil => exact h.elim
    | cons x xs =>
      rw [stridesFrom, List.zipWith_cons_cons, List.sum_cons, ih h.2, nodeOf]
      ring

theorem sum_add_mul_stridesFrom {s stride : ℕ} (he : res[e]? = some count)
    (hstride : (stridesFrom s res)[e]? = some stride) (h : Within (res.eraseIdx e) c) (i : ℕ) :
    (List.zipWith (· * ·) c ((stridesFrom s res).eraseIdx e)).sum + i * stride =
      s * nodeOf res (c.insertIdx e i) := by
  induction res generalizing c e s with
  | nil => simp at he
  | cons r rs ih =>
    cases e with
    | zero =>
      rw [List.eraseIdx_cons_zero] at h
      rw [stridesFrom, List.getElem?_cons_zero, Option.some.injEq] at hstride
      rw [stridesFrom, List.eraseIdx_cons_zero, sum_mul_stridesFrom h, List.insertIdx_zero, nodeOf,
        ← hstride]
      ring
    | succ e =>
      rw [List.eraseIdx_cons_succ] at h
      rw [stridesFrom, List.getElem?_cons_succ] at hstride
      rw [List.getElem?_cons_succ] at he
      cases c with
      | nil => exact h.elim
      | cons x xs =>
        rw [stridesFrom, List.eraseIdx_cons_succ, List.zipWith_cons_cons, List.sum_cons, add_assoc,
          ih he hstride h.2, List.insertIdx_succ_cons, nodeOf]
        ring

/-- The nodes of a line have the coordinate along the axis inserted between those at which the line
starts. -/
theorem lineStart_add_mul {stride : ℕ} (he : res[e]? = some count)
    (hstride : (strides res)[e]? = some stride) (h : Within (res.eraseIdx e) c) (i : ℕ) :
    lineStart ((strides res).eraseIdx e) c + i * stride = nodeOf res (c.insertIdx e i) := by
  have hne : ¬res.isEmpty = true := by
    intro hempty
    rw [List.isEmpty_iff.mp hempty] at he
    simp at he
  unfold strides at hstride ⊢
  rw [if_neg hne] at hstride ⊢
  unfold lineStart
  rw [entrySum_eq_sum, sum_add_mul_stridesFrom he hstride h, one_mul]

/-- The nodes that have given coordinates along all other axes, by growing coordinate. -/
def lineAt (res : List ℕ) (e count : ℕ) (c : List ℕ) : List ℕ :=
  (List.range count).map fun k => nodeOf res (c.insertIdx e k)

theorem map_coordsOf_lineAt (he : res[e]? = some count) (h : Within (res.eraseIdx e) c) :
    (lineAt res e count c).map (coordsOf res) =
      (List.range count).map fun k => c.insertIdx e k := by
  unfold lineAt
  rw [List.map_map]
  refine List.map_congr_left fun k hk => ?_
  exact coordsOf_nodeOf (within_insertIdx he h (List.mem_range.mp hk))

/-- No node is twice on a line, since a node has one coordinate along the axis. -/
theorem nodup_lineAt (he : res[e]? = some count) (h : Within (res.eraseIdx e) c) :
    (lineAt res e count c).Nodup := by
  refine List.Nodup.of_map (coordsOf res) ?_
  rw [map_coordsOf_lineAt he h]
  refine List.nodup_range.map_on fun j _ k _ heq => ?_
  have hentry := congrArg (fun l => l[e]?) heq
  simpa only [List.getElem?_insertIdx_self, if_pos (le_length_of_within_eraseIdx he h),
    Option.some.injEq] using hentry

end Line

/-! ## The lines along an axis -/

/-- The coordinates along all axes but one, those with an even sum first. -/
def redBlackCoords (others : List ℕ) : List (List ℕ) :=
  ((rowMajorCoords others).filter fun c => entrySum c % 2 = 0) ++
    (rowMajorCoords others).filter fun c => entrySum c % 2 = 1

theorem redBlackCoords_perm (others : List ℕ) :
    (redBlackCoords others).Perm (rowMajorCoords others) := by
  have hodd : (rowMajorCoords others).filter (fun c => entrySum c % 2 = 1) =
      (rowMajorCoords others).filter fun c => !decide (entrySum c % 2 = 0) := by
    refine List.filter_congr fun c _ => ?_
    rw [Bool.eq_iff_iff]
    simp
  unfold redBlackCoords
  rw [hodd]
  exact List.filter_append_perm _ _

theorem mem_redBlackCoords_iff {others : List ℕ} : c ∈ redBlackCoords others ↔ Within others c := by
  rw [(redBlackCoords_perm others).mem_iff, mem_rowMajorCoords_iff]

/-- Every choice of the other coordinates has its line. -/
theorem lines?_eq {e count : ℕ} (he : res[e]? = some count) :
    lines? res e = some ((redBlackCoords (res.eraseIdx e)).map (lineAt res e count)) := by
  obtain ⟨hlt, -⟩ := List.getElem?_eq_some_iff.mp he
  have hplace : e < (strides res).length := by
    rwa [length_strides (List.ne_nil_of_length_pos (by omega))]
  have hstride : (strides res)[e]? = some (strides res)[e] := List.getElem?_eq_getElem hplace
  unfold lines?
  rw [he, hstride]
  refine congrArg some ?_
  unfold lineStarts
  rw [List.map_map]
  refine List.map_congr_left fun c hc => ?_
  unfold lineAt lineNodes
  exact List.map_congr_left fun i _ =>
    lineStart_add_mul he hstride (mem_redBlackCoords_iff.mp hc) i

/-! ## All lines -/

/-- A line that is solved runs along an axis, between the other coordinates at which it starts. -/
theorem exists_of_mem_allLines {line : List ℕ} (hline : line ∈ allLines res) :
    ∃ e count c, res[e]? = some count ∧ Within (res.eraseIdx e) c ∧
      line = lineAt res e count c := by
  unfold allLines at hline
  obtain ⟨e, he, hmem⟩ := List.mem_flatMap.mp hline
  rw [List.mem_range] at he
  have hcount : res[e]? = some res[e] := List.getElem?_eq_getElem he
  rw [lines?_eq hcount] at hmem
  obtain ⟨c, hc, rfl⟩ := List.mem_map.mp hmem
  exact ⟨e, res[e], c, hcount, mem_redBlackCoords_iff.mp hc, rfl⟩

/-- The nodes of a line are nodes of the lattice. -/
theorem lt_size_of_mem_allLines {line : List ℕ} (hline : line ∈ allLines res) :
    ∀ i ∈ line, i < size res := by
  obtain ⟨e, count, c, he, hwithin, rfl⟩ := exists_of_mem_allLines hline
  intro i hi
  obtain ⟨k, hk, rfl⟩ := List.mem_map.mp hi
  exact nodeOf_lt_size (within_insertIdx he hwithin (List.mem_range.mp hk))

/-- No node is twice on a line. -/
theorem nodup_of_mem_allLines {line : List ℕ} (hline : line ∈ allLines res) : line.Nodup := by
  obtain ⟨e, count, c, he, hwithin, rfl⟩ := exists_of_mem_allLines hline
  exact nodup_lineAt he hwithin

/-- The nodes of a line have the same coordinates along all axes but one. -/
theorem exists_axis_of_mem_allLines {line : List ℕ} (hline : line ∈ allLines res) :
    ∃ e < res.length, ∀ a ∈ axes res, a.index ≠ e → ∀ i ∈ line, ∀ j ∈ line,
      a.coord i = a.coord j := by
  obtain ⟨e, count, c, he, hwithin, rfl⟩ := exists_of_mem_allLines hline
  refine ⟨e, (List.getElem?_eq_some_iff.mp he).1, fun a ha hne i hi j hj => ?_⟩
  have hentry : ∀ k < count, some (a.coord (nodeOf res (c.insertIdx e k))) =
      (c.insertIdx e k)[a.index]? := by
    intro k hk
    rw [← getElem?_coordsOf ha, coordsOf_nodeOf (within_insertIdx he hwithin hk)]
  obtain ⟨k, hk, rfl⟩ := List.mem_map.mp hi
  obtain ⟨l, hl, rfl⟩ := List.mem_map.mp hj
  rw [← Option.some.injEq, hentry k (List.mem_range.mp hk), hentry l (List.mem_range.mp hl)]
  simp only [List.getElem?_insertIdx, hne, if_false]

/-- Along a single axis there is one line, with all nodes on it. -/
theorem mem_line_of_length_eq_one {line : List ℕ} (hline : line ∈ allLines res)
    (hone : res.length = 1) {i : ℕ} (hi : i < size res) : i ∈ line := by
  obtain ⟨r, rfl⟩ := List.length_eq_one_iff.mp hone
  obtain ⟨e, count, c, he, hwithin, rfl⟩ := exists_of_mem_allLines hline
  obtain ⟨hlt, hcount⟩ := List.getElem?_eq_some_iff.mp he
  have he0 : e = 0 := Nat.lt_one_iff.mp hlt
  subst he0
  obtain rfl : c = [] := List.length_eq_zero_iff.mp (length_of_within hwithin)
  refine List.mem_map.mpr ⟨i, List.mem_range.mpr ?_, ?_⟩
  · rw [← hcount]
    simpa [size] using hi
  · simp [nodeOf]

end GridSpline.Lattice
