import GridSpline.Proofs.Lattice.Offset
import GridSpline.Sparse.Stencil

/-!
# The columns of the stencil

Which differences of node numbers have a column, and that the table of columns and the table of
differences are each other's inverse. Steps of at most one node along every axis, and of two nodes
along one axis, have a column unless they lower the node number.

## Main statements

* `mem_stencilOffsets` — the differences that have a column are those of the steps.
* `column?_eq_some_iff` — a column is found exactly at the place of its difference.
* `zero_mem_stencilOffsets`, `near_mem_stencilOffsets`, `stride_mem_stencilOffsets`,
  `two_mul_stride_mem_stencilOffsets` — steps whose differences have a column.
-/

namespace GridSpline

open GridSpline.Lattice

variable {res : List ℕ}

/-! ## Differences -/

theorem mem_nearSteps {n : ℕ} {g : List ℤ} :
    g ∈ nearSteps n ↔ g.length = n ∧ ∀ x ∈ g, x.natAbs ≤ 2 := by
  induction n generalizing g with
  | zero =>
    simp only [nearSteps, List.mem_singleton, List.length_eq_zero_iff]
    constructor
    · rintro rfl
      exact ⟨rfl, by simp⟩
    · exact fun h => h.1
  | succ n ih =>
    simp only [nearSteps, List.mem_flatMap, List.mem_map, ih]
    constructor
    · rintro ⟨x, hx, gs, ⟨hl, hgs⟩, rfl⟩
      refine ⟨by simp [hl], ?_⟩
      intro y hy
      rcases List.mem_cons.mp hy with rfl | hy
      · simp at hx
        omega
      · exact hgs y hy
    · rintro ⟨hl, hg⟩
      cases g with
      | nil => simp at hl
      | cons x xs =>
        have hx := hg x List.mem_cons_self
        refine ⟨x, ?_, xs, ⟨by simpa using hl, fun y hy => hg y (List.mem_cons_of_mem x hy)⟩, rfl⟩
        simp
        omega

/-- The differences that have a column are those of the steps that do not lower the node number. -/
theorem mem_stencilOffsets {o : ℕ} : o ∈ stencilOffsets res ↔
    ∃ g ∈ stencilSteps res.length, stepOffset res g = o := by
  rw [stencilOffsets, mem_ascending, List.mem_filterMap]
  constructor
  · rintro ⟨g, hg, ho⟩
    exact ⟨g, hg, (Int.mem_toNat?.mp ho)⟩
  · rintro ⟨g, hg, ho⟩
    exact ⟨g, hg, Int.mem_toNat?.mpr ho⟩

theorem pairwise_stencilOffsets : (stencilOffsets res).Pairwise (· < ·) := pairwise_ascending _

section Steps

variable (hne : res ≠ [])

include hne

/-- Steps of at most one node along every axis. -/
theorem near_mem_stencilOffsets {g : List ℤ} {o : ℕ} (hl : g.length = res.length)
    (hg : ∀ x ∈ g, x.natAbs ≤ 1) (ho : offsetOf res g = o) : o ∈ stencilOffsets res := by
  rw [mem_stencilOffsets]
  refine ⟨g, ?_, by rw [stepOffset_eq hne, ho]⟩
  rw [stencilSteps, List.mem_filter, mem_nearSteps]
  refine ⟨⟨hl, fun x hx => ?_⟩, decide_eq_true (Or.inl hg)⟩
  have := hg x hx
  omega

theorem zero_mem_stencilOffsets : 0 ∈ stencilOffsets res := by
  refine near_mem_stencilOffsets hne (g := List.replicate res.length 0) (by simp) ?_ ?_
  · intro x hx
    simp [List.eq_of_mem_replicate hx]
  · rw [offsetOf_replicate_zero]
    rfl

variable {a : Axis}

/-- One node along an axis. -/
theorem stride_mem_stencilOffsets (ha : a ∈ axes res) : a.stride ∈ stencilOffsets res := by
  obtain ⟨g, hl, hg, -, -, ho⟩ := exists_step_along ha one_ne_zero
  refine near_mem_stencilOffsets hne hl (fun x hx => ?_) (by simpa using ho)
  rcases hg x hx with rfl | rfl <;> simp

/-- Two nodes along an axis. -/
theorem two_mul_stride_mem_stencilOffsets (ha : a ∈ axes res) :
    2 * a.stride ∈ stencilOffsets res := by
  obtain ⟨g, hl, hg, h0, h2, ho⟩ := exists_step_along ha two_ne_zero
  rw [mem_stencilOffsets]
  refine ⟨g, ?_, by rw [stepOffset_eq hne]; simpa using ho⟩
  rw [stencilSteps, List.mem_filter, mem_nearSteps]
  refine ⟨⟨hl, ?_⟩, ?_⟩
  · intro x hx
    rcases hg x hx with rfl | rfl <;> simp
  · have hcount : g.countP (fun x => decide (x.natAbs = 2)) = g.count 2 := by
      refine List.countP_congr ?_
      intro x hx
      rcases hg x hx with rfl | rfl <;> simp
    exact decide_eq_true (Or.inr ⟨by rw [hcount, h2], h0⟩)

end Steps

/-! ## Columns -/

namespace Stencil

/-- The columns are listed as far as the last difference. -/
theorem le_getLast {l : List ℕ} (h : l.Pairwise (· < ·)) {o : ℕ} (ho : o ∈ l) :
    ∃ m, l.getLast? = some m ∧ o ≤ m := by
  have hne : l ≠ [] := List.ne_nil_of_mem ho
  refine ⟨l.getLast hne, List.getLast?_eq_some_getLast hne, ?_⟩
  rcases List.mem_iff_getElem.mp ho with ⟨i, hi, rfl⟩
  rw [List.getLast_eq_getElem]
  rcases Nat.lt_or_ge i (l.length - 1) with hlt | hge
  · exact (List.pairwise_iff_getElem.mp h i _ hi (by omega) hlt).le
  · have : i = l.length - 1 := by omega
    subst this
    exact le_refl _

/-- A difference with a column is within reach. -/
theorem lt_size_columns {o : ℕ} (h : o ∈ stencilOffsets res) :
    o < (ofRes res).columns.size := by
  obtain ⟨m, hm, hle⟩ := le_getLast pairwise_stencilOffsets h
  simp [ofRes, ofOffsets, hm]
  omega

theorem isReached {o : ℕ} (h : o ∈ stencilOffsets res) : (ofRes res).IsReached o :=
  ⟨Int.natCast_nonneg o, by exact_mod_cast lt_size_columns h⟩

/-- A difference that lowers the node number has no column. -/
theorem nonneg_of_column? {s : Stencil} {o : ℤ} {k : ℕ} (h : s.column? o = some k) : 0 ≤ o := by
  cases o with
  | ofNat o => exact Int.natCast_nonneg o
  | negSucc o =>
    unfold column? at h
    simp at h

/-- The table of columns leads back to the place in the table of differences. -/
theorem column?_eq_some_iff {o k : ℕ} :
    (ofRes res).column? (o : ℤ) = some k ↔ (stencilOffsets res)[k]? = some o := by
  have hcolumn : (ofRes res).column? (o : ℤ) = ((ofRes res).columns[o]?).join := rfl
  rw [hcolumn, Option.join_eq_some_iff]
  have hplace : ∀ j, (stencilOffsets res).idxOf? o = some j ↔
      (stencilOffsets res)[j]? = some o := by
    intro j
    rw [List.idxOf?_eq_some_iff]
    constructor
    · rintro ⟨hj, he, -⟩
      rw [List.getElem?_eq_getElem hj, he]
    · intro hj
      obtain ⟨hlt, he⟩ := List.getElem?_eq_some_iff.mp hj
      refine ⟨hlt, he, ?_⟩
      intro i hi
      have hpair : (stencilOffsets res).Pairwise (· < ·) := pairwise_stencilOffsets
      have := List.pairwise_iff_getElem.mp hpair i j (by omega) hlt hi
      omega
  constructor
  · intro h
    simp only [ofRes, ofOffsets, Array.getElem?_map, Option.map_eq_some_iff] at h
    obtain ⟨x, hx, hk⟩ := h
    obtain ⟨hlt, rfl⟩ := Array.getElem?_eq_some_iff.mp hx
    rw [Array.getElem_range] at hk
    exact (hplace k).mp hk
  · intro h
    have hlt := lt_size_columns (List.mem_of_getElem? h)
    rw [Array.getElem?_eq_getElem hlt]
    simp only [ofRes, ofOffsets, Array.getElem_map, Array.getElem_range, Option.some.injEq]
    exact (hplace k).mpr h

/-- A difference of the stencil has a column. -/
theorem exists_column {o : ℕ} (h : o ∈ stencilOffsets res) :
    ∃ k, (ofRes res).column? (o : ℤ) = some k := by
  obtain ⟨k, hk⟩ := List.mem_iff_getElem?.mp h
  exact ⟨k, column?_eq_some_iff.mpr hk⟩

end Stencil

end GridSpline
