import Mathlib
import GridSpline.Proofs.Result
import GridSpline.Proofs.Sparse.Matrix
import GridSpline.Proofs.Sparse.Stencil
import GridSpline.Sparse.Packed

/-!
# Packed matrices as matrices

A packed matrix stores one half of a symmetric matrix. Read through the table of columns it has an
entry between any two nodes, and that is the entry of the whole matrix which is made of it. Adding
to a place changes the two entries that the place stands for and no others. What is stored for a
node beyond the last one would be lost; a matrix to which only places within the lattice were added
stores nothing there.

## Main definitions

* `PackedMatrix.IsOver` — the matrix belongs to a lattice and stores nothing beyond its last node.
* `PackedMatrix.forward` — the entry between a node and one that is not before it.
* `PackedMatrix.dense` — the matrix that is meant.

## Main statements

* `exists_addTerm?` — adding within the lattice succeeds and changes one entry.
* `tidy_toSparse`, `toMatrix_toSparse` — the whole matrix is the one that is meant.
* `exists_entry_toSparse` — nothing that was stored is lost in the whole matrix.
-/

namespace GridSpline

open Matrix
open GridSpline.Lattice

variable {res : List ℕ}

namespace PackedMatrix

/-- The matrix has the nodes and columns of a lattice, and what it stores belongs to nodes of it. -/
structure IsOver (A : PackedMatrix ℝ) (res : List ℕ) : Prop where
  nodes : A.nodes = size res
  stencil : A.stencil = Stencil.ofRes res
  rows : A.coef.size = size res
  columns : ∀ i < size res, (A.coef.getD i #[]).size = (stencilOffsets res).length
  within : ∀ i k, A.entryAt i k ≠ 0 → ∃ o, (stencilOffsets res)[k]? = some o ∧ i + o < size res

/-- The entry between a node and one that is not before it. -/
noncomputable def forward (A : PackedMatrix ℝ) (i j : ℕ) : ℝ :=
  ((A.stencil.column? ((j : ℤ) - i)).map (A.entryAt i)).getD 0

/-- The symmetric matrix of which one half is stored. -/
noncomputable def dense (n : ℕ) (A : PackedMatrix ℝ) : Matrix (Fin n) (Fin n) ℝ :=
  fun i j => A.forward (min i j) (max i j)

variable {A : PackedMatrix ℝ}

theorem forward_of_column? {i j k : ℕ} (h : A.stencil.column? ((j : ℤ) - i) = some k) :
    A.forward i j = A.entryAt i k := by
  unfold forward
  rw [h]
  rfl

theorem dense_symm (n : ℕ) (A : PackedMatrix ℝ) : (A.dense n).IsSymm := by
  ext i j
  rw [transpose_apply, dense, min_comm, max_comm]
  rfl

/-! ## Adding -/

theorem entryAt_zero (res : List ℕ) (i k : ℕ) : (zero res : PackedMatrix ℝ).entryAt i k = 0 := by
  simp only [entryAt, zero, Array.getD_eq_getD_getElem?, Array.getElem?_replicate]
  split
  · simp only [Option.getD_some, Array.getElem?_replicate]
    split <;> rfl
  · rfl

theorem isOver_zero (res : List ℕ) : (zero res : PackedMatrix ℝ).IsOver res where
  nodes := rfl
  stencil := rfl
  rows := by simp [zero]
  columns i hi := by simp [zero, Stencil.ofRes, Stencil.ofOffsets, hi]
  within i k h := absurd (entryAt_zero res i k) h

theorem forward_zero (res : List ℕ) (i j : ℕ) : (zero res : PackedMatrix ℝ).forward i j = 0 := by
  unfold forward
  cases (zero res : PackedMatrix ℝ).stencil.column? ((j : ℤ) - i) with
  | none => rfl
  | some k => exact entryAt_zero res i k

theorem dense_zero (n : ℕ) (res : List ℕ) : (zero res : PackedMatrix ℝ).dense n = 0 := by
  ext i j
  exact forward_zero res _ _

theorem entryAt_addAt {i k : ℕ} (hi : i < A.coef.size) (hk : k < (A.coef.getD i #[]).size) (v : ℝ)
    (i' k' : ℕ) : (A.addAt i k v).entryAt i' k' =
      A.entryAt i' k' + if i' = i ∧ k' = k then v else 0 := by
  simp only [entryAt, addAt, Array.getD_eq_getD_getElem?, Array.getElem?_modify] at hk ⊢
  rw [Array.getElem?_eq_getElem hi, Option.getD_some] at hk
  by_cases hii : i = i'
  · subst hii
    rw [if_pos rfl, Array.getElem?_eq_getElem hi, Option.map_some, Option.getD_some,
      Option.getD_some, Array.getElem?_modify]
    by_cases hkk : k = k'
    · subst hkk
      rw [if_pos rfl, if_pos ⟨rfl, rfl⟩, Array.getElem?_eq_getElem hk]
      rfl
    · rw [if_neg hkk, if_neg fun h => hkk h.2.symm, add_zero]
  · rw [if_neg hii, if_neg fun h => hii h.1.symm, add_zero]

theorem size_row_addAt (A : PackedMatrix ℝ) (i k : ℕ) (v : ℝ) (j : ℕ) :
    ((A.addAt i k v).coef.getD j #[]).size = (A.coef.getD j #[]).size := by
  simp only [addAt, Array.getD_eq_getD_getElem?, Array.getElem?_modify]
  split
  · rename_i h
    subst h
    cases A.coef[i]? <;> simp
  · rfl

/-- A difference of the stencil has a column. -/
theorem exists_column? (hA : A.IsOver res) {o : ℕ} (ho : o ∈ stencilOffsets res) :
    ∃ k, A.column? (o : ℤ) = .ok k ∧ A.stencil.column? (o : ℤ) = some k ∧
      (stencilOffsets res)[k]? = some o := by
  obtain ⟨k, hk⟩ := Stencil.exists_column ho
  refine ⟨k, ?_, hA.stencil ▸ hk, Stencil.column?_eq_some_iff.mp hk⟩
  unfold column?
  rw [hA.stencil, if_pos (Stencil.isReached ho), hk]
  rfl

theorem exists_column?_of_nonneg (hA : A.IsOver res) {d : ℤ} (h0 : 0 ≤ d)
    (hd : d.toNat ∈ stencilOffsets res) : ∃ k, A.column? d = .ok k := by
  obtain ⟨k, hk, -⟩ := exists_column? hA hd
  rw [Int.toNat_of_nonneg h0] at hk
  exact ⟨k, hk⟩

section AddAt

variable {i o c : ℕ} (hA : A.IsOver res) (hi : i + o < size res)
  (hplace : (stencilOffsets res)[c]? = some o)

include hA hi hplace

theorem entryAt_addAt_place (v : ℝ) (j k : ℕ) :
    (A.addAt i c v).entryAt j k = A.entryAt j k + if j = i ∧ k = c then v else 0 := by
  have hin : i < size res := by omega
  refine entryAt_addAt (hA.rows ▸ hin) ?_ v j k
  rw [hA.columns i hin]
  exact (List.getElem?_eq_some_iff.mp hplace).1

theorem isOver_addAt (v : ℝ) : (A.addAt i c v).IsOver res where
  nodes := hA.nodes
  stencil := hA.stencil
  rows := by simpa [addAt] using hA.rows
  columns j hj := by
    rw [size_row_addAt]
    exact hA.columns j hj
  within j k h := by
    rw [entryAt_addAt_place hA hi hplace] at h
    by_cases hjk : j = i ∧ k = c
    · obtain ⟨rfl, rfl⟩ := hjk
      exact ⟨o, hplace, hi⟩
    · rw [if_neg hjk, add_zero] at h
      exact hA.within j k h

/-- Adding to a place changes the entry it stands for, and no other. -/
theorem forward_addAt (v : ℝ) (k l : ℕ) : (A.addAt i c v).forward k l =
    A.forward k l + if k = i ∧ l = i + o then v else 0 := by
  have hcolumn : ∀ d : ℕ, A.stencil.column? (((k + d : ℕ) : ℤ) - k) = some c ↔ d = o := by
    intro d
    rw [Nat.cast_add, add_sub_cancel_left, hA.stencil, Stencil.column?_eq_some_iff, hplace,
      Option.some.injEq]
    exact eq_comm
  show ((A.stencil.column? ((l : ℤ) - k)).map ((A.addAt i c v).entryAt k)).getD 0 = _
  unfold forward
  cases hkl : A.stencil.column? ((l : ℤ) - k) with
  | none =>
    have hne : ¬(k = i ∧ l = i + o) := by
      rintro ⟨rfl, rfl⟩
      rw [(hcolumn o).mpr rfl] at hkl
      exact Option.some_ne_none c hkl
    rw [if_neg hne, add_zero]
    rfl
  | some c' =>
    -- The difference of the nodes is not negative, and it is the one of its column.
    obtain ⟨d, hd⟩ := Int.eq_ofNat_of_zero_le (Stencil.nonneg_of_column? hkl)
    have hl : l = k + d := by omega
    subst hl
    have hsame : c' = c ↔ d = o := by
      rw [← hcolumn d, hkl, Option.some.injEq]
    simp only [Option.map_some, Option.getD_some]
    rw [entryAt_addAt_place hA hi hplace]
    congr 1
    refine if_congr (and_congr_right fun hki => ?_) rfl rfl
    rw [hsame, hki]
    omega

end AddAt

/-- Adding to a place within the lattice succeeds and changes the entry it stands for. -/
theorem exists_addTerm? (hA : A.IsOver res) {i o : ℕ} (ho : o ∈ stencilOffsets res)
    (hi : i + o < size res) (v : ℝ) :
    ∃ B, A.addTerm? i o v = .ok B ∧ B.IsOver res ∧
      ∀ k l, B.forward k l = A.forward k l + if k = i ∧ l = i + o then v else 0 := by
  obtain ⟨c, hc, -, hplace⟩ := exists_column? hA ho
  have hin : i < A.nodes := by
    rw [hA.nodes]
    omega
  refine ⟨A.addAt i c v, ?_, isOver_addAt hA hi hplace v, forward_addAt hA hi hplace v⟩
  unfold addTerm? place?
  rw [hc, ok_bind, position?_ofNat hin]
  rfl

/-! ## The whole matrix -/

theorem offsets_toList (hA : A.IsOver res) : A.stencil.offsets.toList = stencilOffsets res := by
  rw [hA.stencil]
  rfl

theorem mem_rowBefore (hA : A.IsOver res) {i j : ℕ} {w : ℝ} : (j, w) ∈ A.rowBefore i ↔
    j < i ∧ ∃ k, A.stencil.column? ((i : ℤ) - j) = some k ∧ w = A.entryAt j k := by
  unfold rowBefore
  rw [offsets_toList hA, List.mem_filterMap]
  constructor
  · rintro ⟨⟨o, k⟩, hmem, h⟩
    rw [List.mem_reverse, List.mk_mem_zipIdx_iff_getElem?] at hmem
    simp only [Option.ite_none_right_eq_some, Option.some.injEq, Prod.mk.injEq] at h
    obtain ⟨⟨h0, hle⟩, rfl, rfl⟩ := h
    refine ⟨by omega, k, ?_, rfl⟩
    have ho : (i : ℤ) - (i - o : ℕ) = (o : ℤ) := by omega
    rw [ho, hA.stencil]
    exact Stencil.column?_eq_some_iff.mpr hmem
  · rintro ⟨hlt, k, hk, rfl⟩
    have ho : (i : ℤ) - j = ((i - j : ℕ) : ℤ) := by omega
    rw [ho, hA.stencil, Stencil.column?_eq_some_iff] at hk
    refine ⟨(i - j, k), ?_, ?_⟩
    · rw [List.mem_reverse]
      exact List.mk_mem_zipIdx_iff_getElem?.mpr hk
    · have hj : i - (i - j) = j := by omega
      simp only [hj]
      rw [if_pos (by omega)]

theorem mem_rowFrom (hA : A.IsOver res) {i j : ℕ} {w : ℝ} : (j, w) ∈ A.rowFrom i ↔
    (i ≤ j ∧ j < size res) ∧
      ∃ k, A.stencil.column? ((j : ℤ) - i) = some k ∧ w = A.entryAt i k := by
  unfold rowFrom
  rw [offsets_toList hA, hA.nodes, List.mem_filterMap]
  constructor
  · rintro ⟨⟨o, k⟩, hmem, h⟩
    rw [List.mk_mem_zipIdx_iff_getElem?] at hmem
    simp only [Option.ite_none_right_eq_some, Option.some.injEq, Prod.mk.injEq] at h
    obtain ⟨hlt, rfl, rfl⟩ := h
    refine ⟨⟨Nat.le_add_right i o, hlt⟩, k, ?_, rfl⟩
    rw [Nat.cast_add, add_sub_cancel_left, hA.stencil]
    exact Stencil.column?_eq_some_iff.mpr hmem
  · rintro ⟨⟨hle, hlt⟩, k, hk, rfl⟩
    have ho : (j : ℤ) - i = ((j - i : ℕ) : ℤ) := by omega
    rw [ho, hA.stencil, Stencil.column?_eq_some_iff] at hk
    refine ⟨(j - i, k), List.mk_mem_zipIdx_iff_getElem?.mpr hk, ?_⟩
    have hj : i + (j - i) = j := by omega
    simp only [hj]
    rw [if_pos hlt]

theorem row_toSparse (hA : A.IsOver res) {i : ℕ} (hi : i < size res) :
    A.toSparse.row i =
      (A.rowBefore i ++ A.rowFrom i).filter fun (_, v) => ! decide (Scalar.IsZero v) := by
  have hrow : i < A.toSparse.rows.size := by
    simpa [toSparse, hA.nodes] using hi
  rw [SparseMatrix.row_eq_getElem hrow]
  simp [toSparse]

theorem row_toSparse_of_le (hA : A.IsOver res) {i : ℕ} (hi : size res ≤ i) :
    A.toSparse.row i = [] := by
  unfold SparseMatrix.row
  rw [Array.getD_eq_getD_getElem?, Array.getElem?_eq_none (by simpa [toSparse, hA.nodes] using hi)]
  rfl

/-- What a row of the whole matrix stores: the entries that are not zero. -/
theorem mem_row_toSparse (hA : A.IsOver res) {i j : ℕ} {w : ℝ} (hi : i < size res) :
    (j, w) ∈ A.toSparse.row i ↔
      j < size res ∧ w = A.forward (min i j) (max i j) ∧ w ≠ 0 := by
  rw [row_toSparse hA hi, List.mem_filter, List.mem_append, mem_rowBefore hA, mem_rowFrom hA]
  simp only [Scalar.isZero_iff, Bool.not_eq_true', decide_eq_false_iff_not]
  constructor
  · rintro ⟨⟨hlt, k, hk, rfl⟩ | ⟨⟨hle, hlt⟩, k, hk, rfl⟩, hw⟩
    · refine ⟨by omega, ?_, hw⟩
      rw [min_eq_right hlt.le, max_eq_left hlt.le, forward_of_column? hk]
    · refine ⟨hlt, ?_, hw⟩
      rw [min_eq_left hle, max_eq_right hle, forward_of_column? hk]
  · rintro ⟨hj, rfl, hw⟩
    refine ⟨?_, hw⟩
    -- An entry that is not zero has a column.
    cases hk : A.stencil.column? ((max i j : ℕ) - (min i j : ℕ) : ℤ) with
    | none =>
      exfalso
      refine hw ?_
      unfold forward
      rw [hk]
      rfl
    | some k =>
      rw [forward_of_column? hk]
      rcases Nat.lt_or_ge j i with hlt | hge
      · rw [min_eq_right hlt.le, max_eq_left hlt.le] at hk
        rw [min_eq_right hlt.le]
        exact Or.inl ⟨hlt, k, hk, rfl⟩
      · rw [min_eq_left hge, max_eq_right hge] at hk
        rw [min_eq_left hge]
        exact Or.inr ⟨⟨hge, hj⟩, k, hk, rfl⟩

theorem pairwise_zipIdx (res : List ℕ) :
    (stencilOffsets res).zipIdx.Pairwise fun a b => a.1 < b.1 := by
  have h : ((stencilOffsets res).zipIdx.map Prod.fst).Pairwise (· < ·) := by
    rw [List.zipIdx_map_fst]
    exact pairwise_stencilOffsets
  exact List.pairwise_map.mp h

theorem ascending_rowBefore (hA : A.IsOver res) (i : ℕ) :
    SparseRow.Ascending (A.rowBefore i) := by
  unfold rowBefore SparseRow.Ascending
  rw [offsets_toList hA, List.pairwise_filterMap, List.pairwise_reverse]
  refine (pairwise_zipIdx res).imp fun {a b} hab x hx y hy => ?_
  simp only [Option.ite_none_right_eq_some, Option.some.injEq] at hx hy
  obtain ⟨hb, rfl⟩ := hx
  obtain ⟨ha, rfl⟩ := hy
  simp only
  omega

theorem ascending_rowFrom (hA : A.IsOver res) (i : ℕ) : SparseRow.Ascending (A.rowFrom i) := by
  unfold rowFrom SparseRow.Ascending
  rw [offsets_toList hA, List.pairwise_filterMap]
  refine (pairwise_zipIdx res).imp fun {a b} hab x hx y hy => ?_
  simp only [Option.ite_none_right_eq_some, Option.some.injEq] at hx hy
  obtain ⟨-, rfl⟩ := hx
  obtain ⟨-, rfl⟩ := hy
  simp only
  omega

theorem ascending_row_toSparse (hA : A.IsOver res) (i : ℕ) :
    SparseRow.Ascending (A.toSparse.row i) := by
  rcases Nat.lt_or_ge i (size res) with hi | hi
  · rw [row_toSparse hA hi]
    refine List.Pairwise.filter _ (List.pairwise_append.mpr
      ⟨ascending_rowBefore hA i, ascending_rowFrom hA i, fun a ha b hb => ?_⟩)
    obtain ⟨hlt, -⟩ := (mem_rowBefore hA (j := a.1) (w := a.2)).mp ha
    obtain ⟨⟨hle, -⟩, -⟩ := (mem_rowFrom hA (j := b.1) (w := b.2)).mp hb
    omega
  · rw [row_toSparse_of_le hA hi]
    exact List.Pairwise.nil

/-- The rows of the whole matrix are in order and end with the last node. -/
theorem tidy_toSparse (hA : A.IsOver res) : A.toSparse.Tidy (size res) (size res) where
  rows := by simp [toSparse, hA.nodes]
  columns := hA.nodes
  ascending := ascending_row_toSparse hA
  within i e he := by
    rcases Nat.lt_or_ge i (size res) with hi | hi
    · exact ((mem_row_toSparse hA (j := e.1) (w := e.2) hi).mp he).1
    · rw [row_toSparse_of_le hA hi] at he
      exact absurd he List.not_mem_nil

theorem entry_toSparse (hA : A.IsOver res) {i j : ℕ} (hi : i < size res) (hj : j < size res) :
    A.toSparse.entry i j = A.forward (min i j) (max i j) := by
  rw [SparseMatrix.entry_eq_coeff]
  have hasc := ascending_row_toSparse hA i
  by_cases hw : A.forward (min i j) (max i j) = 0
  · unfold SparseRow.coeff
    cases hf : SparseRow.find? j (A.toSparse.row i) with
    | none => rw [hw, Option.getD_none]
    | some w =>
      have hmem := (SparseRow.find?_eq_some_iff hasc).mp hf
      obtain ⟨-, rfl, hne⟩ := (mem_row_toSparse hA hi).mp hmem
      exact absurd hw hne
  · exact SparseRow.coeff_of_mem hasc ((mem_row_toSparse hA hi).mpr ⟨hj, rfl, hw⟩)

/-- The whole matrix is the symmetric one of which one half is stored. -/
theorem toMatrix_toSparse (hA : A.IsOver res) :
    A.toSparse.toMatrix (size res) (size res) = A.dense (size res) := by
  ext i j
  exact entry_toSparse hA i.isLt j.isLt

/-- What is stored at a place stands in the whole matrix on both sides of the diagonal. -/
theorem exists_entry_toSparse (hA : A.IsOver res) {i k : ℕ} (h : A.entryAt i k ≠ 0) :
    ∃ o, A.stencil.offsets[k]? = some o ∧ i + o < A.nodes ∧
      A.toSparse.entry i (i + o) = A.entryAt i k ∧
      A.toSparse.entry (i + o) i = A.entryAt i k := by
  obtain ⟨o, ho, hlt⟩ := hA.within i k h
  have hcol : A.stencil.column? (((i + o : ℕ) : ℤ) - i) = some k := by
    rw [Nat.cast_add, add_sub_cancel_left, hA.stencil]
    exact Stencil.column?_eq_some_iff.mpr ho
  have hle : i ≤ i + o := Nat.le_add_right i o
  refine ⟨o, ?_, hA.nodes ▸ hlt, ?_, ?_⟩
  · rw [hA.stencil]
    simpa [Stencil.ofRes, Stencil.ofOffsets] using ho
  · rw [entry_toSparse hA (by omega) hlt, min_eq_left hle, max_eq_right hle,
      forward_of_column? hcol]
  · rw [entry_toSparse hA hlt (by omega), min_eq_right hle, max_eq_left hle,
      forward_of_column? hcol]

end PackedMatrix

end GridSpline
