import Mathlib
import GridSpline.Proofs.Real
import GridSpline.Sparse.Matrix

/-!
# Sparse matrices as matrices

A sparse matrix whose rows list their entries by ascending column is the matrix of its entries: the
program's product with a vector is the product of that matrix. Adding triplets one by one gives the
matrix of their sums.

## Main definitions

* `SparseRow.coeff` — an entry of a row, zero if it is not stored.
* `SparseMatrix.Tidy` — rows in ascending order, without columns beyond the last.
* `SparseMatrix.toMatrix`, `vectorOf` — the matrix and the vector that are meant.

## Main statements

* `find?_eq_some_iff` — the stored entries of a row are those that are found in it.
* `vectorOf_mulVec` — the product with a vector.
* `exists_ofTriplets?` — triplets within the matrix add up.
-/

namespace GridSpline

open Matrix

/-! ## Rows -/

namespace SparseRow

/-- The columns of the stored entries ascend. -/
def Ascending (row : SparseRow ℝ) : Prop := row.Pairwise fun a b => a.1 < b.1

/-- An entry of a row, zero if it is not stored. -/
def coeff (row : SparseRow ℝ) (j : ℕ) : ℝ := (find? j row).getD 0

variable {row : SparseRow ℝ} {j k : ℕ} {v : ℝ}

/-- Nothing is stored before the first column. -/
theorem find?_eq_none (h : ∀ e ∈ row, j < e.1) : find? j row = none := by
  cases row with
  | nil => rfl
  | cons e rest =>
    have := h e List.mem_cons_self
    unfold find?
    rw [if_neg (by omega), if_neg (by omega)]

theorem ascending_cons {e : ℕ × ℝ} :
    Ascending (e :: row) ↔ (∀ f ∈ row, e.1 < f.1) ∧ Ascending row := List.pairwise_cons

/-- The stored entries are those that are found. -/
theorem find?_eq_some_iff (h : Ascending row) : find? j row = some v ↔ (j, v) ∈ row := by
  induction row with
  | nil => simp [find?]
  | cons e rest ih =>
    obtain ⟨hlt, hrest⟩ := ascending_cons.mp h
    obtain ⟨k, w⟩ := e
    unfold find?
    rw [List.mem_cons, Prod.mk.injEq]
    split
    · rename_i hk
      rw [ih hrest]
      constructor
      · exact Or.inr
      · rintro (⟨rfl, -⟩ | hmem)
        · omega
        · exact hmem
    · split
      · rename_i _ hk
        constructor
        · intro hw
          exact Or.inl ⟨hk.symm, (Option.some.inj hw).symm⟩
        · rintro (⟨-, rfl⟩ | hmem)
          · rfl
          · have := hlt _ hmem
            simp at this
            omega
      · rename_i h1 h2
        constructor
        · intro hw
          simp at hw
        · rintro (⟨rfl, -⟩ | hmem)
          · omega
          · have := hlt _ hmem
            simp at this
            omega

theorem coeff_of_mem (h : Ascending row) (hmem : (j, v) ∈ row) : coeff row j = v := by
  unfold coeff
  rw [(find?_eq_some_iff h).mpr hmem, Option.getD_some]

theorem coeff_cons (h : Ascending ((k, v) :: row)) (j : ℕ) :
    coeff ((k, v) :: row) j = (if k = j then v else 0) + coeff row j := by
  obtain ⟨hlt, -⟩ := ascending_cons.mp h
  unfold coeff
  rw [find?]
  split
  · rename_i hk
    rw [if_neg (by omega), zero_add]
  · split
    · rename_i _ hk
      rw [find?_eq_none (hk ▸ hlt)]
      simp
    · rename_i h1 h2
      rw [find?_eq_none fun e he => ?_]
      · simp
      · have := hlt e he
        simp at this
        omega

/-! ### Adding to an entry -/

theorem mem_add {i : ℕ} {w : ℝ} (h : (i, w) ∈ add j v row) : i = j ∨ ∃ u, (i, u) ∈ row := by
  induction row with
  | nil =>
    simp only [add, List.mem_singleton, Prod.mk.injEq] at h
    exact Or.inl h.1
  | cons e rest ih =>
    obtain ⟨k, u⟩ := e
    unfold add at h
    split at h
    · rcases List.mem_cons.mp h with heq | hmem
      · exact Or.inr ⟨w, by rw [heq]; exact List.mem_cons_self⟩
      · rcases ih hmem with rfl | ⟨u', hu'⟩
        · exact Or.inl rfl
        · exact Or.inr ⟨u', List.mem_cons_of_mem _ hu'⟩
    · split at h
      · rename_i _ hk
        rcases List.mem_cons.mp h with heq | hmem
        · rw [Prod.mk.injEq] at heq
          exact Or.inl (heq.1.trans hk)
        · exact Or.inr ⟨w, List.mem_cons_of_mem _ hmem⟩
      · rcases List.mem_cons.mp h with heq | hmem
        · rw [Prod.mk.injEq] at heq
          exact Or.inl heq.1
        · exact Or.inr ⟨w, hmem⟩

theorem ascending_add (h : Ascending row) : Ascending (add j v row) := by
  induction row with
  | nil => simp [add, Ascending]
  | cons e rest ih =>
    obtain ⟨hlt, hrest⟩ := ascending_cons.mp h
    obtain ⟨k, u⟩ := e
    unfold add
    split
    · rename_i hk
      refine ascending_cons.mpr ⟨fun f hf => ?_, ih hrest⟩
      rcases mem_add (i := f.1) (w := f.2) hf with hj | ⟨w, hw⟩
      · simp only
        omega
      · have := hlt (f.1, w) hw
        exact this
    · split
      · exact ascending_cons.mpr ⟨hlt, hrest⟩
      · rename_i h1 h2
        refine ascending_cons.mpr ⟨fun f hf => ?_, h⟩
        rcases List.mem_cons.mp hf with rfl | hf
        · simp only
          omega
        · have := hlt f hf
          simp only at this ⊢
          omega

theorem coeff_add (h : Ascending row) (i : ℕ) :
    coeff (add j v row) i = coeff row i + if j = i then v else 0 := by
  induction row with
  | nil =>
    rw [add, coeff_cons (by simp [Ascending])]
    simp [coeff, find?]
  | cons e rest ih =>
    obtain ⟨hlt, hrest⟩ := ascending_cons.mp h
    obtain ⟨k, u⟩ := e
    have hadd := ascending_add (j := j) (v := v) h
    unfold add at hadd ⊢
    split
    · rename_i hk
      rw [if_pos hk] at hadd
      rw [coeff_cons hadd, coeff_cons h, ih hrest]
      ring
    · rename_i hk
      rw [if_neg hk] at hadd
      split
      · rename_i hkj
        rw [if_pos hkj] at hadd
        rw [coeff_cons hadd, coeff_cons h, hkj]
        split <;> ring
      · rename_i hkj
        rw [if_neg hkj] at hadd
        rw [coeff_cons hadd]
        ring

/-! ### The product with a vector -/

theorem foldl_eq_add_sum (x : Array ℝ) (row : SparseRow ℝ) (acc : ℝ) :
    row.foldl (fun acc (j, v) => acc + v * x.getD j 0) acc =
      acc + (row.map fun e => e.2 * x.getD e.1 0).sum := by
  induction row generalizing acc with
  | nil => simp
  | cons e rest ih =>
    rw [List.foldl_cons, ih, List.map_cons, List.sum_cons]
    ring

theorem dot_eq_sum {m : ℕ} (h : Ascending row) (hm : ∀ e ∈ row, e.1 < m) (x : Array ℝ) :
    dot row x = ∑ j : Fin m, coeff row j * x.getD j 0 := by
  unfold dot
  rw [foldl_eq_add_sum, zero_add]
  induction row with
  | nil => simp [coeff, find?]
  | cons e rest ih =>
    obtain ⟨hlt, hrest⟩ := ascending_cons.mp h
    obtain ⟨k, v⟩ := e
    have hk : k < m := hm (k, v) List.mem_cons_self
    have hsingle : ∑ j : Fin m, (if k = (j : ℕ) then v else 0) * x.getD j 0 = v * x.getD k 0 := by
      rw [Finset.sum_eq_single ⟨k, hk⟩]
      · rw [if_pos rfl]
      · intro j _ hj
        rw [if_neg, zero_mul]
        exact fun heq => hj (Fin.ext heq.symm)
      · exact fun hmem => absurd (Finset.mem_univ _) hmem
    rw [List.map_cons, List.sum_cons, ih hrest fun f hf => hm f (List.mem_cons_of_mem _ hf),
      ← hsingle, ← Finset.sum_add_distrib]
    refine Finset.sum_congr rfl ?_
    intro j _
    rw [coeff_cons h]
    ring

end SparseRow

/-! ## Matrices -/

/-- The entries of an array as a vector; zero beyond its end. -/
def vectorOf (n : ℕ) (x : Array ℝ) : Fin n → ℝ := fun i => x.getD i 0

namespace SparseMatrix

/-- The entries as a matrix. -/
noncomputable def toMatrix (n m : ℕ) (A : SparseMatrix ℝ) : Matrix (Fin n) (Fin m) ℝ :=
  fun i j => A.entry i j

/-- Rows in ascending order, without columns beyond the last one. -/
structure Tidy (A : SparseMatrix ℝ) (n m : ℕ) : Prop where
  rows : A.rows.size = n
  columns : A.columns = m
  ascending : ∀ i, (A.row i).Ascending
  within : ∀ i, ∀ e ∈ A.row i, e.1 < m

variable {A : SparseMatrix ℝ} {n m : ℕ}

theorem entry_eq_coeff (A : SparseMatrix ℝ) (i j : ℕ) :
    A.entry i j = SparseRow.coeff (A.row i) j := rfl

theorem row_eq_getElem {i : ℕ} (h : i < A.rows.size) : A.row i = A.rows[i] := by
  unfold row
  rw [Array.getD_eq_getD_getElem?, Array.getElem?_eq_getElem h, Option.getD_some]

theorem size_mulVec (A : SparseMatrix ℝ) (x : Array ℝ) : (A.mulVec x).size = A.rows.size := by
  simp [mulVec]

/-- The program's product with a vector is that of the matrix. -/
theorem vectorOf_mulVec (h : A.Tidy n m) (x : Array ℝ) :
    vectorOf n (A.mulVec x) = A.toMatrix n m *ᵥ vectorOf m x := by
  funext i
  have hi : (i : ℕ) < A.rows.size := by
    rw [h.rows]
    exact i.isLt
  have hrow : (A.mulVec x).getD i 0 = SparseRow.dot (A.row i) x := by
    rw [row_eq_getElem hi, Array.getD_eq_getD_getElem?]
    simp [mulVec, hi]
  show (A.mulVec x).getD i 0 = _
  rw [hrow, SparseRow.dot_eq_sum (h.ascending i) (h.within i)]
  rfl

/-- A matrix with as many columns as a vector has entries can be multiplied with it. -/
theorem mulVec?_eq (h : A.Tidy n m) {x : Array ℝ} (hx : x.size = m) :
    A.mulVec? x = some (A.mulVec x) := by
  unfold mulVec?
  rw [if_pos (hx.trans h.columns.symm)]

/-! ### Sums of triplets -/

/-- A triplet within the matrix. -/
def Holds {α : Type} (n m : ℕ) (t : ℤ × ℤ × α) : Prop :=
  0 ≤ t.1 ∧ t.1 < n ∧ 0 ≤ t.2.1 ∧ t.2.1 < m

/-- What triplets contribute to an entry. -/
def contribution (ts : List (ℤ × ℤ × ℝ)) (i j : ℕ) : ℝ :=
  (ts.map fun t => if t.1 = (i : ℤ) ∧ t.2.1 = (j : ℤ) then t.2.2 else 0).sum

theorem row_modify (A : SparseMatrix ℝ) (k : ℕ) (hk : k < A.rows.size)
    (f : SparseRow ℝ → SparseRow ℝ) (i : ℕ) :
    ({ A with rows := A.rows.modify k f } : SparseMatrix ℝ).row i =
      if i = k then f (A.row k) else A.row i := by
  unfold row
  simp only [Array.getD_eq_getD_getElem?, Array.getElem?_modify]
  split
  · rename_i h
    subst h
    rw [if_pos rfl, Array.getElem?_eq_getElem hk]
    rfl
  · rename_i h
    rw [if_neg (fun heq => h heq.symm)]

/-- One triplet more. -/
theorem tidy_modify (h : A.Tidy n m) {i j : ℕ} (hi : i < n) (hj : j < m) (v : ℝ) :
    ({ A with rows := A.rows.modify i (SparseRow.add j v) } : SparseMatrix ℝ).Tidy n m ∧
      ∀ k l, ({ A with rows := A.rows.modify i (SparseRow.add j v) } : SparseMatrix ℝ).entry k l =
        A.entry k l + if i = k ∧ j = l then v else 0 := by
  have hrow := row_modify A i (h.rows.symm ▸ hi) (SparseRow.add j v)
  refine ⟨⟨by simp [h.rows], h.columns, ?_, ?_⟩, ?_⟩
  · intro k
    rw [hrow]
    split
    · exact SparseRow.ascending_add (h.ascending i)
    · exact h.ascending k
  · intro k e he
    rw [hrow] at he
    split at he
    · rcases SparseRow.mem_add (i := e.1) (w := e.2) he with hej | ⟨u, hu⟩
      · rw [hej]
        exact hj
      · have := h.within i (e.1, u) hu
        exact this
    · exact h.within k e he
  · intro k l
    rw [entry_eq_coeff, entry_eq_coeff, hrow]
    by_cases hki : k = i
    · subst hki
      rw [if_pos rfl, SparseRow.coeff_add (h.ascending k)]
      simp
    · rw [if_neg hki, if_neg (fun hc => hki hc.1.symm), add_zero]

theorem foldlM_triplets (h : A.Tidy n m) {ts : List (ℤ × ℤ × ℝ)}
    (hts : ∀ t ∈ ts, Holds n m t) :
    ∃ B, ts.foldlM (fun A (i, j, v) =>
        if 0 ≤ i ∧ i < (n : ℤ) ∧ 0 ≤ j ∧ j < (m : ℤ) then
          some { A with rows := A.rows.modify i.toNat (SparseRow.add j.toNat v) }
        else none) A = some B ∧ B.Tidy n m ∧
      ∀ k l, B.entry k l = A.entry k l + contribution ts k l := by
  induction ts generalizing A with
  | nil => exact ⟨A, rfl, h, fun k l => by simp [contribution]⟩
  | cons t ts ih =>
    obtain ⟨i, j, v⟩ := t
    have ht := hts _ List.mem_cons_self
    obtain ⟨hi0, hi, hj0, hj⟩ := ht
    simp only at hi0 hi hj0 hj
    obtain ⟨hA, hentry⟩ := tidy_modify h (i := i.toNat) (j := j.toNat) (by omega) (by omega) v
    obtain ⟨B, hB, htidy, hB'⟩ := ih hA fun t ht => hts t (List.mem_cons_of_mem _ ht)
    refine ⟨B, ?_, htidy, ?_⟩
    · rw [List.foldlM_cons]
      simp only [hi0, hi, hj0, hj, and_self, if_true]
      exact hB
    · intro k l
      have hiff : (i.toNat = k ∧ j.toNat = l) ↔ (i = (k : ℤ) ∧ j = (l : ℤ)) := by omega
      rw [hB', hentry]
      simp only [contribution, List.map_cons, List.sum_cons, hiff]
      ring

/-- Triplets within the matrix add up. -/
theorem exists_ofTriplets? {ts : List (ℤ × ℤ × ℝ)} (hts : ∀ t ∈ ts, Holds n m t) :
    ∃ A, ofTriplets? n m ts = some A ∧ A.Tidy n m ∧
      ∀ i j, A.entry i j = contribution ts i j := by
  have hrow : ∀ i, (empty n m : SparseMatrix ℝ).row i = [] := by
    intro i
    simp only [row, empty, Array.getD_eq_getD_getElem?, Array.getElem?_replicate]
    split <;> rfl
  have hempty : (empty n m : SparseMatrix ℝ).Tidy n m := by
    refine ⟨by simp [empty], rfl, ?_, ?_⟩
    · intro i
      rw [hrow]
      exact List.Pairwise.nil
    · intro i e he
      rw [hrow] at he
      simp at he
  obtain ⟨A, hA, htidy, hentry⟩ := foldlM_triplets hempty hts
  refine ⟨A, hA, htidy, ?_⟩
  intro i j
  rw [hentry, entry_eq_coeff, hrow]
  simp [SparseRow.coeff, SparseRow.find?]

end SparseMatrix

end GridSpline
