import Mathlib
import GridSpline.Proofs.Solver.Potential
import GridSpline.Proofs.Solver.Sweep

/-!
# Vectors of the solver

The solver works on arrays. Each of its operations on them, for arrays of one length, is an
operation on the vectors that are meant. The entries at some nodes are those of the composition with
the list of nodes, and the rows and columns of some nodes make a submatrix.

## Main definitions

* `arrayOf` — the array of a function.
* `nodeAt` — the nodes in a list, by their places in it.
* `SparseMatrix.restrict` — the rows and columns of some nodes.
* `Lowers` — to replace node values without raising the potential.

## Main statements

* `vectorOf_plus`, `vectorOf_minus`, `vectorOf_times`, `dot_eq` — the operations on vectors.
* `vectorOf_gather`, `vectorOf_scatter` — the entries at some nodes.
* `SparseMatrix.toMatrix_restrict` — the rows and columns of some nodes.
-/

namespace GridSpline

open Scalar
open Matrix

variable {n : ℕ} {x y : Array ℝ}

/-! ## Arrays of one length -/

theorem vectorOf_apply (hx : x.size = n) (i : Fin n) :
    vectorOf n x i = getElem x (i : ℕ) (hx ▸ i.isLt) := by
  unfold vectorOf
  rw [Array.getD_eq_getD_getElem?, Array.getElem?_eq_getElem (hx ▸ i.isLt), Option.getD_some]

/-- An array is known by its length and its vector. -/
theorem eq_of_vectorOf_eq (hx : x.size = n) (hy : y.size = n) (h : vectorOf n x = vectorOf n y) :
    x = y := by
  refine Array.ext (hx.trans hy.symm) ?_
  intro i hi _
  have hentry := congrFun h ⟨i, hx ▸ hi⟩
  rwa [vectorOf_apply hx, vectorOf_apply hy] at hentry

/-- The array with the values of a function at the first numbers. -/
noncomputable def arrayOf (n : ℕ) (f : ℕ → ℝ) : Array ℝ := ((List.range n).map f).toArray

@[simp] theorem size_arrayOf (n : ℕ) (f : ℕ → ℝ) : (arrayOf n f).size = n := by
  rw [arrayOf, List.size_toArray, List.length_map, List.length_range]

theorem map_arrayOf (g : ℝ → ℝ) (n : ℕ) (f : ℕ → ℝ) :
    (arrayOf n f).map g = arrayOf n fun i => g (f i) := by
  unfold arrayOf
  rw [List.map_toArray, List.map_map]
  rfl

@[simp] theorem vectorOf_arrayOf (n : ℕ) (f : ℕ → ℝ) :
    vectorOf n (arrayOf n f) = fun i : Fin n => f i := by
  funext i
  rw [vectorOf_apply (size_arrayOf n f)]
  simp [arrayOf]

theorem size_zipWith (f : ℝ → ℝ → ℝ) (hx : x.size = n) (hy : y.size = n) :
    (Array.zipWith f x y).size = n := by
  rw [Array.size_zipWith, hx, hy, min_self]

theorem size_plus (hx : x.size = n) (hy : y.size = n) : (plus x y).size = n :=
  size_zipWith _ hx hy

theorem size_minus (hx : x.size = n) (hy : y.size = n) : (minus x y).size = n :=
  size_zipWith _ hx hy

theorem size_times (c : ℝ) (hx : x.size = n) : (times c x).size = n := by
  simp [times, hx]

theorem size_gather (x : Array ℝ) (nodes : List ℕ) : (gather x nodes).size = nodes.length := by
  simp [gather]

theorem vectorOf_zipWith (f : ℝ → ℝ → ℝ) (hx : x.size = n) (hy : y.size = n) :
    vectorOf n (Array.zipWith f x y) = fun i => f (vectorOf n x i) (vectorOf n y i) := by
  funext i
  rw [vectorOf_apply (size_zipWith f hx hy), vectorOf_apply hx, vectorOf_apply hy,
    Array.getElem_zipWith]

theorem vectorOf_plus (hx : x.size = n) (hy : y.size = n) :
    vectorOf n (plus x y) = vectorOf n x + vectorOf n y := vectorOf_zipWith _ hx hy

theorem vectorOf_minus (hx : x.size = n) (hy : y.size = n) :
    vectorOf n (minus x y) = vectorOf n x - vectorOf n y := vectorOf_zipWith _ hx hy

theorem vectorOf_times (c : ℝ) (hx : x.size = n) :
    vectorOf n (times c x) = c • vectorOf n x := by
  funext i
  rw [vectorOf_apply (size_times c hx), Pi.smul_apply, vectorOf_apply hx, smul_eq_mul]
  simp [times]

/-- The sum of the products is that of the vectors. -/
theorem dot_eq (hx : x.size = n) (hy : y.size = n) :
    dot x y = vectorOf n x ⬝ᵥ vectorOf n y := by
  unfold dot
  rw [← Array.foldl_toList, foldl_add, zero_add]
  have hlist : (Array.zipWith (· * ·) x y).toList =
      List.ofFn fun i : Fin n => vectorOf n x i * vectorOf n y i := by
    refine List.ext_getElem (by simp [hx, hy]) ?_
    intro i h1 h2
    rw [List.length_ofFn] at h2
    rw [List.getElem_ofFn, vectorOf_apply hx, vectorOf_apply hy]
    simp
  rw [hlist, List.sum_ofFn]
  rfl

/-- A vector is shorter than no positive length only if it is not zero. -/
theorem vectorOf_ne_zero_of_lengthOf {bound : ℝ} (hx : x.size = n) (hbound : 0 < bound)
    (h : ¬lengthOf x < bound) : vectorOf n x ≠ 0 := by
  intro hzero
  refine h ?_
  unfold lengthOf
  rw [sqrt_eq, dot_eq hx hx, hzero, dotProduct_zero, Real.sqrt_zero]
  exact hbound

theorem isZero_lengthOf_iff (hx : x.size = n) : IsZero (lengthOf x) ↔ vectorOf n x = 0 := by
  have hnonneg : 0 ≤ vectorOf n x ⬝ᵥ vectorOf n x :=
    Finset.sum_nonneg fun i _ => mul_self_nonneg _
  unfold lengthOf
  rw [isZero_iff, sqrt_eq, dot_eq hx hx, Real.sqrt_eq_zero hnonneg, dotProduct_self_eq_zero]

theorem vectorOf_map_zero (n : ℕ) (x : Array ℝ) : vectorOf n (x.map fun _ => (0 : ℝ)) = 0 := by
  funext i
  unfold vectorOf
  rw [Array.getD_eq_getD_getElem?, Array.getElem?_map]
  cases x[(i : ℕ)]? <;> rfl

/-! ## Some nodes -/

/-- The numbers of some nodes of a lattice, by their places in the list. -/
def nodeAt {n : ℕ} {nodes : List ℕ} (h : ∀ i ∈ nodes, i < n) (j : Fin nodes.length) : Fin n :=
  ⟨nodes[j], h _ (List.getElem_mem j.isLt)⟩

theorem bijective_nodeAt_range (h : ∀ i ∈ List.range n, i < n) :
    Function.Bijective (nodeAt h) := by
  have hsurjective : Function.Surjective (nodeAt h) := fun i =>
    ⟨⟨i, by rw [List.length_range]; exact i.isLt⟩, Fin.ext (List.getElem_range _)⟩
  exact hsurjective.bijective_of_nat_card_le (by simp)

section Nodes

variable {nodes : List ℕ} (h : ∀ i ∈ nodes, i < n)

/-- The entries at some nodes. -/
theorem vectorOf_gather (x : Array ℝ) :
    vectorOf nodes.length (gather x nodes) = vectorOf n x ∘ nodeAt h := by
  funext j
  rw [vectorOf_apply (size_gather x nodes)]
  simp [gather, nodeAt, vectorOf]

/-! ### Writing values back -/

theorem getD_foldl_set_of_ne (l : List (ℕ × ℕ)) (values x : Array ℝ) {i : ℕ}
    (hnot : ∀ p ∈ l, p.1 ≠ i) :
    (l.foldl (fun x p => x.setIfInBounds p.1 (values.getD p.2 0)) x).getD i 0 = x.getD i 0 := by
  induction l generalizing x with
  | nil => rfl
  | cons p l ih =>
    rw [List.foldl_cons, ih _ fun q hq => hnot q (List.mem_cons_of_mem p hq)]
    simp only [Array.getD_eq_getD_getElem?]
    rw [Array.getElem?_setIfInBounds_ne (hnot p List.mem_cons_self)]

theorem getD_foldl_set_of_mem {l : List (ℕ × ℕ)} (hnodup : (l.map Prod.fst).Nodup)
    (values x : Array ℝ) {p : ℕ × ℕ} (hp : p ∈ l) (hlt : p.1 < x.size) :
    (l.foldl (fun x p => x.setIfInBounds p.1 (values.getD p.2 0)) x).getD p.1 0 =
      values.getD p.2 0 := by
  induction l generalizing x with
  | nil => exact absurd hp List.not_mem_nil
  | cons q l ih =>
    rw [List.map_cons, List.nodup_cons] at hnodup
    rw [List.foldl_cons]
    rcases List.mem_cons.mp hp with rfl | hmem
    · rw [getD_foldl_set_of_ne]
      · rw [Array.getD_eq_getD_getElem?, Array.getElem?_setIfInBounds_self_of_lt hlt,
          Option.getD_some]
      · intro r hr heq
        exact hnodup.1 (List.mem_map.mpr ⟨r, hr, heq⟩)
    · exact ih hnodup.2 _ hmem (by simpa using hlt)

/-- Values that are written back at some nodes replace those that were there. -/
theorem vectorOf_scatter (hnodup : nodes.Nodup) (hx : x.size = n) (values : Array ℝ) :
    vectorOf n (scatter x nodes values) = vectorOf n x +
      spread (nodeAt h) (vectorOf nodes.length values - vectorOf n x ∘ nodeAt h) := by
  have hinjective : Function.Injective (nodeAt h) := fun j l hjl =>
    Fin.ext ((List.Nodup.getElem_inj_iff hnodup).mp (congrArg Fin.val hjl))
  have hfst : (nodes.zipIdx.map Prod.fst).Nodup := by
    rwa [List.zipIdx_map_fst]
  funext i
  by_cases hi : ∃ j, nodeAt h j = i
  · obtain ⟨j, rfl⟩ := hi
    have hmem : (nodes[j], (j : ℕ)) ∈ nodes.zipIdx := by
      rw [List.mk_mem_zipIdx_iff_getElem?]
      exact List.getElem?_eq_getElem j.isLt
    have hset := getD_foldl_set_of_mem hfst values x hmem (hx.symm ▸ h _ (List.getElem_mem j.isLt))
    rw [Pi.add_apply, spread_apply _ hinjective, Pi.sub_apply, Function.comp_apply,
      add_sub_cancel]
    exact hset
  · push Not at hi
    rw [Pi.add_apply, spread_apply_of_not_mem _ _ hi, add_zero]
    refine getD_foldl_set_of_ne _ values x ?_
    rintro ⟨k, j⟩ hmem hki
    rw [List.mk_mem_zipIdx_iff_getElem?] at hmem
    obtain ⟨hj, hget⟩ := List.getElem?_eq_some_iff.mp hmem
    exact hi ⟨j, hj⟩ (Fin.ext (hget.trans hki))

end Nodes

/-! ## Rows and columns of some nodes -/

namespace SparseRow

/-- The entries of a row in some columns, numbered by their places in the list. -/
def pick (nodes : List ℕ) (row : SparseRow ℝ) : SparseRow ℝ :=
  nodes.zipIdx.filterMap fun (c, j) => (find? c row).map (j, ·)

theorem mem_pick_iff {nodes : List ℕ} {row : SparseRow ℝ} {j : ℕ} {v : ℝ} :
    (j, v) ∈ pick nodes row ↔ ∃ c, nodes[j]? = some c ∧ find? c row = some v := by
  unfold pick
  rw [List.mem_filterMap]
  constructor
  · rintro ⟨⟨c, l⟩, hmem, hv⟩
    obtain ⟨u, hu, heq⟩ := Option.map_eq_some_iff.mp hv
    rw [Prod.mk.injEq] at heq
    obtain ⟨rfl, rfl⟩ := heq
    exact ⟨c, List.mk_mem_zipIdx_iff_getElem?.mp hmem, hu⟩
  · rintro ⟨c, hc, hv⟩
    exact ⟨(c, j), List.mk_mem_zipIdx_iff_getElem?.mpr hc, by simp only [hv, Option.map_some]⟩

theorem ascending_pick (nodes : List ℕ) (row : SparseRow ℝ) : (pick nodes row).Ascending := by
  have hplaces : nodes.zipIdx.Pairwise fun p q => p.2 < q.2 := by
    refine List.pairwise_iff_getElem.mpr fun i j hi hj hlt => ?_
    simpa only [List.getElem_zipIdx, Nat.zero_add] using hlt
  unfold pick Ascending
  rw [List.pairwise_filterMap]
  refine hplaces.imp ?_
  rintro ⟨c, j⟩ ⟨d, l⟩ hlt e he f hf
  obtain ⟨u, -, rfl⟩ := Option.map_eq_some_iff.mp he
  obtain ⟨w, -, rfl⟩ := Option.map_eq_some_iff.mp hf
  exact hlt

end SparseRow

namespace SparseMatrix

variable {A : SparseMatrix ℝ} {nodes : List ℕ}

theorem row_selectRows (A : SparseMatrix ℝ) {j : ℕ} (hj : j < nodes.length) :
    (A.selectRows nodes).row j = A.row nodes[j] := by
  show (nodes.map A.row).toArray.getD j [] = A.row nodes[j]
  simp [Array.getD_eq_getD_getElem?, hj]

theorem row_selectColumns (A : SparseMatrix ℝ) (i : ℕ) :
    (A.selectColumns nodes).row i =
      if i < A.rows.size then SparseRow.pick nodes (A.row i) else [] := by
  unfold row selectColumns SparseRow.pick
  simp only [Array.getD_eq_getD_getElem?, Array.getElem?_map]
  by_cases hi : i < A.rows.size
  · rw [if_pos hi, Array.getElem?_eq_getElem hi]
    rfl
  · rw [if_neg hi, Array.getElem?_eq_none (not_lt.mp hi)]
    rfl

/-- The rows and columns of some nodes. -/
def restrict (A : SparseMatrix ℝ) (nodes : List ℕ) : SparseMatrix ℝ :=
  (A.selectRows nodes).selectColumns nodes

theorem size_selectRows (A : SparseMatrix ℝ) (nodes : List ℕ) :
    (A.selectRows nodes).rows.size = nodes.length := by
  simp [selectRows]

/-- Rows that are parts of tidy rows are tidy. -/
theorem Tidy.of_sublist {n m k : ℕ} {B : SparseMatrix ℝ} (h : A.Tidy n m) (hrows : B.rows.size = k)
    (hcolumns : B.columns = m) (hrow : ∀ j, ∃ i, (B.row j).Sublist (A.row i)) : B.Tidy k m where
  rows := hrows
  columns := hcolumns
  ascending j := by
    obtain ⟨i, hi⟩ := hrow j
    exact List.Pairwise.sublist hi (h.ascending i)
  within j e he := by
    obtain ⟨i, hi⟩ := hrow j
    exact h.within i e (hi.subset he)

theorem tidy_selectRows {n : ℕ} (hA : A.Tidy n n) (nodes : List ℕ) :
    (A.selectRows nodes).Tidy nodes.length n := by
  refine hA.of_sublist (size_selectRows A nodes) hA.columns fun j => ?_
  by_cases hj : j < nodes.length
  · rw [row_selectRows A hj]
    exact ⟨_, .refl _⟩
  · have hnil : (A.selectRows nodes).row j = [] := by
      unfold row
      rw [Array.getD_eq_getD_getElem?, Array.getElem?_eq_none, Option.getD_none]
      rw [size_selectRows]
      exact not_lt.mp hj
    rw [hnil]
    exact ⟨0, List.nil_sublist _⟩

/-- The rows of some nodes. -/
theorem toMatrix_selectRows {n : ℕ} (hnodes : ∀ i ∈ nodes, i < n) :
    (A.selectRows nodes).toMatrix nodes.length n =
    (A.toMatrix n n).submatrix (nodeAt hnodes) id := by
  ext j i
  show (A.selectRows nodes).entry j i = A.entry nodes[(j : ℕ)] i
  rw [entry_eq_coeff, entry_eq_coeff, row_selectRows A j.isLt]

theorem tidy_restrict (A : SparseMatrix ℝ) (nodes : List ℕ) :
    (A.restrict nodes).Tidy nodes.length nodes.length := by
  refine ⟨by simp [restrict, selectColumns, size_selectRows], rfl, fun j => ?_, fun j e he => ?_⟩
  · unfold restrict
    rw [row_selectColumns]
    split
    · exact SparseRow.ascending_pick _ _
    · exact List.Pairwise.nil
  · unfold restrict at he
    rw [row_selectColumns] at he
    split at he
    · obtain ⟨c, hc, -⟩ := SparseRow.mem_pick_iff.mp he
      exact (List.getElem?_eq_some_iff.mp hc).1
    · exact absurd he List.not_mem_nil

/-- The rows and columns of some nodes make a submatrix. -/
theorem toMatrix_restrict {n : ℕ} (hnodes : ∀ i ∈ nodes, i < n) :
    (A.restrict nodes).toMatrix nodes.length nodes.length =
    (A.toMatrix n n).submatrix (nodeAt hnodes) (nodeAt hnodes) := by
  ext j l
  show (A.restrict nodes).entry j l = A.entry nodes[(j : ℕ)] nodes[(l : ℕ)]
  have hfind : SparseRow.find? l (SparseRow.pick nodes (A.row nodes[(j : ℕ)])) =
      SparseRow.find? nodes[(l : ℕ)] (A.row nodes[(j : ℕ)]) := by
    ext v
    rw [SparseRow.find?_eq_some_iff (SparseRow.ascending_pick _ _), SparseRow.mem_pick_iff]
    simp
  rw [entry_eq_coeff, entry_eq_coeff]
  unfold restrict SparseRow.coeff
  rw [row_selectColumns, if_pos (by rw [size_selectRows]; exact j.isLt), row_selectRows A j.isLt,
    hfind]

/-- The product with the rows of some nodes. -/
theorem vectorOf_mulVec_selectRows {n : ℕ} (hA : A.Tidy n n) (hnodes : ∀ i ∈ nodes, i < n)
    (x : Array ℝ) : vectorOf nodes.length ((A.selectRows nodes).mulVec x) =
      (A.toMatrix n n *ᵥ vectorOf n x) ∘ nodeAt hnodes := by
  rw [vectorOf_mulVec (tidy_selectRows hA nodes), toMatrix_selectRows hnodes]
  rfl

end SparseMatrix

/-! ## Lowering the potential -/

/-- Node values that take the place of others without raising the potential of a system. -/
structure Lowers (A : SparseMatrix ℝ) (b : Array ℝ) (n : ℕ) (x y : Array ℝ) : Prop where
  size : y.size = n
  le : potential (A.toMatrix n n) (vectorOf n b) (vectorOf n y) ≤
    potential (A.toMatrix n n) (vectorOf n b) (vectorOf n x)

theorem Lowers.refl {A : SparseMatrix ℝ} {b x : Array ℝ} (hx : x.size = n) : Lowers A b n x x :=
  ⟨hx, le_rfl⟩

theorem Lowers.trans {A : SparseMatrix ℝ} {b x y z : Array ℝ} (h : Lowers A b n x y)
    (h' : Lowers A b n y z) : Lowers A b n x z := ⟨h'.size, h'.le.trans h.le⟩

end GridSpline
