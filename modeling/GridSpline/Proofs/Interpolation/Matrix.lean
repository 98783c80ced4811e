import Mathlib
import GridSpline.Interpolation.Matrix
import GridSpline.Proofs.Equations.LeastSquares
import GridSpline.Proofs.Result
import GridSpline.Proofs.Sparse.Matrix

/-!
# The rows of the interpolation matrix

Every row of the interpolation matrix holds the weights of the corners of one cell: its entry at a
node is the coefficient of that node in the linear form which the misfit of the sample squares. So
the matrix that takes node values to values at the samples and the equations agree on what a value
at a sample is.

## Main statements

* `contribution_cellEntries` — the entries of a row come from one cell.
* `exists_interpolationMatrix?` — cells with all corners on the lattice have a matrix.
-/

namespace GridSpline

open Scalar Failure
open SparseMatrix (contribution Holds)

variable {offsets : List ℤ} {α : Type}

/-- The entries of cells, each with its lowest node and the weights of its corners, from the given
row on. -/
def cellEntries (offsets : List ℤ) (k : ℕ) (cells : List (ℤ × List α)) : List (ℤ × ℤ × α) :=
  (cells.zipIdx k).flatMap fun c =>
    (offsets.zip c.1.2).map fun t => ((c.2 : ℤ), c.1.1 + t.1, t.2)

theorem cellEntries_cons (offsets : List ℤ) (k : ℕ) (c : ℤ × List α) (cells : List (ℤ × List α)) :
    cellEntries offsets k (c :: cells) =
      ((offsets.zip c.2).map fun t => ((k : ℤ), c.1 + t.1, t.2)) ++
        cellEntries offsets (k + 1) cells := rfl

/-- The places and weights of the corners, which are listed apart, belong together. -/
theorem zip_cornerPlaces (offsets : List ℤ) (k : ℕ) {cells : List (ℤ × List α)}
    (hw : ∀ c ∈ cells, c.2.length = offsets.length) :
    (((cells.map Prod.fst).zipIdx k).flatMap fun (base, n) =>
        offsets.map fun o => ((n : ℤ), base + o)).zip (cells.map Prod.snd).flatten =
      (cellEntries offsets k cells).map fun t => ((t.1, t.2.1), t.2.2) := by
  induction cells generalizing k with
  | nil => rfl
  | cons c cells ih =>
    have hc := hw c List.mem_cons_self
    rw [List.map_cons, List.zipIdx_cons, List.flatMap_cons, List.map_cons, List.flatten_cons,
      List.zip_append (by rw [List.length_map, hc]), ih (k + 1) fun d hd =>
        hw d (List.mem_cons_of_mem c hd), cellEntries_cons, List.map_append, List.map_map,
      List.zip_map_left]
    rfl

theorem length_cornerPlaces (k : ℕ) (bases : List ℤ) :
    ((bases.zipIdx k).flatMap fun (base, n) =>
      offsets.map fun o => ((n : ℤ), base + o)).length = bases.length * offsets.length := by
  induction bases generalizing k with
  | nil => simp
  | cons b bases ih =>
    rw [List.zipIdx_cons, List.flatMap_cons, List.length_append, ih, List.length_map,
      List.length_cons]
    ring

theorem length_flatten_weights {cells : List (ℤ × List α)}
    (hw : ∀ c ∈ cells, c.2.length = offsets.length) :
    (cells.map Prod.snd).flatten.length = cells.length * offsets.length := by
  induction cells with
  | nil => simp
  | cons c cells ih =>
    rw [List.map_cons, List.flatten_cons, List.length_append,
      ih fun d hd => hw d (List.mem_cons_of_mem c hd), hw c List.mem_cons_self, List.length_cons]
    ring

/-- The entries of a row are those of one cell. -/
theorem filter_cellEntries (offsets : List ℤ) (k : ℕ) (cells : List (ℤ × List α)) (i : ℕ) :
    (cellEntries offsets k cells).filter (fun t => t.1 = ((k + i : ℕ) : ℤ)) =
      (cells[i]?.map fun c =>
        (offsets.zip c.2).map fun t => (((k + i : ℕ) : ℤ), c.1 + t.1, t.2)).getD [] := by
  induction cells generalizing k i with
  | nil => rfl
  | cons c cells ih =>
    rw [cellEntries_cons, List.filter_append]
    cases i with
    | zero =>
      have hlater : (cellEntries offsets (k + 1) cells).filter
          (fun t => t.1 = ((k + 0 : ℕ) : ℤ)) = [] := by
        refine List.filter_eq_nil_iff.mpr fun t ht => ?_
        obtain ⟨⟨d, m⟩, hd, hu⟩ := List.mem_flatMap.mp ht
        obtain ⟨s, -, rfl⟩ := List.mem_map.mp hu
        have hm : k + 1 ≤ m := (List.mem_zipIdx hd).1
        simp only [decide_eq_true_eq]
        omega
      rw [hlater, List.append_nil, List.filter_eq_self.mpr fun t ht => ?_]
      · rfl
      · obtain ⟨s, -, rfl⟩ := List.mem_map.mp ht
        exact decide_eq_true rfl
    | succ i =>
      have hshift : k + (i + 1) = k + 1 + i := by omega
      have hfirst : (((offsets.zip c.2).map fun t => ((k : ℤ), c.1 + t.1, t.2)).filter
          fun t => t.1 = ((k + (i + 1) : ℕ) : ℤ)) = [] := by
        refine List.filter_eq_nil_iff.mpr fun t ht => ?_
        obtain ⟨s, -, rfl⟩ := List.mem_map.mp ht
        simp only [decide_eq_true_eq]
        omega
      rw [hfirst, List.nil_append, List.getElem?_cons_succ, hshift]
      exact ih (k + 1) i

/-- Entries that are zero are left out. -/
theorem filterMap_entries [Scalar α] (ts : List (ℤ × ℤ × α)) :
    ((ts.map fun t => ((t.1, t.2.1), t.2.2)).filterMap fun ((i, j), w) =>
      if IsZero w then none else some (i, j, w)) = ts.filter fun t => ! decide (IsZero t.2.2) := by
  rw [List.filterMap_map, ← List.filterMap_eq_filter]
  refine List.filterMap_congr ?_
  intro t _
  by_cases hw : IsZero t.2.2
  · simp [Option.guard, hw]
  · simp [Option.guard, hw]

/-! ## Contributions -/

/-- Only the entries of a row contribute to it. -/
theorem contribution_filter_row (ts : List (ℤ × ℤ × ℝ)) (i j : ℕ) :
    contribution (ts.filter fun t => t.1 = (i : ℤ)) i j = contribution ts i j := by
  induction ts with
  | nil => rfl
  | cons t ts ih =>
    unfold contribution at ih ⊢
    rw [List.map_cons, List.sum_cons, ← ih]
    by_cases ht : t.1 = (i : ℤ)
    · rw [List.filter_cons_of_pos (by simp [ht]), List.map_cons, List.sum_cons]
    · rw [List.filter_cons_of_neg (by simp [ht]), if_neg (fun hc => ht hc.1), zero_add]

/-- What is left out would contribute nothing. -/
theorem contribution_filter (ts : List (ℤ × ℤ × ℝ)) (i j : ℕ) :
    contribution (ts.filter fun t => ! decide (IsZero t.2.2)) i j = contribution ts i j := by
  induction ts with
  | nil => rfl
  | cons t ts ih =>
    unfold contribution at ih ⊢
    rw [List.map_cons, List.sum_cons, ← ih]
    by_cases hw : t.2.2 = 0
    · rw [List.filter_cons_of_neg (by simp [hw]), hw]
      simp
    · rw [List.filter_cons_of_pos (by simp [hw]), List.map_cons, List.sum_cons]

theorem contribution_row (base : ℤ) (terms : List (ℤ × ℝ)) (i j : ℕ) :
    contribution (terms.map fun t => ((i : ℤ), base + t.1, t.2)) i j = combination base terms j := by
  unfold contribution combination
  rw [List.map_map]
  simp [Function.comp_def]

/-- The entries of a row come from one cell. -/
theorem contribution_cellEntries (offsets : List ℤ) (cells : List (ℤ × List ℝ)) (i j : ℕ) :
    contribution (cellEntries offsets 0 cells) i j =
      (cells[i]?.map fun c => combination c.1 (offsets.zip c.2) j).getD 0 := by
  have hrow := filter_cellEntries offsets 0 cells i
  rw [Nat.zero_add] at hrow
  rw [← contribution_filter_row, hrow]
  cases cells[i]? with
  | none => rfl
  | some c => exact contribution_row c.1 (offsets.zip c.2) i j

/-! ## The matrix -/

/-- The matrix is the sum of the entries that are not zero. -/
theorem interpolationMatrix?_eq [Scalar α] {cells : List (ℤ × List α)} (n : ℕ)
    (hw : ∀ c ∈ cells, c.2.length = offsets.length) :
    interpolationMatrix? (cells.map Prod.fst) (cells.map Prod.snd).flatten offsets n =
      require .shapeMismatch (SparseMatrix.ofTriplets? cells.length n
        ((cellEntries offsets 0 cells).filter fun t => ! decide (IsZero t.2.2))) := by
  have hlen : ¬(cells.map Prod.snd).flatten.length ≠
      (cornerPlaces (cells.map Prod.fst) offsets).length := by
    unfold cornerPlaces
    rw [length_flatten_weights hw, length_cornerPlaces, List.length_map]
    simp
  unfold interpolationMatrix?
  simp only
  rw [if_neg hlen]
  unfold cornerPlaces
  rw [zip_cornerPlaces offsets 0 hw, filterMap_entries, List.length_map]

/-- Cells with all corners on the lattice have a matrix, whose rows are the linear forms of the
cells. -/
theorem exists_interpolationMatrix? {n : ℕ} {cells : List (ℤ × List ℝ)}
    (hw : ∀ c ∈ cells, c.2.length = offsets.length)
    (hin : ∀ c ∈ cells, ∀ o ∈ offsets, 0 ≤ c.1 + o ∧ c.1 + o < n) :
    ∃ W, interpolationMatrix? (cells.map Prod.fst) (cells.map Prod.snd).flatten offsets n = .ok W ∧
      W.Tidy cells.length n ∧ ∀ i j, W.entry i j =
        (cells[i]?.map fun c => combination c.1 (offsets.zip c.2) j).getD 0 := by
  have hholds : ∀ t ∈ (cellEntries offsets 0 cells).filter fun t => ! decide (IsZero t.2.2),
      Holds cells.length n t := by
    intro t ht
    obtain ⟨⟨c, m⟩, hc, hu⟩ := List.mem_flatMap.mp (List.mem_of_mem_filter ht)
    obtain ⟨s, hs, rfl⟩ := List.mem_map.mp hu
    obtain ⟨-, hm, hcm⟩ := List.mem_zipIdx hc
    have hmem : c ∈ cells := by
      rw [hcm]
      exact List.getElem_mem _
    obtain ⟨h0, hlt⟩ := hin c hmem s.1 (List.of_mem_zip hs).1
    exact ⟨Int.natCast_nonneg m, by show (m : ℤ) < cells.length; omega, h0, hlt⟩
  obtain ⟨W, hW, htidy, hentry⟩ := SparseMatrix.exists_ofTriplets? hholds
  refine ⟨W, ?_, htidy, ?_⟩
  · rw [interpolationMatrix?_eq n hw, hW, require_some]
  · intro i j
    rw [hentry, contribution_filter, contribution_cellEntries]

end GridSpline
