import Mathlib
import GridSpline.Proofs.Sample.Decided

/-!
# Reading what was written

An array that is written down by its shape and entries is read as it was written: a vector as a list
of entries, and a table as rows.

## Main statements

* `Nested.entries?_vector`, `entriesOf?_vector` — a vector is read as it was written.
* `SampleTable.ofNested?_table` — so is a table.
-/

namespace GridSpline

open Scalar Failure
open GridSpline.Lattice

variable {β : Type}

theorem Dense.ofNested?_vector (l : List β) :
    Dense.ofNested? (.block (.vector l)) = some (.vector l) := by
  unfold Dense.ofNested?
  rw [if_pos (by simp [Dense.vector, size])]

theorem Nested.entries?_vector (l : List β) : Nested.entries? (.block (.vector l)) = some l := by
  unfold Nested.entries?
  rw [Dense.ofNested?_vector]
  rfl

/-- A vector is a column, unless it is expected to be a row. -/
theorem SampleTable.ofNested?_vector (field : String) (l : List β) :
    SampleTable.ofNested? field none (.block (.vector l)) =
      .ok { columns := 1, rows := l.map ([·]) } := by
  unfold SampleTable.ofNested?
  rw [Dense.ofNested?_vector, require_some, ok_bind]
  exact if_neg fun h => nomatch h.2

/-- A vector has a weight for each sample. -/
theorem weightRows?_vector [Scalar β] (channels : ℕ) (l : List β) :
    weightRows? l.length channels (some (.block (.vector l))) =
      .ok (l.map (List.replicate channels)) := by
  unfold weightRows?
  simp only [Dense.ofNested?_vector, require_some, ok_bind]
  exact if_pos rfl

theorem length_flatten_of_uniform {rows : List (List β)} {m : ℕ}
    (h : ∀ r ∈ rows, r.length = m) : rows.flatten.length = rows.length * m := by
  rw [List.length_flatten, List.map_congr_left h, List.map_const', List.sum_replicate, smul_eq_mul]

/-- Where the rows have one length, a row stands at its multiples. -/
theorem extract_flatten_of_uniform {rows : List (List β)} {m : ℕ}
    (h : ∀ r ∈ rows, r.length = m) {i : ℕ} (hi : i < rows.length) :
    rows.flatten.extract (i * m) (i * m + m) = rows[i] := by
  have hsum : ∀ j ≤ rows.length, ((rows.map List.length).take j).sum = j * m := by
    intro j hj
    rw [List.map_congr_left h, List.map_const', List.take_replicate, List.sum_replicate,
      min_eq_left hj, smul_eq_mul]
  have hrow := List.drop_take_succ_flatten_eq_getElem rows i hi
  rw [hsum i hi.le, hsum (i + 1) hi, List.drop_take, Nat.succ_mul] at hrow
  exact hrow

theorem Dense.rows?_table {m : ℕ} {rows : List (List β)} (h : ∀ r ∈ rows, r.length = m) :
    (Dense.table m rows).rows? = some rows := by
  unfold Dense.rows? Dense.table
  simp only [Option.some.injEq, Array.toList_extract]
  refine List.ext_getElem (by rw [List.length_map, List.length_range]) fun i _ hi => ?_
  rw [List.getElem_map, List.getElem_range]
  exact extract_flatten_of_uniform h hi

theorem Dense.ofNested?_table {m : ℕ} {rows : List (List β)} (h : ∀ r ∈ rows, r.length = m) :
    Dense.ofNested? (.block (.table m rows)) = some (.table m rows) := by
  unfold Dense.ofNested?
  rw [if_pos (by simp [Dense.table, size, length_flatten_of_uniform h])]

/-- A table is read as it was written. -/
theorem SampleTable.ofNested?_table (field : String) (columns : Option ℕ) {t : SampleTable β}
    (h : ∀ r ∈ t.rows, r.length = t.columns) :
    SampleTable.ofNested? field columns (.block (.table t.columns t.rows)) = .ok t := by
  unfold SampleTable.ofNested?
  rw [Dense.ofNested?_table h, require_some, ok_bind]
  simp only [Dense.rows?_table h]
  rfl

theorem repeated?_ofNat (count : ℕ) (b : β) :
    (repeated? (count : ℤ) b : Except (Failure β) (List β)) = .ok (List.replicate count b) := rfl

theorem entriesOf?_vector (field : String) {count : ℕ} (default : β) {l : List β}
    (h : l.length = count) :
    entriesOf? field count default (some (.block (.vector l))) = .ok l := by
  subst h
  unfold entriesOf?
  simp only [Dense.ofNested?_vector, require_some, ok_bind]
  rcases l with _ | ⟨x, _ | ⟨y, l⟩⟩
  · rfl
  -- A single entry is repeated once.
  · rfl
  · exact if_pos rfl

end GridSpline
