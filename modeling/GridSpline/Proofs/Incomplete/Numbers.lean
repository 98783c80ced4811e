import Mathlib
import GridSpline.Proofs.Incomplete.Reading
import GridSpline.Proofs.Sample.Decided

/-!
# Numbers among readings

Readings that are numbers are compared and combined as real numbers. So what is made of numbers only
is known from what is made of real numbers: the outermost entries of a column, the bounds that take
them in, and the extent of a channel. The samples that are kept consist of numbers.

## Main statements

* `exists_eq_map_number` — readings that are all numbers.
* `widen_number` — the extent of a channel.
* `exists_rows_of_samples?` — the samples that are kept.
-/

namespace GridSpline

open Scalar Failure

namespace Reading

/-! ## Single numbers -/

variable {x y : ℝ}

theorem number_injective : Function.Injective number := fun _ _ => number.inj

@[simp] theorem number_lt_number : number x < number y ↔ x < y := Iff.rfl

@[simp] theorem number_le_number : number x ≤ number y ↔ x ≤ y := Iff.rfl

theorem isNumber_iff {r : Reading} : IsNumber r ↔ ∃ x, number x = r := by
  cases r with
  | number x => exact ⟨fun _ => ⟨x, rfl⟩, fun _ => le_refl x⟩
  | blank => exact ⟨False.elim, fun ⟨_, h⟩ => by cases h⟩

@[simp] theorem minimum_number (x y : ℝ) :
    minimum (number x) (number y) = number (min x y) := by
  unfold minimum
  rcases le_total x y with h | h
  · rw [if_pos (number_le_number.mpr h), min_eq_left h]
  · rw [min_eq_right h]
    split
    · rename_i hle
      rw [le_antisymm (number_le_number.mp hle) h]
    · rw [if_pos (number_le_number.mpr h)]

@[simp] theorem maximum_number (x y : ℝ) :
    maximum (number x) (number y) = number (max x y) := by
  unfold maximum
  rcases le_total y x with h | h
  · rw [if_pos (number_le_number.mpr h), max_eq_left h]
  · rw [max_eq_right h]
    split
    · rename_i hle
      rw [le_antisymm (number_le_number.mp hle) h]
    · rw [if_pos (number_le_number.mpr h)]

/-! ## Lists of numbers -/

/-- Readings that are all numbers are those of a list of real numbers. -/
theorem exists_eq_map_number {l : List Reading} (h : ∀ r ∈ l, IsNumber r) :
    ∃ xs : List ℝ, l = xs.map number := by
  have hrange : l ∈ Set.range (List.map number) := by
    rw [Set.range_list_map]
    exact fun r hr => isNumber_iff.mp (h r hr)
  obtain ⟨xs, rfl⟩ := hrange
  exact ⟨xs, rfl⟩

/-- Rows of numbers are those of real numbers. -/
theorem exists_eq_map_map_number {rows : List (List Reading)}
    (h : ∀ row ∈ rows, ∀ r ∈ row, IsNumber r) :
    ∃ xs : List (List ℝ), rows = xs.map (·.map number) := by
  have hrange : rows ∈ Set.range (List.map (List.map number)) := by
    rw [Set.range_list_map]
    intro row hrow
    obtain ⟨xs, rfl⟩ := exists_eq_map_number (h row hrow)
    exact ⟨xs, rfl⟩
  obtain ⟨xs, rfl⟩ := hrange
  exact ⟨xs, rfl⟩

theorem column_map_number (rows : List (List ℝ)) (e : ℕ) :
    column (rows.map (·.map number)) e = (column rows e).map number := by
  unfold column
  rw [List.filterMap_map, List.map_filterMap]
  exact List.filterMap_congr fun row _ => List.getElem?_map

theorem least?_map_number (l : List ℝ) : least? (l.map number) = (least? l).map number := by
  cases l with
  | nil => rfl
  | cons a l =>
    refine congrArg some ?_
    rw [List.foldl_map]
    refine List.foldl_hom number fun x y => ?_
    rw [minimum_number, minimum_eq]

theorem greatest?_map_number (l : List ℝ) :
    greatest? (l.map number) = (greatest? l).map number := by
  cases l with
  | nil => rfl
  | cons a l =>
    refine congrArg some ?_
    rw [List.foldl_map]
    refine List.foldl_hom number fun x y => ?_
    rw [maximum_number, maximum_eq]

/-- The extent of a channel. -/
theorem widen_number (b : ℝ × ℝ) (values : List ℝ) :
    widen (number b.1) (number b.2) (values.map number) =
      (number (extended b values).1, number (extended b values).2) := by
  unfold widen extended
  rw [least?_map_number, greatest?_map_number]
  cases least? values <;> cases greatest? values <;> simp

end Reading

/-! ## Kept samples -/

/-- The samples that are kept consist of numbers, with one coordinate for each axis and one value
for each channel. -/
theorem exists_rows_of_samples? {g : GivenSamples Reading} {axes channels : ℕ}
    {samples : List (Sample Reading)} (h : g.samples? axes = .ok (channels, samples)) :
    ∃ positions values : List (List ℝ),
      samples.map (·.position) = positions.map (·.map .number) ∧
      samples.map (·.values) = values.map (·.map .number) ∧
      (∀ p ∈ positions, p.length = axes) ∧ ∀ v ∈ values, v.length = channels := by
  have hkept := kept_of_samples? h
  obtain ⟨positions, hpositions⟩ : ∃ positions : List (List ℝ),
      samples.map (·.position) = positions.map (·.map .number) := by
    refine Reading.exists_eq_map_map_number fun row hrow => ?_
    obtain ⟨s, hs, rfl⟩ := List.mem_map.mp hrow
    exact (hkept s hs).2.2.2.1.1
  obtain ⟨values, hvalues⟩ : ∃ values : List (List ℝ),
      samples.map (·.values) = values.map (·.map .number) := by
    refine Reading.exists_eq_map_map_number fun row hrow => ?_
    obtain ⟨s, hs, rfl⟩ := List.mem_map.mp hrow
    exact (hkept s hs).2.2.2.1.2.1
  refine ⟨positions, values, hpositions, hvalues, fun p hp => ?_, fun v hv => ?_⟩
  · obtain ⟨s, hs, hrow⟩ := List.mem_map.mp (hpositions ▸ List.mem_map_of_mem hp :
      p.map Reading.number ∈ samples.map (·.position))
    rw [← List.length_map Reading.number, ← hrow, (hkept s hs).1]
  · obtain ⟨s, hs, hrow⟩ := List.mem_map.mp (hvalues ▸ List.mem_map_of_mem hv :
      v.map Reading.number ∈ samples.map (·.values))
    rw [← List.length_map Reading.number, ← hrow, (hkept s hs).2.1]

end GridSpline
