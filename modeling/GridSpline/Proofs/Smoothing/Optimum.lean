import Mathlib
import GridSpline.Proofs.Real
import GridSpline.Proofs.Result
import GridSpline.Smoothing.Optimum

/-!
# There is always an optimal smoothing factor

Whatever is looked up, a table with entries gives a bracket: the number of the bracket is clamped at
the top, and the one below the first entry counts from the end. So a number of samples that is not
negative has a factor, which is a power of ten and so positive.

## Main statements

* `exists_logBracket` — an axis with entries brackets every value.
* `exists_optimalSmoothing?` — there is a factor, and it is positive.
-/

namespace GridSpline

open Scalar Failure

theorem exists_entryAt {β : Type} {l : List β} {i : ℤ} (h : -(l.length : ℤ) ≤ i ∧ i < l.length) :
    ∃ b, entryAt (α := ℝ) l i = .ok b := by
  unfold entryAt
  have hpos : ∃ k, Lattice.position? l.length i = some k ∧ k < l.length := by
    unfold Lattice.position?
    by_cases h0 : 0 ≤ i
    · rw [if_pos h0, if_pos h.2]
      exact ⟨i.toNat, rfl, by omega⟩
    · rw [if_neg h0, if_pos (by omega)]
      exact ⟨(i + l.length).toNat, rfl, by omega⟩
  obtain ⟨k, hk, hlt⟩ := hpos
  refine ⟨l[k], ?_⟩
  rw [hk, Option.bind_some, List.getElem?_eq_getElem hlt, require_some]

/-- An axis with entries brackets every value. -/
theorem exists_logBracket {axis : List ℝ} (hne : axis ≠ []) (value : ℝ) :
    ∃ b, logBracket axis value = .ok b := by
  have hlen : 0 < axis.length := List.length_pos_iff.mpr hne
  obtain ⟨first, hfirst⟩ := exists_entryAt (l := axis) (i := 0) (by omega)
  obtain ⟨last, hlast⟩ := exists_entryAt (l := axis) (i := -1) (by omega)
  obtain ⟨lower, hlower⟩ := exists_entryAt (l := axis)
    (i := min ((countNotAbove axis value : ℤ) - 1) ((axis.length : ℤ) - 2)) (by omega)
  obtain ⟨upper, hupper⟩ := exists_entryAt (l := axis)
    (i := min ((countNotAbove axis value : ℤ) - 1) ((axis.length : ℤ) - 2) + 1) (by omega)
  unfold logBracket
  rw [hfirst, ok_bind]
  by_cases hlow : value ≤ first
  · rw [if_pos hlow]
    exact ⟨_, rfl⟩
  · rw [if_neg hlow, hlast, ok_bind]
    simp only
    by_cases hhigh : last ≤ value
    · rw [if_pos hhigh]
      exact ⟨_, rfl⟩
    · rw [if_neg hhigh, hlower, ok_bind, hupper, ok_bind]
      exact ⟨_, rfl⟩

theorem counts_forAxes_ne_nil (axes : ℕ) :
    (SmoothingTable.forAxes axes : SmoothingTable ℝ).counts ≠ [] := by
  unfold SmoothingTable.forAxes
  split <;> exact List.cons_ne_nil _ _

theorem deviations_forAxes_ne_nil (axes : ℕ) :
    (SmoothingTable.forAxes axes : SmoothingTable ℝ).deviations ≠ [] := by
  unfold SmoothingTable.forAxes
  split <;> exact List.cons_ne_nil _ _

/-- There is a factor, and it is positive. -/
theorem exists_optimalSmoothing? (axes : ℤ) {count : ℝ} (hcount : 0 ≤ count) (deviation : ℝ) :
    ∃ s, optimalSmoothing? axes count deviation = .ok s ∧ 0 < s := by
  obtain ⟨row, hrow⟩ := exists_logBracket (counts_forAxes_ne_nil (max axes 1).toNat)
    (samplesPerAxis (max axes 1).toNat count)
  obtain ⟨column, hcolumn⟩ := exists_logBracket (deviations_forAxes_ne_nil (max axes 1).toNat)
    deviation
  refine ⟨Scalar.pow 10.0
    ((SmoothingTable.forAxes (max axes 1).toNat : SmoothingTable ℝ).blend row column), ?_, ?_⟩
  · unfold optimalSmoothing?
    simp only
    rw [if_neg fun h => absurd h.2.1 (not_lt.mpr hcount), hrow, ok_bind, hcolumn, ok_bind]
    rfl
  · exact Real.rpow_pos_of_pos (by norm_num) _

end GridSpline
