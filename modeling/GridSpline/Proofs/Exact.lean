import Mathlib
import GridSpline.Proofs.Real

/-!
# Exact scalars

Scalars are exact if addends may change places and if their numbers are in a total order. Real
numbers are exact, and they remain so next to a value that is no number. Rounded numbers are not:
there a sum depends on the order in which it is taken.

What is stated for exact scalars covers input in which something is missing; over the real numbers
nothing ever is.

## Main definitions

* `Scalar.IsExact` — addends may change places, and numbers are in a total order.

## Main statements

* `sum_perm` — a sum may be taken in any order.
* `minimum_spec`, `maximum_spec` — of two numbers one is the lesser and one the greater.
-/

namespace GridSpline

namespace Scalar

/-- Addends may change places, and numbers are in a total order. -/
class IsExact (α : Type) [Scalar α] : Prop where
  add_right_comm (a b c : α) : a + b + c = a + c + b
  le_antisymm {a b : α} : a ≤ b → b ≤ a → a = b
  le_trans {a b c : α} : a ≤ b → b ≤ c → a ≤ c
  le_total {a b : α} : IsNumber a → IsNumber b → a ≤ b ∨ b ≤ a
  lt_iff {a b : α} : a < b ↔ a ≤ b ∧ ¬b ≤ a

instance : IsExact ℝ where
  add_right_comm := add_right_comm
  le_antisymm := le_antisymm
  le_trans := le_trans
  le_total _ _ := le_total _ _
  lt_iff := lt_iff_le_not_ge

variable {α : Type} [Scalar α] [IsExact α] {a b c : α}

/-- A sum may be taken in any order. -/
theorem sum_perm {l l' : List α} (h : l'.Perm l) : sum l' = sum l :=
  h.foldl_eq' (fun a _ b _ x => IsExact.add_right_comm x a b) 0

theorem IsExact.lt_irrefl (a : α) : ¬a < a := fun h => (IsExact.lt_iff.mp h).2 (IsExact.lt_iff.mp h).1

theorem IsExact.lt_of_le_of_lt (h : a ≤ b) (h' : b < c) : a < c := by
  obtain ⟨hle, hge⟩ := IsExact.lt_iff.mp h'
  exact IsExact.lt_iff.mpr ⟨IsExact.le_trans h hle, fun hca => hge (IsExact.le_trans hca h)⟩

theorem IsExact.lt_of_lt_of_le (h : a < b) (h' : b ≤ c) : a < c := by
  obtain ⟨hle, hge⟩ := IsExact.lt_iff.mp h
  exact IsExact.lt_iff.mpr ⟨IsExact.le_trans hle h', fun hca => hge (IsExact.le_trans h' hca)⟩

/-- The lesser of two numbers is one of them. -/
theorem minimum_spec (ha : IsNumber a) (hb : IsNumber b) :
    (minimum a b = a ∨ minimum a b = b) ∧ minimum a b ≤ a ∧ minimum a b ≤ b := by
  unfold minimum
  split
  · rename_i hle
    exact ⟨Or.inl rfl, ha, hle⟩
  · rename_i hle
    have hge := (IsExact.le_total ha hb).resolve_left hle
    rw [if_pos hge]
    exact ⟨Or.inr rfl, hge, hb⟩

/-- The greater of two numbers is one of them. -/
theorem maximum_spec (ha : IsNumber a) (hb : IsNumber b) :
    (maximum a b = a ∨ maximum a b = b) ∧ a ≤ maximum a b ∧ b ≤ maximum a b := by
  unfold maximum
  split
  · rename_i hle
    exact ⟨Or.inl rfl, ha, hle⟩
  · rename_i hle
    have hge := (IsExact.le_total ha hb).resolve_right hle
    rw [if_pos hge]
    exact ⟨Or.inr rfl, hge, hb⟩

end Scalar

end GridSpline
