import Mathlib
import GridSpline.Proofs.Exact
import GridSpline.Word

/-!
# Readings

A reading is a real number, or it is blank: then it is no number, and compares false with
everything. Arithmetic with a blank reading gives a blank one, and so does arithmetic that has no
result, such as a division by zero. Readings are scalars, so samples may have blanks. Sums of them
are exact: in whatever order they are taken, they are blank if some addend is.

## Main definitions

* `Reading` — a real number, or none.
-/

namespace GridSpline

/-- A real number, or none. -/
inductive Reading where
  | number (x : ℝ)
  | blank

namespace Reading

/-- Applies a function that may have no value. -/
def bind (f : ℝ → Reading) : Reading → Reading
  | number x => f x
  | blank => blank

/-- Applies a function of two numbers. -/
def map₂ (f : ℝ → ℝ → ℝ) (a b : Reading) : Reading := a.bind fun x => b.bind fun y => number (f x y)

/-- Compares two numbers. -/
def Holds (r : ℝ → ℝ → Prop) : Reading → Reading → Prop
  | number x, number y => r x y
  | _, _ => False

open Classical in
noncomputable instance : Scalar Reading where
  zero := number 0
  one := number 1
  add := map₂ (· + ·)
  sub := map₂ (· - ·)
  mul := map₂ (· * ·)
  div a b := a.bind fun x => b.bind fun y => if y = 0 then blank else number (x / y)
  neg := bind fun x => number (-x)
  natCast n := number n
  intCast n := number n
  ofScientific m s e := number (OfScientific.ofScientific m s e)
  lt := Holds (· < ·)
  le := Holds (· ≤ ·)
  decidableLT _ _ := inferInstance
  decidableLE _ _ := inferInstance
  sqrt := bind fun x => if x < 0 then blank else number (Real.sqrt x)
  exp := bind fun x => number (Real.exp x)
  log := bind fun x => if x ≤ 0 then blank else number (Real.log x)
  pow := map₂ (· ^ ·)
  floor?
    | number x => .ok ⌊x⌋
    | blank => .error .notANumber
  cellFloor
    | number x => ⌊x⌋
    | blank => -Word.limit

/-- A blank is no number. -/
theorem not_isNumber_blank : ¬Scalar.IsNumber blank := id

instance : Scalar.IsExact Reading where
  add_right_comm a b c := by
    cases a with
    | blank => rfl
    | number x =>
      cases b with
      | blank => cases c <;> rfl
      | number y =>
        cases c with
        | blank => rfl
        | number z => exact congrArg number (add_right_comm x y z)
  le_antisymm {a b} h h' := by
    cases a with
    | blank => exact h.elim
    | number x =>
      cases b with
      | blank => exact h.elim
      | number y => exact congrArg number (le_antisymm h h')
  le_trans {a b c} h h' := by
    cases a with
    | blank => exact h.elim
    | number x =>
      cases b with
      | blank => exact h.elim
      | number y =>
        cases c with
        | blank => exact h'.elim
        | number z => exact le_trans (α := ℝ) h h'
  le_total {a b} ha hb := by
    cases a with
    | blank => exact ha.elim
    | number x =>
      cases b with
      | blank => exact hb.elim
      | number y => exact le_total x y
  lt_iff {a b} := by
    cases a with
    | blank => exact ⟨fun h => h.elim, fun h => h.1.elim⟩
    | number x =>
      cases b with
      | blank => exact ⟨fun h => h.elim, fun h => h.1.elim⟩
      | number y => exact lt_iff_le_not_ge (α := ℝ)

end Reading

end GridSpline
