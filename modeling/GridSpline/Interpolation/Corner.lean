import GridSpline.Lattice.Basic
import GridSpline.Word

/-!
# Corners of a cell

A cell has a corner for every choice of a lower or upper node along each axis. The corners are
listed in binary order: the choice for axis 0 alternates fastest. Offsets and weights of the corners
are listed in the same order, so that a value in the cell is the sum of weights times node values.

## Main statements

* `length_cornerOffsets`, `length_cornerWeights` — there is one offset and one weight for every
  corner.
-/

namespace GridSpline

/-- The choices along each axis, true for the upper node. -/
def corners : Nat → List (List Bool)
  | 0 => [[]]
  | n + 1 => (corners n).flatMap fun rest => [false :: rest, true :: rest]

/-- The differences of the node numbers of the corners from the number of the lowest one. -/
def cornerOffsets : List Int → List Int
  | [] => [0]
  | s :: strides => (cornerOffsets strides).flatMap fun o => [o, o + s]

/-- The differences as machine words. -/
def cornerOffsetWords (strides : List Int) : List Int := (cornerOffsets strides).map Word.wrap

/-- The weights of the corners at a point of the cell, whose coordinates run from 0 to 1. -/
def cornerWeights {α : Type} [Scalar α] : List α → List α
  | [] => [1]
  | t :: ts => (cornerWeights ts).flatMap fun w => [(1 - t) * w, t * w]

/-- Two entries for every entry of a list. -/
theorem length_flatMap_two {β γ : Type} (f : β → List γ) (h : ∀ b, (f b).length = 2)
    (l : List β) : (l.flatMap f).length = l.length * 2 := by
  induction l with
  | nil => rfl
  | cons b bs ih => rw [List.flatMap_cons, List.length_append, h, ih, List.length_cons]; omega

/-- There is one offset for every corner. -/
theorem length_cornerOffsets (strides : List Int) :
    (cornerOffsets strides).length = (corners strides.length).length := by
  induction strides with
  | nil => rfl
  | cons s ss ih =>
    rw [cornerOffsets, length_flatMap_two _ fun _ => rfl, ih, List.length_cons, corners,
      length_flatMap_two _ fun _ => rfl]

/-- There is one weight for every corner. -/
theorem length_cornerWeights {α : Type} [Scalar α] (t : List α) :
    (cornerWeights t).length = (corners t.length).length := by
  induction t with
  | nil => rfl
  | cons t ts ih =>
    rw [cornerWeights, length_flatMap_two _ fun _ => rfl, ih, List.length_cons, corners,
      length_flatMap_two _ fun _ => rfl]

end GridSpline
