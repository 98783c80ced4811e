import GridSpline.Scalar.Basic

/-!
# Spacings of coarser levels

A coarser level has fewer nodes along an axis than the spacing that was given for it. It takes its
spacing from the piecewise linear curve through the given one, at evenly divided places.
-/

namespace GridSpline

open Scalar

variable {α : Type} [Scalar α]

/-- The value between two neighbours at a share of the way from one to the other. From an infinite
neighbour the way is measured from the other one. -/
def between (a b share : α) : α :=
  -- Infinities cancel to no number; then the other end, or the common value, decides.
  let v := (b - a) * share + a
  if IsNumber v then v
  else
    let w := (b - a) * (share - 1) + b
    if IsNumber w then w else if IsZero (b - a) ∨ (a ≤ b ∧ b ≤ a) then a else w

/-- The value of the curve at a place, which is measured in nodes of the given spacing. -/
def curveAt (spacing : List α) (place : α) : α :=
  let lower := (cellFloor place).toNat
  let share := place - (lower : α)
  match spacing[lower]?, spacing[lower + 1]? with
  | some a, some b => if IsZero share then a else between a b share
  | some a, none => a
  | none, _ => (spacing.getLast?).getD 0

/-- The place of a node among `count` nodes spread evenly over `last` intervals. The outermost one
is exactly at the end. -/
def spreadPlace (last count i : Nat) : α :=
  if i + 1 = count ∧ 1 < count then (last : α)
  else (i : α) * ((last : α) / ((count - 1 : Nat) : α))

/-- The spacing of `count` nodes. -/
def downsampleSpacing (spacing : List α) (count : Nat) : List α :=
  (List.range count).map fun i =>
    if count ≤ 1 then curveAt spacing 0
    else curveAt spacing (spreadPlace (spacing.length - 1) count i)

end GridSpline
