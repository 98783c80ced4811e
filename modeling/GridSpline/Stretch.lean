import GridSpline.Lattice.Basic

/-!
# Quantities per axis

Vectors with one entry per axis are combined entry by entry. A vector with a single entry stands for
one that has the same entry for every axis.
-/

namespace GridSpline

variable {β γ δ : Type}

/-- Combines two vectors entry by entry, stretching one that has a single entry. -/
def zipStretch? (f : β → γ → δ) (a : List β) (b : List γ) : Option (List δ) :=
  if a.length = b.length then some (List.zipWith f a b)
  else match a, b with
    | [x], _ => some (b.map (f x))
    | _, [y] => some (a.map fun x => f x y)
    | _, _ => none

/-- The vector with a given number of entries. -/
def stretch? (n : Nat) (a : List β) : Option (List β) :=
  if a.length = n then some a
  else match a with
    | [x] => some (List.replicate n x)
    | _ => none

/-- Vectors of one length are combined without stretching. -/
theorem zipStretch?_of_length {a : List β} {b : List γ} (f : β → γ → δ)
    (h : a.length = b.length) : zipStretch? f a b = some (List.zipWith f a b) := if_pos h

/-- A vector of the right length stays as it is. -/
theorem stretch?_of_length {n : Nat} {a : List β} (h : a.length = n) : stretch? n a = some a :=
  if_pos h

end GridSpline
