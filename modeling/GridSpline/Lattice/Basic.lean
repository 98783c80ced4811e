import GridSpline.Scalar.Basic

/-!
# Lattices

A lattice is given by its resolutions, the number of nodes along each axis. A node has coordinates,
one per axis, and a number; along axis 0 neighbours have consecutive numbers. Number and
coordinates are the two forms of one mixed-radix numeral whose digit for axis 0 counts least.

## Main definitions

* `Lattice.size`, `Lattice.strides` — the number of nodes, and by how much the node number grows
  along each axis.
* `Lattice.coordsOf`, `Lattice.nodeOf` — the two directions of the correspondence.
* `Lattice.stepOffset` — the difference of node numbers that belongs to a step along the axes.

## Main statements

* `nodeOf_coordsOf`, `coordsOf_nodeOf` — the two directions are inverse on the lattice.
-/

namespace GridSpline.Lattice

/-! ## Numbers of nodes -/

/-- The number of nodes. -/
def size : List Nat → Nat
  | [] => 1
  | r :: rs => r * size rs

/-- The strides of axes that begin where one step changes the node number by `s`. -/
def stridesFrom (s : Nat) : List Nat → List Nat
  | [] => []
  | r :: rs => s :: stridesFrom (s * r) rs

/-- The stride of each axis. A lattice without axes still has one stride. -/
def strides (res : List Nat) : List Nat :=
  if res.isEmpty then [1] else stridesFrom 1 res

/-- The change of the node number when each coordinate changes by the given step. -/
def stepOffset (res : List Nat) (step : List Int) : Int :=
  (List.zipWith (fun (g : Int) (s : Nat) => g * s) step (strides res)).foldl (· + ·) 0

/-! ## Coordinates -/

/-- The coordinates of a node. -/
def coordsOf : List Nat → Nat → List Nat
  | [], _ => []
  | r :: rs, i => i % r :: coordsOf rs (i / r)

/-- The number of the node with the given coordinates. -/
def nodeOf : List Nat → List Nat → Nat
  | r :: rs, c :: cs => c + r * nodeOf rs cs
  | _, _ => 0

/-- Coordinates are within the lattice when each is below the resolution of its axis. -/
def Within : List Nat → List Nat → Prop
  | [], [] => True
  | r :: rs, c :: cs => c < r ∧ Within rs cs
  | _, _ => False

/-- A node has one coordinate per axis. -/
theorem length_coordsOf (res : List Nat) (i : Nat) : (coordsOf res i).length = res.length := by
  induction res generalizing i with
  | nil => rfl
  | cons r rs ih => simp [coordsOf, ih]

/-- The number made of the coordinates of a node is that of the node. -/
theorem nodeOf_coordsOf {res : List Nat} {i : Nat} (h : i < size res) :
    nodeOf res (coordsOf res i) = i := by
  induction res generalizing i with
  | nil => simp [size] at h; simp [nodeOf, h]
  | cons r rs ih =>
    have hi : i / r < size rs := by
      rw [size, Nat.mul_comm] at h
      exact Nat.div_lt_of_lt_mul (by rwa [Nat.mul_comm])
    simp only [coordsOf, nodeOf, ih hi]
    exact Nat.mod_add_div i r

/-- The coordinates of the node with given coordinates are those. -/
theorem coordsOf_nodeOf {res c : List Nat} (h : Within res c) :
    coordsOf res (nodeOf res c) = c := by
  induction res generalizing c with
  | nil => cases c with
    | nil => rfl
    | cons _ _ => exact h.elim
  | cons r rs ih => cases c with
    | nil => exact h.elim
    | cons x xs =>
      obtain ⟨hx, hxs⟩ := h
      have hr : 0 < r := by omega
      simp only [nodeOf, coordsOf]
      rw [Nat.add_mul_mod_self_left, Nat.mod_eq_of_lt hx, Nat.add_mul_div_left _ _ hr,
        Nat.div_eq_of_lt hx, Nat.zero_add, ih hxs]

/-! ## Looking up nodes -/

/-- The coordinates of every node, in the order of the node numbers. -/
def allCoords (res : List Nat) : List (List Nat) := (List.range (size res)).map (coordsOf res)

/-- The coordinates of every node, if there are axes to have coordinates along. -/
def allCoords? (res : List Nat) : Option (List (List Nat)) :=
  if res.isEmpty then none else some (allCoords res)

/-- A position in a sequence of length `n`; negative positions count from its end. -/
def position? (n : Nat) (i : Int) : Option Nat :=
  if 0 ≤ i then if i < n then some i.toNat else none
  else if 0 ≤ i + n then some (i + n).toNat else none

end GridSpline.Lattice
