import GridSpline.Lattice.Basic

/-!
# Axes of a lattice

What a computation along one axis has to know: the number of the axis, how many nodes there are
along it, and by how much the node number grows with each of them.
-/

namespace GridSpline

/-- One axis of a lattice. -/
structure Axis where
  /-- The place of the axis among all axes. -/
  index : Nat
  /-- The number of nodes along it. -/
  count : Nat
  /-- The difference of the node numbers of neighbours along it. -/
  stride : Nat
deriving Repr, DecidableEq

namespace Axis

/-- The coordinate of a node along the axis. -/
def coord (a : Axis) (node : Nat) : Nat := node / a.stride % a.count

/-- The node has neighbours on both sides. -/
def IsInterior (a : Axis) (node : Nat) : Prop := 1 ≤ a.coord node ∧ a.coord node + 2 ≤ a.count

instance (a : Axis) (node : Nat) : Decidable (a.IsInterior node) :=
  inferInstanceAs (Decidable (_ ∧ _))

end Axis

namespace Lattice

/-- The axes from the given place and stride on. -/
def axesFrom (index stride : Nat) : List Nat → List Axis
  | [] => []
  | r :: rs => { index, count := r, stride } :: axesFrom (index + 1) (stride * r) rs

/-- All axes. -/
def axes (res : List Nat) : List Axis := axesFrom 0 1 res

/-- The nodes with neighbours on both sides along an axis. -/
def interior (res : List Nat) (a : Axis) : List Nat :=
  (List.range (size res)).filter fun i => decide (a.IsInterior i)

/-- There is one axis for every resolution. -/
theorem length_axesFrom (index stride : Nat) (res : List Nat) :
    (axesFrom index stride res).length = res.length := by
  induction res generalizing index stride with
  | nil => rfl
  | cons r rs ih => simp [axesFrom, ih]

/-- From any axis on, the coordinates along the axes are the digits that are left of the number. -/
theorem map_coord_axesFrom (index stride : Nat) (res : List Nat) (i : Nat) :
    (axesFrom index stride res).map (fun a => a.coord i) = coordsOf res (i / stride) := by
  induction res generalizing index stride i with
  | nil => rfl
  | cons r rs ih =>
    rw [axesFrom, List.map_cons, coordsOf, ih, Nat.div_div_eq_div_mul, Axis.coord]

/-- The coordinates of a node are its coordinates along all axes. -/
theorem map_coord_axes (res : List Nat) (i : Nat) :
    (axes res).map (fun a => a.coord i) = coordsOf res i := by
  rw [axes, map_coord_axesFrom, Nat.div_one]

end Lattice

end GridSpline
