import GridSpline.Failure.Basic

/-!
# Grid lines

The nodes that differ in one coordinate only form a line. The lines along an axis are listed in
red-black order: first those whose other coordinates have an even sum, then the others. Lines of
one colour are never neighbours.
-/

namespace GridSpline.Lattice

/-- All coordinates, with the last one running fastest. -/
def rowMajorCoords : List Nat → List (List Nat)
  | [] => [[]]
  | r :: rs => (List.range r).flatMap fun c => (rowMajorCoords rs).map (c :: ·)

/-- The sum of the entries. For the other coordinates of a line its parity is the colour. -/
def entrySum (c : List Nat) : Nat := c.foldl (· + ·) 0

/-- The first node of the line with the given other coordinates. -/
def lineStart (strides c : List Nat) : Nat := entrySum (List.zipWith (· * ·) c strides)

/-- The first nodes of all lines, from the resolutions and strides of the other axes. -/
def lineStarts (others strides : List Nat) : List Nat :=
  let coords := rowMajorCoords others
  let even := coords.filter fun c => entrySum c % 2 = 0
  let odd := coords.filter fun c => entrySum c % 2 = 1
  (even ++ odd).map (lineStart strides)

/-- The nodes of a line, by growing coordinate. -/
def lineNodes (count stride start : Nat) : List Nat :=
  (List.range count).map fun i => start + i * stride

/-- The node numbers of the lines along an axis. -/
def lines? (res : List Nat) (axis : Nat) : Option (List (List Nat)) := do
  let count ← res[axis]?
  let stride ← (strides res)[axis]?
  let starts := lineStarts (res.eraseIdx axis) ((strides res).eraseIdx axis)
  return starts.map (lineNodes count stride)

/-- Lines along an axis that counts from the end. Such an axis is not left out of the coordinates at
which lines start: every node starts one, which may lead out of the lattice. -/
def linesFromEnd? (res : List Nat) (axis : Int) : Option (List (List Nat)) := do
  let place ← position? res.length axis
  let count ← res[place]?
  let stride ← (strides res)[place]?
  let starts := lineStarts res (strides res)
  return starts.map (lineNodes count stride)

/-- The lines along an axis, which may count from the end. -/
def linesAlong? (res : List Nat) (axis : Int) : Option (List (List Nat)) :=
  if 0 ≤ axis then lines? res axis.toNat else linesFromEnd? res axis

end GridSpline.Lattice
