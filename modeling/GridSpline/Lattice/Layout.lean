import GridSpline.Number

/-!
# Layouts from given integers

The resolutions of a lattice come in as integers of any size and sign. They describe a layout even
where there is no lattice: a resolution may be negative, and the number of nodes need not fit a
machine word, in which case it wraps around. Only the strides must be words.

## Main definitions

* `Layout.ofRes?` — the layout for given resolutions.
* `Layout.lattice?` — the resolutions of the lattice that it is the layout of.
* `Layout.unravel?` — the coordinates of the nodes in an array.
* `Layout.shaped?`, `Layout.flattened?` — node data in the shape of the layout, and back.

## Main statements

* `coordsFrom_ofNat` — on a lattice the coordinates are those of its nodes.
-/

namespace GridSpline

open Scalar Failure

/-- What is known of a lattice from its resolutions alone. -/
structure Layout where
  res : List Int
  /-- By how much the node number grows along each axis. -/
  strides : List Int
  /-- The number of nodes. -/
  nodes : Int
deriving Repr

namespace Layout

/-- The product of all resolutions. -/
def product (res : List Int) : Int := res.foldl (· * ·) 1

/-- The strides of axes that begin where one step changes the node number by `s`. -/
def stridesFrom (s : Int) : List Int → List Int
  | [] => []
  | r :: rs => s :: stridesFrom (s * r) rs

/-- The number of nodes as it is counted. A product of words is a word, and a product in which an
integer beyond all words takes part is exact. Where a word without a sign meets words with one, the
product is taken of scalars. -/
def countOfNodes (α : Type) [Scalar α] (res : List Int) : Int :=
  if res.all fun r => decide (Word.Fits r) then Word.wrap (product res)
  else if res.length ≠ 1 ∧ res.all fun r => decide (Word.FitsEither r) then
    (truncate? (res.foldl (fun p (r : Int) => p * (r : α)) 1)).toOption.getD (product res)
  else product res

/-- The layout for given resolutions, whose strides must be words. -/
def ofRes? {α : Type} [Scalar α] (res : List Int) : Except (Failure α) Layout :=
  let strides := if res.isEmpty then [1] else stridesFrom 1 res
  if strides.all fun s => decide (Word.Fits s) then
    return { res, strides, nodes := countOfNodes α res }
  else throw .overflow

/-- The resolutions as those of a lattice, if none is negative. -/
def lattice? (l : Layout) : Option (List Nat) := l.res.mapM Int.toNat?

/-- The change of the node number when each coordinate changes by the given step. -/
def stepOffset (l : Layout) (step : List Int) : Int :=
  (List.zipWith (· * ·) step l.strides).foldl (· + ·) 0

/-! ## Coordinates -/

/-- The digits of a node number. Along an axis with a negative resolution remainders keep the sign
of the number. -/
def coordsFrom : List Int → Int → List Int
  | [], _ => []
  | r :: rs, i => i.tmod r :: coordsFrom rs (i.tdiv r)

/-- On a lattice the digits are the coordinates of the node. -/
theorem coordsFrom_ofNat (res : List Nat) (i : Nat) :
    coordsFrom (res.map Int.ofNat) i = (Lattice.coordsOf res i).map Int.ofNat := by
  induction res generalizing i with
  | nil => rfl
  | cons r rs ih =>
    have h := ih (i / r)
    simp only [List.map_cons, coordsFrom, Lattice.coordsOf]
    rw [← h]
    rfl

/-- The coordinates of the nodes in an array, along a new last axis. All of them must be nodes of
the layout, whose number of nodes must be a word other than -1, which marks one that is no word. -/
def unravel? (l : Layout) (index : Dense Int) : Option (Dense Int) := do
  let total := product l.res
  if l.res.isEmpty ∨ ¬ Word.Fits total ∨ total = -1 then failure
  let coords ← index.entries.mapM fun i =>
    if 0 ≤ i ∧ i < total then some (coordsFrom l.res i) else none
  return { shape := index.shape ++ [l.res.length], data := coords.flatten.toArray }

/-- The coordinates of all nodes. -/
def coords? (l : Layout) : Option (Dense Int) :=
  l.unravel? (.vector ((List.range l.nodes.toNat).map Int.ofNat))

/-! ## Node data -/

variable {β : Type}

/-- Node data, with the node number as first index, in the shape of the layout. -/
def shaped? (l : Layout) (flat : Dense β) : Option (Dense β) :=
  flat.reshapeInto? (l.res ++ (flat.shape.drop 1).map Int.ofNat)

/-- Data in the shape of the layout as node data. -/
def flattened? (l : Layout) (d : Dense β) : Option (Dense β) :=
  d.reshapeInto? (l.nodes :: (d.shape.drop l.res.length).map Int.ofNat)

end Layout

namespace Lattice

variable {α : Type} [Scalar α]

/-- The lattice with the given resolutions. -/
def ofInts? (res : List Int) : Except (Failure α) (List Nat) := do
  let layout ← Layout.ofRes? res
  require .shapeMismatch layout.lattice?

/-- The lattice whose resolutions are the integer parts of the given numbers. -/
def ofScalars? (res : List α) : Except (Failure α) (List Nat) := do
  ofInts? (← res.mapM fun r => integer (Scalar.truncate? r))

end Lattice

end GridSpline
