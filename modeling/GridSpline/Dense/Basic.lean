import GridSpline.Lattice.Basic

/-!
# Rectangular arrays

Data come in as arrays of any rank: a number, a list of numbers, a list of rows, and so on. A
`Dense` array holds the entries with the last index running fastest; reading the shape backwards
makes it a lattice, so positions are computed by `Lattice.nodeOf`.

## Main definitions

* `Nested` — an array as it is written down, which may be ragged.
* `Dense.ofNested?`, `Dense.toNested` — from the written form, if it is rectangular, and back.
* `Dense.broadcastTo?` — repeats an array along new axes and along axes of length one.
* `Dense.zipWith?` — combines two arrays, repeating each where it lacks an axis.
* `Dense.reshape?` — keeps the entries in the order in which the first index runs fastest.
* `Dense.reshapeInto?` — the same for a shape that may leave one length open.

## Main statements

* `reshapeInto?_ofNat` — a shape that leaves nothing open is the new shape.
-/

namespace GridSpline

/-- A rectangular array. -/
structure Dense (β : Type) where
  /-- The length of every axis; a single number has none. -/
  shape : List Nat
  /-- The entries, with the last index running fastest. -/
  data : Array β
deriving Repr, DecidableEq

/-- An array as it is written down: a number, a list of arrays, or an array given by its shape. -/
inductive Nested (β : Type) where
  | entry (b : β)
  | list (l : List (Nested β))
  | block (d : Dense β)

namespace Dense

variable {β γ δ : Type}

/-! ## Building and viewing -/

/-- A single entry, without axes. -/
def scalar (b : β) : Dense β := { shape := [], data := #[b] }

/-- A one-dimensional array. -/
def vector (l : List β) : Dense β := { shape := [l.length], data := l.toArray }

/-- A two-dimensional array from rows of the given length. -/
def table (columns : Nat) (rows : List (List β)) : Dense β :=
  { shape := [rows.length, columns], data := rows.flatten.toArray }

/-- The number of axes. -/
def rank (d : Dense β) : Nat := d.shape.length

/-- The entries in the order in which the last index runs fastest. -/
def entries (d : Dense β) : List β := d.data.toList

/-- Applies a function to every entry. -/
def map (f : β → γ) (d : Dense β) : Dense γ := { shape := d.shape, data := d.data.map f }

/-- The array whose entry at each index is given; an index lists the last axis first. -/
def ofIndices? (shape : List Nat) (f : List Nat → Option β) : Option (Dense β) := do
  let dims := shape.reverse
  let data ← (List.range (Lattice.size dims)).mapM fun i => f (Lattice.coordsOf dims i)
  return { shape, data := data.toArray }

/-- The entry at an index, which lists the last axis first. -/
def get? (d : Dense β) (index : List Nat) : Option β :=
  d.data[Lattice.nodeOf d.shape.reverse index]?

/-- The rows of a two-dimensional array. -/
def rows? (d : Dense β) : Option (List (List β)) :=
  match d.shape with
  | [n, m] => some ((List.range n).map fun i => (d.data.extract (i * m) (i * m + m)).toList)
  | _ => none

/-! ## Components -/

/-- For each index of the axes after the first one, the entries along the first axis. -/
def components? (d : Dense β) : Option (List (Array β)) :=
  match d.shape with
  | [] => none
  | n :: rest =>
    let m := Lattice.size rest
    some ((List.range m).map fun c =>
      ((List.range n).filterMap fun i => d.data[i * m + c]?).toArray)

/-- The array with the given components. -/
def ofComponents (n : Nat) (rest : List Nat) (parts : List (Array β)) : Dense β :=
  { shape := n :: rest
    data := ((List.range n).flatMap fun i => parts.filterMap (·[i]?)).toArray }

/-! ## The written form -/

/-- Arrays of one shape as the entries of a new first axis. -/
def stack? (l : List (Dense β)) : Option (Dense β) :=
  match l with
  | [] => some { shape := [0], data := #[] }
  | d :: ds =>
    if ds.all (·.shape = d.shape) then
      some { shape := l.length :: d.shape, data := l.foldl (fun acc e => acc ++ e.data) #[] }
    else none

mutual

/-- The array that is written down, unless it is ragged. -/
def ofNested? : Nested β → Option (Dense β)
  | .entry b => some (scalar b)
  | .list l => (ofNestedList? l).bind stack?
  | .block d => if d.data.size = Lattice.size d.shape then some d else none

/-- The arrays of a written list. -/
def ofNestedList? : List (Nested β) → Option (List (Dense β))
  | [] => some []
  | n :: ns => do
    let d ← ofNested? n
    let ds ← ofNestedList? ns
    return d :: ds

end

/-- Writes down the part of the data that starts at a position and has the given shape. -/
def written (data : Array β) : List Nat → Nat → Nested β
  | [], start => match data[start]? with
    | some b => .entry b
    | none => .list []
  | n :: rest, start =>
    .list ((List.range n).map fun i => written data rest (start + i * Lattice.size rest))

/-- The array as nested lists. -/
def toNested (d : Dense β) : Nested β := written d.data d.shape 0

/-! ## Changing the shape -/

/-- Repeats the array along new leading axes and along axes of length one, to fill a shape. -/
def broadcastTo? (d : Dense β) (shape : List Nat) : Option (Dense β) :=
  let source := d.shape.reverse
  let target := shape.reverse
  if source.length ≤ target.length ∧
      (List.zipWith (fun s t => decide (s = 1 ∨ s = t)) source target).all id then
    ofIndices? shape fun index =>
      d.get? (List.zipWith (fun s c => if s = 1 then 0 else c) source index)
  else none

/-- The shape without leading axes of length one, as long as it has more than `rank` axes. -/
def withoutUnits (rank : Nat) : List Nat → List Nat
  | [] => []
  | n :: rest => if n = 1 ∧ rank ≤ rest.length then withoutUnits rank rest else n :: rest

/-- The array without leading axes of length one, as long as it has more than `rank` axes. -/
def dropUnits (rank : Nat) (d : Dense β) : Dense β := { d with shape := withoutUnits rank d.shape }

/-- The shape to which two arrays are repeated, from shapes that list the last axis first. Which of
two lengths fills an axis is clear, since the other one is one. -/
def commonShape : List Nat → List Nat → List Nat
  | n :: ns, m :: ms => (if n = 1 then m else n) :: commonShape ns ms
  | [], ms => ms
  | ns, [] => ns

/-- Combines two arrays entry by entry, repeating each along the axes that it lacks. -/
def zipWith? (f : β → γ → δ) (a : Dense β) (b : Dense γ) : Option (Dense δ) := do
  let shape := (commonShape a.shape.reverse b.shape.reverse).reverse
  let a ← a.broadcastTo? shape
  let b ← b.broadcastTo? shape
  return { shape, data := Array.zipWith f a.data b.data }

/-- Gives the entries a new shape of the same size, keeping their order when the first index runs
fastest. -/
def reshape? (d : Dense β) (shape : List Nat) : Option (Dense β) :=
  if Lattice.size shape = Lattice.size d.shape then
    ofIndices? shape fun index =>
      let place := Lattice.nodeOf shape index.reverse
      d.get? (Lattice.coordsOf d.shape place).reverse
  else none

/-- The lengths of the axes that a shape asks for. A negative length stands for the one with which
the shape has the given number of entries; there can be only one such. -/
def lengths? (entries : Nat) (shape : List Int) : Option (List Nat) :=
  let known := Lattice.size (shape.filterMap Int.toNat?)
  match shape.countP fun n => decide (n < 0) with
  | 0 => some (shape.map Int.toNat)
  | 1 => if known = 0 ∨ entries % known ≠ 0 then none
    else some (shape.map fun n => if n < 0 then entries / known else n.toNat)
  | _ => none

/-- A shape without a negative length asks for its own lengths. -/
theorem lengths?_ofNat (entries : Nat) (shape : List Nat) :
    lengths? entries (shape.map Int.ofNat) = some shape := by
  have count : (shape.map Int.ofNat).countP (fun n => decide (n < 0)) = 0 := by
    simp only [List.countP_eq_zero, List.mem_map, decide_eq_true_eq]
    rintro _ ⟨n, _, rfl⟩
    exact Int.not_lt.2 (Int.natCast_nonneg n)
  have same : Int.toNat ∘ Int.ofNat = id := rfl
  simp only [lengths?, count, List.map_map, same, List.map_id]

/-- Gives the entries a new shape, in which one length may be left open. -/
def reshapeInto? (d : Dense β) (shape : List Int) : Option (Dense β) := do
  d.reshape? (← lengths? d.data.size shape)

/-- A shape without a negative length is the new shape. -/
theorem reshapeInto?_ofNat (d : Dense β) (shape : List Nat) :
    d.reshapeInto? (shape.map Int.ofNat) = d.reshape? shape := by
  simp [reshapeInto?, lengths?_ofNat]

end Dense

/-! ## Node data in the shape of the lattice -/

namespace Lattice

variable {β : Type}

/-- Node data, with the node number as first index, in the shape of the lattice. -/
def shaped? (res : List Nat) (flat : Dense β) : Option (Dense β) :=
  flat.reshape? (res ++ flat.shape.drop 1)

end Lattice

end GridSpline
