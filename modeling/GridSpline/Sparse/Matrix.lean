import GridSpline.Dense.Basic

/-!
# Sparse matrices

A row is the list of its stored entries, by ascending column. Entries that are not stored are zero;
a stored entry may be zero as well, and then takes part in products.

## Main definitions

* `SparseRow.add` — adds to one entry of a row.
* `SparseMatrix.ofTriplets?` — the sum of entries given one by one.
* `SparseMatrix.mulVec` — the product with a vector.
* `SparseMatrix.lower`, `SparseMatrix.upper` — the two triangles.
* `SparseMatrix.selectRows`, `SparseMatrix.selectColumns` — some of the rows or columns.
-/

namespace GridSpline

open Scalar

/-- The stored entries of a row, each with its column. -/
abbrev SparseRow (α : Type) := List (Nat × α)

/-- A sparse matrix. -/
structure SparseMatrix (α : Type) where
  columns : Nat
  rows : Array (SparseRow α)
deriving Repr

namespace SparseRow

variable {α : Type}

/-- The stored entry of a column. -/
def find? (j : Nat) : SparseRow α → Option α
  | [] => none
  | (k, v) :: rest => if k < j then find? j rest else if k = j then some v else none

variable [Scalar α]

/-- Adds to the entry of a column, keeping the columns in ascending order. -/
def add (j : Nat) (v : α) : SparseRow α → SparseRow α
  | [] => [(j, v)]
  | (k, w) :: rest =>
    if k < j then (k, w) :: add j v rest
    else if k = j then (k, w + v) :: rest
    else (j, v) :: (k, w) :: rest

/-- The product with a column vector. -/
@[specialize]
def dot (row : SparseRow α) (x : Array α) : α :=
  row.foldl (fun acc (j, v) => acc + v * x.getD j 0) 0

end SparseRow

namespace SparseMatrix

variable {α : Type}

/-- A row; there are no entries below the last one. -/
def row (A : SparseMatrix α) (i : Nat) : SparseRow α := A.rows.getD i []

/-- A stored entry. -/
def find? (A : SparseMatrix α) (i j : Nat) : Option α := SparseRow.find? j (A.row i)

/-- The part on and below the diagonal. -/
def lower (A : SparseMatrix α) : SparseMatrix α :=
  { A with rows := A.rows.mapIdx fun i row => row.filter fun (j, _) => j ≤ i }

/-- The part above the diagonal. -/
def upper (A : SparseMatrix α) : SparseMatrix α :=
  { A with rows := A.rows.mapIdx fun i row => row.filter fun (j, _) => i < j }

/-- The given rows. -/
def selectRows (A : SparseMatrix α) (nodes : List Nat) : SparseMatrix α :=
  { A with rows := (nodes.map A.row).toArray }

/-- The given columns. -/
def selectColumns (A : SparseMatrix α) (nodes : List Nat) : SparseMatrix α :=
  { columns := nodes.length
    rows := A.rows.map fun row =>
      nodes.zipIdx.filterMap fun (c, j) => (SparseRow.find? c row).map (j, ·) }

variable [Scalar α]

/-- A matrix without stored entries. -/
def empty (rows columns : Nat) : SparseMatrix α :=
  { columns, rows := Array.replicate rows [] }

/-- The sum of entries given by row, column and value, unless one lies outside the matrix. -/
def ofTriplets? (rows columns : Nat) (entries : List (Int × Int × α)) : Option (SparseMatrix α) :=
  entries.foldlM (fun A (i, j, v) =>
    if 0 ≤ i ∧ i < rows ∧ 0 ≤ j ∧ j < columns then
      some { A with rows := A.rows.modify i.toNat (SparseRow.add j.toNat v) }
    else none) (empty rows columns)

/-- An entry; zero if it is not stored. -/
def entry (A : SparseMatrix α) (i j : Nat) : α := (A.find? i j).getD 0

/-- The product with a column vector. -/
@[specialize]
def mulVec (A : SparseMatrix α) (x : Array α) : Array α := A.rows.map fun row => row.dot x

/-- The product with a column vector of the right length. -/
def mulVec? (A : SparseMatrix α) (x : Array α) : Option (Array α) :=
  if x.size = A.columns then some (A.mulVec x) else none

/-- The product with a column vector, or with every column of a table. -/
def mulDense? (A : SparseMatrix α) (x : Dense α) : Option (Dense α) := do
  if x.rank = 0 ∨ 2 < x.rank ∨ x.shape.headD 0 ≠ A.columns then failure
  return .ofComponents A.rows.size (x.shape.drop 1) ((← x.components?).map A.mulVec)

/-- All stored entries, by row and column. -/
def triplets (A : SparseMatrix α) : List (Nat × Nat × α) :=
  A.rows.toList.zipIdx.flatMap fun (row, i) => row.map fun (j, v) => (i, j, v)

end SparseMatrix

end GridSpline
