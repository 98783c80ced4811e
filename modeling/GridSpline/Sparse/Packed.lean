import GridSpline.Sparse.Matrix
import GridSpline.Sparse.Stencil

/-!
# Packed symmetric matrices

A symmetric matrix over the nodes of a lattice whose entries couple nodes within the stencil. It is
stored by node and column: column `k` of node `i` holds the entry between `i` and `i + offset k`,
and so also the entry on the other side of the diagonal. Column 0 is the diagonal.

## Main definitions

* `PackedMatrix.addAt` — adds to one stored entry.
* `PackedMatrix.add?` — adds to many at once; either all rows exist or nothing changes.
* `PackedMatrix.toSparse` — the whole matrix, both sides of the diagonal.
-/

namespace GridSpline

open Scalar Failure

/-- A symmetric matrix with the columns of a stencil. -/
structure PackedMatrix (α : Type) where
  nodes : Nat
  stencil : Stencil
  /-- The stored entries by node and column. -/
  coef : Array (Array α)

namespace PackedMatrix

variable {α : Type} [Scalar α]

/-- The zero matrix of a lattice. -/
def zero (res : List Nat) : PackedMatrix α :=
  let stencil := Stencil.ofRes res
  let nodes := Lattice.size res
  { nodes, stencil, coef := Array.replicate nodes (Array.replicate stencil.offsets.size 0) }

/-- The zero matrix of a lattice, which must have axes. -/
def zero? (res : List Nat) : Except (Failure α) (PackedMatrix α) :=
  if res.isEmpty then throw .shapeMismatch else return zero res

/-- The zero matrix of a layout, whose number of nodes must not be negative. -/
def ofLayout? (l : Layout) : Except (Failure α) (PackedMatrix α) := do
  let stencil := Stencil.ofOffsets (← require .shapeMismatch (stencilWords? l))
  let nodes ← require .shapeMismatch l.nodes.toNat?
  return { nodes, stencil, coef := Array.replicate nodes (Array.replicate stencil.offsets.size 0) }

/-- A stored entry; there are none beyond the last node and column. -/
def entryAt (A : PackedMatrix α) (node column : Nat) : α := (A.coef.getD node #[]).getD column 0

/-- Adds to a stored entry. -/
@[specialize]
def addAt (A : PackedMatrix α) (node column : Nat) (v : α) : PackedMatrix α :=
  { A with coef := A.coef.modify node fun row => row.modify column (· + v) }

/-- The column for a single difference. -/
def column? (A : PackedMatrix α) (offset : Int) : Except (Failure α) Nat :=
  if A.stencil.IsReached offset then
    match A.stencil.column? offset with
    | some k => return k
    | none => throw (.offsetBetween (.scalar offset))
  else throw (.offsetBeyond (.scalar offset))

/-- The place at which the entry between a node and the one `offset` further is stored. -/
def place? (A : PackedMatrix α) (row offset : Int) : Except (Failure α) (Nat × Nat) := do
  let column ← A.column? offset
  let node ← require .indexOutOfRange (Lattice.position? A.nodes row)
  return (node, column)

/-- Adds to the entry between a node and the one `offset` further. -/
def addTerm? (A : PackedMatrix α) (row offset : Int) (v : α) :
    Except (Failure α) (PackedMatrix α) := do
  let (node, column) ← A.place? row offset
  return A.addAt node column v

/-- Adds values to the entries between nodes and those `offset` further. Offsets and values may be
given once for all rows, and rows counting from the end are found from there. -/
def add? (A : PackedMatrix α) (rows offsets : Dense Int) (values : Dense α) :
    Except (Failure α) (PackedMatrix α) := do
  let columns ← A.stencil.columnsOf? offsets
  let columns ← require .shapeMismatch (columns.broadcastTo? rows.shape)
  -- All rows are found before anything is added.
  let nodes ← require .indexOutOfRange (rows.entries.mapM (Lattice.position? A.nodes))
  let values ← require .shapeMismatch (values.broadcastTo? rows.shape)
  let terms := (nodes.zip columns.entries).zip values.entries
  return terms.foldl (fun A ((node, column), v) => A.addAt node column v) A

/-- The entries of a row before the diagonal, which are stored with the other node. -/
def rowBefore (A : PackedMatrix α) (i : Nat) : SparseRow α :=
  A.stencil.offsets.toList.zipIdx.reverse.filterMap fun (o, k) =>
    if 0 < o ∧ o ≤ i then some (i - o, A.entryAt (i - o) k) else none

/-- The entries of a row from the diagonal on. -/
def rowFrom (A : PackedMatrix α) (i : Nat) : SparseRow α :=
  A.stencil.offsets.toList.zipIdx.filterMap fun (o, k) =>
    if i + o < A.nodes then some (i + o, A.entryAt i k) else none

/-- The whole matrix. Entries that are zero are not stored. -/
def toSparse (A : PackedMatrix α) : SparseMatrix α :=
  { columns := A.nodes
    rows := (Array.range A.nodes).map fun i =>
      (A.rowBefore i ++ A.rowFrom i).filter fun (_, v) => ! decide (IsZero v) }

/-- The stored entries as a matrix with the columns of the stencil. -/
def packedSparse (A : PackedMatrix α) : SparseMatrix α :=
  { columns := A.stencil.offsets.size
    rows := A.coef.map fun row => row.toList.zipIdx.map fun (v, k) => (k, v) }

end PackedMatrix

end GridSpline
