import GridSpline.Failure.Basic

/-!
# Tables of samples

Samples come in as arrays; here they become rows. A one-dimensional array is a column, unless it has
exactly as many entries as a row must have: then it is one sample. Quantities that belong to the
axes or channels may be given once for all of them.
-/

namespace GridSpline

open Failure

variable {α : Type}

/-- Rows of equal length. -/
structure SampleTable (α : Type) where
  /-- The length of a row, known even if there are no rows. -/
  columns : Nat
  rows : List (List α)
deriving Repr

namespace SampleTable

/-- The table as an array. -/
def toDense (t : SampleTable α) : Dense α := .table t.columns t.rows

/-- Reads an array as a table. `columns` is the length that a row is expected to have. -/
def ofNested? (field : String) (columns : Option Nat) (given : Nested α) :
    Except (Failure α) (SampleTable α) := do
  let d ← require .shapeMismatch (Dense.ofNested? given)
  match d.shape with
  | [n] =>
    if columns ≠ some 1 ∧ columns = some n then return { columns := n, rows := [d.entries] }
    else return { columns := 1, rows := d.entries.map ([·]) }
  | [_, m] => return { columns := m, rows := ← require (.sampleRank field) d.rows? }
  | _ => throw (.sampleRank field)

/-- The vectors along the last axis of an array as rows. A vector is a single row, and so is a
number. -/
def ofLastAxis (d : Dense α) : SampleTable α :=
  let columns := d.shape.getLast?.getD 1
  { columns
    rows := (List.range (Lattice.size d.shape.dropLast)).map fun i =>
      (d.data.extract (i * columns) (i * columns + columns)).toList }

/-- The rows of an array that has no more axes than a table. -/
def ofDense? (d : Dense α) : Option (SampleTable α) :=
  if d.rank ≤ 2 then some (ofLastAxis d) else none

end SampleTable

/-- An entry a number of times, which must not be negative. -/
def repeated? (count : Int) (x : α) : Except (Failure α) (List α) := do
  return List.replicate (← require .shapeMismatch count.toNat?) x

/-- A quantity with `count` entries. One that is missing has the default everywhere, and a single
entry stands for all. -/
def entriesOf? (field : String) (count : Int) (default : α) (given : Option (Nested α)) :
    Except (Failure α) (List α) :=
  match given with
  | none => repeated? count default
  | some nested => do
    let d ← require .shapeMismatch (Dense.ofNested? nested)
    match d.entries with
    | [x] => repeated? count x
    | l => if l.length = count then return l else throw (.entryCount field count l.length)

end GridSpline
