import GridSpline.Lattice.Layout

/-!
# The stencil

The equations of a fit couple a node only to nodes near it. A step of the stencil goes at most one
node along each axis, or two nodes along a single axis. Since the equations are symmetric only the
steps that do not lower the node number are kept, as differences of node numbers. On short axes
different steps can have the same difference; they then share a column.

## Main definitions

* `IsStencilStep` — the steps.
* `stencilOffsets` — the differences, ascending and distinct.
* `Stencil` — the table of columns and the way back from a difference to its column.
-/

namespace GridSpline

open Failure

/-! ## Steps -/

/-- A step to a node that the equations may couple. -/
def IsStencilStep (step : List Int) : Prop :=
  (∀ g ∈ step, g.natAbs ≤ 1) ∨
    (step.countP (fun g => g.natAbs = 2) = 1 ∧ step.count 0 + 1 = step.length)

instance (step : List Int) : Decidable (IsStencilStep step) :=
  inferInstanceAs (Decidable (_ ∨ _))

/-- All steps of at most two nodes along each axis. -/
def nearSteps : Nat → List (List Int)
  | 0 => [[]]
  | n + 1 => [-2, -1, 0, 1, 2].flatMap fun g => (nearSteps n).map (g :: ·)

/-! ## Offsets -/

/-- Puts a number into an ascending list, once. -/
def insertDistinct (x : Nat) : List Nat → List Nat
  | [] => [x]
  | y :: ys => if x < y then x :: y :: ys else if x = y then y :: ys else y :: insertDistinct x ys

/-- The numbers of a list in ascending order, each once. -/
def ascending (l : List Nat) : List Nat := l.foldr insertDistinct []

/-- The steps along a number of axes. -/
def stencilSteps (axes : Nat) : List (List Int) :=
  (nearSteps axes).filter fun g => decide (IsStencilStep g)

/-- The differences of node numbers that belong to steps of the stencil and are not negative. -/
def stencilOffsets (res : List Nat) : List Nat :=
  ascending ((stencilSteps res.length).filterMap fun g => (Lattice.stepOffset res g).toNat?)

/-- The same for a layout, with differences that are machine words. Without axes there are no steps
to take. -/
def stencilWords? (l : Layout) : Option (List Nat) :=
  if l.res.isEmpty then none
  else some <| ascending <| (stencilSteps l.res.length).filterMap fun g =>
    (Word.wrap (l.stepOffset g)).toNat?

/-- Inserting adds the number and nothing else. -/
theorem mem_insertDistinct {x y : Nat} {l : List Nat} :
    y ∈ insertDistinct x l ↔ y = x ∨ y ∈ l := by
  induction l with
  | nil => simp [insertDistinct]
  | cons z zs ih =>
    unfold insertDistinct
    split
    · simp
    · split
      · rename_i h; subst h; simp
      · simp only [List.mem_cons, ih]
        constructor
        · rintro (h | h | h) <;> simp [h]
        · rintro (h | h | h) <;> simp [h]

/-- Sorting neither adds nor loses a number. -/
theorem mem_ascending {y : Nat} {l : List Nat} : y ∈ ascending l ↔ y ∈ l := by
  induction l with
  | nil => simp [ascending]
  | cons x xs ih =>
    rw [ascending, List.foldr_cons, mem_insertDistinct, List.mem_cons]
    exact or_congr_right ih

/-- Inserting keeps the order strict. -/
theorem pairwise_insertDistinct {x : Nat} {l : List Nat} (h : l.Pairwise (· < ·)) :
    (insertDistinct x l).Pairwise (· < ·) := by
  induction l with
  | nil => simp [insertDistinct]
  | cons z zs ih =>
    rw [List.pairwise_cons] at h
    obtain ⟨hz, hzs⟩ := h
    unfold insertDistinct
    split
    · rename_i hx
      refine List.pairwise_cons.2 ⟨fun w hw => ?_, List.pairwise_cons.2 ⟨hz, hzs⟩⟩
      rcases List.mem_cons.1 hw with rfl | hw
      · exact hx
      · exact Nat.lt_trans hx (hz w hw)
    · split
      · exact List.pairwise_cons.2 ⟨hz, hzs⟩
      · refine List.pairwise_cons.2 ⟨fun w hw => ?_, ih hzs⟩
        rcases mem_insertDistinct.1 hw with rfl | hw
        · omega
        · exact hz w hw

/-- The sorted list ascends strictly. -/
theorem pairwise_ascending (l : List Nat) : (ascending l).Pairwise (· < ·) := by
  induction l with
  | nil => exact List.Pairwise.nil
  | cons x xs ih => exact pairwise_insertDistinct ih

/-! ## Columns -/

/-- The columns of a packed matrix. -/
structure Stencil where
  /-- The difference of the node numbers that each column stands for. -/
  offsets : Array Nat
  /-- For each difference its column, if it has one. -/
  columns : Array (Option Nat)
deriving Repr

namespace Stencil

/-- The columns for ascending differences. -/
def ofOffsets (offsets : List Nat) : Stencil where
  offsets := offsets.toArray
  columns := (Array.range ((offsets.getLast?.map (· + 1)).getD 0)).map fun o => offsets.idxOf? o

/-- The columns for a lattice. -/
def ofRes (res : List Nat) : Stencil := ofOffsets (stencilOffsets res)

/-- The column of a difference. -/
def column? (s : Stencil) (offset : Int) : Option Nat :=
  match offset with
  | .ofNat o => (s.columns[o]?).join
  | .negSucc _ => none

/-- A difference within the reach of the stencil, though it may have no column. -/
def IsReached (s : Stencil) (offset : Int) : Prop := 0 ≤ offset ∧ offset < s.columns.size

instance (s : Stencil) (offset : Int) : Decidable (s.IsReached offset) :=
  inferInstanceAs (Decidable (_ ∧ _))

/-- The columns of an array of differences, all of which must have one. -/
def columnsOf? {α : Type} (s : Stencil) (offsets : Dense Int) :
    Except (Failure α) (Dense Nat) := do
  if offsets.entries.any fun o => ! decide (s.IsReached o) then throw (.offsetBeyond offsets)
  let columns ← require (.offsetBetween offsets) (offsets.entries.mapM s.column?)
  return { shape := offsets.shape, data := columns.toArray }

end Stencil

end GridSpline
