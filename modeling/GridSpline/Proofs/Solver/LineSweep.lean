import Mathlib
import GridSpline.Proofs.Lattice.RedBlack
import GridSpline.Proofs.Solver.Local

/-!
# What a sweep over the lines visits

A sweep solves one line after the other, and a line that is solved changes the values of its own
nodes only. The lines of the sweep are those along the first axis in red-black order, then those
along the next, so each node is given a new value as often as there are axes.

## Main definitions

* `afterLines` — the node values after some lines have been solved.
* `IsLineSweep` — the node values before each line of a sweep, and after the last one.

## Main statements

* `isLineSweep` — the values that a sweep goes through.
* `exists_lines_isLineSweep` — the lines of a sweep, and what it does at each of them.
-/

namespace GridSpline

open GridSpline.Lattice

/-- The node values before each line of a sweep, and after the last one. -/
structure IsLineSweep (A : SparseMatrix ℝ) (b : Array ℝ) (steps : ℕ) (tolerance : ℝ)
    (lines : List (List ℕ)) (states : ℕ → Array ℝ) : Prop where
  /-- A line is solved with all nodes off the line held fixed. -/
  solved : ∀ k (hk : k < lines.length),
    states (k + 1) = (conjugateGradient A b lines[k] steps tolerance (states k)).1
  /-- The nodes off the line keep their values. -/
  kept : ∀ k (hk : k < lines.length), ∀ i ∉ lines[k],
    (states (k + 1)).getD i 0 = (states k).getD i 0

variable (A : SparseMatrix ℝ) (b : Array ℝ) (steps : ℕ) (tolerance : ℝ)

/-- The node values after some lines have been solved, one after the other. -/
noncomputable def afterLines (lines : List (List ℕ)) (x : Array ℝ) : Array ℝ :=
  lines.foldl (fun x line => (conjugateGradient A b line steps tolerance x).1) x

theorem afterLines_take_succ {lines : List (List ℕ)} {k : ℕ} (hk : k < lines.length)
    (x : Array ℝ) : afterLines A b steps tolerance (lines.take (k + 1)) x =
      (conjugateGradient A b lines[k] steps tolerance
        (afterLines A b steps tolerance (lines.take k) x)).1 := by
  unfold afterLines
  rw [List.take_succ_eq_append_getElem hk, List.foldl_append]
  rfl

/-- The values that a sweep goes through. -/
theorem isLineSweep (lines : List (List ℕ)) (x : Array ℝ) :
    IsLineSweep A b steps tolerance lines fun k =>
      afterLines A b steps tolerance (lines.take k) x where
  solved _ hk := afterLines_take_succ A b steps tolerance hk x
  kept k hk i hi := by
    rw [afterLines_take_succ A b steps tolerance hk]
    exact getD_scatter_of_not_mem hi _ _

/-- A sweep goes through the lines along each axis, which are in red-black order; it gives every
node a new value once for each axis. -/
theorem exists_lines_isLineSweep (res : List ℕ) (x : Array ℝ) : ∃ lines : ℕ → List (List ℕ),
    (∀ e (he : e < res.length),
      linesAlong? res e = some (lines e) ∧ AreLinesAlong res e res[e] (lines e)) ∧
    allLines res = (List.range res.length).flatMap lines ∧
    (∀ line ∈ allLines res, line.Nodup ∧ ∀ i ∈ line, i < size res) ∧
    (∃ states, states 0 = x ∧
      states (allLines res).length = lineSweep A b res steps tolerance x ∧
      IsLineSweep A b steps tolerance (allLines res) states) ∧
    ∀ i < size res, (allLines res).flatten.count i = res.length := by
  refine ⟨fun e => (lines? res e).getD [], fun e he => ?_, rfl, fun line hline => ?_,
    ⟨_, rfl, ?_, isLineSweep A b steps tolerance (allLines res) x⟩, fun i hi => ?_⟩
  · have hcount : res[e]? = some res[e] := List.getElem?_eq_getElem he
    simp only [lines?_eq hcount, Option.getD_some]
    exact ⟨lines?_eq hcount, areLinesAlong hcount⟩
  · exact ⟨nodup_of_mem_allLines hline, lt_size_of_mem_allLines hline⟩
  · simp only [List.take_length]
    rfl
  · exact count_flatten_allLines hi

example : linesAlong? [4, 4] 0 =
    some [[0, 1, 2, 3], [8, 9, 10, 11], [4, 5, 6, 7], [12, 13, 14, 15]] := by decide

end GridSpline
