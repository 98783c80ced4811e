import GridSpline.Dense.Basic

/-!
# Arrays of integers as text

The entries stand right-aligned in columns of one width, with a blank between them; every axis has
its brackets, and a line that would grow too long goes on below, indented as deep as the brackets
that are open: `[ 1  2 99]`. Of an array with many entries only the first and last few along every
long axis are shown, with dots between them; the width is that of the entries that are shown.
-/

namespace GridSpline.Text

/-- The width of a page. -/
def pageWidth : Nat := 75

/-- The text with blanks before it, up to a width. -/
def rightAligned (width : Nat) (s : String) : String :=
  "".pushn ' ' (width - s.length) ++ s

/-- Appends words to the last line, breaking before a word that would pass the width. The lines
that are finished come first. -/
def fillLine (indent : String) (width : Nat) (done line : String) : List String → String
  | [] => done ++ line
  | word :: rest =>
    let breaks := width < line.length + word.length && indent.length < line.length
    let done := if breaks then done ++ line.trimAsciiEnd.toString ++ "\n" else done
    let line := (if breaks then indent else line) ++ word ++ (if rest.isEmpty then "" else " ")
    fillLine indent width done line rest

/-! ## What is shown -/

/-- The greatest number of entries that are all shown. -/
def shownInFull : Nat := 1000

/-- How many places are shown at each end of a long axis. -/
def shownAtEnds : Nat := 3

/-- What stands for the places that are not shown. -/
def dots : String := "..."

/-- The places of an axis in order. In a summary those in the middle of a long axis are missing, and
one absent place stands for them. -/
def shownPlaces (summary : Bool) (n : Nat) : List (Option Nat) :=
  if summary && 2 * shownAtEnds < n then
    (List.range shownAtEnds).map some ++ none ::
      (List.range shownAtEnds).map fun i => some (n - shownAtEnds + i)
  else (List.range n).map some

/-- The positions of the entries that are shown, of the part of an array that starts at a position
and has the given shape. -/
def shownEntries (summary : Bool) : List Nat → Nat → List Nat
  | [], start => [start]
  | n :: rest, start => (shownPlaces summary n).flatMap fun
    | some i => shownEntries summary rest (start + i * Lattice.size rest)
    | none => []

/-! ## Text -/

/-- The text of the part of an array that starts at a position and has the given shape, under
brackets as deep as the indentation. -/
def tableText (summary : Bool) (cell : Nat → String) : List Nat → Nat → String → Nat → String
  | [], start, _, _ => cell start
  | [n], start, indent, width =>
    let words := (shownPlaces summary n).map fun
      | some i => cell (start + i)
      | none => dots
    "[" ++ ((fillLine indent (width - 1) "" indent words).drop indent.length).toString ++ "]"
  | n :: rest, start, indent, width =>
    let parts := (shownPlaces summary n).map fun
      | some i => indent ++
          tableText summary cell rest (start + i * Lattice.size rest) (indent.push ' ') (width - 1)
      | none => indent ++ dots
    let gap := "".pushn '\n' rest.length
    "[" ++ ((gap.intercalate parts).drop indent.length).toString ++ "]"

/-- The text of an array of integers. -/
def intTable (d : Dense Int) : String :=
  let summary := decide (shownInFull < d.data.size)
  let word (i : Nat) := toString (d.data.getD i 0)
  let width := (shownEntries summary d.shape 0).foldl (fun w i => max w (word i).length) 0
  if d.data.isEmpty then "[]"
  else tableText summary (fun i => rightAligned width (word i)) d.shape 0 " " pageWidth

end GridSpline.Text
