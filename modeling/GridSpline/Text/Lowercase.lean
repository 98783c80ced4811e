import GridSpline.Text.LetterCase

/-!
# Lower case

Every character goes to its lower-case form. Two characters need more than the table of simple
mappings: a dotted capital I becomes two characters, and a capital sigma becomes the final sigma
when it ends a word. It does so when, passing over the case-ignorable characters on both sides, the
first character before it has a case and the first one after it has none.
-/

namespace GridSpline.Text

/-- Has a case. -/
def isCased (c : Char) : Bool := inRanges casedRanges c.toNat

/-- Is passed over in a case context. -/
def isCaseIgnorable (c : Char) : Bool := inRanges caseIgnorableRanges c.toNat

/-- The first character that is not passed over has a case. -/
def meetsCased (l : List Char) : Bool :=
  match l.dropWhile isCaseIgnorable with
  | [] => false
  | c :: _ => isCased c

/-- The lower-case form of one character between those before it, the nearest first, and those
after it. -/
def lowercaseOf (before : List Char) (c : Char) (after : List Char) : List Char :=
  if c = 'Σ' then [if meetsCased before && !meetsCased after then 'ς' else 'σ']
  else if c = 'İ' then ['i', '\u0307']
  else match lowercaseRuns.find? (·.holds c.toNat) with
    | some run => [Char.ofNat ((c.toNat : Int) + run.delta).toNat]
    | none => [c]

/-- The lower-case form of characters that follow those before them, the nearest first. -/
def lowercaseAfter (before : List Char) : List Char → List Char
  | [] => []
  | c :: after => lowercaseOf before c after ++ lowercaseAfter (c :: before) after

/-- The text in lower case. -/
def lowercase (s : String) : String := String.ofList (lowercaseAfter [] s.toList)

/-- Looking for a cased character does not depend on ignorable ones in front of it. -/
theorem meetsCased_cons_of_ignorable {c : Char} (h : isCaseIgnorable c) (l : List Char) :
    meetsCased (c :: l) = meetsCased l := by
  simp [meetsCased, h]

end GridSpline.Text
