import GridSpline.Failure.Basic
import GridSpline.Text.Lowercase

/-!
# Abbreviated options

An option may be shortened as long as it stays clear which one is meant, and case does not matter in
what is given.
-/

namespace GridSpline

/-- The options that begin with the given text in lower case. -/
def abbreviated (options : List String) (given : String) : List String :=
  options.filter fun option => (Text.lowercase given).toList.isPrefixOf option.toList

/-- The one option that the given text abbreviates. -/
def resolveAbbreviation {α : Type} (field : String) (options : List String) (given : String) :
    Except (Failure α) String :=
  match abbreviated options given with
  | [option] => return option
  | [] => throw (.unknownOption field given)
  | _ => throw (.ambiguousOption field given)

end GridSpline
