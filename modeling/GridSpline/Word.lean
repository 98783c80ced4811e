/-!
# Machine words

Node numbers, and the integers of a table, are 64-bit words. Sums and products of words are words
again: what does not fit wraps around. Integers that come from outside may be too large for a word.

## Main statements

* `fits_wrap`, `wrap_of_fits` — wrapping gives a word, and leaves words as they are.
-/

namespace GridSpline.Word

/-- The first number above all words. -/
def limit : Int := 9223372036854775808

/-- The integer is a word. -/
def Fits (n : Int) : Prop := -limit ≤ n ∧ n < limit

instance (n : Int) : Decidable (Fits n) := inferInstanceAs (Decidable (_ ∧ _))

/-- The integer is a word of either kind, with a sign or without one. -/
def FitsEither (n : Int) : Prop := -limit ≤ n ∧ n < limit + limit

instance (n : Int) : Decidable (FitsEither n) := inferInstanceAs (Decidable (_ ∧ _))

/-- The word that differs from the integer by a multiple of the number of words. -/
def wrap (n : Int) : Int := (n + limit) % (limit + limit) - limit

/-- Wrapping gives a word. -/
theorem fits_wrap (n : Int) : Fits (wrap n) := by
  unfold Fits wrap limit
  omega

/-- A word stays as it is. -/
theorem wrap_of_fits {n : Int} (h : Fits n) : wrap n = n := by
  unfold Fits limit at h
  unfold wrap limit
  omega

end GridSpline.Word
