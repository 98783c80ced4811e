import GridSpline.Scalar.Basic

/-!
# Floating-point scalars

The instance on which the fit runs. The integer parts come from the exact value of a number
(`Binary64`), not from a conversion that clamps, so that a number beyond any machine word and one
that is not finite are told apart.
-/

namespace GridSpline

/-- The numbers of cells are 64-bit words; this is the first number above them. -/
def wordLimit : Float := 9223372036854775808.0

instance : Scalar Float where
  zero := 0.0
  one := 1.0
  natCast := Float.ofNat
  intCast := Float.ofInt
  decidableLT := inferInstance
  decidableLE := inferInstance
  sqrt := Float.sqrt
  exp := Float.exp
  log := Float.log
  pow := Float.pow
  floor? x := Binary64.floor <$> Binary64.ofFloat x
  cellFloor x :=
    if -wordLimit ≤ x ∧ x < wordLimit then x.floor.toInt64.toInt else -9223372036854775808

end GridSpline
