import GridSpline.Failure.Basic

/-!
# Weak default functions

A fit may be drawn, weakly, towards a default: a function that gives the values of all output
channels at a position. Functions may fail, and what is given in place of one need not be a function
at all.
-/

namespace GridSpline

open Scalar Failure

variable {α : Type}

/-- What is given as the default of a fit. -/
inductive WeakFunction (α : Type) where
  /-- Something that cannot be applied to a position. -/
  | unusable
  /-- The values of all channels at a position. -/
  | function (f : List α → Except (Failure α) (List α))

namespace WeakFunction

/-- It can be applied to a position. -/
def isFunction : WeakFunction α → Bool
  | unusable => false
  | function _ => true

/-- The value of one channel at a position. -/
def valueAt (w : WeakFunction α) (channel : Int) (position : List α) : Except (Failure α) α :=
  match w with
  | unusable => throw .wrongKind
  | function f => do entryAt (← f position) channel

end WeakFunction

/-- A function whose channels are affine in the position. -/
structure AffineMap (α : Type) where
  /-- The value of each channel at the origin. -/
  bias : List α
  /-- The slopes of each channel. -/
  slopes : List (List α)
  /-- Only the first channel is given. -/
  firstOnly : Bool

namespace AffineMap

variable [Scalar α]

/-- One channel: a bias and a slope for each of the leading coordinates. -/
def channelAt (bias : α) (slopes position : List α) : Except (Failure α) α :=
  if position.length < slopes.length then throw .indexOutOfRange
  else return (List.zipWith (· * ·) slopes position).foldl (· + ·) bias

/-- The values at a position. A channel needs both its bias and its slopes. -/
def valuesAt (m : AffineMap α) (position : List α) : Except (Failure α) (List α) := do
  let values ← (m.bias.zip m.slopes).mapM fun (bias, slopes) => channelAt bias slopes position
  if m.firstOnly then return [← entryAt values 0] else return values

/-- The affine map as a default function. -/
def toWeakFunction (m : AffineMap α) : WeakFunction α := .function m.valuesAt

end AffineMap

end GridSpline
