import GridSpline.Failure.Message

/-!
# Notices

What a run reports on the way, in the order in which it happens: bounds of the domain that had to
move, the error after each iteration of a solve, and the outcome of each solve of a channel.
-/

namespace GridSpline

/-- Something that a run reports. -/
inductive Notice (α : Type) where
  /-- A bound of the domain moved to a sample that lay beyond it. -/
  | moved (side : Side) (axis : Nat) (bound value : α)
  /-- The error after an iteration on the lattice with the given resolutions. -/
  | iterated (res : List Nat) (iteration : Nat) (error : α)
  /-- A channel is solved on the lattice with the given resolutions. -/
  | solved (channel : Nat) (res : List Nat) (error : α) (iterations : Nat)
deriving Repr

open Decimal Text

/-- The line for a notice. How the error of a solve is written is left open, since its last digits
depend on the order of summation. -/
def Notice.line (showError : Float → String) : Notice Float → String
  | .moved side axis bound value =>
    let name := side.boundName axis
    let shown := fixed 6 value
    match side with
    | .low =>
      let change := fixed 6 (bound - value)
      s!"[RSPL:extend] {name} was decreased by {change}, new = {shown}"
    | .high =>
      let change := fixed 6 (value - bound)
      s!"[RSPL:extend] {name} was increased by {change}, new = {shown}"
  | .iterated res iteration error =>
    let shape := tuple (res.map Int.ofNat)
    let shown := showError error
    s!"[RSPL:solve] res {shape} iteration {iteration} error {shown}"
  | .solved channel res error iterations =>
    let shape := tuple (res.map Int.ofNat)
    let shown := showError error
    s!"[RSPL:solve] channel {channel} res {shape} error {shown} after {iterations} iterations"

end GridSpline
