import GridSpline.Number
import GridSpline.Settings.Abbreviation
import GridSpline.Settings.WeakFunction

/-!
# Settings of a fit

The settings are checked in a fixed order, and the first that is not admissible is reported. What
passes is normalised: no smoothness, or a smoothness of zero, means the nominal one, and the choice
of how to extend the domain may be abbreviated.
-/

namespace GridSpline

open Scalar Failure

variable {α : Type} [Scalar α]

/-- What happens when samples lie outside the given domain. -/
inductive Extend where
  /-- The samples are refused. -/
  | never
  /-- The domain grows and a notice says so. -/
  | warning
  /-- The domain grows. -/
  | always
deriving DecidableEq, Repr

namespace Extend

/-- The words for the choices. -/
def words : List String := ["never", "warning", "always"]

/-- The choice for a word; any other word means the last one. -/
def ofWord (word : String) : Extend :=
  if word = "never" then never else if word = "warning" then warning else always

end Extend

/-- Settings as they are given; any of them may be missing. -/
structure Settings (α : Type) where
  /-- How smooth the result is to be, as a multiple of the optimum. -/
  smoothness : Option (Number α)
  /-- What to do with samples outside the domain. -/
  extend : Option String
  /-- How often the misfit is added back to the targets. -/
  extraFit : Option (Number α)
  /-- How many iterations of a solve may relax whole lines. -/
  lineSweeps : Option (Number α)
  /-- The error at which a solve stops. -/
  tolerance : Option (Number α)
  /-- The weight of the default function. -/
  weak : Option (Number α)
  /-- The default function. -/
  weakFunction : Option (WeakFunction α)

/-- Settings that passed the checks. -/
structure CheckedSettings (α : Type) where
  smoothness : α
  extend : String
  extraFit : Nat
  lineSweeps : Nat
  tolerance : α
  weak : α
deriving Repr

/-- The smoothness that a missing or zero one stands for. -/
def nominalSmoothness (given : Option (Number α)) : Except (Failure α) α :=
  match given with
  | some n => do
    let s ← n.toScalar?
    return if IsZero s then 1 else s
  | none => return 1

/-- A number that counts something. -/
def countOf (field : String) (given : Option (Number α)) : Except (Failure α) Nat := do
  let x ← require .wrongKind given
  let n ← integer x.truncate?
  if ¬ x.equals n ∨ x.IsNegative then throw (.notACount field)
  return n.toNat

/-- Checks the settings in order. -/
def Settings.check (s : Settings α) : Except (Failure α) (CheckedSettings α) := do
  let smoothness ← nominalSmoothness s.smoothness
  let given ← require .absent s.extend
  let extend ← resolveAbbreviation "extend" Extend.words given
  let extraFit ← countOf "extra_fit" s.extraFit
  let lineSweeps ← countOf "line_sweeps" s.lineSweeps
  let tolerance ← require .wrongKind s.tolerance
  if tolerance.IsNotPositive then throw .toleranceNotPositive
  if s.weakFunction.any fun w => !w.isFunction then throw .notAFunction
  let weak ← require .wrongKind s.weak
  if weak.IsNegative then throw .weakWeightNegative
  return {
    smoothness, extend, extraFit, lineSweeps
    tolerance := ← tolerance.toScalar?
    weak := ← weak.toScalar? }

end GridSpline
