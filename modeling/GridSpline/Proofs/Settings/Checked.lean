import Mathlib
import GridSpline.Proofs.Real
import GridSpline.Proofs.Result
import GridSpline.Settings.Basic

/-!
# What the checks of the settings establish

Settings that pass the checks have a smoothness other than zero, since zero stands for the nominal
one, a positive tolerance, and a weight of the default function that is not negative. Over the reals
every number that is given has a scalar, so nothing else can go wrong on the way.

## Main statements

* `Number.toScalar?_eq` — every number has a scalar.
* `isValid_check` — settings that pass the checks are valid.
-/

namespace GridSpline

open Scalar Failure

namespace Number

theorem toScalar?_eq (x : Number ℝ) : x.toScalar? = .ok x.toScalar := by
  cases x with
  | integer n => exact if_pos (isFinite _)
  | scalar x => rfl

theorem isNegative_iff (x : Number ℝ) : x.IsNegative ↔ x.toScalar < 0 := by
  cases x with
  | integer n =>
    show n < 0 ↔ (n : ℝ) < 0
    exact_mod_cast Iff.rfl
  | scalar x => exact Iff.rfl

theorem isNotPositive_iff (x : Number ℝ) : x.IsNotPositive ↔ x.toScalar ≤ 0 := by
  cases x with
  | integer n =>
    show n ≤ 0 ↔ (n : ℝ) ≤ 0
    exact_mod_cast Iff.rfl
  | scalar x => exact Iff.rfl

end Number

/-- What a fit may rely on. -/
structure CheckedSettings.IsValid (c : CheckedSettings ℝ) : Prop where
  smoothness : c.smoothness ≠ 0
  tolerance : 0 < c.tolerance
  weak : 0 ≤ c.weak

theorem nominalSmoothness_ne_zero {given : Option (Number ℝ)} {s : ℝ}
    (h : nominalSmoothness given = .ok s) : s ≠ 0 := by
  unfold nominalSmoothness at h
  cases given with
  | none =>
    rw [pure_eq_ok] at h
    subst h
    exact one_ne_zero
  | some n =>
    simp only [Number.toScalar?_eq, ok_bind, pure_eq_ok] at h
    by_cases hzero : IsZero n.toScalar
    · rw [if_pos hzero] at h
      subst h
      exact one_ne_zero
    · rw [if_neg hzero] at h
      subst h
      intro h0
      exact hzero ((isZero_iff _).mpr h0)

/-- Settings that pass the checks are valid. -/
theorem isValid_check {s : Settings ℝ} {c : CheckedSettings ℝ} (h : s.check = .ok c) :
    c.IsValid := by
  unfold Settings.check at h
  simp only [bind_eq_ok, guard_eq_ok, pure_eq_ok, Number.toScalar?_eq, Except.ok.injEq] at h
  obtain ⟨smoothness, hsmoothness, -, -, -, -, -, -, -, -, tolerance, -, htolerance, -, weak, -,
    hweak, -, rfl, -, rfl, rfl⟩ := h
  refine ⟨nominalSmoothness_ne_zero hsmoothness, ?_, ?_⟩
  · rw [Number.isNotPositive_iff] at htolerance
    exact not_le.mp htolerance
  · rw [Number.isNegative_iff] at hweak
    exact not_lt.mp hweak

end GridSpline
