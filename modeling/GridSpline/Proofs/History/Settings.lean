import Mathlib
import GridSpline.Fit.Run
import GridSpline.Proofs.Real
import GridSpline.Proofs.Result

/-!
# Settings that were checked before

A run replaces the settings by their checked form. To the next check this form means what the given
one meant: a missing smoothness became the nominal one, an abbreviation the word that it stands for,
a count an integer, and every other number its scalar, which has the sign of the number.

## Main definitions

* `Scalar.OrdersIntegers` — the order of scalars agrees with that of the integers.
* `Settings.ReadsAs` — settings that mean the same to every check.

## Main statements

* `Settings.ReadsAs.check_eq`, `Settings.ReadsAs.ofChecked_eq` — what the checks make of them.
* `readsAs_ofChecked` — checked settings mean what the given ones meant.
-/

namespace GridSpline

open Scalar Failure

/-- The scalar of an integer is on the same side of zero. -/
class Scalar.OrdersIntegers (α : Type) [Scalar α] : Prop where
  not_le_zero : ∀ {n : ℤ}, 0 < n → ¬(n : α) ≤ 0
  not_lt_zero : ∀ {n : ℤ}, 0 ≤ n → ¬(n : α) < 0

instance : Scalar.OrdersIntegers ℝ where
  not_le_zero hn := not_le.mpr (Int.cast_pos.mpr hn)
  not_lt_zero hn := not_lt.mpr (Int.cast_nonneg hn)

variable {α : Type}

/-! ## Words -/

/-- The word that a given one abbreviates. -/
def extendWord (given : Option String) : Except (Failure α) String := do
  resolveAbbreviation "extend" Extend.words (← require .absent given)

theorem mem_of_resolveAbbreviation {field given word : String} {options : List String}
    (h : resolveAbbreviation field options given = (.ok word : Except (Failure α) String)) :
    word ∈ options := by
  unfold resolveAbbreviation at h
  split at h
  · rename_i option hoptions
    have hmem : option ∈ abbreviated options given := hoptions ▸ List.mem_singleton_self option
    rw [pure_eq_ok] at h
    exact h ▸ (List.mem_filter.mp hmem).1
  · simp at h
  · simp at h

/-- A word that was abbreviated abbreviates itself. -/
theorem extendWord_self {given : Option String} {word : String}
    (h : extendWord given = (.ok word : Except (Failure α) String)) :
    extendWord (some word) = (.ok word : Except (Failure α) String) := by
  obtain ⟨_, -, hword⟩ := bind_eq_ok.mp h
  have hmem := mem_of_resolveAbbreviation hword
  simp only [Extend.words, List.mem_cons, List.not_mem_nil, or_false] at hmem
  rcases hmem with rfl | rfl | rfl <;> rfl

variable [Scalar α]

/-! ## Reading alike -/

/-- Numbers of which a check for a sign makes the same. -/
def Number.ReadsAs (sign : Number α → Prop) (a b : Number α) : Prop :=
  (sign a ↔ sign b) ∧ a.toScalar? = b.toScalar?

/-- Settings that mean the same to every check. -/
structure Settings.ReadsAs (s t : Settings α) : Prop where
  smoothness : nominalSmoothness s.smoothness = nominalSmoothness t.smoothness
  extend : (extendWord s.extend : Except (Failure α) String) = extendWord t.extend
  extraFit : countOf "extra_fit" s.extraFit = countOf "extra_fit" t.extraFit
  lineSweeps : countOf "line_sweeps" s.lineSweeps = countOf "line_sweeps" t.lineSweeps
  tolerance : Option.Rel (Number.ReadsAs Number.IsNotPositive) s.tolerance t.tolerance
  weak : Option.Rel (Number.ReadsAs Number.IsNegative) s.weak t.weak
  weakFunction : s.weakFunction = t.weakFunction

namespace Number.ReadsAs

variable {sign : Number α → Prop}

theorem refl (a : Number α) : a.ReadsAs sign a := ⟨Iff.rfl, rfl⟩

theorem trans {a b c : Number α} (hab : a.ReadsAs sign b) (hbc : b.ReadsAs sign c) :
    a.ReadsAs sign c :=
  ⟨hab.1.trans hbc.1, hab.2.trans hbc.2⟩

theorem rel_refl (o : Option (Number α)) : Option.Rel (Number.ReadsAs sign) o o := by
  cases o with
  | none => exact .none
  | some a => exact .some (refl a)

theorem rel_trans {o p q : Option (Number α)} (hop : Option.Rel (Number.ReadsAs sign) o p)
    (hpq : Option.Rel (Number.ReadsAs sign) p q) : Option.Rel (Number.ReadsAs sign) o q := by
  cases hop with
  | none => exact hpq
  | some hab =>
    cases hpq with
    | some hbc => exact .some (hab.trans hbc)

end Number.ReadsAs

namespace Settings.ReadsAs

variable {s t u : Settings α} {c : CheckedSettings α}

theorem refl (s : Settings α) : s.ReadsAs s :=
  ⟨rfl, rfl, rfl, rfl, Number.ReadsAs.rel_refl _, Number.ReadsAs.rel_refl _, rfl⟩

theorem trans (hst : s.ReadsAs t) (htu : t.ReadsAs u) : s.ReadsAs u where
  smoothness := hst.smoothness.trans htu.smoothness
  extend := hst.extend.trans htu.extend
  extraFit := hst.extraFit.trans htu.extraFit
  lineSweeps := hst.lineSweeps.trans htu.lineSweeps
  tolerance := Number.ReadsAs.rel_trans hst.tolerance htu.tolerance
  weak := Number.ReadsAs.rel_trans hst.weak htu.weak
  weakFunction := hst.weakFunction.trans htu.weakFunction

/-- What the checks make of settings that mean the same. -/
theorem check_eq (h : s.ReadsAs t) : s.check = t.check := by
  have hword : ∀ {β : Type} (given : Option String) (k : String → Except (Failure α) β),
      (require .absent given >>= fun word => resolveAbbreviation "extend" Extend.words word >>= k) =
        extendWord given >>= k := fun given k => (bind_assoc _ _ k).symm
  unfold Settings.check
  simp only [hword]
  rw [h.smoothness, h.extend, h.extraFit, h.lineSweeps, h.weakFunction]
  refine bind_congr fun smoothness => bind_congr fun extend => bind_congr fun extraFit =>
    bind_congr fun lineSweeps => ?_
  obtain ⟨_, _, _, _, tolerance, weak, _⟩ := s
  obtain ⟨_, _, _, _, tolerance', weak', _⟩ := t
  cases h.tolerance with
  | none => rfl
  | some htolerance =>
    cases h.weak with
    | none =>
      simp only [require_some, ok_bind, htolerance.1]
      rfl
    | some hweak =>
      simp only [require_some, ok_bind, htolerance.1, htolerance.2, hweak.1, hweak.2]

/-- Once checked they are the same. -/
theorem ofChecked_eq (h : s.ReadsAs t) (c : CheckedSettings α) : s.ofChecked c = t.ofChecked c := by
  unfold Settings.ofChecked
  rw [h.weakFunction]

end Settings.ReadsAs

/-! ## Checked settings -/

section Checked

variable {s : Settings α} {c : CheckedSettings α}

theorem nominalSmoothness_self {given : Option (Number α)} {x : α}
    (h : nominalSmoothness given = .ok x) : nominalSmoothness (some (.scalar x)) = .ok x := by
  have hself : (if IsZero x then 1 else x) = x := by
    unfold nominalSmoothness at h
    cases given with
    | none =>
      rw [pure_eq_ok] at h
      rw [← h, ite_self]
    | some n =>
      obtain ⟨y, -, hy⟩ := bind_eq_ok.mp h
      rw [pure_eq_ok] at hy
      -- What is no zero stays, and what replaces a zero is not replaced by anything else.
      by_cases hzero : IsZero y
      · rw [if_pos hzero] at hy
        rw [← hy, ite_self]
      · rw [if_neg hzero] at hy
        rw [← hy, if_neg hzero]
  exact congrArg Except.ok hself

theorem countOf_integer (field : String) (n : ℕ) :
    countOf field (some (.integer n) : Option (Number α)) = .ok n := by
  have hinteger : (integer (Number.integer (n : ℤ) : Number α).truncate? : Except (Failure α) ℤ) =
      .ok (n : ℤ) := rfl
  have hequals : (Number.integer (n : ℤ) : Number α).equals n = true := decide_eq_true rfl
  have hnonneg : ¬(Number.integer (n : ℤ) : Number α).IsNegative :=
    Int.not_lt.mpr (Int.natCast_nonneg n)
  unfold countOf
  simp only [require_some, ok_bind, hinteger]
  rw [if_neg (not_or.mpr ⟨not_not.mpr hequals, hnonneg⟩), Int.toNat_natCast]
  rfl

theorem Number.toScalar?_cases {a : Number α} {x : α} (h : a.toScalar? = .ok x) :
    (∃ n : ℤ, a = .integer n ∧ x = n) ∨ a = .scalar x := by
  cases a with
  | integer n =>
    obtain ⟨-, hx⟩ := ite_throw_eq_ok.mp h
    exact Or.inl ⟨n, rfl, (pure_eq_ok.mp hx).symm⟩
  | scalar y => exact Or.inr (congrArg Number.scalar (pure_eq_ok.mp h))

variable [OrdersIntegers α]

/-- The scalar of a number that is positive is so too. -/
theorem Number.readsAs_isNotPositive {a : Number α} {x : α} (ha : ¬a.IsNotPositive)
    (hx : a.toScalar? = .ok x) : (Number.scalar x).ReadsAs Number.IsNotPositive a := by
  refine ⟨iff_of_false ?_ ha, hx.symm⟩
  rcases Number.toScalar?_cases hx with ⟨n, rfl, rfl⟩ | rfl
  · exact OrdersIntegers.not_le_zero (Int.not_le.mp ha)
  · exact ha

/-- The scalar of a number that is not negative is so too. -/
theorem Number.readsAs_isNegative {a : Number α} {x : α} (ha : ¬a.IsNegative)
    (hx : a.toScalar? = .ok x) : (Number.scalar x).ReadsAs Number.IsNegative a := by
  refine ⟨iff_of_false ?_ ha, hx.symm⟩
  rcases Number.toScalar?_cases hx with ⟨n, rfl, rfl⟩ | rfl
  · exact OrdersIntegers.not_lt_zero (Int.not_lt.mp ha)
  · exact ha

/-- Checked settings mean what the given ones meant. -/
theorem readsAs_ofChecked (h : s.check = .ok c) : (s.ofChecked c).ReadsAs s := by
  unfold Settings.check at h
  simp only [bind_eq_ok, guard_eq_ok, pure_eq_ok, require_eq_ok] at h
  obtain ⟨smoothness, hsmoothness, given, hgiven, extend, hextend, extraFit, hextraFit, lineSweeps,
    hlineSweeps, tolerance, htolerance, hpositive, -, weak, hweak, hnonneg, x, hx, y, hy, rfl⟩ := h
  have hword : (extendWord s.extend : Except (Failure α) String) = .ok extend := by
    unfold extendWord
    rw [hgiven]
    exact hextend
  exact {
    smoothness := (nominalSmoothness_self hsmoothness).trans hsmoothness.symm
    extend := (extendWord_self hword).trans hword.symm
    extraFit := (countOf_integer _ _).trans hextraFit.symm
    lineSweeps := (countOf_integer _ _).trans hlineSweeps.symm
    tolerance := htolerance ▸ .some (Number.readsAs_isNotPositive hpositive hx)
    weak := hweak ▸ .some (Number.readsAs_isNegative hnonneg hy)
    weakFunction := rfl }

end Checked

end GridSpline
