import Mathlib
import GridSpline.Proofs.Smoothing.Optimum

/-!
# The bracket of a value

The search by halving finds how many entries of an ascending axis are not above a value. So a value
inside the axis lies between the entries of its bracket, and its logarithm is their mean by the
shares of the bracket. A value beyond the ends has the bracket of the end. Logarithms are taken of
entries and of values between them only, which are positive: another logarithm that agrees on the
positive numbers gives the same bracket.

## Main definitions

* `IsLogAxis` — an ascending axis of at least two positive numbers.
* `clamped` — a value, taken to an end of the axis if it is beyond.
* `withLog` — real scalars with another function as logarithm.
* `bracketIn` — the bracket of a value.
* `Bracket.Splits` — the shares of a bracket are those of a value.

## Main statements

* `isNarrowed_firstAbove` — what the search keeps.
* `IsLogAxis.countNotAbove_spec` — what the search finds.
* `IsLogAxis.logBracket_withLog` — the bracket of a value, for any such logarithm.
* `IsLogAxis.exists_splits` — its shares are those of the value.
-/

namespace GridSpline

open Scalar Failure

variable {axis : List ℝ} {value : ℝ}

/-! ## The search -/

theorem isNotAbove_iff (value entry : ℝ) : IsNotAbove value entry ↔ entry ≤ value :=
  ⟨fun h => not_lt.mp h.1, fun h => ⟨not_lt.mpr h, Or.inl (isNumber _)⟩⟩

/-- What the search keeps: entries before the places that are left to search are not above the
value, and those behind them are. -/
def IsNarrowed (axis : Array ℝ) (value : ℝ) (low high : ℕ) : Prop :=
  low ≤ high ∧ (∀ i < low, axis.getD i 0 ≤ value) ∧
    ∀ i, high ≤ i → i < axis.size → value < axis.getD i 0

theorem isNarrowed_firstAbove {axis : Array ℝ}
    (hascending : ∀ i j, i < j → j < axis.size → axis.getD i 0 < axis.getD j 0) {low high : ℕ}
    (hhigh : high ≤ axis.size) (h : IsNarrowed axis value low high) :
    IsNarrowed axis value (firstAbove axis value low high) (firstAbove axis value low high) ∧
      firstAbove axis value low high ≤ axis.size := by
  fun_induction firstAbove axis value low high with
  | case1 low high hlt middle hbelow ih =>
    obtain ⟨-, hlow, habove⟩ := h
    rw [isNotAbove_iff] at hbelow
    refine ih hhigh ⟨by omega, fun i hi => ?_, habove⟩
    rcases Nat.lt_succ_iff_lt_or_eq.mp hi with hi | rfl
    · exact (hascending i middle hi (by omega)).le.trans hbelow
    · exact hbelow
  | case2 low high hlt middle habove' ih =>
    obtain ⟨-, hlow, habove⟩ := h
    rw [isNotAbove_iff, not_le] at habove'
    refine ih (by omega) ⟨by omega, hlow, fun i hi hsize => ?_⟩
    rcases hi.lt_or_eq with hi | rfl
    · exact habove'.trans (hascending middle i hi hsize)
    · exact habove'
  | case3 low high hge =>
    obtain ⟨hle, hlow, habove⟩ := h
    obtain rfl : low = high := by omega
    exact ⟨⟨le_rfl, hlow, habove⟩, hhigh⟩

/-! ## Axes -/

/-- An ascending axis of at least two positive numbers. -/
structure IsLogAxis (axis : List ℝ) : Prop where
  ascending : axis.Pairwise (· < ·)
  positive : ∀ entry ∈ axis, 0 < entry
  length : 2 ≤ axis.length

/-- A value, taken to an end of the axis if it is beyond. -/
noncomputable def clamped (axis : List ℝ) (value : ℝ) : ℝ :=
  min (max value (axis.getD 0 0)) (axis.getD (axis.length - 1) 0)

/-- The logarithm of the entry at a place. -/
noncomputable def logAt (axis : List ℝ) (i : ℕ) : ℝ := Real.log (axis.getD i 0)

namespace IsLogAxis

variable (h : IsLogAxis axis)

include h

theorem getD_lt {i j : ℕ} (hij : i < j) (hj : j < axis.length) : axis.getD i 0 < axis.getD j 0 := by
  rw [List.getD_eq_getElem _ _ (hij.trans hj), List.getD_eq_getElem _ _ hj]
  exact List.pairwise_iff_getElem.mp h.ascending i j _ hj hij

theorem getD_le {i j : ℕ} (hij : i ≤ j) (hj : j < axis.length) :
    axis.getD i 0 ≤ axis.getD j 0 := by
  rcases hij.lt_or_eq with hlt | rfl
  · exact (h.getD_lt hlt hj).le
  · exact le_rfl

theorem getD_pos {i : ℕ} (hi : i < axis.length) : 0 < axis.getD i 0 := by
  rw [List.getD_eq_getElem _ _ hi]
  exact h.positive _ (List.getElem_mem hi)

theorem logAt_lt {i j : ℕ} (hij : i < j) (hj : j < axis.length) : logAt axis i < logAt axis j :=
  Real.log_lt_log (h.getD_pos (hij.trans hj)) (h.getD_lt hij hj)

theorem logAt_le {i j : ℕ} (hij : i ≤ j) (hj : j < axis.length) : logAt axis i ≤ logAt axis j :=
  Real.log_le_log (h.getD_pos (hij.trans_lt hj)) (h.getD_le hij hj)

theorem clamped_pos (value : ℝ) : 0 < clamped axis value := by
  have hlen := h.length
  exact lt_min (lt_max_of_lt_right (h.getD_pos (by omega))) (h.getD_pos (by omega))

/-- What the search finds: the entries that are not above the value are the first ones, as many as
were counted. -/
theorem countNotAbove_spec (value : ℝ) : countNotAbove axis value ≤ axis.length ∧
    (∀ i < countNotAbove axis value, axis.getD i 0 ≤ value) ∧
    ∀ i, countNotAbove axis value ≤ i → i < axis.length → value < axis.getD i 0 := by
  have hget : ∀ i, axis.toArray.getD i 0 = axis.getD i 0 := fun i => by
    rw [Array.getD_eq_getD_getElem?, List.getElem?_toArray, List.getD_eq_getElem?_getD]
  have hascending : ∀ i j, i < j → j < axis.toArray.size →
      axis.toArray.getD i 0 < axis.toArray.getD j 0 := by
    intro i j hij hj
    rw [hget, hget]
    exact h.getD_lt hij hj
  have hwhole : IsNarrowed axis.toArray value 0 axis.length :=
    ⟨Nat.zero_le _, fun i hi => absurd hi i.not_lt_zero,
      fun i hi hlt => absurd hlt (Nat.not_lt.mpr hi)⟩
  obtain ⟨⟨-, hbelow, habove⟩, hle⟩ := isNarrowed_firstAbove hascending le_rfl hwhole
  simp only [hget] at hbelow habove
  exact ⟨hle, hbelow, habove⟩

end IsLogAxis

/-! ## Brackets -/

/-- Real scalars with another function as logarithm. -/
@[reducible] noncomputable def withLog (f : ℝ → ℝ) : Scalar ℝ :=
  { (inferInstance : Scalar ℝ) with log := f }

theorem firstAbove_withLog (f : ℝ → ℝ) (axis : Array ℝ) (value : ℝ) (low high : ℕ) :
    @firstAbove ℝ (withLog f) axis value low high = firstAbove axis value low high := by
  fun_induction firstAbove axis value low high with
  | case1 low high hlt middle hbelow ih =>
    conv_lhs => unfold firstAbove
    rw [if_pos hlt]
    exact (if_pos hbelow).trans ih
  | case2 low high hlt middle habove ih =>
    conv_lhs => unfold firstAbove
    rw [if_pos hlt]
    exact (if_neg habove).trans ih
  | case3 low high hge =>
    conv_lhs => unfold firstAbove
    rw [if_neg hge]

theorem logWeight_withLog {f : ℝ → ℝ} (hf : ∀ x, 0 < x → f x = Real.log x) {lower upper : ℝ}
    (hlower : 0 < lower) (hupper : 0 < upper) (hvalue : 0 < value) :
    @logWeight ℝ (withLog f) lower upper value = logWeight lower upper value := by
  show 1 - (f value - f lower) / (f upper - f lower) = _
  rw [hf _ hlower, hf _ hupper, hf _ hvalue]
  rfl

/-- The bracket of a value. -/
noncomputable def bracketIn (axis : List ℝ) (value : ℝ) : Bracket ℝ :=
  if value ≤ axis.getD 0 0 then { index := 0, weight := 1 }
  else if axis.getD (axis.length - 1) 0 ≤ value then
    { index := ((axis.length - 2 : ℕ) : ℤ), weight := 0 }
  else { index := ((countNotAbove axis value - 1 : ℕ) : ℤ),
         weight := logWeight (axis.getD (countNotAbove axis value - 1) 0)
           (axis.getD (countNotAbove axis value - 1 + 1) 0) value }

theorem entryAt_eq_getD {i : ℕ} (hi : i < axis.length) :
    entryAt (α := ℝ) axis (i : ℤ) = .ok (axis.getD i 0) := by
  rw [entryAt_ofNat hi, List.getD_eq_getElem _ _ hi]

theorem entryAt_last (h : 0 < axis.length) :
    entryAt (α := ℝ) axis (-1) = .ok (axis.getD (axis.length - 1) 0) := by
  have hposition : Lattice.position? axis.length (-1) = some (axis.length - 1) := by
    unfold Lattice.position?
    rw [if_neg (by omega), if_pos (by omega)]
    congr 1
    omega
  unfold entryAt
  rw [hposition, Option.bind_some, List.getElem?_eq_getElem (by omega), require_some,
    List.getD_eq_getElem _ _ (by omega)]

namespace IsLogAxis

variable (h : IsLogAxis axis)

include h

/-- A value inside the axis lies between two entries of it. -/
theorem countNotAbove_mem (hlow : ¬ value ≤ axis.getD 0 0)
    (hhigh : ¬ axis.getD (axis.length - 1) 0 ≤ value) :
    0 < countNotAbove axis value ∧ countNotAbove axis value < axis.length := by
  have hlen := h.length
  obtain ⟨-, hbelow, habove⟩ := h.countNotAbove_spec value
  constructor
  · by_contra hzero
    exact hlow (habove 0 (by omega) (by omega)).le
  · by_contra hall
    exact hhigh (hbelow _ (by omega))

/-- The bracket of a value, whatever the logarithm of a number is that is not positive. -/
theorem logBracket_withLog {f : ℝ → ℝ} (hf : ∀ x, 0 < x → f x = Real.log x) (value : ℝ) :
    @logBracket ℝ (withLog f) axis value = .ok (bracketIn axis value) := by
  have hlen := h.length
  have hfirst : entryAt (α := ℝ) axis 0 = .ok (axis.getD 0 0) :=
    entryAt_eq_getD (i := 0) (by omega)
  unfold logBracket bracketIn
  rw [hfirst, ok_bind]
  by_cases hlow : value ≤ axis.getD 0 0
  · rw [if_pos hlow, if_pos hlow]
    rfl
  rw [if_neg hlow, if_neg hlow, entryAt_last (by omega), ok_bind]
  simp only
  by_cases hhigh : axis.getD (axis.length - 1) 0 ≤ value
  · rw [if_pos hhigh, if_pos hhigh, pure_eq_ok]
    congr 2
    exact (Nat.cast_sub hlen).symm
  rw [if_neg hhigh, if_neg hhigh]
  obtain ⟨hpos, hlt⟩ := h.countNotAbove_mem hlow hhigh
  obtain ⟨-, hbelow, -⟩ := h.countNotAbove_spec value
  have hcount : @countNotAbove ℝ (withLog f) axis value = countNotAbove axis value :=
    firstAbove_withLog f _ _ _ _
  have hindex : min ((countNotAbove axis value : ℤ) - 1) (axis.length - 2) =
      ((countNotAbove axis value - 1 : ℕ) : ℤ) := by omega
  have hnext : ((countNotAbove axis value - 1 : ℕ) : ℤ) + 1 =
      ((countNotAbove axis value - 1 + 1 : ℕ) : ℤ) := by omega
  have hlower : 0 < axis.getD (countNotAbove axis value - 1) 0 := h.getD_pos (by omega)
  have hupper : 0 < axis.getD (countNotAbove axis value - 1 + 1) 0 := h.getD_pos (by omega)
  have hvalue : 0 < value := hlower.trans_le (hbelow _ (by omega))
  rw [hcount, hindex, entryAt_eq_getD (by omega), ok_bind, hnext, entryAt_eq_getD (by omega),
    ok_bind, pure_eq_ok, logWeight_withLog hf hlower hupper hvalue]

end IsLogAxis

/-- The shares of a bracket are those of a value: between the logarithms of two neighbouring entries
they give the logarithm of the value. -/
structure Bracket.Splits (b : Bracket ℝ) (axis : List ℝ) (value : ℝ) : Prop where
  index_nonneg : 0 ≤ b.index
  index_le : b.index ≤ axis.length - 2
  weight_nonneg : 0 ≤ b.weight
  weight_le_one : b.weight ≤ 1
  log_eq : b.weight * Real.log (axis.getD b.index.toNat 0) +
    (1 - b.weight) * Real.log (axis.getD (b.index.toNat + 1) 0) = Real.log (clamped axis value)

theorem Bracket.Splits.ofNat {k : ℕ} {w : ℝ} (hk : k + 1 < axis.length) (h0 : 0 ≤ w) (h1 : w ≤ 1)
    (hlog : w * logAt axis k + (1 - w) * logAt axis (k + 1) = Real.log (clamped axis value)) :
    Bracket.Splits { index := (k : ℤ), weight := w } axis value where
  index_nonneg := Int.natCast_nonneg k
  index_le := by
    show (k : ℤ) ≤ axis.length - 2
    omega
  weight_nonneg := h0
  weight_le_one := h1
  log_eq := hlog

theorem Bracket.Splits.index_lt {b : Bracket ℝ} (hb : b.Splits axis value) :
    b.index.toNat + 1 < axis.length := by
  have hle := hb.index_le
  have hnonneg := hb.index_nonneg
  omega

theorem clamped_of_le (h : IsLogAxis axis) (hlow : value ≤ axis.getD 0 0) :
    clamped axis value = axis.getD 0 0 := by
  have hlen := h.length
  unfold clamped
  rw [max_eq_right hlow, min_eq_left (h.getD_le (Nat.zero_le _) (by omega))]

theorem clamped_of_ge (h : IsLogAxis axis) (hhigh : axis.getD (axis.length - 1) 0 ≤ value) :
    clamped axis value = axis.getD (axis.length - 1) 0 := by
  have hlen := h.length
  unfold clamped
  rw [max_eq_left ((h.getD_le (Nat.zero_le _) (by omega)).trans hhigh), min_eq_right hhigh]

theorem clamped_of_mem (hlow : axis.getD 0 0 ≤ value)
    (hhigh : value ≤ axis.getD (axis.length - 1) 0) : clamped axis value = value := by
  unfold clamped
  rw [max_eq_left hlow, min_eq_left hhigh]

namespace IsLogAxis

variable (h : IsLogAxis axis)

include h

theorem clamped_getD {i : ℕ} (hi : i < axis.length) :
    clamped axis (axis.getD i 0) = axis.getD i 0 :=
  clamped_of_mem (h.getD_le (Nat.zero_le _) hi) (h.getD_le (by omega) (by omega))

theorem clamped_clamped (value : ℝ) : clamped axis (clamped axis value) = clamped axis value := by
  have hlen := h.length
  refine clamped_of_mem ?_ (min_le_right _ _)
  exact le_min (le_max_right _ _) (h.getD_le (Nat.zero_le _) (by omega))

/-- The shares of a value between two neighbouring entries. -/
theorem splits_logWeight {k : ℕ} (hk : k + 1 < axis.length) (hlower : axis.getD k 0 ≤ value)
    (hupper : value ≤ axis.getD (k + 1) 0) :
    Bracket.Splits
      { index := (k : ℤ), weight := logWeight (axis.getD k 0) (axis.getD (k + 1) 0) value }
      axis value := by
  have hfirst : axis.getD 0 0 ≤ value := (h.getD_le (Nat.zero_le k) (by omega)).trans hlower
  have hlast : value ≤ axis.getD (axis.length - 1) 0 :=
    hupper.trans (h.getD_le (by omega) (by omega))
  have hvalue : 0 < value := (h.getD_pos (by omega)).trans_le hlower
  have hside : logAt axis k < logAt axis (k + 1) := h.logAt_lt (Nat.lt_succ_self k) hk
  have hloglower : logAt axis k ≤ Real.log value := Real.log_le_log (h.getD_pos (by omega)) hlower
  have hlogupper : Real.log value ≤ logAt axis (k + 1) := Real.log_le_log hvalue hupper
  have hweight : logWeight (axis.getD k 0) (axis.getD (k + 1) 0) value =
      1 - (Real.log value - logAt axis k) / (logAt axis (k + 1) - logAt axis k) := rfl
  rw [hweight]
  refine Bracket.Splits.ofNat hk ?_ ?_ ?_
  · rw [sub_nonneg, div_le_one (by linarith)]
    linarith
  · rw [sub_le_self_iff]
    exact div_nonneg (by linarith) (by linarith)
  · rw [clamped_of_mem hfirst hlast]
    field_simp [sub_ne_zero.mpr hside.ne']
    ring

theorem splits_bracketIn (value : ℝ) : (bracketIn axis value).Splits axis value := by
  have hlen := h.length
  unfold bracketIn
  split_ifs with hlow hhigh
  · refine Bracket.Splits.ofNat (k := 0) (by omega) zero_le_one le_rfl ?_
    rw [clamped_of_le h hlow, one_mul, sub_self, zero_mul, add_zero]
    rfl
  · refine Bracket.Splits.ofNat (by omega) le_rfl zero_le_one ?_
    rw [clamped_of_ge h hhigh, zero_mul, sub_zero, one_mul, zero_add,
      show axis.length - 2 + 1 = axis.length - 1 by omega]
    rfl
  · obtain ⟨hpos, hlt⟩ := h.countNotAbove_mem hlow hhigh
    obtain ⟨-, hbelow, habove⟩ := h.countNotAbove_spec value
    exact h.splits_logWeight (by omega) (hbelow _ (by omega)) (habove _ (by omega) (by omega)).le

end IsLogAxis

/-- Words have logarithms: given as words, numbers have the bracket of their scalars. -/
theorem logBracketOf_of_isWord {axis : List (Number ℝ)} {value : Number ℝ} {b : Bracket ℝ}
    (haxis : ∀ x ∈ axis, x.IsWord) (hvalue : value.IsWord)
    (hb : b.Splits (axis.map Number.toScalar) value.toScalar)
    (hbracket : logBracket (axis.map Number.toScalar) value.toScalar = .ok b) :
    logBracketOf axis value = .ok b := by
  have hlt := hb.index_lt
  rw [List.length_map] at hlt
  obtain ⟨k, hk⟩ := Int.eq_ofNat_of_zero_le hb.index_nonneg
  obtain ⟨first, hfirst⟩ := exists_entryAt (l := axis) (i := 0) (by omega)
  obtain ⟨last, hlast⟩ := exists_entryAt (l := axis) (i := -1) (by omega)
  have hlower : entryAt (α := ℝ) axis b.index = .ok axis[k] := by rw [hk, entryAt_ofNat]
  have hupper : entryAt (α := ℝ) axis (b.index + 1) = .ok axis[k + 1] := by
    rw [hk, ← Int.natCast_succ, entryAt_ofNat]
  unfold logBracketOf
  rw [hbracket, ok_bind, hfirst, ok_bind, hlast, ok_bind]
  split_ifs with hends
  · rfl
  · rw [hlower, ok_bind, hupper, ok_bind, if_pos ⟨hvalue, haxis _ (List.getElem_mem _),
      haxis _ (List.getElem_mem _)⟩]
    rfl

/-- The bracket of a value: its shares are those of the value, and the logarithms that it is made of
are those of positive numbers. -/
theorem IsLogAxis.exists_splits (h : IsLogAxis axis) (value : ℝ) :
    ∃ b : Bracket ℝ, b.Splits axis value ∧ logBracket axis value = .ok b ∧
      logBracketOf (axis.map .scalar) (.scalar value) = .ok b ∧
      ∀ f : ℝ → ℝ, (∀ x, 0 < x → f x = Real.log x) →
        @logBracket ℝ (withLog f) axis value = .ok b := by
  have hbracket : logBracket axis value = .ok (bracketIn axis value) :=
    h.logBracket_withLog (fun _ _ => rfl) value
  refine ⟨bracketIn axis value, h.splits_bracketIn value, hbracket, ?_,
    fun f hf => h.logBracket_withLog hf value⟩
  have hscalars : (axis.map Number.scalar).map Number.toScalar = axis := by
    rw [List.map_map]
    exact List.map_id axis
  refine logBracketOf_of_isWord ?_ trivial ?_ ?_
  · intro x hx
    obtain ⟨entry, -, rfl⟩ := List.mem_map.mp hx
    trivial
  · rw [hscalars]
    exact h.splits_bracketIn value
  · rw [hscalars]
    exact hbracket

end GridSpline
