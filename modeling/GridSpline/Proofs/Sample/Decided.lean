import Mathlib
import GridSpline.Proofs.Fit.Spacing
import GridSpline.Proofs.Sample.Prepared

/-!
# What the checks of the samples decide

The checks of resolutions, bounds and spacings succeed exactly under conditions that can be read off
what is given, and what they return then is given by a formula. The conditions for one axis do not
depend on its number, which is only mentioned in notices and failures.

## Main definitions

* `Nested.entries?` — what is read of an array as it is written down.
* `extended` — the bounds of an axis after the samples were taken in.
* `IsUsableSpacing` — a spacing that passes the checks.

## Main statements

* `resolutions?_iff`, `extendDomain?_iff`, `spacings?_some_iff` — when the checks succeed, and with
  what.
-/

namespace GridSpline

open Scalar Failure
open GridSpline.Lattice

/-- The entries of an array as it is written down, unless it is ragged. -/
def Nested.entries? {β : Type} (given : Nested β) : Option (List β) :=
  (Dense.ofNested? given).map Dense.entries

/-! ## Resolutions -/

/-- Numbers that can be taken as resolutions. -/
structure AreResolutions (l : List (Number ℝ)) : Prop where
  words : ∀ x ∈ l, x.IsWord
  axes : l ≠ []
  integral : ∀ x ∈ l, isIntegral x = true
  few : l.length ≤ maxAxes
  two_le : ∀ x ∈ l, 2 ≤ resolutionWord x

theorem areResolutions_iff {l : List (Number ℝ)} : AreResolutions l ↔
    ¬¬(l.all fun x => decide x.IsWord) = true ∧
    ¬(l.isEmpty = true ∨ ¬l.all isIntegral = true) ∧
    ¬maxAxes < (l.map resolutionWord).length ∧
    ¬((l.map resolutionWord).any fun x => decide (x < 2)) = true := by
  simp only [not_not, not_or, List.isEmpty_iff, List.all_eq_true, decide_eq_true_eq, not_lt,
    List.length_map, List.any_map, List.any_eq_true, Function.comp_apply, not_exists, not_and]
  constructor
  · intro h
    exact ⟨h.words, ⟨h.axes, h.integral⟩, h.few, h.two_le⟩
  · rintro ⟨hwords, ⟨haxes, hintegral⟩, hfew, htwo⟩
    exact ⟨hwords, haxes, hintegral, hfew, htwo⟩

theorem Nested.bind_entries?_eq_some_iff {β : Type} {given : Option (Nested β)} {l : List β} :
    given.bind Nested.entries? = some l ↔
      ∃ nested, given = some nested ∧ ∃ d, Dense.ofNested? nested = some d ∧ d.entries = l := by
  unfold Nested.entries?
  simp only [Option.bind_eq_some_iff, Option.map_eq_some_iff]

theorem resolutions?_iff {given : Option (Nested (Number ℝ))} {res : List ℕ} :
    resolutions? given = .ok res ↔ ∃ l, given.bind Nested.entries? = some l ∧ AreResolutions l ∧
      res = l.map fun x => (resolutionWord x).toNat := by
  unfold resolutions?
  simp only [bind_eq_ok, guard_eq_ok, pure_eq_ok, require_eq_ok, Nested.bind_entries?_eq_some_iff,
    areResolutions_iff]
  constructor
  · rintro ⟨nested, hnested, d, hd, hwords, hintegral, hfew, htwo, rfl⟩
    exact ⟨_, ⟨nested, hnested, d, hd, rfl⟩, ⟨hwords, hintegral, hfew, htwo⟩, List.map_map⟩
  · rintro ⟨l, ⟨nested, hnested, d, hd, rfl⟩, ⟨hwords, hintegral, hfew, htwo⟩, rfl⟩
    exact ⟨nested, hnested, d, hd, hwords, hintegral, hfew, htwo, List.map_map⟩

theorem AreResolutions.perm {l l' : List (Number ℝ)} (h : AreResolutions l) (hperm : l'.Perm l) :
    AreResolutions l' where
  words x hx := h.words x (hperm.mem_iff.mp hx)
  axes hnil := h.axes (List.nil_perm.mp (hnil ▸ hperm))
  integral x hx := h.integral x (hperm.mem_iff.mp hx)
  few := hperm.length_eq ▸ h.few
  two_le x hx := h.two_le x (hperm.mem_iff.mp hx)

/-! ## The domain -/

/-- The bounds of an axis after the samples were taken in. -/
noncomputable def extended (b : ℝ × ℝ) (coordinates : List ℝ) : ℝ × ℝ :=
  match least? coordinates, greatest? coordinates with
  | some first, some last => (min b.1 first, max b.2 last)
  | _, _ => b

theorem exists_pure_eq_ok {β : Type} {a b : β} {moved : List (Notice ℝ)} :
    (∃ notices, (pure (a, moved) : Except (Failure ℝ) _) = .ok (b, notices)) ↔ b = a := by
  simp only [pure_eq_ok, Prod.mk.injEq, exists_and_left, exists_eq', and_true]
  exact eq_comm

theorem extendBound_low_iff {mode : Extend} (axis : ℕ) {bound value b : ℝ} :
    (∃ notices, extendBound mode .low axis bound value = .ok (b, notices)) ↔
      b = min bound value ∧ (mode = .never → b = bound) := by
  unfold extendBound
  by_cases hlt : value < bound
  · simp only [hlt, decide_true, if_true, min_eq_right hlt.le]
    cases mode with
    | never => simpa using fun heq => heq ▸ hlt.ne
    | warning => exact exists_pure_eq_ok.trans (iff_self_and.mpr fun _ h => nomatch h)
    | always => exact exists_pure_eq_ok.trans (iff_self_and.mpr fun _ h => nomatch h)
  · simp only [hlt, decide_false, Bool.false_eq_true, if_false, min_eq_left (not_lt.mp hlt)]
    exact exists_pure_eq_ok.trans (iff_self_and.mpr fun h _ => h)

theorem extendBound_high_iff {mode : Extend} (axis : ℕ) {bound value b : ℝ} :
    (∃ notices, extendBound mode .high axis bound value = .ok (b, notices)) ↔
      b = max bound value ∧ (mode = .never → b = bound) := by
  unfold extendBound
  by_cases hlt : bound < value
  · simp only [hlt, decide_true, if_true, max_eq_right hlt.le]
    cases mode with
    | never => simpa using fun heq => heq ▸ hlt.ne'
    | warning => exact exists_pure_eq_ok.trans (iff_self_and.mpr fun _ h => nomatch h)
    | always => exact exists_pure_eq_ok.trans (iff_self_and.mpr fun _ h => nomatch h)
  · simp only [hlt, decide_false, Bool.false_eq_true, if_false, max_eq_left (not_lt.mp hlt)]
    exact exists_pure_eq_ok.trans (iff_self_and.mpr fun h _ => h)

theorem extendAxis_iff {mode : Extend} {axis : ℕ} {low high : ℝ} {coordinates : List ℝ}
    {b : ℝ × ℝ} :
    (∃ notices, extendAxis mode axis low high coordinates = .ok (b, notices)) ↔
      b = extended (low, high) coordinates ∧ (mode = .never → b = (low, high)) := by
  unfold extendAxis extended
  cases least? coordinates with
  | none => exact exists_pure_eq_ok.trans (iff_self_and.mpr fun h _ => h)
  | some first =>
    cases greatest? coordinates with
    | none => exact exists_pure_eq_ok.trans (iff_self_and.mpr fun h _ => h)
    | some last =>
      simp only [bind_eq_ok, pure_eq_ok, Prod.exists, Prod.mk.injEq]
      constructor
      · rintro ⟨notices, l, below, hlow, h, above, hhigh, rfl, -⟩
        obtain ⟨hl, hlnever⟩ := (extendBound_low_iff axis).mp ⟨below, hlow⟩
        obtain ⟨hh, hhnever⟩ := (extendBound_high_iff axis).mp ⟨above, hhigh⟩
        refine ⟨by rw [hl, hh], fun hnever => ?_⟩
        rw [hlnever hnever, hhnever hnever]
      · rintro ⟨rfl, hnever⟩
        obtain ⟨below, hlow⟩ := (extendBound_low_iff axis).mpr
          ⟨rfl, fun h => (Prod.mk.injEq .. ▸ hnever h).1⟩
        obtain ⟨above, hhigh⟩ := (extendBound_high_iff axis).mpr
          ⟨rfl, fun h => (Prod.mk.injEq .. ▸ hnever h).2⟩
        exact ⟨_, _, below, hlow, _, above, hhigh, rfl, rfl⟩

/-- The bounds of all axes after the samples were taken in. -/
theorem extendDomain?_iff {mode : Extend} {positions : List (List ℝ)} {axis : ℕ}
    {given out : List (ℝ × ℝ)} :
    (∃ notices, extendDomain? mode positions axis given = .ok (out, notices)) ↔
      out = (given.zipIdx axis).map (fun p => extended p.1 (column positions p.2)) ∧
        (mode = .never → out = given) := by
  induction given generalizing axis out with
  | nil => exact exists_pure_eq_ok.trans (iff_self_and.mpr fun h _ => h)
  | cons b rest ih =>
    obtain ⟨low, high⟩ := b
    unfold extendDomain?
    simp only [bind_eq_ok, pure_eq_ok, Prod.exists, Prod.mk.injEq, List.zipIdx_cons, List.map_cons]
    constructor
    · rintro ⟨notices, l, h, moved, haxis, others, more, hothers, rfl, -⟩
      obtain ⟨hb, hbnever⟩ := extendAxis_iff.mp ⟨moved, haxis⟩
      obtain ⟨ho, honever⟩ := ih.mp ⟨more, hothers⟩
      refine ⟨by rw [hb, ho], fun hnever => ?_⟩
      rw [hbnever hnever, honever hnever]
    · rintro ⟨rfl, hnever⟩
      obtain ⟨moved, haxis⟩ := extendAxis_iff.mpr
        ⟨rfl, fun h => (List.cons.injEq .. ▸ hnever h).1⟩
      obtain ⟨more, hothers⟩ := ih.mpr ⟨rfl, fun h => (List.cons.injEq .. ▸ hnever h).2⟩
      exact ⟨_, _, _, moved, haxis, _, more, hothers, rfl, rfl⟩

/-! ## Spacings -/

theorem firstTooClose_eq_none_iff {l : List ℝ} : firstTooClose l = none ↔ IsSpaced l := by
  refine ⟨isSpaced_of_firstTooClose, fun h => ?_⟩
  unfold firstTooClose
  simp only [Option.map_eq_none_iff, List.findIdx?_eq_none_iff]
  intro close hclose
  obtain ⟨i, hi, rfl⟩ := List.mem_iff_getElem.mp hclose
  rw [List.length_zipWith, List.length_drop] at hi
  have hstep := h i (by omega)
  rw [List.getD_eq_getElem _ _ (by omega), List.getD_eq_getElem _ _ (by omega)] at hstep
  simpa only [List.getElem_zipWith, List.getElem_drop, magnitude_eq, id_eq,
    decide_eq_false_iff_not, not_lt, Nat.add_comm 1 i] using hstep

/-- A spacing that passes the checks, and what is read of what is given for it. -/
def IsUsableSpacing (count : ℕ) (read : Option (Option (List ℝ))) (s : Spacing ℝ) : Prop :=
  match read with
  | none => s = none
  | some entries => entries = s ∧ ∃ l, s = some l ∧ l.length = count ∧ IsSpaced l

theorem spacingOf?_iff {axis count : ℕ} {given : Option (Nested ℝ)} {s : Spacing ℝ} :
    spacingOf? axis count given = .ok s ↔ IsUsableSpacing count (given.map Nested.entries?) s := by
  unfold spacingOf? IsUsableSpacing
  cases given with
  | none => exact pure_eq_ok.trans eq_comm
  | some nested =>
    unfold Nested.entries?
    simp only [Option.map_some, bind_eq_ok, guard_eq_ok, require_eq_ok, ← firstTooClose_eq_none_iff]
    constructor
    · rintro ⟨d, hd, hcount, hclose⟩
      split at hclose
      · simp at hclose
      · rename_i hnone
        rw [pure_eq_ok] at hclose
        exact ⟨by rw [hd, Option.map_some, hclose], _, hclose.symm, not_not.mp hcount, hnone⟩
    · rintro ⟨hentries, l, rfl, hcount, hnone⟩
      obtain ⟨d, hd, rfl⟩ := Option.map_eq_some_iff.mp hentries
      refine ⟨d, hd, not_not.mpr hcount, ?_⟩
      rw [hnone]
      rfl

/-- The spacings of all axes. -/
theorem spacingsFrom?_iff {axis : ℕ} {given : List (ℕ × Option (Nested ℝ))}
    {spacing : List (Spacing ℝ)} : spacingsFrom? axis given = .ok spacing ↔
      List.Forall₂ (fun g s => IsUsableSpacing g.1 (g.2.map Nested.entries?) s) given spacing := by
  induction given generalizing axis spacing with
  | nil => exact pure_eq_ok.trans (eq_comm.trans List.forall₂_nil_left_iff.symm)
  | cons g rest ih =>
    obtain ⟨count, g⟩ := g
    unfold spacingsFrom?
    simp only [bind_eq_ok, pure_eq_ok, spacingOf?_iff, ih, List.forall₂_cons_left_iff]
    constructor
    · rintro ⟨s, hs, others, hothers, rfl⟩
      exact ⟨s, others, hs, hothers, rfl⟩
    · rintro ⟨s, others, hs, hothers, rfl⟩
      exact ⟨s, hs, others, hothers, rfl⟩

/-- Spacings that are given pass the checks if each of them does. -/
theorem spacings?_some_iff {res : List ℕ} {given : List (Option (Nested ℝ))}
    {spacing : List (Spacing ℝ)} : spacings? res (some (some given)) = .ok spacing ↔
      given.length = res.length ∧ spacing.length = res.length ∧
        ∀ (e r : ℕ) x s, res[e]? = some r → (given.map (Option.map Nested.entries?))[e]? = some x →
          spacing[e]? = some s → IsUsableSpacing r x s := by
  unfold spacings?
  simp only [require_some, ok_bind, guard_eq_ok, not_not, spacingsFrom?_iff]
  refine and_congr_right fun hlen => ?_
  have hzip : (res.zip given).length = res.length := by rw [List.length_zip, hlen, min_self]
  constructor
  · intro h
    refine ⟨h.length_eq.symm.trans hzip, fun e r x s hr hx hs => ?_⟩
    obtain ⟨he, rfl⟩ := List.getElem?_eq_some_iff.mp hr
    obtain ⟨he', rfl⟩ := List.getElem?_eq_some_iff.mp hs
    obtain ⟨he'', rfl⟩ := List.getElem?_eq_some_iff.mp hx
    have hget := h.get (hzip.symm ▸ he) he'
    simpa only [List.get_eq_getElem, List.getElem_zip, List.getElem_map] using hget
  · rintro ⟨hcount, h⟩
    refine List.forall₂_iff_get.mpr ⟨hzip.trans hcount.symm, fun e h1 h2 => ?_⟩
    have he : e < res.length := hzip ▸ h1
    simp only [List.get_eq_getElem, List.getElem_zip]
    refine h e _ _ _ (List.getElem?_eq_getElem he) ?_ (List.getElem?_eq_getElem h2)
    rw [List.getElem?_map, List.getElem?_eq_getElem (hlen ▸ he), Option.map_some]

end GridSpline
