import Mathlib
import GridSpline.Proofs.Equations.Affine
import GridSpline.Proofs.Fit.Accepted
import GridSpline.Proofs.Fit.Pivot

/-!
# Spacings of coarser levels

A coarser level reads its spacing off the polygon through the given one. So every one of its steps
is made of given steps, each with the share of it that lies between the two places, and the shares
of a step add up to at least one. Where all given steps have one sign, nothing cancels, and no step
of a coarser level is shorter than the shortest of them. Steps of both signs may cancel, however far
apart neighbours are, and then nodes of a coarser level fall on one place.

## Main definitions

* `IsSpaced` — neighbouring entries are as far apart as the checks ask for.
* `passed` — how much of a step lies before a place.
* `overlap` — the share of a given step in a step of a coarser level.

## Main statements

* `curveAt_eq_sum` — the polygon as a sum over the steps before a place.
* `step_downsampleSpacing` — a step of a coarser level is made of given steps.
* `isSpaced_downsampleSpacing` — spacings that only grow or only fall stay usable.
* `IsAccepted.exists_ladder_spacing` — the spacings of all levels of accepted input.
-/

namespace GridSpline

open Scalar Failure
open GridSpline.Lattice

/-- Neighbouring entries are as far apart as the checks ask for. -/
def IsSpaced (l : List ℝ) : Prop :=
  ∀ i, i + 1 < l.length → minSpacing ≤ |l.getD (i + 1) 0 - l.getD i 0|

theorem minSpacing_pos : (0 : ℝ) < minSpacing := by norm_num [minSpacing]

theorem IsSpaced.isApart {l : List ℝ} (h : IsSpaced l) : IsApart l := by
  intro i hi heq
  have hstep := h i hi
  rw [heq, sub_self, abs_zero] at hstep
  exact absurd hstep (not_le.mpr minSpacing_pos)

/-! ## What the checks establish -/

theorem isSpaced_of_firstTooClose {l : List ℝ} (h : firstTooClose l = none) : IsSpaced l := by
  intro i hi
  unfold firstTooClose at h
  simp only [Option.map_eq_none_iff, List.findIdx?_eq_none_iff] at h
  have hlen : i < (List.zipWith (fun a b => decide (magnitude (b - a) < (minSpacing : ℝ))) l
      (l.drop 1)).length := by
    rw [List.length_zipWith, List.length_drop]
    omega
  have hfalse := h _ (List.getElem_mem hlen)
  rw [List.getD_eq_getElem _ _ hi, List.getD_eq_getElem _ _ (by omega)]
  simpa only [List.getElem_zipWith, List.getElem_drop, magnitude_eq, id_eq,
    decide_eq_false_iff_not, not_lt, Nat.add_comm 1 i] using hfalse

theorem isSpaced_spacingOf? {axis count : ℕ} {given : Option (Nested ℝ)} {l : List ℝ}
    (h : spacingOf? axis count given = .ok (some l)) : IsSpaced l := by
  unfold spacingOf? at h
  cases given with
  | none =>
    rw [pure_eq_ok] at h
    cases h
  | some nested =>
    simp only [bind_eq_ok, guard_eq_ok] at h
    obtain ⟨d, -, -, h⟩ := h
    split at h
    · simp at h
    · rename_i hclose
      rw [pure_eq_ok, Option.some.injEq] at h
      exact h ▸ isSpaced_of_firstTooClose hclose

theorem isSpaced_spacingsFrom? {axis : ℕ} {given : List (ℕ × Option (Nested ℝ))}
    {spacing : List (Spacing ℝ)} (h : spacingsFrom? axis given = .ok spacing) :
    ∀ l, some l ∈ spacing → IsSpaced l := by
  induction given generalizing axis spacing with
  | nil =>
    unfold spacingsFrom? at h
    rw [pure_eq_ok] at h
    subst h
    exact fun l hl => absurd hl List.not_mem_nil
  | cons g rest ih =>
    obtain ⟨count, g⟩ := g
    unfold spacingsFrom? at h
    simp only [bind_eq_ok, pure_eq_ok] at h
    obtain ⟨s, hs, others, hothers, rfl⟩ := h
    intro l hl
    rcases List.mem_cons.mp hl with rfl | hl
    · exact isSpaced_spacingOf? hs
    · exact ih hothers l hl

/-- In samples that pass the checks the neighbours of every spacing are apart. -/
theorem isSpaced_prepare {g : GivenSamples ℝ} {mode : Extend} {data : Prepared ℝ}
    {notices : List (Notice ℝ)} (h : g.prepare mode = .ok (data, notices)) :
    ∀ l, some l ∈ data.spacing → IsSpaced l := by
  obtain ⟨e, spacing, -, -, hspacing, rfl, -⟩ := prepare_eq_ok_iff.mp h
  show ∀ l, some l ∈ spacing → IsSpaced l
  unfold spacings? at hspacing
  cases hgiven : g.spacing with
  | none =>
    rw [hgiven, pure_eq_ok] at hspacing
    subst hspacing
    intro l hl
    simp at hl
  | some entries =>
    simp only [hgiven, bind_eq_ok, guard_eq_ok] at hspacing
    obtain ⟨given, -, -, hspacing⟩ := hspacing
    exact isSpaced_spacingsFrom? hspacing

/-! ## The polygon -/

/-- How much of the step that begins at a node lies before a place. -/
noncomputable def passed (t : ℝ) (j : ℕ) : ℝ := max 0 (min 1 (t - j))

theorem passed_of_le {t : ℝ} {j : ℕ} (h : t ≤ j) : passed t j = 0 := by
  unfold passed
  exact max_eq_left ((min_le_right _ _).trans (by linarith))

theorem passed_of_ge {t : ℝ} {j : ℕ} (h : (j : ℝ) + 1 ≤ t) : passed t j = 1 := by
  unfold passed
  rw [min_eq_left (by linarith), max_eq_right zero_le_one]

theorem passed_of_mem {t : ℝ} {j : ℕ} (h0 : (j : ℝ) ≤ t) (h1 : t ≤ j + 1) :
    passed t j = t - j := by
  unfold passed
  rw [min_eq_right (by linarith), max_eq_right (by linarith)]

theorem passed_mono {s t : ℝ} (h : s ≤ t) (j : ℕ) : passed s j ≤ passed t j := by
  unfold passed
  gcongr

/-- The steps before a place are as long as the way to it. -/
theorem sum_passed {t : ℝ} (h0 : 0 ≤ t) {m : ℕ} (ht : t ≤ m) :
    ∑ j ∈ Finset.range m, passed t j = t := by
  induction m with
  | zero =>
    rw [Finset.sum_range_zero]
    exact le_antisymm h0 (by exact_mod_cast ht)
  | succ m ih =>
    rw [Finset.sum_range_succ]
    rcases le_total t m with hle | hge
    · rw [ih hle, passed_of_le hle, add_zero]
    · have hall : ∑ j ∈ Finset.range m, passed t j = m := by
        rw [Finset.sum_congr rfl fun j hj => passed_of_ge ?_]
        · simp
        · have hj' : (j : ℝ) + 1 ≤ m := by exact_mod_cast Finset.mem_range.mp hj
          exact hj'.trans hge
      rw [hall, passed_of_mem hge (by exact_mod_cast ht)]
      ring

theorem between_eq (a b share : ℝ) : between a b share = (b - a) * share + a := by
  unfold between
  exact if_pos (isNumber _)

/-- The polygon between two nodes. -/
theorem curveAt_of_mem {l : List ℝ} {t : ℝ} {k : ℕ} (hk : (k : ℝ) ≤ t) (hk1 : t < k + 1)
    (hlast : k + 1 < l.length ∨ k + 1 = l.length ∧ t = k) :
    curveAt l t = l.getD k 0 + (t - k) * (l.getD (k + 1) 0 - l.getD k 0) := by
  have hfloor : (cellFloor t).toNat = k := by
    have : ⌊t⌋ = k := Int.floor_eq_iff.mpr ⟨by exact_mod_cast hk, by exact_mod_cast hk1⟩
    rw [cellFloor_eq, this, Int.toNat_natCast]
  unfold curveAt
  simp only [hfloor]
  rcases hlast with hlt | ⟨heq, rfl⟩
  · rw [List.getElem?_eq_getElem (by omega), List.getElem?_eq_getElem hlt,
      List.getD_eq_getElem _ _ (by omega), List.getD_eq_getElem _ _ hlt]
    simp only [isZero_iff, between_eq]
    split
    · rename_i hzero
      rw [hzero, zero_mul, add_zero]
    · ring
  · rw [List.getElem?_eq_getElem (by omega), List.getElem?_eq_none (by omega),
      List.getD_eq_getElem _ _ (by omega), sub_self, zero_mul, add_zero]

/-- The polygon as a sum over the steps before a place. -/
theorem curveAt_eq_sum {l : List ℝ} {t : ℝ} (h0 : 0 ≤ t) (ht : t + 1 ≤ l.length) :
    curveAt l t = l.getD 0 0 +
      ∑ j ∈ Finset.range (l.length - 1), passed t j * (l.getD (j + 1) 0 - l.getD j 0) := by
  obtain ⟨k, hk⟩ : ∃ k, k = ⌊t⌋₊ := ⟨_, rfl⟩
  have hlow : (k : ℝ) ≤ t := hk ▸ Nat.floor_le h0
  have hhigh : t < k + 1 := hk ▸ Nat.lt_floor_add_one t
  have hlt : k < l.length := by
    have : (k : ℝ) < l.length := by linarith
    exact_mod_cast this
  -- The steps before the node below the place count in full, and add up to its entry.
  have hbelow : ∑ j ∈ Finset.range k, passed t j * (l.getD (j + 1) 0 - l.getD j 0) =
      l.getD k 0 - l.getD 0 0 := by
    rw [← Finset.sum_range_sub (fun j => l.getD j 0) k]
    refine Finset.sum_congr rfl fun j hj => ?_
    have hj' : (j : ℝ) + 1 ≤ k := by exact_mod_cast Finset.mem_range.mp hj
    rw [passed_of_ge (hj'.trans hlow), one_mul]
  rcases Nat.lt_or_ge (k + 1) l.length with hnext | hlast
  · have habove : ∀ j ≥ k + 1, passed t j * (l.getD (j + 1) 0 - l.getD j 0) = 0 := by
      intro j hj
      have hj' : (k : ℝ) + 1 ≤ j := by exact_mod_cast hj
      rw [passed_of_le (hhigh.le.trans hj'), zero_mul]
    rw [curveAt_of_mem hlow hhigh (Or.inl hnext),
      Finset.eventually_constant_sum habove (show k + 1 ≤ l.length - 1 by omega),
      Finset.sum_range_succ, hbelow, passed_of_mem hlow hhigh.le]
    ring
  · have hcount : k + 1 = l.length := by omega
    have hend : t = k := by
      have : (k : ℝ) + 1 = l.length := by exact_mod_cast hcount
      linarith
    rw [curveAt_of_mem hlow hhigh (Or.inr ⟨hcount, hend⟩), ← hcount, Nat.add_sub_cancel, hbelow,
      hend]
    ring

/-! ## Steps of a coarser level -/

/-- The place of a node of a coarser level on the polygon. -/
noncomputable def coarsePlace (last count i : ℕ) : ℝ := i * ((last : ℝ) / ((count - 1 : ℕ) : ℝ))

theorem spreadPlace_eq {last count i : ℕ} (hcount : 2 ≤ count) :
    (spreadPlace last count i : ℝ) = coarsePlace last count i := by
  unfold spreadPlace coarsePlace
  split
  · rename_i hlast
    have hne : ((count - 1 : ℕ) : ℝ) ≠ 0 := by
      rw [Nat.cast_ne_zero]
      omega
    rw [show i = count - 1 by omega]
    field_simp
  · rfl

theorem coarsePlace_succ_sub (last count i : ℕ) :
    coarsePlace last count (i + 1) - coarsePlace last count i =
      (last : ℝ) / ((count - 1 : ℕ) : ℝ) := by
  unfold coarsePlace
  push_cast
  ring

theorem coarsePlace_nonneg (last count i : ℕ) : 0 ≤ coarsePlace last count i := by
  unfold coarsePlace
  positivity

theorem coarsePlace_mono (last count i : ℕ) :
    coarsePlace last count i ≤ coarsePlace last count (i + 1) := by
  rw [← sub_nonneg, coarsePlace_succ_sub]
  positivity

theorem coarsePlace_le {last count i : ℕ} (hi : i < count) : coarsePlace last count i ≤ last := by
  unfold coarsePlace
  rcases Nat.eq_zero_or_pos (count - 1) with hzero | hpos
  · rw [show i = 0 by omega, Nat.cast_zero, zero_mul]
    exact Nat.cast_nonneg last
  · have hle : (i : ℝ) ≤ ((count - 1 : ℕ) : ℝ) := by exact_mod_cast (show i ≤ count - 1 by omega)
    rw [mul_div_assoc', div_le_iff₀ (by exact_mod_cast hpos), mul_comm]
    gcongr

/-- The share of a given step in a step of a coarser level. -/
noncomputable def overlap (last count i j : ℕ) : ℝ :=
  passed (coarsePlace last count (i + 1)) j - passed (coarsePlace last count i) j

theorem overlap_nonneg (last count i j : ℕ) : 0 ≤ overlap last count i j :=
  sub_nonneg.mpr (passed_mono (coarsePlace_mono last count i) j)

/-- The shares of a step add up to its length, measured in given steps. -/
theorem sum_overlap {last count i : ℕ} (hi : i + 1 < count) :
    ∑ j ∈ Finset.range last, overlap last count i j = (last : ℝ) / ((count - 1 : ℕ) : ℝ) := by
  unfold overlap
  rw [Finset.sum_sub_distrib, sum_passed (coarsePlace_nonneg _ _ _) (coarsePlace_le hi),
    sum_passed (coarsePlace_nonneg _ _ _) (coarsePlace_le (by omega)), coarsePlace_succ_sub]

theorem one_le_sum_overlap {last count i : ℕ} (hi : i + 1 < count) (hcount : count ≤ last + 1) :
    1 ≤ ∑ j ∈ Finset.range last, overlap last count i j := by
  have hpos : 0 < count - 1 := by omega
  rw [sum_overlap hi, one_le_div (by exact_mod_cast hpos)]
  exact_mod_cast (show count - 1 ≤ last by omega)

section Downsample

variable {l : List ℝ} {count : ℕ} (hl : l ≠ []) (hcount : 2 ≤ count)

include hl hcount

theorem getD_downsampleSpacing {i : ℕ} (hi : i < count) :
    (downsampleSpacing l count).getD i 0 = l.getD 0 0 + ∑ j ∈ Finset.range (l.length - 1),
      passed (coarsePlace (l.length - 1) count i) j * (l.getD (j + 1) 0 - l.getD j 0) := by
  have hlen : 0 < l.length := List.length_pos_iff.mpr hl
  have hplace : coarsePlace (l.length - 1) count i ≤ (l.length - 1 : ℕ) := coarsePlace_le hi
  rw [Nat.cast_sub hlen, Nat.cast_one] at hplace
  rw [List.getD_eq_getElem _ _ (by rwa [length_downsampleSpacing])]
  simp only [downsampleSpacing, List.getElem_map, List.getElem_range]
  rw [if_neg (by omega), spreadPlace_eq hcount,
    curveAt_eq_sum (coarsePlace_nonneg _ _ _) (by linarith)]

/-- A step of a coarser level is made of given steps. -/
theorem step_downsampleSpacing {i : ℕ} (hi : i + 1 < count) :
    (downsampleSpacing l count).getD (i + 1) 0 - (downsampleSpacing l count).getD i 0 =
      ∑ j ∈ Finset.range (l.length - 1),
        overlap (l.length - 1) count i j * (l.getD (j + 1) 0 - l.getD j 0) := by
  rw [getD_downsampleSpacing hl hcount hi, getD_downsampleSpacing hl hcount (by omega),
    add_sub_add_left_eq_sub, ← Finset.sum_sub_distrib]
  refine Finset.sum_congr rfl fun j _ => ?_
  unfold overlap
  ring

/-- A bound for all given steps in one direction is one for the steps of a coarser level. -/
theorem le_step_downsampleSpacing (hle : count ≤ l.length) {c sign : ℝ} (hc : 0 ≤ c)
    (hsteps : ∀ j, j + 1 < l.length → c ≤ sign * (l.getD (j + 1) 0 - l.getD j 0)) {i : ℕ}
    (hi : i + 1 < count) :
    c ≤ sign * ((downsampleSpacing l count).getD (i + 1) 0 -
      (downsampleSpacing l count).getD i 0) := by
  have hshares : 1 ≤ ∑ j ∈ Finset.range (l.length - 1), overlap (l.length - 1) count i j :=
    one_le_sum_overlap hi (by omega)
  rw [step_downsampleSpacing hl hcount hi, Finset.mul_sum]
  calc c ≤ (∑ j ∈ Finset.range (l.length - 1), overlap (l.length - 1) count i j) * c :=
        le_mul_of_one_le_left hc hshares
    _ = ∑ j ∈ Finset.range (l.length - 1), overlap (l.length - 1) count i j * c :=
        Finset.sum_mul _ _ _
    _ ≤ _ := Finset.sum_le_sum fun j hj => by
        rw [mul_left_comm]
        have hlt := Finset.mem_range.mp hj
        exact mul_le_mul_of_nonneg_left (hsteps j (by omega)) (overlap_nonneg _ _ _ _)

end Downsample

/-- As many nodes as are given keep the spacing. -/
theorem downsampleSpacing_length {l : List ℝ} (hl : 2 ≤ l.length) :
    downsampleSpacing l l.length = l := by
  refine List.ext_getElem (length_downsampleSpacing l _) fun i h1 h2 => ?_
  have hne : ((l.length - 1 : ℕ) : ℝ) ≠ 0 := by
    rw [Nat.cast_ne_zero]
    omega
  have hlast : i + 1 < l.length ∨ i + 1 = l.length := by omega
  simp only [downsampleSpacing, List.getElem_map, List.getElem_range]
  rw [if_neg (by omega), spreadPlace_eq hl, coarsePlace, div_self hne, mul_one,
    curveAt_of_mem le_rfl (lt_add_one _) (hlast.imp_right fun h => ⟨h, rfl⟩), sub_self, zero_mul,
    add_zero, List.getD_eq_getElem _ _ h2]

/-! ## Spacings that only grow or only fall -/

/-- The steps of such a spacing have one sign. -/
theorem isMonotoneSpacing_iff {l : List ℝ} : IsMonotoneSpacing (some l) ↔
    ∃ sign : ℝ, (sign = 1 ∨ sign = -1) ∧
      ∀ j, j + 1 < l.length → 0 < sign * (l.getD (j + 1) 0 - l.getD j 0) := by
  have hup : l.Pairwise (· < ·) ↔ ∀ j, j + 1 < l.length → 0 < l.getD (j + 1) 0 - l.getD j 0 := by
    rw [← List.isChain_iff_pairwise, List.isChain_iff_getElem]
    refine forall_congr' fun j => forall_congr' fun hj => ?_
    rw [List.getD_eq_getElem _ _ hj, List.getD_eq_getElem _ _ (by omega), sub_pos]
  have hdown : l.Pairwise (· > ·) ↔ ∀ j, j + 1 < l.length → l.getD (j + 1) 0 - l.getD j 0 < 0 := by
    rw [← List.isChain_iff_pairwise, List.isChain_iff_getElem]
    refine forall_congr' fun j => forall_congr' fun hj => ?_
    rw [List.getD_eq_getElem _ _ hj, List.getD_eq_getElem _ _ (by omega), sub_neg, gt_iff_lt]
  constructor
  · intro h
    rcases h l rfl with h | h
    · exact ⟨1, Or.inl rfl, by simpa using hup.mp h⟩
    · refine ⟨-1, Or.inr rfl, fun j hj => ?_⟩
      have := hdown.mp h j hj
      linarith
  · rintro ⟨sign, rfl | rfl, h⟩ m hm
    · rw [Option.some.injEq] at hm
      exact Or.inl (hm ▸ hup.mpr (by simpa using h))
    · rw [Option.some.injEq] at hm
      refine Or.inr (hm ▸ hdown.mpr fun j hj => ?_)
      have := h j hj
      linarith

theorem IsMonotoneSpacing.isApart {l : List ℝ} (h : IsMonotoneSpacing (some l)) : IsApart l := by
  intro i hi
  exact h.nodePlace_ne (fun _ hl => congrArg List.length (Option.some.inj hl).symm)
    (Nat.lt_of_succ_lt hi) hi (Nat.lt_succ_self i).ne

/-- Spacings that only grow or only fall stay usable: a coarser level has one of the same kind, with
its neighbours as far apart. -/
theorem isSpaced_downsampleSpacing {l : List ℝ} {count : ℕ} (h : IsMonotoneSpacing (some l))
    (hspaced : IsSpaced l) (hcount : 2 ≤ count) (hle : count ≤ l.length) :
    IsMonotoneSpacing (some (downsampleSpacing l count)) ∧ IsSpaced (downsampleSpacing l count) := by
  have hl : l ≠ [] := List.length_pos_iff.mp (by omega)
  obtain ⟨sign, hsign, hpos⟩ := isMonotoneSpacing_iff.mp h
  have habs : |sign| = 1 := by
    rcases hsign with rfl | rfl <;> simp
  have hsteps : ∀ j, j + 1 < l.length → minSpacing ≤ sign * (l.getD (j + 1) 0 - l.getD j 0) := by
    intro j hj
    have := hspaced j hj
    rwa [← one_mul |_|, ← habs, ← abs_mul, abs_of_pos (hpos j hj)] at this
  have hcoarse : ∀ i, i + 1 < (downsampleSpacing l count).length → minSpacing ≤
      sign * ((downsampleSpacing l count).getD (i + 1) 0 -
        (downsampleSpacing l count).getD i 0) := by
    intro i hi
    rw [length_downsampleSpacing] at hi
    exact le_step_downsampleSpacing hl hcount hle minSpacing_pos.le hsteps hi
  constructor
  · exact isMonotoneSpacing_iff.mpr ⟨sign, hsign,
      fun i hi => minSpacing_pos.trans_le (hcoarse i hi)⟩
  · intro i hi
    rw [← one_mul |_|, ← habs, ← abs_mul]
    exact (hcoarse i hi).trans (le_abs_self _)

/-- Where neighbours are apart both differences have a weight. -/
theorem IsSpaced.exists_differenceWeights? {l : List ℝ} (h : IsSpaced l) {k : ℕ} (hk : 1 ≤ k)
    (hlast : k + 2 ≤ l.length) :
    ∃ w, differenceWeights? (some l) k = .ok w ∧ 0 < w.1 ∧ 0 < w.2 := by
  have hlength : ∀ m, some l = some m → m.length = l.length := fun m hm => by
    rw [Option.some.inj hm]
  have hapart : ∀ m, some l = some m → IsApart m := fun m hm => Option.some.inj hm ▸ h.isApart
  have hcoord : (firstAxis l.length).coord k = k := by
    rw [coord_firstAxis, Nat.mod_eq_of_lt (by omega)]
  have hint : (firstAxis l.length).IsInterior k := by
    unfold Axis.IsInterior
    rw [hcoord]
    exact ⟨hk, hlast⟩
  have hw := differenceWeights?_eq hint hlength
  rw [hcoord] at hw
  exact ⟨_, hw, differenceWeights_pos hlength hapart hk hlast⟩

/-! ## All levels -/

theorem getElem?_spacingOn {data : Prepared ℝ} {res : List ℕ} {e r : ℕ} {fine : List ℝ}
    (hfine : data.spacing[e]? = some (some fine)) (hr : res[e]? = some r) :
    (data.spacingOn res)[e]? = some (some (downsampleSpacing fine r)) := by
  unfold Prepared.spacingOn
  rw [List.getElem?_zipWith, hfine, hr]
  rfl

namespace Fit

/-- The spacings of all levels of accepted input. The given steps are as long as the checks ask for;
those of a level are made of them, and are as long again where the given ones have one sign. -/
theorem IsAccepted.exists_ladder_spacing {f : Fit ℝ} {c : CheckedSettings ℝ} {data : Prepared ℝ}
    (h : f.IsAccepted c data) :
    ∃ ladder, (fitLadder? data.res : Except (Failure ℝ) _) = .ok ladder ∧ ladder ≠ [] ∧
      ∀ res ∈ ladder, ∀ channel < data.channels, ∀ secondPass,
        ∃ level, Level.make? (f.begun c data ladder) res channel secondPass = .ok level ∧
          ∀ (e : ℕ) (fine : List ℝ), data.spacing[e]? = some (some fine) →
            ∃ coarse, level.spacing[e]? = some (some coarse) ∧ res[e]? = some coarse.length ∧
              IsSpaced fine ∧
              (∀ i, i + 1 < coarse.length →
                coarse.getD (i + 1) 0 - coarse.getD i 0 = ∑ j ∈ Finset.range (fine.length - 1),
                  overlap (fine.length - 1) coarse.length i j *
                    (fine.getD (j + 1) 0 - fine.getD j 0) ∧
                1 ≤ ∑ j ∈ Finset.range (fine.length - 1),
                  overlap (fine.length - 1) coarse.length i j) ∧
              (coarse.length = fine.length → coarse = fine) ∧
              (IsMonotoneSpacing (some fine) → IsMonotoneSpacing (some coarse) ∧
                IsSpaced coarse ∧ ∀ k, 1 ≤ k → k + 2 ≤ coarse.length →
                  ∃ w, differenceWeights? (some coarse) k = .ok w ∧ 0 < w.1 ∧ 0 < w.2) := by
  obtain ⟨notices, hprepare⟩ := h.prepared
  obtain ⟨ladder, hladder, hlast, -, hlevels⟩ :=
    exists_fitLadder? h.isValid.axes h.isValid.resolutions
  have hne : ladder ≠ [] := fun hnil => by simp [hnil] at hlast
  refine ⟨ladder, hladder, hne, fun res hres channel hc secondPass => ?_⟩
  have hbetween := hlevels res hres
  have htwo : ∀ r ∈ res, 2 ≤ r := forall_le_level hbetween (by decide) h.isValid.resolutions
  obtain ⟨level, hmake, -, hlaid, -⟩ :=
    (h.isReady_begun ladder).exists_make? hbetween.length_eq htwo hc secondPass
  refine ⟨level, hmake, fun e fine hfine => ?_⟩
  have he : e < data.spacing.length := (List.getElem?_eq_some_iff.mp hfine).1
  have hefinal : e < data.res.length := h.isValid.spacing.length_eq ▸ he
  have heres : e < res.length := hbetween.length_eq ▸ hefinal
  have hfinal := (h.isValid.spacing.get he hefinal) fine (List.getElem?_eq_some_iff.mp hfine).2
  have hlevel := hbetween.get heres hefinal
  have hcount := htwo _ (List.getElem_mem heres)
  have hspaced := isSpaced_prepare hprepare fine (List.mem_of_getElem? hfine)
  simp only [List.get_eq_getElem] at hfinal hlevel
  have hlength : 2 ≤ fine.length := by omega
  have hle : res[e] ≤ fine.length := by omega
  have hfine0 : fine ≠ [] := List.length_pos_iff.mp (by omega)
  refine ⟨downsampleSpacing fine res[e], ?_, ?_, hspaced, ?_, ?_, ?_⟩
  · rw [hlaid.spacing]
    exact getElem?_spacingOn hfine (List.getElem?_eq_getElem heres)
  · rw [length_downsampleSpacing, List.getElem?_eq_getElem heres]
  · rw [length_downsampleSpacing]
    exact fun i hi => ⟨step_downsampleSpacing hfine0 hcount hi,
      one_le_sum_overlap hi (by omega)⟩
  · rw [length_downsampleSpacing]
    rintro heq
    rw [heq, downsampleSpacing_length hlength]
  · intro hmono
    obtain ⟨hcoarse, hapart⟩ := isSpaced_downsampleSpacing hmono hspaced hcount hle
    exact ⟨hcoarse, hapart, fun k hk hk2 => hapart.exists_differenceWeights? hk hk2⟩

/-! ## Steps that cancel -/

/-- A sample on a lattice whose nodes go forth and back along one axis. -/
noncomputable def folded : Fit ℝ :=
  narrowOn #[.integer 7, .integer 7] (some (some
    [some (.block { shape := [7], data := #[0, 1, 0, 1, 0, 1, 0] }),
      some (.block { shape := [7], data := #[0, 0.1, 0.2, 0.3, 0.4, 0.5, 0.6] })]))

/-- What the checks make of its samples. -/
noncomputable def foldedData : Prepared ℝ :=
  narrowDataOn 7 7 [some [0, 1, 0, 1, 0, 1, 0], some [0, 0.1, 0.2, 0.3, 0.4, 0.5, 0.6]]

theorem isAccepted_folded : folded.IsAccepted narrowSettings foldedData := by
  refine isAccepted_narrowOn rfl ?_
  have hzig : firstTooClose ([0, 1, 0, 1, 0, 1, 0] : List ℝ) = none := by
    norm_num [firstTooClose, minSpacing]
  have hup : firstTooClose ([0, 0.1, 0.2, 0.3, 0.4, 0.5, 0.6] : List ℝ) = none := by
    norm_num [firstTooClose, minSpacing]
  simp [spacings?, spacingsFrom?, spacingOf?, Dense.ofNested?, Dense.entries, size, hzig, hup]

theorem fitLadder?_folded :
    (fitLadder? foldedData.res : Except (Failure ℝ) _) = .ok [[4, 4], [7, 7]] := by
  have hgrowth : growth? 7 (startResolution : ℝ) (growthRatio : ℝ) = .ok (2, 7 / 4) := by
    unfold growth?
    rw [startResolution_cast, growthRatio_cast]
    norm_num
  have hlevels : (List.range 2).map (levelOn [7, 7] (7 / 4)) = [[4, 4], [7, 7]] := by
    have h0 : ⌊(4 : ℝ) + 1 / 2⌋ = 4 := by norm_num [Int.floor_eq_iff]
    have h1 : ⌊(15 : ℝ) / 2⌋ = 7 := by norm_num [Int.floor_eq_iff]
    norm_num [List.range_succ, levelOn, snap, h0, h1]
  show (ladder? [7, 7] _ _ >>= _) = _
  unfold ladder?
  rw [show ([7, 7] : List ℤ).max? = some 7 from rfl, require_some, ok_bind, hgrowth, ok_bind]
  show ((radii _ 2 _).mapM _ >>= _ >>= _) = _
  rw [mapM_levelAt _ (by norm_num), hlevels]
  rfl

/-- Neighbours that are one apart: on the coarser level all nodes of the folded axis fall on one
place, and those of the other axis stay apart. -/
theorem exists_spacing_folded : ∃ level,
    Level.make? (folded.begun narrowSettings foldedData [[4, 4], [7, 7]]) [4, 4] 0 false =
      .ok level ∧
    (∃ flat, level.spacing[0]? = some (some flat) ∧ flat.length = 4 ∧
      ∀ i, i + 1 < 4 → flat.getD (i + 1) 0 = flat.getD i 0) ∧
    ∃ apart, level.spacing[1]? = some (some apart) ∧ IsSpaced apart := by
  obtain ⟨ladder, hladder, -, hlevels⟩ := isAccepted_folded.exists_ladder_spacing
  rw [fitLadder?_folded, Except.ok.injEq] at hladder
  subst hladder
  obtain ⟨level, hmake, hspacing⟩ := hlevels [4, 4] List.mem_cons_self 0 Nat.one_pos false
  obtain ⟨flat, hflat, hcount, -, hsteps, -⟩ := hspacing 0 [0, 1, 0, 1, 0, 1, 0] rfl
  obtain ⟨apart, hapart, -, -, -, -, hup⟩ := hspacing 1 [0, 0.1, 0.2, 0.3, 0.4, 0.5, 0.6] rfl
  have hgrows : IsMonotoneSpacing (some [0, 0.1, 0.2, 0.3, 0.4, 0.5, 0.6]) := by
    intro l hl
    rw [← Option.some.inj hl]
    norm_num
  have hlength : flat.length = 4 := (Option.some.inj hcount).symm
  refine ⟨level, hmake, ⟨flat, hflat, hlength, fun i hi => ?_⟩, apart, hapart, (hup hgrows).2.1⟩
  -- A step forth and a step back make up every step of the coarser level.
  rw [← sub_eq_zero, (hsteps i (by omega)).1, hlength]
  have hi3 : i < 3 := by omega
  interval_cases i <;> norm_num [Finset.sum_range_succ, overlap, passed, coarsePlace]

end Fit

end GridSpline
