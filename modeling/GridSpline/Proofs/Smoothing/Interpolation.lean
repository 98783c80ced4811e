import Mathlib
import GridSpline.Proofs.Smoothing.Bracket

/-!
# The factor between the entries of a table

A polygon whose corners are at the logarithms of the entries of an axis is read through brackets:
its value is the mean of two corners. The same value is a sum over the sides of the polygon, each
with the part of it that has been passed; as a function of the value that is looked up it is
therefore continuous, also where one bracket ends and the next one begins, and at the ends of the
axis.

A table is a polygon of polygons. So its logarithm between the entries is a convex combination of
four neighbours, takes up the entries at the knots, and varies continuously with both numbers it is
looked up for.

## Main definitions

* `Bracket.mean` — the mean of two corners of a polygon by the shares of a bracket.
* `polygonAt` — the polygon as a sum over its sides.
* `SmoothingTable.Interpolates` — a function interpolates between the entries of a table.

## Main statements

* `Bracket.Splits.mean_eq_polygonAt` — a polygon read through a bracket.
* `IsLogAxis.continuous_polygonAt` — polygons are continuous.
* `SmoothingTable.IsFull.interpolates` — so do tables, between their entries.
* `exists_splits_interpolates` — brackets, and the factor that is read with them.
-/

namespace GridSpline

open Scalar Failure

variable {axis : List ℝ} {value : ℝ}

/-! ## Polygons -/

/-- The mean of two corners of a polygon by the shares of a bracket. -/
def Bracket.mean (b : Bracket ℝ) (corner : ℕ → ℝ) : ℝ :=
  b.weight * corner b.index.toNat + (1 - b.weight) * corner (b.index.toNat + 1)

/-- How much of the side between two entries has been passed at a value. -/
noncomputable def sidePassed (axis : List ℝ) (value : ℝ) (j : ℕ) : ℝ :=
  max 0 (min 1 ((Real.log (clamped axis value) - logAt axis j) /
    (logAt axis (j + 1) - logAt axis j)))

/-- The polygon with the corners at the logarithms of the entries, as a sum over its sides. -/
noncomputable def polygonAt (axis : List ℝ) (corner : ℕ → ℝ) (value : ℝ) : ℝ :=
  corner 0 + ∑ j ∈ Finset.range (axis.length - 1),
    sidePassed axis value j * (corner (j + 1) - corner j)

namespace IsLogAxis

variable (h : IsLogAxis axis)

include h

theorem sidePassed_of_ge {j : ℕ} (hj : j + 1 < axis.length)
    (hge : logAt axis (j + 1) ≤ Real.log (clamped axis value)) : sidePassed axis value j = 1 := by
  have hside := h.logAt_lt (Nat.lt_succ_self j) hj
  unfold sidePassed
  rw [min_eq_left, max_eq_right zero_le_one]
  rw [le_div_iff₀ (by linarith)]
  linarith

theorem sidePassed_of_le {j : ℕ} (hj : j + 1 < axis.length)
    (hle : Real.log (clamped axis value) ≤ logAt axis j) : sidePassed axis value j = 0 := by
  have hside := h.logAt_lt (Nat.lt_succ_self j) hj
  unfold sidePassed
  refine max_eq_left ((min_le_right _ _).trans ?_)
  exact div_nonpos_of_nonpos_of_nonneg (by linarith) (by linarith)

/-- The sides before a value count in full, the one with the value as far as it has been passed, and
those behind it not at all. -/
theorem polygonAt_of_mem {k : ℕ} (hk : k + 1 < axis.length)
    (hlower : logAt axis k ≤ Real.log (clamped axis value))
    (hupper : Real.log (clamped axis value) ≤ logAt axis (k + 1)) (corner : ℕ → ℝ) :
    polygonAt axis corner value =
      corner k + sidePassed axis value k * (corner (k + 1) - corner k) := by
  have hbefore : ∀ j ∈ Finset.range k, sidePassed axis value j * (corner (j + 1) - corner j) =
      corner (j + 1) - corner j := by
    intro j hj
    have hj' := Finset.mem_range.mp hj
    rw [h.sidePassed_of_ge (by omega) ((h.logAt_le (by omega) (by omega)).trans hlower), one_mul]
  have hbehind : ∀ j ∈ Finset.Ico (k + 1) (axis.length - 1),
      sidePassed axis value j * (corner (j + 1) - corner j) = 0 := by
    intro j hj
    obtain ⟨hkj, hj'⟩ := Finset.mem_Ico.mp hj
    rw [h.sidePassed_of_le (by omega) (hupper.trans (h.logAt_le hkj (by omega))), zero_mul]
  unfold polygonAt
  rw [← Finset.sum_range_add_sum_Ico _ (show k + 1 ≤ axis.length - 1 by omega),
    Finset.sum_eq_zero hbehind, add_zero, Finset.sum_range_succ, Finset.sum_congr rfl hbefore,
    Finset.sum_range_sub]
  ring

/-- Polygons are continuous, also in a parameter on which their corners depend. -/
theorem continuous_polygonAt {X : Type} [TopologicalSpace X] {corner : X → ℕ → ℝ} {v : X → ℝ}
    (hcorner : ∀ i, Continuous fun x => corner x i) (hv : Continuous v) :
    Continuous fun x => polygonAt axis (corner x) (v x) := by
  have hclamped : Continuous fun x => clamped axis (v x) :=
    (hv.max continuous_const).min continuous_const
  have hlog : Continuous fun x => Real.log (clamped axis (v x)) :=
    hclamped.log fun x => (h.clamped_pos (v x)).ne'
  have hpassed : ∀ j, Continuous fun x => sidePassed axis (v x) j := fun j =>
    continuous_const.max (continuous_const.min ((hlog.sub continuous_const).div_const _))
  exact (hcorner 0).add (continuous_finsetSum _ fun j _ =>
    (hpassed j).mul ((hcorner (j + 1)).sub (hcorner j)))

end IsLogAxis

/-- A polygon read through a bracket. -/
theorem Bracket.Splits.mean_eq_polygonAt {b : Bracket ℝ} (hb : b.Splits axis value)
    (h : IsLogAxis axis) (corner : ℕ → ℝ) : b.mean corner = polygonAt axis corner value := by
  have hnext := hb.index_lt
  obtain ⟨-, -, hw0, hw1, hlog⟩ := hb
  unfold Bracket.mean
  generalize b.index.toNat = k at hnext hlog ⊢
  have hside : logAt axis k < logAt axis (k + 1) := h.logAt_lt (Nat.lt_succ_self k) hnext
  change b.weight * logAt axis k + (1 - b.weight) * logAt axis (k + 1) = _ at hlog
  have hlower : logAt axis k ≤ Real.log (clamped axis value) := by nlinarith
  have hupper : Real.log (clamped axis value) ≤ logAt axis (k + 1) := by nlinarith
  have hshare : (Real.log (clamped axis value) - logAt axis k) /
      (logAt axis (k + 1) - logAt axis k) = 1 - b.weight := by
    rw [div_eq_iff (by linarith), ← hlog]
    ring
  rw [h.polygonAt_of_mem hnext hlower hupper, sidePassed, hshare, min_eq_right (by linarith),
    max_eq_right (by linarith)]
  ring

/-- At an entry the polygon has the corner of the entry. -/
theorem IsLogAxis.polygonAt_getD (h : IsLogAxis axis) (corner : ℕ → ℝ) {i : ℕ}
    (hi : i < axis.length) : polygonAt axis corner (axis.getD i 0) = corner i := by
  have hlen := h.length
  rcases Nat.lt_or_ge (i + 1) axis.length with hnext | hlast
  · have hb : Bracket.Splits { index := (i : ℤ), weight := 1 } axis (axis.getD i 0) := by
      refine Bracket.Splits.ofNat hnext zero_le_one le_rfl ?_
      rw [h.clamped_getD hi, one_mul, sub_self, zero_mul, add_zero]
      rfl
    rw [← hb.mean_eq_polygonAt h]
    show 1 * corner i + (1 - 1) * corner (i + 1) = corner i
    ring
  · obtain ⟨k, rfl⟩ : ∃ k, i = k + 1 := ⟨i - 1, by omega⟩
    have hb : Bracket.Splits { index := (k : ℤ), weight := 0 } axis (axis.getD (k + 1) 0) := by
      refine Bracket.Splits.ofNat hi le_rfl zero_le_one ?_
      rw [h.clamped_getD hi, zero_mul, sub_zero, one_mul, zero_add]
      rfl
    rw [← hb.mean_eq_polygonAt h]
    show 0 * corner k + (1 - 0) * corner (k + 1) = corner (k + 1)
    ring

theorem IsLogAxis.polygonAt_clamped (h : IsLogAxis axis) (corner : ℕ → ℝ) (value : ℝ) :
    polygonAt axis corner (clamped axis value) = polygonAt axis corner value := by
  unfold polygonAt sidePassed
  rw [h.clamped_clamped]

theorem Bracket.Splits.mean_mem {b : Bracket ℝ} (hb : b.Splits axis value)
    {corner : ℕ → ℝ} {s : Set ℝ} (hs : Convex ℝ s) (h0 : corner b.index.toNat ∈ s)
    (h1 : corner (b.index.toNat + 1) ∈ s) : b.mean corner ∈ s :=
  hs h0 h1 hb.weight_nonneg (sub_nonneg.mpr hb.weight_le_one) (add_sub_cancel _ _)

/-! ## Tables -/

namespace SmoothingTable

/-- A table with two axes and a number for every pair of their entries. -/
structure IsFull (t : SmoothingTable ℝ) : Prop where
  counts : IsLogAxis t.counts
  deviations : IsLogAxis t.deviations
  rows : t.logs.length = t.counts.length
  columns : ∀ row ∈ t.logs, row.length = t.deviations.length

/-- Four neighbours in a table. -/
def corners (t : SmoothingTable ℝ) (i j : ℕ) : Set ℝ :=
  {t.log i j, t.log i (j + 1), t.log (i + 1) j, t.log (i + 1) (j + 1)}

/-- A function interpolates between the entries of a table, by the logarithms of its axes. -/
structure Interpolates (t : SmoothingTable ℝ) (f : ℝ → ℝ → ℝ) : Prop where
  /-- There is an entry for every pair of knots. -/
  full : t.IsFull
  /-- Between knots four neighbours are combined, by the shares of the numbers in their brackets.
  The combination is convex. -/
  combines : ∀ count deviation, ∃ row column : Bracket ℝ,
    row.Splits t.counts count ∧ column.Splits t.deviations deviation ∧
      f count deviation = t.blend row column ∧
      f count deviation ∈ convexHull ℝ (t.corners row.index.toNat column.index.toNat)
  /-- Numbers beyond the knots are taken to the ends. -/
  clamps : ∀ count deviation,
    f count deviation = f (clamped t.counts count) (clamped t.deviations deviation)
  /-- Nothing jumps, neither at a knot nor between them. -/
  continuous : Continuous fun p : ℝ × ℝ => f p.1 p.2
  /-- At the knots the entries are taken up. -/
  knots : ∀ i < t.counts.length, ∀ j < t.deviations.length,
    f (t.counts.getD i 0) (t.deviations.getD j 0) = t.log i j

variable {t : SmoothingTable ℝ}

theorem blend_eq_mean (row column : Bracket ℝ) :
    t.blend row column = row.mean fun i => column.mean fun j => t.log i j := by
  unfold SmoothingTable.blend Bracket.mean
  ring

/-- The logarithm of a table, a polygon of polygons. -/
noncomputable def surface (t : SmoothingTable ℝ) (count deviation : ℝ) : ℝ :=
  polygonAt t.counts (fun i => polygonAt t.deviations (fun j => t.log i j) deviation) count

theorem IsFull.blend_eq_surface (h : t.IsFull) {row column : Bracket ℝ} {count deviation : ℝ}
    (hrow : row.Splits t.counts count) (hcolumn : column.Splits t.deviations deviation) :
    t.blend row column = t.surface count deviation := by
  rw [blend_eq_mean, hrow.mean_eq_polygonAt h.counts]
  unfold surface
  congr 1
  funext i
  exact hcolumn.mean_eq_polygonAt h.deviations _

theorem IsFull.interpolates (h : t.IsFull) : t.Interpolates t.surface where
  full := h
  combines count deviation := by
    have hrow := h.counts.splits_bracketIn count
    have hcolumn := h.deviations.splits_bracketIn deviation
    refine ⟨_, _, hrow, hcolumn, (h.blend_eq_surface hrow hcolumn).symm, ?_⟩
    rw [← h.blend_eq_surface hrow hcolumn, blend_eq_mean]
    refine hrow.mean_mem (convex_convexHull ℝ _) ?_ ?_
    · exact hcolumn.mean_mem (convex_convexHull ℝ _) (subset_convexHull ℝ _ (by simp [corners]))
        (subset_convexHull ℝ _ (by simp [corners]))
    · exact hcolumn.mean_mem (convex_convexHull ℝ _) (subset_convexHull ℝ _ (by simp [corners]))
        (subset_convexHull ℝ _ (by simp [corners]))
  clamps count deviation := by
    unfold surface
    rw [h.counts.polygonAt_clamped]
    congr 1
    funext i
    rw [h.deviations.polygonAt_clamped]
  continuous :=
    h.counts.continuous_polygonAt (fun _ => h.deviations.continuous_polygonAt
      (fun _ => continuous_const) continuous_snd) continuous_fst
  knots i hi j hj := by
    unfold surface
    rw [h.counts.polygonAt_getD _ hi, h.deviations.polygonAt_getD _ hj]

theorem isLogAxis_deviations_forAxes (axes : ℕ) :
    IsLogAxis (forAxes axes : SmoothingTable ℝ).deviations := by
  unfold forAxes
  split <;> constructor <;>
    norm_num [oneAxis, twoAxes, threeAxes, fourAxes, List.pairwise_cons]

theorem isLogAxis_counts_forAxes (axes : ℕ) :
    IsLogAxis (forAxes axes : SmoothingTable ℝ).counts := by
  unfold forAxes
  split <;> constructor <;>
    norm_num [oneAxis, twoAxes, threeAxes, fourAxes, List.pairwise_cons]

theorem isFull_forAxes (axes : ℕ) : (forAxes axes : SmoothingTable ℝ).IsFull where
  counts := isLogAxis_counts_forAxes axes
  deviations := isLogAxis_deviations_forAxes axes
  rows := by
    unfold forAxes
    split <;> rfl
  columns := by
    unfold forAxes
    split <;> simp [oneAxis, twoAxes, threeAxes, fourAxes]

theorem forAxes_min (axes : ℕ) :
    (forAxes (min axes 4) : SmoothingTable ℝ) = forAxes axes := by
  rcases Nat.lt_or_ge axes 4 with hlt | hge
  · rw [min_eq_left hlt.le]
  · obtain ⟨k, rfl⟩ := Nat.exists_eq_add_of_le' hge
    rw [min_eq_right (by omega)]
    rfl

end SmoothingTable

/-! ## The factor -/

/-- The decimal logarithm of the factor is the one in the table. -/
theorem exists_logb_optimalSmoothing? {axes : ℤ} (haxes : 1 ≤ axes) {count : ℝ}
    (hcount : 0 ≤ count) (deviation : ℝ) :
    ∃ s, optimalSmoothing? axes count deviation = .ok s ∧ 0 < s ∧
      Real.logb 10 s = (SmoothingTable.forAxes (min axes 4).toNat).surface
        (count ^ (1 / (axes : ℝ))) deviation := by
  obtain ⟨n, rfl⟩ := Int.eq_ofNat_of_zero_le (zero_le_one.trans haxes)
  have hfull := SmoothingTable.isFull_forAxes n
  have htable : (SmoothingTable.forAxes (min (n : ℤ) 4).toNat : SmoothingTable ℝ) = .forAxes n := by
    rw [show (min (n : ℤ) 4).toNat = min n 4 by omega, SmoothingTable.forAxes_min]
  obtain ⟨row, hrow, hrowEq, -⟩ := hfull.counts.exists_splits (samplesPerAxis n count)
  obtain ⟨column, hcolumn, hcolumnEq, -⟩ := hfull.deviations.exists_splits deviation
  rw [htable, Int.cast_natCast]
  refine ⟨(10.0 : ℝ) ^ (SmoothingTable.forAxes n).blend row column, ?_,
    Real.rpow_pos_of_pos (by norm_num) _, ?_⟩
  · unfold optimalSmoothing?
    rw [show (max (n : ℤ) 1).toNat = n by omega]
    simp only
    rw [if_neg fun h => absurd h.2.1 (not_lt.mpr hcount), hrowEq, ok_bind, hcolumnEq, ok_bind]
    rfl
  · rw [show (10.0 : ℝ) = 10 by norm_num, Real.logb_rpow (by norm_num) (by norm_num)]
    exact hfull.blend_eq_surface hrow hcolumn

/-- Every value has a bracket in an ascending axis of positive numbers: its shares are those of the
value, taken to an end of the axis if it is beyond, and no logarithm is taken of a number that is
not positive. So the decimal logarithm of the factor for a number of axes interpolates between the
entries of their table, as a function of the number of samples per axis and of the deviation. -/
theorem exists_splits_interpolates :
    (∀ axis, IsLogAxis axis → ∀ value, ∃ b : Bracket ℝ, b.Splits axis value ∧
      logBracket axis value = .ok b ∧
      logBracketOf (axis.map .scalar) (.scalar value) = .ok b ∧
      ∀ f : ℝ → ℝ, (∀ x, 0 < x → f x = Real.log x) →
        @logBracket ℝ (withLog f) axis value = .ok b) ∧
    ∃ f : ℕ → ℝ → ℝ → ℝ, (∀ axes, (SmoothingTable.forAxes axes).Interpolates (f axes)) ∧
      ∀ axes : ℤ, 1 ≤ axes → ∀ count : ℝ, 0 ≤ count → ∀ deviation,
        ∃ s, optimalSmoothing? axes count deviation = .ok s ∧ 0 < s ∧
          Real.logb 10 s = f (min axes 4).toNat (count ^ (1 / (axes : ℝ))) deviation :=
  ⟨fun _ haxis value => haxis.exists_splits value,
    fun axes => (SmoothingTable.forAxes axes).surface,
    fun axes => (SmoothingTable.isFull_forAxes axes).interpolates,
    fun _ haxes _ hcount deviation => exists_logb_optimalSmoothing? haxes hcount deviation⟩

/-- A value below an axis, and the factor at two knots of the table for one axis. -/
theorem exists_splits_interpolates_knot :
    (∃ b : Bracket ℝ, b.Splits [1, 10] (-1) ∧ logBracket [1, 10] (-1 : ℝ) = .ok b) ∧
    ∃ s, optimalSmoothing? 1 (10 : ℝ) 0.0025 = .ok s ∧ Real.logb 10 s = -5.6 := by
  have haxis : IsLogAxis [1, 10] := by constructor <;> norm_num
  obtain ⟨hbrackets, f, hf, hfactor⟩ := exists_splits_interpolates
  obtain ⟨b, hb, hbracket, -⟩ := hbrackets [1, 10] haxis (-1)
  obtain ⟨s, hs, -, hlog⟩ := hfactor 1 le_rfl 10 (by norm_num) 0.0025
  refine ⟨⟨b, hb, hbracket⟩, s, hs, ?_⟩
  have hknot := (hf 1).knots 1 (by decide) 1 (by decide)
  have hcount : (SmoothingTable.forAxes 1 : SmoothingTable ℝ).counts.getD 1 0 =
      (10 : ℝ) ^ (1 / ((1 : ℤ) : ℝ)) := by
    rw [Int.cast_one, div_one, Real.rpow_one]
    show (10.0 : ℝ) = 10
    norm_num
  rw [hlog, show (min (1 : ℤ) 4).toNat = 1 by decide, ← hcount]
  exact hknot

end GridSpline
