import Mathlib
import GridSpline.Proofs.Sample.Domain

/-!
# What the checks of the samples establish

Samples that pass the checks fit the grid: there are as many coordinates as axes and as many values,
weights and targets as channels, every position lies within the domain after it was extended, every
weight is positive, and a spacing has one entry for every node with neighbours apart.

## Main definitions

* `Prepared.IsValid` — what the fit may rely on.
* `IsApart` — neighbouring entries of a spacing differ.
* `GivenSamples.Yields` — what samples that pass the checks are completed to.

## Main statements

* `GivenSamples.prepare_iff` — when samples pass the checks.
* `isValid_prepare` — samples that pass the checks are valid.
* `targets_prepare` — at first the targets are the values.
-/

namespace GridSpline

open Scalar Failure
open GridSpline.Lattice

/-- Neighbouring entries differ. -/
def IsApart (l : List ℝ) : Prop := ∀ i, i + 1 < l.length → l.getD i 0 ≠ l.getD (i + 1) 0

/-- What the fit may rely on. -/
structure Prepared.IsValid (data : Prepared ℝ) : Prop where
  axes : data.res ≠ []
  few : data.res.length ≤ maxAxes
  resolutions : ∀ r ∈ data.res, 2 ≤ r
  bounds : List.Forall₂ (· < ·) data.low data.high
  low : data.low.length = data.res.length
  inside : ∀ s ∈ data.samples, InBox data.low data.high s.position
  values : ∀ s ∈ data.samples, s.values.length = data.channels
  weights : ∀ s ∈ data.samples, s.weights.length = data.channels
  weights_pos : ∀ s ∈ data.samples, ∀ w ∈ s.weights, 0 < w
  targets : ∀ s ∈ data.samples, s.targets.length = data.channels
  average : data.average.length = data.channels
  range : data.valueRange.length = data.channels
  range_nonneg : data.samples ≠ [] → ∀ r ∈ data.valueRange, 0 ≤ r
  deviation : data.deviation.length = data.channels
  spacing : List.Forall₂ (fun s r => ∀ l, s = some l → l.length = r ∧ IsApart l)
    data.spacing data.res

/-! ## Resolutions -/

theorem mem_resolutions? {given : Option (Nested (Number ℝ))} {res : List ℕ}
    (h : resolutions? given = .ok res) :
    res ≠ [] ∧ res.length ≤ maxAxes ∧ ∀ r ∈ res, 2 ≤ r := by
  unfold resolutions? at h
  simp only [bind_eq_ok, guard_eq_ok, pure_eq_ok] at h
  obtain ⟨nested, -, d, -, -, hintegral, hfew, hsmall, rfl⟩ := h
  refine ⟨?_, ?_, ?_⟩
  · intro hnil
    rw [List.map_eq_nil_iff, List.map_eq_nil_iff] at hnil
    exact hintegral (Or.inl (by simp [hnil]))
  · rw [List.length_map]
    exact not_lt.mp hfew
  · intro r hr
    obtain ⟨n, hn, rfl⟩ := List.mem_map.mp hr
    have hge : ¬n < 2 := by
      intro hlt
      exact hsmall (List.any_eq_true.mpr ⟨n, hn, decide_eq_true hlt⟩)
    omega

/-! ## Rows -/

/-- The samples have as many entries as there are axes and channels. -/
theorem mem_samples? {g : GivenSamples ℝ} {axes channels : ℕ} {samples : List (Sample ℝ)}
    (h : g.samples? axes = .ok (channels, samples)) : ∀ s ∈ samples,
      s.position.length = axes ∧ s.values.length = channels ∧ s.weights.length = channels ∧
        (∀ w ∈ s.weights, 0 < w) ∧ s.targets = s.values := by
  intro s hs
  obtain ⟨hposition, hvalues, hlength, -, hweights, htargets⟩ := kept_of_samples? h s hs
  exact ⟨hposition, hvalues, hlength, fun w hw => not_le.mp (hweights w hw), htargets⟩

theorem isComplete (s : Sample ℝ) : s.IsComplete :=
  ⟨fun x _ => isNumber x, fun x _ => isNumber x, fun x _ => isNumber x⟩

/-- No sample is dropped. -/
theorem filter_isComplete (l : List (Sample ℝ)) : (l.filter fun s => decide s.IsComplete) = l :=
  List.filter_eq_self.mpr fun s _ => decide_eq_true (isComplete s)

/-- Tables that fit each other are samples if all weights are positive. -/
theorem samples?_of_tables {g : GivenSamples ℝ} {axes : ℕ} {p v : SampleTable ℝ}
    {k : List (List ℝ)} (hp : SampleTable.ofNested? "positions" (some axes) g.positions = .ok p)
    (hv : SampleTable.ofNested? "values" none g.values = .ok v)
    (hk : weightRows? p.rows.length v.columns g.weights = .ok k)
    (hchannels : ¬(v.columns < 1 ∨ maxChannels < v.columns)) (haxes : p.columns = axes)
    (hcount : p.rows.length = v.rows.length) (hpos : ∀ r ∈ k, ∀ w ∈ r, 0 < w) :
    g.samples? axes = .ok (v.columns, assemble p.rows v.rows k) := by
  unfold GivenSamples.samples?
  simp only [bind_eq_ok, guard_eq_ok, pure_eq_ok, Prod.mk.injEq, filter_isComplete]
  refine ⟨p, hp, v, hv, hchannels, not_not.mpr haxes, not_not.mpr hcount, k, hk, ?_, rfl, rfl⟩
  intro hany
  obtain ⟨s, hs, hweight⟩ := List.any_eq_true.mp hany
  obtain ⟨w, hw, hle⟩ := List.any_eq_true.mp hweight
  exact absurd (hpos _ (mem_assemble hs).2.2.1 w hw) (not_lt.mpr (of_decide_eq_true hle))

/-! ## Columns -/

theorem least?_eq_min? (l : List ℝ) : least? l = l.min? := by
  cases l with
  | nil => rfl
  | cons a l =>
    have hfun : (minimum : ℝ → ℝ → ℝ) = min := funext fun x => funext fun y => minimum_eq x y
    unfold least?
    rw [hfun]
    rfl

theorem greatest?_eq_max? (l : List ℝ) : greatest? l = l.max? := by
  cases l with
  | nil => rfl
  | cons a l =>
    have hfun : (maximum : ℝ → ℝ → ℝ) = max := funext fun x => funext fun y => maximum_eq x y
    unfold greatest?
    rw [hfun]
    rfl

theorem least?_eq_some_iff {l : List ℝ} {m : ℝ} :
    least? l = some m ↔ IsLeast {x | x ∈ l} m := by
  rw [least?_eq_min?, List.min?_eq_some_iff]
  rfl

theorem greatest?_eq_some_iff {l : List ℝ} {m : ℝ} :
    greatest? l = some m ↔ IsGreatest {x | x ∈ l} m := by
  rw [greatest?_eq_max?, List.max?_eq_some_iff]
  rfl

theorem least?_le {l : List ℝ} {m x : ℝ} (h : least? l = some m) (hx : x ∈ l) : m ≤ x :=
  (least?_eq_some_iff.mp h).2 hx

theorem le_greatest? {l : List ℝ} {m x : ℝ} (h : greatest? l = some m) (hx : x ∈ l) : x ≤ m :=
  (greatest?_eq_some_iff.mp h).2 hx

theorem mem_column {rows : List (List ℝ)} {e : ℕ} {r : List ℝ} (hr : r ∈ rows)
    (he : e < r.length) : r.getD e 0 ∈ column rows e := by
  refine mem_column_iff.mpr ⟨r, hr, ?_⟩
  rw [List.getElem?_eq_getElem he, List.getD_eq_getElem _ _ he]

/-! ## Extents of the values -/

/-- The extent of a channel that has values is not negative. -/
theorem widen_nonneg (low high : ℝ) {values : List ℝ} (h : values ≠ []) :
    0 ≤ (widen low high values).2 - (widen low high values).1 := by
  obtain ⟨x, hx⟩ := List.exists_mem_of_ne_nil values h
  unfold widen
  split
  · rename_i first last hfirst hlast
    rw [minimum_eq, maximum_eq, sub_nonneg]
    exact (min_le_right _ _).trans ((least?_le hfirst hx).trans
      ((le_greatest? hlast hx).trans (le_max_right _ _)))
  · rename_i hnone
    cases values with
    | nil => exact absurd rfl h
    | cons a l => exact (hnone _ _ rfl rfl).elim

/-! ## Spacings -/

theorem isApart_of_firstTooClose {l : List ℝ} (h : firstTooClose l = none) : IsApart l := by
  intro i hi heq
  unfold firstTooClose at h
  simp only [Option.map_eq_none_iff, List.findIdx?_eq_none_iff] at h
  have hlen : i < (List.zipWith (fun a b => decide (magnitude (b - a) < (minSpacing : ℝ))) l
      (l.drop 1)).length := by
    rw [List.length_zipWith, List.length_drop]
    omega
  have hfalse := h _ (List.getElem_mem hlen)
  rw [List.getD_eq_getElem _ _ (by omega), List.getD_eq_getElem _ _ hi] at heq
  simp only [List.getElem_zipWith, List.getElem_drop, magnitude_eq, id_eq, decide_eq_false_iff_not,
    not_lt, Nat.add_comm 1 i, ← heq, sub_self, abs_zero] at hfalse
  unfold minSpacing at hfalse
  norm_num at hfalse

theorem spacingOf?_spec {axis count : ℕ} {given : Option (Nested ℝ)} {s : Spacing ℝ}
    (h : spacingOf? axis count given = .ok s) : ∀ l, s = some l → l.length = count ∧ IsApart l := by
  intro l hl
  unfold spacingOf? at h
  cases given with
  | none =>
    rw [pure_eq_ok] at h
    subst h
    cases hl
  | some nested =>
    simp only [bind_eq_ok, guard_eq_ok] at h
    obtain ⟨d, -, hlen, h⟩ := h
    split at h
    · simp at h
    · rename_i hclose
      rw [pure_eq_ok] at h
      subst h
      rw [Option.some.injEq] at hl
      subst hl
      exact ⟨not_ne_iff.mp hlen, isApart_of_firstTooClose hclose⟩

theorem spacingsFrom?_spec {axis : ℕ} {given : List (ℕ × Option (Nested ℝ))}
    {spacing : List (Spacing ℝ)} (h : spacingsFrom? axis given = .ok spacing) :
    List.Forall₂ (fun s r => ∀ l, s = some l → l.length = r ∧ IsApart l) spacing
      (given.map Prod.fst) := by
  induction given generalizing axis spacing with
  | nil =>
    unfold spacingsFrom? at h
    rw [pure_eq_ok] at h
    subst h
    exact List.Forall₂.nil
  | cons g rest ih =>
    obtain ⟨count, g⟩ := g
    unfold spacingsFrom? at h
    simp only [bind_eq_ok, pure_eq_ok] at h
    obtain ⟨s, hs, others, hothers, rfl⟩ := h
    exact List.Forall₂.cons (spacingOf?_spec hs) (ih hothers)

theorem spacings?_spec {res : List ℕ} {given : Option (Option (List (Option (Nested ℝ))))}
    {spacing : List (Spacing ℝ)} (h : spacings? res given = .ok spacing) :
    List.Forall₂ (fun s r => ∀ l, s = some l → l.length = r ∧ IsApart l) spacing res := by
  unfold spacings? at h
  cases given with
  | none =>
    rw [pure_eq_ok] at h
    subst h
    rw [List.forall₂_map_left_iff, List.forall₂_same]
    intro r _ l hl
    cases hl
  | some entries =>
    simp only [bind_eq_ok, guard_eq_ok, require_eq_ok] at h
    obtain ⟨l, -, hlen, h⟩ := h
    have hspec := spacingsFrom?_spec h
    rw [List.map_fst_zip (not_ne_iff.mp hlen).ge] at hspec
    exact hspec

/-! ## All together -/

/-- The values of each channel. -/
noncomputable def Prepared.columns (data : Prepared ℝ) : List (List ℝ) :=
  (List.range data.channels).map (column (data.samples.map (·.values)))

/-- What samples that pass the checks are completed to, whatever notices there are. -/
structure GivenSamples.Yields (g : GivenSamples ℝ) (mode : Extend) (data : Prepared ℝ) : Prop where
  resolutions : resolutions? g.resolution = .ok data.res
  samples : g.samples? data.res.length = .ok (data.channels, data.samples)
  bounds : ∃ low high notices, entriesOf? "glow" data.res.length 0 g.low = .ok low ∧
    entriesOf? "ghigh" data.res.length 1 g.high = .ok high ∧
    extendDomain? mode (data.samples.map (·.position)) 0 (low.zip high) =
      .ok (data.low.zip data.high, notices)
  paired : data.low.length = data.high.length
  extended : ∀ b ∈ data.low.zip data.high, b.1 < b.2
  values : ∃ low high, entriesOf? "vlow" data.channels 0 g.valueLow = .ok low ∧
    entriesOf? "vhigh" data.channels 1 g.valueHigh = .ok high ∧
    data.valueLow = (List.zipWith (fun b values => widen b.1 b.2 values) (low.zip high)
      data.columns).map (·.1) ∧
    data.valueRange = (List.zipWith (fun b values => widen b.1 b.2 values) (low.zip high)
      data.columns).map fun b => b.2 - b.1
  average : data.average = data.columns.map (meanOr defaultAverage)
  deviation : entriesOf? "avgdev" data.channels defaultDeviation g.deviation = .ok data.deviation
  spacing : spacings? data.res g.spacing = .ok data.spacing

theorem not_hasEmptyAxis_iff {bounds : List (ℝ × ℝ)} :
    ¬hasEmptyAxis bounds ↔ ∀ b ∈ bounds, b.1 < b.2 := by
  unfold hasEmptyAxis
  simp only [List.any_eq_true, decide_eq_true_eq, not_exists, not_and, not_le]

/-- When samples pass the checks, and what they are completed to. -/
theorem GivenSamples.prepare_iff {g : GivenSamples ℝ} {mode : Extend} {data : Prepared ℝ} :
    (∃ notices, g.prepare mode = .ok (data, notices)) ↔ g.Yields mode data := by
  simp only [prepare_eq_ok_iff, not_hasEmptyAxis_iff]
  constructor
  · rintro ⟨-, e, spacing, hfinds, hempty, hspacing, rfl, rfl⟩
    obtain ⟨low, high, hlow, hhigh, hbounds⟩ := hfinds.bounds
    obtain ⟨valueLow, valueHigh, hvalueLow, hvalueHigh, hvalues⟩ := hfinds.valueBounds
    have hzip : (e.bounds.map (·.1)).zip (e.bounds.map (·.2)) = e.bounds := by
      rw [List.zip_map', List.map_id']
    exact {
      resolutions := hfinds.resolutions
      samples := hfinds.samples
      bounds := ⟨low, high, e.notices, hlow, hhigh, hzip.symm ▸ hbounds⟩
      paired := (List.length_map _).trans (List.length_map _).symm
      extended := hzip.symm ▸ hempty
      values := ⟨valueLow, valueHigh, hvalueLow, hvalueHigh, hvalues ▸ rfl, hvalues ▸ rfl⟩
      average := rfl
      deviation := hfinds.deviation
      spacing := hspacing }
  · intro h
    obtain ⟨low, high, notices, hlow, hhigh, hbounds⟩ := h.bounds
    obtain ⟨valueLow, valueHigh, hvalueLow, hvalueHigh, hvalues, hrange⟩ := h.values
    refine ⟨notices, {
      res := data.res
      channels := data.channels
      samples := data.samples
      bounds := data.low.zip data.high
      valueBounds := valueLow.zip valueHigh
      deviation := data.deviation
      notices }, data.spacing, {
        resolutions := h.resolutions
        samples := h.samples
        bounds := ⟨low, high, hlow, hhigh, hbounds⟩
        valueBounds := ⟨valueLow, valueHigh, hvalueLow, hvalueHigh, rfl⟩
        deviation := h.deviation }, h.extended, h.spacing, ?_, rfl⟩
    unfold Extended.completed
    rw [List.map_fst_zip h.paired.le, List.map_snd_zip h.paired.ge]
    cases data
    simp only [Prepared.mk.injEq, true_and, and_true]
    exact ⟨h.average.symm, hvalues.symm, hrange.symm⟩

section Prepare

variable {g : GivenSamples ℝ} {mode : Extend} {data : Prepared ℝ} {notices : List (Notice ℝ)}
  (h : g.prepare mode = .ok (data, notices))

include h

/-- Samples that pass the checks are valid. -/
theorem isValid_prepare : data.IsValid := by
  have hwithin := isWithin_prepare h
  obtain ⟨e, spacing, hfinds, hempty, hspacing, rfl, -⟩ := prepare_eq_ok_iff.mp h
  obtain ⟨hne, hfew, hsmall⟩ := mem_resolutions? hfinds.resolutions
  have hrows := mem_samples? hfinds.samples
  have hextents : (List.zipWith (fun (x : ℝ × ℝ) values => widen x.1 x.2 values)
      e.valueBounds ((List.range e.channels).map
        (column (e.samples.map fun s => s.values)))).length = e.channels := by
    rw [List.length_zipWith, hfinds.length_valueBounds, List.length_map, List.length_range,
      min_self]
  refine {
    axes := hne
    few := hfew
    resolutions := hsmall
    bounds := ?_
    low := (List.length_map _).trans hfinds.length_bounds
    inside := fun s hs => isWithin_iff_inBox.mp (hwithin s hs)
    values := fun s hs => (hrows s hs).2.1
    weights := fun s hs => (hrows s hs).2.2.1
    weights_pos := fun s hs => (hrows s hs).2.2.2.1
    targets := fun s hs => (congrArg List.length (hrows s hs).2.2.2.2).trans (hrows s hs).2.1
    average := by simp [Extended.completed]
    range := (List.length_map _).trans hextents
    range_nonneg := ?_
    deviation := length_entriesOf? hfinds.deviation
    spacing := spacings?_spec hspacing }
  · refine List.forall₂_map_left_iff.mpr (List.forall₂_map_right_iff.mpr (List.forall₂_same.mpr ?_))
    intro b hb
    by_contra hle
    exact hempty (List.any_eq_true.mpr ⟨b, hb, decide_eq_true (not_lt.mp hle)⟩)
  · intro hsome r hr
    obtain ⟨b, hb, rfl⟩ := List.mem_map.mp hr
    obtain ⟨i, hi, rfl⟩ := List.mem_iff_getElem.mp hb
    rw [List.getElem_zipWith]
    refine widen_nonneg _ _ ?_
    rw [hextents] at hi
    rw [List.getElem_map, List.getElem_range]
    -- Every sample has a value in the channel.
    obtain ⟨s, hs⟩ := List.exists_mem_of_ne_nil e.samples hsome
    have hlt : i < s.values.length := by
      rw [(hrows s hs).2.1]
      exact hi
    exact List.ne_nil_of_mem (mem_column (List.mem_map_of_mem hs) hlt)

/-- At first the targets are the values. -/
theorem targets_prepare : ∀ s ∈ data.samples, s.targets = s.values := by
  obtain ⟨e, -, hfinds, -, -, rfl, -⟩ := prepare_eq_ok_iff.mp h
  exact fun s hs => (mem_samples? hfinds.samples s hs).2.2.2.2

/-- The average of a channel is the mean of its values. -/
theorem average_prepare : data.average = (List.range data.channels).map fun channel =>
    meanOr defaultAverage (column (data.samples.map (·.values)) channel) := by
  obtain ⟨e, -, -, -, -, rfl, -⟩ := prepare_eq_ok_iff.mp h
  exact List.map_map

end Prepare

/-- The mean of values that are all the same. -/
theorem meanOr_eq {values : List ℝ} {v : ℝ} (hne : values ≠ []) (h : ∀ x ∈ values, x = v)
    (default : ℝ) : meanOr default values = v := by
  have hlen : (values.length : ℝ) ≠ 0 :=
    Nat.cast_ne_zero.mpr fun h0 => hne (List.length_eq_zero_iff.mp h0)
  unfold meanOr
  rw [if_neg (by simpa using hne), sum_eq, List.eq_replicate_of_mem h, List.sum_replicate,
    List.length_replicate, nsmul_eq_mul, mul_div_cancel_left₀ _ hlen]

end GridSpline
