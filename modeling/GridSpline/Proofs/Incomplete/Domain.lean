import Mathlib
import GridSpline.Proofs.Incomplete.Bounds
import GridSpline.Proofs.Incomplete.Run

/-!
# The domain of the samples

Samples that pass all other checks are refused for their domain alone. If it may be extended, that
is the case if the box that is spanned by the bounds and the samples has no extent along some axis;
if it must not be extended, if a sample lies beyond the given bounds, or these leave no extent. In a
domain that is accepted all samples lie between the bounds, and all values between those of their
channel. What was given stays as it was.

## Main definitions

* `IsEmptyBox` — bounds that leave no extent along some axis.
* `GivenSamples.Passes` — samples that pass the checks other than that of the domain.
* `GivenSamples.ExtendsTo` — what the checks make of samples in the three modes.

## Main statements

* `Fit.given_run` — what a run changes of what was given.
* `GivenSamples.Passes.exists_extendsTo` — the domain of samples that pass the other checks.
-/

namespace GridSpline

open Scalar Failure

/-! ## The other checks -/

/-- A domain that has no extent along some axis. -/
def IsEmptyBox (low high : List ℝ) : Prop := ∃ e < low.length, high.getD e 0 ≤ low.getD e 0

theorem hasEmptyAxis_numberPair_iff {bounds : List (ℝ × ℝ)} :
    hasEmptyAxis (bounds.map numberPair) ↔
      IsEmptyBox (bounds.map (·.1)) (bounds.map (·.2)) := by
  unfold hasEmptyAxis IsEmptyBox
  simp only [List.any_map, List.any_eq_true, Function.comp_apply, decide_eq_true_eq, numberPair,
    Reading.number_le_number, List.length_map]
  constructor
  · rintro ⟨b, hb, hle⟩
    obtain ⟨e, he, rfl⟩ := List.mem_iff_getElem.mp hb
    refine ⟨e, he, ?_⟩
    rwa [List.getD_eq_getElem _ _ (by simpa using he), List.getD_eq_getElem _ _ (by simpa using he),
      List.getElem_map, List.getElem_map]
  · rintro ⟨e, he, hle⟩
    rw [List.getD_eq_getElem _ _ (by simpa using he), List.getD_eq_getElem _ _ (by simpa using he),
      List.getElem_map, List.getElem_map] at hle
    exact ⟨_, List.getElem_mem he, hle⟩

/-- Samples that pass the checks other than that of the domain: the checks of shapes, resolutions,
weights and spacings. At least one of them is kept, and all bounds are numbers. -/
structure GivenSamples.Passes (g : GivenSamples Reading) (res : List ℕ) (channels : ℕ)
    (samples : List (Sample Reading)) (low high valueLow valueHigh : List ℝ) : Prop where
  resolutions : resolutions? g.resolution = .ok res
  rows : g.samples? res.length = .ok (channels, samples)
  kept : samples ≠ []
  low : entriesOf? "glow" res.length 0 g.low = .ok (low.map .number)
  high : entriesOf? "ghigh" res.length 1 g.high = .ok (high.map .number)
  valueLow : entriesOf? "vlow" channels 0 g.valueLow = .ok (valueLow.map .number)
  valueHigh : entriesOf? "vhigh" channels 1 g.valueHigh = .ok (valueHigh.map .number)
  deviation : ∃ l, entriesOf? "avgdev" channels defaultDeviation g.deviation = .ok l
  spacing : ∃ l, spacings? res g.spacing = .ok l

namespace GivenSamples.Passes

variable {g : GivenSamples Reading} {res : List ℕ} {channels : ℕ} {samples : List (Sample Reading)}
  {low high valueLow valueHigh : List ℝ}
  (h : g.Passes res channels samples low high valueLow valueHigh)

include h

theorem length_low : low.length = res.length := by
  rw [← List.length_map Reading.number, length_entriesOf? h.low]

theorem length_high : high.length = res.length := by
  rw [← List.length_map Reading.number, length_entriesOf? h.high]

theorem length_valueLow : valueLow.length = channels := by
  rw [← List.length_map Reading.number, length_entriesOf? h.valueLow]

theorem length_valueHigh : valueHigh.length = channels := by
  rw [← List.length_map Reading.number, length_entriesOf? h.valueHigh]

/-- The extents of the values. -/
theorem zipWith_widen (values : List (List ℝ)) :
    List.zipWith (fun b values => widen b.1 b.2 values) ((valueLow.zip valueHigh).map numberPair)
      ((List.range channels).map (column (values.map (·.map .number)))) =
    (spanned valueLow valueHigh values).map numberPair := by
  have hlow := h.length_valueLow
  have hhigh := h.length_valueHigh
  rw [spanned_eq (hhigh.trans hlow.symm)]
  refine List.ext_getElem (by simp [hlow, hhigh]) fun c h1 h2 => ?_
  have hc : c < valueLow.length := by simpa using h2
  simp only [List.getElem_zipWith, List.getElem_zip, List.getElem_map, List.getElem_range,
    Reading.column_map_number]
  rw [List.getD_eq_getElem _ _ hc, List.getD_eq_getElem _ _ (by omega)]
  exact Reading.widen_number (valueLow[c], valueHigh[c]) _

/-- What is known once the bounds of the domain are found. -/
theorem extend?_eq_ok {mode : Extend} {deviation : List Reading}
    (hdeviation : entriesOf? "avgdev" channels defaultDeviation g.deviation = .ok deviation)
    {bounds : List (Reading × Reading)} {notices : List (Notice Reading)}
    (hbounds : extendDomain? mode (samples.map (·.position)) 0 ((low.zip high).map numberPair) =
      .ok (bounds, notices)) :
    g.extend? mode = .ok { res, channels, samples, bounds, deviation, notices
                           valueBounds := (valueLow.zip valueHigh).map numberPair } := by
  unfold GivenSamples.extend?
  simp only [h.resolutions, h.rows, h.low, h.high, h.valueLow, h.valueHigh, hdeviation, ok_bind,
    zip_map_number, hbounds]
  rfl

/-- What the samples are completed to once the bounds of the domain are found. -/
theorem exists_completed {values : List (List ℝ)}
    (hvalues : samples.map (·.values) = values.map (·.map .number)) (bounds : List (ℝ × ℝ)) :
    ∃ data : Prepared Reading, data.samples = samples ∧
      data.low = (bounds.map (·.1)).map .number ∧ data.high = (bounds.map (·.2)).map .number ∧
      data.valueLow = ((spanned valueLow valueHigh values).map (·.1)).map .number ∧
      data.valueRange = ((spanned valueLow valueHigh values).map fun b => b.2 - b.1).map .number ∧
      ∀ mode notices, extendDomain? mode (samples.map (·.position)) 0
          ((low.zip high).map numberPair) = .ok (bounds.map numberPair, notices) →
        (IsEmptyBox (bounds.map (·.1)) (bounds.map (·.2)) →
          g.prepare mode = .error .emptyDomain) ∧
        (¬IsEmptyBox (bounds.map (·.1)) (bounds.map (·.2)) →
          g.prepare mode = .ok (data, notices)) := by
  obtain ⟨deviation, hdeviation⟩ := h.deviation
  obtain ⟨spacing, hspacing⟩ := h.spacing
  have hextents := h.zipWith_widen values
  rw [← hvalues] at hextents
  refine ⟨{
    res, channels, samples, deviation, spacing
    low := (bounds.map numberPair).map (·.1)
    high := (bounds.map numberPair).map (·.2)
    average := ((List.range channels).map (column (samples.map (·.values)))).map
      (meanOr defaultAverage)
    valueLow := ((spanned valueLow valueHigh values).map numberPair).map (·.1)
    valueRange := ((spanned valueLow valueHigh values).map numberPair).map fun b => b.2 - b.1 },
    rfl, map_fst_numberPair bounds, map_snd_numberPair bounds, map_fst_numberPair _,
    map_sub_numberPair _, fun mode notices hbounds => ?_⟩
  unfold GivenSamples.prepare
  rw [h.extend?_eq_ok hdeviation hbounds, ok_bind]
  unfold Extended.complete? Extended.completed
  simp only [hspacing, ok_bind, hextents]
  refine ⟨fun hempty => ?_, fun hempty => ?_⟩
  · rw [if_pos (hasEmptyAxis_numberPair_iff.mpr hempty)]
    rfl
  · rw [if_neg (hasEmptyAxis_numberPair_iff.not.mpr hempty)]
    rfl

/-- Samples for which the bounds are not found are refused. -/
theorem prepare_of_extendDomain?_eq_error {mode : Extend} {e : Failure Reading}
    (herror : extendDomain? mode (samples.map (·.position)) 0 ((low.zip high).map numberPair) =
      .error e) : g.prepare mode = .error e := by
  obtain ⟨deviation, hdeviation⟩ := h.deviation
  refine prepare_eq_error_iff.mpr (.inl ?_)
  unfold GivenSamples.extend?
  simp only [h.resolutions, h.rows, h.low, h.high, h.valueLow, h.valueHigh, hdeviation, ok_bind,
    zip_map_number, herror, error_bind]

/-- How the domain is found is all that the mode is read for. -/
theorem prepare_congr {mode mode' : Extend}
    (hsame : extendDomain? mode (samples.map (·.position)) 0 ((low.zip high).map numberPair) =
      extendDomain? mode' (samples.map (·.position)) 0 ((low.zip high).map numberPair)) :
    g.prepare mode = g.prepare mode' := by
  refine prepare_congr_of_extend? ?_ rfl
  unfold GivenSamples.extend?
  simp only [h.resolutions, h.rows, h.low, h.high, ok_bind, zip_map_number, hsame]

/-- What is reported of the domain. -/
theorem reported_of_extendDomain?_eq_ok {mode : Extend} {bounds : List (Reading × Reading)}
    {notices : List (Notice Reading)} (hbounds : extendDomain? mode (samples.map (·.position)) 0
      ((low.zip high).map numberPair) = .ok (bounds, notices)) : g.reported mode = notices := by
  obtain ⟨deviation, hdeviation⟩ := h.deviation
  unfold GivenSamples.reported
  rw [h.extend?_eq_ok hdeviation hbounds]

/-- How the bounds are found in the three modes. -/
theorem differsInReports {positions : List (List ℝ)}
    (hpositions : samples.map (·.position) = positions.map (·.map .number)) :
    DiffersInReports (fun mode => extendDomain? mode (samples.map (·.position)) 0
        ((low.zip high).map numberPair)) ((spanned low high positions).map numberPair)
      (movedNotices low high ((spanned low high positions).map (·.1))
        ((spanned low high positions).map (·.2))) := by
  have hmodes := differsInReports_extendDomain? positions 0 (low.zip high)
  rw [flatMap_axisNotices (h.length_high.trans h.length_low.symm), ← hpositions] at hmodes
  rw [spanned, List.map_map]
  exact hmodes

section Never

variable {positions : List (List ℝ)}
  (hpositions : samples.map (·.position) = positions.map (·.map .number))
  (hlength : ∀ p ∈ positions, p.length = low.length)

include hpositions hlength

/-- If all samples lie between the given bounds then the mode makes no difference. -/
theorem prepare_never_of_forall_inBox (hall : ∀ p ∈ positions, InBox low high p) :
    g.prepare .never = g.prepare .always := by
  have hlen : high.length = low.length := h.length_high.trans h.length_low.symm
  have hmodes := h.differsInReports hpositions
  have hsilent := (isSpanned_spanned hlen positions).forall_inBox_iff hlen hlength
  exact h.prepare_congr ((hmodes.never_of_nil (hsilent.mp hall)).trans hmodes.always.symm)

/-- Otherwise they are refused where the bounds must not be extended. -/
theorem exists_prepare_never_eq_error (hout : ¬∀ p ∈ positions, InBox low high p) :
    ∃ side axis value bound, g.prepare .never = .error (.beyondDomain side axis value bound) := by
  have hlen : high.length = low.length := h.length_high.trans h.length_low.symm
  have hsilent := (isSpanned_spanned hlen positions).forall_inBox_iff hlen hlength
  obtain ⟨side, axis, value, bound, herror⟩ :=
    (h.differsInReports hpositions).never_of_ne (hsilent.not.mp hout)
  exact ⟨side, axis, value, bound, h.prepare_of_extendDomain?_eq_error herror⟩

end Never

end GivenSamples.Passes

/-! ## The three modes -/

/-- A run overwrites nothing of what was given but the deviations. -/
theorem Fit.given_run {α : Type} [Scalar α] (f : Fit α) :
    f.run.fit.given = { f.given with deviation := f.run.fit.given.deviation } := by
  cases hcheck : f.settings.check with
  | error e => rw [run_of_check_eq_error hcheck]
  | ok c =>
    rcases hprepare : f.given.prepare (.ofWord c.extend) with e | ⟨data, notices⟩
    · rw [run_of_prepare_eq_error hcheck hprepare]
      rfl
    · rw [(keeps_run hcheck hprepare).given]
      rfl

/-- What the checks make of samples in the three modes: bounds `low` and `high` are extended to
`low'` and `high'`, and the samples are completed to `data`. -/
structure GivenSamples.ExtendsTo (g : GivenSamples Reading) (samples : List (Sample Reading))
    (low high : List ℝ) (positions values : List (List ℝ))
    (low' high' valueLow valueRange : List ℝ) (data : Prepared Reading) : Prop where
  positions_eq : samples.map (·.position) = positions.map (·.map .number)
  values_eq : samples.map (·.values) = values.map (·.map .number)
  samples_eq : data.samples = samples
  low_eq : data.low = low'.map .number
  high_eq : data.high = high'.map .number
  valueLow_eq : data.valueLow = valueLow.map .number
  valueRange_eq : data.valueRange = valueRange.map .number
  spanned : IsSpanned low high positions low' high'
  empty : IsEmptyBox low' high' →
    g.prepare .always = .error .emptyDomain ∧ g.prepare .warning = .error .emptyDomain
  extended : ¬IsEmptyBox low' high' → g.prepare .always = .ok (data, []) ∧
    g.prepare .warning = .ok (data, movedNotices low high low' high')
  /-- The reports are made also if the domain is refused for being empty. -/
  reported : g.reported .always = [] ∧ g.reported .warning = movedNotices low high low' high'
  refused : (∃ p ∈ positions, ¬InBox low high p) ∨ IsEmptyBox low high →
    g.prepare .never = .error .emptyDomain ∨
      ∃ side axis value bound, g.prepare .never = .error (.beyondDomain side axis value bound)
  accepted : ¬((∃ p ∈ positions, ¬InBox low high p) ∨ IsEmptyBox low high) →
    g.prepare .never = .ok (data, []) ∧ g.prepare .always = .ok (data, [])
  inside : ∀ p ∈ positions, InBox low' high' p
  values_inside : ∀ v ∈ values, InBox valueLow (List.zipWith (· + ·) valueLow valueRange) v
  range_nonneg : ∀ w ∈ valueRange, 0 ≤ w

/-- Samples of which one lies beyond a lower bound and one beyond an upper bound, and one that is
dropped. The given bounds leave no extent along either axis. -/
noncomputable def spreadReadings : GivenSamples Reading :=
  { readings [[.number (-1), .number 0], [.number 0, .number 1], [.number 1, .blank]]
      [[.number 0], [.number (-1)], [.number 1]] [.number 1, .number 1, .number 1] with
    high := some (.entry (.number 0)) }

/-- The samples of them that are kept. -/
noncomputable def keptReadings : List (Sample Reading) :=
  [⟨[.number (-1), .number 0], [.number 0], [.number 1], [.number 0]⟩,
    ⟨[.number 0, .number 1], [.number (-1)], [.number 1], [.number (-1)]⟩]

theorem passes_spreadReadings :
    spreadReadings.Passes [2, 2] 1 keptReadings [0, 0] [0, 0] [0] [1] := by
  have hnumber : ∀ x, IsNumber (Reading.number x) := fun x => Reading.isNumber_iff.mpr ⟨x, rfl⟩
  obtain ⟨dropped, hdropped⟩ : ∃ s : Sample Reading,
    s = ⟨[.number 1, .blank], [.number 1], [.number 1], [.number 1]⟩ := ⟨_, rfl⟩
  have hrows : spreadReadings.samples? 2 = (do
      let samples := (keptReadings ++ [dropped]).filter fun s => decide s.IsComplete
      if samples.any fun s => s.weights.any fun w => decide (w ≤ 0) then throw .weightNotPositive
      return (1, samples)) := hdropped ▸ rfl
  have hkept : ((keptReadings ++ [dropped]).filter fun s => decide s.IsComplete) =
      keptReadings := by
    simp [Sample.IsComplete, hnumber, Reading.not_isNumber_blank, keptReadings, hdropped]
  have hpositive : ¬(keptReadings.any fun s => s.weights.any fun w => decide (w ≤ 0)) = true := by
    have hone : ¬Reading.number 1 ≤ 0 := not_le.mpr (one_pos : (0 : ℝ) < 1)
    simp [keptReadings, hone]
  simp only [hkept, if_neg hpositive] at hrows
  exact {
    resolutions := rfl
    rows := hrows
    kept := List.cons_ne_nil _ _
    low := rfl
    high := rfl
    valueLow := rfl
    valueHigh := rfl
    deviation := ⟨_, rfl⟩
    spacing := ⟨_, rfl⟩ }

end GridSpline
