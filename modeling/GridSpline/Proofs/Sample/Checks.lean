import GridSpline.Proofs.Sample.Table

/-!
# The checks in two parts

Until the domain is found the checks read everything but the spacings, and only the domain depends
on the mode. What moved is reported then; only after that an empty domain or a spacing can be
refused. So of samples that are refused there can be a report, and the two parts are all that has to
be known of the checks.

## Main definitions

* `GivenSamples.Finds` — what is known when the domain is found.
* `GivenSamples.reported` — what is reported of the domain, also if a later check fails.

## Main statements

* `extend?_eq_ok_iff`, `complete?_eq_ok_iff`, `prepare_eq_ok_iff` — when the checks are passed.
* `prepare_eq_error_iff` — when they are not.
* `prepare_congr_of_extend?` — what finds the same domain and has the same spacings passes alike.
-/

namespace GridSpline

open Failure

variable {α : Type} [Scalar α] {g g' : GivenSamples α} {mode mode' : Extend} {e : Extended α}
  {data : Prepared α} {notices : List (Notice α)}

/-! ## The domain -/

/-- What is known of samples when the domain is found. -/
structure GivenSamples.Finds (g : GivenSamples α) (mode : Extend) (e : Extended α) : Prop where
  resolutions : resolutions? g.resolution = .ok e.res
  samples : g.samples? e.res.length = .ok (e.channels, e.samples)
  bounds : ∃ low high, entriesOf? "glow" e.res.length 0 g.low = .ok low ∧
    entriesOf? "ghigh" e.res.length 1 g.high = .ok high ∧
    extendDomain? mode (e.samples.map (·.position)) 0 (low.zip high) = .ok (e.bounds, e.notices)
  valueBounds : ∃ low high, entriesOf? "vlow" e.channels 0 g.valueLow = .ok low ∧
    entriesOf? "vhigh" e.channels 1 g.valueHigh = .ok high ∧ e.valueBounds = low.zip high
  deviation : entriesOf? "avgdev" e.channels defaultDeviation g.deviation = .ok e.deviation

theorem extend?_eq_ok_iff : g.extend? mode = .ok e ↔ g.Finds mode e := by
  unfold GivenSamples.extend?
  simp only [bind_eq_ok, pure_eq_ok, Prod.exists]
  constructor
  · rintro ⟨res, hres, channels, samples, hsamples, low, hlow, high, hhigh, valueLow, hvalueLow,
      valueHigh, hvalueHigh, deviation, hdeviation, bounds, notices, hbounds, rfl⟩
    exact {
      resolutions := hres
      samples := hsamples
      bounds := ⟨low, high, hlow, hhigh, hbounds⟩
      valueBounds := ⟨valueLow, valueHigh, hvalueLow, hvalueHigh, rfl⟩
      deviation := hdeviation }
  · intro h
    obtain ⟨low, high, hlow, hhigh, hbounds⟩ := h.bounds
    obtain ⟨valueLow, valueHigh, hvalueLow, hvalueHigh, hvalues⟩ := h.valueBounds
    refine ⟨_, h.resolutions, _, _, h.samples, low, hlow, high, hhigh, valueLow, hvalueLow,
      valueHigh, hvalueHigh, _, h.deviation, _, _, hbounds, ?_⟩
    rw [← hvalues]

/-! ## Lengths -/

theorem length_extendDomain? {mode : Extend} {positions : List (List α)} {axis : ℕ}
    {given : List (α × α)} {out : List (α × α) × List (Notice α)}
    (h : extendDomain? mode positions axis given = .ok out) : out.1.length = given.length := by
  induction given generalizing axis out with
  | nil =>
    cases h
    rfl
  | cons b rest ih =>
    unfold extendDomain? at h
    simp only [bind_eq_ok, pure_eq_ok] at h
    obtain ⟨first, -, others, hothers, rfl⟩ := h
    rw [List.length_cons, List.length_cons, ih hothers]

/-- There are two ends for every axis. -/
theorem GivenSamples.Finds.length_bounds (h : g.Finds mode e) : e.bounds.length = e.res.length := by
  obtain ⟨low, high, hlow, hhigh, hbounds⟩ := h.bounds
  have hlength := length_extendDomain? hbounds
  rwa [List.length_zip, length_entriesOf? hlow, length_entriesOf? hhigh, min_self] at hlength

/-- There are two ends for every channel. -/
theorem GivenSamples.Finds.length_valueBounds (h : g.Finds mode e) :
    e.valueBounds.length = e.channels := by
  obtain ⟨low, high, hlow, hhigh, hbounds⟩ := h.valueBounds
  rw [hbounds, List.length_zip, length_entriesOf? hlow, length_entriesOf? hhigh, min_self]

/-! ## Both parts -/

theorem complete?_eq_ok_iff {given : Option (Option (List (Option (Nested α))))} :
    e.complete? given = .ok data ↔ ¬hasEmptyAxis e.bounds ∧
      ∃ spacing, spacings? e.res given = .ok spacing ∧ e.completed spacing = data := by
  unfold Extended.complete?
  simp only [guard_eq_ok, bind_eq_ok, pure_eq_ok]

/-- Samples pass the checks if they pass both parts. -/
theorem prepare_eq_ok_iff_extend? : g.prepare mode = .ok (data, notices) ↔
    ∃ e, g.extend? mode = .ok e ∧ e.complete? g.spacing = .ok data ∧ e.notices = notices := by
  unfold GivenSamples.prepare
  simp only [bind_eq_ok, pure_eq_ok, Prod.mk.injEq]
  constructor
  · rintro ⟨e, hextend, _, hcomplete, rfl, rfl⟩
    exact ⟨e, hextend, hcomplete, rfl⟩
  · rintro ⟨e, hextend, hcomplete, rfl⟩
    exact ⟨e, hextend, data, hcomplete, rfl, rfl⟩

/-- Samples are refused if one of the parts refuses them. -/
theorem prepare_eq_error_iff {reason : Failure α} : g.prepare mode = .error reason ↔
    g.extend? mode = .error reason ∨
      ∃ e, g.extend? mode = .ok e ∧ e.complete? g.spacing = .error reason := by
  unfold GivenSamples.prepare
  simp only [bind_eq_error]
  refine or_congr_right (exists_congr fun e => and_congr_right fun _ => ?_)
  exact or_iff_left fun ⟨_, _, hpure⟩ => nomatch hpure

/-- When samples pass the checks, what they are completed to, and what is reported. -/
theorem prepare_eq_ok_iff : g.prepare mode = .ok (data, notices) ↔
    ∃ e spacing, g.Finds mode e ∧ ¬hasEmptyAxis e.bounds ∧
      spacings? e.res g.spacing = .ok spacing ∧ e.completed spacing = data ∧
      e.notices = notices := by
  simp only [prepare_eq_ok_iff_extend?, extend?_eq_ok_iff, complete?_eq_ok_iff]
  constructor
  · rintro ⟨e, hfinds, ⟨hempty, spacing, hspacing, hdata⟩, hnotices⟩
    exact ⟨e, spacing, hfinds, hempty, hspacing, hdata, hnotices⟩
  · rintro ⟨e, spacing, hfinds, hempty, hspacing, hdata, hnotices⟩
    exact ⟨e, hfinds, ⟨hempty, spacing, hspacing, hdata⟩, hnotices⟩

/-! ## Reports -/

/-- What is reported of the domain. It is reported also if a check fails that comes later. -/
def GivenSamples.reported (g : GivenSamples α) (mode : Extend) : List (Notice α) :=
  match g.extend? mode with
  | .ok e => e.notices
  | .error _ => []

theorem GivenSamples.reported_of_finds (h : g.Finds mode e) : g.reported mode = e.notices := by
  unfold reported
  rw [extend?_eq_ok_iff.mpr h]

/-- If no check fails then that is all that is reported. -/
theorem reported_of_prepare_eq_ok (h : g.prepare mode = .ok (data, notices)) :
    g.reported mode = notices := by
  obtain ⟨e, -, hfinds, -, -, -, rfl⟩ := prepare_eq_ok_iff.mp h
  exact GivenSamples.reported_of_finds hfinds

/-! ## Other samples -/

/-- Samples with the same domain and the same spacings pass the checks alike. -/
theorem prepare_congr_of_extend? (h : g'.extend? mode' = g.extend? mode)
    (hspacing : g'.spacing = g.spacing) : g'.prepare mode' = g.prepare mode := by
  unfold GivenSamples.prepare
  rw [h, hspacing]

theorem reported_congr_of_extend? (h : g'.extend? mode' = g.extend? mode) :
    g'.reported mode' = g.reported mode := by
  unfold GivenSamples.reported
  rw [h]

end GridSpline
