import Mathlib
import GridSpline.Proofs.Motion.Given
import GridSpline.Proofs.Sample.Written

/-!
# Moving what is given

Whatever a fit accepts can be moved by every motion that puts the axes of the fit in some order.
What is given by axis is written down anew as a vector, and the positions as a table.

## Main statements

* `Fit.IsAccepted.exists_isGivenMoved` — accepted input can be moved.
-/

namespace GridSpline

open Scalar Failure
open GridSpline.Lattice

/-! ## Moving it -/

namespace Rearrangement

variable (m : Rearrangement)

/-- A spacing, written down from the other end where its axis is reversed. One that cannot be read
stays as it is. -/
def turnGiven (e : ℕ) (given : Nested ℝ) : Nested ℝ :=
  match m.turnSpacing e given.entries? with
  | none => given
  | some l => .block (.vector l)

theorem entries?_turnGiven (e : ℕ) (given : Nested ℝ) :
    (m.turnGiven e given).entries? = m.turnSpacing e given.entries? := by
  unfold turnGiven
  cases hturned : m.turnSpacing e given.entries? with
  | some l => exact Nested.entries?_vector l
  | none =>
    unfold turnSpacing at hturned
    split at hturned
    · exact Option.map_eq_none_iff.mp hturned
    · exact hturned

end Rearrangement

namespace Motion

variable {v : Motion}

/-- Bounds, one for each axis, can be moved. -/
theorem exists_bounds {axes : ℕ} (hv : Permutes v.axis axes) {low high : List ℝ}
    (hlow : low.length = axes) (hhigh : high.length = axes) : ∃ low' high' : List ℝ,
      low'.length = axes ∧ high'.length = axes ∧
      Moves v.axis v.interval (low.zip high) (low'.zip high') := by
  have hlen : (low.zip high).length = axes := by rw [List.length_zip, hlow, hhigh, min_self]
  have hmoves := moves_moved v.interval (hlen ▸ hv)
  have hcount := hmoves.length_eq.trans hlen
  refine ⟨(moved v.axis v.interval (low.zip high)).map (·.1),
    (moved v.axis v.interval (low.zip high)).map (·.2), ?_, ?_, ?_⟩
  · rw [List.length_map, hcount]
  · rw [List.length_map, hcount]
  · rw [List.zip_map', List.map_id']
    exact hmoves

/-- Spacings that pass the checks can be moved. -/
theorem exists_movesSpacings {res : List ℕ} (hv : Permutes v.axis res.length)
    {given : Option (Option (List (Option (Nested ℝ))))} {spacing : List (Spacing ℝ)}
    (h : spacings? res given = .ok spacing) : ∃ given', MovesSpacings v given given' := by
  match given with
  | none => exact ⟨none, .none⟩
  | some none => cases h
  | some (some l) =>
    obtain ⟨hlen, -, -⟩ := spacings?_some_iff.mp h
    have hmoves := moves_moved (fun e => Option.map (v.rearrangement.turnGiven e)) (hlen ▸ hv)
    refine ⟨_, .given (hmoves.map fun e given _ => ?_)⟩
    rw [Option.map_map, Option.map_map]
    exact congrArg (fun F => Option.map F given) (funext (v.rearrangement.entries?_turnGiven e))

end Motion

namespace Fit.IsAccepted

variable {f : Fit ℝ} {c : CheckedSettings ℝ} {data : Prepared ℝ} (h : f.IsAccepted c data)

include h

/-- Accepted input can be moved. -/
theorem exists_isGivenMoved {v : Motion} (hv : Permutes v.axis data.res.length) :
    ∃ f', f.IsGivenMoved v data.res.length f' := by
  have hyields := GivenSamples.prepare_iff.mp h.prepared
  obtain ⟨l, hl, -, hcount⟩ := resolutions?_iff.mp hyields.resolutions
  have hlen : l.length = data.res.length := by rw [hcount, List.length_map]
  obtain ⟨low, high, -, hlow, hhigh, -⟩ := hyields.bounds
  obtain ⟨low', high', hlow', hhigh', hbounds⟩ :=
    Motion.exists_bounds hv (length_entriesOf? hlow) (length_entriesOf? hhigh)
  obtain ⟨given', hgiven⟩ := Motion.exists_movesSpacings hv hyields.spacing
  have hsamples := hyields.samples
  unfold GivenSamples.samples? at hsamples
  simp only [bind_eq_ok] at hsamples
  obtain ⟨t, ht, -⟩ := hsamples
  have hrows : ∀ r ∈ t.rows.map v.point, r.length = t.columns := by
    intro r hr
    obtain ⟨p, hp, rfl⟩ := List.mem_map.mp hr
    rw [v.length_point, length_row_ofNested? ht p hp]
  have : Inhabited (Number ℝ) := ⟨.integer 0⟩
  refine ⟨{ f with
    given := { f.given with
      resolution := some (.block (.vector (moved v.axis (fun _ r => r) l)))
      positions := .block (.table t.columns (t.rows.map v.point))
      low := some (.block (.vector low'))
      high := some (.block (.vector high'))
      spacing := given' }
    settings := { f.settings with weakFunction := f.settings.weakFunction.map v.default } },
    ⟨?_, rfl, rfl, rfl⟩⟩
  exact {
    resolution := ⟨l, _, hl, Nested.entries?_vector _, moves_moved _ (hlen ▸ hv)⟩
    positions := ⟨t, ht,
      SampleTable.ofNested?_table _ _ (t := { t with rows := t.rows.map v.point }) hrows⟩
    bounds := ⟨low, high, low', high', hlow, hhigh, entriesOf?_vector _ _ hlow',
      entriesOf?_vector _ _ hhigh', hbounds⟩
    spacing := hgiven
    values := rfl
    weights := rfl
    valueLow := rfl
    valueHigh := rfl
    deviation := rfl }

end Fit.IsAccepted

end GridSpline
