import Mathlib
import GridSpline.Proofs.Fit.Energy
import GridSpline.Proofs.Fit.Pivot

/-!
# Adding the misfit to the targets

Between two passes the misfit of every sample is added to its target. Nothing but the targets
changes, and there are as many of them as before, so a fit that is ready stays ready, and the nodes
that were held are held again.

## Main definitions

* `Prepared.IsRetargeted` — the same samples with other targets.
* `Level.addMisfit` — the samples with their misfits added.

## Main statements

* `IsRetargeted.isReady` — a fit that is ready stays ready.
* `IsPosed.addMisfit?_eq` — the misfits of a solution can be added.
* `IsPosed.targetIn_addMisfit` — the new target of a sample.
-/

namespace GridSpline

open Scalar Failure
open Matrix
open GridSpline.Lattice

/-! ## Other targets -/

/-- The same samples with other targets. -/
structure Prepared.IsRetargeted (data next : Prepared ℝ) : Prop where
  rest : next = { data with samples := next.samples }
  samples : List.Forall₂ (fun s t => t = { s with targets := t.targets }) data.samples next.samples
  targets : ∀ t ∈ next.samples, t.targets.length = data.channels

namespace Prepared.IsRetargeted

variable {data next : Prepared ℝ}

theorem refl (h : data.IsValid) : data.IsRetargeted data where
  rest := rfl
  samples := List.forall₂_same.mpr fun _ _ => rfl
  targets := h.targets

theorem trans {last : Prepared ℝ} (h : data.IsRetargeted next) (h' : next.IsRetargeted last) :
    data.IsRetargeted last where
  rest := by
    rw [h'.rest, h.rest]
  samples := by
    have hlen := h.samples.length_eq
    refine List.forall₂_iff_get.mpr ⟨hlen.trans h'.samples.length_eq, ?_⟩
    intro i h1 h2
    have hfirst := h.samples.get h1 (hlen ▸ h1)
    have hsecond := h'.samples.get (hlen ▸ h1) h2
    rw [hsecond, hfirst]
  targets t ht := by
    rw [h'.targets t ht, h.rest]

variable (h : data.IsRetargeted next)

include h

theorem res : next.res = data.res := by
  rw [h.rest]

theorem channels : next.channels = data.channels := by
  rw [h.rest]

theorem rangeOf (channel : ℕ) : next.rangeOf channel = data.rangeOf channel := by
  rw [h.rest]
  rfl

theorem spacingOn (res : List ℕ) : next.spacingOn res = data.spacingOn res := by
  rw [h.rest]
  rfl

theorem get_eq (m : Fin data.samples.length) :
    next.samples.get (m.cast h.samples.length_eq) = { (data.samples.get m) with
      targets := (next.samples.get (m.cast h.samples.length_eq)).targets } :=
  h.samples.get m.isLt (h.samples.length_eq ▸ m.isLt)

/-- Every sample is one of the earlier ones but for its targets. -/
theorem exists_mem {t : Sample ℝ} (ht : t ∈ next.samples) :
    ∃ s ∈ data.samples, t = { s with targets := t.targets } := by
  obtain ⟨i, hi, rfl⟩ := List.mem_iff_getElem.mp ht
  have hi' : i < data.samples.length := h.samples.length_eq ▸ hi
  exact ⟨_, List.getElem_mem hi', h.samples.get hi' hi⟩

theorem exists_mem' {s : Sample ℝ} (hs : s ∈ data.samples) :
    ∃ t ∈ next.samples, t = { s with targets := t.targets } := by
  obtain ⟨i, hi, rfl⟩ := List.mem_iff_getElem.mp hs
  have hi' : i < next.samples.length := h.samples.length_eq ▸ hi
  exact ⟨_, List.getElem_mem hi', h.samples.get hi hi'⟩

/-- What holds a node does not depend on the targets. -/
theorem holdsNode_iff (settings : Settings ℝ) (res : List ℕ) (channel i : ℕ) :
    next.HoldsNode settings res channel i ↔ data.HoldsNode settings res channel i := by
  have hnear : ∀ p, next.IsNear res p i ↔ data.IsNear res p i := by
    intro p
    unfold Prepared.IsNear
    rw [h.rest]
  have hsamples : (∃ t ∈ next.samples, next.IsNear res t.position i) ↔
      ∃ s ∈ data.samples, data.IsNear res s.position i := by
    constructor
    · rintro ⟨t, ht, hpos⟩
      obtain ⟨s, hs, heq⟩ := h.exists_mem ht
      rw [heq] at hpos
      exact ⟨s, hs, (hnear _).mp hpos⟩
    · rintro ⟨s, hs, hpos⟩
      obtain ⟨t, ht, heq⟩ := h.exists_mem' hs
      refine ⟨t, ht, ?_⟩
      rw [heq]
      exact (hnear _).mpr hpos
  unfold Prepared.HoldsNode
  rw [h.rangeOf, hsamples]

theorem isValid (hvalid : data.IsValid) : next.IsValid := by
  rw [h.rest]
  refine { hvalid with
    inside := fun t ht => ?_, values := fun t ht => ?_, weights := fun t ht => ?_
    weights_pos := fun t ht => ?_, targets := h.targets, range_nonneg := fun hne => ?_ }
  · obtain ⟨s, hs, heq⟩ := h.exists_mem ht
    rw [heq]
    exact hvalid.inside s hs
  · obtain ⟨s, hs, heq⟩ := h.exists_mem ht
    rw [heq]
    exact hvalid.values s hs
  · obtain ⟨s, hs, heq⟩ := h.exists_mem ht
    rw [heq]
    exact hvalid.weights s hs
  · obtain ⟨s, hs, heq⟩ := h.exists_mem ht
    rw [heq]
    exact hvalid.weights_pos s hs
  · refine hvalid.range_nonneg fun hnil => hne ?_
    have hlen := h.samples.length_eq
    rw [hnil, List.length_nil] at hlen
    exact List.length_eq_zero_iff.mp hlen.symm

/-- A fit that is ready stays ready. -/
theorem isReady {fit : Fit ℝ} (hready : fit.IsReady data) (reports : List (SolveReport ℝ)) :
    ({ fit with prepared := some next, reports } : Fit ℝ).IsReady next := by
  have hvalid := h.isValid hready.valid
  rw [h.rest] at hvalid ⊢
  exact ⟨rfl, hvalid, hready.grid, hready.deviation, hready.smoothness, hready.weak,
    hready.weakFunction, hready.lineSweeps⟩

theorem length_samples : next.samples.length = data.samples.length := h.samples.length_eq.symm

theorem samples_ne_nil (hne : data.samples ≠ []) : next.samples ≠ [] := by
  intro hnil
  have hlen := h.length_samples
  rw [hnil, List.length_nil] at hlen
  exact hne (List.length_eq_zero_iff.mp hlen.symm)

theorem keepsApart {res : List ℕ} (hapart : data.KeepsApart res) : next.KeepsApart res := by
  unfold Prepared.KeepsApart
  rwa [h.spacingOn]

theorem positions_eq : next.samples.map (·.position) = data.samples.map (·.position) := by
  refine List.ext_getElem (by simp only [List.length_map, h.length_samples]) ?_
  intro i h1 h2
  rw [List.length_map] at h1 h2
  have hsame := h.samples.get h2 h1
  simp only [List.get_eq_getElem] at hsame
  rw [List.getElem_map, List.getElem_map, hsame]

/-- A level does not depend on the targets, before its equations are set up. -/
theorem make?_eq {fit : Fit ℝ} (hfit : fit.prepared = some data) (reports : List (SolveReport ℝ))
    (res : List ℕ) (channel : ℤ) (secondPass : Bool) :
    Level.make? { fit with prepared := some next, reports } res channel secondPass =
      Level.make? fit res channel secondPass := by
  have hfactor : smoothnessFactor? { fit with prepared := some next, reports } res.length channel
      secondPass = smoothnessFactor? fit res.length channel secondPass := by
    unfold smoothnessFactor?
    simp only [Fit.prepared?, hfit, require_some, ok_bind, h.length_samples]
    rfl
  have hstiffness : stiffnessWeights? { fit with prepared := some next, reports } res channel
      secondPass = stiffnessWeights? fit res channel secondPass := by
    unfold stiffnessWeights?
    rw [hfactor]
  unfold Level.make?
  rw [hstiffness]
  simp only [Fit.prepared?, hfit, require_some, ok_bind, h.positions_eq, h.res]
  rfl

end Prepared.IsRetargeted

/-! ## The misfit -/

namespace Level

/-- The misfits of a node vector, from the values at the samples. -/
noncomputable def misfits (level : Level ℝ) (data : Prepared ℝ) (channel : ℕ) : List ℝ :=
  List.zipWith (· - ·) (data.samples.map (·.valueIn channel))
    (level.interpolation.mulVec level.x).toList

/-- The samples with their misfits added. -/
noncomputable def addMisfit (level : Level ℝ) (data : Prepared ℝ) (channel : ℕ) : Prepared ℝ :=
  { data with
    samples := List.zipWith (addToTarget channel) (level.misfits data channel) data.samples }

namespace IsPosed

variable {level : Level ℝ} {fit : Fit ℝ} {data : Prepared ℝ} {channel : ℕ}
  (h : level.IsPosed fit data channel)

include h

theorem length_misfits : (level.misfits data channel).length = data.samples.length := by
  have hrows : (level.interpolation.mulVec level.x).size = data.samples.length := by
    rw [SparseMatrix.size_mulVec, h.tidy_interpolation.1.rows]
  unfold misfits
  rw [List.length_zipWith, List.length_map, Array.length_toList, hrows, min_self]

/-- The misfits of a solution can be added. -/
theorem addMisfit?_eq (hvalid : data.IsValid) (hc : channel < data.channels)
    (hx : level.x.size = size level.res) :
    level.addMisfit? data = .ok (level.addMisfit data channel) := by
  have hvalues : ∀ s ∈ data.samples, channel < s.values.length := by
    intro s hs
    rwa [hvalid.values s hs]
  have hfitted : level.interpolate? = .ok (level.interpolation.mulVec level.x) := by
    unfold interpolate?
    rw [SparseMatrix.mulVec?_eq h.tidy_interpolation.1 hx, require_some]
  have hlength : (level.interpolation.mulVec level.x).toList.length =
      (data.samples.map fun s => s.values.getD channel 0).length := by
    rw [Array.length_toList, SparseMatrix.size_mulVec, h.tidy_interpolation.1.rows, List.length_map]
  unfold addMisfit?
  rw [h.isChannel, position?_ofNat hc, require_some, ok_bind, channelOf?_eq hvalues, ok_bind,
    hfitted, ok_bind, stretch?_of_length hlength, require_some, ok_bind]
  rfl

/-- Only targets have changed. -/
theorem isRetargeted_addMisfit (hvalid : data.IsValid) :
    data.IsRetargeted (level.addMisfit data channel) := by
  have hlen := h.length_misfits
  refine ⟨rfl, List.forall₂_iff_get.mpr ⟨?_, ?_⟩, ?_⟩
  · show _ = (List.zipWith _ _ _).length
    rw [List.length_zipWith, hlen, min_self]
  · intro i h1 h2
    simp only [addMisfit, List.get_eq_getElem, List.getElem_zipWith]
    rfl
  · intro t ht
    obtain ⟨i, hi, rfl⟩ := List.mem_iff_getElem.mp ht
    simp only [addMisfit, List.getElem_zipWith, addToTarget, List.length_modify]
    exact hvalid.targets _ (List.getElem_mem _)

/-- The misfit of a sample. -/
theorem getElem_misfits {i : ℕ} (hi : i < data.samples.length)
    (hi' : i < (level.misfits data channel).length) :
    (level.misfits data channel)[i] = data.samples[i].valueIn channel -
      (level.sampleMatrix data *ᵥ vectorOf (size level.res) level.x) ⟨i, hi⟩ := by
  have hrow : i < (level.interpolation.mulVec level.x).size := by
    rw [SparseMatrix.size_mulVec, h.tidy_interpolation.1.rows]
    exact hi
  have hfitted : (level.sampleMatrix data *ᵥ vectorOf (size level.res) level.x) ⟨i, hi⟩ =
      (level.interpolation.mulVec level.x)[i] := by
    unfold sampleMatrix
    rw [← SparseMatrix.vectorOf_mulVec h.tidy_interpolation.1]
    unfold vectorOf
    rw [Array.getD_eq_getD_getElem?, Array.getElem?_eq_getElem hrow, Option.getD_some]
  rw [hfitted]
  simp only [misfits, List.getElem_zipWith, List.getElem_map, Array.getElem_toList]

/-- The new target of a sample. -/
theorem targetIn_addMisfit {i : ℕ} (hi : i < data.samples.length)
    (hi' : i < (level.addMisfit data channel).samples.length) :
    (level.addMisfit data channel).samples[i].targetIn channel =
      data.samples[i].targetIn channel + (data.samples[i].valueIn channel -
        (level.sampleMatrix data *ᵥ vectorOf (size level.res) level.x) ⟨i, hi⟩) := by
  have htarget : channel < data.samples[i].targets.length := h.targets _ (List.getElem_mem _)
  have hlt : i < (level.misfits data channel).length := by rwa [h.length_misfits]
  have hsample : (level.addMisfit data channel).samples[i] =
      addToTarget channel (level.misfits data channel)[i] data.samples[i] :=
    List.getElem_zipWith ..
  rw [hsample, h.getElem_misfits hi hlt]
  unfold Sample.targetIn addToTarget
  rw [List.getD_eq_getElem _ _ (by rw [List.length_modify]; exact htarget),
    List.getD_eq_getElem _ _ htarget, List.getElem_modify, if_pos rfl]

end IsPosed

end Level

end GridSpline
