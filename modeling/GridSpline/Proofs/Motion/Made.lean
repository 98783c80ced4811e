import Mathlib
import GridSpline.Proofs.Fit.Solved
import GridSpline.Proofs.Fit.Spacing
import GridSpline.Proofs.Motion.Level

/-!
# Making the levels of a moved problem

A level that is made for the moved samples is the moved level: the polygon of a spacing is the same
read from its other end, the stiffness along an axis depends on the resolutions only as a whole, and
the nodes are where those of the level are moved to.

## Main statements

* `downsampleSpacing_reverse` — the spacing of a coarser level from its other end.
* `IsMoved.exists_stiffnessWeights?` — the stiffness.
* `IsMoved.exists_make?` — the level.
-/

namespace GridSpline

open Scalar Failure
open GridSpline.Lattice

/-! ## Spacings -/

theorem passed_sub (last j : ℕ) (t : ℝ) (hj : j < last) :
    passed (last - t) (last - 1 - j) = 1 - passed t j := by
  have hcast : ((last - 1 - j : ℕ) : ℝ) = last - 1 - j := by
    rw [Nat.cast_sub (by omega), Nat.cast_sub (by omega), Nat.cast_one]
  unfold passed
  rw [hcast]
  rcases le_total t j with hle | hge
  · rw [min_eq_left (by linarith), max_eq_right zero_le_one, min_eq_right (by linarith),
      max_eq_left (by linarith), sub_zero]
  · rcases le_total (t - j) 1 with hin | hout
    · rw [min_eq_right (by linarith), max_eq_right (by linarith), min_eq_right hin,
        max_eq_right (by linarith)]
      ring
    · rw [min_eq_right (by linarith), max_eq_left (by linarith), min_eq_left hout,
        max_eq_right zero_le_one, sub_self]

theorem coarsePlace_reverse {last count i : ℕ} (hi : i < count) (hcount : 2 ≤ count) :
    coarsePlace last count (count - 1 - i) = last - coarsePlace last count i := by
  have hne : ((count - 1 : ℕ) : ℝ) ≠ 0 := by
    rw [Nat.cast_ne_zero]
    omega
  unfold coarsePlace
  rw [Nat.cast_sub (show i ≤ count - 1 by omega)]
  field_simp

/-- What is passed of a polygon up to a place is all of it but for what is passed from its other
end. -/
theorem sum_passed_reverse (l : List ℝ) (t : ℝ) :
    ∑ j ∈ Finset.range (l.length - 1), passed t j *
        (l.reverse.getD (j + 1) 0 - l.reverse.getD j 0) =
      ∑ j ∈ Finset.range (l.length - 1), passed ((l.length - 1 : ℕ) - t) j *
        (l.getD (j + 1) 0 - l.getD j 0) - (l.getD (l.length - 1) 0 - l.getD 0 0) := by
  rw [← Finset.sum_range_sub fun j => l.getD j 0, ← Finset.sum_sub_distrib,
    ← Finset.sum_range_reflect]
  refine Finset.sum_congr rfl fun j hj => ?_
  have hlt := Finset.mem_range.mp hj
  -- The shares of a step from the two ends add up to one.
  have hshare := passed_sub (l.length - 1) (l.length - 1 - 1 - j) t (by omega)
  rw [show l.length - 1 - 1 - (l.length - 1 - 1 - j) = j by omega] at hshare
  rw [getD_reverse (show l.length - 1 - 1 - j + 1 + j + 1 = l.length by omega),
    getD_reverse (show l.length - 1 - 1 - j + (j + 1) + 1 = l.length by omega), hshare]
  ring

/-- The spacing of a coarser level from its other end. -/
theorem downsampleSpacing_reverse {l : List ℝ} (hl : l ≠ []) {count : ℕ} (hcount : 2 ≤ count) :
    downsampleSpacing l.reverse count = (downsampleSpacing l count).reverse := by
  have hpos : 0 < l.length := List.length_pos_iff.mpr hl
  refine List.ext_getElem (by rw [List.length_reverse, length_downsampleSpacing,
    length_downsampleSpacing]) fun i h1 h2 => ?_
  rw [length_downsampleSpacing] at h1
  have hi : count - 1 - i < count := by omega
  have hthere : (downsampleSpacing l count).reverse[i] =
      (downsampleSpacing l count).getD (count - 1 - i) 0 := by
    rw [List.getElem_reverse, List.getD_eq_getElem _ _ (by rwa [length_downsampleSpacing])]
    simp only [length_downsampleSpacing]
  have hends : l.reverse.getD 0 0 = l.getD (l.length - 1) 0 := getD_reverse (by omega)
  rw [hthere, ← List.getD_eq_getElem _ 0, getD_downsampleSpacing (by simpa using hl) hcount h1,
    getD_downsampleSpacing hl hcount hi, List.length_reverse, coarsePlace_reverse h1 hcount, hends,
    sum_passed_reverse]
  ring

namespace Prepared.IsMoved

variable {v : Motion} {data data' : Prepared ℝ} (h : data.IsMoved v data')
  {res res' : List ℕ} (rel : v.rearrangement.Relates res res')

include h rel

/-- The spacings on a lattice. -/
theorem moves_spacingOn (hvalid : data.IsValid) :
    Moves v.axis v.rearrangement.turnSpacing (data.spacingOn res) (data'.spacingOn res') := by
  refine h.spacing.zipWith rel.resolutions fun e s r hs hr => ?_
  have hr2 := rel.two_le r (List.mem_of_getElem? hr)
  unfold Rearrangement.turnSpacing
  cases s with
  | none => split <;> rfl
  | some l =>
    split
    · have hl : l ≠ [] := by
        obtain ⟨he, hel⟩ := List.getElem?_eq_some_iff.mp hs
        have he' : e < data.res.length := hvalid.spacing.length_eq ▸ he
        have hcount := (hvalid.spacing.get he he' l hel).1
        have htwo := hvalid.resolutions _ (List.getElem_mem he')
        simp only [List.get_eq_getElem] at hcount
        exact List.length_pos_iff.mp (by omega)
      simp only [Option.map_some]
      rw [downsampleSpacing_reverse hl hr2]
    · rfl

end Prepared.IsMoved

/-! ## Stiffness -/

namespace Rearrangement.Relates

variable {m : Rearrangement} {res res' : List ℕ} (h : m.Relates res res')

include h

theorem interiorCount_eq : interiorCount res' = interiorCount res := by
  rw [GridSpline.interiorCount_eq, GridSpline.interiorCount_eq, (h.resolutions.perm.map _).prod_eq]

end Rearrangement.Relates

namespace Fit.IsMoved

variable {v : Motion} {fit fit' : Fit ℝ} {data data' : Prepared ℝ}
  (h : fit.IsMoved v fit' data data')

include h

/-- Smoothness is weighted by the same factor. -/
theorem smoothnessFactor?_eq (axes : ℕ) (channel : ℤ) (secondPass : Bool) :
    smoothnessFactor? fit' axes channel secondPass =
      smoothnessFactor? fit axes channel secondPass := by
  have hsmoothness : fit'.settings.smoothness = fit.settings.smoothness := by rw [h.settings]
  have hcount : data'.samples.length = data.samples.length := by
    rw [h.data.samples, List.length_map]
  have hdeviation : fit'.deviationOf? channel = fit.deviationOf? channel := by
    unfold deviationOf?
    rw [h.ready'.deviation, h.ready.deviation, h.data.deviation]
  unfold smoothnessFactor?
  rw [h.twoPass, hsmoothness, h.ready'.prepared?_eq, h.ready.prepared?_eq, hdeviation]
  simp only [ok_bind, hcount]

variable {res res' : List ℕ} (rel : v.rearrangement.Relates res res')

include rel

/-- The stiffness along the axes. -/
theorem exists_stiffnessWeights? {channel : ℤ} {secondPass : Bool} {weights : List ℝ}
    (hweights : stiffnessWeights? fit res channel secondPass = .ok weights) :
    ∃ weights', stiffnessWeights? fit' res' channel secondPass = .ok weights' ∧
      Moves v.axis (fun _ w => w) weights weights' := by
  unfold stiffnessWeights? at hweights ⊢
  simp only [rel.interiorCount_eq, rel.length_eq, h.smoothnessFactor?_eq, h.symmetricDomain]
    at hweights ⊢
  by_cases hinterior : interiorCount res ≤ 0
  · rw [if_pos hinterior, pure_eq_ok] at hweights
    rw [if_pos hinterior]
    subst hweights
    exact ⟨_, rfl, rel.resolutions.map fun _ _ _ => rfl⟩
  · rw [if_neg hinterior, bind_eq_ok] at hweights
    obtain ⟨factor, hfactor, hweights⟩ := hweights
    rw [pure_eq_ok] at hweights
    subst hweights
    rw [if_neg hinterior, hfactor]
    exact ⟨_, rfl, (rel.moves_latticeScales fit.symmetricDomain).map fun _ _ _ => rfl⟩

end Fit.IsMoved

namespace Level

theorem stiffness_make? {fit : Fit ℝ} {res : List ℕ} {channel : ℤ} {secondPass : Bool}
    {level : Level ℝ} (h : make? fit res channel secondPass = .ok level) :
    stiffnessWeights? fit res channel secondPass = .ok level.stiffness := by
  unfold make? at h
  simp only [bind_eq_ok, pure_eq_ok] at h
  obtain ⟨-, -, -, -, -, -, weights, hweights, -, -, -, -, -, -, rfl⟩ := h
  exact hweights

end Level

namespace Fit.IsMoved

variable {v : Motion} {fit fit' : Fit ℝ} {data data' : Prepared ℝ}
  (h : fit.IsMoved v fit' data data') {res res' : List ℕ}
  (rel : v.rearrangement.Relates res res') (hlen : res.length = data.res.length)
  {channel : ℕ} (hc : channel < data.channels) (secondPass : Bool)

include h rel hlen hc

/-- The level of a lattice, and that of the rearranged lattice. -/
theorem exists_make? : ∃ level level',
    Level.make? fit res channel secondPass = .ok level ∧
    Level.make? fit' res' channel secondPass = .ok level' ∧
    level.IsPosed fit data channel ∧ level'.IsPosed fit' data' channel ∧
    level.IsLaidOn data res ∧ level'.IsLaidOn data' res' ∧ level.IsMoved v level' := by
  have hlen' : res'.length = data'.res.length := by
    rw [rel.length_eq, hlen, h.data.res.length_eq]
  obtain ⟨level, hmake, hposed, hlaid, hccv⟩ :=
    h.ready.exists_make? hlen rel.two_le hc secondPass
  obtain ⟨level', hmake', hposed', hlaid', hccv'⟩ :=
    h.ready'.exists_make? hlen' rel.two_le' (h.data.channels ▸ hc) secondPass
  refine ⟨level, level', hmake, hmake', hposed, hposed', hlaid, hlaid', ?_⟩
  have hlow := h.ready.valid.length_low hlen
  have hhigh := h.ready.valid.length_high hlen
  have hlow' := h.ready'.valid.length_low hlen'
  have hhigh' := h.ready'.valid.length_high hlen'
  obtain ⟨weights, hweights, hstiff⟩ :=
    h.exists_stiffnessWeights? rel (Level.stiffness_make? hmake)
  rw [Level.stiffness_make? hmake', Except.ok.injEq] at hweights
  subst hweights
  have hres := hlaid.res_eq
  have hres' := hlaid'.res_eq
  have hordered : ∀ b ∈ data.low.zip data.high, b.1 < b.2 := fun b hb =>
    (List.forall₂_iff_zip.mp h.ready.valid.bounds).2 hb
  subst hres hres'
  refine ⟨rel, hstiff, ?_, ?_, fun i => ?_, fun p hp => ?_⟩
  · rw [hlaid.spacing, hlaid'.spacing]
    exact h.data.moves_spacingOn rel h.ready.valid
  · rw [hccv, hccv']
    exact .none
  · have hpermutes : Permutes v.axis (level.positionOf i).length :=
      (hposed.length_positionOf i).symm ▸ rel.permutes
    refine Moves.ext ?_ (v.moves_point hpermutes)
    unfold Level.positionOf
    rw [hlaid.low, hlaid.width, hlaid'.low, hlaid'.width]
    exact Motion.moves_nodePosition rel h.data.bounds hlow hhigh hlow' hhigh' i
  · rw [hlaid.low, hlaid.width, hlaid'.low, hlaid'.width]
    exact Motion.moves_placeAt rel h.data.bounds hlow hhigh hlow' hhigh' hordered hp

end Fit.IsMoved

end GridSpline
