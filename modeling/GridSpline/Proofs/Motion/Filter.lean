import Mathlib
import GridSpline.Proofs.Curvature.Passes
import GridSpline.Proofs.Motion.Curvature

/-!
# Filtered curvature of a rearranged lattice

A pass along an axis filters its lines, which are lines of the rearranged lattice too, possibly seen
from the other end. In the rearranged lattice the passes are made in another order, which does not
matter. So filtered curvature moves with the nodes and the axes.

## Main statements

* `Relates.filterAlong_renumbered` — one pass.
* `filtered_perm` — the order of the passes does not matter.
* `Relates.moves_filteredCurvature` — the filter along all axes.
-/

namespace GridSpline

open GridSpline.Lattice

/-- The axes of a lattice with the resolutions in which smoothness is measured. -/
noncomputable def scaledAxes (res : List ℕ) (symmetric : Bool) : List (Axis × ℝ) :=
  (axes res).zip (latticeScales symmetric res)

/-- An axis is listed with one resolution. -/
theorem eq_of_mem_scaledAxes {res : List ℕ} {symmetric : Bool} {p q : Axis × ℝ}
    (hp : p ∈ scaledAxes res symmetric) (hq : q ∈ scaledAxes res symmetric)
    (h : p.1.index = q.1.index) : p = q := by
  have hplace : ∀ r ∈ scaledAxes res symmetric,
      (scaledAxes res symmetric)[r.1.index]? = some r := by
    intro r hr
    obtain ⟨e, he, rfl⟩ := List.mem_iff_getElem.mp hr
    have he' : e < (axes res).length := by
      unfold scaledAxes at he
      rw [List.length_zip] at he
      omega
    have haxis : (axes res)[e]? = some (scaledAxes res symmetric)[e].1 := by
      rw [List.getElem?_eq_getElem he']
      simp only [scaledAxes, List.getElem_zip]
    rw [(mem_axes_of_getElem? haxis).2, List.getElem?_eq_getElem he]
  have hboth := hplace p hp
  rw [h, hplace q hq, Option.some.injEq] at hboth
  exact hboth.symm

/-- The order of the passes does not matter. -/
theorem filtered_perm {res : List ℕ} (hres : ∀ r ∈ res, 2 ≤ r) (stdev : ℝ) (symmetric : Bool)
    {scaled : List (Axis × ℝ)} (h : (scaledAxes res symmetric).Perm scaled) (x : Array ℝ) :
    filtered (size res) stdev (scaledAxes res symmetric) x =
      filtered (size res) stdev scaled x := by
  unfold filtered
  -- It is enough that any two passes can be exchanged; a pass and itself can anyway.
  refine h.foldl_eq' (fun p hp q hq z => ?_) x
  have hpa := (List.of_mem_zip hp).1
  have hqa := (List.of_mem_zip hq).1
  by_cases heq : p.1.index = q.1.index
  · rw [eq_of_mem_scaledAxes hp hq heq]
  · exact filterAlong_comm (fun r hr => by have := hres r hr; omega) hpa hqa (Ne.symm heq)
      (isCentred_kernelOf stdev (hres _ (count_mem hpa)) _)
      (isCentred_kernelOf stdev (hres _ (count_mem hqa)) _) z

namespace Rearrangement.Relates

variable {m : Rearrangement} {res res' : List ℕ} (h : m.Relates res res')

include h

/-- A pass along an axis, after the rearrangement. -/
theorem filterAlong_renumbered {a : Axis} (ha : a ∈ axes res) {k : Kernel ℝ}
    (hk : k.IsCentred a.count) (x : Array ℝ) :
    filterAlong (size res') (m.axisOn res' a) k (h.renumbered x) =
      h.renumbered (filterAlong (size res) a k x) := by
  refine h.eq_renumbered (size_filterAlong _ _ _ _) fun i => ?_
  show (filterAlong _ _ k _).getD (m.nodeOn res res' i) 0 = (filterAlong _ a k x).getD i 0
  have hcoord := h.coord_lt ha i
  rw [getD_filterAlong _ k _ (h.nodeOn_lt i), getD_filterAlong a k x i.isLt, h.coord_axisOn ha]
  -- The line of a node is met again, from its other end if the axis is reversed.
  have hline : ∀ p < a.count, (h.renumbered x).getD
      (lineNode (m.axisOn res' a) (m.nodeOn res res' i) (m.turn a.index a.count p)) 0 =
        x.getD (lineNode a i p) 0 := by
    intro p hp
    rw [← h.nodeOn_lineNode ha i.isLt hp, h.getD_renumbered x (lineNode_lt_size ha i.isLt hp)]
  unfold turn at *
  show filteredAt k a.count _ _ = _
  cases hrev : m.reversed a.index with
  | false =>
    simp only [hrev, Bool.false_eq_true, if_false] at hline ⊢
    exact filteredAt_congr hk hline hcoord
  | true =>
    simp only [hrev, if_true] at hline ⊢
    exact filteredAt_reverse hk hline hcoord

/-- Passes along several axes, after the rearrangement. -/
theorem filtered_renumbered (stdev : ℝ) {scaled : List (Axis × ℝ)}
    (hscaled : ∀ p ∈ scaled, p.1 ∈ axes res) (x : Array ℝ) :
    filtered (size res') stdev (scaled.map fun p => (m.axisOn res' p.1, p.2)) (h.renumbered x) =
      h.renumbered (filtered (size res) stdev scaled x) := by
  unfold filtered
  rw [List.foldl_map]
  induction scaled generalizing x with
  | nil => rfl
  | cons p scaled ih =>
    have hp := hscaled p List.mem_cons_self
    have hcentred := isCentred_kernelOf stdev (h.two_le _ (count_mem hp)) (⌊p.2⌋ : ℤ)
    rw [List.foldl_cons, List.foldl_cons, ← ih fun q hq => hscaled q (List.mem_cons_of_mem p hq)]
    congr 1
    exact h.filterAlong_renumbered hp hcentred x

/-- The filter along all axes, after the rearrangement. -/
theorem moves_filteredCurvature (stdev : ℝ) (symmetric : Bool) {ccv ccv' : Curvature ℝ}
    (hccv : Moves m.axis (fun _ => h.renumbered) ccv ccv') :
    Moves m.axis (fun _ => h.renumbered) (filteredCurvature res stdev symmetric ccv)
      (filteredCurvature res' stdev symmetric ccv') := by
  have hscaled : ((scaledAxes res symmetric).map fun p => (m.axisOn res' p.1, p.2)).Perm
      (scaledAxes res' symmetric) := by
    have hmoves := h.moves_axes.zip (h.moves_latticeScales symmetric)
    exact (hmoves.perm_map (f := fun p : Axis × ℝ => (m.axisOn res' p.1, p.2))).symm
  refine hccv.map fun e x _ => ?_
  show filtered _ stdev (scaledAxes res' symmetric) _ = _
  rw [filtered_perm h.two_le' stdev symmetric hscaled.symm]
  exact h.filtered_renumbered stdev (fun p hp => (List.of_mem_zip hp).1) x

end Rearrangement.Relates

end GridSpline
