import Mathlib
import GridSpline.Proofs.Curvature.Capture
import GridSpline.Proofs.Curvature.Downsample
import GridSpline.Proofs.Equations.Affine
import GridSpline.Proofs.Motion.Equations

/-!
# Curvature of a rearranged lattice

Where an axis is reversed, the upper difference at a node becomes the lower one, and if the spacing
is reversed too so do their weights. So the second difference at a node is what it was. Captured
curvature moves with the nodes, and its parts with the axes; and so does what is carried to another
lattice.

## Main definitions

* `Rearrangement.turnSpacing` — the spacing of an axis after the rearrangement.

## Main statements

* `secondDifferenceAt_turn` — a second difference is the same from both ends.
* `Relates.moves_captured` — capturing.
* `Relates.moves_downsampled` — carrying to another lattice.
-/

namespace GridSpline

open GridSpline.Lattice

/-! ## Second differences -/

theorem getD_reverse {l : List ℝ} {i j : ℕ} (h : i + j + 1 = l.length) :
    l.reverse.getD i 0 = l.getD j 0 := by
  rw [List.getD_eq_getElem _ _ (by rw [List.length_reverse]; omega),
    List.getD_eq_getElem _ _ (by omega), List.getElem_reverse]
  congr 1
  omega

/-- From the other end the two differences change their roles. -/
theorem differenceWeights_reverse {l : List ℝ} {c d : ℕ} (hc : 1 ≤ c) (hd : 1 ≤ d)
    (h : c + d + 1 = l.length) :
    differenceWeights (some l.reverse) d = (differenceWeights (some l) c).swap := by
  unfold differenceWeights
  simp only
  rw [getD_reverse (show d + c + 1 = l.length by omega),
    getD_reverse (show d - 1 + (c + 1) + 1 = l.length by omega),
    getD_reverse (show d + 1 + (c - 1) + 1 = l.length by omega), abs_sub_comm (l.getD c 0),
    abs_sub_comm (l.getD (c - 1) 0), mul_comm]
  rfl

/-- The spacing of an axis has an entry for every node along it. -/
theorem length_getD_spacing {res : List ℕ} {spacing : List (Option (List ℝ))}
    (h : List.Forall₂ (fun s r => ∀ l, s = some l → l.length = r) spacing res) {a : Axis}
    (ha : a ∈ axes res) : ∀ l, spacing.getD a.index none = some l → l.length = a.count := by
  have hindex := index_lt ha
  have hlt : a.index < spacing.length := h.length_eq ▸ hindex
  have hplace := getElem?_index ha
  rw [List.getElem?_eq_getElem hindex, Option.some.injEq] at hplace
  rw [List.getD_eq_getElem _ _ hlt, ← hplace]
  exact h.get hlt hindex

namespace Rearrangement

variable (m : Rearrangement)

/-- The spacing of an axis after the rearrangement. -/
def turnSpacing (e : ℕ) (s : Option (List ℝ)) : Option (List ℝ) :=
  if m.reversed e then s.map List.reverse else s

/-- A second difference is the same from both ends. -/
theorem secondDifferenceAt_turn {e count c : ℕ} {s : Option (List ℝ)}
    (hlen : ∀ l, s = some l → l.length = count) (hc : 1 ≤ c) (hcount : c + 2 ≤ count)
    {v v' : ℕ → ℝ} (hv : ∀ p < count, v' (m.turn e count p) = v p) :
    secondDifferenceAt (m.turnSpacing e s) v' (m.turn e count c) = secondDifferenceAt s v c := by
  have hbefore := hv (c - 1) (by omega)
  have hhere := hv c (by omega)
  have hafter := hv (c + 1) (by omega)
  unfold turnSpacing turn at *
  cases hrev : m.reversed e with
  | false =>
    simp only [hrev, Bool.false_eq_true, if_false] at hbefore hhere hafter ⊢
    unfold secondDifferenceAt
    rw [hbefore, hhere, hafter]
  | true =>
    simp only [hrev, if_true] at hbefore hhere hafter ⊢
    -- The node before becomes the node after, and so do the weights.
    have hweights : differenceWeights (s.map List.reverse) (count - 1 - c) =
        (differenceWeights s c).swap := by
      cases s with
      | none => rfl
      | some l =>
        have hl := hlen l rfl
        exact differenceWeights_reverse hc (by omega) (by omega)
    have h1 : count - 1 - c - 1 = count - 1 - (c + 1) := by omega
    have h2 : count - 1 - c + 1 = count - 1 - (c - 1) := by omega
    unfold secondDifferenceAt
    rw [hweights, h1, h2, hbefore, hhere, hafter]
    simp only [Prod.fst_swap, Prod.snd_swap]
    ring

namespace Relates

variable {m} {res res' : List ℕ} (h : m.Relates res res')

include h

/-- The second difference at a node along an axis, after the rearrangement. -/
theorem secondDifferenceAt_axisOn {a : Axis} (ha : a ∈ axes res) {i : ℕ} (hi : i < size res)
    (hint : a.IsInterior i) {s : Option (List ℝ)} (hlen : ∀ l, s = some l → l.length = a.count)
    (x : Fin (size res) → ℝ) :
    secondDifferenceAt (m.turnSpacing a.index s)
        (fun p => nodeValue (x ∘ h.nodes.symm)
          (lineNode (m.axisOn res' a) (m.nodeOn res res' i) p : ℕ))
        ((m.axisOn res' a).coord (m.nodeOn res res' i)) =
      secondDifferenceAt s (fun p => nodeValue x (lineNode a i p : ℕ)) (a.coord i) := by
  rw [h.coord_axisOn ha]
  refine m.secondDifferenceAt_turn hlen hint.1 hint.2 fun p hp => ?_
  rw [← h.nodeOn_lineNode ha hi hp, h.nodeValue_comp_symm x (lineNode_lt_size ha hi hp)]

end Relates

end Rearrangement

/-- The node and its neighbours are on the line through the node. -/
theorem capturedAt_eq {n : ℕ} (x : Fin n → ℝ) (a : Axis) (s : Option (List ℝ)) (i : ℕ) :
    capturedAt x a s i = if a.IsInterior i then
      secondDifferenceAt s (fun p => nodeValue x (lineNode a i p : ℕ)) (a.coord i) else 0 := by
  unfold capturedAt
  split
  · rename_i hint
    unfold secondDifferenceAt weightedDifference
    simp only
    rw [lineNode_coord_pred hint.1, lineNode_coord, lineNode_coord_succ]
  · rfl

namespace Rearrangement.Relates

variable {m : Rearrangement} {res res' : List ℕ} (h : m.Relates res res')

include h

/-- The second differences of node values, after the rearrangement. -/
theorem moves_captured {x : Array ℝ} {spacing spacing' : List (Option (List ℝ))}
    (hlen : List.Forall₂ (fun s r => ∀ l, s = some l → l.length = r) spacing res)
    (hs : Moves m.axis m.turnSpacing spacing spacing') :
    Moves m.axis (fun _ => h.renumbered) (captured res x spacing)
      (captured res' (h.renumbered x) spacing') := by
  refine h.moves_axes.map fun e a hea => ?_
  obtain ⟨ha, rfl⟩ := mem_axes_of_getElem? hea
  have hlt : a.index < spacing.length := hlen.length_eq ▸ index_lt ha
  have hcount := length_getD_spacing hlen ha
  refine h.arrayOf_eq_renumbered fun i hi => ?_
  rw [capturedAt_eq, capturedAt_eq, h.vectorOf_renumbered,
    show (m.axisOn res' a).index = m.axis a.index from rfl, hs.getD hlt none]
  by_cases hint : a.IsInterior i
  · rw [if_pos hint, if_pos ((h.isInterior_axisOn ha i).mpr hint)]
    exact h.secondDifferenceAt_axisOn ha hi hint hcount _
  · rw [if_neg hint, if_neg fun hint' => hint ((h.isInterior_axisOn ha i).mp hint')]

/-! ## Another lattice -/

theorem meanResolution_eq :
    meanResolution (scalars res' : List ℝ) = meanResolution (scalars res : List ℝ) := by
  have hperm : (scalars res' : List ℝ).Perm (scalars res) := h.resolutions.perm.map _
  unfold meanResolution
  rw [← List.prod_eq_foldl, ← List.prod_eq_foldl, hperm.prod_eq, hperm.length_eq]

/-- The resolutions in which smoothness is measured. -/
theorem moves_latticeScales (symmetric : Bool) : Moves m.axis (fun _ s => s)
    (latticeScales symmetric res : List ℝ) (latticeScales symmetric res') := by
  have hscalars : Moves m.axis (fun _ s => s) (scalars res : List ℝ) (scalars res') :=
    h.resolutions.map fun _ _ _ => rfl
  unfold latticeScales scaleResolutions
  cases symmetric with
  | true => exact hscalars
  | false =>
    simp only [Bool.false_eq_true, if_false]
    rw [h.meanResolution_eq, hscalars.length_eq]
    rw [show (scalars res : List ℝ).length = res.length from List.length_map _]
    exact moves_replicate h.permutes _

theorem moves_downsampled {target target' : List ℕ} (ht : m.Relates target target')
    (symmetric : Bool) {ccv ccv' : Curvature ℝ}
    (hccv : Moves m.axis (fun _ => h.renumbered) ccv ccv') :
    Moves m.axis (fun _ => ht.renumbered) (downsampled res target symmetric ccv)
      (downsampled res' target' symmetric ccv') := by
  have hscales : Moves m.axis (fun _ s => s) (curvatureScales res target symmetric)
      (curvatureScales res' target' symmetric) :=
    (h.moves_latticeScales symmetric).zipWith (ht.moves_latticeScales symmetric)
      fun _ _ _ _ _ => rfl
  refine hccv.zipWith hscales fun e p s _ _ => ?_
  rw [map_arrayOf, map_arrayOf]
  refine ht.arrayOf_eq_renumbered fun i _ => ?_
  rw [h.vectorOf_renumbered, h.carried_nodeOn ht]

end Rearrangement.Relates

end GridSpline
