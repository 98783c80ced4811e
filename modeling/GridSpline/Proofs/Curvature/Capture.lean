import Mathlib
import GridSpline.Curvature.Capture
import GridSpline.Proofs.Equations.Stiffness
import GridSpline.Proofs.Solver.Vector

/-!
# Capturing curvature

A solution has a second difference at every node along every axis: an interior node has both
neighbours, and a spacing with one entry for every node has weights for the differences there. At
the surface it is zero.

## Main definitions

* `capturedAt` — the second difference at a node.

## Main statements

* `captureCurvature?_eq` — the second differences along all axes.
-/

namespace GridSpline

open Scalar Failure
open GridSpline.Lattice

variable {res : List ℕ} {a : Axis} {x : Array ℝ}

/-- The second difference at a node along an axis. -/
noncomputable def capturedAt {n : ℕ} (x : Fin n → ℝ) (a : Axis) (spacing : Option (List ℝ))
    (i : ℕ) : ℝ :=
  if a.IsInterior i then
    weightedDifference (differenceWeights spacing (a.coord i)) (nodeValue x (i - a.stride : ℕ))
      (nodeValue x i) (nodeValue x (i + a.stride : ℕ))
  else 0

theorem nodeValue_vectorOf {n : ℕ} (hx : x.size = n) {i : ℕ} (hi : i < n) :
    nodeValue (vectorOf n x) i = getElem x i (hx ▸ hi) := by
  have hfin := nodeValue_fin (vectorOf n x) ⟨i, hi⟩
  rw [vectorOf_apply hx] at hfin
  exact hfin

theorem captureAt?_eq (hx : x.size = size res) (ha : a ∈ axes res)
    {spacing : Option (List ℝ)} (hspacing : ∀ l, spacing = some l → l.length = a.count) {i : ℕ}
    (hi : i < size res) :
    captureAt? x a spacing i = .ok (capturedAt (vectorOf (size res) x) a spacing i) := by
  unfold captureAt? capturedAt
  by_cases hint : a.IsInterior i
  · have hbelow := stride_le_of_isInterior hint
    have habove := add_stride_lt_of_isInterior ha hi hint
    rw [if_pos hint, if_pos hint, differenceWeights?_eq hint hspacing, ok_bind,
      Array.getElem?_eq_getElem (by omega), require_some, ok_bind,
      Array.getElem?_eq_getElem (by omega), require_some, ok_bind,
      Array.getElem?_eq_getElem (by omega), require_some, ok_bind,
      nodeValue_vectorOf hx (by omega), nodeValue_vectorOf hx hi, nodeValue_vectorOf hx habove]
    rfl
  · rw [if_neg hint, if_neg hint]
    rfl

/-- The second differences along all axes. -/
noncomputable def captured (res : List ℕ) (x : Array ℝ) (spacing : List (Option (List ℝ))) :
    Curvature ℝ :=
  (axes res).map fun a => arrayOf (size res)
    (capturedAt (vectorOf (size res) x) a (spacing.getD a.index none))

theorem length_captured (res : List ℕ) (x : Array ℝ) (spacing : List (Option (List ℝ))) :
    (captured res x spacing).length = res.length := by
  unfold captured
  rw [List.length_map, axes, length_axesFrom]

theorem size_of_mem_captured {spacing : List (Option (List ℝ))} {p : Array ℝ}
    (hp : p ∈ captured res x spacing) : p.size = size res := by
  obtain ⟨a, -, rfl⟩ := List.mem_map.mp hp
  exact size_arrayOf _ _

theorem captureCurvature?_eq (hne : res ≠ []) (hx : x.size = size res)
    {spacing : List (Option (List ℝ))}
    (hspacing : List.Forall₂ (fun s r => ∀ l, s = some l → l.length = r) spacing res) :
    captureCurvature? res x spacing = .ok (captured res x spacing) := by
  unfold captureCurvature?
  rw [if_neg (by simpa using hne)]
  refine mapM_eq_ok_map fun a ha => ?_
  have hindex : a.index < spacing.length := hspacing.length_eq.symm ▸ index_lt ha
  have hcount := getElem?_index ha
  have hlength : ∀ l, spacing[a.index] = some l → l.length = a.count := by
    have hget := hspacing.get hindex (index_lt ha)
    rw [List.getElem?_eq_getElem (index_lt ha), Option.some.injEq] at hcount
    rw [← hcount]
    exact hget
  unfold captureAlong?
  rw [List.getElem?_eq_getElem hindex, require_some, ok_bind, List.getD_eq_getElem _ _ hindex,
    mapM_eq_ok_map fun i hi => captureAt?_eq hx ha hlength (List.mem_range.mp hi)]
  rfl

end GridSpline
