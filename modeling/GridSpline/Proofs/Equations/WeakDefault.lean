import Mathlib
import GridSpline.Equations.WeakDefault
import GridSpline.Proofs.Equations.Assembly

/-!
# The squares of the weak default

Every node has a weighted square of its own. It couples no nodes, so its equations can always be
held; with a weight it gives every node a place on the diagonal.

## Main definitions

* `WeakFunction.IsDefinedOn` — the function has a value of a channel at every position.
* `weakSquares` — the weighted squares for given values at the nodes.

## Main statements

* `weakDefault?_eq` — the squares are made where the function is defined.
* `placed_of_mem_weakSquares` — their equations can be held.
* `totalEnergy_weakSquares` — their energy.
-/

namespace GridSpline

open Scalar Failure
open Matrix
open GridSpline.Lattice

namespace WeakFunction

/-- The function has a value of the channel at every position with the given number of
coordinates. -/
def IsDefinedOn (f : WeakFunction ℝ) (channel axes : ℕ) : Prop :=
  ∀ p : List ℝ, p.length = axes → ∃ v, f.valueAt channel p = .ok v

/-- The value of a channel at a position where there is one. -/
noncomputable def value (f : WeakFunction ℝ) (channel : ℕ) (p : List ℝ) : ℝ :=
  (f.valueAt channel p).toOption.getD 0

theorem IsDefinedOn.valueAt_eq {f : WeakFunction ℝ} {channel axes : ℕ}
    (h : f.IsDefinedOn channel axes) {p : List ℝ} (hp : p.length = axes) :
    f.valueAt channel p = .ok (f.value channel p) := by
  obtain ⟨v, hv⟩ := h p hp
  unfold value
  rw [hv]
  rfl

end WeakFunction

/-- The weight at each node. -/
noncomputable def weakNodeWeight (weight : ℝ) (nodes axes : ℕ) : ℝ :=
  weight * nominalWeakWeight / ((nodes * axes : ℕ) : ℝ)

/-- The weighted squares of nodes that are drawn to the given values. -/
def weakSquares (weight : ℝ) (values : List ℝ) : List (Residual ℝ) :=
  values.zipIdx.map fun (v, i) => { weight, base := i, terms := [(0, 1)], target := some v }

theorem nominalWeakWeight_pos : (0 : ℝ) < nominalWeakWeight := by
  unfold nominalWeakWeight
  norm_num

theorem weakNodeWeight_nonneg {weight : ℝ} (h : 0 ≤ weight) (nodes axes : ℕ) :
    0 ≤ weakNodeWeight weight nodes axes :=
  div_nonneg (mul_nonneg h nominalWeakWeight_pos.le) (Nat.cast_nonneg _)

theorem weakNodeWeight_pos_iff {weight : ℝ} {nodes axes : ℕ} (hn : 0 < nodes) (ha : 0 < axes) :
    0 < weakNodeWeight weight nodes axes ↔ 0 < weight := by
  have hpos : (0 : ℝ) < ((nodes * axes : ℕ) : ℝ) := Nat.cast_pos.mpr (Nat.mul_pos hn ha)
  unfold weakNodeWeight
  rw [div_pos_iff_of_pos_right hpos, mul_pos_iff_of_pos_right nominalWeakWeight_pos]

/-- The squares are made where the function is defined. -/
theorem weakDefault?_eq {positions : List (List ℝ)} {f : WeakFunction ℝ} {channel axes : ℕ}
    (hf : f.IsDefinedOn channel axes) (hne : positions ≠ []) (haxes : axes ≠ 0)
    (hp : ∀ p ∈ positions, p.length = axes) (weight : ℝ) :
    weakDefault? positions f channel weight =
      .ok (weakSquares (weakNodeWeight weight positions.length axes)
        (positions.map (f.value channel))) := by
  have hhead : (positions.headD []).length = axes := by
    cases positions with
    | nil => exact absurd rfl hne
    | cons p ps => exact hp p List.mem_cons_self
  have hcount : ¬positions.length * (positions.headD []).length = 0 := by
    rw [hhead]
    exact Nat.mul_ne_zero (fun h => hne (List.length_eq_zero_iff.mp h)) haxes
  unfold weakDefault? weakNodeWeight?
  rw [if_neg hcount, mapM_eq_ok_map fun p hmem => hf.valueAt_eq (hp p hmem), hhead]
  rfl

variable {res : List ℕ} {w : ℝ} {values : List ℝ}

/-- The equations of a node that is drawn to a value can be held. -/
theorem placed_of_mem_weakSquares (hlen : values.length = size res) {r : Residual ℝ}
    (hr : r ∈ weakSquares w values) : r.Placed res := by
  obtain ⟨⟨v, i⟩, hmem, rfl⟩ := List.mem_map.mp hr
  obtain ⟨-, hi, -⟩ := List.mem_zipIdx hmem
  refine ⟨fun t ht => ?_, List.pairwise_singleton _ _⟩
  rw [List.mem_singleton.mp ht]
  simp only
  omega

theorem weight_of_mem_weakSquares {r : Residual ℝ} (hr : r ∈ weakSquares w values) :
    r.weight = w := by
  obtain ⟨⟨v, i⟩, -, rfl⟩ := List.mem_map.mp hr
  rfl

/-- The linear form of a node that is drawn to a value is the value of the node. -/
theorem form_node {n : ℕ} (x : Fin n → ℝ) (i : Fin n) (weight : ℝ) (target : Option ℝ) :
    Residual.form { weight, base := (i : ℤ), terms := [(0, 1)], target } n ⬝ᵥ x = x i := by
  unfold Residual.form
  rw [dotProduct_combination]
  simp only [List.map_cons, List.map_nil, List.sum_cons, List.sum_nil, add_zero, one_mul]
  exact nodeValue_fin x i

/-- Every node adds the square of its own distance. -/
theorem totalEnergy_weakSquares {n : ℕ} (hlen : values.length = n) (w : ℝ) (x : Fin n → ℝ) :
    totalEnergy n (weakSquares w values) x = ∑ i : Fin n, w * (x i - values.getD i 0) ^ 2 := by
  subst hlen
  rw [totalEnergy_eq_sum_energy]
  unfold weakSquares
  rw [List.map_map]
  have henergy : ∀ (v : ℝ) (i : ℕ), Residual.energy
      { weight := w, base := (i : ℤ), terms := [(0, 1)], target := some v } (nodeValue x) =
        w * (nodeValue x (i : ℤ) - v) ^ 2 := by
    intro v i
    unfold Residual.energy Residual.value
    simp only [List.map_cons, List.map_nil, sum_eq, List.sum_cons, List.sum_nil, add_zero, one_mul,
      Option.getD_some]
    ring
  have hlist : values.zipIdx.map ((fun r : Residual ℝ => r.energy (nodeValue x)) ∘ fun (v, i) =>
      { weight := w, base := i, terms := [(0, 1)], target := some v }) =
      List.ofFn fun i : Fin values.length => w * (x i - values.getD i 0) ^ 2 := by
    refine List.ext_getElem (by simp) ?_
    intro i h1 h2
    rw [List.length_ofFn] at h2
    rw [List.getElem_map, List.getElem_ofFn, List.getElem_zipIdx, List.getD_eq_getElem _ _ h2,
      ← nodeValue_fin x ⟨i, h2⟩, Nat.zero_add]
    exact henergy _ _
  rw [hlist, List.sum_ofFn]

end GridSpline
