import Mathlib
import GridSpline.Grid.Monotone
import GridSpline.Proofs.Dense.Components
import GridSpline.Proofs.Lattice.Layout

/-!
# What monotone grids are

Only neighbouring nodes are compared when a grid is searched for changes of direction. Along a line
this decides the order of all nodes, and so a grid changes no direction exactly if every channel
rises between any two nodes that differ along one axis, or falls between any two of them, whichever
line they are on.

## Main definitions

* `Grid.valueAt` — the value of a channel at the node with the given coordinates.
* `FollowsAlong` — coordinates that differ along one axis alone.

## Main statements

* `Grid.exists_shapedValues?` — the values in the shape of the lattice.
* `forall_steps_iff` — what holds of neighbours holds of all nodes of a line.
* `Grid.isNonMonotonic_eq_false_iff` — grids that change no direction.
-/

namespace GridSpline

open Scalar
open GridSpline.Lattice

/-- The second coordinates are those of the first along all axes but one, and not smaller along
that one. -/
def FollowsAlong (e : ℕ) (p q : List ℕ) : Prop :=
  (∀ k, k ≠ e → p[k]? = q[k]?) ∧ p.getD e 0 ≤ q.getD e 0

/-- The value of a channel at the node with the given coordinates, which is addressed by their sum
times the strides. -/
def Grid.valueAt (g : Grid ℝ) (x : Array ℝ) (c : List ℕ) : ℝ :=
  x.getD (List.zipWith (· * ·) c (strides g.res)).sum 0

theorem Grid.valueAt_eq (g : Grid ℝ) (x : Array ℝ) {c : List ℕ} (hc : Within g.res c) :
    g.valueAt x c = x.getD (nodeOf g.res c) 0 := by
  unfold valueAt
  rw [sum_mul_strides hc]

/-! ## The shape of the lattice -/

/-- In the shape of the lattice a value stands at the coordinates of its node. -/
theorem Grid.exists_shapedValues? (g : Grid ℝ) : ∃ shaped, g.shapedValues? = some shaped ∧
    shaped.shape = g.res ++ [g.values.length] ∧
    ∀ f x c, g.values[f]? = some x → Within g.res c →
      shaped.get? (c ++ [f]).reverse = some (g.valueAt x c) := by
  have hrow : ∀ i ∈ List.range (size g.res),
      (g.values.map (·.getD i 0)).length = g.values.length := fun i _ => List.length_map _
  have hdata : g.valueTable.data =
      ((List.range (size g.res)).flatMap fun i => g.values.map (·.getD i 0)).toArray := by
    unfold valueTable Dense.table
    rw [List.flatMap_def]
  have hshape : g.valueTable.shape = size g.res :: [g.values.length] := by
    unfold valueTable Dense.table
    rw [List.length_map, List.length_range]
  have hfull : g.valueTable.data.size = size g.valueTable.shape := by
    rw [hdata, hshape, List.size_toArray, length_flatMap_of_length hrow, List.length_range]
    simp [size]
  obtain ⟨shaped, hshaped, hshaped', -, hget⟩ := Dense.exists_reshape?_append hshape hfull
  refine ⟨shaped, ?_, hshaped', fun f x c hx hc => ?_⟩
  · unfold shapedValues? shaped?
    rw [hshape]
    exact hshaped
  · obtain ⟨hf, hx'⟩ := List.getElem?_eq_some_iff.mp hx
    rw [hget c [f] hc ⟨hf, trivial⟩, valueAt_eq g x hc]
    have hplace : nodeOf g.valueTable.shape.reverse [nodeOf g.res c, f].reverse =
        nodeOf g.res c * g.values.length + f := by
      rw [hshape]
      simp [nodeOf]
      ring
    unfold Dense.get?
    rw [hplace, hdata, List.getElem?_toArray, getElem?_flatMap_mul_add hrow _ hf,
      List.getElem?_range (nodeOf_lt_size hc), Option.bind_some, List.getElem?_map, hx]
    rfl

/-! ## Along one axis -/

section Axis

variable {res : List ℕ} {a : Axis} (ha : a ∈ axes res)

include ha

/-- Coordinates that differ along one axis alone are those of a step along it. -/
theorem FollowsAlong.exists_eq_set {p q : List ℕ} (h : FollowsAlong a.index p q)
    (hp : Within res p) (hq : Within res q) : ∃ s t, p[a.index]? = some s ∧ s ≤ t ∧ t < a.count ∧
      q = p.set a.index t := by
  obtain ⟨hsame, hle⟩ := h
  have hindex := index_lt ha
  have hplen : a.index < p.length := by rwa [length_of_within hp]
  have hqlen : a.index < q.length := by rwa [length_of_within hq]
  rw [List.getD_eq_getElem _ _ hplen, List.getD_eq_getElem _ _ hqlen] at hle
  have hcount := (within_iff.mp hq).get hqlen hindex
  obtain ⟨_, hcount'⟩ := List.getElem?_eq_some_iff.mp (getElem?_index ha)
  refine ⟨p[a.index], q[a.index], List.getElem?_eq_getElem hplen, hle, ?_, ?_⟩
  · rwa [List.get_eq_getElem, List.get_eq_getElem, hcount'] at hcount
  · refine List.ext_getElem? fun k => ?_
    rw [List.getElem?_set]
    by_cases hk : a.index = k
    · subst hk
      rw [if_pos rfl, if_pos hplen, List.getElem?_eq_getElem hqlen]
    · rw [if_neg hk, hsame k (Ne.symm hk)]

section Steps

variable {x : Array ℝ} {R : ℝ → ℝ → Prop} (hrefl : ∀ y, R y y)
  (htrans : ∀ y z w, R y z → R z w → R y w)

include hrefl htrans in
/-- What holds of neighbours along an axis holds of a node and any later one on its line: the nodes
from the one to the other are gone through one by one. -/
theorem rel_set_of_steps
    (h : ∀ i < size res, a.coord i + 1 < a.count → R (x.getD i 0) (x.getD (i + a.stride) 0))
    {p : List ℕ} (hp : Within res p) {s t : ℕ} (hs : p[a.index]? = some s) (hst : s ≤ t)
    (ht : t < a.count) :
    R (x.getD (nodeOf res p) 0) (x.getD (nodeOf res (p.set a.index t)) 0) := by
  induction t, hst using Nat.le_induction with
  | base =>
    obtain ⟨_, rfl⟩ := List.getElem?_eq_some_iff.mp hs
    rw [List.set_getElem_self]
    exact hrefl _
  | succ t _ ih =>
    have hbefore := within_set hp (getElem?_index ha) (Nat.lt_of_succ_lt ht)
    have hplace : (p.set a.index t)[a.index]? = some t := by
      rw [List.getElem?_set_self (by rw [length_of_within hp]; exact index_lt ha)]
    have hcoord := getElem?_coordsOf ha (nodeOf res (p.set a.index t))
    rw [coordsOf_nodeOf hbefore, hplace, Option.some.injEq] at hcoord
    have hnext := nodeOf_set (k := 1) ha hplace (length_of_within hbefore)
    rw [List.set_set, one_mul] at hnext
    refine htrans _ _ _ (ih (Nat.lt_of_succ_lt ht)) ?_
    rw [hnext]
    exact h _ (nodeOf_lt_size hbefore) (hcoord ▸ ht)

omit ha in
theorem followsAlong_set (e : ℕ) {p : List ℕ} {s t : ℕ} (hs : p[e]? = some s) (hst : s ≤ t) :
    FollowsAlong e p (p.set e t) := by
  obtain ⟨he, rfl⟩ := List.getElem?_eq_some_iff.mp hs
  refine ⟨fun k hk => by rw [List.getElem?_set_ne hk.symm], ?_⟩
  rw [List.getD_eq_getElem _ _ he, List.getD_eq_getElem _ _ (by simpa using he),
    List.getElem_set_self]
  exact hst

/-- A neighbour along an axis is a node that follows. -/
theorem steps_of_rel (h : ∀ p q, Within res p → Within res q → FollowsAlong a.index p q →
      R (x.getD (nodeOf res p) 0) (x.getD (nodeOf res q) 0)) {i : ℕ} (hi : i < size res)
    (hlt : a.coord i + 1 < a.count) : R (x.getD i 0) (x.getD (i + a.stride) 0) := by
  have hnext := coordsOf_add_mul_stride (k := 1) (pos_of_lt_size hi) ha hi hlt
  have hinside := add_mul_stride_lt_size (k := 1) ha hi hlt
  rw [one_mul] at hnext hinside
  have hstep := h _ _ (within_coordsOf_of_lt hi) (within_coordsOf_of_lt hinside)
    (hnext ▸ followsAlong_set a.index (getElem?_coordsOf ha i) (Nat.le_succ _))
  rwa [nodeOf_coordsOf hi, nodeOf_coordsOf hinside] at hstep

include hrefl htrans in
/-- What holds of neighbours along an axis holds of any two nodes of a line. -/
theorem forall_steps_iff :
    (∀ i < size res, a.coord i + 1 < a.count → R (x.getD i 0) (x.getD (i + a.stride) 0)) ↔
      ∀ p q, Within res p → Within res q → FollowsAlong a.index p q →
        R (x.getD (nodeOf res p) 0) (x.getD (nodeOf res q) 0) := by
  constructor
  · intro h p q hp hq hpq
    obtain ⟨s, t, hs, hst, ht, rfl⟩ := hpq.exists_eq_set ha hp hq
    exact rel_set_of_steps ha hrefl htrans h hp hs hst ht
  · intro h i hi hlt
    exact steps_of_rel ha h hi hlt

end Steps

end Axis

theorem forall_mem_stepsAlong_iff {res : List ℕ} {a : Axis} {x : Array ℝ} {P : ℝ → Prop} :
    (∀ d ∈ stepsAlong res a x, P d) ↔ ∀ i < size res, a.coord i + 1 < a.count →
      P (x.getD (i + a.stride) 0 - x.getD i 0) := by
  unfold stepsAlong
  constructor
  · intro h i hi hlt
    exact h _ (List.mem_map_of_mem
      (List.mem_filter.mpr ⟨List.mem_range.mpr hi, decide_eq_true hlt⟩))
  · intro h d hd
    obtain ⟨i, hi, rfl⟩ := List.mem_map.mp hd
    obtain ⟨hi, hlt⟩ := List.mem_filter.mp hi
    exact h i (List.mem_range.mp hi) (of_decide_eq_true hlt)

/-- There is no change of direction along an axis if there is no step down or no step up. -/
theorem changesDirection_eq_false_iff {res : List ℕ} {a : Axis} {x : Array ℝ} :
    changesDirection res a x = false ↔
      (∀ i < size res, a.coord i + 1 < a.count → x.getD i 0 ≤ x.getD (i + a.stride) 0) ∨
      ∀ i < size res, a.coord i + 1 < a.count → x.getD (i + a.stride) 0 ≤ x.getD i 0 := by
  unfold changesDirection
  simp only [Bool.and_eq_false_iff, List.any_eq_false, decide_eq_true_eq, not_lt,
    forall_mem_stepsAlong_iff, sub_nonneg, sub_nonpos]
  exact or_comm

/-! ## All axes -/

/-- A grid changes no direction exactly if along every axis every channel rises on all lines, or
falls on all lines. In the shape of the lattice the values compared stand at the same coordinates. -/
theorem Grid.isNonMonotonic_eq_false_iff (g : Grid ℝ) :
    (∃ shaped, g.shapedValues? = some shaped ∧ shaped.shape = g.res ++ [g.values.length] ∧
      ∀ (f : ℕ) x p, g.values[f]? = some x → Within g.res p →
        shaped.get? (p ++ [f]).reverse = some (g.valueAt x p)) ∧
    (g.isNonMonotonic = false ↔ ∀ x ∈ g.values, ∀ e < g.res.length,
      (∀ p q, Within g.res p → Within g.res q → FollowsAlong e p q →
        g.valueAt x p ≤ g.valueAt x q) ∨
      ∀ p q, Within g.res p → Within g.res q → FollowsAlong e p q →
        g.valueAt x q ≤ g.valueAt x p) := by
  refine ⟨g.exists_shapedValues?, ?_⟩
  have haxis : ∀ x, ∀ a ∈ axes g.res, changesDirection g.res a x = false ↔
      (∀ p q, Within g.res p → Within g.res q → FollowsAlong a.index p q →
        g.valueAt x p ≤ g.valueAt x q) ∨
      ∀ p q, Within g.res p → Within g.res q → FollowsAlong a.index p q →
        g.valueAt x q ≤ g.valueAt x p := by
    intro x a ha
    rw [changesDirection_eq_false_iff,
      forall_steps_iff (R := (· ≤ ·)) ha le_refl fun _ _ _ => le_trans,
      forall_steps_iff (R := (· ≥ ·)) ha le_refl fun _ _ _ => ge_trans]
    refine or_congr ?_ ?_ <;>
      refine forall₂_congr fun p q => forall₂_congr fun hp hq => ?_ <;>
      rw [g.valueAt_eq x hp, g.valueAt_eq x hq]
  unfold isNonMonotonic
  simp only [List.any_eq_false, Bool.not_eq_true]
  constructor
  · intro h x hx e he
    obtain ⟨a, ha, rfl⟩ := exists_axis he
    exact (haxis x a ha).mp (h a ha x hx)
  · intro h a ha x hx
    exact (haxis x a ha).mpr (h x hx a.index (index_lt ha))

end GridSpline
