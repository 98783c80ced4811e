import Mathlib
import GridSpline.Proofs.Motion.Given

/-!
# Reordered axes

The axes of the input space are put in another order. The problem then has the reordered ladder, and
on every lattice of it a node keeps its coordinates, listed in the new order, while its number and
the strides of the axes change. Up to the numbers of the nodes it has the same equations, first node
values and curvature, and its grids change direction if those of the given problem do.

## Main definitions

* `Motion.reordering` — the axes are put in another order.

## Main statements

* `Relates.isNonMonotonic_eq` — changes of direction on a reordered grid.
* `IsAccepted.exists_ladder_reordered` — the levels of the reordered problem.
-/

namespace GridSpline

open Scalar Failure
open GridSpline.Lattice

/-- The axes are put in another order. -/
def Motion.reordering (σ : Equiv.Perm ℕ) : Motion where
  axis := σ
  factor _ := 1
  shift _ := 0
  factor_ne _ := one_ne_zero

/-! ## Changes of direction -/

namespace Rearrangement.Relates

variable {m : Rearrangement} {res res' : List ℕ} (rel : m.Relates res res')
  (hkept : ∀ e, m.reversed e = false)

include rel hkept

/-- The steps along an axis, in another order. -/
theorem perm_stepsAlong {a : Axis} (ha : a ∈ axes res) (x : Array ℝ) :
    (stepsAlong res' (m.axisOn res' a) (rel.renumbered x)).Perm (stepsAlong res a x) := by
  have hturn : ∀ e count c, m.turn e count c = c := by
    intro e count c
    unfold turn
    rw [hkept]
    rfl
  have hcoord : ∀ i, (m.axisOn res' a).coord (m.nodeOn res res' i) = a.coord i := fun i =>
    (rel.coord_axisOn ha i).trans (hturn _ _ _)
  unfold stepsAlong
  refine ((rel.perm_nodes.filter _).map _).trans (.of_eq ?_)
  have hinside : (fun i => decide ((m.axisOn res' a).coord i + 1 < (m.axisOn res' a).count)) ∘
      m.nodeOn res res' = fun i => decide (a.coord i + 1 < a.count) := by
    funext i
    rw [Function.comp_apply, hcoord]
    rfl
  rw [List.filter_map, List.map_map, hinside]
  refine List.map_congr_left fun i hi => ?_
  obtain ⟨hi, hlt⟩ := List.mem_filter.mp hi
  have hi := List.mem_range.mp hi
  have hlt := of_decide_eq_true hlt
  -- The next node along the axis goes to the next node along the axis.
  have hnext := rel.nodeOn_lineNode ha hi hlt
  rw [hturn, ← hcoord, lineNode_coord_succ, hcoord, lineNode_coord_succ] at hnext
  have hinside := lineNode_lt_size ha hi hlt
  rw [lineNode_coord_succ] at hinside
  rw [Function.comp_apply, ← hnext, rel.getD_renumbered x hinside, rel.getD_renumbered x hi]

theorem changesDirection_axisOn {a : Axis} (ha : a ∈ axes res) (x : Array ℝ) :
    changesDirection res' (m.axisOn res' a) (rel.renumbered x) = changesDirection res a x := by
  have hperm := rel.perm_stepsAlong hkept ha x
  unfold changesDirection
  simp only
  rw [hperm.any_eq, hperm.any_eq]

/-- A grid changes direction if the reordered one does. -/
theorem isNonMonotonic_eq {g g' : Grid ℝ} (hres : g.res = res) (hres' : g'.res = res')
    (hvalues : g'.values = g.values.map rel.renumbered) : g'.isNonMonotonic = g.isNonMonotonic := by
  unfold Grid.isNonMonotonic
  rw [hres, hres', hvalues, rel.perm_axes.any_eq, List.any_map]
  rw [Bool.eq_iff_iff, List.any_eq_true, List.any_eq_true]
  refine exists_congr fun a => and_congr_right fun ha => ?_
  rw [Function.comp_apply, List.any_map]
  have hsame : changesDirection res' (m.axisOn res' a) ∘ rel.renumbered = changesDirection res a :=
    funext fun x => rel.changesDirection_axisOn hkept ha x
  rw [hsame]

end Rearrangement.Relates

namespace Fit.IsAccepted

variable {f f' : Fit ℝ} {c : CheckedSettings ℝ} {data : Prepared ℝ}

/-- Reordered axes. -/
theorem exists_ladder_reordered (h : f.IsAccepted c data) {σ : Equiv.Perm ℕ}
    (hmoved : f.IsGivenMoved (Motion.reordering σ) data.res.length f') :
    ∃ data' ladder, f'.IsAccepted c data' ∧ data.IsMoved (Motion.reordering σ) data' ∧
      (fitLadder? data.res : Except (Failure ℝ) _) = .ok ladder ∧
      (fitLadder? data'.res : Except (Failure ℝ) _) = .ok (ladder.map (moved σ fun _ r => r)) ∧
      ladder.getLast? = some data.res ∧
      ∃ last : (Motion.reordering σ).rearrangement.Relates data.res data'.res,
      (∀ g g' : Grid ℝ, g.res = data.res → g'.res = data'.res →
        g'.values = g.values.map last.renumbered → g'.isNonMonotonic = g.isNonMonotonic) ∧
      ∀ res ∈ ladder, ∃ rel : (Motion.reordering σ).rearrangement.Relates res
          (moved σ (fun _ r => r) res),
        Moves σ (fun _ r => r) res (moved σ (fun _ r => r) res) ∧
        (∀ i : Fin (size res), Moves σ (fun _ k => k) (coordsOf res i)
          (coordsOf (moved σ (fun _ r => r) res) (rel.nodes i))) ∧
        ∀ next, data.IsRetargeted next → rel.ClimbsAlike last ((f.begun c data ladder).holding next)
          ((f'.begun c data' (ladder.map (moved σ fun _ r => r))).holding
            ((Motion.reordering σ).retarget next data')) data.channels := by
  obtain ⟨data', h', hdata⟩ := h.exists_isMoved hmoved
  -- No axis is reversed, so coordinates are only listed in another order.
  have hkept : ∀ e, (Motion.reordering σ).rearrangement.reversed e = false := fun _ =>
    decide_eq_false (zero_le_one (α := ℝ)).not_gt
  have last : (Motion.reordering σ).rearrangement.Relates data.res data'.res :=
    ⟨hdata.res, h.isValid.resolutions⟩
  obtain ⟨ladder, hladder, hladder', hlast, hlevels⟩ := last.exists_fitLadder? h.isValid.axes
  refine ⟨data', ladder, h', hdata, hladder, hladder', hlast, last,
    fun g g' hres hres' hvalues => last.isNonMonotonic_eq hkept hres hres' hvalues,
    fun res hres => ?_⟩
  obtain ⟨hlen, rel⟩ := hlevels res hres
  refine ⟨rel, rel.resolutions, fun i => ?_, fun next hto =>
    h.climbsAlike hmoved h' hdata last ladder _ hto rel hlen⟩
  refine (rel.moves_coordsOf i).congr fun e k _ => ?_
  unfold Rearrangement.turnOn Rearrangement.turn
  rw [hkept]
  rfl

end Fit.IsAccepted

/-! ## Two axes swapped -/

namespace Fit

/-- The input `uneven` with its axes swapped. -/
noncomputable def unevenSwapped : Fit ℝ :=
  narrowOn #[.integer 5, .integer 3]
    (some (some [some (.block { shape := [5], data := #[0, 0.1, 0.3, 0.4, 0.5] }), none]))

theorem moves_swap {α β : Type} {g : ℕ → α → β} {x y : α} {x' y' : β} (hx : g 0 x = x')
    (hy : g 1 y = y') : Moves (Equiv.swap 0 1) g [x, y] [y', x'] := by
  intro e
  match e with
  | 0 | 1 => simp [hx, hy]
  | e + 2 =>
    rw [Equiv.swap_apply_of_ne_of_ne (by omega) (by omega)]
    rfl

theorem isGivenMoved_unevenSwapped :
    uneven.IsGivenMoved (Motion.reordering (Equiv.swap 0 1)) 2 unevenSwapped where
  given := {
    resolution := ⟨_, _, rfl, rfl, moves_swap rfl rfl⟩
    positions := by
      have hpoint : (Motion.reordering (Equiv.swap 0 1)).point [0, 0] = [0, 0] := by
        simp [Motion.point, moved, Motion.reordering, Motion.coordinate, List.range_succ]
      refine ⟨⟨2, [[0, 0]]⟩, rfl, ?_⟩
      rw [List.map_singleton, hpoint]
      rfl
    bounds := by
      have hkept : ∀ e b, (Motion.reordering (Equiv.swap 0 1)).interval e b = b := by
        intro e b
        simp [Motion.reordering, Motion.interval, Motion.coordinate]
      exact ⟨[0, 0], [1, 1], [0, 0], [1, 1], rfl, rfl, rfl, rfl, moves_swap (hkept _ _) (hkept _ _)⟩
    spacing := by
      have hkept : ∀ e s,
          (Motion.reordering (Equiv.swap 0 1)).rearrangement.turnSpacing e s = s := by
        intro e s
        simp [Motion.reordering, Motion.rearrangement, Rearrangement.turnSpacing,
          (zero_le_one (α := ℝ)).not_gt]
      exact .given (moves_swap rfl (congrArg some (hkept _ _)))
    values := rfl
    weights := rfl
    valueLow := rfl
    valueHigh := rfl
    deviation := rfl }
  settings := rfl
  twoPass := rfl
  symmetricDomain := rfl

/-- The swapped problem: on the final lattice a node keeps its coordinates, swapped, and the
equations are the same up to the numbers of the nodes. -/
theorem exists_ladder_reordered_uneven : ∃ data' ladder ladder',
    unevenSwapped.IsAccepted narrowSettings data' ∧
    (fitLadder? [3, 5] : Except (Failure ℝ) _) = .ok ladder ∧
    (fitLadder? [5, 3] : Except (Failure ℝ) _) = .ok ladder' ∧
    ∃ (π : Fin (size [3, 5]) ≃ Fin (size [5, 3])) (level level' : Level ℝ) (A A' : PackedMatrix ℝ),
      (∀ i : Fin (size [3, 5]), Moves (Equiv.swap 0 1) (fun _ k => k) (coordsOf [3, 5] i)
        (coordsOf [5, 3] (π i))) ∧
      Level.equations? (uneven.begun narrowSettings
        (narrowDataOn 3 5 [none, some [0, 0.1, 0.3, 0.4, 0.5]]) ladder) [3, 5] 0 false none =
          .ok level ∧
      Level.equations? (unevenSwapped.begun narrowSettings data' ladder') [5, 3] 0 false none =
        .ok level' ∧
      level.matrix = some A ∧ level'.matrix = some A' ∧
      A'.toSparse.toMatrix (size [5, 3]) (size [5, 3]) =
        Matrix.reindex π π (A.toSparse.toMatrix (size [3, 5]) (size [3, 5])) := by
  obtain ⟨data', ladder, h', hdata, hladder, hladder', hlast, last, -, hlevels⟩ :=
    isAccepted_uneven.exists_ladder_reordered isGivenMoved_unevenSwapped
  have hdata' : data'.res = [5, 3] := hdata.res.ext (moves_swap rfl rfl)
  obtain ⟨rel, -, hcoords, hclimb⟩ := hlevels [3, 5] (List.mem_of_getLast? hlast)
  obtain ⟨level, level', hlevel, hlevel', hsame⟩ :=
    (hclimb _ (.refl isAccepted_uneven.isValid)).levels 0 Nat.one_pos false none none .none
  obtain ⟨A, A', hA, hA', hmatrix⟩ := hsame.matrix
  rw [hdata.retarget_self] at hlevel'
  rw [hdata'] at hladder'
  exact ⟨data', ladder, _, h', hladder, hladder', rel.nodes, level, level', A, A', hcoords, hlevel,
    hlevel', hA, hA', hmatrix⟩

end Fit

end GridSpline
