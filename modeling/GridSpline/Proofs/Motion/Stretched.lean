import Mathlib
import GridSpline.Proofs.Motion.Given

/-!
# Stretched, shifted and reversed axes

Every axis of the input space is mapped to itself, stretched by a factor and shifted; a negative
factor reverses it. The mapped problem has the same ladder, and on every lattice of it the nodes are
counted from the other end along exactly the reversed axes. Up to these numbers it has the same
equations, first node values and curvature. In particular nothing depends on the units in which the
axes are measured.

## Main definitions

* `Motion.stretching` — the axes are stretched and shifted.

## Main statements

* `IsAccepted.exists_ladder_stretched` — the levels of the mapped problem.
-/

namespace GridSpline

open Scalar Failure
open GridSpline.Lattice

/-- Every axis stays where it is, stretched by a factor and shifted. -/
def Motion.stretching (factor shift : ℕ → ℝ) (h : ∀ e, factor e ≠ 0) : Motion where
  axis := Equiv.refl ℕ
  factor
  shift
  factor_ne := h

namespace Rearrangement.Relates

variable {m : Rearrangement} {res : List ℕ} (rel : m.Relates res res)

/-- Where no axis is put elsewhere or reversed, all nodes keep their numbers. -/
theorem nodes_eq_refl (haxis : m.axis = Equiv.refl ℕ)
    (hkept : ∀ e < res.length, m.reversed e = false) : rel.nodes = Equiv.refl _ := by
  refine Equiv.ext fun i => Fin.ext ?_
  rw [rel.nodes_apply, Equiv.refl_apply]
  refine (rel.eq_nodeOn i.isLt fun e => ?_).symm
  rw [haxis, Equiv.refl_apply]
  cases hc : (coordsOf res i)[e]? with
  | none => rfl
  | some c =>
    have he := (List.getElem?_eq_some_iff.mp hc).1
    rw [length_coordsOf] at he
    unfold turnOn turn
    rw [hkept e he]
    rfl

/-- Node values stay where they are if the nodes do. -/
theorem renumbered_eq_self (h : rel.nodes = Equiv.refl _) {x : Array ℝ} (hx : x.size = size res) :
    rel.renumbered x = x := by
  refine (rel.eq_renumbered hx fun i => ?_).symm
  rw [h, Equiv.refl_apply]

end Rearrangement.Relates

namespace Fit.IsAccepted

variable {f f' : Fit ℝ} {c : CheckedSettings ℝ} {data : Prepared ℝ}

/-- Stretched, shifted and reversed axes. -/
theorem exists_ladder_stretched (h : f.IsAccepted c data) {factor shift : ℕ → ℝ}
    (hfactor : ∀ e, factor e ≠ 0)
    (hmoved : f.IsGivenMoved (Motion.stretching factor shift hfactor) data.res.length f') :
    ∃ data' ladder, f'.IsAccepted c data' ∧
      data.IsMoved (Motion.stretching factor shift hfactor) data' ∧ data'.res = data.res ∧
      (fitLadder? data.res : Except (Failure ℝ) _) = .ok ladder ∧
      (fitLadder? data'.res : Except (Failure ℝ) _) = .ok ladder ∧
      ladder.getLast? = some data.res ∧
      ∃ last : (Motion.stretching factor shift hfactor).rearrangement.Relates data.res data'.res,
      ∀ res ∈ ladder, ∃ rel : (Motion.stretching factor shift hfactor).rearrangement.Relates res res,
        (∀ (i : Fin (size res)) (e : ℕ), (coordsOf res (rel.nodes i))[e]? =
          (coordsOf res i)[e]?.map fun k => if factor e < 0 then res.getD e 0 - 1 - k else k) ∧
        (∀ next, data.IsRetargeted next → rel.ClimbsAlike last
          ((f.begun c data ladder).holding next)
          ((f'.begun c data' ladder).holding
            ((Motion.stretching factor shift hfactor).retarget next data')) data.channels) ∧
        ((∀ e < res.length, 0 < factor e) →
          rel.nodes = Equiv.refl _ ∧ ∀ x : Array ℝ, x.size = size res → rel.renumbered x = x) := by
  obtain ⟨data', h', hdata⟩ := h.exists_isMoved hmoved
  -- Every axis stays where it is, and so do its resolutions.
  have hsame : ∀ l : List ℕ, moved (Motion.stretching factor shift hfactor).rearrangement.axis
      (fun _ r => r) l = l := by
    intro l
    exact (moves_moved _ fun _ => Iff.rfl).ext fun e => (Option.map_id' ..).symm
  have last : (Motion.stretching factor shift hfactor).rearrangement.Relates data.res data'.res :=
    ⟨hdata.res, h.isValid.resolutions⟩
  obtain ⟨ladder, hladder, hladder', hlast, hlevels⟩ := last.exists_fitLadder? h.isValid.axes
  rw [List.map_congr_left fun l _ => hsame l, List.map_id'] at hladder'
  refine ⟨data', ladder, h', hdata, hdata.res.ext fun e => (Option.map_id' ..).symm, hladder,
    hladder', hlast, last, fun res hres => ?_⟩
  obtain ⟨hlen, rel⟩ := hlevels res hres
  rw [hsame] at rel
  refine ⟨rel, fun i e => ?_, fun next hto =>
    h.climbsAlike hmoved h' hdata last ladder ladder hto rel hlen, fun hpos => ?_⟩
  · rw [rel.nodes_apply]
    refine (rel.moves_coordsOf i e).trans (congrArg (fun F => Option.map F _) (funext fun k => ?_))
    unfold Rearrangement.turnOn Rearrangement.turn
    exact if_congr decide_eq_true_iff rfl rfl
  · have hnodes := rel.nodes_eq_refl rfl fun e he => decide_eq_false (hpos e he).not_gt
    exact ⟨hnodes, fun x hx => rel.renumbered_eq_self hnodes hx⟩

end Fit.IsAccepted

/-! ## One axis reversed -/

namespace Fit

/-- The input `uneven` with its second axis reversed about its middle. -/
noncomputable def unevenReversed : Fit ℝ :=
  { uneven with given := { uneven.given with
      positions := .block { shape := [1, 2], data := #[0, 1] }
      spacing := some (some
        [none, some (.block { shape := [5], data := #[0.5, 0.4, 0.3, 0.1, 0] })]) } }

/-- The factors and shifts of the axes. -/
noncomputable def reversal (e : ℕ) : ℝ := if e = 1 then -1 else 1

@[inherit_doc reversal]
noncomputable def reversalShift (e : ℕ) : ℝ := if e = 1 then 1 else 0

theorem reversal_ne_zero (e : ℕ) : reversal e ≠ 0 := by
  unfold reversal
  split <;> norm_num

theorem isGivenMoved_uneven : uneven.IsGivenMoved
    (Motion.stretching reversal reversalShift reversal_ne_zero) 2 unevenReversed where
  given := {
    resolution := ⟨_, _, rfl, rfl, fun e => (Option.map_id' ..).symm⟩
    positions := by
      have hpoint : (Motion.stretching reversal reversalShift reversal_ne_zero).point [0, 0] =
          [0, 1] := by
        simp [Motion.point, moved, Motion.stretching, Motion.coordinate, reversal, reversalShift,
          List.range_succ]
      refine ⟨⟨2, [[0, 0]]⟩, rfl, ?_⟩
      rw [List.map_singleton, hpoint]
      rfl
    bounds := by
      refine ⟨[0, 0], [1, 1], [0, 0], [1, 1], rfl, rfl, rfl, rfl, fun e => ?_⟩
      match e with
      | 0 | 1 =>
        simp [Motion.stretching, Motion.interval, Motion.coordinate, reversal, reversalShift]
      | e + 2 => rfl
    spacing := by
      refine .given fun e => ?_
      match e with
      | 0 => rfl
      | 1 =>
        simp [Motion.stretching, Motion.rearrangement, Rearrangement.turnSpacing, reversal,
          Nested.entries?, Dense.ofNested?, Dense.entries, size]
      | e + 2 => rfl
    values := rfl
    weights := rfl
    valueLow := rfl
    valueHigh := rfl
    deviation := rfl }
  settings := rfl
  twoPass := rfl
  symmetricDomain := rfl

/-- The reversed problem: its nodes are counted from the other end along the second axis, and its
equations on the final lattice are the same up to these numbers. -/
theorem exists_ladder_stretched_uneven : ∃ data' ladder,
    unevenReversed.IsAccepted narrowSettings data' ∧
    (fitLadder? [3, 5] : Except (Failure ℝ) _) = .ok ladder ∧
    ∃ (π : Fin (size [3, 5]) ≃ Fin (size [3, 5])) (level level' : Level ℝ) (A A' : PackedMatrix ℝ),
      (∀ i e, (coordsOf [3, 5] (π i))[e]? =
        (coordsOf [3, 5] i)[e]?.map fun k => if e = 1 then [3, 5].getD e 0 - 1 - k else k) ∧
      Level.equations? (uneven.begun narrowSettings
        (narrowDataOn 3 5 [none, some [0, 0.1, 0.3, 0.4, 0.5]]) ladder) [3, 5] 0 false none =
          .ok level ∧
      Level.equations? (unevenReversed.begun narrowSettings data' ladder) [3, 5] 0 false none =
        .ok level' ∧
      level.matrix = some A ∧ level'.matrix = some A' ∧
      A'.toSparse.toMatrix (size [3, 5]) (size [3, 5]) =
        Matrix.reindex π π (A.toSparse.toMatrix (size [3, 5]) (size [3, 5])) := by
  obtain ⟨data', ladder, h', hdata, -, hladder, -, hlast, last, hlevels⟩ :=
    isAccepted_uneven.exists_ladder_stretched reversal_ne_zero isGivenMoved_uneven
  obtain ⟨rel, hcoords, hclimb, -⟩ := hlevels [3, 5] (List.mem_of_getLast? hlast)
  obtain ⟨level, level', hlevel, hlevel', hsame⟩ :=
    (hclimb _ (.refl isAccepted_uneven.isValid)).levels 0 Nat.one_pos false none none .none
  obtain ⟨A, A', hA, hA', hmatrix⟩ := hsame.matrix
  rw [hdata.retarget_self] at hlevel'
  refine ⟨data', ladder, h', hladder, rel.nodes, level, level', A, A', fun i e => ?_, hlevel,
    hlevel', hA, hA', hmatrix⟩
  have hneg : reversal e < 0 ↔ e = 1 := by
    unfold reversal
    split
    · rename_i he
      exact iff_of_true (by norm_num) he
    · rename_i he
      exact iff_of_false (by norm_num) he
  rw [hcoords]
  exact congrArg (fun F => Option.map F _) (funext fun k => if_congr hneg rfl rfl)

end Fit

end GridSpline
