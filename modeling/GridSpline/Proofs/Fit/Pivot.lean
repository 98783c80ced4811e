import Mathlib
import GridSpline.Proofs.Fit.Made
import GridSpline.Proofs.Interpolation.Hat

/-!
# The diagonal of the equations

A node has a positive entry on the diagonal if it takes part in a square that counts, and there are
three kinds of squares. With the weak default all nodes take part. A sample reaches the nodes less
than one cell away from it along every axis. Second differences reach every node if they count at
all; but the stiffness is divided among the interior nodes of the lattice, so a lattice with two
nodes along some axis has none along the other axes either.

## Main definitions

* `Prepared.IsNear` — a node that a sample reaches.
* `Settings.HasDefault` — a weak default that counts.
* `Prepared.HoldsNode` — what gives a node its place on the diagonal.
* `Prepared.KeepsApart` — the spacings of a lattice have no two neighbours at one place.

## Main statements

* `exists_stiffnessAlong_form_ne_zero` — every node is part of a second difference.
* `IsPosed.hessian_apply_self_pos_iff_holdsNode` — when the diagonal of a level is positive.
-/

namespace GridSpline

open Scalar
open GridSpline.Lattice

/-! ## What holds a node -/

/-- A node less than one cell away from a position along every axis. -/
def Prepared.IsNear (data : Prepared ℝ) (res : List ℕ) (position : List ℝ) (i : ℕ) : Prop :=
  List.Forall₂ (fun (t : ℝ) (c : ℕ) => |t - c| < 1)
    (Cell.placeAt data.low (Grid.cellWidths data.low data.high res) position) (coordsOf res i)

/-- There is a weak default, and it has a weight. -/
def Settings.HasDefault (s : Settings ℝ) : Prop :=
  ∃ f w, s.weakFunction = some f ∧ s.weak = some w ∧ 0 < w.toScalar

/-- Second differences count on the lattice, or the weak default counts, or a sample is near. -/
def Prepared.HoldsNode (data : Prepared ℝ) (settings : Settings ℝ) (res : List ℕ)
    (channel i : ℕ) : Prop :=
  ((∀ r ∈ res, 3 ≤ r) ∧ 0 < data.rangeOf channel) ∨ settings.HasDefault ∨
    ∃ s ∈ data.samples, data.IsNear res s.position i

/-- The spacings of a lattice have no two neighbours at one place. -/
def Prepared.KeepsApart (data : Prepared ℝ) (res : List ℕ) : Prop :=
  ∀ s ∈ data.spacingOn res, ∀ l, s = some l → IsApart l

/-! ## Second differences -/

/-- Both differences count where the neighbours are apart. -/
theorem differenceWeights_pos {spacing : Option (List ℝ)} {count c : ℕ}
    (hlength : ∀ l, spacing = some l → l.length = count)
    (hapart : ∀ l, spacing = some l → IsApart l) (hc : 1 ≤ c) (hcount : c + 2 ≤ count) :
    0 < (differenceWeights spacing c).1 ∧ 0 < (differenceWeights spacing c).2 := by
  cases spacing with
  | none => exact ⟨one_pos, one_pos⟩
  | some l =>
    have hlen := hlength l rfl
    have hbelow : 0 < |l.getD c 0 - l.getD (c - 1) 0| := by
      have hne := hapart l rfl (c - 1) (by omega)
      rw [Nat.sub_add_cancel hc] at hne
      exact abs_pos.mpr (sub_ne_zero.mpr hne.symm)
    have habove : 0 < |l.getD (c + 1) 0 - l.getD c 0| :=
      abs_pos.mpr (sub_ne_zero.mpr (hapart l rfl c (by omega)).symm)
    have hmean := Real.sqrt_pos.mpr (mul_pos hbelow habove)
    exact ⟨div_pos hmean hbelow, div_pos hmean habove⟩

section First

variable {r : ℕ} {rs : List ℕ}

/-- The first axis, along which neighbours have consecutive numbers. -/
def firstAxis (r : ℕ) : Axis where
  index := 0
  count := r
  stride := 1

theorem firstAxis_mem (r : ℕ) (rs : List ℕ) : firstAxis r ∈ axes (r :: rs) := List.mem_cons_self

theorem coord_firstAxis (r i : ℕ) : (firstAxis r).coord i = i % r := by
  show i / 1 % r = _
  rw [Nat.div_one]

/-- Every node of an axis with three nodes is an interior node or has one as a neighbour. -/
theorem exists_interior_near (hr : 3 ≤ r) {i : ℕ} (hi : i < size (r :: rs)) :
    ∃ c ∈ interior (r :: rs) (firstAxis r), c = i + 1 ∨ c = i ∨ c + 1 = i := by
  have hsplit := Nat.mod_add_div i r
  have hmod : i % r < r := Nat.mod_lt i (by omega)
  simp only [mem_interior, Axis.IsInterior, coord_firstAxis]
  by_cases hfirst : i % r = 0
  · have hnext : (i + 1) % r = 1 := by
      rw [Nat.add_mod, hfirst, Nat.zero_add, Nat.mod_mod, Nat.mod_eq_of_lt (by omega)]
    have hlt : i + 1 < size (r :: rs) := by
      rw [size] at hi ⊢
      have hline : i / r < size rs := Nat.div_lt_of_lt_mul hi
      calc i + 1 < r * (i / r) + r := by omega
        _ = r * (i / r + 1) := by ring
        _ ≤ r * size rs := Nat.mul_le_mul_left r hline
    exact ⟨i + 1, ⟨hlt, by rw [hnext], by show (i + 1) % r + 2 ≤ r; omega⟩, Or.inl rfl⟩
  · by_cases hlast : i % r = r - 1
    · have hbefore : (i - 1) % r = r - 2 := by
        have heq : i - 1 = r - 2 + r * (i / r) := by omega
        rw [heq, Nat.add_mul_mod_self_left, Nat.mod_eq_of_lt (by omega)]
      refine ⟨i - 1, ⟨by omega, by rw [hbefore]; omega, ?_⟩, Or.inr (Or.inr (by omega))⟩
      show (i - 1) % r + 2 ≤ r
      omega
    · exact ⟨i, ⟨hi, by omega, by show i % r + 2 ≤ r; omega⟩, Or.inr (Or.inl rfl)⟩

/-- Every node is part of a second difference. -/
theorem exists_stiffnessAlong_form_ne_zero (weights : List ℝ) (ccv : Option (Curvature ℝ))
    (hr : 3 ≤ r) {spacing : List (Option (List ℝ))}
    (hlength : ∀ l, spacing.getD 0 none = some l → l.length = r)
    (hapart : ∀ l, spacing.getD 0 none = some l → IsApart l) {n : ℕ} (hn : n = size (r :: rs))
    (i : Fin n) : ∃ sq ∈ stiffnessAlong (r :: rs) weights spacing ccv (firstAxis r),
      sq.form n i ≠ 0 := by
  have hi : (i : ℕ) < size (r :: rs) := hn ▸ i.isLt
  obtain ⟨c, hc, hnear⟩ := exists_interior_near hr hi
  obtain ⟨hlow, hhigh⟩ := (mem_interior.mp hc).2
  obtain ⟨hbelow, habove⟩ := differenceWeights_pos hlength hapart hlow hhigh
  refine ⟨_, List.mem_map_of_mem (List.mem_reverse.mpr hc), ?_⟩
  unfold Residual.form
  show combination (c : ℤ) [(-((1 : ℕ) : ℤ), _), (0, _), (((1 : ℕ) : ℤ), _)] i ≠ 0
  rw [combination_cons, combination_cons, combination_cons, combination_nil]
  simp only [Nat.cast_one, add_zero]
  rcases hnear with h | h | h
  · rw [if_pos (by omega), if_neg (by omega), if_neg (by omega), add_zero, add_zero]
    exact hbelow.ne'
  · rw [if_neg (by omega), if_pos (by omega), if_neg (by omega), zero_add, add_zero]
    exact (neg_lt_zero.mpr (add_pos hbelow habove)).ne
  · rw [if_neg (by omega), if_neg (by omega), if_pos (by omega), zero_add, zero_add]
    exact habove.ne'

end First

/-! ## Levels -/

namespace Level.IsPosed

variable {level : Level ℝ} {fit : Fit ℝ} {data : Prepared ℝ} {channel : ℕ} {res : List ℕ}
  (h : level.IsPosed fit data channel) (hlaid : level.IsLaidOn data res)

include h hlaid

theorem weight_stiffnessAlong_pos_iff {a : Axis} (ha : a ∈ Lattice.axes level.res) {r : Residual ℝ}
    (hr : r ∈ stiffnessAlong level.res (level.stiffness.map (· * data.rangeOf channel))
      level.spacing level.ccv a) :
    0 < r.weight ↔ (∀ r ∈ res, 3 ≤ r) ∧ 0 < data.rangeOf channel := by
  obtain ⟨c, hc, rfl⟩ := List.mem_map.mp hr
  have hlt : a.index < level.stiffness.length := h.stiffness.weights.symm ▸ index_lt ha
  have hmem := List.getElem_mem hlt
  show 0 < edgeWeight (Lattice.axes level.res) a _ c ↔ _
  rw [edgeWeight_pos_iff h.resolutions (mem_interior.mp (List.mem_reverse.mp hc)).2,
    List.getD_eq_getElem _ _ (by rwa [List.length_map]), List.getElem_map]
  by_cases hall : ∀ r ∈ res, 3 ≤ r
  · rw [mul_pos_iff_of_pos_left (hlaid.stiff hall _ hmem)]
    exact ⟨fun hrange => ⟨hall, hrange⟩, fun hboth => hboth.2⟩
  · have hsome : ∃ r ∈ res, r < 3 := by
      push Not at hall
      exact hall
    rw [hlaid.slack hsome _ hmem, zero_mul]
    exact ⟨fun hpos => absurd hpos (lt_irrefl 0), fun hboth => absurd hboth.1 hall⟩

theorem exists_stiff_iff (hapart : data.KeepsApart res) (i : Fin (size level.res)) :
    (∃ r ∈ level.stiffSquares data channel, 0 < r.weight ∧ r.form (size level.res) i ≠ 0) ↔
      (∀ r ∈ res, 3 ≤ r) ∧ 0 < data.rangeOf channel := by
  constructor
  · rintro ⟨sq, hsq, hweight, -⟩
    obtain ⟨l, hl, hmem⟩ := List.mem_flatten.mp hsq
    obtain ⟨a, ha, rfl⟩ := List.mem_map.mp hl
    exact (h.weight_stiffnessAlong_pos_iff hlaid ha hmem).mp hweight
  · intro hboth
    obtain ⟨r, rs, hcons⟩ := List.exists_cons_of_ne_nil h.axes
    have hfirst : firstAxis r ∈ Lattice.axes level.res := by
      rw [hcons]
      exact firstAxis_mem r rs
    have hr : 3 ≤ r := by
      refine hboth.1 r ?_
      rw [← hlaid.res_eq, hcons]
      exact List.mem_cons_self
    have hspacing : 0 < level.spacing.length := by
      rw [h.stiffness.spacing.length_eq, hcons]
      exact Nat.succ_pos _
    have hlength : ∀ l, level.spacing.getD 0 none = some l → l.length = r := by
      rw [List.getD_eq_getElem _ _ hspacing]
      have hget := h.stiffness.spacing.get hspacing (by rw [hcons]; exact Nat.succ_pos _)
      simp only [List.get_eq_getElem, hcons, List.getElem_cons_zero] at hget
      exact hget
    have hneighbours : ∀ l, level.spacing.getD 0 none = some l → IsApart l := by
      rw [List.getD_eq_getElem _ _ hspacing]
      refine hapart _ ?_
      rw [← hlaid.spacing]
      exact List.getElem_mem hspacing
    obtain ⟨sq, hsq, hform⟩ := exists_stiffnessAlong_form_ne_zero
      (level.stiffness.map (· * data.rangeOf channel)) level.ccv hr hlength hneighbours
      (show size level.res = size (r :: rs) by rw [hcons]) i
    rw [← hcons] at hsq
    exact ⟨sq, List.mem_flatten.mpr ⟨_, List.mem_map_of_mem hfirst, hsq⟩,
      (h.weight_stiffnessAlong_pos_iff hlaid hfirst hsq).mpr hboth, hform⟩

omit hlaid in
theorem exists_weak_iff (i : Fin (size level.res)) :
    (∃ r ∈ level.weakSquaresOf fit channel, 0 < r.weight ∧ r.form (size level.res) i ≠ 0) ↔
      fit.settings.HasDefault := by
  have haxes : 0 < level.res.length := List.length_pos_iff.mpr h.axes
  unfold weakSquaresOf Settings.HasDefault
  cases hf : fit.settings.weakFunction with
  | none => simp
  | some f =>
    cases hw : fit.settings.weak with
    | none => simp
    | some w =>
      simp only
      constructor
      · rintro ⟨r, hr, hweight, -⟩
        rw [weight_of_mem_weakSquares hr, weakNodeWeight_pos_iff h.size_pos haxes] at hweight
        exact ⟨f, w, rfl, rfl, hweight⟩
      · rintro ⟨f', w', -, hw', hpos⟩
        rw [Option.some.injEq] at hw'
        subst hw'
        have hvalue : (f.value channel (level.positionOf i), (i : ℕ)) ∈
            ((List.range (size level.res)).map fun i =>
              f.value channel (level.positionOf i)).zipIdx := by
          rw [List.mk_mem_zipIdx_iff_getElem?, List.getElem?_map,
            List.getElem?_range i.isLt, Option.map_some]
        refine ⟨_, List.mem_map_of_mem hvalue, ?_, ?_⟩
        · exact (weakNodeWeight_pos_iff h.size_pos haxes).mpr hpos
        · unfold Residual.form
          show combination (i : ℕ) [(0, 1)] i ≠ 0
          rw [combination_cons, combination_nil, if_pos (by simp)]
          norm_num

theorem exists_sample_iff (hvalid : data.IsValid) (hw : level.IsWeighted fit data channel)
    (i : Fin (size level.res)) :
    (∃ r ∈ data.samples.map (level.sampleSquare channel), 0 < r.weight ∧
      r.form (size level.res) i ≠ 0) ↔ ∃ s ∈ data.samples, data.IsNear res s.position i := by
  have hform : ∀ s ∈ data.samples, (level.sampleSquare channel s).form (size level.res) i ≠ 0 ↔
      data.IsNear res s.position i := by
    intro s hs
    have hlow : data.low.length = level.res.length := hlaid.low ▸ h.low
    have hcells : level.width = Grid.cellWidths data.low data.high level.res := by
      rw [hlaid.res_eq]
      exact hlaid.width
    have hwidth : (Grid.cellWidths data.low data.high level.res).length = level.res.length := by
      rw [← hcells]
      exact h.width
    have hplace := Grid.forall₂_placeAt hvalid.bounds hlow h.resolutions (hvalid.inside s hs)
    have hiff := Cell.combination_ofPoint_ne_zero_iff hlow hwidth (h.positions s hs) h.resolutions
      hplace h.axes i.isLt
    unfold Prepared.IsNear
    rw [← hlaid.res_eq, ← hiff]
    unfold Residual.form sampleSquare sampleResidual cellOf
    simp only
    rw [h.cornerOffsets, hlaid.low, hcells]
  constructor
  · rintro ⟨r, hr, -, hne⟩
    obtain ⟨s, hs, rfl⟩ := List.mem_map.mp hr
    exact ⟨s, hs, (hform s hs).mp hne⟩
  · rintro ⟨s, hs, hnear⟩
    exact ⟨_, List.mem_map_of_mem hs, hw.samples s hs, (hform s hs).mpr hnear⟩

/-- When the diagonal of a level is positive. -/
theorem hessian_apply_self_pos_iff_holdsNode (hvalid : data.IsValid)
    (hw : level.IsWeighted fit data channel) (hapart : data.KeepsApart res)
    (i : Fin (size level.res)) :
    0 < hessian (size level.res) (level.squaresOf fit data channel).all i i ↔
      data.HoldsNode fit.settings res channel i := by
  rw [hessian_apply_self_pos_iff fun r hr => h.weight_nonneg hw hr]
  unfold Prepared.HoldsNode
  rw [← h.exists_stiff_iff hlaid hapart i, ← h.exists_weak_iff i,
    ← h.exists_sample_iff hlaid hvalid hw i]
  simp only [Squares.all, squaresOf, List.mem_append, or_and_right, exists_or]

end Level.IsPosed

end GridSpline
