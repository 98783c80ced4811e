import Mathlib
import GridSpline.Equations.Stiffness
import GridSpline.Proofs.Equations.Assembly

/-!
# The squares of stiffness

With a weight, a spacing and a target for every axis that needs them, there is a weighted square for
every node and every axis along which the node has two neighbours. The factors near the surface
depend on how many nodes the middle node is away from the nearer end of each axis.

## Main definitions

* `surfaceFactor`, `Axis.depth` — the factor by the distance from the surface.
* `differenceWeights`, `stiffnessAt` — the weights of the differences and the square at a node.
* `StiffnessInput` — there is a weight, a spacing and a target wherever one is looked up.

## Main statements

* `stiffness?_eq` — the squares are made.
* `placed_stiffnessAt` — their equations can be held.
* `edgeWeight_eq` — what the weight of a square is made of.
* `energy_stiffnessAt` — the square in terms of three neighbouring nodes.
-/

namespace GridSpline

open Scalar Failure
open GridSpline.Lattice

/-! ## Factors near the surface -/

/-- How many nodes a node is away from the nearer end of an axis. -/
def Axis.depth (a : Axis) (node : ℕ) : ℕ := min (a.coord node) (a.count - 1 - a.coord node)

/-- How much more second differences count at a distance from the surface. -/
noncomputable def surfaceFactor : ℕ → ℝ
  | 0 => 2
  | 1 => 1.15
  | _ => 1

theorem surfaceFactor_pos (d : ℕ) : 0 < surfaceFactor d := by
  unfold surfaceFactor
  split <;> norm_num

/-- The factor depends on the distance from the nearer end alone. -/
theorem edgeFactor_eq {c n : ℕ} (h : c < n) :
    (edgeFactor c n : ℝ) = surfaceFactor (min c (n - 1 - c)) := by
  unfold edgeFactor
  by_cases h0 : min c (n - 1 - c) = 0
  · rw [if_pos (by omega), h0]
    norm_num [surfaceFactor]
  · rw [if_neg (by omega)]
    by_cases h1 : min c (n - 1 - c) = 1
    · rw [if_pos (by omega), h1]
      norm_num [surfaceFactor]
    · rw [if_neg (by omega)]
      unfold surfaceFactor
      split
      · rename_i heq
        exact absurd heq h0
      · rename_i heq
        exact absurd heq h1
      · rfl

variable {res : List ℕ} {a : Axis} {i : ℕ}

theorem coord_lt (hres : ∀ r ∈ res, 2 ≤ r) (ha : a ∈ axes res) : a.coord i < a.count := by
  have := hres _ (count_mem ha)
  exact Nat.mod_lt _ (by omega)

/-- The weight of a second difference: along its axis the factor is that of the middle node among
those that have two neighbours, along every other axis that of the node. -/
theorem edgeWeight_eq (hres : ∀ r ∈ res, 2 ≤ r) (hi : a.IsInterior i) (w : ℝ) :
    edgeWeight (axes res) a w i = w * surfaceFactor (a.depth i - 1) *
      (((axes res).filter fun b => b.index ≠ a.index).map fun b =>
        surfaceFactor (b.depth i)).prod := by
  have hfold : ∀ (l : List Axis), (∀ b ∈ l, b ∈ axes res) → ∀ v : ℝ,
      l.foldl (fun w b => if b.index = a.index then w
        else w * edgeFactor (b.coord i) b.count) v =
      v * ((l.filter fun b => b.index ≠ a.index).map fun b => surfaceFactor (b.depth i)).prod := by
    intro l
    induction l with
    | nil => simp
    | cons b l ih =>
      intro hl v
      have hrest := ih fun c hc => hl c (List.mem_cons_of_mem b hc)
      rw [List.foldl_cons, hrest]
      by_cases hb : b.index = a.index
      · rw [if_pos hb, List.filter_cons_of_neg (by simpa using hb)]
      · rw [if_neg hb, List.filter_cons_of_pos (by simpa using hb), List.map_cons, List.prod_cons,
          edgeFactor_eq (coord_lt hres (hl b List.mem_cons_self)), mul_assoc]
        rfl
  obtain ⟨h1, h2⟩ := hi
  have hmiddle : (edgeFactor ((a.coord i : ℤ) - 1) ((a.count : ℤ) - 2) : ℝ) =
      surfaceFactor (a.depth i - 1) := by
    have hc : (a.coord i : ℤ) - 1 = ((a.coord i - 1 : ℕ) : ℤ) := by omega
    have hn : (a.count : ℤ) - 2 = ((a.count - 2 : ℕ) : ℤ) := by omega
    rw [hc, hn, edgeFactor_eq (by omega)]
    unfold Axis.depth
    congr 1
    omega
  unfold edgeWeight
  rw [hfold (axes res) (fun b hb => hb), hmiddle]

theorem edgeWeight_pos_iff (hres : ∀ r ∈ res, 2 ≤ r) (hi : a.IsInterior i) {w : ℝ} :
    0 < edgeWeight (axes res) a w i ↔ 0 < w := by
  have hcross : 0 < (((axes res).filter fun b => b.index ≠ a.index).map fun b =>
      surfaceFactor (b.depth i)).prod := by
    refine List.prod_pos ?_
    intro x hx
    obtain ⟨b, -, rfl⟩ := List.mem_map.mp hx
    exact surfaceFactor_pos _
  rw [edgeWeight_eq hres hi, mul_pos_iff_of_pos_right hcross,
    mul_pos_iff_of_pos_right (surfaceFactor_pos _)]

theorem edgeWeight_nonneg (hres : ∀ r ∈ res, 2 ≤ r) (hi : a.IsInterior i) {w : ℝ}
    (hw : 0 ≤ w) : 0 ≤ edgeWeight (axes res) a w i := by
  rw [edgeWeight_eq hres hi]
  refine mul_nonneg (mul_nonneg hw (surfaceFactor_pos _).le) (List.prod_nonneg ?_)
  intro x hx
  obtain ⟨b, -, rfl⟩ := List.mem_map.mp hx
  exact (surfaceFactor_pos _).le

/-! ## The squares -/

/-- The weights of the lower and the upper difference at a coordinate. -/
noncomputable def differenceWeights (spacing : Option (List ℝ)) (c : ℕ) : ℝ × ℝ :=
  match spacing with
  | none => (1, 1)
  | some s =>
    let below := |s.getD c 0 - s.getD (c - 1) 0|
    let above := |s.getD (c + 1) 0 - s.getD c 0|
    (√(below * above) / below, √(below * above) / above)

/-- The weighted square of the second difference along an axis at one node. -/
noncomputable def stiffnessAt (axes : List Axis) (a : Axis) (weight : ℝ)
    (spacing : Option (List ℝ)) (targets : Option (Array ℝ)) (node : ℕ) : Residual ℝ where
  weight := edgeWeight axes a weight node
  base := node
  terms := secondDifference a.stride (differenceWeights spacing (a.coord node))
  target := targets.map fun part => part.getD node 0

/-- What second differences along an axis are drawn to. -/
def targetsAlong (ccv : Option (Curvature ℝ)) (a : Axis) : Option (Array ℝ) :=
  ccv.map fun parts => parts.getD a.index #[]

/-- The weighted squares along one axis. -/
noncomputable def stiffnessAlong (res : List ℕ) (weights : List ℝ)
    (spacing : List (Option (List ℝ))) (ccv : Option (Curvature ℝ)) (a : Axis) :
    List (Residual ℝ) :=
  (interior res a).reverse.map (stiffnessAt (axes res) a (weights.getD a.index 0)
    (spacing.getD a.index none) (targetsAlong ccv a))

/-- There is a weight for every axis, a spacing has one entry for every node along its axis, and
targets are given for every axis and node, if they are given. -/
structure StiffnessInput (res : List ℕ) (weights : List ℝ) (spacing : List (Option (List ℝ)))
    (ccv : Option (Curvature ℝ)) : Prop where
  weights : weights.length = res.length
  spacing : List.Forall₂ (fun s r => ∀ l, s = some l → l.length = r) spacing res
  targets : ∀ parts, ccv = some parts →
    parts.length = res.length ∧ ∀ p ∈ parts, p.size = size res

theorem differenceWeights?_eq {spacing : Option (List ℝ)} (hi : a.IsInterior i)
    (h : ∀ l, spacing = some l → l.length = a.count) :
    differenceWeights? spacing (a.coord i) = .ok (differenceWeights spacing (a.coord i)) := by
  cases spacing with
  | none => rfl
  | some s =>
    obtain ⟨h1, h2⟩ := hi
    have hlen := h s rfl
    have hb : (a.coord i : ℤ) - 1 = ((a.coord i - 1 : ℕ) : ℤ) := by omega
    have ha : (a.coord i : ℤ) + 1 = ((a.coord i + 1 : ℕ) : ℤ) := by omega
    unfold differenceWeights?
    simp only
    rw [hb, ha, entryAt_ofNat (by omega), ok_bind, entryAt_ofNat (by omega), ok_bind,
      entryAt_ofNat (by omega), ok_bind, magnitude_eq, magnitude_eq, sqrt_eq]
    unfold differenceWeights
    simp only
    rw [List.getD_eq_getElem _ _ (by omega), List.getD_eq_getElem _ _ (by omega),
      List.getD_eq_getElem _ _ (by omega)]
    rfl

theorem interior_eq_nil (h : a.count < 3) : interior res a = [] := by
  refine List.filter_eq_nil_iff.mpr ?_
  intro i _
  simp only [decide_eq_true_eq]
  rintro ⟨h1, h2⟩
  omega

section Input

variable {weights : List ℝ} {spacing : List (Option (List ℝ))} {ccv : Option (Curvature ℝ)}
  (h : StiffnessInput res weights spacing ccv)

include h

theorem axisTargets?_eq (ha : a ∈ axes res) :
    axisTargets? ccv a.index = .ok (targetsAlong ccv a) := by
  cases hc : ccv with
  | none => rfl
  | some parts =>
    have hindex : a.index < parts.length := by
      rw [(h.targets parts hc).1]
      exact index_lt ha
    unfold axisTargets? targetsAlong
    simp only [Option.map_some]
    rw [List.getElem?_eq_getElem hindex, require_some, List.getD_eq_getElem _ _ hindex]
    rfl

theorem curvatureTarget?_eq (ha : a ∈ axes res) (hi : i < size res) :
    curvatureTarget? (targetsAlong ccv a) i =
      .ok ((targetsAlong ccv a).map fun part => part.getD i 0) := by
  cases hc : ccv with
  | none => rfl
  | some parts =>
    obtain ⟨hlen, hsize⟩ := h.targets parts hc
    have hindex : a.index < parts.length := hlen.symm ▸ index_lt ha
    have hi' : i < parts[a.index].size := by
      rw [hsize _ (List.getElem_mem hindex)]
      exact hi
    unfold targetsAlong curvatureTarget?
    simp only [Option.map_some, List.getD_eq_getElem _ _ hindex]
    rw [Array.getElem?_eq_getElem hi', require_some, Array.getD_eq_getD_getElem?,
      Array.getElem?_eq_getElem hi']
    rfl

theorem stiffnessAlong?_eq (ha : a ∈ axes res) :
    stiffnessAlong? res weights spacing ccv a =
      .ok (stiffnessAlong res weights spacing ccv a) := by
  unfold stiffnessAlong?
  by_cases hcount : a.count < 3
  · rw [if_pos hcount]
    unfold stiffnessAlong
    rw [interior_eq_nil hcount]
    rfl
  · have hindex := index_lt ha
    have hw : a.index < weights.length := h.weights.symm ▸ hindex
    have hs : a.index < spacing.length := h.spacing.length_eq.symm ▸ hindex
    have hentry : ∀ l, spacing[a.index] = some l → l.length = a.count := by
      obtain ⟨hlt, hcount⟩ := List.getElem?_eq_some_iff.mp (getElem?_index ha)
      have := h.spacing.get hs hlt
      simp only [List.get_eq_getElem, hcount] at this
      exact this
    rw [if_neg hcount, List.getElem?_eq_getElem hs, require_some, ok_bind,
      List.getElem?_eq_getElem hw, require_some, ok_bind, axisTargets?_eq h ha, ok_bind]
    refine mapM_eq_ok_map ?_
    intro i hi
    obtain ⟨hlt, hint⟩ := mem_interior.mp (List.mem_reverse.mp hi)
    unfold stiffnessAt?
    rw [differenceWeights?_eq hint hentry, ok_bind, curvatureTarget?_eq h ha hlt,
      ok_bind]
    unfold stiffnessAt
    rw [List.getD_eq_getElem _ _ hw, List.getD_eq_getElem _ _ hs]
    rfl

/-- All squares are made. -/
theorem stiffness?_eq (hne : res ≠ []) : stiffness? res weights spacing ccv =
    .ok ((axes res).map (stiffnessAlong res weights spacing ccv)).flatten := by
  unfold stiffness?
  rw [if_neg (by simpa using hne), mapM_eq_ok_map fun a ha => stiffnessAlong?_eq h ha, ok_bind]
  rfl

end Input

/-! ## Their equations -/

section Interior

variable (w : ℝ) (spacing : Option (List ℝ)) (targets : Option (Array ℝ))

/-- The equations of a second difference can be held: its nodes are the node and its neighbours. -/
theorem placed_stiffnessAt (hres : ∀ r ∈ res, 2 ≤ r) (ha : a ∈ axes res) (hi : i ∈ interior res a) :
    (stiffnessAt (axes res) a w spacing targets i).Placed res := by
  obtain ⟨hlt, hint⟩ := mem_interior.mp hi
  have hne : res ≠ [] := List.ne_nil_of_mem (count_mem ha)
  have hpos : 0 < a.stride := stride_pos one_pos (fun r hr => by have := hres r hr; omega) ha
  have hbelow := stride_le_of_isInterior hint
  have habove := add_stride_lt_of_isInterior ha hlt hint
  have hone := stride_mem_stencilOffsets hne ha
  have htwo := two_mul_stride_mem_stencilOffsets hne ha
  have h1 : (0 - -(a.stride : ℤ)).toNat = a.stride := by omega
  have h2 : ((a.stride : ℤ) - -(a.stride : ℤ)).toNat = 2 * a.stride := by omega
  have h3 : ((a.stride : ℤ) - 0).toNat = a.stride := by omega
  constructor
  · intro t ht
    simp only [stiffnessAt, secondDifference, List.mem_cons, List.not_mem_nil, or_false] at ht ⊢
    rcases ht with rfl | rfl | rfl <;> simp only <;> omega
  · simp only [stiffnessAt, secondDifference, List.pairwise_cons, List.mem_cons, List.not_mem_nil,
      or_false, forall_eq_or_imp, forall_eq, h1, h2, h3]
    refine ⟨⟨⟨by omega, hone⟩, by omega, htwo⟩, ⟨by omega, hone⟩, ?_, List.Pairwise.nil⟩
    exact fun _ hf => hf.elim

/-- The square in terms of the node and its neighbours. -/
theorem energy_stiffnessAt {n : ℕ} (x : Fin n → ℝ) :
    (stiffnessAt (axes res) a w spacing targets i).energy (nodeValue x) =
      edgeWeight (axes res) a w i *
        ((differenceWeights spacing (a.coord i)).1 * nodeValue x (i - a.stride) -
          ((differenceWeights spacing (a.coord i)).1 + (differenceWeights spacing (a.coord i)).2) *
            nodeValue x i +
          (differenceWeights spacing (a.coord i)).2 * nodeValue x (i + a.stride) -
          (targets.map fun part => part.getD i 0).getD 0) ^ 2 := by
  have hbelow : (i : ℤ) + -(a.stride : ℤ) = i - a.stride := by ring
  unfold Residual.energy Residual.value stiffnessAt secondDifference
  simp only [List.map_cons, List.map_nil, sum_eq, List.sum_cons, List.sum_nil, hbelow, add_zero]
  ring

end Interior

section Along

variable {weights : List ℝ} {spacing : List (Option (List ℝ))} {ccv : Option (Curvature ℝ)}
  {r : Residual ℝ}

/-- The equations can hold every square along an axis. -/
theorem placed_of_mem_stiffnessAlong (hres : ∀ r ∈ res, 2 ≤ r) (ha : a ∈ axes res)
    (hr : r ∈ stiffnessAlong res weights spacing ccv a) : r.Placed res := by
  obtain ⟨i, hi, rfl⟩ := List.mem_map.mp hr
  exact placed_stiffnessAt _ _ _ hres ha (List.mem_reverse.mp hi)

theorem weight_nonneg_of_mem_stiffnessAlong (hres : ∀ r ∈ res, 2 ≤ r) (hw : ∀ w ∈ weights, 0 ≤ w)
    (hr : r ∈ stiffnessAlong res weights spacing ccv a) : 0 ≤ r.weight := by
  obtain ⟨i, hi, rfl⟩ := List.mem_map.mp hr
  refine edgeWeight_nonneg hres (mem_interior.mp (List.mem_reverse.mp hi)).2 ?_
  rcases Nat.lt_or_ge a.index weights.length with hlt | hge
  · rw [List.getD_eq_getElem _ _ hlt]
    exact hw _ (List.getElem_mem hlt)
  · rw [List.getD_eq_default _ _ hge]

end Along

end GridSpline
