import Mathlib
import GridSpline.Proofs.Equations.Stiffness
import GridSpline.Proofs.Lattice.Ladder
import GridSpline.Proofs.Lattice.Lines
import GridSpline.Proofs.Motion.Moves

/-!
# Rearranged lattices

The axes of a lattice are put in another order, and along some of them the nodes are counted from
the other end. Every node of the one lattice is then a node of the other one. Lines go to lines, so
a node has the same neighbours, the same distance from the surface along every axis, and the same
place among the interior nodes. Node numbers, strides and the order of the axes change.

## Main definitions

* `Rearrangement` — where the axes go, and which of them are reversed.
* `Rearrangement.Relates` — one lattice is the other one, rearranged.
* `Relates.nodes` — the correspondence of the nodes.
* `Rearrangement.axisOn` — the axis that an axis becomes.

## Main statements

* `Relates.moves_coordsOf` — the coordinates of corresponding nodes.
* `Relates.nodeOn_lineNode` — lines go to lines.
* `Relates.perm_nodes`, `Relates.perm_axes`, `Relates.perm_interior` — sums over nodes, axes and
  interior nodes can be taken on either lattice.
* `Relates.exists_fitLadder?` — the ladder of the rearranged lattice.
-/

namespace GridSpline

open GridSpline.Lattice

/-- Where the axes go, and which of them are reversed. -/
structure Rearrangement where
  axis : Equiv.Perm ℕ
  reversed : ℕ → Bool

namespace Rearrangement

variable (m : Rearrangement)

/-- The coordinate of a node along an axis after the rearrangement. -/
def turn (e count coord : ℕ) : ℕ := if m.reversed e then count - 1 - coord else coord

theorem turn_lt {e count coord : ℕ} (h : coord < count) : m.turn e count coord < count := by
  unfold turn
  split <;> omega

theorem turn_injective {e count c d : ℕ} (hc : c < count) (hd : d < count)
    (h : m.turn e count c = m.turn e count d) : c = d := by
  unfold turn at h
  split at h <;> omega

/-- The same for an axis of a lattice. -/
def turnOn (res : List ℕ) (e coord : ℕ) : ℕ := m.turn e (res.getD e 0) coord

/-- One lattice is the other one, rearranged. -/
structure Relates (res res' : List ℕ) : Prop where
  resolutions : Moves m.axis (fun _ r => r) res res'
  two_le : ∀ r ∈ res, 2 ≤ r

/-- The coordinates of a node after the rearrangement. -/
def coordsOn (res : List ℕ) (i : ℕ) : List ℕ :=
  moved m.axis (m.turnOn res) (coordsOf res i)

/-- The number of a node after the rearrangement. -/
def nodeOn (res res' : List ℕ) (i : ℕ) : ℕ := nodeOf res' (m.coordsOn res i)

/-- The axis that an axis becomes. -/
def axisOn (res' : List ℕ) (a : Axis) : Axis where
  index := m.axis a.index
  count := a.count
  stride := (stridesFrom 1 res').getD (m.axis a.index) 0

namespace Relates

variable {m} {res res' : List ℕ} (h : m.Relates res res')

include h

theorem two_le' : ∀ r ∈ res', 2 ≤ r := by
  intro r hr
  obtain ⟨e, x, hx, heq⟩ := h.resolutions.exists_of_mem hr
  exact heq ▸ h.two_le x (List.mem_of_getElem? hx)

theorem pos : ∀ r ∈ res, 0 < r := fun r hr => by have := h.two_le r hr; omega

theorem pos' : ∀ r ∈ res', 0 < r := fun r hr => by have := h.two_le' r hr; omega

theorem length_eq : res'.length = res.length := h.resolutions.length_eq

theorem ne_nil (hne : res ≠ []) : res' ≠ [] := by
  intro hnil
  have hlen := h.length_eq
  rw [hnil, List.length_nil] at hlen
  exact hne (List.length_eq_zero_iff.mp hlen.symm)

theorem permutes : Permutes m.axis res.length := h.resolutions.permutes

/-- Both lattices have the same number of nodes. -/
theorem size_eq : size res' = size res := by
  have hprod : ∀ l : List ℕ, size l = l.prod := by
    intro l
    induction l with
    | nil => rfl
    | cons r rs ih => rw [size, ih, List.prod_cons]
  rw [hprod, hprod]
  exact h.resolutions.perm.prod_eq

/-! ## Nodes -/

theorem moves_coordsOn (i : ℕ) : Moves m.axis (m.turnOn res)
    (coordsOf res i) (m.coordsOn res i) :=
  moves_moved _ (by rw [length_coordsOf]; exact h.permutes)

theorem within_coordsOn (i : ℕ) : Within res' (m.coordsOn res i) := by
  refine within_iff.mpr (List.forall₂_iff_get.mpr ⟨?_, fun e h1 h2 => ?_⟩)
  · rw [(h.moves_coordsOn i).length_eq, length_coordsOf, h.length_eq]
  · simp only [List.get_eq_getElem]
    -- Look at the axis that went there.
    have hr := h.resolutions (m.axis.symm e)
    have hc := h.moves_coordsOn i (m.axis.symm e)
    rw [Equiv.apply_symm_apply, List.getElem?_eq_getElem h2, Option.map_id'] at hr
    rw [Equiv.apply_symm_apply, List.getElem?_eq_getElem h1] at hc
    obtain ⟨c, hcoord, hturn⟩ := Option.map_eq_some_iff.mp hc.symm
    obtain ⟨hd, hdc⟩ := List.getElem?_eq_some_iff.mp hcoord
    obtain ⟨hd', hdr⟩ := List.getElem?_eq_some_iff.mp hr.symm
    have hlt := (within_iff.mp (within_coordsOf h.pos i)).get hd hd'
    simp only [List.get_eq_getElem, hdc, hdr] at hlt
    rw [← hturn, turnOn, List.getD_eq_getElem _ _ hd', hdr]
    exact m.turn_lt hlt

theorem nodeOn_lt (i : ℕ) : m.nodeOn res res' i < size res' := nodeOf_lt_size (h.within_coordsOn i)

/-- The coordinates of corresponding nodes. -/
theorem moves_coordsOf (i : ℕ) : Moves m.axis (m.turnOn res)
    (coordsOf res i) (coordsOf res' (m.nodeOn res res' i)) := by
  unfold nodeOn
  rw [coordsOf_nodeOf (h.within_coordsOn i)]
  exact h.moves_coordsOn i

/-- A node with the rearranged coordinates is the corresponding one. -/
theorem eq_nodeOn {i j : ℕ} (hj : j < size res')
    (hcoords : Moves m.axis (m.turnOn res) (coordsOf res i)
      (coordsOf res' j)) : j = m.nodeOn res res' i :=
  eq_of_coordsOf_eq hj (h.nodeOn_lt i) (hcoords.ext (h.moves_coordsOf i))

theorem nodeOn_injective {i j : ℕ} (hi : i < size res) (hj : j < size res)
    (heq : m.nodeOn res res' i = m.nodeOn res res' j) : i = j := by
  refine eq_of_coordsOf_eq hi hj (List.ext_getElem (by rw [length_coordsOf, length_coordsOf])
    fun e h1 h2 => ?_)
  have he : e < res.length := by rwa [length_coordsOf] at h1
  have hi' := h.moves_coordsOf i e
  have hj' := h.moves_coordsOf j e
  rw [heq, hj', List.getElem?_eq_getElem h1, List.getElem?_eq_getElem h2, Option.map_some,
    Option.map_some, Option.some.injEq, turnOn, turnOn, List.getD_eq_getElem _ _ he] at hi'
  have hic := (within_iff.mp (within_coordsOf h.pos i)).get h1 he
  have hjc := (within_iff.mp (within_coordsOf h.pos j)).get h2 he
  simp only [List.get_eq_getElem] at hic hjc
  exact m.turn_injective hic hjc hi'.symm

/-- The correspondence of the nodes. -/
noncomputable def nodes : Fin (size res) ≃ Fin (size res') :=
  Equiv.ofBijective (fun i => ⟨m.nodeOn res res' i, h.nodeOn_lt i⟩)
    ((Fintype.bijective_iff_injective_and_card _).mpr
      ⟨fun i j heq => Fin.ext (h.nodeOn_injective i.isLt j.isLt (Fin.mk.inj heq)),
        by rw [Fintype.card_fin, Fintype.card_fin, h.size_eq]⟩)

theorem nodes_apply (i : Fin (size res)) : (h.nodes i : ℕ) = m.nodeOn res res' i := rfl

/-- Every node of the other lattice corresponds to one of this lattice. -/
theorem perm_nodes :
    (List.range (size res')).Perm ((List.range (size res)).map (m.nodeOn res res')) := by
  refine (List.perm_ext_iff_of_nodup List.nodup_range ?_).mpr fun j => ?_
  · refine List.nodup_range.map_on fun i hi j hj heq => ?_
    exact h.nodeOn_injective (List.mem_range.mp hi) (List.mem_range.mp hj) heq
  · rw [List.mem_range, List.mem_map]
    constructor
    · intro hj
      refine ⟨h.nodes.symm ⟨j, hj⟩, List.mem_range.mpr (Fin.isLt _), ?_⟩
      rw [← h.nodes_apply, Equiv.apply_symm_apply]
    · rintro ⟨i, -, rfl⟩
      exact h.nodeOn_lt i

/-! ## Axes -/

variable {a : Axis} (ha : a ∈ axes res)

include ha

omit h in
theorem turnOn_index (c : ℕ) : m.turnOn res a.index c = m.turn a.index a.count c := by
  unfold turnOn
  rw [List.getD_eq_getElem?_getD, getElem?_index ha, Option.getD_some]

theorem axisOn_mem : m.axisOn res' a ∈ axes res' := by
  have hcount := h.resolutions.getElem?_of_some (getElem?_index ha)
  have hlt : m.axis a.index < (stridesFrom 1 res').length := by
    rw [length_stridesFrom]
    exact (List.getElem?_eq_some_iff.mp hcount).1
  refine mem_axesFrom_iff.mpr ⟨m.axis a.index, hcount, ?_, (Nat.zero_add _).symm⟩
  unfold axisOn
  rw [List.getElem?_eq_getElem hlt, List.getD_eq_getElem _ _ hlt]

omit ha in
/-- The axes of both lattices. -/
theorem moves_axes : Moves m.axis (fun _ => m.axisOn res') (axes res) (axes res') := by
  have hlen : ∀ l : List ℕ, (axes l).length = l.length := fun l => length_axesFrom 0 1 l
  intro e
  by_cases he : e < res.length
  · obtain ⟨a, ha, rfl⟩ := exists_axis he
    have hhere := getElem?_axesFrom ha
    have hthere := getElem?_axesFrom (h.axisOn_mem ha)
    rw [Nat.sub_zero] at hhere hthere
    rw [show (axes res)[a.index]? = some a from hhere, Option.map_some]
    exact hthere
  · have he' : ¬m.axis e < res'.length := fun hlt => he ((h.resolutions.lt_length_iff e).mp hlt)
    rw [List.getElem?_eq_none (by rw [hlen]; omega), List.getElem?_eq_none (by rw [hlen]; omega)]
    rfl

omit ha in
theorem perm_axes : (axes res').Perm ((axes res).map (m.axisOn res')) := h.moves_axes.perm_map

theorem coord_axisOn (i : ℕ) :
    (m.axisOn res' a).coord (m.nodeOn res res' i) = m.turn a.index a.count (a.coord i) := by
  have hmoved := (h.moves_coordsOf i).getElem?_of_some (getElem?_coordsOf ha i)
  have hget := getElem?_coordsOf (h.axisOn_mem ha) (m.nodeOn res res' i)
  rw [show (m.axisOn res' a).index = m.axis a.index from rfl, hmoved, Option.some.injEq,
    turnOn_index ha] at hget
  exact hget.symm

theorem coord_lt (i : ℕ) : a.coord i < a.count := GridSpline.coord_lt h.two_le ha

theorem isInterior_axisOn (i : ℕ) :
    (m.axisOn res' a).IsInterior (m.nodeOn res res' i) ↔ a.IsInterior i := by
  have hlt := h.coord_lt ha i
  unfold Axis.IsInterior
  rw [h.coord_axisOn ha]
  unfold turn axisOn
  simp only
  split <;> omega

/-- A node stays as far away from the surface. -/
theorem depth_axisOn (i : ℕ) : (m.axisOn res' a).depth (m.nodeOn res res' i) = a.depth i := by
  have hlt := h.coord_lt ha i
  unfold Axis.depth
  rw [h.coord_axisOn ha]
  unfold turn axisOn
  simp only
  split <;> omega

/-- The interior nodes of both lattices. -/
theorem perm_interior : (Lattice.interior res' (m.axisOn res' a)).Perm
    ((Lattice.interior res a).map (m.nodeOn res res')) := by
  have hperm := h.perm_nodes.filter fun i => decide ((m.axisOn res' a).IsInterior i)
  rw [List.filter_map] at hperm
  unfold Lattice.interior
  convert hperm using 4
  rw [Function.comp_apply, decide_eq_decide]
  exact (h.isInterior_axisOn ha _).symm

/-- Lines go to lines. -/
theorem nodeOn_lineNode {i p : ℕ} (hi : i < size res) (hp : p < a.count) :
    m.nodeOn res res' (lineNode a i p) =
      lineNode (m.axisOn res' a) (m.nodeOn res res' i) (m.turn a.index a.count p) := by
  have hturn : m.turn a.index a.count p < (m.axisOn res' a).count := m.turn_lt hp
  have hmem := h.axisOn_mem ha
  symm
  -- Along a line only one coordinate changes.
  refine h.eq_nodeOn (lineNode_lt_size hmem (h.nodeOn_lt i) hturn) ?_
  rw [coordsOf_lineNode h.pos ha hi hp, coordsOf_lineNode h.pos' hmem (h.nodeOn_lt i) hturn]
  intro e
  rw [show (m.axisOn res' a).index = m.axis a.index from rfl, List.getElem?_set, List.getElem?_set]
  by_cases he : a.index = e
  · subst he
    have hlt : a.index < (coordsOf res i).length := by rw [length_coordsOf]; exact index_lt ha
    rw [if_pos rfl, if_pos rfl, if_pos hlt, if_pos (((h.moves_coordsOf i).lt_length_iff _).mpr hlt),
      Option.map_some, turnOn_index ha]
  · rw [if_neg he, if_neg fun heq => he (m.axis.injective heq), h.moves_coordsOf i e]

/-! ## Ladders -/

omit ha in
/-- The ladder of the rearranged lattice: its levels are rearranged in the same way. -/
theorem exists_fitLadder? (hne : res ≠ []) : ∃ ladder,
    (fitLadder? res : Except (Failure ℝ) _) = .ok ladder ∧
    (fitLadder? res' : Except (Failure ℝ) _) = .ok (ladder.map (moved m.axis fun _ r => r)) ∧
    ladder.getLast? = some res ∧
    ∀ l ∈ ladder, l.length = res.length ∧ m.Relates l (moved m.axis (fun _ r => r) l) := by
  obtain ⟨n, f, -, hladder⟩ := exists_fitLadder?_perm hne h.two_le
  obtain ⟨levels, hlevels, hlast, -, hbetween⟩ := Lattice.exists_fitLadder? hne h.two_le
  rw [hladder res (.refl _), Except.ok.injEq] at hlevels
  subst hlevels
  -- Both ladders have as many steps and the same factor, and on a level the resolution of
  -- an axis depends on that axis alone.
  have hmoves : ∀ i, Moves m.axis (fun _ t => t) (fitLevelOn res f i) (fitLevelOn res' f i) := by
    intro i
    unfold fitLevelOn levelOn
    simp only [List.map_map]
    exact h.resolutions.map fun _ _ _ => rfl
  refine ⟨_, hladder res (.refl _), ?_, hlast, fun l hl => ⟨(hbetween l hl).length_eq, ?_, ?_⟩⟩
  · rw [hladder res' h.resolutions.perm, List.map_map]
    refine congrArg Except.ok (List.map_congr_left fun i _ => ?_)
    exact (hmoves i).ext (moves_moved _ (hmoves i).permutes)
  · obtain ⟨i, -, rfl⟩ := List.mem_map.mp hl
    exact moves_moved _ (hmoves i).permutes
  · exact forall_le_level (hbetween l hl) (by decide) h.two_le

end Relates

end Rearrangement

end GridSpline
