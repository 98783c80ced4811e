import Mathlib.Data.List.Basic
import Mathlib.Tactic.Ring
import GridSpline.Proofs.Lattice.Offset

/-!
# Walking along an axis

The nodes that differ in one coordinate form a line. Going along it changes that coordinate by the
number of steps and no other, as long as the coordinate is one of the axis. Every node lies on the
line that starts where its coordinate is zero.

## Main definitions

* `lineNode` — the node at a place of the line through a node.

## Main statements

* `coord_add_mul_stride`, `coordsOf_add_mul_stride` — the coordinates after some steps.
* `exists_lineStart` — the start of the line through a node.
* `coordsOf_lineNode` — the nodes of a line differ in one coordinate.
* `lineNode_comm` — the order in which one walks along two axes does not matter.
-/

namespace GridSpline.Lattice

variable {res : List ℕ} {a : Axis} {i k : ℕ}

/-- Steps along the axis change its coordinate by their number. -/
theorem coord_add_mul_stride (hs : 0 < a.stride) (hk : a.coord i + k < a.count) :
    a.coord (i + k * a.stride) = a.coord i + k := by
  have hmod := Nat.mod_add_div (i / a.stride) a.count
  unfold Axis.coord at hk ⊢
  rw [Nat.add_mul_div_right _ _ hs]
  have hsplit : i / a.stride + k =
      i / a.stride % a.count + k + a.count * (i / a.stride / a.count) := by omega
  rw [hsplit, Nat.add_mul_mod_self_left, Nat.mod_eq_of_lt hk]

/-- Every node lies on a line that starts where the coordinate is zero. -/
theorem exists_lineStart (a : Axis) (i : ℕ) :
    ∃ j, a.coord j = 0 ∧ i = j + a.coord i * a.stride := by
  have hmod := Nat.mod_add_div (i / a.stride) a.count
  have hle : a.coord i ≤ i / a.stride := Nat.mod_le _ _
  have hmul : a.coord i * a.stride ≤ i :=
    (Nat.mul_le_mul_right _ hle).trans (Nat.div_mul_le_self i a.stride)
  refine ⟨i - a.coord i * a.stride, ?_, (Nat.sub_add_cancel hmul).symm⟩
  have hdiv : (i - a.coord i * a.stride) / a.stride = i / a.stride - a.coord i := by
    rw [mul_comm]
    exact Nat.sub_mul_div i a.stride (a.coord i)
  have hrest : i / a.stride - a.coord i = a.count * (i / a.stride / a.count) := by
    have : a.coord i = i / a.stride % a.count := rfl
    omega
  show (i - a.coord i * a.stride) / a.stride % a.count = 0
  rw [hdiv, hrest, Nat.mul_mod_right]

/-! ## All coordinates -/

theorem within_coordsOf (hres : ∀ r ∈ res, 0 < r) (i : ℕ) : Within res (coordsOf res i) := by
  induction res generalizing i with
  | nil => trivial
  | cons r rs ih =>
    exact ⟨Nat.mod_lt _ (hres r List.mem_cons_self),
      ih (fun q hq => hres q (List.mem_cons_of_mem r hq)) _⟩

/-- Coordinates within a lattice are each below the number of nodes along their axis. -/
theorem within_iff {c : List ℕ} : Within res c ↔ List.Forall₂ (· < ·) c res := by
  induction res generalizing c with
  | nil => cases c <;> simp [Within]
  | cons r rs ih => cases c <;> simp [Within, ih]

theorem length_of_within {c : List ℕ} (h : Within res c) : c.length = res.length := by
  induction res generalizing c with
  | nil =>
    cases c with
    | nil => rfl
    | cons _ _ => exact h.elim
  | cons r rs ih =>
    cases c with
    | nil => exact h.elim
    | cons x xs => rw [List.length_cons, ih h.2, List.length_cons]

/-- A coordinate can be replaced by any other of its axis. -/
theorem within_set {c : List ℕ} (h : Within res c) {e r v : ℕ} (he : res[e]? = some r)
    (hv : v < r) : Within res (c.set e v) := by
  induction res generalizing c e with
  | nil => simp at he
  | cons q qs ih =>
    cases c with
    | nil => exact h.elim
    | cons x xs =>
      cases e with
      | zero =>
        rw [List.getElem?_cons_zero, Option.some.injEq] at he
        subst he
        exact ⟨hv, h.2⟩
      | succ e => exact ⟨h.1, ih h.2 he⟩

theorem mul_nodeOf_set {index s : ℕ} (ha : a ∈ axesFrom index s res) {d : List ℕ} {v : ℕ}
    (hv : d[a.index - index]? = some v) (hd : d.length = res.length) :
    s * nodeOf res (d.set (a.index - index) (v + k)) = s * nodeOf res d + k * a.stride := by
  induction res generalizing index s d with
  | nil => simp [axesFrom] at ha
  | cons r rs ih =>
    cases d with
    | nil => simp at hd
    | cons x xs =>
      rw [axesFrom, List.mem_cons] at ha
      rcases ha with rfl | ha
      · simp only [Nat.sub_self, List.getElem?_cons_zero, Option.some.injEq] at hv
        simp only [Nat.sub_self, List.set_cons_zero, nodeOf, hv]
        ring
      · obtain ⟨e, -, -, hindex⟩ := mem_axesFrom_iff.mp ha
        have hplace : a.index - index = a.index - (index + 1) + 1 := by omega
        rw [hplace, List.getElem?_cons_succ] at hv
        have hrest := ih ha hv (by simpa using hd)
        rw [hplace, List.set_cons_succ, nodeOf, nodeOf]
        calc s * (x + r * nodeOf rs (xs.set (a.index - (index + 1)) (v + k)))
            = s * x + s * r * nodeOf rs (xs.set (a.index - (index + 1)) (v + k)) := by ring
          _ = s * (x + r * nodeOf rs xs) + k * a.stride := by rw [hrest]; ring

/-- The number of a node grows by the stride with every step along the axis. -/
theorem nodeOf_set (ha : a ∈ axes res) {d : List ℕ} {v : ℕ} (hv : d[a.index]? = some v)
    (hd : d.length = res.length) :
    nodeOf res (d.set a.index (v + k)) = nodeOf res d + k * a.stride := by
  have := mul_nodeOf_set (k := k) ha hv hd
  rwa [one_mul, one_mul, Nat.sub_zero] at this

theorem getElem?_axesFrom {index s : ℕ} (ha : a ∈ axesFrom index s res) :
    (axesFrom index s res)[a.index - index]? = some a := by
  induction res generalizing index s with
  | nil => simp [axesFrom] at ha
  | cons r rs ih =>
    rw [axesFrom, List.mem_cons] at ha
    rcases ha with rfl | ha
    · rw [axesFrom, Nat.sub_self, List.getElem?_cons_zero]
    · obtain ⟨e, -, -, hindex⟩ := mem_axesFrom_iff.mp ha
      have hplace : a.index - index = a.index - (index + 1) + 1 := by omega
      rw [axesFrom, hplace, List.getElem?_cons_succ, ih ha]

/-- What stands at a place is the axis with that number. -/
theorem mem_axes_of_getElem? {e : ℕ} (h : (axes res)[e]? = some a) :
    a ∈ axes res ∧ a.index = e := by
  refine ⟨List.mem_of_getElem? h, ?_⟩
  have he : e < res.length := by
    rw [← length_axesFrom 0 1 res]
    exact (List.getElem?_eq_some_iff.mp h).1
  obtain ⟨b, hb, rfl⟩ := exists_axis he
  have hplace := getElem?_axesFrom hb
  rw [Nat.sub_zero] at hplace
  rw [Option.some.inj (h.symm.trans hplace)]

/-- The coordinate along an axis is found at the place of the axis. -/
theorem getElem?_coordsOf (ha : a ∈ axes res) (i : ℕ) :
    (coordsOf res i)[a.index]? = some (a.coord i) := by
  have hplace := getElem?_axesFrom ha
  rw [Nat.sub_zero] at hplace
  rw [← map_coord_axes, List.getElem?_map]
  exact congrArg _ hplace

/-- Steps along an axis change no other coordinate. -/
theorem coordsOf_add_mul_stride (hres : ∀ r ∈ res, 0 < r) (ha : a ∈ axes res) (hi : i < size res)
    (hk : a.coord i + k < a.count) :
    coordsOf res (i + k * a.stride) = (coordsOf res i).set a.index (a.coord i + k) := by
  have hwithin := within_set (within_coordsOf hres i) (getElem?_index ha) hk
  have hnode := nodeOf_set (k := k) ha (getElem?_coordsOf ha i) (length_coordsOf res i)
  rw [nodeOf_coordsOf hi] at hnode
  rw [← hnode, coordsOf_nodeOf hwithin]

/-! ## Lines through nodes -/

/-- Nodes with the same coordinates are the same. -/
theorem eq_of_coordsOf_eq {j : ℕ} (hi : i < size res) (hj : j < size res)
    (h : coordsOf res i = coordsOf res j) : i = j := by
  rw [← nodeOf_coordsOf hi, h, nodeOf_coordsOf hj]

/-- The node at a place of the line through a node along an axis. -/
def lineNode (a : Axis) (i p : ℕ) : ℕ := i - a.coord i * a.stride + p * a.stride

theorem coord_mul_stride_le (a : Axis) (i : ℕ) : a.coord i * a.stride ≤ i := by
  obtain ⟨j, -, hj⟩ := exists_lineStart a i
  omega

theorem lineNode_coord (a : Axis) (i : ℕ) : lineNode a i (a.coord i) = i :=
  Nat.sub_add_cancel (coord_mul_stride_le a i)

theorem lineNode_coord_succ (a : Axis) (i : ℕ) :
    lineNode a i (a.coord i + 1) = i + a.stride := by
  have := coord_mul_stride_le a i
  unfold lineNode
  rw [add_mul]
  omega

theorem lineNode_coord_pred {a : Axis} {i : ℕ} (h : 1 ≤ a.coord i) :
    lineNode a i (a.coord i - 1) = i - a.stride := by
  have hle := coord_mul_stride_le a i
  have hsplit : a.coord i * a.stride = (a.coord i - 1) * a.stride + a.stride := by
    rw [← Nat.succ_mul, Nat.succ_eq_add_one, Nat.sub_add_cancel h]
  unfold lineNode
  omega

section LineNode

variable {p : ℕ} (hres : ∀ r ∈ res, 0 < r) (ha : a ∈ axes res) (hi : i < size res)
  (hp : p < a.count)

include hres ha hi hp

/-- The nodes of a line differ in one coordinate. -/
theorem coordsOf_lineNode : coordsOf res (lineNode a i p) = (coordsOf res i).set a.index p := by
  obtain ⟨j, hj, heq⟩ := exists_lineStart a i
  have hcoord : a.coord i < a.count := Nat.mod_lt _ (by omega)
  have hj' : j < size res := by omega
  have hnode : lineNode a i p = j + p * a.stride := by
    unfold lineNode
    omega
  have hline := coordsOf_add_mul_stride hres ha hj'
    (by rwa [hj, zero_add] : a.coord j + p < a.count)
  have hhere := coordsOf_add_mul_stride hres ha hj'
    (by rwa [hj, zero_add] : a.coord j + a.coord i < a.count)
  rw [← heq, hj, zero_add] at hhere
  rw [hnode, hline, hhere, List.set_set, hj, zero_add]

omit hres in
theorem lineNode_lt_size : lineNode a i p < size res := by
  obtain ⟨j, hj, heq⟩ := exists_lineStart a i
  have hnode : lineNode a i p = j + p * a.stride := by
    unfold lineNode
    omega
  rw [hnode]
  exact add_mul_stride_lt_size ha (by omega) (by rwa [hj, zero_add])

/-- Walking along an axis keeps all other coordinates. -/
theorem coord_lineNode_of_ne {b : Axis} (hb : b ∈ axes res) (hne : b.index ≠ a.index) :
    b.coord (lineNode a i p) = b.coord i := by
  have hget := getElem?_coordsOf hb (lineNode a i p)
  rw [coordsOf_lineNode hres ha hi hp, List.getElem?_set_ne hne.symm, getElem?_coordsOf hb,
    Option.some.injEq] at hget
  exact hget.symm

/-- The order in which one walks along two axes does not matter. -/
theorem lineNode_comm {b : Axis} (hb : b ∈ axes res) (hne : b.index ≠ a.index) {q : ℕ}
    (hq : q < b.count) : lineNode b (lineNode a i p) q = lineNode a (lineNode b i q) p := by
  have h1 := lineNode_lt_size ha hi hp
  have h2 := lineNode_lt_size hb hi hq
  refine eq_of_coordsOf_eq (lineNode_lt_size hb h1 hq) (lineNode_lt_size ha h2 hp) ?_
  rw [coordsOf_lineNode hres hb h1 hq, coordsOf_lineNode hres ha hi hp,
    coordsOf_lineNode hres ha h2 hp, coordsOf_lineNode hres hb hi hq, List.set_comm _ _ hne.symm]

end LineNode

end GridSpline.Lattice
