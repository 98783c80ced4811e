import Mathlib.Algebra.BigOperators.Group.List.Basic
import Mathlib.Data.List.Forall2
import Mathlib.Tactic.Ring
import Mathlib.Tactic.Linarith
import GridSpline.Lattice.Axis

/-!
# Offsets of nodes

The difference of two node numbers is the same mixed-radix numeral as a node number, only that its
digits, the steps along the axes, may be negative. From this follow the bounds of a node number in
terms of its coordinates, and where the neighbours of a node along an axis are.

## Main definitions

* `Lattice.offsetOf` — the difference of node numbers that belongs to a step, digit by digit.

## Main statements

* `stepOffset_eq` — the program computes the same from the strides.
* `offsetOf_lt_size` — coordinates within the lattice have a number below the number of nodes.
* `add_mul_stride_lt_size` — steps along an axis do not leave the lattice.
* `stride_le_of_isInterior`, `add_stride_lt_of_isInterior` — an interior node has both neighbours.
* `exists_step_along` — moving along an axis is a step with a single nonzero entry.
-/

namespace GridSpline.Lattice

/-! ## Steps as numerals -/

/-- The difference of the node numbers that belongs to a step. -/
def offsetOf : List ℕ → List ℤ → ℤ
  | r :: rs, g :: gs => g + r * offsetOf rs gs
  | _, _ => 0

@[simp] theorem offsetOf_nil_left (g : List ℤ) : offsetOf [] g = 0 := rfl

@[simp] theorem offsetOf_cons (r : ℕ) (rs : List ℕ) (g : ℤ) (gs : List ℤ) :
    offsetOf (r :: rs) (g :: gs) = g + r * offsetOf rs gs := rfl

theorem length_stridesFrom (s : ℕ) (res : List ℕ) : (stridesFrom s res).length = res.length := by
  induction res generalizing s with
  | nil => rfl
  | cons r rs ih => rw [stridesFrom, List.length_cons, ih, List.length_cons]

theorem length_strides {res : List ℕ} (hne : res ≠ []) : (strides res).length = res.length := by
  unfold strides
  rw [if_neg (by simpa using hne), length_stridesFrom]

theorem foldl_add_int (l : List ℤ) (a : ℤ) : l.foldl (· + ·) a = a + l.sum := by
  induction l generalizing a with
  | nil => simp
  | cons b bs ih => rw [List.foldl_cons, ih, List.sum_cons, add_assoc]

theorem sum_zipWith_stridesFrom (s : ℕ) (res : List ℕ) (g : List ℤ) :
    (List.zipWith (fun (x : ℤ) (s : ℕ) => x * s) g (stridesFrom s res)).sum =
      s * offsetOf res g := by
  induction res generalizing s g with
  | nil => simp [stridesFrom]
  | cons r rs ih =>
    cases g with
    | nil => simp [offsetOf]
    | cons x xs =>
      rw [stridesFrom, List.zipWith_cons_cons, List.sum_cons, ih, offsetOf_cons]
      push_cast
      ring

/-- Summing up by the strides gives the same difference. -/
theorem stepOffset_eq {res : List ℕ} (hne : res ≠ []) (g : List ℤ) :
    stepOffset res g = offsetOf res g := by
  unfold stepOffset strides
  rw [if_neg (by simpa using hne), foldl_add_int, sum_zipWith_stridesFrom]
  simp

theorem offsetOf_add {res : List ℕ} {g h : List ℤ} (hl : g.length = h.length) :
    offsetOf res (List.zipWith (· + ·) g h) = offsetOf res g + offsetOf res h := by
  induction res generalizing g h with
  | nil => rfl
  | cons r rs ih =>
    cases g with
    | nil =>
      cases h with
      | nil => rfl
      | cons _ _ => simp at hl
    | cons x xs =>
      cases h with
      | nil => simp at hl
      | cons y ys =>
        rw [List.zipWith_cons_cons, offsetOf_cons, ih (by simpa using hl), offsetOf_cons,
          offsetOf_cons]
        ring

theorem offsetOf_sub {res : List ℕ} {g h : List ℤ} (hl : g.length = h.length) :
    offsetOf res (List.zipWith (· - ·) g h) = offsetOf res g - offsetOf res h := by
  induction res generalizing g h with
  | nil => rfl
  | cons r rs ih =>
    cases g with
    | nil =>
      cases h with
      | nil => rfl
      | cons _ _ => simp at hl
    | cons x xs =>
      cases h with
      | nil => simp at hl
      | cons y ys =>
        rw [List.zipWith_cons_cons, offsetOf_cons, ih (by simpa using hl), offsetOf_cons,
          offsetOf_cons]
        ring

theorem offsetOf_replicate_zero (res : List ℕ) (n : ℕ) :
    offsetOf res (List.replicate n 0) = 0 := by
  induction res generalizing n with
  | nil => rfl
  | cons r rs ih =>
    cases n with
    | zero => rfl
    | succ n => rw [List.replicate_succ, offsetOf_cons, ih]; simp

/-! ## Bounds -/

/-- Coordinates that are not negative have a number that is none either. -/
theorem offsetOf_nonneg {res : List ℕ} {c : List ℤ} (h : ∀ x ∈ c, 0 ≤ x) :
    0 ≤ offsetOf res c := by
  induction res generalizing c with
  | nil => exact le_refl _
  | cons r rs ih =>
    cases c with
    | nil => exact le_refl _
    | cons x xs =>
      rw [offsetOf_cons]
      have hx := h x List.mem_cons_self
      have hxs := ih fun y hy => h y (List.mem_cons_of_mem x hy)
      positivity

/-- Coordinates below the resolutions have a number below the number of nodes. -/
theorem offsetOf_lt_size {res : List ℕ} {c : List ℤ}
    (h : List.Forall₂ (fun (x : ℤ) (r : ℕ) => x < r) c res) : offsetOf res c < size res := by
  induction h with
  | nil => simp [size]
  | @cons x r xs rs hx _ ih =>
    rw [offsetOf_cons, size]
    have hstep : offsetOf rs xs + 1 ≤ (size rs : ℤ) := ih
    calc x + r * offsetOf rs xs < r + r * offsetOf rs xs := by linarith
      _ = r * (offsetOf rs xs + 1) := by ring
      _ ≤ r * size rs := mul_le_mul_of_nonneg_left hstep (by positivity)
      _ = ((r * size rs : ℕ) : ℤ) := by push_cast; ring

theorem size_pos {res : List ℕ} (h : ∀ r ∈ res, 0 < r) : 0 < size res := by
  induction res with
  | nil => exact Nat.one_pos
  | cons r rs ih =>
    exact Nat.mul_pos (h r List.mem_cons_self) (ih fun x hx => h x (List.mem_cons_of_mem r hx))

/-! ## Axes -/

section Axes

variable {index s : ℕ} {res : List ℕ} {a : Axis}

/-- What an axis is made of: its place, its resolution and its stride. -/
theorem mem_axesFrom_iff : a ∈ axesFrom index s res ↔
    ∃ e, res[e]? = some a.count ∧ (stridesFrom s res)[e]? = some a.stride ∧
      a.index = index + e := by
  induction res generalizing index s with
  | nil => simp [axesFrom]
  | cons r rs ih =>
    rw [axesFrom, List.mem_cons, ih]
    constructor
    · rintro (rfl | ⟨e, hc, hs, hi⟩)
      · exact ⟨0, rfl, rfl, rfl⟩
      · exact ⟨e + 1, hc, hs, by omega⟩
    · rintro ⟨e, hc, hs, hi⟩
      cases e with
      | zero =>
        left
        simp only [List.getElem?_cons_zero, Option.some.injEq, stridesFrom] at hc hs
        cases a
        simp_all
      | succ e => exact Or.inr ⟨e, hc, hs, by omega⟩

/-- The stride and resolution of an axis divide the number of nodes. -/
theorem exists_size_eq (h : a ∈ axesFrom index s res) :
    ∃ t, s * size res = a.stride * a.count * t := by
  induction res generalizing index s with
  | nil => simp [axesFrom] at h
  | cons r rs ih =>
    rw [axesFrom, List.mem_cons] at h
    rcases h with rfl | h
    · exact ⟨size rs, by rw [size]; ring⟩
    · obtain ⟨t, ht⟩ := ih h
      exact ⟨t, by rw [← ht, size]; ring⟩

theorem stride_pos (hs : 0 < s) (hres : ∀ r ∈ res, 0 < r) (h : a ∈ axesFrom index s res) :
    0 < a.stride := by
  induction res generalizing index s with
  | nil => simp [axesFrom] at h
  | cons r rs ih =>
    rw [axesFrom, List.mem_cons] at h
    rcases h with rfl | h
    · exact hs
    · exact ih (Nat.mul_pos hs (hres r List.mem_cons_self))
        (fun x hx => hres x (List.mem_cons_of_mem r hx)) h

theorem count_mem (h : a ∈ axesFrom index s res) : a.count ∈ res := by
  obtain ⟨e, hc, -, -⟩ := mem_axesFrom_iff.mp h
  exact List.mem_of_getElem? hc

theorem index_lt (h : a ∈ axes res) : a.index < res.length := by
  obtain ⟨e, hc, -, hi⟩ := mem_axesFrom_iff.mp h
  obtain ⟨he, -⟩ := List.getElem?_eq_some_iff.mp hc
  omega

theorem getElem?_index (h : a ∈ axes res) : res[a.index]? = some a.count := by
  obtain ⟨e, hc, -, hi⟩ := mem_axesFrom_iff.mp h
  rw [hi, Nat.zero_add]
  exact hc

/-- There is an axis at every place. -/
theorem exists_axis {e : ℕ} (he : e < res.length) : ∃ a ∈ axes res, a.index = e := by
  have hstride : e < (stridesFrom 1 res).length := by rwa [length_stridesFrom]
  exact ⟨⟨e, res[e], (stridesFrom 1 res)[e]⟩, mem_axesFrom_iff.mpr
    ⟨e, List.getElem?_eq_getElem he, List.getElem?_eq_getElem hstride, (Nat.zero_add e).symm⟩, rfl⟩

/-- Moving along an axis is a step with a single nonzero entry. -/
theorem exists_step_along (h : a ∈ axesFrom index s res) {k : ℤ} (hk : k ≠ 0) :
    ∃ g : List ℤ, g.length = res.length ∧ (∀ x ∈ g, x = 0 ∨ x = k) ∧
      g.count 0 + 1 = g.length ∧ g.count k = 1 ∧ s * offsetOf res g = k * a.stride := by
  induction res generalizing index s with
  | nil => simp [axesFrom] at h
  | cons r rs ih =>
    rw [axesFrom, List.mem_cons] at h
    rcases h with rfl | h
    · refine ⟨k :: List.replicate rs.length 0, by simp, ?_, ?_, ?_, ?_⟩
      · intro x hx
        rcases List.mem_cons.mp hx with rfl | hx
        · exact Or.inr rfl
        · exact Or.inl (List.eq_of_mem_replicate hx)
      · simp [List.count_cons_of_ne hk]
      · simp [List.count_replicate, hk.symm]
      · rw [offsetOf_cons, offsetOf_replicate_zero]
        ring
    · obtain ⟨g, hl, hg, h0, h1, ho⟩ := ih h
      refine ⟨0 :: g, by simp [hl], ?_, ?_, ?_, ?_⟩
      · intro x hx
        rcases List.mem_cons.mp hx with rfl | hx
        · exact Or.inl rfl
        · exact hg x hx
      · simp [h0]
      · rw [List.count_cons_of_ne hk.symm, h1]
      · rw [← ho, offsetOf_cons]
        push_cast
        ring

end Axes

/-! ## Neighbours -/

section Neighbours

variable {res : List ℕ} {a : Axis} {i k : ℕ}

/-- Steps along the axis stay on the lattice as long as the coordinate is one of the axis. -/
theorem add_mul_stride_lt_size (ha : a ∈ axes res) (hi : i < size res)
    (hk : a.coord i + k < a.count) : i + k * a.stride < size res := by
  obtain ⟨t, ht⟩ := exists_size_eq ha
  rw [one_mul] at ht
  have hs : 0 < a.stride := by
    rcases Nat.eq_zero_or_pos a.stride with h0 | h0
    · rw [ht, h0] at hi
      simp at hi
    · exact h0
  have hq : i / a.stride < a.count * t := by
    rw [Nat.div_lt_iff_lt_mul hs]
    calc i < a.stride * a.count * t := ht ▸ hi
      _ = a.count * t * a.stride := by ring
  have hmod := Nat.mod_add_div (i / a.stride) a.count
  have hline : i / a.stride / a.count < t := Nat.div_lt_of_lt_mul hq
  unfold Axis.coord at hk
  have hend : i / a.stride + k < a.count * t := by
    calc i / a.stride + k < a.count + a.count * (i / a.stride / a.count) := by omega
      _ = a.count * (i / a.stride / a.count + 1) := by ring
      _ ≤ a.count * t := Nat.mul_le_mul_left _ hline
  have hdiv : (i + k * a.stride) / a.stride < a.count * t := by
    rw [Nat.add_mul_div_right _ _ hs]
    exact hend
  calc i + k * a.stride < a.count * t * a.stride := (Nat.div_lt_iff_lt_mul hs).mp hdiv
    _ = size res := by rw [ht]; ring

/-- An interior node has a neighbour before it. -/
theorem stride_le_of_isInterior (h : a.IsInterior i) : a.stride ≤ i := by
  by_contra hlt
  have : a.coord i = 0 := by
    unfold Axis.coord
    rw [Nat.div_eq_of_lt (not_le.mp hlt), Nat.zero_mod]
  have := h.1
  omega

/-- An interior node has a neighbour after it. -/
theorem add_stride_lt_of_isInterior (ha : a ∈ axes res) (hi : i < size res)
    (h : a.IsInterior i) : i + a.stride < size res := by
  have hroom : a.coord i + 1 < a.count := h.2
  have hstep := add_mul_stride_lt_size ha hi hroom
  rwa [one_mul] at hstep

theorem mem_interior : i ∈ interior res a ↔ i < size res ∧ a.IsInterior i := by
  simp [interior]

end Neighbours

end GridSpline.Lattice
