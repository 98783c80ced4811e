import Mathlib
import GridSpline.Proofs.Equations.Stiffness
import GridSpline.Proofs.Lattice.Line

/-!
# Where second differences vanish

Along a line of nodes the second differences compare the slope before a node with that after it.
They all vanish exactly when the slope is the same everywhere, that is when the node values are an
affine function of the places of the nodes. The places are those of the spacing, or the numbers of
the nodes where there is none.

## Main definitions

* `nodePlace` — the place of a node along an axis.
* `IsAffineOn` — values that are affine in the places.
* `secondDifferenceAt` — the second difference of values along a line.
* `IsAffineAlong` — node values that are affine on every line of an axis.

## Main statements

* `secondDifferenceAt_eq_zero_iff` — a second difference compares two slopes.
* `isAffineOn_iff` — it vanishes everywhere exactly for affine values.
* `isAffineAlong_iff` — the same for all lines of a lattice, in terms of its weighted squares.
-/

namespace GridSpline

open Matrix
open GridSpline.Lattice

/-! ## One line -/

/-- The place of a node along an axis: what the spacing says, or its number. -/
noncomputable def nodePlace (spacing : Option (List ℝ)) (k : ℕ) : ℝ :=
  match spacing with
  | none => k
  | some l => l.getD k 0

theorem nodePlace_none_sub {k : ℕ} (hk : 1 ≤ k) :
    nodePlace none k - nodePlace none (k - 1) = 1 := by
  simp only [nodePlace]
  rw [Nat.cast_sub hk, Nat.cast_one, sub_sub_cancel]

theorem nodePlace_none_succ_sub (k : ℕ) : nodePlace none (k + 1) - nodePlace none k = 1 := by
  simp only [nodePlace]
  rw [Nat.cast_add, Nat.cast_one, add_sub_cancel_left]

/-- Places that only grow, or only fall. -/
def IsMonotoneSpacing (spacing : Option (List ℝ)) : Prop :=
  ∀ l, spacing = some l → l.Pairwise (· < ·) ∨ l.Pairwise (· > ·)

/-- Values that are affine in the places. -/
def IsAffineOn (count : ℕ) (place v : ℕ → ℝ) : Prop :=
  ∃ p q : ℝ, ∀ k < count, v k = p + q * place k

/-- The second difference of values along a line. -/
noncomputable def secondDifferenceAt (spacing : Option (List ℝ)) (v : ℕ → ℝ) (k : ℕ) : ℝ :=
  let w := differenceWeights spacing k
  w.1 * v (k - 1) - (w.1 + w.2) * v k + w.2 * v (k + 1)

/-- The steps between neighbours have one sign. -/
theorem IsMonotoneSpacing.step_mul_step_pos {spacing : Option (List ℝ)} {count k : ℕ}
    (h : IsMonotoneSpacing spacing) (hlen : ∀ l, spacing = some l → l.length = count)
    (hk : 1 ≤ k) (hcount : k + 2 ≤ count) :
    0 < (nodePlace spacing k - nodePlace spacing (k - 1)) *
      (nodePlace spacing (k + 1) - nodePlace spacing k) := by
  cases spacing with
  | none =>
    rw [nodePlace_none_sub hk, nodePlace_none_succ_sub, mul_one]
    exact one_pos
  | some l =>
    have hl := hlen l rfl
    simp only [nodePlace]
    rw [List.getD_eq_getElem _ _ (by omega), List.getD_eq_getElem _ _ (by omega),
      List.getD_eq_getElem _ _ (by omega)]
    rcases h l rfl with hup | hdown
    · have h1 := List.pairwise_iff_getElem.mp hup (k - 1) k (by omega) (by omega) (by omega)
      have h2 := List.pairwise_iff_getElem.mp hup k (k + 1) (by omega) (by omega) (by omega)
      exact mul_pos (sub_pos.mpr h1) (sub_pos.mpr h2)
    · have h1 := List.pairwise_iff_getElem.mp hdown (k - 1) k (by omega) (by omega) (by omega)
      have h2 := List.pairwise_iff_getElem.mp hdown k (k + 1) (by omega) (by omega) (by omega)
      exact mul_pos_of_neg_of_neg (sub_neg.mpr h1) (sub_neg.mpr h2)

/-- No two nodes of an axis are at the same place. -/
theorem IsMonotoneSpacing.nodePlace_ne {spacing : Option (List ℝ)} {count j k : ℕ}
    (h : IsMonotoneSpacing spacing) (hlen : ∀ l, spacing = some l → l.length = count)
    (hj : j < count) (hk : k < count) (hne : j ≠ k) :
    nodePlace spacing j ≠ nodePlace spacing k := by
  cases spacing with
  | none => exact fun heq => hne (Nat.cast_injective heq)
  | some l =>
    have hl := hlen l rfl
    have hnodup : l.Nodup := by
      rcases h l rfl with hup | hdown
      · exact hup.imp fun hlt => hlt.ne
      · exact hdown.imp fun hlt => hlt.ne'
    simp only [nodePlace]
    rw [List.getD_eq_getElem _ _ (by omega), List.getD_eq_getElem _ _ (by omega)]
    exact fun heq => hne ((hnodup.getElem_inj_iff).mp heq)

/-- The weights are those of the slopes, up to a common factor. -/
theorem exists_differenceWeights_eq {spacing : Option (List ℝ)} {k : ℕ} (hk : 1 ≤ k)
    (hstep : 0 < (nodePlace spacing k - nodePlace spacing (k - 1)) *
      (nodePlace spacing (k + 1) - nodePlace spacing k)) :
    ∃ c : ℝ, c ≠ 0 ∧
      differenceWeights spacing k =
        (c / (nodePlace spacing k - nodePlace spacing (k - 1)),
          c / (nodePlace spacing (k + 1) - nodePlace spacing k)) := by
  cases spacing with
  | none =>
    refine ⟨1, one_ne_zero, ?_⟩
    rw [nodePlace_none_sub hk, nodePlace_none_succ_sub, div_one]
    rfl
  | some l =>
    simp only [nodePlace] at hstep ⊢
    obtain ⟨d, hd⟩ : ∃ d, d = l.getD k 0 - l.getD (k - 1) 0 := ⟨_, rfl⟩
    obtain ⟨u, hu⟩ : ∃ u, u = l.getD (k + 1) 0 - l.getD k 0 := ⟨_, rfl⟩
    rw [← hd, ← hu] at hstep ⊢
    have hroot : √(|d| * |u|) ≠ 0 := by
      rw [← abs_mul, Real.sqrt_ne_zero', abs_pos]
      exact hstep.ne'
    simp only [differenceWeights, ← hd, ← hu]
    rcases pos_and_pos_or_neg_and_neg_of_mul_pos hstep with ⟨hd0, hu0⟩ | ⟨hd0, hu0⟩
    · rw [abs_of_pos hd0, abs_of_pos hu0] at hroot ⊢
      exact ⟨_, hroot, rfl⟩
    · rw [abs_of_neg hd0, abs_of_neg hu0] at hroot ⊢
      refine ⟨-√(-d * -u), neg_ne_zero.mpr hroot, ?_⟩
      rw [div_neg, div_neg, neg_div, neg_div]

/-- A second difference vanishes when the slopes before and after the node agree. -/
theorem secondDifferenceAt_eq_zero_iff {spacing : Option (List ℝ)} {v : ℕ → ℝ} {k : ℕ}
    (hk : 1 ≤ k) (hstep : 0 < (nodePlace spacing k - nodePlace spacing (k - 1)) *
      (nodePlace spacing (k + 1) - nodePlace spacing k)) :
    secondDifferenceAt spacing v k = 0 ↔
      (v k - v (k - 1)) * (nodePlace spacing (k + 1) - nodePlace spacing k) =
        (v (k + 1) - v k) * (nodePlace spacing k - nodePlace spacing (k - 1)) := by
  obtain ⟨c, hc, hw⟩ := exists_differenceWeights_eq hk hstep
  obtain ⟨d, hd⟩ : ∃ d, d = nodePlace spacing k - nodePlace spacing (k - 1) := ⟨_, rfl⟩
  obtain ⟨u, hu⟩ : ∃ u, u = nodePlace spacing (k + 1) - nodePlace spacing k := ⟨_, rfl⟩
  simp only [secondDifferenceAt, hw, ← hd, ← hu]
  rw [← hd, ← hu] at hstep
  have hd0 : d ≠ 0 := left_ne_zero_of_mul hstep.ne'
  have hu0 : u ≠ 0 := right_ne_zero_of_mul hstep.ne'
  have hslopes : c / d * v (k - 1) - (c / d + c / u) * v k + c / u * v (k + 1) =
      c / (d * u) * ((v (k + 1) - v k) * d - (v k - v (k - 1)) * u) := by
    field_simp
    ring
  rw [hslopes, mul_eq_zero, or_iff_right (div_ne_zero hc (mul_ne_zero hd0 hu0)), sub_eq_zero,
    eq_comm]

/-- Affine values have no second differences. -/
theorem IsAffineOn.secondDifferenceAt_eq_zero {spacing : Option (List ℝ)} {count : ℕ} {v : ℕ → ℝ}
    (haffine : IsAffineOn count (nodePlace spacing) v) (h : IsMonotoneSpacing spacing)
    (hlen : ∀ l, spacing = some l → l.length = count) {k : ℕ} (hk : 1 ≤ k)
    (hk2 : k + 2 ≤ count) : secondDifferenceAt spacing v k = 0 := by
  obtain ⟨p, q, hv⟩ := haffine
  rw [secondDifferenceAt_eq_zero_iff hk (h.step_mul_step_pos hlen hk hk2), hv k (by omega),
    hv (k - 1) (by omega), hv (k + 1) (by omega)]
  ring

/-- The second differences of values along a line vanish exactly when the values are affine. -/
theorem isAffineOn_iff {spacing : Option (List ℝ)} {count : ℕ} {v : ℕ → ℝ} (hcount : 3 ≤ count)
    (h : IsMonotoneSpacing spacing) (hlen : ∀ l, spacing = some l → l.length = count) :
    IsAffineOn count (nodePlace spacing) v ↔
      ∀ k, 1 ≤ k → k + 2 ≤ count → secondDifferenceAt spacing v k = 0 := by
  constructor
  · intro haffine k hk hk2
    exact haffine.secondDifferenceAt_eq_zero h hlen hk hk2
  · intro hzero
    -- The line through the first two nodes goes through all others, one after the other.
    obtain ⟨q, hq⟩ : ∃ q, q = (v 1 - v 0) / (nodePlace spacing 1 - nodePlace spacing 0) := ⟨_, rfl⟩
    have hfirst : nodePlace spacing 1 - nodePlace spacing 0 ≠ 0 :=
      left_ne_zero_of_mul (h.step_mul_step_pos hlen le_rfl hcount).ne'
    have hq' : v 1 - v 0 = q * (nodePlace spacing 1 - nodePlace spacing 0) := by
      rw [hq, div_mul_cancel₀ _ hfirst]
    refine ⟨v 0 - q * nodePlace spacing 0, q, ?_⟩
    intro k
    induction k using Nat.twoStepInduction with
    | zero =>
      intro _
      ring
    | one =>
      intro _
      linarith
    | more k ih1 ih2 =>
      intro hk
      have hstep := h.step_mul_step_pos hlen (k := k + 1) (by omega) hk
      have hslope := (secondDifferenceAt_eq_zero_iff (by omega) hstep).mp
        (hzero (k + 1) (by omega) hk)
      rw [Nat.add_sub_cancel, ih1 (by omega), ih2 (by omega)] at hslope
      have hbefore : nodePlace spacing (k + 1) - nodePlace spacing k ≠ 0 :=
        left_ne_zero_of_mul hstep.ne'
      have hnext : v (k + 2) - (v 0 - q * nodePlace spacing 0 + q * nodePlace spacing (k + 1)) =
          q * (nodePlace spacing (k + 2) - nodePlace spacing (k + 1)) := by
        refine mul_right_cancel₀ hbefore ?_
        rw [← hslope]
        ring
      linarith

/-- Affine values that are zero at all nodes but one are zero there as well. -/
theorem IsAffineOn.eq_zero_of_forall_ne {count : ℕ} {place v : ℕ → ℝ} (h : IsAffineOn count place v)
    (hplace : ∀ j < count, ∀ k < count, j ≠ k → place j ≠ place k) (hcount : 3 ≤ count) {k : ℕ}
    (hk : k < count) (hzero : ∀ j < count, j ≠ k → v j = 0) : v k = 0 := by
  obtain ⟨p, q, hv⟩ := h
  obtain ⟨i, j, hi, hj, hij, hik, hjk⟩ : ∃ i j, i < count ∧ j < count ∧ i ≠ j ∧ i ≠ k ∧ j ≠ k := by
    rcases Nat.lt_trichotomy k 1 with h0 | h1 | h2
    · exact ⟨1, 2, by omega, by omega, by omega, by omega, by omega⟩
    · exact ⟨0, 2, by omega, by omega, by omega, by omega, by omega⟩
    · exact ⟨0, 1, by omega, by omega, by omega, by omega, by omega⟩
  have h1 := (hv i hi).symm.trans (hzero i hi hik)
  have h2 := (hv j hj).symm.trans (hzero j hj hjk)
  have hq : q = 0 := by
    refine (mul_eq_zero.mp ?_).resolve_right (sub_ne_zero.mpr (hplace i hi j hj hij))
    linarith
  rw [hq, zero_mul, add_zero] at h1
  rw [hv k hk, hq, h1, zero_mul, add_zero]

/-! ## All lines of an axis -/

variable {res : List ℕ} {a : Axis}

/-- On every line of the axis the node values are affine in the places of the nodes. -/
def IsAffineAlong (res : List ℕ) (a : Axis) (spacing : Option (List ℝ))
    (x : Fin (size res) → ℝ) : Prop :=
  ∀ start < size res, a.coord start = 0 →
    IsAffineOn a.count (nodePlace spacing) fun k => nodeValue x (start + k * a.stride : ℕ)

/-- The linear form of a second difference. -/
theorem form_stiffnessAt {n : ℕ} (w : ℝ) (spacing : Option (List ℝ)) (targets : Option (Array ℝ))
    (i : ℕ) (x : Fin n → ℝ) :
    (stiffnessAt (axes res) a w spacing targets i).form n ⬝ᵥ x =
      (differenceWeights spacing (a.coord i)).1 * nodeValue x (i - a.stride) -
        ((differenceWeights spacing (a.coord i)).1 + (differenceWeights spacing (a.coord i)).2) *
          nodeValue x i +
        (differenceWeights spacing (a.coord i)).2 * nodeValue x (i + a.stride) := by
  have hbelow : (i : ℤ) + -(a.stride : ℤ) = i - a.stride := by ring
  unfold Residual.form stiffnessAt secondDifference
  rw [dotProduct_combination]
  simp only [List.map_cons, List.map_nil, List.sum_cons, List.sum_nil, hbelow, add_zero]
  ring

/-- Node by node the second differences of a line are those of the lattice. -/
theorem form_stiffnessAt_line {start k : ℕ} (hs : 0 < a.stride) (hstart : a.coord start = 0)
    (hk : 1 ≤ k) (hk2 : k + 2 ≤ a.count) {n : ℕ} (w : ℝ) (spacing : Option (List ℝ))
    (targets : Option (Array ℝ)) (x : Fin n → ℝ) :
    (stiffnessAt (axes res) a w spacing targets (start + k * a.stride)).form n ⬝ᵥ x =
      secondDifferenceAt spacing (fun k => nodeValue x (start + k * a.stride : ℕ)) k := by
  have hcoord : a.coord (start + k * a.stride) = k := by
    rw [coord_add_mul_stride hs (by omega), hstart, Nat.zero_add]
  have hbefore : ((start + k * a.stride : ℕ) : ℤ) - a.stride =
      ((start + (k - 1) * a.stride : ℕ) : ℤ) := by
    obtain ⟨j, rfl⟩ : ∃ j, k = j + 1 := ⟨k - 1, by omega⟩
    rw [Nat.add_sub_cancel]
    push_cast
    ring
  have hafter : ((start + k * a.stride : ℕ) : ℤ) + a.stride =
      ((start + (k + 1) * a.stride : ℕ) : ℤ) := by
    push_cast
    ring
  rw [form_stiffnessAt, hcoord, hbefore, hafter]
  rfl

/-- Node values that are affine on the lines of an axis have no second differences along it. -/
theorem IsAffineAlong.form_eq_zero {spacing : Option (List ℝ)} {x : Fin (size res) → ℝ}
    (haffine : IsAffineAlong res a spacing x) (hs : 0 < a.stride) (h : IsMonotoneSpacing spacing)
    (hlen : ∀ l, spacing = some l → l.length = a.count) (w : ℝ) (targets : Option (Array ℝ))
    {i : ℕ} (hi : i ∈ interior res a) :
    (stiffnessAt (axes res) a w spacing targets i).form (size res) ⬝ᵥ x = 0 := by
  obtain ⟨hlt, h1, h2⟩ := mem_interior.mp hi
  obtain ⟨start, hstart, hline⟩ := exists_lineStart a i
  have hzero := (haffine start (by omega) hstart).secondDifferenceAt_eq_zero h hlen h1 h2
  rwa [← form_stiffnessAt_line hs hstart h1 h2 w spacing targets x, ← hline] at hzero

/-- The second differences along an axis vanish exactly when the node values are affine on its
lines. -/
theorem isAffineAlong_iff {spacing : Option (List ℝ)} (hres : ∀ r ∈ res, 3 ≤ r)
    (ha : a ∈ axes res) (h : IsMonotoneSpacing spacing)
    (hlen : ∀ l, spacing = some l → l.length = a.count) (w : ℝ) (targets : Option (Array ℝ))
    (x : Fin (size res) → ℝ) :
    IsAffineAlong res a spacing x ↔ ∀ i ∈ interior res a,
      (stiffnessAt (axes res) a w spacing targets i).form (size res) ⬝ᵥ x = 0 := by
  have hs : 0 < a.stride := stride_pos one_pos (fun r hr => by have := hres r hr; omega) ha
  constructor
  · intro haffine i hi
    exact haffine.form_eq_zero hs h hlen w targets hi
  · intro hzero start hlt hstart
    refine (isAffineOn_iff (hres _ (count_mem ha)) h hlen).mpr ?_
    intro k h1 h2
    have hcoord : a.coord start + k < a.count := by omega
    have hnode := coord_add_mul_stride hs hcoord
    rw [← form_stiffnessAt_line hs hstart h1 h2 w spacing targets x]
    refine hzero _ (mem_interior.mpr ⟨add_mul_stride_lt_size ha hlt hcoord, ?_, ?_⟩)
    · omega
    · omega

end GridSpline
