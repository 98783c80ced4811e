import Mathlib
import GridSpline.Proofs.Lattice.Layout
import GridSpline.Proofs.Sparse.Additions

/-!
# The offsets that have a column

A step of the stencil goes at most one node along each axis, or two nodes along one axis alone. The
table of offsets lists what steps change the node number by, as far as they do not lower it, and the
table of columns leads back. With a step its opposite is one, too, so two nodes that are one step
apart have a column from the one with the lower number, whichever way the step goes.

## Main definitions

* `IsNearStep` — the steps, by their entries.
* `Stencil.Tabulates` — the tables of a stencil are those of a lattice.

## Main statements

* `isStencilStep_iff` — the steps that the tables are made of.
* `Stencil.exists_columnsOf?_scalar_iff` — the offsets that have a column.
* `Stencil.exists_columnsOf?_sub` — nodes that are one step apart.
* `PackedMatrix.ofLayout?_ofLattice` — the packed matrix of a layout.
* `PackedMatrix.exists_zero?_tabulates` — the tables of a packed matrix.
-/

namespace GridSpline

open Failure
open GridSpline.Lattice

variable {res : List ℕ} {g : List ℤ}

/-! ## Steps -/

/-- A step of at most one node along each axis, or of two nodes along one axis and none along all
others. -/
def IsNearStep (g : List ℤ) : Prop :=
  (∀ x ∈ g, x = -1 ∨ x = 0 ∨ x = 1) ∨
    ∃ before after, ∃ x : ℤ, (x = 2 ∨ x = -2) ∧
      g = List.replicate before 0 ++ x :: List.replicate after 0

theorem isStencilStep_iff : IsStencilStep g ↔ IsNearStep g := by
  refine or_congr (forall₂_congr fun x _ => by omega) ⟨?_, ?_⟩
  · rintro ⟨htwo, hzeros⟩
    obtain ⟨x, hx, hx2⟩ := List.countP_pos_iff.mp (htwo ▸ Nat.one_pos)
    have hx2 : x.natAbs = 2 := of_decide_eq_true hx2
    obtain ⟨s, t, rfl⟩ := List.append_of_mem hx
    have hs := List.count_le_length (a := (0 : ℤ)) (l := s)
    have ht := List.count_le_length (a := (0 : ℤ)) (l := t)
    rw [List.count_append, List.count_cons_of_ne (by omega), List.length_append,
      List.length_cons] at hzeros
    -- All entries before and after the one that is two are zero.
    have hs0 := List.count_eq_length.mp (by omega : s.count 0 = s.length)
    have ht0 := List.count_eq_length.mp (by omega : t.count 0 = t.length)
    refine ⟨s.length, t.length, x, by omega, ?_⟩
    rw [← List.eq_replicate_of_mem fun b hb => (hs0 b hb).symm,
      ← List.eq_replicate_of_mem fun b hb => (ht0 b hb).symm]
  · rintro ⟨before, after, x, hx, rfl⟩
    have hx2 : x.natAbs = 2 := by omega
    have hx0 : x ≠ 0 := by omega
    constructor
    · simp [List.countP_append, List.countP_replicate, hx2]
    · simp [List.count_append, List.count_cons_of_ne hx0]
      omega

/-- The opposite of a step is a step. -/
theorem IsNearStep.neg (h : IsNearStep g) : IsNearStep (g.map (-·)) := by
  rcases h with h | ⟨before, after, x, hx, rfl⟩
  · refine Or.inl fun y hy => ?_
    obtain ⟨x, hx, rfl⟩ := List.mem_map.mp hy
    have := h x hx
    omega
  · exact Or.inr ⟨before, after, -x, by omega, by simp⟩

theorem mem_stencilSteps_iff {n : ℕ} : g ∈ stencilSteps n ↔ g.length = n ∧ IsNearStep g := by
  rw [stencilSteps, List.mem_filter, mem_nearSteps, decide_eq_true_iff, isStencilStep_iff]
  refine ⟨fun h => ⟨h.1.1, h.2⟩, fun h => ⟨⟨h.1, fun x hx => ?_⟩, h.2⟩⟩
  rcases h.2 with h1 | ⟨before, after, y, hy, rfl⟩
  · have := h1 x hx
    omega
  · rcases List.mem_append.mp hx with hx | hx
    · rw [List.eq_of_mem_replicate hx]
      omega
    · rcases List.mem_cons.mp hx with rfl | hx
      · omega
      · rw [List.eq_of_mem_replicate hx]
        omega

theorem stepOffset_eq_sum (res : List ℕ) (g : List ℤ) : stepOffset res g =
    (List.zipWith (fun (x : ℤ) (s : ℕ) => x * s) g (strides res)).sum := by
  unfold stepOffset
  rw [foldl_add_int, zero_add]

theorem offsetOf_natCast (res c : List ℕ) :
    offsetOf res (c.map fun x : ℕ => (x : ℤ)) = nodeOf res c := by
  induction res generalizing c with
  | nil => rfl
  | cons r rs ih =>
    cases c with
    | nil => rfl
    | cons x xs =>
      rw [List.map_cons, offsetOf_cons, ih, nodeOf]
      push_cast
      rfl

/-! ## Columns -/

namespace Stencil

/-- The tables of a stencil are those of the steps on a lattice, and of no other. -/
structure Tabulates (s : Stencil) (res : List ℕ) : Prop where
  ascending : s.offsets.toList.Pairwise (· < ·)
  first : s.offsets[0]? = some 0
  /-- The table of columns leads back from an offset to its place. -/
  inverse : ∀ k o : ℕ, s.offsets[k]? = some o ↔ s.columns[o]? = some (some k)
  /-- The column that is found is the one of the offset. -/
  found : ∀ (o : ℤ) columns, s.columnsOf? (α := ℝ) (.scalar o) = .ok columns →
    ∃ k, columns = .scalar k ∧ s.offsets[k]? = some o.toNat
  /-- A column is found for what the steps change the node number by. -/
  covered : ∀ o : ℤ, (∃ columns, s.columnsOf? (α := ℝ) (.scalar o) = .ok columns) ↔
    0 ≤ o ∧ ∃ g : List ℤ, g.length = res.length ∧ IsNearStep g ∧
      o = (List.zipWith (fun (x : ℤ) (s : ℕ) => x * s) g (strides res)).sum
  /-- A column is found for two nodes that are a step apart, in either direction. -/
  apart : ∀ i < size res, ∀ j < size res,
    IsNearStep (List.zipWith (fun x y : ℕ => (y : ℤ) - x) (coordsOf res i) (coordsOf res j)) →
    ∃ columns, s.columnsOf? (α := ℝ) (.scalar |(j : ℤ) - i|) = .ok columns

theorem columnsOf?_scalar_iff {o : ℤ} {columns : Dense ℕ} :
    (ofRes res).columnsOf? (α := ℝ) (.scalar o) = .ok columns ↔
      ∃ k, columns = .scalar k ∧ (ofRes res).column? o = some k := by
  have hmap : [o].mapM (ofRes res).column? = (ofRes res).column? o >>= fun k => some [k] := by
    rw [List.mapM_cons, List.mapM_nil]
    rfl
  rw [PackedMatrix.columnsOf?_eq_ok_iff]
  show _ ∧ [o].mapM (ofRes res).column? = some columns.entries ↔ _
  rw [hmap]
  constructor
  · rintro ⟨hshape, hentries⟩
    obtain ⟨k, hk, hlist⟩ := Option.bind_eq_some_iff.mp hentries
    refine ⟨k, ?_, hk⟩
    obtain ⟨shape, data⟩ := columns
    obtain rfl : shape = [] := hshape
    have hdata : data.toList = [k] := (Option.some.inj hlist).symm
    rw [Dense.scalar, ← hdata]
  · rintro ⟨k, rfl, hk⟩
    rw [hk]
    exact ⟨rfl, rfl⟩

theorem zipWith_sub_coordsOf (res : List ℕ) (i j : ℕ) :
    List.zipWith (fun x y : ℕ => (y : ℤ) - x) (coordsOf res i) (coordsOf res j) =
      List.zipWith (· - ·) ((coordsOf res j).map fun x : ℕ => (x : ℤ))
        ((coordsOf res i).map fun x : ℕ => (x : ℤ)) := by
  rw [List.zipWith_map, List.zipWith_comm]

/-- The offsets that have a column. -/
theorem exists_columnsOf?_scalar_iff {o : ℤ} :
    (∃ columns, (ofRes res).columnsOf? (α := ℝ) (.scalar o) = .ok columns) ↔
      0 ≤ o ∧ ∃ g : List ℤ, g.length = res.length ∧ IsNearStep g ∧ o = stepOffset res g := by
  have hcolumn : (∃ columns, (ofRes res).columnsOf? (α := ℝ) (.scalar o) = .ok columns) ↔
      ∃ k, (ofRes res).column? o = some k := by
    simp only [columnsOf?_scalar_iff]
    exact ⟨fun ⟨_, k, _, hk⟩ => ⟨k, hk⟩, fun ⟨k, hk⟩ => ⟨_, k, rfl, hk⟩⟩
  rw [hcolumn, PackedMatrix.exists_column?_iff, mem_stencilOffsets]
  refine and_congr_right fun h0 => exists_congr fun g => ?_
  rw [mem_stencilSteps_iff, Int.toNat_of_nonneg h0, and_assoc, eq_comm (a := o)]

theorem getElem?_offsets (res : List ℕ) (k : ℕ) :
    (ofRes res).offsets[k]? = (stencilOffsets res)[k]? := by
  unfold ofRes ofOffsets
  exact List.getElem?_toArray

variable (hne : res ≠ [])

include hne

theorem exists_columnsOf?_sub_of_le {i j : ℕ} (hi : i < size res) (hj : j < size res) (hij : i ≤ j)
    (h : IsNearStep (List.zipWith (fun x y : ℕ => (y : ℤ) - x) (coordsOf res i)
      (coordsOf res j))) :
    ∃ columns, (ofRes res).columnsOf? (α := ℝ) (.scalar ((j : ℤ) - i)) = .ok columns := by
  refine exists_columnsOf?_scalar_iff.mpr ⟨by omega, _, ?_, h, ?_⟩
  · rw [List.length_zipWith, length_coordsOf, length_coordsOf, min_self]
  · rw [stepOffset_eq hne, zipWith_sub_coordsOf, offsetOf_sub (by simp [length_coordsOf]),
      offsetOf_natCast, offsetOf_natCast, nodeOf_coordsOf hi, nodeOf_coordsOf hj]

/-- Nodes that are one step apart have a column, whichever way the step goes. -/
theorem exists_columnsOf?_sub {i j : ℕ} (hi : i < size res) (hj : j < size res)
    (h : IsNearStep (List.zipWith (fun x y : ℕ => (y : ℤ) - x) (coordsOf res i)
      (coordsOf res j))) :
    ∃ columns, (ofRes res).columnsOf? (α := ℝ) (.scalar |(j : ℤ) - i|) = .ok columns := by
  rcases le_total i j with hij | hij
  · rw [abs_of_nonneg (by omega)]
    exact exists_columnsOf?_sub_of_le hne hi hj hij h
  · -- The opposite step leads from the second node to the first.
    have hback := h.neg
    rw [List.map_zipWith, List.zipWith_comm] at hback
    simp only [neg_sub] at hback
    rw [abs_sub_comm, abs_of_nonneg (by omega)]
    exact exists_columnsOf?_sub_of_le hne hj hi hij hback

/-- The offsets ascend from zero. -/
theorem getElem?_offsets_zero : (ofRes res).offsets[0]? = some 0 := by
  obtain ⟨k, hk⟩ := List.mem_iff_getElem?.mp (zero_mem_stencilOffsets hne)
  rw [getElem?_offsets]
  cases k with
  | zero => exact hk
  | succ k =>
    obtain ⟨hlt, hzero⟩ := List.getElem?_eq_some_iff.mp hk
    have hless := List.pairwise_iff_getElem.mp pairwise_stencilOffsets 0 (k + 1)
      (by omega) hlt k.succ_pos
    omega

/-- The stencil of a lattice has its tables. -/
theorem tabulates_ofRes : (ofRes res).Tabulates res where
  ascending := pairwise_stencilOffsets
  first := getElem?_offsets_zero hne
  inverse k o := by
    rw [getElem?_offsets, ← column?_eq_some_iff]
    exact Option.join_eq_some_iff
  found o columns h := by
    obtain ⟨k, rfl, hk⟩ := columnsOf?_scalar_iff.mp h
    obtain ⟨n, rfl⟩ := Int.eq_ofNat_of_zero_le (nonneg_of_column? hk)
    exact ⟨k, rfl, (getElem?_offsets res k).trans (column?_eq_some_iff.mp hk)⟩
  covered o := by
    rw [exists_columnsOf?_scalar_iff]
    simp only [stepOffset_eq_sum]
  apart i hi j hj h := exists_columnsOf?_sub hne hi hj h

end Stencil

/-! ## Packed matrices -/

namespace PackedMatrix

theorem stencilWords?_ofLattice (hne : res ≠ [])
    (hwords : ∀ g ∈ stencilSteps res.length, Word.Fits (stepOffset res g)) :
    stencilWords? (Layout.ofLattice res) = some (stencilOffsets res) := by
  have hnonempty : ¬(Layout.ofLattice res).res.isEmpty = true := by
    rw [List.isEmpty_iff]
    exact fun h => hne (List.map_eq_nil_iff.mp h)
  have hlen : (Layout.ofLattice res).res.length = res.length := List.length_map _
  unfold stencilWords? stencilOffsets
  rw [if_neg hnonempty, hlen]
  refine congrArg (fun l => some (ascending l)) (List.filterMap_congr fun g hg => ?_)
  have hoffset : (Layout.ofLattice res).stepOffset g = stepOffset res g := by
    unfold Layout.stepOffset stepOffset Layout.ofLattice
    rw [List.zipWith_map_right]
    rfl
  rw [hoffset, Word.wrap_of_fits (hwords g hg)]

/-- Where words count the nodes and the offsets, a layout has the packed matrix of its lattice. -/
theorem ofLayout?_ofLattice (hne : res ≠ [])
    (hwords : ∀ g ∈ stencilSteps res.length, Word.Fits (stepOffset res g)) :
    ofLayout? (Layout.ofLattice res) = .ok (zero res : PackedMatrix ℝ) := by
  unfold ofLayout?
  rw [stencilWords?_ofLattice hne hwords, require_some, ok_bind]
  rfl

/-- A packed matrix has the tables of its lattice, and so has the one that is made from a layout
where words count the nodes and the offsets. -/
theorem exists_zero?_tabulates (hne : res ≠ []) (hres : ∀ r ∈ res, 1 ≤ r) :
    ∃ A : PackedMatrix ℝ, zero? res = .ok A ∧ A.stencil.Tabulates res ∧
      (Word.Fits (size res) → (∀ g ∈ stencilSteps res.length, Word.Fits (stepOffset res g)) →
        ∃ l, (Layout.ofRes? (res.map Int.ofNat) : Except (Failure ℝ) Layout) = .ok l ∧
          ofLayout? l = .ok A) := by
  refine ⟨zero res, ?_, Stencil.tabulates_ofRes hne, fun hcount hwords =>
    ⟨_, Layout.ofRes?_eq hres hcount, ofLayout?_ofLattice hne hwords⟩⟩
  unfold zero?
  rw [if_neg (by simpa using hne)]
  rfl

/-- Two nodes along the first axis, and one back along it and one along the second, lead to the same
offset, and none leads to five. -/
theorem exists_zero?_tabulates_short : ([3, 2] : List ℕ) ≠ [] ∧ (∀ r ∈ [3, 2], 1 ≤ r) ∧
    ∃ A : PackedMatrix ℝ, zero? [3, 2] = .ok A ∧ A.stencil.Tabulates [3, 2] ∧
      A.stencil.offsets = #[0, 1, 2, 3, 4, 6] ∧ ∃ l,
        (Layout.ofRes? [3, 2] : Except (Failure ℝ) Layout) = .ok l ∧ ofLayout? l = .ok A := by
  have hne : ([3, 2] : List ℕ) ≠ [] := by decide
  have hres : ∀ r ∈ [3, 2], 1 ≤ r := by decide
  obtain ⟨A, hA, htables, hlayout⟩ := exists_zero?_tabulates hne hres
  obtain rfl : zero [3, 2] = A := Except.ok.inj hA
  exact ⟨hne, hres, _, hA, htables, by decide, hlayout (by decide) (by decide)⟩

end PackedMatrix

end GridSpline
