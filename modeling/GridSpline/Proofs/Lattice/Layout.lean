import Mathlib.Data.List.Lex
import Mathlib.Data.Real.Basic
import GridSpline.Lattice.Layout
import GridSpline.Proofs.Dense.Reshape
import GridSpline.Proofs.Real
import GridSpline.Proofs.Result

/-!
# Layouts of lattices

A lattice whose nodes can be counted by a machine word has a layout, and the layout says of the
nodes what the lattice does: the coordinates of a number are found, the number is the sum of the
coordinates times the strides, and node data in the shape of the lattice have the coordinates of a
node in place of its number. Numbers that belong to no node have no coordinates. Without axes there
is nothing to list coordinates along, and beyond the words the nodes are miscounted, so there not
even the first node has coordinates.

## Main definitions

* `Layout.ofLattice` — the layout of a lattice.
* `Layout.numberOf` — the number of the node with the given coordinates.

## Main statements

* `Layout.ofRes?_eq` — a lattice whose nodes can be counted has its layout.
* `Lattice.lex_reverse_coordsOf` — the nodes in the order of their coordinates, the last one first.
* `Layout.exists_ofRes?_addresses` — numbers and coordinates, and node data in either form.
-/

namespace GridSpline

open Failure
open GridSpline.Lattice

/-! ## The order of the nodes -/

theorem lex_append {β : Type} {r : β → β → Prop} {a b : List β} (h : List.Lex r a b)
    (hlen : a.length = b.length) (s t : List β) : List.Lex r (a ++ s) (b ++ t) := by
  induction h with
  | nil => simp at hlen
  | cons _ ih => exact .cons (ih (Nat.succ_injective hlen))
  | rel hr => exact .rel hr

namespace Lattice

variable {res c : List ℕ}

/-- Along axis 0 the number of a node grows fastest: of two nodes the one with the greater number
has the greater coordinate along the last axis on which they differ. -/
theorem lex_reverse_coordsOf {i j : ℕ} (hij : i < j) (hj : j < size res) :
    List.Lex (· < ·) (coordsOf res i).reverse (coordsOf res j).reverse := by
  induction res generalizing i j with
  | nil =>
    rw [size] at hj
    omega
  | cons r rs ih =>
    rw [coordsOf, coordsOf, List.reverse_cons, List.reverse_cons]
    have hline : j / r < size rs := Nat.div_lt_of_lt_mul hj
    rcases (Nat.div_le_div_right (c := r) hij.le).lt_or_eq with hlt | heq
    · exact lex_append (ih hlt hline) (by simp [length_coordsOf]) _ _
    · rw [heq]
      have hi := Nat.div_add_mod i r
      have hj := Nat.div_add_mod j r
      rw [heq] at hi
      exact List.Lex.append_left _ (.rel (by omega)) _

theorem mem_allCoords_iff : c ∈ allCoords res ↔ Within res c := by
  unfold allCoords
  rw [List.mem_map]
  constructor
  · rintro ⟨i, hi, rfl⟩
    exact within_coordsOf_of_lt (List.mem_range.mp hi)
  · intro h
    exact ⟨nodeOf res c, List.mem_range.mpr (nodeOf_lt_size h), coordsOf_nodeOf h⟩

/-- All coordinates are listed in that order. -/
theorem pairwise_allCoords (res : List ℕ) :
    (allCoords res).Pairwise fun c d => List.Lex (· < ·) c.reverse d.reverse := by
  unfold allCoords
  rw [List.pairwise_map]
  exact List.pairwise_lt_range.imp_of_mem fun _ hj hij =>
    lex_reverse_coordsOf hij (List.mem_range.mp hj)

/-- The number of a node is the sum of its coordinates times the strides. -/
theorem sum_mul_strides (h : Within res c) :
    (List.zipWith (· * ·) c (strides res)).sum = nodeOf res c := by
  unfold strides
  split
  · rename_i hempty
    obtain rfl := List.isEmpty_iff.mp hempty
    cases c with
    | nil => rfl
    | cons _ _ => exact h.elim
  · rw [sum_mul_stridesFrom h, one_mul]

end Lattice

/-! ## The layout of a lattice -/

namespace Layout

/-- The layout of a lattice. -/
def ofLattice (res : List ℕ) : Layout where
  res := res.map Int.ofNat
  strides := (Lattice.strides res).map Int.ofNat
  nodes := size res

/-- The number of the node with the given coordinates: their sum, times the strides. -/
def numberOf (l : Layout) (c : List ℕ) : ℤ :=
  (List.zipWith (fun (x : ℕ) (s : ℤ) => x * s) c l.strides).sum

variable {res c : List ℕ}

theorem foldl_mul_int (l : List ℕ) (p : ℤ) :
    (l.map Int.ofNat).foldl (· * ·) p = p * size l := by
  induction l generalizing p with
  | nil => simp [size]
  | cons r rs ih =>
    rw [List.map_cons, List.foldl_cons, ih, size, Nat.cast_mul, ← mul_assoc]
    rfl

theorem product_ofNat (res : List ℕ) : product (res.map Int.ofNat) = size res := by
  unfold product
  rw [foldl_mul_int, one_mul]

theorem stridesFrom_ofNat (s : ℕ) (res : List ℕ) :
    stridesFrom (s : ℤ) (res.map Int.ofNat) = (Lattice.stridesFrom s res).map Int.ofNat := by
  induction res generalizing s with
  | nil => rfl
  | cons r rs ih =>
    rw [List.map_cons, stridesFrom, Lattice.stridesFrom, List.map_cons, ← ih]
    push_cast
    rfl

theorem numberOf_ofLattice (h : Within res c) : (ofLattice res).numberOf c = nodeOf res c := by
  rw [← sum_mul_strides h, Nat.cast_list_sum]
  unfold numberOf ofLattice
  rw [List.zipWith_map_right, List.map_zipWith]
  congr 2

section Counted

variable (hres : ∀ r ∈ res, 1 ≤ r) (hcount : Word.Fits (size res))

include hres

theorem le_size_of_mem_stridesFrom {s t : ℕ} (ht : t ∈ Lattice.stridesFrom s res) :
    t ≤ s * size res := by
  induction res generalizing s with
  | nil => simp [Lattice.stridesFrom] at ht
  | cons r rs ih =>
    have hpos : 1 ≤ size rs := size_pos fun q hq => hres q (List.mem_cons_of_mem r hq)
    have hr := hres r List.mem_cons_self
    rw [size, ← mul_assoc]
    rcases List.mem_cons.mp ht with rfl | ht
    · exact (Nat.le_mul_of_pos_right t hr).trans (Nat.le_mul_of_pos_right _ hpos)
    · exact ih (fun q hq => hres q (List.mem_cons_of_mem r hq)) ht

theorem le_size_of_mem_strides {t : ℕ} (ht : t ∈ Lattice.strides res) : t ≤ size res := by
  unfold Lattice.strides at ht
  split at ht
  · rw [List.mem_singleton.mp ht]
    exact size_pos hres
  · have := le_size_of_mem_stridesFrom hres ht
    rwa [one_mul] at this

theorem le_size_of_mem {r : ℕ} (hr : r ∈ res) : r ≤ size res := by
  induction res with
  | nil => exact absurd hr List.not_mem_nil
  | cons s rs ih =>
    have hrest : ∀ q ∈ rs, 1 ≤ q := fun q hq => hres q (List.mem_cons_of_mem s hq)
    rw [size]
    rcases List.mem_cons.mp hr with rfl | hr
    · exact Nat.le_mul_of_pos_right r (size_pos hrest)
    · exact (ih hrest hr).trans (Nat.le_mul_of_pos_left _ (hres s List.mem_cons_self))

include hcount

omit hres in
theorem fits_of_le_size {n : ℕ} (h : n ≤ size res) : Word.Fits (n : ℤ) := by
  unfold Word.Fits Word.limit at hcount ⊢
  omega

theorem countOfNodes_ofNat {α : Type} [Scalar α] :
    countOfNodes α (res.map Int.ofNat) = size res := by
  have hwords : (res.map Int.ofNat).all (fun r => decide (Word.Fits r)) = true := by
    rw [List.all_eq_true]
    intro r hr
    obtain ⟨n, hn, rfl⟩ := List.mem_map.mp hr
    exact decide_eq_true (fits_of_le_size hcount (le_size_of_mem hres hn))
  unfold countOfNodes
  rw [if_pos hwords, product_ofNat, Word.wrap_of_fits hcount]

/-- A lattice whose nodes can be counted has its layout. -/
theorem ofRes?_eq {α : Type} [Scalar α] :
    (ofRes? (res.map Int.ofNat) : Except (Failure α) Layout) = .ok (ofLattice res) := by
  have hstrides : (if (res.map Int.ofNat).isEmpty then [1] else stridesFrom 1 (res.map Int.ofNat)) =
      (Lattice.strides res).map Int.ofNat := by
    unfold Lattice.strides
    rw [List.isEmpty_map]
    split
    · rfl
    · exact stridesFrom_ofNat 1 res
  have hfit : ((Lattice.strides res).map Int.ofNat).all (fun s => decide (Word.Fits s)) = true := by
    rw [List.all_eq_true]
    intro s hs
    obtain ⟨t, ht, rfl⟩ := List.mem_map.mp hs
    exact decide_eq_true (fits_of_le_size hcount (le_size_of_mem_strides hres ht))
  unfold ofRes?
  simp only [hstrides]
  rw [if_pos hfit, countOfNodes_ofNat hres hcount]
  rfl

end Counted

/-! ## Coordinates -/

/-- What is found for the numbers in an array: either one of them belongs to no node, or each has
its coordinates. -/
theorem unravel?_ofLattice (hne : res ≠ []) (hcount : Word.Fits (size res)) (index : Dense ℤ) :
    (ofLattice res).unravel? index = if ∀ i ∈ index.entries, 0 ≤ i ∧ i < (size res : ℤ) then
      some { shape := index.shape ++ [res.length]
             data := (index.entries.map fun i =>
               (coordsOf res i.toNat).map Int.ofNat).flatten.toArray }
      else none := by
  have hlen : (ofLattice res).res.length = res.length := List.length_map _
  have hproduct : product (ofLattice res).res = size res := product_ofNat res
  have hlegal : ¬((ofLattice res).res.isEmpty ∨ ¬Word.Fits (size res : ℤ) ∨ (size res : ℤ) = -1) := by
    rw [not_or, not_or, not_not, List.isEmpty_iff]
    exact ⟨fun h => hne (List.map_eq_nil_iff.mp h), hcount, by omega⟩
  unfold unravel?
  simp only [hproduct, hlen]
  rw [if_neg hlegal]
  split
  · rename_i hall
    have hcoords : index.entries.mapM (fun i => if 0 ≤ i ∧ i < (size res : ℤ) then
        some (coordsFrom (ofLattice res).res i) else none) =
        some (index.entries.map fun i => (coordsOf res i.toNat).map Int.ofNat) := by
      refine mapM_eq_some_map fun i hi => ?_
      obtain ⟨h0, hlt⟩ := hall i hi
      rw [if_pos ⟨h0, hlt⟩, ← coordsFrom_ofNat, Int.toNat_of_nonneg h0]
      rfl
    simp only [hcoords]
    rfl
  · rename_i hnot
    cases hcoords : index.entries.mapM (fun i => if 0 ≤ i ∧ i < (size res : ℤ) then
        some (coordsFrom (ofLattice res).res i) else none) with
    | none => rfl
    | some coords =>
      refine absurd (fun i hi => ?_) hnot
      obtain ⟨c, hc⟩ := mapM_isSome_iff.mp ⟨coords, hcoords⟩ i hi
      exact (Option.ite_none_right_eq_some.mp hc).1

/-- The coordinates of all nodes. -/
theorem coords?_ofLattice (hne : res ≠ []) (hcount : Word.Fits (size res)) :
    (ofLattice res).coords? =
      some (.table res.length ((allCoords res).map (·.map Int.ofNat))) := by
  have hnodes : (ofLattice res).nodes.toNat = size res := rfl
  have hall : ∀ i ∈ (Dense.vector ((List.range (size res)).map Int.ofNat)).entries,
      0 ≤ i ∧ i < (size res : ℤ) := by
    intro i hi
    obtain ⟨k, hk, rfl⟩ := List.mem_map.mp hi
    exact ⟨Int.natCast_nonneg k, Int.ofNat_lt.mpr (List.mem_range.mp hk)⟩
  unfold coords?
  rw [hnodes, unravel?_ofLattice hne hcount, if_pos hall]
  simp only [Dense.table, Dense.vector, Dense.entries, allCoords, List.map_map, List.length_map,
    List.length_range]
  rfl

/-! ## Addresses -/

/-- Numbers and coordinates are two addresses of the same nodes, and node data can be laid out by
either of them. -/
structure Addresses (l : Layout) (res : List ℕ) : Prop where
  nodes : l.nodes = size res
  /-- Coordinates within the lattice have the number of a node. -/
  number : ∀ c, Within res c → 0 ≤ l.numberOf c ∧ l.numberOf c < l.nodes
  /-- The number of a node is that of one choice of coordinates. -/
  coordinates : ∀ i, 0 ≤ i → i < l.nodes → ∃! c, Within res c ∧ l.numberOf c = i
  /-- In the shape of the lattice the coordinates stand for the number; the other indices stay. -/
  shaped : ∀ {β : Type} (flat : Dense β) (rest : List ℕ), flat.shape = size res :: rest →
    flat.data.size = size flat.shape → ∃ shaped, l.shaped? flat = some shaped ∧
      shaped.shape = res ++ rest ∧ shaped.data.size = size shaped.shape ∧
      l.flattened? shaped = some flat ∧ ∀ c t, Within res c → Within rest t → ∃ b,
        shaped.get? (c ++ t).reverse = some b ∧
        flat.get? ((l.numberOf c).toNat :: t).reverse = some b
  /-- Data in the shape of the lattice are the shaped form of node data. -/
  flattened : ∀ {β : Type} (shaped : Dense β) (rest : List ℕ), shaped.shape = res ++ rest →
    shaped.data.size = size shaped.shape → ∃ flat, l.flattened? shaped = some flat ∧
      flat.shape = size res :: rest ∧ flat.data.size = size flat.shape ∧
      l.shaped? flat = some shaped

/-- Coordinates are found for the numbers of nodes and for no others, and all of them are listed in
the order in which the coordinate along axis 0 runs fastest. -/
structure Unravels (l : Layout) (res : List ℕ) : Prop where
  outside : ∀ index : Dense ℤ, (∃ i ∈ index.entries, i < 0 ∨ l.nodes ≤ i) →
    l.unravel? index = none
  inside : ∀ index : Dense ℤ, (∀ i ∈ index.entries, 0 ≤ i ∧ i < l.nodes) →
    ∃ rows : List (List ℕ), l.unravel? index = some
        { shape := index.shape ++ [res.length]
          data := (rows.map (·.map Int.ofNat)).flatten.toArray } ∧
      List.Forall₂ (fun i c => Within res c ∧ l.numberOf c = i) index.entries rows
  listed : ∃ rows : List (List ℕ),
    l.coords? = some (.table res.length (rows.map (·.map Int.ofNat))) ∧
    (∀ c, c ∈ rows ↔ Within res c) ∧
    rows.map l.numberOf = (List.range (size res)).map Int.ofNat ∧
    rows.Pairwise fun c d => List.Lex (· < ·) c.reverse d.reverse

theorem toNat_numberOf_ofLattice (h : Within res c) :
    ((ofLattice res).numberOf c).toNat = nodeOf res c := by
  rw [numberOf_ofLattice h, Int.toNat_natCast]

section Shape

variable {β : Type} {d out : Dense β} {rest : List ℕ}

theorem shaped?_ofLattice (hshape : d.shape = size res :: rest) :
    (ofLattice res).shaped? d = d.reshape? (res ++ rest) := by
  unfold shaped?
  rw [hshape, List.drop_one, List.tail_cons, ← Dense.reshapeInto?_ofNat, List.map_append]
  rfl

theorem flattened?_ofLattice (hshape : d.shape = res ++ rest) :
    (ofLattice res).flattened? d = d.reshape? (size res :: rest) := by
  have hlen : (ofLattice res).res.length = res.length := List.length_map _
  unfold flattened?
  rw [hshape, hlen, List.drop_left, ← Dense.reshapeInto?_ofNat, List.map_cons]
  rfl

end Shape

theorem addresses_ofLattice (res : List ℕ) : (ofLattice res).Addresses res where
  nodes := rfl
  number c hc := by
    rw [numberOf_ofLattice hc]
    exact ⟨Int.natCast_nonneg _, Int.ofNat_lt.mpr (nodeOf_lt_size hc)⟩
  coordinates i h0 hi := by
    obtain ⟨n, rfl⟩ := Int.eq_ofNat_of_zero_le h0
    have hn : n < size res := Int.ofNat_lt.mp hi
    have hwithin := within_coordsOf_of_lt hn
    refine ⟨coordsOf res n, ⟨hwithin, ?_⟩, fun c ⟨hc, hnumber⟩ => ?_⟩
    · rw [numberOf_ofLattice hwithin, nodeOf_coordsOf hn]
    · rw [numberOf_ofLattice hc] at hnumber
      rw [← Int.ofNat_inj.mp hnumber, coordsOf_nodeOf hc]
  shaped flat rest hshape hdata := by
    obtain ⟨out, hout, hout', hfull, hget⟩ := Dense.exists_reshape?_append hshape hdata
    refine ⟨out, (shaped?_ofLattice hshape).trans hout, hout', hfull, ?_, fun c t hc ht => ?_⟩
    · rw [flattened?_ofLattice hout', ← hshape]
      exact Dense.reshape?_reshape? hdata hout
    · obtain ⟨b, hb⟩ := Dense.exists_get? hfull (hout'.symm ▸ within_append hc ht)
      rw [toNat_numberOf_ofLattice hc]
      exact ⟨b, hb, (hget c t hc ht).symm.trans hb⟩
  flattened shaped rest hshape hdata := by
    have hsize : size (size res :: rest) = size shaped.shape := by
      rw [hshape, size_append]
      rfl
    obtain ⟨flat, hflat, hflat', hfull, -⟩ := Dense.exists_reshape? hdata hsize
    refine ⟨flat, (flattened?_ofLattice hshape).trans hflat, hflat', hflat' ▸ hfull, ?_⟩
    rw [shaped?_ofLattice hflat', ← hshape]
    exact Dense.reshape?_reshape? hdata hflat

theorem unravels_ofLattice (hne : res ≠ []) (hcount : Word.Fits (size res)) :
    (ofLattice res).Unravels res where
  outside index houtside := by
    rw [unravel?_ofLattice hne hcount, if_neg]
    intro hall
    obtain ⟨i, hi, hwrong⟩ := houtside
    have hlt : (size res : ℤ) ≤ i ∨ i < 0 := hwrong.symm
    have := hall i hi
    omega
  inside index hinside := by
    have hall : ∀ i ∈ index.entries, 0 ≤ i ∧ i < (size res : ℤ) := hinside
    refine ⟨index.entries.map fun i => coordsOf res i.toNat, ?_, ?_⟩
    · rw [unravel?_ofLattice hne hcount, if_pos hall, List.map_map]
      rfl
    · rw [List.forall₂_map_right_iff, List.forall₂_same]
      intro i hi
      obtain ⟨h0, hlt⟩ := hall i hi
      have hn : i.toNat < size res := (Int.toNat_lt h0).mpr hlt
      have hwithin := within_coordsOf_of_lt hn
      refine ⟨hwithin, ?_⟩
      rw [numberOf_ofLattice hwithin, nodeOf_coordsOf hn, Int.toNat_of_nonneg h0]
  listed := by
    refine ⟨allCoords res, coords?_ofLattice hne hcount, fun c => mem_allCoords_iff, ?_,
      pairwise_allCoords res⟩
    unfold allCoords
    rw [List.map_map]
    refine List.map_congr_left fun i hi => ?_
    have hi := List.mem_range.mp hi
    rw [Function.comp_apply, numberOf_ofLattice (within_coordsOf_of_lt hi), nodeOf_coordsOf hi]
    rfl

end Layout

end GridSpline
