import Mathlib
import GridSpline.Proofs.Dense.Broadcast
import GridSpline.Proofs.Sparse.Packed

/-!
# Sequences of additions

A packed matrix is filled by calls that add values between nodes and those an offset further, many
at once. A call may be refused, and then adds nothing. Whatever the sequence, the whole matrix is
the sum of the terms of the calls that were not refused: each term puts its value on both sides of
the diagonal, or once on the diagonal. So the matrix is symmetric, and the order of the calls does
not show in it.

Whether a call is accepted depends on the lattice alone, never on what was added before. This makes
the accepted calls of a sequence those of any rearrangement of it.

## Main definitions

* `Addition` — a call; `Addition.Fits` — a call that is accepted; `Addition.terms` — its terms.
* `Term.matrix` — what a term adds to the whole matrix.
* `PackedMatrix.addAll` — the matrix after a sequence of calls, with the accepted ones.

## Main statements

* `exists_add?`, `fits_of_add?` — the calls that are accepted, and what they add.
* `accepted_addAll` — the accepted calls of a sequence.
* `toMatrix_addAll` — the whole matrix after a sequence of calls.
-/

namespace GridSpline

open Scalar Failure
open Matrix
open GridSpline.Lattice

/-! ## Calls -/

/-- A call that adds values between nodes and those an offset further. Offsets and values may be
given once for all nodes. -/
structure Addition (α : Type) where
  rows : Dense ℤ
  offsets : Dense ℤ
  values : Dense α

/-- A value that is added between a node and the one an offset further. -/
structure Term (α : Type) where
  row : ℤ
  offset : ℤ
  value : α

namespace Addition

/-- The offset and the value for every node of a call, if there is one of each. -/
def terms (c : Addition ℝ) : List (Term ℝ) :=
  match c.offsets.broadcastTo? c.rows.shape, c.values.broadcastTo? c.rows.shape with
  | some offsets, some values =>
    List.zipWith (fun (r, o) v => ⟨r, o, v⟩) (c.rows.entries.zip offsets.entries) values.entries
  | _, _ => []

/-- A call that is accepted on a lattice: its offsets are those of the stencil, all nodes exist,
counted from the end if they are negative, and there is an offset and a value for each of them. -/
structure Fits (res : List ℕ) (c : Addition ℝ) : Prop where
  offsets : ∀ o ∈ c.offsets.entries, 0 ≤ o ∧ o.toNat ∈ stencilOffsets res
  rows : ∀ r ∈ c.rows.entries, -(size res : ℤ) ≤ r ∧ r < size res
  offsetFor : (c.offsets.broadcastTo? c.rows.shape).isSome
  valueFor : (c.values.broadcastTo? c.rows.shape).isSome

instance (res : List ℕ) (c : Addition ℝ) : Decidable (c.Fits res) :=
  decidable_of_iff
    ((∀ o ∈ c.offsets.entries, 0 ≤ o ∧ o.toNat ∈ stencilOffsets res) ∧
      (∀ r ∈ c.rows.entries, -(size res : ℤ) ≤ r ∧ r < size res) ∧
      (c.offsets.broadcastTo? c.rows.shape).isSome ∧ (c.values.broadcastTo? c.rows.shape).isSome)
    ⟨fun h => ⟨h.1, h.2.1, h.2.2.1, h.2.2.2⟩, fun h => ⟨h.1, h.2, h.3, h.4⟩⟩

/-- No node of the call is counted from the end, and none has its partner beyond the last node. -/
def StaysWithin (nodes : ℕ) (c : Addition ℝ) : Prop :=
  ∀ t ∈ c.terms, 0 ≤ t.row ∧ t.row + t.offset < nodes

end Addition

/-- The unit vector of a node. -/
noncomputable def nodeVector (n : ℕ) (i : ℤ) : Fin n → ℝ := fun j => if (j : ℤ) = i then 1 else 0

namespace Term

/-- What a term adds to the whole matrix: its value on both sides of the diagonal, or once on it. -/
noncomputable def matrix (n : ℕ) (t : Term ℝ) : Matrix (Fin n) (Fin n) ℝ :=
  let e := nodeVector n t.row
  let f := nodeVector n (t.row + t.offset)
  if 0 < t.offset then t.value • (vecMulVec e f + vecMulVec f e) else t.value • vecMulVec e e

theorem matrix_apply {n : ℕ} {t : Term ℝ} {i o : ℕ} (hrow : t.row = i) (ho : t.offset = o)
    (a b : Fin n) : t.matrix n a b =
      if min (a : ℕ) b = i ∧ max (a : ℕ) b = i + o then t.value else 0 := by
  have hproduct : ∀ k l : ℤ, vecMulVec (nodeVector n k) (nodeVector n l) a b =
      if (a : ℤ) = k ∧ (b : ℤ) = l then 1 else 0 := by
    intro k l
    rw [vecMulVec_apply, nodeVector, nodeVector, ite_and, ite_mul, one_mul, zero_mul]
  unfold matrix
  rw [hrow, ho]
  rcases Nat.eq_zero_or_pos o with rfl | hpos
  · rw [if_neg (by simp), Matrix.smul_apply, hproduct, smul_eq_mul, mul_ite, mul_one, mul_zero]
    exact if_congr (by omega) rfl rfl
  · rw [if_pos (by exact_mod_cast hpos), Matrix.smul_apply, Matrix.add_apply, hproduct, hproduct,
      smul_eq_mul]
    by_cases hab : (a : ℤ) = i ∧ (b : ℤ) = i + o
    · rw [if_pos hab, if_neg (by omega), if_pos (by omega), add_zero, mul_one]
    · rw [if_neg hab, zero_add, mul_ite, mul_one, mul_zero]
      exact if_congr (by omega) rfl rfl

end Term

namespace PackedMatrix

/-- The matrix after calls one after the other, and those of them that were not refused. A call that
is refused leaves the matrix as it is. -/
noncomputable def addAll : List (Addition ℝ) → PackedMatrix ℝ → PackedMatrix ℝ × List (Addition ℝ)
  | [], A => (A, [])
  | c :: calls, A =>
    match A.add? c.rows c.offsets c.values with
    | .ok B => ((addAll calls B).1, c :: (addAll calls B).2)
    | .error _ => addAll calls A

variable {res : List ℕ} {A B : PackedMatrix ℝ} {c : Addition ℝ}

/-! ## One term -/

/-- The place at which a term is stored. -/
structure StoredAt (A : PackedMatrix ℝ) (t : Term ℝ) (place : (ℕ × ℕ) × ℝ) : Prop where
  node : position? A.nodes t.row = some place.1.1
  column : A.stencil.column? t.offset = some place.1.2
  value : t.value = place.2

/-- The matrix has the nodes and columns of a lattice. -/
structure Serves (A : PackedMatrix ℝ) (res : List ℕ) : Prop where
  nodes : A.nodes = size res
  stencil : A.stencil = Stencil.ofRes res

theorem IsOver.serves (h : A.IsOver res) : A.Serves res := ⟨h.nodes, h.stencil⟩

theorem Serves.foldl_addAt (h : A.Serves res) (places : List ((ℕ × ℕ) × ℝ)) :
    (places.foldl (fun A ((node, column), v) => A.addAt node column v) A).Serves res := by
  induction places generalizing A with
  | nil => exact h
  | cons place places ih => exact ih (A := A.addAt place.1.1 place.1.2 place.2) ⟨h.nodes, h.stencil⟩

/-- Adding at its place adds the term. -/
theorem StoredAt.dense_addAt (hA : A.IsOver res) {t : Term ℝ} {i k : ℕ} {v : ℝ}
    (h : A.StoredAt t ((i, k), v)) (h0 : 0 ≤ t.row) (hlt : t.row + t.offset < size res) :
    (A.addAt i k v).IsOver res ∧
      (A.addAt i k v).dense (size res) = A.dense (size res) + t.matrix (size res) := by
  obtain ⟨hnode, hcolumn, rfl⟩ := h
  obtain ⟨o, ho⟩ := Int.eq_ofNat_of_zero_le (Stencil.nonneg_of_column? hcolumn)
  have hrow : t.row = (i : ℤ) := by
    obtain ⟨j, hj⟩ := Int.eq_ofNat_of_zero_le h0
    have hjlt : j < A.nodes := by
      rw [hA.nodes]
      omega
    rw [hj, position?_ofNat hjlt] at hnode
    rw [hj, Option.some.inj hnode]
  have hplace : (stencilOffsets res)[k]? = some o := by
    rw [hA.stencil, ho] at hcolumn
    exact Stencil.column?_eq_some_iff.mp hcolumn
  have hin : i + o < size res := by omega
  refine ⟨isOver_addAt hA hin hplace t.value, ?_⟩
  ext a b
  show (A.addAt i k t.value).forward (min a b) (max a b) =
    A.forward (min a b) (max a b) + t.matrix (size res) a b
  rw [forward_addAt hA hin hplace, t.matrix_apply hrow ho]

/-- Adding at their places adds the terms. -/
theorem dense_foldl_addAt (hA : A.IsOver res) {terms : List (Term ℝ)}
    {places : List ((ℕ × ℕ) × ℝ)} (h : List.Forall₂ A.StoredAt terms places)
    (hin : ∀ t ∈ terms, 0 ≤ t.row ∧ t.row + t.offset < size res) :
    (places.foldl (fun A ((node, column), v) => A.addAt node column v) A).IsOver res ∧
      (places.foldl (fun A ((node, column), v) => A.addAt node column v) A).dense (size res) =
        A.dense (size res) + (terms.map (Term.matrix (size res))).sum := by
  induction terms generalizing A places with
  | nil =>
    cases h
    exact ⟨hA, by simp⟩
  | cons t terms ih =>
    cases h with
    | @cons _ place _ places hfirst hrest =>
      obtain ⟨⟨i, k⟩, v⟩ := place
      obtain ⟨h0, hlt⟩ := hin t List.mem_cons_self
      obtain ⟨hover, hdense⟩ := hfirst.dense_addAt hA h0 hlt
      -- The places of the other terms do not depend on what is stored.
      have hrest' : List.Forall₂ (A.addAt i k v).StoredAt terms places :=
        hrest.imp fun _ _ h => ⟨h.node, h.column, h.value⟩
      obtain ⟨hover', hdense'⟩ := ih hover hrest' fun s hs => hin s (List.mem_cons_of_mem t hs)
      rw [List.foldl_cons]
      refine ⟨hover', ?_⟩
      rw [hdense', hdense, List.map_cons, List.sum_cons, add_assoc]

/-! ## One call -/

theorem exists_column?_iff {o : ℤ} : (∃ k, (Stencil.ofRes res).column? o = some k) ↔
    0 ≤ o ∧ o.toNat ∈ stencilOffsets res := by
  constructor
  · rintro ⟨k, hk⟩
    have h0 := Stencil.nonneg_of_column? hk
    rw [← Int.toNat_of_nonneg h0] at hk
    exact ⟨h0, List.mem_of_getElem? (Stencil.column?_eq_some_iff.mp hk)⟩
  · rintro ⟨h0, hmem⟩
    obtain ⟨k, hk⟩ := Stencil.exists_column hmem
    rw [Int.toNat_of_nonneg h0] at hk
    exact ⟨k, hk⟩

/-- The columns of an array of offsets, all of which have one. -/
theorem columnsOf?_eq_ok_iff {offsets : Dense ℤ} {columns : Dense ℕ} :
    (Stencil.ofRes res).columnsOf? (α := ℝ) offsets = .ok columns ↔
      columns.shape = offsets.shape ∧
        offsets.entries.mapM (Stencil.ofRes res).column? = some columns.entries := by
  unfold Stencil.columnsOf?
  rw [guard_eq_ok, bind_eq_ok]
  constructor
  · rintro ⟨-, l, hl, hcolumns⟩
    rw [require_eq_ok] at hl
    cases hcolumns
    exact ⟨rfl, hl⟩
  · rintro ⟨hshape, hl⟩
    refine ⟨?_, columns.entries, require_eq_ok.mpr hl, ?_⟩
    · rw [Bool.not_eq_true, List.any_eq_false]
      intro o ho
      obtain ⟨h0, hmem⟩ := exists_column?_iff.mp (mapM_isSome_iff.mp ⟨_, hl⟩ o ho)
      have hreached := Stencil.isReached hmem
      rw [Int.toNat_of_nonneg h0] at hreached
      simpa using hreached
    · cases columns
      cases hshape
      rfl

theorem position?_isSome_iff {n : ℕ} {i : ℤ} :
    (∃ k, position? n i = some k) ↔ -(n : ℤ) ≤ i ∧ i < n := by
  unfold position?
  constructor
  · rintro ⟨k, hk⟩
    split at hk
    · split at hk
      · omega
      · cases hk
    · split at hk
      · omega
      · cases hk
  · rintro ⟨hlow, hhigh⟩
    rcases le_or_gt 0 i with h0 | h0
    · exact ⟨i.toNat, by rw [if_pos h0, if_pos hhigh]⟩
    · exact ⟨(i + n).toNat, by rw [if_neg (by omega), if_pos (by omega)]⟩

theorem forall₂_storedAt {rows offsets : List ℤ} {nodes columns : List ℕ}
    (hrows : List.Forall₂ (fun r i => position? A.nodes r = some i) rows nodes)
    (hoffsets : List.Forall₂ (fun o k => A.stencil.column? o = some k) offsets columns)
    (values : List ℝ) : List.Forall₂ A.StoredAt
      (List.zipWith (fun (r, o) v => ⟨r, o, v⟩) (rows.zip offsets) values)
      ((nodes.zip columns).zip values) := by
  induction hrows generalizing offsets columns values with
  | nil => exact .nil
  | cons hrow _ ih =>
    cases hoffsets with
    | nil => exact .nil
    | cons hoffset hrest =>
      cases values with
      | nil => exact .nil
      | cons v values => exact .cons ⟨hrow, hoffset, rfl⟩ (ih hrest values)

/-- A call that fits adds its terms at their places. -/
theorem exists_add? (hA : A.Serves res) (hc : c.Fits res) :
    ∃ places, A.add? c.rows c.offsets c.values =
      .ok (places.foldl (fun A ((node, column), v) => A.addAt node column v) A) ∧
      List.Forall₂ A.StoredAt c.terms places := by
  obtain ⟨ks, hks⟩ := mapM_isSome_iff.mpr fun o ho => exists_column?_iff.mpr (hc.offsets o ho)
  obtain ⟨nodes, hnodes⟩ := mapM_isSome_iff.mpr fun r hr => position?_isSome_iff.mpr (hc.rows r hr)
  obtain ⟨offsets, hoffsets⟩ := Option.isSome_iff_exists.mp hc.offsetFor
  obtain ⟨values, hvalues⟩ := Option.isSome_iff_exists.mp hc.valueFor
  let columns : Dense ℕ := { shape := c.offsets.shape, data := ks.toArray }
  have hcolumns : A.stencil.columnsOf? (α := ℝ) c.offsets = .ok columns := by
    rw [hA.stencil]
    exact columnsOf?_eq_ok_iff.mpr ⟨rfl, hks⟩
  have hrel := Dense.broadcastTo?_rel (a := c.offsets) (b := columns) rfl (forall₂_of_mapM hks)
    c.rows.shape
  rw [hoffsets] at hrel
  cases hbroadcast : columns.broadcastTo? c.rows.shape with
  | none =>
    rw [hbroadcast] at hrel
    cases hrel
  | some stored =>
    rw [hbroadcast] at hrel
    cases hrel with
    | some hrel =>
      refine ⟨(nodes.zip stored.entries).zip values.entries, ?_, ?_⟩
      · unfold add?
        rw [hcolumns, ok_bind, hbroadcast, require_some, ok_bind, hA.nodes, hnodes, require_some,
          ok_bind, hvalues, require_some, ok_bind]
        rfl
      · unfold Addition.terms
        rw [hoffsets, hvalues]
        refine forall₂_storedAt (hA.nodes ▸ forall₂_of_mapM hnodes) ?_ values.entries
        rw [hA.stencil]
        exact hrel

/-- A call that is not refused fits. -/
theorem fits_of_add? (hA : A.Serves res) (h : A.add? c.rows c.offsets c.values = .ok B) :
    c.Fits res := by
  unfold add? at h
  obtain ⟨columns, hcolumns, h⟩ := bind_eq_ok.mp h
  obtain ⟨stored, hstored, h⟩ := bind_eq_ok.mp h
  obtain ⟨nodes, hnodes, h⟩ := bind_eq_ok.mp h
  obtain ⟨values, hvalues, -⟩ := bind_eq_ok.mp h
  rw [require_eq_ok] at hstored hnodes hvalues
  rw [hA.stencil, columnsOf?_eq_ok_iff] at hcolumns
  obtain ⟨hshape, hks⟩ := hcolumns
  have hrel := Dense.broadcastTo?_rel hshape.symm (forall₂_of_mapM hks) c.rows.shape
  rw [hstored] at hrel
  refine ⟨fun o ho => exists_column?_iff.mp (mapM_isSome_iff.mp ⟨_, hks⟩ o ho), fun r hr => ?_, ?_,
    by rw [hvalues]; rfl⟩
  · rw [← hA.nodes]
    exact position?_isSome_iff.mp (mapM_isSome_iff.mp ⟨_, hnodes⟩ r hr)
  · cases hoffsets : c.offsets.broadcastTo? c.rows.shape with
    | none =>
      rw [hoffsets] at hrel
      cases hrel
    | some offsets => rfl

/-! ## Sequences of calls -/

/-- The calls that are not refused are those that fit. -/
theorem accepted_addAll (hA : A.Serves res) (calls : List (Addition ℝ)) :
    (addAll calls A).2 = calls.filter fun c => decide (c.Fits res) := by
  induction calls generalizing A with
  | nil => rfl
  | cons c calls ih =>
    unfold addAll
    by_cases hc : c.Fits res
    · obtain ⟨places, hadd, -⟩ := exists_add? hA hc
      rw [List.filter_cons_of_pos (by simpa using hc), hadd]
      simp only
      rw [ih (hA.foldl_addAt places)]
    · rw [List.filter_cons_of_neg (by simpa using hc)]
      cases hadd : A.add? c.rows c.offsets c.values with
      | ok B => exact absurd (fits_of_add? hA hadd) hc
      | error f => exact ih hA

/-- What calls add to the matrix that is meant. -/
theorem dense_addAll (hA : A.IsOver res) (calls : List (Addition ℝ))
    (hin : ∀ c ∈ (addAll calls A).2, c.StaysWithin (size res)) :
    (addAll calls A).1.IsOver res ∧ (addAll calls A).1.dense (size res) = A.dense (size res) +
      (((addAll calls A).2.flatMap Addition.terms).map (Term.matrix (size res))).sum := by
  induction calls generalizing A with
  | nil => exact ⟨hA, by simp [addAll]⟩
  | cons c calls ih =>
    unfold addAll at hin ⊢
    cases hadd : A.add? c.rows c.offsets c.values with
    | error f =>
      rw [hadd] at hin
      exact ih hA hin
    | ok B =>
      obtain ⟨places, hplaced, hplaces⟩ := exists_add? hA.serves (fits_of_add? hA.serves hadd)
      rw [hadd, Except.ok.injEq] at hplaced
      subst hplaced
      rw [hadd] at hin
      simp only at hin ⊢
      obtain ⟨hover, hdense⟩ := dense_foldl_addAt hA hplaces (hin c List.mem_cons_self)
      obtain ⟨hover', hdense'⟩ := ih hover fun d hd => hin d (List.mem_cons_of_mem c hd)
      refine ⟨hover', ?_⟩
      rw [hdense', hdense, List.flatMap_cons, List.map_append, List.sum_append, add_assoc]

/-- The whole matrix after a sequence of calls that stay on the lattice: the calls that are not
refused are those that fit, the matrix is the sum of their terms, it is symmetric, and in any other
order the calls give the same matrix. -/
theorem toMatrix_addAll (res : List ℕ) (calls : List (Addition ℝ))
    (hin : ∀ c ∈ (addAll calls (zero res)).2, c.StaysWithin (size res)) :
    (addAll calls (zero res)).2 = calls.filter (fun c => decide (c.Fits res)) ∧
      (addAll calls (zero res)).1.toSparse.toMatrix (size res) (size res) =
        (((addAll calls (zero res)).2.flatMap Addition.terms).map (Term.matrix (size res))).sum ∧
      ((addAll calls (zero res)).1.toSparse.toMatrix (size res) (size res)).IsSymm ∧
      ∀ others : List (Addition ℝ), others.Perm calls →
        (addAll others (zero res)).1.toSparse.toMatrix (size res) (size res) =
          (addAll calls (zero res)).1.toSparse.toMatrix (size res) (size res) := by
  have hzero := isOver_zero res
  have hsum : ∀ others : List (Addition ℝ), (addAll others (zero res)).2.Perm
      (addAll calls (zero res)).2 →
      (addAll others (zero res)).1.IsOver res ∧ (addAll others (zero res)).1.dense (size res) =
        (((addAll calls (zero res)).2.flatMap Addition.terms).map (Term.matrix (size res))).sum := by
    intro others hperm
    obtain ⟨hover, hdense⟩ := dense_addAll hzero others fun c hc => hin c (hperm.subset hc)
    refine ⟨hover, ?_⟩
    rw [hdense, dense_zero, zero_add]
    exact ((hperm.flatMap_right Addition.terms).map (Term.matrix (size res))).sum_eq
  obtain ⟨hover, hdense⟩ := hsum calls (List.Perm.refl _)
  refine ⟨accepted_addAll hzero.serves calls, ?_, ?_, fun others hperm => ?_⟩
  · rw [toMatrix_toSparse hover, hdense]
  · rw [toMatrix_toSparse hover]
    exact dense_symm _ _
  · have haccepted : (addAll others (zero res)).2.Perm (addAll calls (zero res)).2 := by
      rw [accepted_addAll hzero.serves, accepted_addAll hzero.serves]
      exact hperm.filter _
    obtain ⟨hover', hdense'⟩ := hsum others haccepted
    rw [toMatrix_toSparse hover', toMatrix_toSparse hover, hdense', hdense]

/-- Calls on a lattice of two by three nodes: one that adds twice to the same place, one whose
offset has no column, one with a node beyond the last, and one on the diagonal. -/
noncomputable def mixedCalls : List (Addition ℝ) :=
  [{ rows := .vector [0, 0, 3], offsets := .scalar 1, values := .vector [1, 5, 3] },
    { rows := .vector [0], offsets := .scalar 5, values := .scalar 7 },
    { rows := .vector [1, 6], offsets := .scalar 2, values := .scalar 7 },
    { rows := .vector [4], offsets := .scalar 0, values := .scalar 3 }]

theorem accepted_mixedCalls : (addAll mixedCalls (zero [2, 3])).2 =
    [{ rows := .vector [0, 0, 3], offsets := .scalar 1, values := .vector [1, 5, 3] },
      { rows := .vector [4], offsets := .scalar 0, values := .scalar 3 }] := by
  rw [accepted_addAll (isOver_zero [2, 3]).serves]
  rfl

theorem terms_mixedCalls : (addAll mixedCalls (zero [2, 3])).2.flatMap Addition.terms =
    [⟨0, 1, 1⟩, ⟨0, 1, 5⟩, ⟨3, 1, 3⟩, ⟨4, 0, 3⟩] := by
  rw [accepted_mixedCalls]
  rfl

/-- Of the calls on a lattice of two by three nodes the first and the last are accepted. -/
theorem toMatrix_mixedCalls :
    (∀ c ∈ (addAll mixedCalls (zero [2, 3])).2, c.StaysWithin (size [2, 3])) ∧
      (addAll mixedCalls (zero [2, 3])).1.toSparse.toMatrix 6 6 =
        !![0, 6, 0, 0, 0, 0;
           6, 0, 0, 0, 0, 0;
           0, 0, 0, 0, 0, 0;
           0, 0, 0, 0, 3, 0;
           0, 0, 0, 3, 3, 0;
           0, 0, 0, 0, 0, 0] := by
  have hin : ∀ c ∈ (addAll mixedCalls (zero [2, 3])).2, c.StaysWithin (size [2, 3]) := by
    intro c hc t ht
    have hmem : t ∈ (addAll mixedCalls (zero [2, 3])).2.flatMap Addition.terms :=
      List.mem_flatMap.mpr ⟨c, hc, ht⟩
    rw [terms_mixedCalls] at hmem
    simp only [List.mem_cons, List.not_mem_nil, or_false] at hmem
    rcases hmem with rfl | rfl | rfl | rfl <;> decide
  refine ⟨hin, ?_⟩
  obtain ⟨-, hmatrix, -, -⟩ := toMatrix_addAll [2, 3] mixedCalls hin
  have hsize : size [2, 3] = 6 := rfl
  rw [hsize, terms_mixedCalls] at hmatrix
  rw [hmatrix]
  ext i j
  fin_cases i <;> fin_cases j <;>
    norm_num [Term.matrix, nodeVector, vecMulVec_apply]

end PackedMatrix

end GridSpline
