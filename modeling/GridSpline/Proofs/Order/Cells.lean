import Mathlib
import GridSpline.Proofs.Interpolation.Cell
import GridSpline.Proofs.Interpolation.Matrix
import GridSpline.Proofs.Order.Rows

/-!
# Cells of points in another order

Points in another order are located in the same cells, in that order, unless one of them is outside
the bounds: then the first one of these is named, and which that is does depend on the order. The
interpolation matrix has a row for every cell, and the row depends on that cell only. So the matrix
of the points in another order has its rows in that order.

## Main definitions

* `SparseMatrix.addTriplets` — the rows of a matrix after triplets were added to them.
* `cellRow?` — the row of the interpolation matrix that belongs to a cell.
* `SparseMatrix.reordered` — a matrix with its rows in another order.

## Main statements

* `getElem?_addTriplets` — every triplet is added to its own row.
* `interpolationMatrix?_eq_mapM` — the matrix is made row by row.
* `interpolationMatrix?_entriesAt`, `Cell.locate?_entriesAt` — points in another order.
* `SparseMatrix.mulVec?_reordered` — the values at points in another order.
-/

namespace GridSpline

open Scalar Failure

variable {α : Type} [Scalar α] {order : List ℕ}

/-! ## Sums of triplets -/

namespace SparseMatrix

variable {n m : ℕ} {ts : List (ℤ × ℤ × α)}

/-- The rows after triplets were added to them. -/
def addTriplets (rows : Array (SparseRow α)) (ts : List (ℤ × ℤ × α)) : Array (SparseRow α) :=
  ts.foldl (fun rows t => rows.modify t.1.toNat (SparseRow.add t.2.1.toNat t.2.2)) rows

/-- Every triplet is added to its own row. -/
theorem getElem?_addTriplets (rows : Array (SparseRow α)) (hts : ∀ t ∈ ts, 0 ≤ t.1) (i : ℕ) :
    (addTriplets rows ts)[i]? = rows[i]?.map fun row =>
      (ts.filter fun t => t.1 = (i : ℤ)).foldl
        (fun row t => SparseRow.add t.2.1.toNat t.2.2 row) row := by
  induction ts generalizing rows with
  | nil => exact Option.map_id'.symm
  | cons t ts ih =>
    have h0 := hts t List.mem_cons_self
    have hrest := ih (rows.modify t.1.toNat (SparseRow.add t.2.1.toNat t.2.2)) fun s hs =>
      hts s (List.mem_cons_of_mem t hs)
    show (addTriplets (rows.modify t.1.toNat _) ts)[i]? = _
    rw [hrest, Array.getElem?_modify]
    by_cases ht : t.1 = (i : ℤ)
    · rw [if_pos (by omega), List.filter_cons_of_pos (by simpa using ht), Option.map_map]
      rfl
    · rw [if_neg (by omega), List.filter_cons_of_neg (by simpa using ht)]

/-- One triplet is added, if it is within the matrix. -/
def addTriplet? (n m : ℕ) (A : SparseMatrix α) (t : ℤ × ℤ × α) : Option (SparseMatrix α) :=
  if 0 ≤ t.1 ∧ t.1 < n ∧ 0 ≤ t.2.1 ∧ t.2.1 < m then
    some { A with rows := A.rows.modify t.1.toNat (SparseRow.add t.2.1.toNat t.2.2) }
  else none

theorem foldlM_addTriplet? (h : ∀ t ∈ ts, Holds n m t) (A : SparseMatrix α) :
    ts.foldlM (addTriplet? n m) A = some { A with rows := addTriplets A.rows ts } := by
  induction ts generalizing A with
  | nil => rfl
  | cons t ts ih =>
    have ht : addTriplet? n m A t =
        some { A with rows := A.rows.modify t.1.toNat (SparseRow.add t.2.1.toNat t.2.2) } :=
      if_pos (h t List.mem_cons_self)
    rw [List.foldlM_cons, ht]
    exact ih (fun s hs => h s (List.mem_cons_of_mem t hs)) _

theorem foldlM_addTriplet?_eq_none {t : ℤ × ℤ × α} (ht : t ∈ ts) (h : ¬Holds n m t)
    (A : SparseMatrix α) : ts.foldlM (addTriplet? n m) A = none := by
  induction ts generalizing A with
  | nil => exact absurd ht List.not_mem_nil
  | cons s ts ih =>
    rw [List.foldlM_cons]
    cases hs : addTriplet? n m A s with
    | none => rfl
    | some B =>
      rcases List.mem_cons.mp ht with rfl | ht
      · cases hs.symm.trans (if_neg h)
      · exact ih ht B

/-- Triplets within the matrix are added. -/
theorem ofTriplets?_eq_some (h : ∀ t ∈ ts, Holds n m t) :
    ofTriplets? n m ts = some { columns := m, rows := addTriplets (Array.replicate n []) ts } :=
  foldlM_addTriplet? h (empty n m)

/-- With a triplet outside of the matrix there is no sum. -/
theorem ofTriplets?_eq_none {t : ℤ × ℤ × α} (ht : t ∈ ts) (h : ¬Holds n m t) :
    ofTriplets? n m ts = none := foldlM_addTriplet?_eq_none ht h (empty n m)

omit [Scalar α] in
/-- The matrix with its rows in another order. -/
def reordered (order : List ℕ) (A : SparseMatrix α) : SparseMatrix α :=
  { A with rows := (entriesAt order A.rows.toList).toArray }

theorem size_of_mulVec? {A : SparseMatrix α} {x y : Array α} (h : A.mulVec? x = some y) :
    y.size = A.rows.size := by
  unfold mulVec? at h
  split at h
  · rw [← Option.some.inj h, mulVec, Array.size_map]
  · cases h

/-- The product of a matrix with its rows in another order. -/
theorem mulVec?_reordered (order : List ℕ) (A : SparseMatrix α) (x : Array α) :
    (A.reordered order).mulVec? x =
      (A.mulVec? x).map fun y => (entriesAt order y.toList).toArray := by
  have hproduct : (A.reordered order).mulVec x =
      (entriesAt order (A.mulVec x).toList).toArray := by
    unfold mulVec reordered
    rw [List.map_toArray, Array.toList_map, entriesAt_map]
  unfold mulVec?
  rw [hproduct]
  show (if x.size = A.columns then _ else _) = Option.map _ (if x.size = A.columns then _ else _)
  by_cases hx : x.size = A.columns
  · rw [if_pos hx, if_pos hx]
    rfl
  · rw [if_neg hx, if_neg hx]
    rfl

end SparseMatrix

/-! ## The interpolation matrix -/

variable {offsets : List ℤ} {n : ℕ}

/-- The corners of a cell that have a weight. -/
def cellTerms (offsets : List ℤ) (c : ℤ × List α) : List (ℤ × α) :=
  (offsets.zip c.2).filter fun t => ! decide (IsZero t.2)

/-- The row of the interpolation matrix that belongs to a cell. -/
def cellRow (offsets : List ℤ) (c : ℤ × List α) : SparseRow α :=
  (cellTerms offsets c).foldl (fun row t => SparseRow.add (c.1 + t.1).toNat t.2 row) []

/-- The row of a cell, if its corners that have a weight are nodes. -/
def cellRow? (offsets : List ℤ) (n : ℕ) (c : ℤ × List α) : Except (Failure α) (SparseRow α) :=
  if ∀ t ∈ cellTerms offsets c, 0 ≤ c.1 + t.1 ∧ c.1 + t.1 < n then return cellRow offsets c
  else throw .shapeMismatch

theorem reason_of_cellRow? {c : ℤ × List α} {e : Failure α} (h : cellRow? offsets n c = .error e) :
    e = .shapeMismatch := by
  unfold cellRow? at h
  split at h <;> cases h
  rfl

/-- The entries of the matrix that belong to a cell. -/
theorem filter_entries (offsets : List ℤ) (cells : List (ℤ × List α)) (i : ℕ) :
    ((cellEntries offsets 0 cells).filter fun t => ! decide (IsZero t.2.2)).filter
        (fun t => t.1 = (i : ℤ)) =
      (cells[i]?.map fun c =>
        (cellTerms offsets c).map fun t => ((i : ℤ), c.1 + t.1, t.2)).getD [] := by
  have hrow := filter_cellEntries offsets 0 cells i
  rw [Nat.zero_add] at hrow
  rw [List.filter_filter, List.filter_congr fun t _ => Bool.and_comm _ _, ← List.filter_filter, hrow]
  cases cells[i]? with
  | none => rfl
  | some c => exact List.filter_map

/-- The entries that are not zero, by their cells. -/
theorem mem_entries_iff {cells : List (ℤ × List α)} {t : ℤ × ℤ × α} :
    t ∈ (cellEntries offsets 0 cells).filter (fun t => ! decide (IsZero t.2.2)) ↔
      ∃ (i : ℕ) (c : ℤ × List α), cells[i]? = some c ∧
        ∃ s ∈ cellTerms offsets c, t = ((i : ℤ), c.1 + s.1, s.2) := by
  unfold cellEntries cellTerms
  simp only [List.mem_filter, List.mem_flatMap, Prod.exists, List.mem_zipIdx_iff_getElem?,
    List.mem_map]
  constructor
  · rintro ⟨⟨b, w, i, hc, o, v, hs, rfl⟩, hv⟩
    exact ⟨i, b, w, hc, o, v, ⟨hs, hv⟩, rfl⟩
  · rintro ⟨i, b, w, hc, o, v, ⟨hs, hv⟩, rfl⟩
    exact ⟨⟨b, w, i, hc, o, v, hs, rfl⟩, hv⟩

/-- Together the entries make up the rows of the cells. -/
theorem addTriplets_entries (cells : List (ℤ × List α)) :
    SparseMatrix.addTriplets (Array.replicate cells.length [])
        ((cellEntries offsets 0 cells).filter fun t => ! decide (IsZero t.2.2)) =
      (cells.map (cellRow offsets)).toArray := by
  have hrow : ∀ t ∈ (cellEntries offsets 0 cells).filter (fun t => ! decide (IsZero t.2.2)),
      0 ≤ t.1 := by
    intro t ht
    obtain ⟨i, c, -, s, -, rfl⟩ := mem_entries_iff.mp ht
    exact Int.natCast_nonneg i
  refine Array.ext_getElem? fun i => ?_
  rw [SparseMatrix.getElem?_addTriplets _ hrow, filter_entries, Array.getElem?_replicate,
    List.getElem?_toArray, List.getElem?_map]
  by_cases hi : i < cells.length
  · rw [if_pos hi, List.getElem?_eq_getElem hi]
    simp only [Option.map_some, Option.getD_some, List.foldl_map, cellRow]
  · rw [if_neg hi, List.getElem?_eq_none (not_lt.mp hi)]
    rfl

/-- The matrix is made row by row. -/
theorem interpolationMatrix?_eq_mapM {cells : List (ℤ × List α)}
    (hw : ∀ c ∈ cells, c.2.length = offsets.length) :
    interpolationMatrix? (cells.map Prod.fst) (cells.map Prod.snd).flatten offsets n =
      (fun rows => { columns := n, rows := rows.toArray }) <$> cells.mapM (cellRow? offsets n) := by
  rw [interpolationMatrix?_eq n hw]
  by_cases hfit : ∀ c ∈ cells, ∀ t ∈ cellTerms offsets c, 0 ≤ c.1 + t.1 ∧ c.1 + t.1 < n
  · have hrows : cells.mapM (cellRow? offsets n) = .ok (cells.map (cellRow offsets)) :=
      mapM_eq_ok_map fun c hc => if_pos (hfit c hc)
    rw [hrows, SparseMatrix.ofTriplets?_eq_some fun t ht => ?_, addTriplets_entries, require_some,
      map_ok]
    obtain ⟨i, c, hc, s, hs, rfl⟩ := mem_entries_iff.mp ht
    obtain ⟨hi, -⟩ := List.getElem?_eq_some_iff.mp hc
    exact ⟨Int.natCast_nonneg i, Int.ofNat_lt.mpr hi, hfit c (List.mem_of_getElem? hc) s hs⟩
  · push Not at hfit
    obtain ⟨c, hc, t, ht, hout⟩ := hfit
    obtain ⟨i, hi⟩ := List.mem_iff_getElem?.mp hc
    have hmem := mem_entries_iff.mpr ⟨i, c, hi, t, ht, rfl⟩
    rw [SparseMatrix.ofTriplets?_eq_none hmem fun h => absurd h.2.2.2 (not_lt.mpr (hout h.2.2.1))]
    cases hrows : cells.mapM (cellRow? offsets n) with
    | ok rows =>
      obtain ⟨row, hrow⟩ := exists_of_mapM_eq_ok hrows hc
      cases hrow.symm.trans (if_neg fun h => absurd (h t ht).2 (not_lt.mpr (hout (h t ht).1)))
    | error e =>
      obtain ⟨d, -, hd⟩ := exists_mem_of_mapM_eq_error hrows
      rw [reason_of_cellRow? hd]
      rfl

/-- There is a row for every cell. -/
theorem size_rows_of_interpolationMatrix? {cells : List (ℤ × List α)} {A : SparseMatrix α}
    (hw : ∀ c ∈ cells, c.2.length = offsets.length)
    (h : interpolationMatrix? (cells.map Prod.fst) (cells.map Prod.snd).flatten offsets n = .ok A) :
    A.rows.size = cells.length := by
  rw [interpolationMatrix?_eq_mapM hw] at h
  obtain ⟨rows, hrows, rfl⟩ := map_eq_ok.mp h
  exact length_of_mapM_eq_ok hrows

/-- The matrix of cells in another order. -/
theorem interpolationMatrix?_entriesAt {cells : List (ℤ × List α)}
    (horder : order.Perm (List.range cells.length))
    (hw : ∀ c ∈ cells, c.2.length = offsets.length) :
    interpolationMatrix? (entriesAt order (cells.map Prod.fst))
        (entriesAt order (cells.map Prod.snd)).flatten offsets n =
      SparseMatrix.reordered order <$>
        interpolationMatrix? (cells.map Prod.fst) (cells.map Prod.snd).flatten offsets n := by
  have hw' : ∀ c ∈ entriesAt order cells, c.2.length = offsets.length := fun c hc =>
    hw c (mem_of_mem_entriesAt hc)
  have hrows : (entriesAt order cells).mapM (cellRow? offsets n) =
      entriesAt order <$> cells.mapM (cellRow? offsets n) :=
    mapM_entriesAt horder fun _ _ _ he => reason_of_cellRow? he
  rw [entriesAt_map, entriesAt_map, interpolationMatrix?_eq_mapM hw,
    interpolationMatrix?_eq_mapM hw', hrows, ← comp_map, ← comp_map]
  rfl

/-! ## Locating points -/

theorem length_zipStretch? {β γ δ : Type} {f : β → γ → δ} {a : List β} {b : List γ} {l : List δ}
    (h : zipStretch? f a b = some l) :
    l.length = a.length ∧ (b.length = a.length ∨ b.length = 1) ∨
      a.length = 1 ∧ l.length = b.length := by
  unfold zipStretch? at h
  split at h
  · rename_i hlength
    obtain rfl := Option.some.inj h
    exact Or.inl ⟨by rw [List.length_zipWith, hlength, min_self], Or.inl hlength.symm⟩
  · split at h
    · obtain rfl := Option.some.inj h
      exact Or.inr ⟨rfl, List.length_map _⟩
    · obtain rfl := Option.some.inj h
      exact Or.inl ⟨List.length_map _, Or.inr rfl⟩
    · cases h

namespace Cell

variable {res : List ℕ} {low high width : List α}

/-- The place in a cell has as many coordinates as there are axes. -/
theorem length_fraction_of_ofPlace? {place : List α} {c : Cell α}
    (h : ofPlace? res place = some c) : c.fraction.length = (Lattice.strides res).length := by
  unfold ofPlace? at h
  simp only [Option.bind_eq_bind, Option.bind_eq_some_iff] at h
  obtain ⟨numbers, hnumbers, h⟩ := h
  split at h
  · cases h
  · rename_i hlength
    simp only [Option.bind_eq_some_iff] at h
    obtain ⟨fraction, hfraction, h⟩ := h
    obtain rfl := Option.some.inj h
    have h1 := length_zipStretch? hnumbers
    have h2 := length_zipStretch? hfraction
    show fraction.length = _
    omega

theorem length_cornerWeights_of_ofPoint? {point : List α} {c : Cell α}
    (h : ofPoint? res low width point = some c) : (cornerWeights c.fraction).length =
      (cornerOffsets ((Lattice.strides res).map Int.ofNat)).length := by
  unfold ofPoint? at h
  simp only [Option.bind_eq_bind, Option.bind_eq_some_iff] at h
  obtain ⟨_, -, _, -, h⟩ := h
  rw [length_cornerWeights, length_cornerOffsets, length_fraction_of_ofPlace? h, List.length_map]

/-- The lowest node of a cell, and the weights of its corners. -/
def weighted (c : Cell α) : ℤ × List α := (c.base, cornerWeights c.fraction)

/-- Points that are located have a cell each, with a weight for every corner. -/
theorem of_locate? {points : SampleTable α} {cells : List (Cell α)}
    (h : locate? res low high width points = .ok cells) : cells.length = points.rows.length ∧
      ∀ c ∈ cells.map weighted,
        c.2.length = (cornerOffsets ((Lattice.strides res).map Int.ofNat)).length := by
  unfold locate? at h
  simp only [bind_eq_ok] at h
  obtain ⟨-, -, -, -, -, -, hcells⟩ := h
  refine ⟨length_of_mapM_eq_ok hcells, fun c hc => ?_⟩
  obtain ⟨cell, hcell, rfl⟩ := List.mem_map.mp hc
  have hmem : Except.ok cell ∈ cells.map (Except.ok (ε := Failure α)) := List.mem_map_of_mem hcell
  rw [← mapM_eq_ok_iff.mp hcells] at hmem
  obtain ⟨point, -, hpoint⟩ := List.mem_map.mp hmem
  exact length_cornerWeights_of_ofPoint? (require_eq_ok.mp hpoint)

/-- Points in another order, none of which is outside. -/
theorem locate?_entriesAt {columns : ℕ} {rows : List (List α)}
    (horder : order.Perm (List.range rows.length)) (h : ∀ p ∈ rows, IsWithin low high p) :
    locate? res low high width { columns, rows := entriesAt order rows } =
      entriesAt order <$> locate? res low high width { columns, rows } := by
  unfold locate?
  simp only [refuseOutside_eq_ok h, refuseOutside_eq_ok fun p hp => h p (mem_of_mem_entriesAt hp),
    mapM_require_entriesAt horder, map_bind]

end Cell

end GridSpline
