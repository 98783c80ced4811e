import Mathlib
import GridSpline.Proofs.Sample.Written

/-!
# Samples in another order

Samples are given as arrays whose first axis counts the samples. Another order of them is a list of
their places, each of which it names once. Rows of positions and values, weights, and the samples
that are made of them, are all put in another order in the same way: by taking what stands at these
places, one after the other.

## Main definitions

* `entriesAt` — the entries at the given places.
* `placesOf`, `orderAmong` — the places of some of the entries, and what is left of an order of all
  of them.
* `Dense.parts`, `Dense.reordered` — the parts of an array along its first axis, in another order.
* `GivenSamples.reordered`, `Extended.reordered`, `Prepared.reordered` — samples in another order.

## Main statements

* `perm_entriesAt` — nothing is lost and nothing is added.
* `mapM_entriesAt` — steps on entries in another order.
* `filter_entriesAt_eq`, `orderAmong_perm` — some of the entries in another order.
* `Dense.parts_reordered` — the parts of an array in another order.
* `weightRows?_reordered` — the weights of samples in another order.
-/

namespace GridSpline

open Scalar Failure
open GridSpline.Lattice

variable {β γ δ : Type} {order : List ℕ}

/-! ## Lists -/

/-- The entries at the given places, one after the other. -/
def entriesAt (order : List ℕ) (l : List β) : List β := order.filterMap (l[·]?)

theorem entriesAt_cons {i : ℕ} {l : List β} (h : i < l.length) :
    entriesAt (i :: order) l = l[i] :: entriesAt order l := by
  unfold entriesAt
  rw [List.filterMap_cons, List.getElem?_eq_getElem h]

theorem entriesAt_map (f : β → γ) (order : List ℕ) (l : List β) :
    entriesAt order (l.map f) = (entriesAt order l).map f := by
  unfold entriesAt
  rw [List.map_filterMap]
  exact List.filterMap_congr fun i _ => List.getElem?_map

theorem mem_of_mem_entriesAt {l : List β} {b : β} (h : b ∈ entriesAt order l) : b ∈ l := by
  obtain ⟨i, -, hi⟩ := List.mem_filterMap.mp h
  exact List.mem_of_getElem? hi

theorem entriesAt_zipWith (f : β → γ → δ) {l : List β} {l' : List γ}
    (h : ∀ i ∈ order, i < l.length) (h' : ∀ i ∈ order, i < l'.length) :
    entriesAt order (List.zipWith f l l') =
      List.zipWith f (entriesAt order l) (entriesAt order l') := by
  induction order with
  | nil => rfl
  | cons i order ih =>
    have hi := h i List.mem_cons_self
    have hi' := h' i List.mem_cons_self
    have hzip : i < (List.zipWith f l l').length := by
      rw [List.length_zipWith]
      exact lt_min hi hi'
    rw [entriesAt_cons hzip, entriesAt_cons hi, entriesAt_cons hi', List.getElem_zipWith,
      ih (fun j hj => h j (List.mem_cons_of_mem i hj)) fun j hj => h' j (List.mem_cons_of_mem i hj),
      List.zipWith_cons_cons]

theorem entriesAt_range (l : List β) : entriesAt (List.range l.length) l = l := by
  refine List.ext_getElem? fun i => ?_
  induction l generalizing i with
  | nil => rfl
  | cons b l ih =>
    have hrest : entriesAt ((List.range l.length).map Nat.succ) (b :: l) =
        entriesAt (List.range l.length) l := by
      unfold entriesAt
      rw [List.filterMap_map]
      rfl
    rw [List.length_cons, List.range_succ_eq_map, entriesAt_cons (Nat.zero_lt_succ _), hrest]
    cases i with
    | zero => rfl
    | succ i => exact ih i

/-- Nothing is lost and nothing is added. -/
theorem perm_entriesAt {l : List β} (h : order.Perm (List.range l.length)) :
    (entriesAt order l).Perm l := by
  have hperm : (entriesAt order l).Perm (entriesAt (List.range l.length) l) := h.filterMap _
  rwa [entriesAt_range] at hperm

theorem entriesAt_replicate (horder : order.Perm (List.range order.length)) (b : β) :
    entriesAt order (List.replicate order.length b) = List.replicate order.length b := by
  refine List.perm_replicate.mp (perm_entriesAt ?_)
  rwa [List.length_replicate]

/-- The entries are found where the order says. -/
theorem getElem?_entriesAt {l : List β} (h : ∀ i ∈ order, i < l.length) (j : ℕ) :
    (entriesAt order l)[j]? = order[j]?.bind (l[·]?) := by
  induction order generalizing j with
  | nil => rfl
  | cons i order ih =>
    have hi := h i List.mem_cons_self
    rw [entriesAt_cons hi]
    cases j with
    | zero => exact (List.getElem?_eq_getElem hi).symm
    | succ j => exact ih (fun k hk => h k (List.mem_cons_of_mem i hk)) j

theorem length_entriesAt {l : List β} (h : ∀ i ∈ order, i < l.length) :
    (entriesAt order l).length = order.length := by
  induction order with
  | nil => rfl
  | cons i order ih =>
    rw [entriesAt_cons (h i List.mem_cons_self), List.length_cons, List.length_cons,
      ih fun j hj => h j (List.mem_cons_of_mem i hj)]

/-- Steps on entries in another order, if all failures are the same. -/
theorem mapM_entriesAt {ε : Type} {f : β → Except ε γ} {reason : ε} {l : List β}
    (horder : order.Perm (List.range l.length))
    (hreason : ∀ b ∈ l, ∀ e, f b = .error e → e = reason) :
    (entriesAt order l).mapM f = entriesAt order <$> l.mapM f := by
  have hperm := perm_entriesAt horder
  cases hl : l.mapM f with
  | ok r =>
    refine mapM_eq_ok_iff.mpr ?_
    rw [← entriesAt_map, mapM_eq_ok_iff.mp hl, entriesAt_map]
  | error e =>
    obtain ⟨b, hb, he⟩ := exists_mem_of_mapM_eq_error hl
    obtain rfl := hreason b hb e he
    cases hl' : (entriesAt order l).mapM f with
    | ok r =>
      -- Every step would succeed, this one as well.
      obtain ⟨c, hc⟩ := exists_of_mapM_eq_ok hl' (hperm.mem_iff.mpr hb)
      rw [he] at hc
      cases hc
    | error e' =>
      obtain ⟨b', hb', he'⟩ := exists_mem_of_mapM_eq_error hl'
      rw [hreason b' (hperm.mem_iff.mp hb') e' he']
      rfl

/-- Choices on entries in another order, if a missing one fails for the same reason everywhere. -/
theorem mapM_require_entriesAt {α : Type} {f : β → Option γ} {reason : Failure α} {l : List β}
    (horder : order.Perm (List.range l.length)) :
    ((entriesAt order l).mapM fun b => require reason (f b)) =
      entriesAt order <$> l.mapM fun b => require reason (f b) :=
  mapM_entriesAt horder fun _ _ _ he => (require_eq_error.mp he).2.symm

theorem lt_length_of_mem {n i : ℕ} (h : order.Perm (List.range n)) (hi : i ∈ order) : i < n :=
  List.mem_range.mp (h.subset hi)

/-- An order of so many names places of every list of that length. -/
theorem forall_lt_length {n : ℕ} (h : order.Perm (List.range n)) {l : List β} (hl : l.length = n) :
    ∀ i ∈ order, i < l.length := fun _ hi => hl ▸ lt_length_of_mem h hi

/-! ## Some of the entries -/

/-- The places of the entries that are kept. -/
def placesOf (keep : β → Bool) (l : List β) : List ℕ :=
  (List.range l.length).filter fun i => (l[i]?).any keep

/-- The order in which entries follow each other that are kept, when all are put in another order.
Each is named by its place among those that are kept. -/
def orderAmong (kept order : List ℕ) : List ℕ := (order.filter (· ∈ kept)).map kept.idxOf

theorem filter_entriesAt (keep : β → Bool) (order : List ℕ) (l : List β) :
    (entriesAt order l).filter keep = entriesAt (order.filter fun i => (l[i]?).any keep) l := by
  unfold entriesAt
  rw [List.filter_filterMap, List.filterMap_filter]
  refine List.filterMap_congr fun i _ => ?_
  cases l[i]? with
  | none => rfl
  | some b => rfl

theorem entriesAt_placesOf (keep : β → Bool) (l : List β) :
    entriesAt (placesOf keep l) l = l.filter keep := by
  unfold placesOf
  rw [← filter_entriesAt, entriesAt_range]

theorem mem_placesOf {keep : β → Bool} {l : List β} {i : ℕ} :
    i ∈ placesOf keep l ↔ (l[i]?).any keep = true := by
  unfold placesOf
  rw [List.mem_filter, List.mem_range, and_iff_right_iff_imp]
  intro h
  obtain ⟨b, hb, -⟩ := (Option.any_eq_true _ _).mp h
  exact (List.getElem?_eq_some_iff.mp hb).1

theorem lt_length_of_mem_placesOf {keep : β → Bool} {l : List β} :
    ∀ i ∈ placesOf keep l, i < l.length := fun _ hi =>
  List.mem_range.mp (List.mem_of_mem_filter hi)

theorem nodup_placesOf (keep : β → Bool) (l : List β) : (placesOf keep l).Nodup :=
  List.nodup_range.filter _

theorem length_placesOf (keep : β → Bool) (l : List β) :
    (placesOf keep l).length = (l.filter keep).length := by
  rw [← entriesAt_placesOf, length_entriesAt lt_length_of_mem_placesOf]

/-- Entries of which some are kept, and then put in another order, are the entries in that order of
which some are kept. -/
theorem filter_entriesAt_eq (keep : β → Bool) (order : List ℕ) (l : List β) :
    (entriesAt order l).filter keep =
      entriesAt (orderAmong (placesOf keep l) order) (l.filter keep) := by
  have hkept : (order.filter fun i => (l[i]?).any keep) =
      order.filter (· ∈ placesOf keep l) := by
    refine List.filter_congr fun i _ => ?_
    rw [Bool.eq_iff_iff, ← mem_placesOf, decide_eq_true_iff]
  rw [filter_entriesAt, hkept, ← entriesAt_placesOf keep l]
  unfold orderAmong
  rw [entriesAt, entriesAt, List.filterMap_map]
  refine List.filterMap_congr fun i hi => ?_
  have hmem : i ∈ placesOf keep l := of_decide_eq_true (List.mem_filter.mp hi).2
  rw [Function.comp_apply, getElem?_entriesAt lt_length_of_mem_placesOf, List.getElem?_idxOf hmem,
    Option.bind_some]

theorem map_idxOf_of_nodup {l : List ℕ} (h : l.Nodup) : l.map l.idxOf = List.range l.length := by
  refine List.ext_getElem (by simp) fun i h1 h2 => ?_
  rw [List.getElem_map, h.idxOf_getElem, List.getElem_range]

/-- What is kept is put in an order of so many. -/
theorem orderAmong_perm {n : ℕ} {kept : List ℕ} (horder : order.Perm (List.range n))
    (hkept : ∀ i ∈ kept, i < n) (hnodup : kept.Nodup) :
    (orderAmong kept order).Perm (List.range kept.length) := by
  have hfilter : (order.filter (· ∈ kept)).Perm kept := by
    refine (List.perm_ext_iff_of_nodup
      ((horder.nodup_iff.mpr List.nodup_range).filter _) hnodup).mpr fun i => ?_
    rw [List.mem_filter, horder.mem_iff, List.mem_range, decide_eq_true_iff,
      and_iff_right_iff_imp]
    exact hkept i
  rw [← map_idxOf_of_nodup hnodup]
  exact hfilter.map _

example : orderAmong [0, 2] [2, 1, 0] = [1, 0] := by decide

/-- If all are kept then it is the same order. -/
theorem orderAmong_range {n : ℕ} (h : ∀ i ∈ order, i < n) :
    orderAmong (List.range n) order = order := by
  have hfilter : order.filter (· ∈ List.range n) = order :=
    List.filter_eq_self.mpr fun i hi => decide_eq_true (List.mem_range.mpr (h i hi))
  unfold orderAmong
  rw [hfilter]
  refine (List.map_congr_left fun i hi => ?_).trans order.map_id
  have hlt : i < (List.range n).length := by
    rw [List.length_range]
    exact h i hi
  have hindex := List.nodup_range.idxOf_getElem i hlt
  rwa [List.getElem_range] at hindex

/-! ## Arrays -/

namespace Dense

/-- The parts of an array along its first axis. -/
def parts (d : Dense β) : List (List β) :=
  let m := size d.shape.tail
  (List.range (d.shape.headD 0)).map fun i => (d.data.extract (i * m) (i * m + m)).toList

/-- The array with its parts in another order, if that is an order of so many. -/
def reordered (order : List ℕ) (d : Dense β) : Dense β :=
  if d.shape.head? = some order.length then
    { d with data := (entriesAt order d.parts).flatten.toArray }
  else d

@[simp] theorem shape_reordered (order : List ℕ) (d : Dense β) :
    (d.reordered order).shape = d.shape := by
  unfold reordered
  split <;> rfl

variable {d : Dense β} {n m : ℕ} {rest : List ℕ}

theorem length_parts (hshape : d.shape = n :: rest) : d.parts.length = n := by
  unfold parts
  rw [hshape, List.length_map, List.length_range]
  rfl

theorem getElem_parts {i : ℕ} (h : i < d.parts.length) : d.parts[i] =
    d.data.toList.extract (i * size d.shape.tail) (i * size d.shape.tail + size d.shape.tail) := by
  simp only [parts, List.getElem_map, List.getElem_range, Array.toList_extract]

theorem length_of_mem_parts (hshape : d.shape = n :: rest) (hsize : d.data.size = size d.shape) :
    ∀ r ∈ d.parts, r.length = size rest := by
  intro r hr
  unfold parts at hr
  rw [hshape] at hr
  obtain ⟨i, hi, rfl⟩ := List.mem_map.mp hr
  have hin : i * size rest + size rest ≤ d.data.size := by
    rw [hsize, hshape]
    calc i * size rest + size rest = (i + 1) * size rest := (Nat.succ_mul i _).symm
      _ ≤ n * size rest := Nat.mul_le_mul_right _ (List.mem_range.mp hi)
  simp only [List.tail_cons, Array.length_toList, Array.size_extract]
  omega

theorem rows?_eq_parts (hshape : d.shape = [n, m]) : d.rows? = some d.parts := by
  unfold rows? parts
  rw [hshape]
  simp [size]

theorem parts_of_shape_one (hshape : d.shape = [n]) (hsize : d.data.size = n) :
    d.parts = d.entries.map ([·]) := by
  have hlength : d.entries.length = n := by rw [entries, Array.length_toList, hsize]
  refine List.ext_getElem ?_ fun i h1 h2 => ?_
  · rw [length_parts hshape, List.length_map, hlength]
  · rw [List.length_map, hlength] at h2
    have hi : i < d.data.toList.length := by rwa [Array.length_toList, hsize]
    rw [getElem_parts, hshape, List.tail_cons, size, mul_one, List.extract_eq_take_drop,
      Nat.add_sub_cancel_left, List.drop_eq_getElem_cons hi, List.take_succ_cons, List.take_zero,
      List.getElem_map]
    rfl

section Reordered

variable (horder : order.Perm (List.range order.length)) (hshape : d.shape = order.length :: rest)
  (hsize : d.data.size = size d.shape)

include horder hshape hsize

omit horder in
theorem length_of_mem_reordered : ∀ r ∈ entriesAt order d.parts, r.length = size rest := fun r hr =>
  length_of_mem_parts hshape hsize r (mem_of_mem_entriesAt hr)

omit hsize in
theorem length_reordered : (entriesAt order d.parts).length = order.length := by
  have hperm : (entriesAt order d.parts).Perm d.parts :=
    perm_entriesAt (by rwa [length_parts hshape])
  exact hperm.length_eq.trans (length_parts hshape)

theorem size_reordered_of_shape : (d.reordered order).data.size = size d.shape := by
  unfold reordered
  rw [if_pos (by rw [hshape]; rfl)]
  show (entriesAt order d.parts).flatten.toArray.size = _
  rw [List.size_toArray, length_flatten_of_uniform (length_of_mem_reordered hshape hsize),
    length_reordered horder hshape, hshape]
  rfl

/-- The parts of an array in another order. -/
theorem parts_reordered : (d.reordered order).parts = entriesAt order d.parts := by
  have hlength := length_reordered horder hshape
  have hdata : (d.reordered order).data = (entriesAt order d.parts).flatten.toArray := by
    unfold reordered
    rw [if_pos (by rw [hshape]; rfl)]
  refine List.ext_getElem ?_ fun i h1 h2 => ?_
  · rw [length_parts ((shape_reordered order d).trans hshape), hlength]
  · rw [getElem_parts, shape_reordered, hshape, List.tail_cons, hdata]
    exact extract_flatten_of_uniform (length_of_mem_reordered hshape hsize) h2

end Reordered

/-- An array in another order has the size of its shape. -/
theorem size_reordered (horder : order.Perm (List.range order.length))
    (hsize : d.data.size = size d.shape) : (d.reordered order).data.size = size d.shape := by
  by_cases hhead : d.shape.head? = some order.length
  · obtain ⟨rest, hshape⟩ := List.head?_eq_some_iff.mp hhead
    exact size_reordered_of_shape horder hshape hsize
  · unfold reordered
    rwa [if_neg hhead]

end Dense

/-! ## What is given -/

/-- The array with its parts in another order. -/
def Nested.reordered (order : List ℕ) (given : Nested β) : Nested β :=
  match Dense.ofNested? given with
  | some d => .block (d.reordered order)
  | none => given

/-- The same samples in another order. -/
def GivenSamples.reordered (order : List ℕ) (g : GivenSamples β) : GivenSamples β :=
  { g with
    positions := g.positions.reordered order
    values := g.values.reordered order
    weights := g.weights.map (Nested.reordered order) }

/-- The same samples in another order. -/
def Extended.reordered (order : List ℕ) (e : Extended β) : Extended β :=
  { e with samples := entriesAt order e.samples }

/-- The same samples in another order. -/
def Prepared.reordered (order : List ℕ) (data : Prepared β) : Prepared β :=
  { data with samples := entriesAt order data.samples }

theorem ofNested?_reordered (horder : order.Perm (List.range order.length)) (given : Nested β) :
    Dense.ofNested? (given.reordered order) =
      (Dense.ofNested? given).map (Dense.reordered order) := by
  unfold Nested.reordered
  cases hd : Dense.ofNested? given with
  | none => exact hd
  | some d =>
    have hsize := Dense.size_reordered horder (Dense.size_of_ofNested? given d hd)
    show Dense.ofNested? (.block (d.reordered order)) = some (d.reordered order)
    unfold Dense.ofNested?
    rw [if_pos (by rw [hsize, Dense.shape_reordered])]

/-- An array with two axes is read as the rows along the first one. -/
theorem SampleTable.ofNested?_of_shape (field : String) (columns : Option ℕ) {given : Nested β}
    {d : Dense β} (hd : Dense.ofNested? given = some d) {n m : ℕ} (hshape : d.shape = [n, m]) :
    SampleTable.ofNested? field columns given = .ok { columns := m, rows := d.parts } := by
  unfold SampleTable.ofNested?
  simp only [hd, require_some, ok_bind, hshape, Dense.rows?_eq_parts hshape]
  rfl

/-- The weights of samples in another order. -/
theorem weightRows?_reordered [Scalar β] (horder : order.Perm (List.range order.length))
    (channels : ℕ) (given : Option (Nested β)) :
    weightRows? order.length channels (given.map (Nested.reordered order)) =
      entriesAt order <$> weightRows? order.length channels given := by
  cases given with
  | none =>
    show Except.ok _ = Except.ok _
    rw [entriesAt_replicate horder]
  | some nested =>
    unfold weightRows?
    simp only [Option.map_some, ofNested?_reordered horder]
    cases hd : Dense.ofNested? nested with
    | none => rfl
    | some d =>
      have hsize := Dense.size_of_ofNested? nested d hd
      simp only [Option.map_some, require_some, ok_bind, Dense.shape_reordered]
      split
      · rename_i n hshape
        by_cases hn : n = order.length
        · subst hn
          have hentries : (d.reordered order).entries = entriesAt order d.entries := by
            have hparts := Dense.parts_reordered horder hshape hsize
            rw [Dense.parts_of_shape_one hshape (by rw [hsize, hshape]; simp [size]),
              Dense.parts_of_shape_one ((Dense.shape_reordered order d).trans hshape)
                (by rw [Dense.size_reordered horder hsize, hshape]; simp [size]),
              entriesAt_map] at hparts
            exact List.map_injective_iff.mpr List.singleton_injective hparts
          rw [if_pos rfl, if_pos rfl, hentries, map_pure, entriesAt_map]
        · rw [if_neg hn, if_neg hn]
          rfl
      · rename_i n m hshape
        by_cases hn : n = order.length ∧ m = channels
        · obtain ⟨rfl, rfl⟩ := hn
          rw [if_pos ⟨rfl, rfl⟩, if_pos ⟨rfl, rfl⟩, Dense.rows?_eq_parts hshape,
            Dense.rows?_eq_parts ((Dense.shape_reordered order d).trans hshape),
            Dense.parts_reordered horder hshape hsize]
          rfl
        · rw [if_neg hn, if_neg hn]
          rfl
      · rfl

/-- There are weights for every sample. -/
theorem length_weightRows? [Scalar β] {count channels : ℕ} {given : Option (Nested β)}
    {k : List (List β)} (h : weightRows? count channels given = .ok k) : k.length = count := by
  unfold weightRows? at h
  cases given with
  | none =>
    rw [pure_eq_ok] at h
    rw [← h, List.length_replicate]
  | some nested =>
    simp only [bind_eq_ok, require_eq_ok] at h
    obtain ⟨d, hd, h⟩ := h
    split at h
    · rename_i n hshape
      simp only [ite_throw_eq_ok, pure_eq_ok] at h
      obtain ⟨rfl, rfl⟩ := h
      rw [List.length_map, Dense.length_entries hd, hshape]
      simp [size]
    · rename_i n m hshape
      simp only [ite_throw_eq_ok, require_eq_ok] at h
      obtain ⟨⟨rfl, -⟩, hrows⟩ := h
      rw [Dense.rows?_eq_parts hshape, Option.some.injEq] at hrows
      rw [← hrows, Dense.length_parts hshape]
    · simp at h

theorem assemble_eq_zipWith (p v k : List (List β)) : assemble p v k =
    List.zipWith (fun q w => { position := q.1, values := q.2, weights := w, targets := q.2 })
      (p.zip v) k := by
  induction p generalizing v k with
  | nil => rfl
  | cons p ps ih =>
    cases v with
    | nil => rfl
    | cons v vs =>
      cases k with
      | nil => rfl
      | cons k ks => exact congrArg (_ :: ·) (ih vs ks)

end GridSpline
