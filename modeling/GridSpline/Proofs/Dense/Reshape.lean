import Mathlib.Data.List.Forall2
import GridSpline.Proofs.Dense.Broadcast
import GridSpline.Proofs.Lattice.Lines

/-!
# Reshaped arrays

An array is known by its shape and its entries at the indices within the shape. A new shape of the
same size keeps the entries in the order in which the first index runs fastest: index and place in
that order are the two forms of one numeral, and only the radices change. So the old shape gives the
old array back. Node data in the shape of the lattice have the coordinates of the node in place of
its number, and all further indices as they were.

## Main statements

* `nodeOf_append` — the number of an index in two parts.
* `Dense.ext_get?` — arrays of one shape with the same entries are the same.
* `Dense.exists_reshape?`, `Dense.reshape?_reshape?` — the entries in a new shape, and the way back.
* `Dense.exists_reshape?_append` — node data in the shape of the lattice.
-/

namespace GridSpline

/-! ## Indices in parts -/

namespace Lattice

variable {res rest c t : List ℕ} {i : ℕ}

theorem size_append (res rest : List ℕ) : size (res ++ rest) = size res * size rest := by
  induction res with
  | nil => rw [List.nil_append, size, Nat.one_mul]
  | cons r rs ih => rw [List.cons_append, size, size, ih, Nat.mul_assoc]

theorem size_reverse (res : List ℕ) : size res.reverse = size res := by
  induction res with
  | nil => rfl
  | cons r rs ih =>
    rw [List.reverse_cons, size_append, ih, size, size, size, Nat.mul_one, Nat.mul_comm]

theorem within_reverse (h : Within res c) : Within res.reverse c.reverse :=
  within_iff.mpr (List.forall₂_reverse_iff.mpr (within_iff.mp h))

theorem within_append (hc : Within res c) (ht : Within rest t) : Within (res ++ rest) (c ++ t) :=
  within_iff.mpr (List.rel_append (within_iff.mp hc) (within_iff.mp ht))

/-- The number of an index in two parts: the second part counts whole blocks of the first one. -/
theorem nodeOf_append (h : c.length = res.length) (rest t : List ℕ) :
    nodeOf (res ++ rest) (c ++ t) = nodeOf res c + size res * nodeOf rest t := by
  induction res generalizing c with
  | nil =>
    obtain rfl := List.length_eq_zero_iff.mp h
    rw [List.nil_append, List.nil_append, size, Nat.one_mul]
    exact (Nat.zero_add _).symm
  | cons r rs ih =>
    cases c with
    | nil => simp at h
    | cons x xs =>
      rw [List.cons_append, List.cons_append, nodeOf, nodeOf, ih (Nat.succ_injective h), size]
      ring

/-- A lattice with a node has nodes along every axis. -/
theorem pos_of_lt_size (h : i < size res) : ∀ r ∈ res, 0 < r := by
  induction res generalizing i with
  | nil => exact fun r hr => absurd hr List.not_mem_nil
  | cons s rs ih =>
    rw [size] at h
    intro r hr
    rcases List.mem_cons.mp hr with rfl | hr
    · exact Nat.pos_of_mul_pos_right (Nat.zero_lt_of_lt h)
    · exact ih (Nat.pos_of_mul_pos_left (Nat.zero_lt_of_lt h)) r hr

/-- A number below the number of nodes is that of a node, so its digits are coordinates. -/
theorem within_coordsOf_of_lt (h : i < size res) : Within res (coordsOf res i) :=
  within_coordsOf (pos_of_lt_size h) i

end Lattice

open GridSpline.Lattice

namespace Dense

variable {β : Type} {d e out : Dense β} {shape c : List ℕ}

/-! ## Entries -/

/-- There is an entry at every index within the shape. -/
theorem exists_get? (hdata : d.data.size = size d.shape) (hc : Within d.shape c) :
    ∃ b, d.get? c.reverse = some b := by
  have hlt : nodeOf d.shape.reverse c.reverse < d.data.size := by
    rw [hdata, ← size_reverse]
    exact nodeOf_lt_size (within_reverse hc)
  exact ⟨_, Array.getElem?_eq_getElem hlt⟩

/-- Arrays of one shape with the same entries are the same. -/
theorem ext_get? (hshape : d.shape = e.shape) (hd : d.data.size = size d.shape)
    (he : e.data.size = size e.shape)
    (h : ∀ c, Within d.shape c → d.get? c.reverse = e.get? c.reverse) : d = e := by
  have hdata : d.data = e.data := by
    refine Array.ext (by rw [hd, he, hshape]) fun k h1 h2 => ?_
    have hk : k < size d.shape.reverse := by rwa [size_reverse, ← hd]
    have hwithin := within_reverse (within_coordsOf_of_lt hk)
    rw [List.reverse_reverse] at hwithin
    have hentry := h _ hwithin
    unfold get? at hentry
    rw [List.reverse_reverse, ← hshape, nodeOf_coordsOf hk, Array.getElem?_eq_getElem h1,
      Array.getElem?_eq_getElem h2, Option.some.injEq] at hentry
    exact hentry
  cases d
  cases e
  simp_all

/-- An array can be made of entries that are found at every index within the shape. -/
theorem exists_ofIndices? {f : List ℕ → Option β}
    (h : ∀ c, Within shape c → ∃ b, f c.reverse = some b) :
    ∃ out, ofIndices? shape f = some out ∧ out.shape = shape ∧ out.data.size = size shape ∧
      ∀ c, Within shape c → out.get? c.reverse = f c.reverse := by
  have hfound : ∀ i ∈ List.range (size shape.reverse),
      ∃ b, f (coordsOf shape.reverse i) = some b := by
    intro i hi
    have hwithin := within_reverse (within_coordsOf_of_lt (List.mem_range.mp hi))
    rw [List.reverse_reverse] at hwithin
    obtain ⟨b, hb⟩ := h _ hwithin
    exact ⟨b, by rwa [List.reverse_reverse] at hb⟩
  obtain ⟨data, hdata⟩ := mapM_isSome_iff.mpr hfound
  have hall := forall₂_of_mapM hdata
  have hlen : data.length = size shape := by
    rw [← hall.length_eq, List.length_range, size_reverse]
  refine ⟨{ shape, data := data.toArray }, ?_, rfl, by rw [List.size_toArray, hlen], ?_⟩
  · unfold ofIndices?
    simp only [hdata]
    rfl
  · intro c hc
    have hlt := nodeOf_lt_size (within_reverse hc)
    have hget := hall.get (i := nodeOf shape.reverse c.reverse)
      (by rwa [List.length_range]) (by rw [hlen, ← size_reverse]; exact hlt)
    simp only [List.get_eq_getElem, List.getElem_range, coordsOf_nodeOf (within_reverse hc)] at hget
    rw [hget]
    unfold get?
    rw [List.getElem?_toArray, List.getElem?_eq_getElem]

/-! ## New shapes -/

/-- In a new shape of the same size an entry keeps its place in the order in which the first index
runs fastest. -/
theorem exists_reshape? (hdata : d.data.size = size d.shape) (hsize : size shape = size d.shape) :
    ∃ out, d.reshape? shape = some out ∧ out.shape = shape ∧ out.data.size = size shape ∧
      ∀ c, Within shape c →
        out.get? c.reverse = d.get? (coordsOf d.shape (nodeOf shape c)).reverse := by
  have hplace : ∀ c, Within shape c → Within d.shape (coordsOf d.shape (nodeOf shape c)) :=
    fun c hc => within_coordsOf_of_lt (hsize ▸ nodeOf_lt_size hc)
  unfold reshape?
  rw [if_pos hsize]
  have hfound : ∀ c, Within shape c →
      ∃ b, d.get? (coordsOf d.shape (nodeOf shape c.reverse.reverse)).reverse = some b := by
    intro c hc
    rw [List.reverse_reverse]
    exact exists_get? hdata (hplace c hc)
  obtain ⟨out, hout, hshape, hfull, hget⟩ := exists_ofIndices?
    (f := fun index => d.get? (coordsOf d.shape (nodeOf shape index.reverse)).reverse) hfound
  refine ⟨out, hout, hshape, hfull, fun c hc => ?_⟩
  rw [hget c hc, List.reverse_reverse]

/-- In its old shape the array is what it was. -/
theorem reshape?_reshape? (hdata : d.data.size = size d.shape) (h : d.reshape? shape = some out) :
    out.reshape? d.shape = some d := by
  have hsize : size shape = size d.shape := by
    unfold reshape? at h
    exact (Option.ite_none_right_eq_some.mp h).1
  obtain ⟨out', hout', rfl, hfull, hget⟩ := exists_reshape? hdata hsize
  obtain rfl := Option.some.inj (h.symm.trans hout')
  obtain ⟨back, hback, hshape, hfull', hget'⟩ := exists_reshape? hfull hsize.symm
  refine hback.trans (congrArg some (ext_get? hshape (hshape ▸ hfull') hdata fun c hc => ?_))
  rw [hshape] at hc
  have hwithin : Within out.shape (coordsOf out.shape (nodeOf d.shape c)) :=
    within_coordsOf_of_lt (hsize.symm ▸ nodeOf_lt_size hc)
  rw [hget' c hc, hget _ hwithin, nodeOf_coordsOf (hsize.symm ▸ nodeOf_lt_size hc),
    coordsOf_nodeOf hc]

/-- Node data in the shape of the lattice have the coordinates of a node in place of its number. -/
theorem exists_reshape?_append {res rest : List ℕ} (hshape : d.shape = size res :: rest)
    (hdata : d.data.size = size d.shape) :
    ∃ out, d.reshape? (res ++ rest) = some out ∧ out.shape = res ++ rest ∧
      out.data.size = size out.shape ∧ ∀ c t, Within res c → Within rest t →
        out.get? (c ++ t).reverse = d.get? (nodeOf res c :: t).reverse := by
  have hsize : size (res ++ rest) = size d.shape := by
    rw [hshape, size_append]
    rfl
  obtain ⟨out, hout, hshape', hfull, hget⟩ := exists_reshape? hdata hsize
  refine ⟨out, hout, hshape', hshape' ▸ hfull, fun c t hc ht => ?_⟩
  have hindex : Within (size res :: rest) (nodeOf res c :: t) := ⟨nodeOf_lt_size hc, ht⟩
  have hnumber : nodeOf (res ++ rest) (c ++ t) = nodeOf (size res :: rest) (nodeOf res c :: t) :=
    nodeOf_append (length_of_within hc) rest t
  rw [hget _ (within_append hc ht), hnumber, hshape, coordsOf_nodeOf hindex]

end Dense

end GridSpline
