import Mathlib.Data.Nat.Notation
import GridSpline.Dense.Basic

/-!
# Components of an array

An array whose first axis belongs to the nodes of a lattice holds a vector for each index of the
axes after that one. The entries of a vector are spread over the data, one in every block, and a
block has one entry of each vector. So to take an array apart into such vectors and to put vectors
together are inverse to each other, as long as all vectors have the length of the first axis.

## Main statements

* `Dense.components?_ofComponents` — vectors that are put together can be taken out again.
* `Dense.ofComponents_of_components?` — an array consists of the vectors that are taken out of it.
-/

namespace GridSpline

open GridSpline.Lattice

variable {β γ : Type}

/-! ## Lists -/

/-- Where all blocks are of one length, the number of a block and the place in it tell where an
entry is. -/
theorem getElem?_flatMap_mul_add {f : γ → List β} {l : List γ} {m : ℕ}
    (h : ∀ a ∈ l, (f a).length = m) (i : ℕ) {c : ℕ} (hc : c < m) :
    (l.flatMap f)[i * m + c]? = l[i]?.bind fun a => (f a)[c]? := by
  induction l generalizing i with
  | nil => simp
  | cons a l ih =>
    have ha := h a List.mem_cons_self
    rw [List.flatMap_cons]
    cases i with
    | zero =>
      rw [Nat.zero_mul, Nat.zero_add, List.getElem?_append_left (by omega)]
      rfl
    | succ i =>
      rw [Nat.succ_mul, List.getElem?_append_right (by omega), ha,
        show i * m + m + c - m = i * m + c by omega, List.getElem?_cons_succ]
      exact ih (fun b hb => h b (List.mem_cons_of_mem a hb)) i

theorem length_flatMap_of_length {f : γ → List β} {l : List γ} {m : ℕ}
    (h : ∀ a ∈ l, (f a).length = m) : (l.flatMap f).length = l.length * m := by
  rw [List.length_flatMap, List.map_congr_left h, List.map_const',
    List.sum_replicate_nat]

/-- A choice that can be made for every entry skips none. -/
theorem getElem?_filterMap_of_isSome {f : γ → Option β} {l : List γ}
    (h : ∀ a ∈ l, (f a).isSome) (k : ℕ) : (l.filterMap f)[k]? = l[k]?.bind f := by
  induction l generalizing k with
  | nil => simp
  | cons a l ih =>
    obtain ⟨b, hb⟩ := Option.isSome_iff_exists.mp (h a List.mem_cons_self)
    rw [List.filterMap_cons_some hb]
    cases k with
    | zero => simp [hb]
    | succ k =>
      rw [List.getElem?_cons_succ, List.getElem?_cons_succ,
        ih fun c hc => h c (List.mem_cons_of_mem a hc)]

theorem length_filterMap_of_isSome {f : γ → Option β} {l : List γ}
    (h : ∀ a ∈ l, (f a).isSome) : (l.filterMap f).length = l.length := by
  rw [List.length_filterMap_eq_countP, List.countP_eq_length]
  exact h

namespace Dense

/-! ## Taking apart -/

section Components

variable {d : Dense β} {n : ℕ} {rest : List ℕ} {parts : List (Array β)}

/-- The position of an entry of a vector is within the data. -/
theorem mul_add_lt {m i c : ℕ} (hi : i < n) (hc : c < m) : i * m + c < n * m :=
  calc i * m + c < i * m + m := Nat.add_lt_add_left hc _
    _ = (i + 1) * m := (Nat.succ_mul i m).symm
    _ ≤ n * m := Nat.mul_le_mul_right m hi

/-- Every position within the data is that of an entry of a vector. -/
theorem exists_mul_add {k m : ℕ} (h : k < n * m) : ∃ i < n, ∃ c < m, k = i * m + c := by
  have hm : 0 < m := Nat.pos_of_mul_pos_left (Nat.zero_lt_of_lt h)
  exact ⟨k / m, Nat.div_lt_of_lt_mul (Nat.mul_comm n m ▸ h), k % m, Nat.mod_lt k hm,
    (Nat.div_add_mod' k m).symm⟩

variable (hshape : d.shape = n :: rest)

include hshape

theorem components?_eq : d.components? = some ((List.range (size rest)).map fun c =>
    ((List.range n).filterMap fun i => d.data[i * size rest + c]?).toArray) := by
  unfold components?
  rw [hshape]

variable (hdata : d.data.size = size d.shape) (h : d.components? = some parts)

include h in
/-- There is a vector for each index of the axes after the first one. -/
theorem length_of_components? : parts.length = size rest := by
  rw [components?_eq hshape] at h
  rw [← Option.some.inj h, List.length_map, List.length_range]

include hdata h

/-- A vector has the entries along the first axis. -/
theorem getElem?_of_components? {c : ℕ} (hc : c < size rest) : ∃ part, parts[c]? = some part ∧
    part.size = n ∧ ∀ i < n, part[i]? = d.data[i * size rest + c]? := by
  rw [hshape, size] at hdata
  rw [components?_eq hshape] at h
  have hfound : ∀ i ∈ List.range n, (d.data[i * size rest + c]?).isSome := by
    intro i hi
    rw [Array.getElem?_eq_getElem (hdata ▸ mul_add_lt (List.mem_range.mp hi) hc)]
    rfl
  obtain rfl := Option.some.inj h
  refine ⟨((List.range n).filterMap fun i => d.data[i * size rest + c]?).toArray, ?_, ?_, ?_⟩
  · rw [List.getElem?_map, List.getElem?_range hc, Option.map_some]
  · rw [List.size_toArray, length_filterMap_of_isSome hfound, List.length_range]
  · intro i hi
    rw [List.getElem?_toArray, getElem?_filterMap_of_isSome hfound, List.getElem?_range hi,
      Option.bind_some]

theorem size_of_mem_components? : ∀ part ∈ parts, part.size = n := by
  intro part hpart
  obtain ⟨c, hc, rfl⟩ := List.mem_iff_getElem.mp hpart
  obtain ⟨p, hp, hsize, -⟩ :=
    getElem?_of_components? hshape hdata h (length_of_components? hshape h ▸ hc)
  rw [List.getElem?_eq_getElem hc, Option.some.injEq] at hp
  rw [hp, hsize]

end Components

/-! ## Putting together -/

section OfComponents

variable {n : ℕ} (rest : List ℕ) {parts : List (Array β)} (h : ∀ part ∈ parts, part.size = n)

include h

theorem isSome_getElem?_of_size {i : ℕ} (hi : i ∈ List.range n) :
    ∀ part ∈ parts, (part[i]?).isSome := by
  intro part hpart
  rw [Array.getElem?_eq_getElem ((h part hpart).symm ▸ List.mem_range.mp hi)]
  rfl

theorem size_data_ofComponents : (ofComponents n rest parts).data.size = n * parts.length := by
  unfold ofComponents
  rw [List.size_toArray, length_flatMap_of_length fun i hi =>
    length_filterMap_of_isSome (isSome_getElem?_of_size h hi), List.length_range]

/-- A block of the data has one entry of each vector. -/
theorem getElem?_data_ofComponents {i c : ℕ} (hi : i < n) (hc : c < parts.length) :
    (ofComponents n rest parts).data[i * parts.length + c]? = parts[c]?.bind (·[i]?) := by
  unfold ofComponents
  rw [List.getElem?_toArray, getElem?_flatMap_mul_add (fun i hi =>
    length_filterMap_of_isSome (isSome_getElem?_of_size h hi)) i hc, List.getElem?_range hi,
    Option.bind_some, getElem?_filterMap_of_isSome
      (isSome_getElem?_of_size h (List.mem_range.mpr hi))]

variable {rest} (hlen : parts.length = size rest)

include hlen

theorem size_ofComponents :
    (ofComponents n rest parts).data.size = size (ofComponents n rest parts).shape := by
  rw [size_data_ofComponents rest h, hlen]
  rfl

/-- Vectors that are put together can be taken out again. -/
theorem components?_ofComponents : (ofComponents n rest parts).components? = some parts := by
  obtain ⟨parts', hparts'⟩ : ∃ parts', (ofComponents n rest parts).components? = some parts' :=
    ⟨_, components?_eq rfl⟩
  have hlen' := length_of_components? rfl hparts'
  rw [hparts']
  refine congrArg some (List.ext_getElem (hlen'.trans hlen.symm) fun c h1 h2 => ?_)
  obtain ⟨part, hpart, hsize, hentry⟩ :=
    getElem?_of_components? rfl (size_ofComponents h hlen) hparts' (hlen' ▸ h1)
  rw [List.getElem?_eq_getElem h1, Option.some.injEq] at hpart
  rw [hpart]
  refine Array.ext (hsize.trans (h _ (List.getElem_mem h2)).symm) fun i hi1 hi2 => ?_
  have hi : i < n := hsize ▸ hi1
  have hblock := getElem?_data_ofComponents rest h hi h2
  rw [hlen, ← hentry i hi, List.getElem?_eq_getElem h2, Option.bind_some,
    Array.getElem?_eq_getElem hi1, Array.getElem?_eq_getElem hi2, Option.some.injEq] at hblock
  exact hblock

end OfComponents

/-- An array consists of the vectors that are taken out of it. -/
theorem ofComponents_of_components? {d : Dense β} {n : ℕ} {rest : List ℕ} {parts : List (Array β)}
    (hshape : d.shape = n :: rest) (hdata : d.data.size = size d.shape)
    (h : d.components? = some parts) : ofComponents n rest parts = d := by
  have hlen := length_of_components? hshape h
  have hsizes := size_of_mem_components? hshape hdata h
  have hentries : (ofComponents n rest parts).data = d.data := by
    have hsize := size_ofComponents hsizes hlen
    refine Array.ext (by rw [hsize, hdata, hshape]; rfl) fun k h1 h2 => ?_
    rw [hdata, hshape, size] at h2
    obtain ⟨i, hi, c, hc, rfl⟩ := exists_mul_add h2
    obtain ⟨part, hpart, -, hentry⟩ := getElem?_of_components? hshape hdata h hc
    have hblock := getElem?_data_ofComponents rest hsizes hi (hlen ▸ hc)
    rw [hlen, hpart, Option.bind_some, hentry i hi] at hblock
    rwa [Array.getElem?_eq_getElem h1, Array.getElem?_eq_getElem, Option.some.injEq] at hblock
  obtain ⟨shape, data⟩ := d
  simp only at hshape hentries
  rw [hshape, ← hentries]
  rfl

end Dense

end GridSpline
