import Mathlib.Tactic.Ring
import GridSpline.Proofs.Result
import GridSpline.Sample.Prepared

/-!
# Shapes of what is read

An array that was read has as many entries as its shape says. So the rows of a table have one
length, and quantities given per axis or channel have one entry for each of them.

## Main statements

* `size_of_ofNested?` — an array that was read has the size of its shape.
* `length_row_ofNested?` — the rows of a table have the length of the table.
* `length_weightRow` — there is a weight for every channel.
* `length_entriesOf?` — there is an entry for every axis or channel.
-/

namespace GridSpline

open Failure
open GridSpline.Lattice

variable {β : Type}

namespace Dense

theorem size_foldl_append (l : List (Dense β)) (acc : Array β) {n : ℕ}
    (h : ∀ d ∈ l, d.data.size = n) :
    (l.foldl (fun acc e => acc ++ e.data) acc).size = acc.size + l.length * n := by
  induction l generalizing acc with
  | nil => simp
  | cons d l ih =>
    rw [List.foldl_cons, ih _ fun e he => h e (List.mem_cons_of_mem d he), Array.size_append,
      h d List.mem_cons_self, List.length_cons]
    ring

/-- Stacking arrays of the right size gives one. -/
theorem size_of_stack? {l : List (Dense β)} {d : Dense β} (h : stack? l = some d)
    (hl : ∀ e ∈ l, e.data.size = size e.shape) : d.data.size = size d.shape := by
  cases l with
  | nil =>
    simp only [stack?, Option.some.injEq] at h
    subst h
    simp [size]
  | cons e es =>
    simp only [stack?, Option.ite_none_right_eq_some, Option.some.injEq, List.all_eq_true,
      decide_eq_true_eq] at h
    obtain ⟨hshape, rfl⟩ := h
    have hsize : ∀ f ∈ e :: es, f.data.size = size e.shape := by
      intro f hf
      rcases List.mem_cons.mp hf with rfl | hmem
      · exact hl f hf
      · rw [hl f hf, hshape f hmem]
    simp only
    rw [size_foldl_append _ _ hsize, size]
    simp

mutual

/-- An array that was read has the size of its shape. -/
theorem size_of_ofNested? : ∀ (n : Nested β) (d : Dense β), ofNested? n = some d →
    d.data.size = size d.shape
  | .entry b, d, h => by
    simp only [ofNested?, Option.some.injEq] at h
    subst h
    rfl
  | .list l, d, h => by
    simp only [ofNested?, Option.bind_eq_some_iff] at h
    obtain ⟨ds, hds, hd⟩ := h
    exact size_of_stack? hd (size_of_ofNestedList? l ds hds)
  | .block e, d, h => by
    simp only [ofNested?, Option.ite_none_right_eq_some, Option.some.injEq] at h
    obtain ⟨hsize, rfl⟩ := h
    exact hsize

theorem size_of_ofNestedList? : ∀ (l : List (Nested β)) (ds : List (Dense β)),
    ofNestedList? l = some ds → ∀ d ∈ ds, d.data.size = size d.shape
  | [], ds, h => by
    simp only [ofNestedList?, Option.some.injEq] at h
    subst h
    exact fun d hd => absurd hd List.not_mem_nil
  | n :: ns, ds, h => by
    simp only [ofNestedList?, Option.bind_eq_bind, Option.bind_eq_some_iff, Option.pure_def,
      Option.some.injEq] at h
    obtain ⟨d, hd, es, hes, rfl⟩ := h
    intro f hf
    rcases List.mem_cons.mp hf with rfl | hf
    · exact size_of_ofNested? n f hd
    · exact size_of_ofNestedList? ns es hes f hf

end

theorem length_entries {n : Nested β} {d : Dense β} (h : ofNested? n = some d) :
    d.entries.length = size d.shape := by
  rw [entries, Array.length_toList, size_of_ofNested? n d h]

/-- The rows of a table have the length of its second axis. -/
theorem length_of_mem_rows? {d : Dense β} {n m : ℕ} (hshape : d.shape = [n, m])
    (hsize : d.data.size = size d.shape) {rows : List (List β)} (h : d.rows? = some rows)
    {r : List β} (hr : r ∈ rows) : r.length = m := by
  unfold rows? at h
  rw [hshape] at h
  simp only [Option.some.injEq] at h
  subst h
  obtain ⟨i, hi, rfl⟩ := List.mem_map.mp hr
  have hin : i * m + m ≤ d.data.size := by
    rw [hsize, hshape]
    simp only [size, mul_one]
    calc i * m + m = (i + 1) * m := by ring
      _ ≤ n * m := Nat.mul_le_mul_right m (List.mem_range.mp hi)
  rw [Array.length_toList, Array.size_extract]
  omega

end Dense

variable {α : Type}

/-- The rows of a table have the length of the table. -/
theorem length_row_ofNested? {field : String} {columns : Option ℕ} {given : Nested α}
    {t : SampleTable α} (h : SampleTable.ofNested? field columns given = .ok t) :
    ∀ r ∈ t.rows, r.length = t.columns := by
  unfold SampleTable.ofNested? at h
  rw [bind_eq_ok] at h
  obtain ⟨d, hd, h⟩ := h
  rw [require_eq_ok] at hd
  have hsize := Dense.size_of_ofNested? given d hd
  intro r hr
  split at h
  · rename_i n hshape
    split at h
    · simp only [pure_eq_ok] at h
      subst h
      rw [List.mem_singleton.mp hr, Dense.length_entries hd, hshape]
      simp [size]
    · simp only [pure_eq_ok] at h
      subst h
      obtain ⟨x, -, rfl⟩ := List.mem_map.mp hr
      rfl
  · rename_i n m hshape
    simp only [bind_eq_ok, require_eq_ok, pure_eq_ok] at h
    obtain ⟨rows, hrows, rfl⟩ := h
    exact Dense.length_of_mem_rows? hshape hsize hrows hr
  · simp at h

/-- There is an entry for every axis or channel. -/
theorem length_entriesOf? {field : String} {count : ℕ} {default : α} {given : Option (Nested α)}
    {l : List α} (h : entriesOf? field count default given = .ok l) : l.length = count := by
  have hrepeated : ∀ x : α, repeated? (α := α) (count : ℤ) x = .ok (List.replicate count x) := by
    intro x
    rfl
  unfold entriesOf? at h
  cases given with
  | none =>
    rw [hrepeated, Except.ok.injEq] at h
    rw [← h, List.length_replicate]
  | some nested =>
    simp only [bind_eq_ok, require_eq_ok] at h
    obtain ⟨d, -, h⟩ := h
    split at h
    · rw [hrepeated, Except.ok.injEq] at h
      rw [← h, List.length_replicate]
    · split at h
      · rename_i hlen
        rw [pure_eq_ok] at h
        rw [← h]
        exact_mod_cast hlen
      · simp at h

variable [Scalar α]

/-- There is a weight for every channel. -/
theorem length_weightRow {count channels : ℕ} {given : Option (Nested α)} {k : List (List α)}
    (h : weightRows? count channels given = .ok k) : ∀ r ∈ k, r.length = channels := by
  intro r hr
  unfold weightRows? at h
  cases given with
  | none =>
    simp only [pure_eq_ok] at h
    subst h
    rw [List.eq_of_mem_replicate hr, List.length_replicate]
  | some nested =>
    simp only [bind_eq_ok, require_eq_ok] at h
    obtain ⟨d, hd, h⟩ := h
    have hsize := Dense.size_of_ofNested? nested d hd
    split at h
    · split at h
      · simp only [pure_eq_ok] at h
        subst h
        obtain ⟨x, -, rfl⟩ := List.mem_map.mp hr
        rw [List.length_replicate]
      · simp at h
    · rename_i n m hshape
      split at h
      · rename_i hnm
        rw [require_eq_ok] at h
        rw [Dense.length_of_mem_rows? hshape hsize h hr, hnm.2]
      · simp at h
    · simp at h

end GridSpline
