import Mathlib
import GridSpline.Proofs.Order.Rows

/-!
# Incomplete rows

A row of samples in which some position, value or weight is no number is dropped before anything
else looks at it, whatever else stands in it. So samples with such a row pass the same checks, and
are completed to the same, as they are without it.

## Main definitions

* `Dense.AddsPart` — one more part of an array along its first axis.
* `GivenSamples.AddsRow` — one more row of samples, in which something is no number.

## Main statements

* `samples?_eq_of_addsRow` — what is read of samples with one more such row.
* `extend?_eq_of_addsRow` — the domain that is found of them.
-/

namespace GridSpline

open Scalar Failure
open GridSpline.Lattice

variable {β : Type}

/-! ## Lists -/

section Lists

variable {γ δ : Type} {i : ℕ}

theorem zipWith_insertIdx (f : β → γ → δ) {l : List β} {l' : List γ} (h : i ≤ l.length)
    (h' : i ≤ l'.length) (b : β) (c : γ) :
    List.zipWith f (l.insertIdx i b) (l'.insertIdx i c) =
      (List.zipWith f l l').insertIdx i (f b c) := by
  induction i generalizing l l' with
  | zero => rfl
  | succ i ih =>
    cases l with
    | nil => exact absurd h (Nat.not_succ_le_zero i)
    | cons a l =>
      cases l' with
      | nil => exact absurd h' (Nat.not_succ_le_zero i)
      | cons a' l' =>
        simp only [List.insertIdx_succ_cons, List.zipWith_cons_cons,
          ih (Nat.le_of_succ_le_succ h) (Nat.le_of_succ_le_succ h')]

/-- An entry that is dropped leaves no trace. -/
theorem filter_insertIdx_of_neg {p : β → Bool} {b : β} (hb : p b = false) (i : ℕ) (l : List β) :
    (l.insertIdx i b).filter p = l.filter p := by
  induction i generalizing l with
  | zero => rw [List.insertIdx_zero, List.filter_cons_of_neg (by rw [hb]; exact Bool.false_ne_true)]
  | succ i ih =>
    cases l with
    | nil => rw [List.insertIdx_succ_nil]
    | cons a l => rw [List.insertIdx_succ_cons, List.filter_cons, List.filter_cons, ih]

theorem replicate_insertIdx {n : ℕ} (h : i ≤ n) (b : β) :
    (List.replicate n b).insertIdx i b = List.replicate (n + 1) b := by
  have hperm := List.perm_insertIdx b (List.replicate n b) (i := i) (by rwa [List.length_replicate])
  exact List.perm_replicate.mp (List.replicate_succ ▸ hperm)

end Lists

/-- The samples that are made of rows with one more. -/
theorem assemble_insertIdx {p v k : List (List β)} {i : ℕ} (hp : i ≤ p.length) (hv : i ≤ v.length)
    (hk : i ≤ k.length) (position values weights : List β) :
    assemble (p.insertIdx i position) (v.insertIdx i values) (k.insertIdx i weights) =
      (assemble p v k).insertIdx i { position, values, weights, targets := values } := by
  have hzip : i ≤ (p.zip v).length := by
    rw [List.length_zip]
    exact le_min hp hv
  rw [assemble_eq_zipWith, assemble_eq_zipWith, List.zip, zipWith_insertIdx _ hp hv]
  exact zipWith_insertIdx _ hzip hk _ _

/-! ## Arrays with one more part -/

/-- An array with one more part along its first axis. -/
structure Dense.AddsPart (i : ℕ) (part : List β) (d d' : Dense β) : Prop where
  shape : ∃ n rest, d.shape = n :: rest ∧ d'.shape = (n + 1) :: rest
  parts : d'.parts = d.parts.insertIdx i part

/-- A written array with so many axes, and the same with one more part along the first one. -/
def Nested.AddsPart (axes i : ℕ) (part : List β) (given given' : Nested β) : Prop :=
  ∃ d d', Dense.ofNested? given = some d ∧ Dense.ofNested? given' = some d' ∧ d.rank = axes ∧
    d.AddsPart i part d'

/-- The place of the part lies in the array. -/
theorem Dense.AddsPart.le_length {i : ℕ} {part : List β} {d d' : Dense β}
    (h : d.AddsPart i part d') : i ≤ d.parts.length := by
  obtain ⟨n, rest, hshape, hshape'⟩ := h.shape
  by_contra hlt
  have hlength := congrArg List.length h.parts
  rw [List.length_insertIdx, if_neg hlt, length_parts hshape, length_parts hshape'] at hlength
  exact Nat.succ_ne_self n hlength

theorem Nested.AddsPart.exists_shape_two {i : ℕ} {part : List β} {given given' : Nested β}
    (h : given.AddsPart 2 i part given') : ∃ d d' n m, Dense.ofNested? given = some d ∧
      Dense.ofNested? given' = some d' ∧ d.shape = [n, m] ∧ d'.shape = [n + 1, m] ∧
      d.AddsPart i part d' := by
  obtain ⟨d, d', hd, hd', hrank, hadds⟩ := h
  obtain ⟨n, rest, hshape, hshape'⟩ := hadds.shape
  have hrest : rest.length = 1 := by
    rw [Dense.rank, hshape, List.length_cons] at hrank
    exact Nat.succ_injective hrank
  obtain ⟨m, rfl⟩ := List.length_eq_one_iff.mp hrest
  exact ⟨d, d', n, m, hd, hd', hshape, hshape', hadds⟩

theorem Nested.AddsPart.exists_shape_one {i : ℕ} {part : List β} {given given' : Nested β}
    (h : given.AddsPart 1 i part given') : ∃ d d' n, Dense.ofNested? given = some d ∧
      Dense.ofNested? given' = some d' ∧ d.shape = [n] ∧ d'.shape = [n + 1] ∧
      d.AddsPart i part d' := by
  obtain ⟨d, d', hd, hd', hrank, hadds⟩ := h
  obtain ⟨n, rest, hshape, hshape'⟩ := hadds.shape
  have hrest : rest = [] := by
    rw [Dense.rank, hshape, List.length_cons] at hrank
    exact List.length_eq_zero_iff.mp (Nat.succ_injective hrank)
  subst hrest
  exact ⟨d, d', n, hd, hd', hshape, hshape', hadds⟩

/-- A row that is added to a table. -/
theorem Nested.addsPart_table {m i : ℕ} {rows : List (List β)} {row : List β}
    (hrows : ∀ r ∈ rows, r.length = m) (hrow : row.length = m) (hi : i ≤ rows.length) :
    (Nested.block (.table m rows)).AddsPart 2 i row (.block (.table m (rows.insertIdx i row))) := by
  have hall : ∀ r ∈ rows.insertIdx i row, r.length = m := by
    intro r hr
    rcases List.eq_or_mem_of_mem_insertIdx hr with rfl | hr
    · exact hrow
    · exact hrows r hr
  have hparts : ∀ {l : List (List β)}, (∀ r ∈ l, r.length = m) → (Dense.table m l).parts = l :=
    fun hl => Option.some.inj ((Dense.rows?_eq_parts rfl).symm.trans (Dense.rows?_table hl))
  refine ⟨_, _, Dense.ofNested?_table hrows, Dense.ofNested?_table hall, rfl,
    ⟨rows.length, [m], rfl, ?_⟩, by rw [hparts hrows, hparts hall]⟩
  show [(rows.insertIdx i row).length, m] = _
  rw [List.length_insertIdx_of_le_length hi]

/-- An entry that is added to a vector. -/
theorem Nested.addsPart_vector {i : ℕ} {l : List β} (hi : i ≤ l.length) (b : β) :
    (Nested.block (.vector l)).AddsPart 1 i [b] (.block (.vector (l.insertIdx i b))) := by
  have hparts : ∀ l : List β, (Dense.vector l).parts = l.map ([·]) := fun l =>
    Dense.parts_of_shape_one rfl rfl
  refine ⟨_, _, Dense.ofNested?_vector l, Dense.ofNested?_vector _, rfl,
    ⟨l.length, [], rfl, ?_⟩, by rw [hparts, hparts, List.map_insertIdx]⟩
  show [(l.insertIdx i b).length] = _
  rw [List.length_insertIdx_of_le_length hi]

/-! ## Weights with one more row -/

/-- Weights that are missing, or one more of them: a weight, or a row of them. -/
inductive AddsWeights (i : ℕ) : List β → Option (Nested β) → Option (Nested β) → Prop where
  | missing : AddsWeights i [] none none
  | ofSample {w : β} {given given' : Nested β} (h : given.AddsPart 1 i [w] given') :
    AddsWeights i [w] (some given) (some given')
  | ofChannels {row : List β} {given given' : Nested β} (h : given.AddsPart 2 i row given') :
    AddsWeights i row (some given) (some given')

variable [Scalar β]

/-- What is read of weights with one more row. -/
theorem exists_weightRows?_insertIdx {i count channels : ℕ} {weights : List β}
    {given given' : Option (Nested β)} (h : AddsWeights i weights given given') (hi : i ≤ count)
    (hchannels : 0 < channels) : ∃ row, weights ⊆ row ∧
      weightRows? (count + 1) channels given' =
        (·.insertIdx i row) <$> weightRows? count channels given := by
  cases h with
  | missing =>
    refine ⟨List.replicate channels 1, List.nil_subset _, ?_⟩
    exact congrArg Except.ok (replicate_insertIdx hi _).symm
  | ofSample h =>
    rename_i w given given'
    obtain ⟨d, d', n, hd, hd', hshape, hshape', hadds⟩ := h.exists_shape_one
    have hentries : d'.entries = d.entries.insertIdx i w := by
      have hparts := hadds.parts
      rw [Dense.parts_of_shape_one hshape (by
          rw [Dense.size_of_ofNested? _ _ hd, hshape, size, size, mul_one]),
        Dense.parts_of_shape_one hshape' (by
          rw [Dense.size_of_ofNested? _ _ hd', hshape', size, size, mul_one]),
        ← List.map_insertIdx] at hparts
      exact List.map_injective_iff.mpr List.singleton_injective hparts
    refine ⟨List.replicate channels w, fun x hx => ?_, ?_⟩
    · rw [List.mem_singleton.mp hx]
      exact List.mem_replicate.mpr ⟨hchannels.ne', rfl⟩
    · unfold weightRows?
      simp only [hd, hd', require_some, ok_bind, hshape, hshape', Nat.succ_inj]
      by_cases hn : n = count
      · rw [if_pos hn, if_pos hn, hentries, List.map_insertIdx]
        rfl
      · rw [if_neg hn, if_neg hn]
        rfl
  | ofChannels h =>
    obtain ⟨d, d', n, m, hd, hd', hshape, hshape', hadds⟩ := h.exists_shape_two
    refine ⟨weights, List.Subset.refl weights, ?_⟩
    unfold weightRows?
    simp only [hd, hd', require_some, ok_bind, hshape, hshape', Nat.succ_inj]
    by_cases hn : n = count ∧ m = channels
    · rw [if_pos hn, if_pos hn, Dense.rows?_eq_parts hshape, Dense.rows?_eq_parts hshape',
        hadds.parts]
      rfl
    · rw [if_neg hn, if_neg hn]
      rfl

/-! ## Samples with one more row -/

/-- The same samples with one more row, in which some entry is no number. -/
structure GivenSamples.AddsRowAt (i : ℕ) (p v k : List β) (g g' : GivenSamples β) : Prop where
  positions : g.positions.AddsPart 2 i p g'.positions
  values : g.values.AddsPart 2 i v g'.values
  weights : AddsWeights i k g.weights g'.weights
  incomplete : ∃ x ∈ p ++ (v ++ k), ¬IsNumber x
  others : g' = { g with
    positions := g'.positions, values := g'.values, weights := g'.weights }

/-- The same samples with one more row, anywhere, in which some entry is no number. -/
def GivenSamples.AddsRow (g g' : GivenSamples β) : Prop :=
  ∃ i p v k, g.AddsRowAt i p v k g'

variable {g g' : GivenSamples β}

/-- A sample in which some entry is no number is dropped. -/
theorem not_isComplete {s : Sample β} {x : β} (hx : ¬IsNumber x)
    (h : x ∈ s.position ∨ x ∈ s.values ∨ x ∈ s.weights) : ¬s.IsComplete := by
  rintro ⟨hposition, hvalues, hweights⟩
  rcases h with h | h | h
  · exact hx (hposition x h)
  · exact hx (hvalues x h)
  · exact hx (hweights x h)

theorem filter_insertIdx_of_not_isComplete {s : Sample β} (hs : ¬s.IsComplete) (i : ℕ)
    (l : List (Sample β)) : ((l.insertIdx i s).filter fun s => decide s.IsComplete) =
      l.filter fun s => decide s.IsComplete :=
  filter_insertIdx_of_neg (b := s) (decide_eq_false hs) i l

/-- What is read of samples with one more row in which some entry is no number. -/
theorem samples?_eq_of_addsRow (h : g.AddsRow g') (axes : ℕ) :
    g'.samples? axes = g.samples? axes := by
  obtain ⟨i, position, values, weights, h⟩ := h
  obtain ⟨p, p', n, m, hp, hp', hpshape, hpshape', hpadds⟩ := h.positions.exists_shape_two
  obtain ⟨v, v', n', k, hv, hv', hvshape, hvshape', hvadds⟩ := h.values.exists_shape_two
  unfold GivenSamples.samples?
  rw [SampleTable.ofNested?_of_shape _ _ hp hpshape, SampleTable.ofNested?_of_shape _ _ hv hvshape,
    SampleTable.ofNested?_of_shape _ _ hp' hpshape',
    SampleTable.ofNested?_of_shape _ _ hv' hvshape']
  simp only [ok_bind, Dense.length_parts hpshape, Dense.length_parts hvshape,
    Dense.length_parts hpshape', Dense.length_parts hvshape', ne_eq, Nat.succ_inj]
  refine guard_congr fun hchannels => guard_congr fun _ => guard_congr fun hcount => ?_
  obtain rfl := not_not.mp hcount
  have hi : i ≤ n := Dense.length_parts hpshape ▸ hpadds.le_length
  obtain ⟨row, hrow, hrows⟩ := exists_weightRows?_insertIdx h.weights hi
    (not_lt.mp (not_or.mp hchannels).1)
  show (weightRows? (n + 1) k g'.weights >>= _) = (weightRows? n k g.weights >>= _)
  rw [hrows]
  cases hk : weightRows? n k g.weights with
  | error e => rfl
  | ok w =>
    have hw : i ≤ w.length := (length_weightRows? hk).symm ▸ hi
    have hdrop : ¬Sample.IsComplete
        { position, values, weights := row, targets := values : Sample β } := by
      obtain ⟨x, hx, hnumber⟩ := h.incomplete
      refine not_isComplete hnumber ?_
      rcases List.mem_append.mp hx with hx | hx
      · exact Or.inl hx
      · exact Or.inr ((List.mem_append.mp hx).imp_right fun hx => hrow hx)
    rw [map_ok, ok_bind, ok_bind, hpadds.parts, hvadds.parts,
      assemble_insertIdx hpadds.le_length hvadds.le_length hw,
      filter_insertIdx_of_not_isComplete hdrop]

/-! ## Checks -/

/-- The domain that is found of samples with one more row in which some entry is no number. -/
theorem extend?_eq_of_addsRow (h : g.AddsRow g') (mode : Extend) :
    g'.extend? mode = g.extend? mode := by
  have hsamples := samples?_eq_of_addsRow h
  obtain ⟨i, position, values, weights, h⟩ := h
  unfold GivenSamples.extend?
  simp only [hsamples]
  rw [h.others]

/-- Nothing that is given for the axes and channels changes with a row. -/
theorem given_eq_of_addsRow (h : g.AddsRow g') :
    g'.deviation = g.deviation ∧ g'.spacing = g.spacing := by
  obtain ⟨i, position, values, weights, h⟩ := h
  rw [h.others]
  exact ⟨rfl, rfl⟩

end GridSpline
