import Mathlib
import GridSpline.Proofs.Sample.Written

/-!
# Deviations that were completed before

A run replaces the deviations by one entry for each channel. For as many channels these are
completed to themselves. For another number of channels they can be completed only if there is a
single one, and then they mean what the given ones meant.

## Main definitions

* `completedDeviation` — completed deviations as they are given to the next run.
* `GivenSamples.columns?` — the number of channels.

## Main statements

* `entriesOf?_completedDeviation` — completed deviations are completed to themselves.
* `entriesOf?_of_completedDeviation` — whatever they are completed to, the given ones are.
* `prepare_eq_of_deviation` — the checks read deviations only for the channels that there are.
-/

namespace GridSpline

open Scalar Failure
open GridSpline.Lattice

variable {α β : Type}

/-! ## Completing twice -/

/-- Completed deviations as they are given to the next run. -/
def completedDeviation (l : List β) : Option (Nested β) := some (.list (l.map .entry))

theorem foldl_append_scalar (l : List β) (acc : Array β) :
    (l.map Dense.scalar).foldl (fun acc e => acc ++ e.data) acc = acc ++ l.toArray := by
  induction l generalizing acc with
  | nil => exact (Array.append_empty).symm
  | cons b l ih =>
    rw [List.map_cons, List.foldl_cons, ih, Array.append_assoc]
    exact congrArg (acc ++ ·) (List.append_toArray [b] l)

theorem Dense.ofNestedList?_entry (l : List β) :
    Dense.ofNestedList? (l.map .entry) = some (l.map Dense.scalar) := by
  induction l with
  | nil => rfl
  | cons b l ih =>
    simp only [List.map_cons, ofNestedList?, ofNested?, ih]
    rfl

/-- A list of entries is read as a vector. -/
theorem Dense.ofNested?_entries (l : List β) :
    Dense.ofNested? (.list (l.map .entry)) = some (.vector l) := by
  unfold ofNested?
  rw [ofNestedList?_entry, Option.bind_some]
  cases l with
  | nil => rfl
  | cons b l =>
    have hshapes : ((l.map Dense.scalar).all fun d => decide (d.shape = (Dense.scalar b).shape)) =
        true := by
      simp [Dense.scalar]
    have hdata := foldl_append_scalar (b :: l) #[]
    rw [Array.empty_append] at hdata
    rw [List.map_cons] at hdata ⊢
    unfold stack?
    simp only [hshapes, if_true, hdata, List.length_cons, List.length_map]
    rfl

theorem entriesOf?_completedDeviation_eq (field : String) (count : ℤ) (default : β) (l : List β) :
    entriesOf? field count default (completedDeviation l) =
      entriesOf? field count default (some (.block (.vector l))) := by
  unfold completedDeviation entriesOf?
  simp only [Dense.ofNested?_entries, Dense.ofNested?_vector]

variable {field : String} {n m : ℕ} {default : β} {given : Option (Nested β)} {l l' : List β}

/-- Completed deviations are completed to themselves, for as many channels. -/
theorem entriesOf?_completedDeviation (h : entriesOf? field n default given = .ok l) :
    entriesOf? field n default (completedDeviation l) = .ok l := by
  rw [entriesOf?_completedDeviation_eq]
  exact entriesOf?_vector field default (length_entriesOf? h)

/-- What is completed to a single entry stands for as many as are needed. -/
theorem entriesOf?_of_singleton {b : β} (h : entriesOf? field (1 : ℕ) default given = .ok [b]) :
    entriesOf? field m default given = .ok (List.replicate m b) := by
  unfold entriesOf? at h ⊢
  cases given with
  | none =>
    simp only [repeated?_ofNat, Except.ok.injEq] at h ⊢
    rw [List.head_eq_of_cons_eq h]
  | some nested =>
    obtain ⟨d, hd, hentries⟩ := bind_eq_ok.mp h
    simp only [hd, ok_bind]
    split at hentries
    · simp only [repeated?_ofNat, Except.ok.injEq] at hentries ⊢
      rw [List.head_eq_of_cons_eq hentries]
    · rename_i hsingle
      obtain ⟨-, hsame⟩ := ite_throw_eq_ok.mp hentries
      exact absurd (pure_eq_ok.mp hsame) (hsingle b)

/-- Whatever completed deviations are completed to, for however many channels, the given ones are
completed to as well. -/
theorem entriesOf?_of_completedDeviation (h : entriesOf? field n default given = .ok l)
    (h' : entriesOf? field m default (completedDeviation l) = .ok l') :
    entriesOf? field m default given = .ok l' := by
  have hlength := length_entriesOf? h
  rw [entriesOf?_completedDeviation_eq] at h'
  obtain ⟨d, hd, hentries⟩ := bind_eq_ok.mp h'
  rw [Dense.ofNested?_vector, require_some, Except.ok.injEq] at hd
  subst hd
  split at hentries
  · rename_i b hb
    obtain rfl : l = [b] := hb
    obtain rfl : 1 = n := hlength
    rw [← hentries, repeated?_ofNat]
    exact entriesOf?_of_singleton h
  · obtain ⟨hm, hsame⟩ := ite_throw_eq_ok.mp hentries
    obtain rfl : l = l' := pure_eq_ok.mp hsame
    obtain rfl : n = m := hlength.symm.trans (Int.natCast_inj.mp hm)
    exact h

/-! ## Checks -/

variable [Scalar α] {g g' : GivenSamples α}

/-- The number of channels, if the values can be read. -/
def GivenSamples.columns? (g : GivenSamples α) : Option ℕ :=
  match SampleTable.ofNested? "values" none g.values with
  | .ok v => some v.columns
  | .error _ => none

theorem columns?_of_samples? {axes channels : ℕ} {samples : List (Sample α)}
    (h : g.samples? axes = .ok (channels, samples)) : g.columns? = some channels := by
  unfold GivenSamples.samples? at h
  simp only [bind_eq_ok, guard_eq_ok, pure_eq_ok, Prod.mk.injEq] at h
  obtain ⟨p, -, v, hv, -, -, -, k, -, -, rfl, -⟩ := h
  unfold GivenSamples.columns?
  rw [hv]

/-- Samples that pass the checks have channels, and a deviation was completed for each of them. -/
theorem exists_columns?_of_prepare {mode : Extend} {data : Prepared α} {notices : List (Notice α)}
    (h : g.prepare mode = .ok (data, notices)) : ∃ n : ℕ, g.columns? = some n ∧
      entriesOf? "avgdev" n defaultDeviation g.deviation = .ok data.deviation := by
  obtain ⟨e, -, hfinds, -, -, rfl, -⟩ := prepare_eq_ok_iff.mp h
  exact ⟨e.channels, columns?_of_samples? hfinds.samples, hfinds.deviation⟩

/-- The checks read deviations only for the channels that there are. -/
theorem extend?_eq_of_deviation {given : Option (Nested α)} (h : ∀ n : ℕ, g.columns? = some n →
      entriesOf? "avgdev" n defaultDeviation given =
        entriesOf? "avgdev" n defaultDeviation g.deviation) (mode : Extend) :
    ({ g with deviation := given } : GivenSamples α).extend? mode = g.extend? mode := by
  unfold GivenSamples.extend?
  refine bind_congr fun res => ?_
  change (g.samples? res.length >>= _) = (g.samples? res.length >>= _)
  cases hsamples : g.samples? res.length with
  | error e => rfl
  | ok q =>
    obtain ⟨channels, samples⟩ := q
    simp only [ok_bind, h channels (columns?_of_samples? hsamples)]

end GridSpline
