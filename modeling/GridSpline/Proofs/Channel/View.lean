import Mathlib
import GridSpline.Fit.Run
import GridSpline.Proofs.Fit.Frame
import GridSpline.Proofs.Result

/-!
# One channel of a fit

What a fit holds of one channel is, again, what a fit with a single channel holds. Everything that
has an entry for each channel keeps the entry of that channel only; what the channels share stays.

## Main definitions

* `onlyEntry` — the entry at a place as a list of its own.
* `Sample.onChannel`, `Prepared.onChannel`, `Settings.onChannel` — one channel of what a fit holds.
* `Fit.IsChannelOf` — a fit of a single channel that stands where a fit of several ones stands in
  that channel.

## Main statements

* `Prepared.KeepsTargets.onChannel_eq` — a channel does not see what another one changes.
* `IsChannelOf.of_grows` — nor does a fit of the channel alone.
-/

namespace GridSpline

open Scalar Failure

variable {α β γ δ : Type}

/-! ## Entries -/

/-- The entry at a place as a list of its own; nothing if there is none. -/
def onlyEntry (c : ℕ) (l : List β) : List β := l[c]?.toList

theorem onlyEntry_of_lt {c : ℕ} {l : List β} (h : c < l.length) : onlyEntry c l = [l[c]] := by
  unfold onlyEntry
  rw [List.getElem?_eq_getElem h, Option.toList_some]

theorem onlyEntry_replicate {c n : ℕ} (h : c < n) (b : β) :
    onlyEntry c (List.replicate n b) = [b] := by
  rw [onlyEntry_of_lt (by rwa [List.length_replicate]), List.getElem_replicate]

theorem mem_of_mem_onlyEntry {c : ℕ} {l : List β} {b : β} (h : b ∈ onlyEntry c l) : b ∈ l :=
  List.mem_of_getElem? (Option.mem_toList.mp h)

theorem onlyEntry_map (f : β → γ) (c : ℕ) (l : List β) :
    onlyEntry c (l.map f) = (onlyEntry c l).map f := by
  unfold onlyEntry
  rw [List.getElem?_map]
  cases l[c]? <;> rfl

theorem onlyEntry_zipWith (f : β → γ → δ) (c : ℕ) (l : List β) (l' : List γ) :
    onlyEntry c (List.zipWith f l l') = List.zipWith f (onlyEntry c l) (onlyEntry c l') := by
  unfold onlyEntry
  rw [List.getElem?_zipWith]
  cases l[c]? <;> cases l'[c]? <;> rfl

theorem onlyEntry_modify (f : β → β) (c : ℕ) (l : List β) :
    onlyEntry c (l.modify c f) = (onlyEntry c l).modify 0 f := by
  unfold onlyEntry
  rw [List.getElem?_modify_eq]
  cases l[c]? <;> rfl

/-- The entry is found where it was, or not at all. -/
theorem entryAt_onlyEntry (c : ℕ) (l : List β) :
    entryAt (α := α) (onlyEntry c l) 0 = entryAt l c := by
  unfold onlyEntry
  by_cases h : c < l.length
  · rw [entryAt_ofNat h, List.getElem?_eq_getElem h]
    rfl
  · have hnone : Lattice.position? l.length c = none := by
      unfold Lattice.position?
      rw [if_pos (Int.natCast_nonneg c), if_neg (by exact_mod_cast h)]
    unfold entryAt
    rw [List.getElem?_eq_none (not_lt.mp h), hnone]
    rfl

/-! ## What a fit holds -/

/-- One channel of a default function, as a function with a single channel. -/
def WeakFunction.component (c : ℕ) : WeakFunction α → WeakFunction α
  | unusable => unusable
  | function f => function fun position => do return [← entryAt (← f position) c]

/-- One channel of a sample. -/
def Sample.onChannel (c : ℕ) (s : Sample α) : Sample α :=
  { s with
    values := onlyEntry c s.values
    weights := onlyEntry c s.weights
    targets := onlyEntry c s.targets }

/-- One channel of completed samples. -/
def Prepared.onChannel (c : ℕ) (data : Prepared α) : Prepared α :=
  { data with
    channels := 1
    samples := data.samples.map (Sample.onChannel c)
    average := onlyEntry c data.average
    valueLow := onlyEntry c data.valueLow
    valueRange := onlyEntry c data.valueRange
    deviation := onlyEntry c data.deviation }

/-- One channel of a grid. -/
def Grid.onChannel (c : ℕ) (g : Grid α) : Grid α := { g with values := onlyEntry c g.values }

/-- Settings for one channel. -/
def Settings.onChannel (c : ℕ) (s : Settings α) : Settings α :=
  { s with weakFunction := s.weakFunction.map (WeakFunction.component c) }

theorem WeakFunction.valueAt_component (c : ℕ) (w : WeakFunction α) (position : List α) :
    (w.component c).valueAt 0 position = w.valueAt c position := by
  cases w with
  | unusable => rfl
  | function f =>
    unfold WeakFunction.component WeakFunction.valueAt
    simp only [bind_assoc, pure_bind]
    refine bind_congr fun values => ?_
    cases entryAt (α := α) values c <;> rfl

theorem WeakFunction.isFunction_component (c : ℕ) (w : WeakFunction α) :
    (w.component c).isFunction = w.isFunction := by
  cases w <;> rfl

/-- A channel does not see that another one gets other targets. -/
theorem Sample.KeepsTargets.onChannel_eq {c other : ℕ} {s t : Sample α}
    (h : s.KeepsTargets other t) (hne : c ≠ other) : t.onChannel c = s.onChannel c := by
  have htargets : onlyEntry c t.targets = onlyEntry c s.targets :=
    congrArg Option.toList (h.targets c hne)
  rw [h.rest]
  unfold Sample.onChannel
  rw [htargets]

theorem Prepared.KeepsTargets.onChannel_eq {c other : ℕ} {data next : Prepared α}
    (h : data.KeepsTargets other next) (hne : c ≠ other) :
    next.onChannel c = data.onChannel c := by
  have hsamples : next.samples.map (Sample.onChannel c) = data.samples.map (Sample.onChannel c) := by
    have hall : List.Forall₂ (· = ·) (data.samples.map (Sample.onChannel c))
        (next.samples.map (Sample.onChannel c)) :=
      List.forall₂_map_left_iff.mpr (List.forall₂_map_right_iff.mpr
        (h.samples.imp fun s t hst => (hst.onChannel_eq hne).symm))
    rw [List.forall₂_eq_eq_eq] at hall
    exact hall.symm
  rw [h.rest]
  unfold Prepared.onChannel
  rw [hsamples]

/-! ## Fits of a single channel -/

/-- A fit of a single channel stands where a fit of several ones stands in that channel. The latter
may have reports of channels before it. -/
structure Fit.IsChannelOf (c : ℕ) (before : List (SolveReport α)) (fit fit' : Fit α) : Prop where
  twoPass : fit'.twoPass = fit.twoPass
  symmetricDomain : fit'.symmetricDomain = fit.symmetricDomain
  verbose : fit'.verbose = fit.verbose
  ladder : fit'.ladder = fit.ladder
  settings : fit'.settings = fit.settings.onChannel c
  deviation : fit'.deviationOf? 0 = fit.deviationOf? c
  prepared : ∃ data, fit.prepared = some data ∧ c < data.channels ∧
    fit'.prepared = some (data.onChannel c)
  grid : ∃ g values, fit.grid = some g ∧ fit'.grid = some { g with values }
  reports : fit.reports = before ++ fit'.reports

end GridSpline
