import Mathlib
import GridSpline.Proofs.Motion.Climb
import GridSpline.Proofs.Sample.Decided

/-!
# Moved input

What the caller hands over is moved: positions and bounds go where their points go, what is listed
by axis is listed in the new order, and spacings of reversed axes are given from the other end. The
checks then decide as before. They see every axis by itself, up to the number of the axis in a
notice, and what they complete is completed alike: a bound is extended to the outermost sample,
which is outermost after the motion too, on the same side or on the other one.

## Main definitions

* `GivenSamples.IsMoved`, `Fit.IsGivenMoved` — moved input.
* `Prepared.movedTo` — what is completed from moved samples.
* `Motion.retarget` — moved samples with other targets.

## Main statements

* `extended_interval` — the bounds after the samples were taken in.
* `GivenSamples.IsMoved.exists_yields` — moved samples pass the checks.
* `Fit.IsAccepted.exists_isMoved` — moved input is accepted.
-/

namespace GridSpline

open Scalar Failure
open GridSpline.Lattice

/-- Spacings of the axes where these went, read from the other end where an axis is reversed. -/
inductive MovesSpacings (v : Motion) :
    (given given' : Option (Option (List (Option (Nested ℝ))))) → Prop
  | none : MovesSpacings v none none
  | given {l l' : List (Option (Nested ℝ))}
    (read : Moves v.axis (fun e => Option.map (v.rearrangement.turnSpacing e))
      (l.map (Option.map Nested.entries?)) (l'.map (Option.map Nested.entries?))) :
    MovesSpacings v (some (some l)) (some (some l'))

/-- Moved samples, and what else is given with them. Arrays are compared by what is read. -/
structure GivenSamples.IsMoved (v : Motion) (axes : ℕ) (g g' : GivenSamples ℝ) : Prop where
  resolution : ∃ l l', g.resolution.bind Nested.entries? = some l ∧
    g'.resolution.bind Nested.entries? = some l' ∧ Moves v.axis (fun _ r => r) l l'
  positions : ∃ t, SampleTable.ofNested? "positions" (some axes) g.positions = .ok t ∧
    SampleTable.ofNested? "positions" (some axes) g'.positions =
      .ok { t with rows := t.rows.map v.point }
  bounds : ∃ low high low' high',
    entriesOf? "glow" axes 0 g.low = .ok low ∧ entriesOf? "ghigh" axes 1 g.high = .ok high ∧
    entriesOf? "glow" axes 0 g'.low = .ok low' ∧ entriesOf? "ghigh" axes 1 g'.high = .ok high' ∧
    Moves v.axis v.interval (low.zip high) (low'.zip high')
  spacing : MovesSpacings v g.spacing g'.spacing
  values : g'.values = g.values
  weights : g'.weights = g.weights
  valueLow : g'.valueLow = g.valueLow
  valueHigh : g'.valueHigh = g.valueHigh
  deviation : g'.deviation = g.deviation

/-- Moved input. The default function is asked at the points that were moved there. -/
structure Fit.IsGivenMoved (v : Motion) (axes : ℕ) (f f' : Fit ℝ) : Prop where
  given : f.given.IsMoved v axes f'.given
  settings : f'.settings =
    { f.settings with weakFunction := f.settings.weakFunction.map v.default }
  twoPass : f'.twoPass = f.twoPass
  symmetricDomain : f'.symmetricDomain = f.symmetricDomain

/-! ## The domain -/

section Outermost

variable {F : ℝ → ℝ}

theorem foldl_map_of_comm {g g' : ℝ → ℝ → ℝ} (h : ∀ x y, g' (F x) (F y) = F (g x y))
    (l : List ℝ) (a : ℝ) : some ((l.map F).foldl g' (F a)) = some (F (l.foldl g a)) := by
  rw [List.foldl_map]
  exact congrArg some (List.foldl_hom F h)

theorem least?_map_of_monotone (h : Monotone F) (l : List ℝ) :
    least? (l.map F) = (least? l).map F := by
  cases l with
  | nil => rfl
  | cons a l =>
    exact foldl_map_of_comm (fun x y => by rw [minimum_eq, minimum_eq, h.map_min]) l a

theorem greatest?_map_of_monotone (h : Monotone F) (l : List ℝ) :
    greatest? (l.map F) = (greatest? l).map F := by
  cases l with
  | nil => rfl
  | cons a l =>
    exact foldl_map_of_comm (fun x y => by rw [maximum_eq, maximum_eq, h.map_max]) l a

theorem least?_map_of_antitone (h : Antitone F) (l : List ℝ) :
    least? (l.map F) = (greatest? l).map F := by
  cases l with
  | nil => rfl
  | cons a l =>
    exact foldl_map_of_comm (fun x y => by rw [minimum_eq, maximum_eq, h.map_max]) l a

theorem greatest?_map_of_antitone (h : Antitone F) (l : List ℝ) :
    greatest? (l.map F) = (least? l).map F := by
  cases l with
  | nil => rfl
  | cons a l =>
    exact foldl_map_of_comm (fun x y => by rw [maximum_eq, minimum_eq, h.map_min]) l a

end Outermost

namespace Motion

variable (v : Motion)

theorem monotone_coordinate {e : ℕ} (h : 0 < v.factor e) : Monotone (v.coordinate e) := by
  intro x y hxy
  unfold coordinate
  have := mul_le_mul_of_nonneg_left hxy h.le
  linarith

theorem antitone_coordinate {e : ℕ} (h : v.factor e < 0) : Antitone (v.coordinate e) := by
  intro x y hxy
  unfold coordinate
  have := mul_le_mul_of_nonpos_left hxy h.le
  linarith

/-- The bounds of an axis after the samples were taken in. -/
theorem extended_interval (e : ℕ) (b : ℝ × ℝ) (coordinates : List ℝ) :
    extended (v.interval e b) (coordinates.map (v.coordinate e)) =
      v.interval e (extended b coordinates) := by
  have hnone : least? coordinates = none ↔ greatest? coordinates = none := by
    cases coordinates <;> simp [least?, greatest?]
  unfold extended interval
  rcases v.factor_neg_or_pos e with hneg | hpos
  · have hanti := v.antitone_coordinate hneg
    rw [if_pos hneg, if_pos hneg, least?_map_of_antitone hanti, greatest?_map_of_antitone hanti]
    cases hl : least? coordinates with
    | none =>
      rw [hnone.mp hl]
      rfl
    | some first =>
      cases hg : greatest? coordinates with
      | none => rw [hnone.mpr hg] at hl; cases hl
      | some last => simp only [Option.map_some, hanti.map_max, hanti.map_min]
  · have hmono := v.monotone_coordinate hpos
    rw [if_neg hpos.not_gt, if_neg hpos.not_gt, least?_map_of_monotone hmono,
      greatest?_map_of_monotone hmono]
    cases hl : least? coordinates with
    | none => rfl
    | some first =>
      cases hg : greatest? coordinates with
      | none => rfl
      | some last => simp only [Option.map_some, hmono.map_max, hmono.map_min]

/-- A column of moved positions. -/
theorem column_point {positions : List (List ℝ)}
    (h : ∀ p ∈ positions, Permutes v.axis p.length) (e : ℕ) :
    column (positions.map v.point) (v.axis e) = (column positions e).map (v.coordinate e) := by
  unfold column
  rw [List.filterMap_map, List.map_filterMap]
  refine List.filterMap_congr fun p hp => ?_
  exact v.moves_point (h p hp) e

end Motion

/-- The bounds of all axes after the samples were taken in. -/
theorem Motion.exists_extendDomain? {v : Motion} {mode : Extend} {positions : List (List ℝ)}
    {given given' out : List (ℝ × ℝ)} {notices : List (Notice ℝ)}
    (h : extendDomain? mode positions 0 given = .ok (out, notices))
    (hpositions : ∀ p ∈ positions, Permutes v.axis p.length)
    (hgiven : Moves v.axis v.interval given given') : ∃ out' notices',
      extendDomain? mode (positions.map v.point) 0 given' = .ok (out', notices') ∧
      Moves v.axis v.interval out out' := by
  obtain ⟨hout, hnever⟩ := extendDomain?_iff.mp ⟨notices, h⟩
  have hmoves : Moves v.axis v.interval out ((given'.zipIdx 0).map fun p =>
      extended p.1 (column (positions.map v.point) p.2)) := by
    intro e
    rw [hout]
    simp only [List.getElem?_map, List.getElem?_zipIdx, hgiven e, Nat.zero_add, Option.map_map]
    refine congrArg (fun F => Option.map F given[e]?) (funext fun b => ?_)
    simp only [Function.comp_apply, v.column_point hpositions e]
    exact v.extended_interval e b _
  obtain ⟨notices', hprepared⟩ := extendDomain?_iff.mpr ⟨rfl, fun hmode => by
    rw [hnever hmode] at hmoves
    exact hmoves.ext hgiven⟩
  exact ⟨_, notices', hprepared, hmoves⟩

/-! ## Spacings -/

theorem IsSpaced.reverse {l : List ℝ} (h : IsSpaced l) : IsSpaced l.reverse := by
  intro i hi
  rw [List.length_reverse] at hi
  have hstep := h (l.length - 1 - (i + 1)) (by omega)
  rw [getD_reverse (show i + 1 + (l.length - 1 - (i + 1)) + 1 = l.length by omega),
    getD_reverse (show i + (l.length - 1 - (i + 1) + 1) + 1 = l.length by omega), abs_sub_comm]
  exact hstep

theorem IsUsableSpacing.turn {count : ℕ} {read : Option (Option (List ℝ))} {s : Spacing ℝ}
    (h : IsUsableSpacing count read s) (m : Rearrangement) (e : ℕ) :
    IsUsableSpacing count (read.map (m.turnSpacing e)) (m.turnSpacing e s) := by
  unfold Rearrangement.turnSpacing
  cases read with
  | none =>
    have hs : s = none := h
    subst hs
    show ite _ _ _ = _
    split <;> rfl
  | some entries =>
    obtain ⟨rfl, l, rfl, hcount, hspaced⟩ := h
    split
    · exact ⟨rfl, l.reverse, rfl, by rw [List.length_reverse, hcount], hspaced.reverse⟩
    · exact ⟨rfl, l, rfl, hcount, hspaced⟩

/-- The spacings of all axes. -/
theorem MovesSpacings.exists_spacings? {v : Motion}
    {given given' : Option (Option (List (Option (Nested ℝ))))} (h : MovesSpacings v given given')
    {res res' : List ℕ} (hres : Moves v.axis (fun _ r => r) res res') {spacing : List (Spacing ℝ)}
    (hspacing : spacings? res given = .ok spacing) :
    ∃ spacing', spacings? res' given' = .ok spacing' ∧
      Moves v.axis v.rearrangement.turnSpacing spacing spacing' := by
  cases h with
  | none =>
    unfold spacings? at hspacing ⊢
    rw [pure_eq_ok] at hspacing
    subst hspacing
    refine ⟨_, rfl, hres.map fun e r _ => ?_⟩
    unfold Rearrangement.turnSpacing
    split <;> rfl
  | @given l l' read =>
    obtain ⟨hlen, hcount, hall⟩ := spacings?_some_iff.mp hspacing
    have hpermutes : Permutes v.axis spacing.length := hcount ▸ hres.permutes
    have hmoves := moves_moved v.rearrangement.turnSpacing hpermutes
    have hlen' := read.length_eq
    rw [List.length_map, List.length_map] at hlen'
    refine ⟨_, spacings?_some_iff.mpr ⟨by rw [hlen', hlen, hres.length_eq],
      by rw [hmoves.length_eq, hcount, hres.length_eq], fun e r x s hr hx hs => ?_⟩, hmoves⟩
    -- Every axis is where some axis went.
    rw [← v.axis.apply_symm_apply e] at hr hx hs
    rw [hres, Option.map_id'] at hr
    rw [read] at hx
    rw [hmoves] at hs
    obtain ⟨y, hy, rfl⟩ := Option.map_eq_some_iff.mp hx
    obtain ⟨t, ht, rfl⟩ := Option.map_eq_some_iff.mp hs
    exact (hall _ r y t hr hy ht).turn v.rearrangement _

/-! ## Samples -/

theorem assemble_map_point (v : Motion) (p w k : List (List ℝ)) :
    assemble (p.map v.point) w k = (assemble p w k).map v.sample := by
  induction p generalizing w k with
  | nil => simp [assemble]
  | cons p ps ih =>
    cases w with
    | nil => simp [assemble]
    | cons w ws =>
      cases k with
      | nil => simp [assemble]
      | cons k ks =>
        rw [List.map_cons, assemble, assemble, List.map_cons, ih]
        rfl

/-- What is completed from moved samples, where all that is listed by axis is given anew. Every
channel keeps its values. -/
noncomputable def Prepared.movedTo (data : Prepared ℝ) (v : Motion) (res : List ℕ)
    (bounds : List (ℝ × ℝ)) (spacing : List (Spacing ℝ)) : Prepared ℝ :=
  { data with
    res, spacing
    samples := data.samples.map v.sample
    low := bounds.map (·.1)
    high := bounds.map (·.2) }

section MovedTo

variable (data : Prepared ℝ) (v : Motion) (res : List ℕ) (bounds : List (ℝ × ℝ))
  (spacing : List (Spacing ℝ))

theorem columns_movedTo : (data.movedTo v res bounds spacing).columns = data.columns := by
  unfold Prepared.columns Prepared.movedTo
  rw [List.map_map]
  rfl

theorem positions_movedTo : (data.movedTo v res bounds spacing).samples.map (·.position) =
    (data.samples.map (·.position)).map v.point := by
  unfold Prepared.movedTo
  rw [List.map_map, List.map_map]
  rfl

theorem zip_movedTo : (data.movedTo v res bounds spacing).low.zip
    (data.movedTo v res bounds spacing).high = bounds := by
  unfold Prepared.movedTo
  rw [List.zip_map', List.map_id']

end MovedTo

namespace GivenSamples.IsMoved

variable {v : Motion} {axes : ℕ} {g g' : GivenSamples ℝ} (h : g.IsMoved v axes g')

include h

/-- The samples that are read. -/
theorem samples?_eq {channels : ℕ} {samples : List (Sample ℝ)}
    (hsamples : g.samples? axes = .ok (channels, samples)) :
    g'.samples? axes = .ok (channels, samples.map v.sample) := by
  obtain ⟨t, hp, hp'⟩ := h.positions
  unfold samples? at hsamples ⊢
  rw [hp, ok_bind] at hsamples
  rw [hp', ok_bind, h.values, h.weights]
  simp only [bind_eq_ok, guard_eq_ok, pure_eq_ok, Prod.mk.injEq, List.length_map] at hsamples ⊢
  obtain ⟨w, hw, hchannels, hcolumns, hrows, k, hk, hpositive, rfl, rfl⟩ := hsamples
  rw [filter_isComplete] at hpositive
  refine ⟨w, hw, hchannels, hcolumns, hrows, k, hk, ?_, rfl, ?_⟩
  · rw [filter_isComplete, assemble_map_point, List.any_map]
    exact hpositive
  · rw [filter_isComplete, filter_isComplete, assemble_map_point]

/-- The resolutions that are read. -/
theorem exists_resolutions? {res : List ℕ} (hres : resolutions? g.resolution = .ok res) :
    ∃ res', resolutions? g'.resolution = .ok res' ∧ Moves v.axis (fun _ r => r) res res' := by
  obtain ⟨l, l', hl, hl', hmoves⟩ := h.resolution
  obtain ⟨m, hm, hare, rfl⟩ := resolutions?_iff.mp hres
  rw [hl, Option.some.injEq] at hm
  subst hm
  exact ⟨_, resolutions?_iff.mpr ⟨l', hl', hare.perm hmoves.perm, rfl⟩, hmoves.map fun _ _ _ => rfl⟩

/-- Moved samples pass the checks. -/
theorem exists_yields {mode : Extend} {data : Prepared ℝ} (hyields : g.Yields mode data)
    (haxes : axes = data.res.length) : ∃ data', g'.Yields mode data' ∧ data.IsMoved v data' := by
  subst haxes
  obtain ⟨res', hres', hresolutions⟩ := h.exists_resolutions? hyields.resolutions
  obtain ⟨spacing', hspacing', hspacings⟩ :=
    h.spacing.exists_spacings? hresolutions hyields.spacing
  have hsamples' := h.samples?_eq hyields.samples
  obtain ⟨low₀, high₀, notices, hlow₀, hhigh₀, hdomain⟩ := hyields.bounds
  obtain ⟨low, high, low', high', hlow, hhigh, hlow', hhigh', hgiven⟩ := h.bounds
  rw [hlow, Except.ok.injEq] at hlow₀
  rw [hhigh, Except.ok.injEq] at hhigh₀
  subst hlow₀ hhigh₀
  have hpositions : ∀ p ∈ data.samples.map (·.position), Permutes v.axis p.length := by
    intro p hp
    obtain ⟨s, hs, rfl⟩ := List.mem_map.mp hp
    rw [(mem_samples? hyields.samples s hs).1]
    exact hresolutions.permutes
  obtain ⟨bounds', notices', hdomain', hbounds'⟩ :=
    Motion.exists_extendDomain? hdomain hpositions hgiven
  rw [← hresolutions.length_eq] at hlow' hhigh' hsamples'
  refine ⟨data.movedTo v res' bounds' spacing', ?_, ?_⟩
  · exact {
      resolutions := hres'
      samples := hsamples'
      bounds := ⟨low', high', notices', hlow', hhigh', by
        rw [positions_movedTo, zip_movedTo]
        exact hdomain'⟩
      paired := (List.length_map _).trans (List.length_map _).symm
      extended := fun b' hb' => by
        rw [zip_movedTo] at hb'
        obtain ⟨e, b, hb, rfl⟩ := hbounds'.exists_of_mem hb'
        exact v.interval_lt (hyields.extended b (List.mem_of_getElem? hb))
      values := by
        rw [h.valueLow, h.valueHigh, columns_movedTo]
        exact hyields.values
      average := by
        rw [columns_movedTo]
        exact hyields.average
      deviation := by
        rw [h.deviation]
        exact hyields.deviation
      spacing := hspacing' }
  · exact {
      res := hresolutions
      channels := rfl
      samples := rfl
      bounds := by
        rw [zip_movedTo]
        exact hbounds'
      average := rfl
      valueLow := rfl
      valueRange := rfl
      deviation := rfl
      spacing := hspacings }

end GivenSamples.IsMoved

/-! ## Fits -/

namespace Motion

variable (v : Motion)

@[simp] theorem isFunction_default (w : WeakFunction ℝ) :
    (v.default w).isFunction = w.isFunction := by
  cases w <;> rfl

/-- The checks of the settings do not apply the default function. -/
theorem check_default (s : Settings ℝ) :
    ({ s with weakFunction := s.weakFunction.map v.default } : Settings ℝ).check = s.check := by
  have hfunction : (s.weakFunction.map v.default).any (fun w => !w.isFunction) =
      s.weakFunction.any fun w => !w.isFunction := by
    cases s.weakFunction with
    | none => rfl
    | some w => simp
  unfold Settings.check
  simp only [hfunction]

theorem isDefinedOn_default {w : WeakFunction ℝ} {channel axes : ℕ}
    (h : w.IsDefinedOn channel axes) : (v.default w).IsDefinedOn channel axes := by
  intro p hp
  rw [v.valueAt_default]
  exact h _ (by rw [v.length_back, hp])

end Motion

/-- Other targets of moved samples. -/
noncomputable def Motion.retarget (v : Motion) (next data' : Prepared ℝ) : Prepared ℝ :=
  { data' with samples := next.samples.map v.sample }

/-- The fit with other samples. -/
def Fit.holding (fit : Fit ℝ) (data : Prepared ℝ) : Fit ℝ := { fit with prepared := some data }

namespace Prepared.IsMoved

variable {v : Motion} {data data' next : Prepared ℝ} (h : data.IsMoved v data')

include h

theorem retarget_self : v.retarget data data' = data' := by
  unfold Motion.retarget
  rw [← h.samples]

variable (hto : data.IsRetargeted next)

include hto

theorem retarget : next.IsMoved v (v.retarget next data') := by
  rw [hto.rest]
  exact { h with samples := rfl }

theorem isRetargeted : data'.IsRetargeted (v.retarget next data') where
  rest := rfl
  samples := by
    rw [h.samples]
    show List.Forall₂ _ _ (next.samples.map v.sample)
    rw [List.forall₂_map_left_iff, List.forall₂_map_right_iff]
    refine hto.samples.imp fun s t hst => ?_
    rw [hst]
    rfl
  targets t ht := by
    obtain ⟨s, hs, rfl⟩ := List.mem_map.mp ht
    exact (hto.targets s hs).trans h.channels.symm

end Prepared.IsMoved

namespace Fit.IsAccepted

variable {v : Motion} {f f' : Fit ℝ} {c : CheckedSettings ℝ} {data data' : Prepared ℝ}
  (h : f.IsAccepted c data)

include h

/-- Moved input is accepted. -/
theorem exists_isMoved (hmoved : f.IsGivenMoved v data.res.length f') :
    ∃ data', f'.IsAccepted c data' ∧ data.IsMoved v data' := by
  have hyields := GivenSamples.prepare_iff.mp h.prepared
  obtain ⟨data', hyields', hdata⟩ := hmoved.given.exists_yields hyields rfl
  refine ⟨data', ⟨?_, GivenSamples.prepare_iff.mpr hyields', fun w' hw' channel hc => ?_⟩, hdata⟩
  · rw [hmoved.settings, v.check_default, h.checked]
  · rw [hmoved.settings] at hw'
    obtain ⟨w, hw, rfl⟩ := Option.map_eq_some_iff.mp hw'
    rw [hdata.channels] at hc
    rw [hdata.res.length_eq]
    exact v.isDefinedOn_default (h.weakFunction w hw channel hc)

/-- The fits when the first level is made, also if the targets are other ones by then. -/
theorem isMoved_begun (hmoved : f.IsGivenMoved v data.res.length f') (h' : f'.IsAccepted c data')
    (hdata : data.IsMoved v data') (ladder ladder' : List (List ℕ)) {next : Prepared ℝ}
    (hto : data.IsRetargeted next) :
    Fit.IsMoved v ((f.begun c data ladder).holding next)
      ((f'.begun c data' ladder').holding (v.retarget next data')) next
      (v.retarget next data') where
  ready := hto.isReady (h.isReady_begun ladder) []
  ready' := (hdata.isRetargeted hto).isReady (h'.isReady_begun ladder') []
  data := hdata.retarget hto
  settings := by
    show f'.settings.ofChecked c = _
    rw [hmoved.settings]
    rfl
  twoPass := hmoved.twoPass
  symmetricDomain := hmoved.symmetricDomain

/-- The levels of accepted input and of the moved input, also when targets are other ones. -/
theorem climbsAlike (hmoved : f.IsGivenMoved v data.res.length f') (h' : f'.IsAccepted c data')
    (hdata : data.IsMoved v data') (last : v.rearrangement.Relates data.res data'.res)
    (ladder ladder' : List (List ℕ)) {next : Prepared ℝ} (hto : data.IsRetargeted next)
    {res res' : List ℕ} (rel : v.rearrangement.Relates res res')
    (hlen : res.length = data.res.length) :
    rel.ClimbsAlike last ((f.begun c data ladder).holding next)
      ((f'.begun c data' ladder').holding (v.retarget next data')) data.channels := by
  obtain ⟨samples, rfl⟩ : ∃ samples, next = { data with samples } := ⟨_, hto.rest⟩
  exact (h.isMoved_begun hmoved h' hdata ladder ladder' hto).climbsAlike rel hlen

end Fit.IsAccepted

/-! ## A lattice with a spacing -/

namespace Fit

/-- A sample in a corner of a lattice with three nodes along one axis and five along the other,
where these have a spacing. -/
noncomputable def uneven : Fit ℝ :=
  narrowOn #[.integer 3, .integer 5]
    (some (some [none, some (.block { shape := [5], data := #[0, 0.1, 0.3, 0.4, 0.5] })]))

theorem isAccepted_uneven : uneven.IsAccepted narrowSettings
    (narrowDataOn 3 5 [none, some [0, 0.1, 0.3, 0.4, 0.5]]) := by
  refine isAccepted_narrowOn rfl ?_
  have hup : firstTooClose ([0, 0.1, 0.3, 0.4, 0.5] : List ℝ) = none := by
    norm_num [firstTooClose, minSpacing]
  simp [spacings?, spacingsFrom?, spacingOf?, Dense.ofNested?, Dense.entries, size, hup]

end Fit

end GridSpline
