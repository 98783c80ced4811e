import Mathlib
import GridSpline.Proofs.Fit.FlatRun

/-!
# The grid of constant samples

If all samples of an accepted input have the same value in a channel, and all nodes of all channels
are held, a run gives the channel that value at every node of the grid, and finds the solution at
once in every solve of the channel. The other channels may have any samples; what they change is not
read by the channel.

## Main definitions

* `Prepared.IsFirm` — samples for which no solve can fail.
* `IsBlock` — the reports of a channel.

## Main statements

* `settles_solveChannels` — what channels one by one do to one with constant samples.
* `IsAccepted.run_constant` — the whole run.
-/

namespace GridSpline

open Scalar Failure FitM
open GridSpline.Lattice

/-! ## Other channels -/

section Other

variable {data next : Prepared ℝ} {settings : Settings ℝ} {ladder : List (List ℕ)} {value : ℝ}
  {channel other : ℕ}

theorem Sample.KeepsTargets.targetIn_eq {s t : Sample ℝ} (h : s.KeepsTargets other t)
    (hne : channel ≠ other) : t.targetIn channel = s.targetIn channel := by
  unfold Sample.targetIn
  rw [List.getD_eq_getElem?_getD, h.targets channel hne, List.getD_eq_getElem?_getD]

/-- A channel does not see that another one gets other targets. -/
theorem Prepared.IsPlain.of_retargeted (h : data.IsPlain settings ladder channel value)
    (hto : data.IsRetargeted next) (hkeep : data.KeepsTargets other next) (hne : channel ≠ other) :
    next.IsPlain settings ladder channel value where
  samples := hto.samples_ne_nil h.samples
  isChannel := hto.channels.symm ▸ h.isChannel
  isLadder := hto.isLadder h.isLadder
  resolutions := h.resolutions
  spacing res hres := hto.spacingOn res ▸ h.spacing res hres
  weak := h.weak
  range := hto.rangeOf channel ▸ h.range
  flat := {
    values := fun t ht => by
      obtain ⟨s, hs, heq⟩ := hto.exists_mem ht
      rw [heq]
      exact h.flat.values s hs
    targets := fun t ht => by
      obtain ⟨i, hi, rfl⟩ := List.mem_iff_getElem.mp ht
      have hi' : i < data.samples.length := hkeep.samples.length_eq ▸ hi
      exact ((hkeep.samples.get hi' hi).targetIn_eq hne).trans
        (h.flat.targets _ (List.getElem_mem hi'))
    average := by
      rw [hto.rest]
      exact h.flat.average }

/-- Samples for which no solve on the ladder can fail: there are some, and on every lattice all nodes
are apart from each other and held. -/
structure Prepared.IsFirm (data : Prepared ℝ) (settings : Settings ℝ) (ladder : List (List ℕ)) :
    Prop where
  samples : data.samples ≠ []
  isLadder : data.IsLadder ladder
  apart : data.KeepsAllApart ladder
  holds : data.HoldsLadder settings ladder

theorem Prepared.IsFirm.of_retargeted (h : data.IsFirm settings ladder)
    (hto : data.IsRetargeted next) : next.IsFirm settings ladder where
  samples := hto.samples_ne_nil h.samples
  isLadder := hto.isLadder h.isLadder
  apart res hres := hto.keepsApart_iff.mpr (h.apart res hres)
  holds res hres hlarge other hother := hto.holdsAll_iff.mpr
    (h.holds res hres hlarge other (hto.channels ▸ hother))

end Other

/-! ## Channels one by one -/

/-- The reports of solves that find the constant at once, over all passes of a channel. -/
def reportsAtOnce (solves : ℕ) (ladder : List (List ℕ)) : List (SolveReport ℝ) :=
  (List.replicate solves (ladder.map .atOnce)).flatten

/-- The reports of a channel over some climbs of the ladder, or those of the channel with constant
samples. -/
structure IsBlock (climbs : ℕ) (ladder : List (List ℕ)) (isConstant : Prop)
    (block : List (SolveReport ℝ)) : Prop where
  lattices : block.map (·.res) = (List.replicate climbs ladder).flatten
  atOnce : isConstant → block = reportsAtOnce climbs ladder

theorem IsBlock.length_eq {climbs perPass : ℕ} {ladder : List (List ℕ)} {isConstant : Prop}
    {block : List (SolveReport ℝ)} (h : IsBlock (climbs * perPass) ladder isConstant block) :
    block.length = climbs * (perPass * ladder.length) := by
  have hlength := congrArg List.length h.lattices
  rwa [List.length_map, List.length_flatten, List.map_replicate, List.sum_replicate, smul_eq_mul,
    Nat.mul_assoc] at hlength

section Steps

variable {r : Running ℝ} {data : Prepared ℝ} {settings : Settings ℝ} {ladder : List (List ℕ)}
  {channel : ℕ} {value tolerance : ℝ}

variable (ht : 0 < tolerance) (hfirm : data.IsFirm settings ladder)

include ht hfirm

/-- What solving for a channel does. Of the channel with constant samples more is known than of the
others. -/
theorem settles_solveChannel_of_firm (extra : ℕ) {current : ℕ} (hc : current < data.channels)
    (hplain : current = channel → data.IsPlain settings ladder channel value)
    (h : r.IsUnderWay data settings ladder) :
    Leads (solveChannel current tolerance extra) r
      (fun level after => ∃ next block, data.IsRetargeted next ∧ data.KeepsTargets current next ∧
        after.IsUnderWay next settings ladder ∧
        after.fit = { r.fit with reports := r.fit.reports ++ block, prepared := some next } ∧
        IsBlock ((extra + 1) * r.fit.climbsPerPass) ladder (current = channel) block ∧
        (current = channel → level.x = Array.replicate (size data.res) value))
      fun _ => False := by
  have hsettles : Leads (solveChannel current tolerance extra) r
      (fun level after => current = channel → r.Settles after data settings ladder channel value
        level data.res (reportsAtOnce ((extra + 1) * r.fit.climbsPerPass) ladder))
      fun _ => True := by
    by_cases hsame : current = channel
    · subst hsame
      exact (settles_solveChannel (hplain rfl) ht extra h).mono (fun _ _ hb _ => hb)
        fun _ _ => trivial
    · exact (grows_solveChannel current tolerance extra).mono (fun _ _ _ heq => absurd heq hsame)
        fun _ _ => trivial
  refine (((leads_solveChannel hfirm.samples hfirm.isLadder hc ht.le extra h).and
    (grows_solveChannel current tolerance extra)).and hsettles).mono ?_
    fun e he => he.1.1.2 hfirm.apart hfirm.holds
  rintro level after ⟨⟨⟨next, hto, hafter, -⟩, hgrows⟩, hsettles⟩
  obtain ⟨_, hnext, hkeep⟩ := hgrows.exists_prepared h.ready.prepared
  cases hafter.ready.prepared.symm.trans hnext
  obtain ⟨block, hblock, hreports⟩ := hgrows.reports
  refine ⟨next, block, hto, hkeep, hafter, ?_, ⟨?_, fun hsame => ?_⟩, fun hsame => ?_⟩
  · rw [hgrows.rest, hreports, hnext]
  · rw [hblock, Fit.climbed, h.ladder]
  · have hfit := congrArg Fit.reports (hsettles hsame).fit
    exact (List.append_cancel_left (hreports.symm.trans hfit))
  · exact (hsettles hsame).values

/-- What channels one by one do to one with constant samples. -/
theorem settles_solveChannels (extra : ℕ) {channels : List ℕ} (hnodup : channels.Nodup)
    (hchannels : ∀ current ∈ channels, current < data.channels)
    (hplain : channel ∈ channels → data.IsPlain settings ladder channel value)
    (h : r.IsUnderWay data settings ladder) {g : Grid ℝ} (hgrid : r.fit.grid = some g)
    (hcount : channel < g.values.length) :
    Leads (solveChannels tolerance extra channels) r
      (fun _ after => ∃ last blocks, after.fit.grid = some last ∧
        last.values[channel]? = (if channel ∈ channels then
          some (Array.replicate (size data.res) value) else g.values[channel]?) ∧
        after.fit.reports = r.fit.reports ++ blocks.flatten ∧
        List.Forall₂ (fun current block =>
          IsBlock ((extra + 1) * r.fit.climbsPerPass) ladder (current = channel) block)
          channels blocks)
      fun _ => False := by
  induction channels generalizing r data g with
  | nil => exact leads_pure ⟨g, [], hgrid, by simp, (List.append_nil _).symm, .nil⟩
  | cons current channels ih =>
    obtain ⟨hfresh, hnodup⟩ := List.nodup_cons.mp hnodup
    have hc := hchannels current List.mem_cons_self
    refine leads_bind ((settles_solveChannel_of_firm ht hfirm extra hc
      (fun hsame => hplain (hsame ▸ List.mem_cons_self)) h).imp ?_)
    rintro level after ⟨next, block, hto, hkeep, hafter, hfit, hblock, hvalues⟩
    have hplain' : channel ∈ channels → next.IsPlain settings ladder channel value := fun hmem =>
      (hplain (List.mem_cons_of_mem current hmem)).of_retargeted hto hkeep
        fun heq => hfresh (heq ▸ hmem)
    have hgrid' : after.fit.grid.map (·.setChannel current level.x) =
        some (g.setChannel current level.x) := by rw [hfit, hgrid, Option.map_some]
    have hcount' : channel < (g.setChannel current level.x).values.length := by
      rwa [Grid.setChannel, List.length_set]
    refine leads_bind (leads_change ((ih (hfirm.of_retargeted hto) hnodup
      (fun other hother => hto.channels.symm ▸ hchannels other (List.mem_cons_of_mem current hother))
      hplain' (hafter.setChannel current level.x) hgrid' hcount').imp ?_))
    rintro _ final ⟨last, blocks, hlast, hlastvalues, hfinal, hblocks⟩
    refine ⟨last, block :: blocks, hlast, ?_, ?_, .cons hblock ?_⟩
    · rw [hlastvalues, hto.res]
      by_cases hrest : channel ∈ channels
      · rw [if_pos hrest, if_pos (List.mem_cons_of_mem current hrest)]
      · rw [if_neg hrest, Grid.setChannel]
        by_cases hsame : current = channel
        · rw [if_pos (hsame ▸ List.mem_cons_self), ← hvalues hsame, hsame,
            List.getElem?_set_self hcount]
        · rw [if_neg fun hmem => (List.mem_cons.mp hmem).elim (Ne.symm hsame) hrest,
            List.getElem?_set_ne hsame]
    · rw [hfinal, hfit, List.flatten_cons, List.append_assoc]
    · have hclimbs : after.fit.climbsPerPass = r.fit.climbsPerPass := by
        rw [hfit]
        rfl
      rw [← hclimbs]
      exact hblocks

end Steps

/-! ## Runs -/

namespace Fit.IsAccepted

variable {f : Fit ℝ} {c : CheckedSettings ℝ} {data : Prepared ℝ} (h : f.IsAccepted c data)
  {channel : ℕ} {value : ℝ}

include h

/-- Samples with one value are drawn to it, and have it as average. -/
theorem isFlat (hsamples : data.samples ≠ []) (hc : channel < data.channels)
    (hvalues : ∀ s ∈ data.samples, s.valueIn channel = value) : data.IsFlat channel value := by
  obtain ⟨notices, hprepare⟩ := h.prepared
  have hlength : ∀ s ∈ data.samples, channel < s.values.length := fun s hs => by
    rwa [h.isValid.values s hs]
  refine ⟨hvalues, fun s hs => ?_, ?_⟩
  · unfold Sample.targetIn
    rw [targets_prepare hprepare s hs]
    exact hvalues s hs
  · rw [average_prepare hprepare, List.getD_eq_getElem _ _ (by simpa using hc), List.getElem_map,
      List.getElem_range]
    obtain ⟨s, hs⟩ := List.exists_mem_of_ne_nil _ hsamples
    refine meanOr_eq (List.ne_nil_of_mem (mem_column (List.mem_map_of_mem hs) (hlength s hs)))
      (fun v hv => ?_) _
    obtain ⟨row, hrow, hentry⟩ := List.mem_filterMap.mp hv
    obtain ⟨t, ht, rfl⟩ := List.mem_map.mp hrow
    rw [← hvalues t ht, Sample.valueIn, List.getD_eq_getElem?_getD, hentry]
    rfl

variable (hres : ∀ r ∈ data.res, 3 ≤ r) (hspacing : ∀ s ∈ data.spacing, IsMonotoneSpacing s)

include hres hspacing

/-- On every lattice of the ladder there are interior nodes along every axis, and the nodes are in
order. -/
theorem ladder_isOrdered {ladder : List (List ℕ)}
    (hladder : (fitLadder? data.res : Except (Failure ℝ) _) = .ok ladder) :
    ∀ res ∈ ladder, (∀ r ∈ res, 3 ≤ r) ∧ ∀ s ∈ data.spacingOn res, IsMonotoneSpacing s := by
  obtain ⟨notices, hprepare⟩ := h.prepared
  obtain ⟨levels, hlevels, -, -, hbetween⟩ :=
    exists_fitLadder? h.isValid.axes h.isValid.resolutions
  cases hladder.symm.trans hlevels
  intro res hmem
  have hall := hbetween res hmem
  have hthree : ∀ r ∈ res, 3 ≤ r := forall_le_level hall (by decide) hres
  refine ⟨hthree, fun s hs l hl => ?_⟩
  obtain ⟨e, he, rfl⟩ := List.mem_iff_getElem.mp hs
  unfold Prepared.spacingOn at he hl
  rw [List.length_zipWith, lt_min_iff] at he
  obtain ⟨he, heres⟩ := he
  rw [List.getElem_zipWith, Option.map_eq_some_iff] at hl
  obtain ⟨fine, hfine, rfl⟩ := hl
  have hefinal : e < data.res.length := hall.length_eq ▸ heres
  have hlevel := (hall.get heres hefinal).2
  have hlength := (h.isValid.spacing.get he hefinal fine hfine).1
  have hcount := hthree _ (List.getElem_mem heres)
  have hmem : some fine ∈ data.spacing := hfine ▸ List.getElem_mem he
  simp only [List.get_eq_getElem] at hlevel hlength
  exact (isSpaced_downsampleSpacing (hspacing _ hmem) (isSpaced_prepare hprepare fine hmem)
    (by omega) (hlevel.trans hlength.ge)).1 _ rfl

/-- Constant samples give the constant grid. The solves of the channel report that they found the
solution at once, on every lattice of the ladder, in every pass. -/
theorem run_constant (hsamples : data.samples ≠ []) (hweak : f.settings.weakFunction = none)
    (hrange : ∀ other < data.channels, 0 < data.rangeOf other) (hc : channel < data.channels)
    (hvalues : ∀ s ∈ data.samples, s.valueIn channel = value) :
    ∃ ladder, (fitLadder? data.res : Except (Failure ℝ) _) = .ok ladder ∧
      (∃ nonMonotonic, f.run.result = .ok nonMonotonic) ∧
      (∃ g, f.run.fit.grid = some g ∧
        g.values[channel]? = some (Array.replicate (size data.res) value)) ∧
      ∃ blocks : List (List (SolveReport ℝ)), f.run.fit.reports = blocks.flatten ∧
        blocks.length = data.channels ∧
        (∀ block ∈ blocks,
          block.length = (c.extraFit + 1) * ((if f.twoPass then 2 else 1) * ladder.length)) ∧
        blocks[channel]? = some
          (reportsAtOnce ((c.extraFit + 1) * if f.twoPass then 2 else 1) ladder) := by
  obtain ⟨ladder, hladder, -⟩ := h.exists_ladder
  have hordered := h.ladder_isOrdered hres hspacing hladder
  have hplain : data.IsPlain (f.settings.ofChecked c) ladder channel value := {
    samples := hsamples
    isChannel := hc
    isLadder := h.isLadder hladder
    resolutions := fun res hmem => (hordered res hmem).1
    spacing := fun res hmem => (hordered res hmem).2
    weak := hweak
    range := hrange channel hc
    flat := h.isFlat hsamples hc hvalues }
  have hfirm : data.IsFirm (f.settings.ofChecked c) ladder := {
    samples := hsamples
    isLadder := h.isLadder hladder
    apart := fun res hmem s hs l hl => (hl ▸ (hordered res hmem).2 s hs).isApart
    holds := fun res hmem _ other hother _ _ => Or.inl ⟨(hordered res hmem).1, hrange other hother⟩ }
  have hcount : channel < (Grid.laid data).values.length := by
    rwa [Grid.laid, List.length_replicate]
  have hrun : Leads runFit { fit := f, notices := [] } (fun _ after => ∃ last blocks,
      after.fit.grid = some last ∧
      last.values[channel]? = some (Array.replicate (size data.res) value) ∧
      after.fit.reports = blocks.flatten ∧
      List.Forall₂ (fun current block =>
        IsBlock ((c.extraFit + 1) * f.climbsPerPass) ladder (current = channel) block)
        (List.range data.channels) blocks) fun _ => False := by
    refine h.leads_runFit_of_solveChannels hladder hsamples fun notices => ?_
    refine (settles_solveChannels (isValid_check h.checked).tolerance hfirm c.extraFit
      List.nodup_range (fun other hother => List.mem_range.mp hother) (fun _ => hplain)
      (h.isUnderWay_begun ladder notices) rfl hcount).imp ?_
    rintro _ after ⟨last, blocks, hlast, hgrid, hreports, hblocks⟩
    rw [if_pos (List.mem_range.mpr hc)] at hgrid
    exact ⟨last, hlast, last, blocks, hlast, hgrid, hreports, hblocks⟩
  obtain ⟨b, after, heq, last, blocks, hlast, hgrid, hreports, hblocks⟩ := Fit.exists_run_eq hrun
  have hresult : f.run.result = .ok b := by rw [heq]
  have hfit : f.run.fit = after.fit := by rw [heq]
  have hlen : blocks.length = data.channels := by rw [← hblocks.length_eq, List.length_range]
  refine ⟨ladder, hladder, ⟨b, hresult⟩, ⟨last, hfit ▸ hlast, hgrid⟩, blocks, hfit ▸ hreports,
    hlen, fun block hmem => ?_, ?_⟩
  · obtain ⟨i, hi, rfl⟩ := List.mem_iff_getElem.mp hmem
    exact (hblocks.get (by rwa [List.length_range, ← hlen]) hi).length_eq
  · have hi : channel < blocks.length := hlen ▸ hc
    rw [List.getElem?_eq_getElem hi]
    exact congrArg some ((hblocks.get (by rwa [List.length_range]) hi).atOnce
      (by rw [List.get_eq_getElem, List.getElem_range]))

end Fit.IsAccepted

/-- The grid of a single sample has its value everywhere. -/
theorem Fit.run_narrow_three :
    (∀ r ∈ (narrowDataOn 3 5 [none, none]).res, 3 ≤ r) ∧
    ∃ ladder, (fitLadder? [3, 5] : Except (Failure ℝ) _) = .ok ladder ∧
      (∃ nonMonotonic, (narrowOn #[.integer 3, .integer 5] none).run.result = .ok nonMonotonic) ∧
      (∃ g, (narrowOn #[.integer 3, .integer 5] none).run.fit.grid = some g ∧
        g.values[0]? = some (Array.replicate 15 1)) ∧
      ∃ blocks : List (List (SolveReport ℝ)),
        (narrowOn #[.integer 3, .integer 5] none).run.fit.reports = blocks.flatten ∧
        blocks.length = 1 ∧ (∀ block ∈ blocks, block.length = (0 + 1) * (1 * ladder.length)) ∧
        blocks[0]? = some (reportsAtOnce ((0 + 1) * 1) ladder) := by
  have haccepted : (narrowOn #[.integer 3, .integer 5] none).IsAccepted narrowSettings
      (narrowDataOn 3 5 [none, none]) := isAccepted_narrowOn rfl rfl
  have hres : ∀ r ∈ (narrowDataOn 3 5 [none, none]).res, 3 ≤ r := by
    show ∀ r ∈ [3, 5], 3 ≤ r
    decide
  refine ⟨hres, haccepted.run_constant hres ?_ (List.cons_ne_nil _ _)
    rfl ?_ Nat.one_pos ?_⟩
  · intro s hs l hl
    rw [hl] at hs
    simp [narrowDataOn, narrowData] at hs
  · intro other hother
    obtain rfl : other = 0 := Nat.lt_one_iff.mp hother
    exact one_pos
  · intro s hs
    obtain rfl := List.mem_singleton.mp hs
    rfl

end GridSpline
