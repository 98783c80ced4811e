import Mathlib
import GridSpline.Proofs.Fit.Accepted
import GridSpline.Proofs.Fit.Climb
import GridSpline.Proofs.Fit.Start

/-!
# How a run ends

A run of accepted input can fail in one way only: some lattice is too large to be solved at once and
has a node that nothing holds. With two passes the curvature of the first solution is captured and
smoothed in between; with extra passes the misfit is added to the targets. Neither can fail, and
neither changes what holds the nodes.

## Main statements

* `leads_solvePasses`, `leads_solveChannel`, `leads_solveChannels` — what passes and channels do.
* `IsAccepted.run_cases` — how a run ends.
-/

namespace GridSpline

open Scalar Failure FitM
open GridSpline.Lattice

section Steps

variable {r : Running ℝ} {data : Prepared ℝ} {settings : Settings ℝ} {ladder : List (List ℕ)}
  {channel : ℕ} {tolerance : ℝ}

/-! ## Passes -/

theorem Fit.IsReady.exists_filterStdev? {fit : Fit ℝ} (h : fit.IsReady data) :
    ∃ stdev, fit.filterStdev? = .ok stdev ∧ stdev ≠ 0 := by
  obtain ⟨s, hs, hne⟩ := h.smoothness
  have hstdev : fit.filterStdev? =
      .ok (if 0 ≤ s then Fit.filterStdevPerSmoothness * s else -s) := by
    unfold Fit.filterStdev?
    rw [hs, require_some, ok_bind, Number.toScalar?_eq]
    rfl
  refine ⟨_, hstdev, ?_⟩
  by_cases hsign : 0 ≤ s
  · rw [if_pos hsign]
    exact mul_ne_zero (by norm_num [Fit.filterStdevPerSmoothness]) hne
  · rw [if_neg hsign]
    exact neg_ne_zero.mpr hne

/-- The smoothed curvature of a solution. -/
theorem Running.HasSolved.exists_smoothedCurvature? {level : Level ℝ}
    (h : r.HasSolved data settings ladder channel level data.res) :
    ∃ stdev, smoothedCurvature? r.fit level = .ok (filteredCurvature level.res stdev
        r.fit.symmetricDomain (captured level.res level.x level.spacing)) ∧
      (filteredCurvature level.res stdev r.fit.symmetricDomain
        (captured level.res level.x level.spacing)).IsOn data.res := by
  obtain ⟨stdev, hstdev, hne⟩ := h.underWay.ready.exists_filterStdev?
  refine ⟨stdev, ?_, ?_, ?_⟩
  · unfold smoothedCurvature?
    rw [captureCurvature?_eq h.posed.axes h.laid.size_x h.posed.stiffness.spacing, ok_bind, hstdev,
      ok_bind, filterCurvature?_eq h.posed.axes h.posed.resolutions hne _
        fun p hp => size_of_mem_captured hp]
  · unfold filteredCurvature
    rw [List.length_map, length_captured, h.laid.res_eq]
  · intro p hp
    obtain ⟨q, hq, rfl⟩ := List.mem_map.mp hp
    rw [size_filtered _ _ (size_of_mem_captured hq), h.laid.res_eq]

/-- A grid that is given the node values of a channel. -/
theorem Fit.IsReady.setChannel {fit : Fit ℝ} (h : fit.IsReady data) (channel : ℕ) (x : Array ℝ) :
    ({ fit with grid := fit.grid.map (·.setChannel channel x) } : Fit ℝ).IsReady data := by
  obtain ⟨g, hg, hres, hlow, hhigh, hspacing⟩ := h.grid
  refine { h with grid := ⟨g.setChannel channel x, ?_, hres, hlow, hhigh, hspacing⟩ }
  rw [hg]
  rfl

theorem Running.IsUnderWay.setChannel (h : r.IsUnderWay data settings ladder) (channel : ℕ)
    (x : Array ℝ) : ({ r with fit := { r.fit with
      grid := r.fit.grid.map (·.setChannel channel x) } } : Running ℝ).IsUnderWay data settings
        ladder :=
  ⟨h.ready.setChannel channel x, h.settings, h.ladder⟩

variable (hsamples : data.samples ≠ []) (hladder : data.IsLadder ladder)
  (hc : channel < data.channels) (ht : 0 ≤ tolerance)

include hsamples hladder hc ht

/-- What one or two climbs do. -/
theorem leads_solvePasses (h : r.IsUnderWay data settings ladder) :
    Leads (solvePasses channel tolerance) r
      (fun level after => after.HasSolved data settings ladder channel level data.res ∧
        ∀ res ∈ ladder, data.Relaxes settings res channel)
      (data.MeetsFreeNode settings ladder) := by
  have hnone : ∀ c, (none : Option (Curvature ℝ)) = some c → c.IsOn data.res :=
    fun c hc => absurd hc (Option.some_ne_none c).symm
  unfold solvePasses
  refine leads_bind (leads_fit ?_)
  by_cases htwo : r.fit.twoPass = true
  · rw [if_pos htwo]
    refine leads_bind ?_
    refine (leads_solveLadder hsamples hladder hc ht h false hnone).imp ?_
    rintro first after ⟨hfirst, -⟩
    obtain ⟨stdev, hccv, hon⟩ := hfirst.exists_smoothedCurvature?
    have hsome : ∀ c, some (filteredCurvature first.res stdev after.fit.symmetricDomain
        (captured first.res first.x first.spacing)) = some c → c.IsOn data.res := by
      rintro c ⟨⟩
      exact hon
    refine leads_bind (leads_fit (leads_bind (leads_lift hccv ?_)))
    exact leads_solveLadder hsamples hladder hc ht hfirst.underWay true hsome
  · rw [if_neg htwo]
    exact leads_solveLadder hsamples hladder hc ht h false hnone

/-! ## Channels -/

/-- What all passes over a channel do: only targets change. -/
theorem leads_solveChannel (extra : ℕ) (h : r.IsUnderWay data settings ladder) :
    Leads (solveChannel channel tolerance extra) r
      (fun _ after => ∃ next, data.IsRetargeted next ∧ after.IsUnderWay next settings ladder ∧
        ∀ res ∈ ladder, data.Relaxes settings res channel)
      (data.MeetsFreeNode settings ladder) := by
  induction extra generalizing r data with
  | zero =>
    refine (leads_solvePasses hsamples hladder hc ht h).imp ?_
    rintro level after ⟨hsolved, hrelaxes⟩
    exact ⟨data, .refl h.ready.valid, hsolved.underWay, hrelaxes⟩
  | succ extra ih =>
    refine leads_bind ((leads_solvePasses hsamples hladder hc ht h).imp ?_)
    rintro level after ⟨hsolved, -⟩
    have hready := hsolved.underWay.ready
    have hto := hsolved.posed.isRetargeted_addMisfit hready.valid
    have hnext : ({ after with fit := { after.fit with
        prepared := some (level.addMisfit data channel) } } : Running ℝ).IsUnderWay
          (level.addMisfit data channel) settings ladder :=
      ⟨hto.isReady hready _, hsolved.underWay.settings, hsolved.underWay.ladder⟩
    refine leads_bind (leads_fit (leads_bind (leads_lift hready.prepared?_eq
      (leads_bind (leads_lift (hsolved.posed.addMisfit?_eq hready.valid hc
        hsolved.laid.size_x)
        (leads_bind (leads_change ?_)))))))
    refine (ih (hto.samples_ne_nil hsamples) (hto.isLadder hladder) (hto.channels ▸ hc)
      hnext).mono ?_ fun e he => hto.meetsFreeNode_iff.mp he
    rintro last final ⟨next, hto', hfinal, hrelaxes⟩
    exact ⟨next, hto.trans hto', hfinal, fun res hres => hto.relaxes_iff.mp (hrelaxes res hres)⟩

omit hc in
/-- What solving channels one by one does. -/
theorem leads_solveChannels (extra : ℕ) {channels : List ℕ}
    (hchannels : ∀ channel ∈ channels, channel < data.channels)
    (h : r.IsUnderWay data settings ladder) :
    Leads (solveChannels tolerance extra channels) r
      (fun _ after => after.fit.grid ≠ none ∧
        ∀ channel ∈ channels, ∀ res ∈ ladder, data.Relaxes settings res channel)
      (data.MeetsFreeNode settings ladder) := by
  induction channels generalizing r data with
  | nil =>
    obtain ⟨g, hg, -⟩ := h.ready.grid
    refine leads_pure ⟨?_, fun channel hc => absurd hc List.not_mem_nil⟩
    rw [hg]
    exact Option.some_ne_none g
  | cons channel channels ih =>
    have hc := hchannels channel List.mem_cons_self
    refine leads_bind ((leads_solveChannel hsamples hladder hc ht extra h).imp ?_)
    rintro level after ⟨next, hto, hafter, hrelaxes⟩
    have hnext := hafter.setChannel channel level.x
    have hrest : ∀ channel ∈ channels, channel < next.channels := by
      intro other hother
      rw [hto.channels]
      exact hchannels other (List.mem_cons_of_mem channel hother)
    refine leads_bind (leads_change ?_)
    refine (ih (hto.samples_ne_nil hsamples) (hto.isLadder hladder) hrest hnext).mono ?_
      fun e he => hto.meetsFreeNode_iff.mp he
    rintro _ final ⟨hgrid, hall⟩
    refine ⟨hgrid, ?_⟩
    intro other hother res hres
    rcases List.mem_cons.mp hother with rfl | hother
    · exact hrelaxes res hres
    · exact hto.relaxes_iff.mp (hall other hother res hres)

end Steps

/-! ## Runs -/

namespace Fit.IsAccepted

variable {f : Fit ℝ} {c : CheckedSettings ℝ} {data : Prepared ℝ} (h : f.IsAccepted c data)

include h

/-- The ladder of an accepted input leads to the lattice that is asked for. -/
theorem isLadder {ladder : List (List ℕ)}
    (hladder : (fitLadder? data.res : Except (Failure ℝ) _) = .ok ladder) :
    data.IsLadder ladder := by
  obtain ⟨levels, hlevels, hlast, hres⟩ := h.exists_ladder
  cases hladder.symm.trans hlevels
  exact ⟨hres, hlast⟩

theorem isUnderWay_begun (ladder : List (List ℕ)) (notices : List (Notice ℝ)) :
    ({ fit := f.begun c data ladder, notices } : Running ℝ).IsUnderWay data
      (f.settings.ofChecked c) ladder := ⟨h.isReady_begun ladder, rfl, rfl⟩

section Ladder

variable {ladder : List (List ℕ)}
  (hladder : (fitLadder? data.res : Except (Failure ℝ) _) = .ok ladder)

include hladder

/-- Accepted input starts. -/
theorem exists_start? : ∃ s, f.start? = .ok s ∧ s.checked = c ∧ s.data = data ∧
    f.started s = f.begun c data ladder := by
  obtain ⟨notices, hprepare⟩ := h.prepared
  exact ⟨{ checked := c, data, notices, grid := Grid.laid data, ladder },
    Fit.start?_eq_ok_iff.mpr ⟨h.checked, hprepare, h.isValid.constant?_eq, hladder⟩, rfl, rfl, rfl⟩

/-- With samples a run solves all channels, and then looks at the grid. -/
theorem leads_runFit_of_solveChannels (hsamples : data.samples ≠ [])
    {good : Bool → Running ℝ → Prop} {bad : Failure ℝ → Prop}
    (hchannels : ∀ notices,
      Leads (solveChannels c.tolerance c.extraFit (List.range data.channels))
        { fit := f.begun c data ladder, notices }
        (fun _ after => ∃ g, after.fit.grid = some g ∧ good g.isNonMonotonic
          { after with fit := { after.fit with nonMonotonic := g.isNonMonotonic } }) bad) :
    Leads runFit { fit := f, notices := [] } good bad := by
  obtain ⟨s, hstart, rfl, rfl, hstarted⟩ := h.exists_start? hladder
  refine leads_runFit_of_start hstart (leads_finish hsamples ?_)
  unfold Fit.running
  rw [hstarted]
  exact hchannels _

theorem leads_runFit :
    Leads runFit { fit := f, notices := [] }
      (fun _ _ => data.samples ≠ [] → ∀ channel < data.channels, ∀ res ∈ ladder,
        data.Relaxes (f.settings.ofChecked c) res channel)
      (fun e => data.samples ≠ [] ∧ data.MeetsFreeNode (f.settings.ofChecked c) ladder e) := by
  by_cases hempty : data.samples = []
  · obtain ⟨s, hstart, rfl, rfl, -⟩ := h.exists_start? hladder
    exact leads_runFit_of_start hstart
      (leads_finish_of_isEmpty hempty fun hne => absurd hempty hne)
  · have hchannels : ∀ channel ∈ List.range data.channels, channel < data.channels :=
      fun channel hmem => List.mem_range.mp hmem
    have ht : 0 ≤ c.tolerance := (isValid_check h.checked).tolerance.le
    refine h.leads_runFit_of_solveChannels hladder hempty fun notices => ?_
    refine (leads_solveChannels hempty (h.isLadder hladder) ht c.extraFit hchannels
      (h.isUnderWay_begun ladder notices)).mono ?_ fun e he => ⟨hempty, he⟩
    rintro _ after ⟨hgrid, hall⟩
    obtain ⟨g, hg⟩ := Option.ne_none_iff_exists'.mp hgrid
    exact ⟨g, hg, fun _ channel hc => hall channel (List.mem_range.mpr hc)⟩

end Ladder

/-- How a run ends. -/
theorem run_cases {ladder : List (List ℕ)}
    (hladder : (fitLadder? data.res : Except (Failure ℝ) _) = .ok ladder) :
    ((∃ b, f.run.result = .ok b) ∧ (data.samples ≠ [] → ∀ channel < data.channels, ∀ res ∈ ladder,
      data.Relaxes (f.settings.ofChecked c) res channel)) ∨
    (∃ e, f.run.result = .error e ∧ data.samples ≠ [] ∧
      data.MeetsFreeNode (f.settings.ofChecked c) ladder e) := by
  rcases Fit.run_of_leads (h.leads_runFit hladder) with ⟨b, after, hrun, hgood⟩ | hfails
  · exact Or.inl ⟨⟨b, by rw [hrun]⟩, hgood⟩
  · exact Or.inr hfails

/-- Where every lattice is solved at once a run has a result. -/
theorem exists_run_eq_ok (hsmall : ∀ r ∈ data.res, r ≤ directResolution)
    (hspacing : ∀ s ∈ data.spacing, s = none) : ∃ b, f.run.result = .ok b := by
  obtain ⟨ladder, hladder, -, -, hbetween⟩ :=
    exists_fitLadder? h.isValid.axes h.isValid.resolutions
  have hnone : ∀ res ∈ ladder, ¬IsLarge res := fun res hres ⟨r, hr, hlarge⟩ =>
    absurd (forall_level_le (hbetween res hres) hsmall r hr) (not_le.mpr hlarge)
  rcases h.run_cases hladder with ⟨hresult, -⟩ | ⟨e, -, -, -, hfree⟩
  · exact hresult
  · exact absurd (fun res hres hlarge => absurd hlarge (hnone res hres))
      (hfree (Prepared.keepsAllApart_of_forall_none hspacing ladder))

end Fit.IsAccepted

end GridSpline
