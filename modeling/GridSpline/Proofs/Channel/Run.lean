import GridSpline.Proofs.Channel.Climb
import GridSpline.Proofs.Channel.Given
import GridSpline.Proofs.Fit.Run

/-!
# Running one channel alone

The channels of a fit do not depend on each other. A run solves them one by one, and what it finds
for a channel, on the grid and in the reports, is what a run of a new fit finds that is given this
channel only. The run of all channels finds a change of direction if the run of some channel does.

## Main definitions

* `Running.SolvesApart` — channels that are solved as if each were alone.

## Main statements

* `solvesApart_solveChannels` — channels one by one are solved apart.
* `run_onChannel` — the run of a channel alone.
* `exists_run_eq_onChannel` — the run of all channels, put together from runs of one channel.
-/

namespace GridSpline

open Scalar Failure FitM
open GridSpline.Lattice

variable {α : Type}

/-! ## What the channels leave for each other -/

section Apart

variable {c : ℕ} {before : List (SolveReport α)} {fit fit' : Fit α}

/-- A fit of a channel alone does not see that another channel is solved. -/
theorem Fit.IsChannelOf.of_grows {r after : Running α} {other : ℕ} {lattices : List (List ℕ)}
    (h : r.fit.IsChannelOf c r.fit.reports fit') (hgrows : r.Grows other lattices after)
    (hne : c ≠ other) : after.fit.IsChannelOf c after.fit.reports fit' := by
  have hnone : fit'.reports = [] := List.self_eq_append_right.mp h.reports
  obtain ⟨data, hdata, hc, hdata'⟩ := h.prepared
  obtain ⟨next, hnext, hkeep⟩ := hgrows.exists_prepared hdata
  have hrest := hgrows.rest
  exact {
    twoPass := by rw [hrest, h.twoPass]
    symmetricDomain := by rw [hrest, h.symmetricDomain]
    verbose := by rw [hrest, h.verbose]
    ladder := by rw [hrest, h.ladder]
    settings := by rw [hrest, h.settings]
    deviation := by
      rw [hrest]
      exact h.deviation
    prepared := ⟨next, hnext, by rw [hkeep.rest]; exact hc, by
      rw [hdata', hkeep.onChannel_eq hne]⟩
    grid := by
      rw [hrest]
      exact h.grid
    reports := by rw [hnone, List.append_nil] }

theorem Fit.IsChannelOf.setChannel (h : fit.IsChannelOf c before fit') (other : ℕ) (x : Array α) :
    IsChannelOf c before { fit with grid := fit.grid.map (·.setChannel other x) } fit' :=
  { h with
    grid := by
      obtain ⟨g, values, hg, hg'⟩ := h.grid
      exact ⟨g.setChannel other x, values, by rw [hg]; rfl, hg'⟩ }

end Apart

/-! ## Channels one by one -/

/-- Channels that are solved as if each were alone; `single` has the outcome of each of them. -/
structure Running.SolvesApart (channels : List ℕ)
    (single : ℕ → Except (Failure α) (Level α) × Running α) (r after : Running α) : Prop where
  rest : after.fit = { r.fit with
    reports := after.fit.reports, prepared := after.fit.prepared, grid := after.fit.grid }
  prepared : after.fit.prepared.map (fun data => (data.channels, data.samples.length)) =
    r.fit.prepared.map fun data => (data.channels, data.samples.length)
  grid : ∀ g, r.fit.grid = some g → (∀ c ∈ channels, c < g.values.length) →
    ∃ values, after.fit.grid = some { g with values } ∧ values.length = g.values.length ∧
      (∀ c ∉ channels, values[c]? = g.values[c]?) ∧
      ∀ c ∈ channels, ∃ level last, single c = (.ok level, last) ∧ values[c]? = some level.x
  reports : after.fit.reports =
    r.fit.reports ++ channels.flatMap fun c => (single c).2.fit.reports

namespace Running.SolvesApart

variable {c : ℕ} {channels : List ℕ} {single : ℕ → Except (Failure α) (Level α) × Running α}
  {r mid last : Running α}

theorem nil (single : ℕ → Except (Failure α) (Level α) × Running α) (r : Running α) :
    r.SolvesApart [] single r where
  rest := rfl
  prepared := rfl
  grid g hg _ := ⟨g.values, hg, rfl, fun _ _ => rfl, fun _ hc => absurd hc List.not_mem_nil⟩
  reports := (List.append_nil _).symm

theorem cons (h : r.SolvesApart [c] single mid) (h' : mid.SolvesApart channels single last)
    (hfresh : c ∉ channels) : r.SolvesApart (c :: channels) single last where
  rest := by rw [h'.rest, h.rest]
  prepared := h'.prepared.trans h.prepared
  grid g hg hcount := by
    obtain ⟨values, hmid, hlength, hkeep, hfound⟩ := h.grid g hg fun d hd =>
      hcount d (List.mem_singleton.mp hd ▸ List.mem_cons_self)
    obtain ⟨values', hlast, hlength', hkeep', hfound'⟩ := h'.grid _ hmid fun d hd => by
      rw [hlength]
      exact hcount d (List.mem_cons_of_mem c hd)
    refine ⟨values', hlast, hlength'.trans hlength, fun d hd => ?_, fun d hd => ?_⟩
    · obtain ⟨hne, hd⟩ := not_or.mp (fun hor => hd (List.mem_cons.mpr hor))
      exact (hkeep' d hd).trans (hkeep d fun hmem => hne (List.mem_singleton.mp hmem))
    · rcases List.mem_cons.mp hd with rfl | hd
      · obtain ⟨level, after, hsingle, hvalue⟩ := hfound d List.mem_cons_self
        exact ⟨level, after, hsingle, (hkeep' d hfresh).trans hvalue⟩
      · exact hfound' d hd
  reports := by
    rw [h'.reports, h.reports, List.flatMap_cons, List.flatMap_cons, List.flatMap_nil,
      List.append_nil, List.append_assoc]

end Running.SolvesApart

variable [Scalar α] (tolerance : α) (extra : ℕ)

/-- A channel is solved as if it were alone. -/
theorem solvesApart_solveChannel {c : ℕ} {r alone : Running α}
    (h : r.fit.IsChannelOf c r.fit.reports alone.fit)
    (single : ℕ → Except (Failure α) (Level α) × Running α)
    (hsingle : single c = (solveChannel 0 tolerance extra).run.run alone) :
    Leads (solveChannel c tolerance extra) r
      (fun level after => (∃ lattices, r.Grows c lattices after) ∧ r.SolvesApart [c] single
        { after with fit := { after.fit with
          grid := after.fit.grid.map (·.setChannel c level.x) } }) fun _ => True := by
  refine ((alike_solveChannel tolerance h extra).leads.and
    (grows_solveChannel c tolerance extra)).mono ?_ fun _ _ => trivial
  rintro level after ⟨⟨_, last, hrun, hsolved, -, rfl⟩, hgrows⟩
  rw [hrun] at hsingle
  refine ⟨⟨_, hgrows⟩, ?_, ?_, fun g hg hcount => ?_, ?_⟩
  · rw [hgrows.rest]
  · obtain ⟨data, hdata, -, -⟩ := h.prepared
    obtain ⟨next, hnext, hkeep⟩ := hgrows.exists_prepared hdata
    show after.fit.prepared.map _ = _
    rw [hdata, hnext, Option.map_some, Option.map_some, hkeep.samples.length_eq, hkeep.rest]
  · refine ⟨g.values.set c level.x, ?_, List.length_set, fun d hd => ?_, fun d hd => ?_⟩
    · rw [hgrows.rest]
      show r.fit.grid.map _ = _
      rw [hg]
      rfl
    · rw [List.getElem?_set_ne fun heq => hd (List.mem_singleton.mpr heq.symm)]
    · obtain rfl := List.mem_singleton.mp hd
      exact ⟨level.alone, last, hsingle,
        List.getElem?_set_self (hcount d List.mem_cons_self)⟩
  · rw [List.flatMap_singleton, hsingle]
    exact hsolved.reports

/-- Channels one by one are solved as if each were alone. -/
theorem solvesApart_solveChannels {channels : List ℕ} (hnodup : channels.Nodup) {r : Running α}
    (alone : ℕ → Running α)
    (h : ∀ c ∈ channels, r.fit.IsChannelOf c r.fit.reports (alone c).fit) :
    Leads (solveChannels tolerance extra channels) r
      (fun _ after => r.SolvesApart channels
        (fun c => (solveChannel 0 tolerance extra).run.run (alone c)) after) fun _ => True := by
  induction channels generalizing r with
  | nil => exact leads_pure (.nil _ r)
  | cons c channels ih =>
    obtain ⟨hfresh, hnodup⟩ := List.nodup_cons.mp hnodup
    refine leads_bind ((solvesApart_solveChannel tolerance extra (h c List.mem_cons_self)
      (fun c => (solveChannel 0 tolerance extra).run.run (alone c)) rfl).imp ?_)
    rintro level after ⟨⟨lattices, hgrows⟩, hfirst⟩
    refine leads_bind (leads_change ((ih hnodup fun d hd => ?_).imp fun _ last hlast =>
      hfirst.cons hlast hfresh))
    exact ((h d (List.mem_cons_of_mem c hd)).of_grows hgrows
      fun heq => hfresh (heq ▸ hd)).setChannel c level.x

/-! ## Runs -/

variable {f : Fit α} {s : Start α} {c : ℕ}

/-- A grid changes direction where one of its channels does. -/
theorem Grid.isNonMonotonic_eq_any (g : Grid α) : g.isNonMonotonic =
    (List.range g.values.length).any fun c => (g.onChannel c).isNonMonotonic := by
  rw [Bool.eq_iff_iff]
  unfold Grid.isNonMonotonic Grid.onChannel
  simp only [List.any_eq_true, List.mem_range]
  constructor
  · rintro ⟨a, ha, x, hx, hchanges⟩
    obtain ⟨c, hc, rfl⟩ := List.mem_iff_getElem.mp hx
    refine ⟨c, hc, a, ha, g.values[c], ?_, hchanges⟩
    rw [onlyEntry_of_lt hc]
    exact List.mem_singleton.mpr rfl
  · rintro ⟨c, -, a, ha, x, hx, hchanges⟩
    exact ⟨a, ha, x, mem_of_mem_onlyEntry hx, hchanges⟩

omit [Scalar α] in
/-- When the first level is made, a fit of a channel alone stands where the fit of all channels
stands. -/
theorem Fit.isChannelOf_started (hc : c < s.data.channels) :
    IsChannelOf c [] (f.started s) ((f.onChannel c).started (s.onChannel c)) where
  twoPass := rfl
  symmetricDomain := rfl
  verbose := rfl
  ladder := rfl
  settings := rfl
  deviation := by
    have hentry : entryAt (α := α) ((s.onChannel c).data.deviation.map Nested.entry) 0 =
        entryAt (s.data.deviation.map Nested.entry) c := by
      rw [← entryAt_onlyEntry, onlyEntry_map]
      rfl
    exact congrArg (· >>= _) hentry
  prepared := ⟨s.data, rfl, hc, rfl⟩
  grid := ⟨s.grid, onlyEntry c s.grid.values, rfl, rfl⟩
  reports := rfl

/-- The run of a channel alone, once the channel is solved: it finds that channel of a grid with the
solution in its place. -/
theorem run_onChannel (hcomplete : f.given.IsComplete) (hstart : f.start? = .ok s)
    (hsamples : s.data.samples ≠ []) (hc : c < s.data.channels) {level : Level α} {last : Running α}
    (hsingle : (solveChannel 0 s.checked.tolerance s.checked.extraFit).run.run
      ((f.onChannel c).running (s.onChannel c)) = (.ok level, last))
    {g : Grid α} (hgrid : ∃ values, g = { s.grid with values } ∧ values[c]? = some level.x) :
    (f.onChannel c).run.result = .ok (g.onChannel c).isNonMonotonic ∧
      (f.onChannel c).run.fit.grid = some (g.onChannel c) ∧
      (f.onChannel c).run.fit.reports = last.fit.reports ∧
      last.fit.reports.map (·.res) = (List.replicate
        ((s.checked.extraFit + 1) * if f.twoPass then 2 else 1) s.ladder).flatten := by
  have hgrows := (grows_solveChannel 0 s.checked.tolerance s.checked.extraFit).of_run_eq hsingle
  have hcount := (Fit.grid_of_start? hstart).2.2
  have hfound : last.fit.grid.map (·.setChannel 0 level.x) = some (g.onChannel c) := by
    obtain ⟨values, rfl, hvalue⟩ := hgrid
    rw [hgrows.rest]
    show some ((s.grid.onChannel c).setChannel 0 level.x) = _
    unfold Grid.onChannel Grid.setChannel
    rw [onlyEntry_of_lt (hcount.symm ▸ hc), onlyEntry, hvalue]
    rfl
  have hnonempty : (s.onChannel c).data.samples ≠ [] := fun hnil =>
    hsamples (List.map_eq_nil_iff.mp hnil)
  have hleads : Leads runFit { fit := f.onChannel c, notices := [] } (fun b after =>
      b = (g.onChannel c).isNonMonotonic ∧ after.fit.grid = some (g.onChannel c) ∧
      after.fit.reports = last.fit.reports) fun _ => False := by
    refine leads_runFit_of_start (start?_onChannel hcomplete hstart hsamples hc)
      (leads_finish hnonempty (leads_bind ?_))
    exact leads_of_run_eq hsingle (leads_bind (leads_change (leads_pure
      ⟨_, hfound, rfl, hfound, rfl⟩)))
  obtain ⟨b, after, hrun, rfl, hresult, hreports⟩ := Fit.exists_run_eq hleads
  obtain ⟨l, hl, hlast⟩ := hgrows.reports
  rw [hrun]
  refine ⟨rfl, hresult, hreports, ?_⟩
  rw [hlast]
  exact hl

/-- With samples, a run with a result solves its channels apart. -/
theorem exists_solvesApart_of_run_eq_ok {b : Bool} (hstart : f.start? = .ok s)
    (hsamples : s.data.samples ≠ []) (hrun : f.run.result = .ok b) :
    ∃ after, (f.running s).SolvesApart (List.range s.data.channels)
        (fun c => (solveChannel 0 s.checked.tolerance s.checked.extraFit).run.run
          ((f.onChannel c).running (s.onChannel c))) after ∧
      ∃ g, after.fit.grid = some g ∧ b = g.isNonMonotonic ∧
        f.run.fit = { after.fit with nonMonotonic := b } := by
  have hcount := (Fit.grid_of_start? hstart).2.2
  have hleads : Leads runFit { fit := f, notices := [] } (fun b final => ∃ after,
      (f.running s).SolvesApart (List.range s.data.channels)
        (fun c => (solveChannel 0 s.checked.tolerance s.checked.extraFit).run.run
          ((f.onChannel c).running (s.onChannel c))) after ∧
      ∃ g, after.fit.grid = some g ∧ b = g.isNonMonotonic ∧
        final.fit = { after.fit with nonMonotonic := b }) fun _ => True := by
    refine leads_runFit_of_start hstart (leads_finish hsamples ?_)
    refine (solvesApart_solveChannels s.checked.tolerance s.checked.extraFit List.nodup_range
      (fun c => (f.onChannel c).running (s.onChannel c))
      fun c hc => Fit.isChannelOf_started (List.mem_range.mp hc)).imp fun _ after hafter => ?_
    obtain ⟨values, hgrid, -⟩ := hafter.grid s.grid rfl fun c hc =>
      hcount.symm ▸ List.mem_range.mp hc
    exact ⟨_, hgrid, after, hafter, _, hgrid, rfl, rfl⟩
  obtain ⟨final, hfit, -, after, hafter, g, hgrid, hb, hfinal⟩ :=
    Fit.exists_of_run_eq_ok hleads hrun
  exact ⟨after, hafter, g, hgrid, hb, hfit.trans hfinal⟩

/-- A run that ends with samples had them when it started. -/
theorem samples_ne_nil_of_run_eq_ok {b : Bool} {data : Prepared α} (hstart : f.start? = .ok s)
    (hrun : f.run.result = .ok b) (hdata : f.run.fit.prepared = some data)
    (hsamples : data.samples ≠ []) : s.data.samples ≠ [] := by
  intro hempty
  have hleads : Leads runFit { fit := f, notices := [] }
      (fun _ after => after.fit.prepared = some s.data) fun _ => True :=
    leads_runFit_of_start hstart (leads_finish_of_isEmpty hempty rfl)
  obtain ⟨after, hfit, -, hafter⟩ := Fit.exists_of_run_eq_ok hleads hrun
  rw [hfit, hafter, Option.some.injEq] at hdata
  exact hsamples (hdata ▸ hempty)

/-- The run of all channels, put together from runs of one channel. -/
theorem Fit.exists_run_eq_onChannel {b : Bool} {data : Prepared α} (hrun : f.run.result = .ok b)
    (hdata : f.run.fit.prepared = some data) (hsamples : data.samples ≠ [])
    (hcomplete : f.given.IsComplete) :
    ∃ (checked : CheckedSettings α) (g : Grid α) (nonMonotonic : ℕ → Bool),
      f.settings.check = .ok checked ∧ f.run.fit.grid = some g ∧
      g.values.length = data.channels ∧
      (∀ c < data.channels, (f.onChannel c).run.result = .ok (nonMonotonic c) ∧
        (f.onChannel c).run.fit.grid = some (g.onChannel c) ∧
        (f.onChannel c).run.fit.reports.map (·.res) =
          (List.replicate ((checked.extraFit + 1) * if f.twoPass then 2 else 1)
            f.run.fit.ladder).flatten) ∧
      f.run.fit.reports = (List.range data.channels).flatMap
        (fun c => (f.onChannel c).run.fit.reports) ∧
      b = (List.range data.channels).any nonMonotonic := by
  obtain ⟨s, hstart⟩ := Fit.exists_start?_of_run_eq_ok hrun
  have hcheck := (Fit.start?_eq_ok_iff.mp hstart).1
  have hcount := (Fit.grid_of_start? hstart).2.2
  have hnonempty := samples_ne_nil_of_run_eq_ok hstart hrun hdata hsamples
  obtain ⟨after, hafter, g, hgrid, hb, hfit⟩ :=
    exists_solvesApart_of_run_eq_ok hstart hnonempty hrun
  obtain ⟨values, hvalues, hlength, -, hfound⟩ := hafter.grid s.grid rfl fun c hc =>
    hcount.symm ▸ List.mem_range.mp hc
  cases hgrid.symm.trans hvalues
  have hchannels : data.channels = s.data.channels := by
    have hprepared := hafter.prepared
    rw [hfit] at hdata
    rw [show after.fit.prepared = some data from hdata] at hprepared
    exact congrArg Prod.fst (Option.some.inj hprepared)
  have hladder : f.run.fit.ladder = s.ladder := by
    rw [hfit, hafter.rest]
    rfl
  rw [hchannels, hladder]
  refine ⟨s.checked, _, fun c => (Grid.onChannel c { s.grid with values }).isNonMonotonic, hcheck,
    by rw [hfit]; exact hgrid, hlength.trans hcount, fun c hc => ?_, ?_, ?_⟩
  · obtain ⟨level, last, hsingle, hvalue⟩ := hfound c (List.mem_range.mpr hc)
    obtain ⟨hresult, hgridc, hreports, hres⟩ :=
      run_onChannel hcomplete hstart hnonempty hc hsingle ⟨values, rfl, hvalue⟩
    exact ⟨hresult, hgridc, by rw [hreports, hres]⟩
  · rw [hfit]
    refine hafter.reports.trans (List.flatMap_congr fun c hc => ?_)
    obtain ⟨level, last, hsingle, hvalue⟩ := hfound c hc
    obtain ⟨-, -, hreports, -⟩ := run_onChannel hcomplete hstart hnonempty
      (List.mem_range.mp hc) hsingle ⟨values, rfl, hvalue⟩
    rw [hreports, hsingle]
  · rw [hb, Grid.isNonMonotonic_eq_any, hlength.trans hcount]

/-! ## Two channels -/

/-- A sample of two channels, with a weight for each of them, in a corner of a lattice that is
solved at once. -/
noncomputable def Fit.pair : Fit ℝ :=
  .make
    { narrow.given with
      values := .block { shape := [1, 2], data := #[1, 0.5] }
      resolution := some (.block { shape := [2], data := #[.integer 2, .integer 2] })
      weights := some (.block { shape := [1, 2], data := #[1, 0.3] }) }
    narrow.settings true false false

/-- What the checks make of it. -/
noncomputable def pairData : Prepared ℝ where
  res := [2, 2]
  channels := 2
  samples := [{ position := [0, 0], values := [1, 0.5], weights := [1, 0.3], targets := [1, 0.5] }]
  low := [0, 0]
  high := [1, 1]
  average := [1, 0.5]
  valueLow := [0, 0]
  valueRange := [1, 1]
  deviation := [defaultDeviation, defaultDeviation]
  spacing := [none, none]

theorem yields_pair : Fit.pair.given.Yields .always pairData where
  resolutions := rfl
  samples := samples?_of_tables (p := { columns := 2, rows := [[0, 0]] })
    (v := { columns := 2, rows := [[1, 0.5]] }) (k := [[1, 0.3]]) rfl rfl rfl (by decide) rfl rfl
    (by norm_num)
  bounds := by
    have hlt : ¬(1 : ℝ) < 0 := by norm_num
    refine ⟨[0, 0], [1, 1], [], rfl, rfl, ?_⟩
    simp [pairData, extendDomain?, extendAxis, column, least?, greatest?, extendBound, hlt]
  paired := rfl
  extended := by simp [pairData]
  values := by
    have hwiden : widen (0 : ℝ) 1 [1] = (0, 1) ∧ widen (0 : ℝ) 1 [0.5] = (0, 1) := by
      norm_num [widen, least?, greatest?]
    refine ⟨[0, 0], [1, 1], rfl, rfl, ?_⟩
    simp [pairData, Prepared.columns, List.range_succ, column, hwiden]
  average := by simp [pairData, Prepared.columns, List.range_succ, column, meanOr]
  deviation := rfl
  spacing := rfl

theorem isAccepted_pair : Fit.pair.IsAccepted Fit.narrowSettings pairData where
  checked := Fit.check_narrow
  prepared := GivenSamples.prepare_iff.mpr yields_pair
  weakFunction w hw := absurd hw (by simp [Fit.pair, Fit.narrow, Fit.make])

/-- The run of two channels, put together from runs of one channel. -/
theorem Fit.exists_run_eq_onChannel_pair : pair.given.IsComplete ∧ ∃ b data,
    pair.run.result = .ok b ∧ pair.run.fit.prepared = some data ∧ data.samples ≠ [] ∧
    ∃ (checked : CheckedSettings ℝ) (g : Grid ℝ) (nonMonotonic : ℕ → Bool),
      pair.settings.check = .ok checked ∧ pair.run.fit.grid = some g ∧
      g.values.length = data.channels ∧
      (∀ c < data.channels, (pair.onChannel c).run.result = .ok (nonMonotonic c) ∧
        (pair.onChannel c).run.fit.grid = some (g.onChannel c) ∧
        (pair.onChannel c).run.fit.reports.map (·.res) =
          (List.replicate ((checked.extraFit + 1) * if pair.twoPass then 2 else 1)
            pair.run.fit.ladder).flatten) ∧
      pair.run.fit.reports = (List.range data.channels).flatMap
        (fun c => (pair.onChannel c).run.fit.reports) ∧
      b = (List.range data.channels).any nonMonotonic := by
  have hcomplete : pair.given.IsComplete :=
    ⟨fun _ _ x _ => isNumber x, fun _ _ x _ => isNumber x, fun _ _ _ _ x _ => isNumber x⟩
  obtain ⟨b, hrun⟩ := isAccepted_pair.exists_run_eq_ok (by decide) (by simp [pairData])
  obtain ⟨ladder, hladder, -⟩ := isAccepted_pair.exists_ladder
  obtain ⟨s, hstart, -, hdata, -⟩ := isAccepted_pair.exists_start? hladder
  have hnonempty : s.data.samples ≠ [] := hdata ▸ List.cons_ne_nil _ _
  obtain ⟨after, hafter, g, -, -, hfit⟩ := exists_solvesApart_of_run_eq_ok hstart hnonempty hrun
  obtain ⟨data, hprepared, hsize⟩ := Option.map_eq_some_iff.mp hafter.prepared
  have hsamples : data.samples ≠ [] := by
    intro hnil
    have hlength : data.samples.length = s.data.samples.length := congrArg Prod.snd hsize
    rw [hnil, List.length_nil, eq_comm, List.length_eq_zero_iff] at hlength
    exact hnonempty hlength
  have hpair : pair.run.fit.prepared = some data := by rw [hfit, ← hprepared]
  exact ⟨hcomplete, b, data, hrun, hpair, hsamples,
    Fit.exists_run_eq_onChannel hrun hpair hsamples hcomplete⟩

end GridSpline
