import GridSpline.Proofs.Channel.View

/-!
# One channel of a level

A level of a channel is made, set up, given first node values and solved from what the fit holds of
that channel. So a fit of the channel alone makes the same level of it, except that there the
channel is the first one, and every step has the same result or fails alike.

## Main definitions

* `Level.alone` — the same level where its channel is the only one.

## Main statements

* `IsChannelOf.make?_eq`, `IsChannelOf.setup?_eq`, `IsChannelOf.seed?_eq`, `IsChannelOf.solve_eq` —
  the steps of a level.
* `IsChannelOf.smoothedCurvature?_eq` — what a second climb is drawn to.
* `addMisfit?_alone` — what an extra pass is drawn to.
-/

namespace GridSpline

open Scalar Failure

variable {α : Type}

/-- The same level where its channel is the only one. -/
def Level.alone (level : Level α) : Level α := { level with channel := 0 }

theorem Prepared.map_position_onChannel (c : ℕ) (data : Prepared α) :
    (data.onChannel c).samples.map (·.position) = data.samples.map (·.position) := by
  unfold Prepared.onChannel
  rw [List.map_map]
  rfl

/-- Entries of one channel are the same in the channel alone. -/
theorem Level.channelOf?_onChannel (c : ℕ) (data : Prepared α) (part : Sample α → List α)
    (hpart : ∀ s : Sample α, part (s.onChannel c) = onlyEntry c (part s)) :
    Level.channelOf? (data.onChannel c) 0 part = Level.channelOf? data c part := by
  unfold Level.channelOf? Prepared.onChannel
  rw [List.mapM_map]
  congr 1
  funext s
  rw [Function.comp_apply, hpart, entryAt_onlyEntry]

variable [Scalar α]

theorem weakDefault?_component (positions : List (List α)) (w : WeakFunction α) (c : ℕ)
    (weight : α) :
    weakDefault? positions (w.component c) 0 weight = weakDefault? positions w c weight := by
  unfold weakDefault?
  rw [funext (w.valueAt_component c)]

namespace Fit.IsChannelOf

variable {c : ℕ} {before : List (SolveReport α)} {fit fit' : Fit α}
  (h : fit.IsChannelOf c before fit')

include h

theorem filterStdev?_eq : fit'.filterStdev? = fit.filterStdev? := by
  unfold filterStdev?
  rw [h.settings]
  rfl

omit [Scalar α] in
theorem exists_prepared? : ∃ data, fit.prepared? = .ok data ∧ c < data.channels ∧
    fit'.prepared? = .ok (data.onChannel c) := by
  obtain ⟨data, hdata, hc, hdata'⟩ := h.prepared
  unfold prepared?
  rw [hdata, hdata']
  exact ⟨data, rfl, hc, rfl⟩

omit [Scalar α] in
theorem exists_grid? : ∃ g values, fit.grid? = .ok g ∧ fit'.grid? = .ok { g with values } := by
  obtain ⟨g, values, hg, hg'⟩ := h.grid
  unfold grid?
  rw [hg, hg']
  exact ⟨g, values, rfl, rfl⟩

theorem smoothnessFactor?_eq (axes : ℕ) (secondPass : Bool) :
    smoothnessFactor? fit' axes 0 secondPass = smoothnessFactor? fit axes c secondPass := by
  obtain ⟨data, hdata, -, hdata'⟩ := h.exists_prepared?
  unfold smoothnessFactor?
  rw [h.twoPass, h.settings, h.deviation, hdata, hdata']
  simp only [ok_bind, Settings.onChannel, Prepared.onChannel, List.length_map]

theorem stiffnessWeights?_eq (res : List ℕ) (secondPass : Bool) :
    stiffnessWeights? fit' res 0 secondPass = stiffnessWeights? fit res c secondPass := by
  unfold stiffnessWeights?
  rw [h.smoothnessFactor?_eq, h.symmetricDomain]

/-- The level of the channel alone is made as that of the channel is. -/
theorem make?_eq (res : List ℕ) (secondPass : Bool) :
    Level.make? fit' res 0 secondPass = Level.alone <$> Level.make? fit res c secondPass := by
  obtain ⟨g, values, hg, hg'⟩ := h.exists_grid?
  obtain ⟨data, hdata, -, hdata'⟩ := h.exists_prepared?
  have hpoints := data.map_position_onChannel c
  unfold Level.make?
  rw [hg, hg', hdata, hdata', h.stiffnessWeights?_eq]
  simp only [ok_bind, hpoints, map_bind, map_pure]
  rfl

variable {level : Level α} (hchannel : level.channel = c)

include hchannel

/-- The squares of the channel alone are those of the channel. -/
theorem squares?_eq : level.alone.squares? fit' = level.squares? fit := by
  obtain ⟨data, hdata, -, hdata'⟩ := h.exists_prepared?
  have hstiff : level.alone.stiffnessResiduals? (data.onChannel c) =
      level.stiffnessResiduals? data := by
    unfold Level.stiffnessResiduals?
    rw [hchannel]
    exact congrArg (· >>= _) (entryAt_onlyEntry c data.valueRange)
  have hweak : level.alone.weakResiduals? fit' = level.weakResiduals? fit := by
    unfold Level.weakResiduals?
    rw [h.settings, hchannel]
    unfold Settings.onChannel
    cases fit.settings.weakFunction with
    | none => rfl
    | some w =>
      simp only [Option.map_some, Level.alone, weakDefault?_component]
  have hsamples : level.alone.sampleResiduals? (data.onChannel c) =
      level.sampleResiduals? data := by
    unfold Level.sampleResiduals?
    rw [hchannel, ← Level.channelOf?_onChannel c data (·.weights) fun _ => rfl,
      ← Level.channelOf?_onChannel c data (·.targets) fun _ => rfl]
    rfl
  unfold Level.squares?
  rw [hdata, hdata', ok_bind, ok_bind, hstiff, hweak, hsamples]

/-- The equations of the channel alone are those of the channel. -/
theorem setup?_eq : level.alone.setup? fit' = Level.alone <$> level.setup? fit := by
  unfold Level.setup?
  rw [h.squares?_eq hchannel]
  simp only [map_bind, map_pure]
  rfl

/-- The first node values of the channel alone are those of the channel. -/
theorem seed?_eq (coarser : Option (Level α)) :
    level.alone.seed? fit' (coarser.map Level.alone) = Level.alone <$> level.seed? fit coarser := by
  obtain ⟨data, hdata, -, hdata'⟩ := h.exists_prepared?
  unfold Level.seed?
  cases coarser with
  | none =>
    have haverage : entryAt (α := α) (data.onChannel c).average 0 = entryAt data.average c :=
      entryAt_onlyEntry c data.average
    simp only [Option.map_none, hdata, hdata', ok_bind, map_bind, map_pure, hchannel]
    rw [← haverage]
    rfl
  | some coarse =>
    simp only [Option.map_some, map_bind, map_pure]
    rfl

omit hchannel

theorem setCurvature?_eq (source : List ℕ) (ccv : Curvature α) :
    level.alone.setCurvature? fit' source ccv =
      Level.alone <$> level.setCurvature? fit source ccv := by
  unfold Level.setCurvature?
  rw [h.symmetricDomain]
  simp only [map_bind, map_pure]
  rfl

/-- The channel alone is solved as the channel is. -/
theorem solve_eq (tolerance : Option α) :
    level.alone.solve fit' tolerance = level.solve fit tolerance := by
  unfold Level.solve
  rw [h.settings]
  rfl

theorem smoothedCurvature?_eq :
    smoothedCurvature? fit' level.alone = smoothedCurvature? fit level := by
  unfold smoothedCurvature?
  rw [h.filterStdev?_eq, h.symmetricDomain]
  rfl

end Fit.IsChannelOf

namespace Level

theorem onChannel_addToTarget (c : ℕ) (error : α) (s : Sample α) :
    (addToTarget c error s).onChannel c = addToTarget 0 error (s.onChannel c) := by
  unfold addToTarget Sample.onChannel
  rw [onlyEntry_modify]

/-- The misfit of the channel alone is that of the channel. -/
theorem addMisfit?_alone {level : Level α} {c : ℕ} (hchannel : level.channel = c)
    {data : Prepared α} (hc : c < data.channels) :
    level.alone.addMisfit? (data.onChannel c) = Prepared.onChannel c <$> level.addMisfit? data := by
  have hplace : Lattice.position? (data.onChannel c).channels level.alone.channel = some 0 := rfl
  unfold addMisfit?
  rw [hchannel, Lattice.position?_ofNat hc, hplace, require_some, require_some, ok_bind, ok_bind,
    ← channelOf?_onChannel c data (·.values) fun _ => rfl]
  simp only [map_bind, map_pure]
  refine bind_congr fun values => bind_congr fun found => bind_congr fun fitted => ?_
  unfold Prepared.onChannel
  rw [List.zipWith_map_right, List.map_zipWith]
  simp only [onChannel_addToTarget]

end Level

end GridSpline
