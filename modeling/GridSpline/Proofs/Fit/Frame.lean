import Mathlib
import GridSpline.Proofs.Fit.Running

/-!
# What a channel leaves alone

Whatever the samples and settings are, solving for a channel changes little of a fit: the reports of
the solves are appended, one for every lattice of the ladder each time it is climbed, and the
samples may get other targets in that channel. All else is what it was.

## Main definitions

* `Prepared.KeepsTargets` — samples that differ in the targets of one channel only.
* `Running.Grows` — a run that goes on for one channel.
* `Level.Keeps` — a level that has gone on.

## Main statements

* `res_of_solve_eq_ok` — a report says which lattice was solved.
* `grows_solveLevel`, `grows_solveLadder`, `grows_solvePasses`, `grows_solveChannel` — the steps.
-/

namespace GridSpline

open Scalar Failure FitM
open GridSpline.Lattice

variable {α : Type}

/-- A sample with other targets in one channel only. -/
structure Sample.KeepsTargets (channel : ℕ) (s t : Sample α) : Prop where
  rest : t = { s with targets := t.targets }
  targets : ∀ other, other ≠ channel → t.targets[other]? = s.targets[other]?

/-- Samples that differ in the targets of one channel only. -/
structure Prepared.KeepsTargets (channel : ℕ) (data next : Prepared α) : Prop where
  rest : next = { data with samples := next.samples }
  samples : List.Forall₂ (Sample.KeepsTargets channel) data.samples next.samples

/-- A run that goes on for one channel, with the reports of solves on some more lattices. -/
structure Running.Grows (channel : ℕ) (lattices : List (List ℕ)) (r after : Running α) : Prop where
  rest : after.fit = { r.fit with reports := after.fit.reports, prepared := after.fit.prepared }
  reports : ∃ l : List (SolveReport α), l.map (·.res) = lattices ∧
    after.fit.reports = r.fit.reports ++ l
  prepared : Option.Rel (Prepared.KeepsTargets channel) r.fit.prepared after.fit.prepared

/-- How often the ladder is climbed for a channel, each time its targets are set. -/
def Fit.climbsPerPass (fit : Fit α) : ℕ := if fit.twoPass then 2 else 1

/-- The lattices that are solved when the ladder is climbed a number of times. -/
def Fit.climbed (fit : Fit α) (climbs : ℕ) : List (List ℕ) :=
  (List.replicate climbs fit.ladder).flatten

theorem Fit.climbed_add (fit : Fit α) (m n : ℕ) :
    fit.climbed (m + n) = fit.climbed m ++ fit.climbed n := by
  unfold climbed
  rw [List.replicate_add, List.flatten_append]

theorem Fit.climbed_one (fit : Fit α) : fit.climbed 1 = fit.ladder := by
  simp [climbed]

theorem Sample.KeepsTargets.refl (channel : ℕ) (s : Sample α) : s.KeepsTargets channel s :=
  ⟨rfl, fun _ _ => rfl⟩

theorem Sample.KeepsTargets.trans {channel : ℕ} {s t u : Sample α} (h : s.KeepsTargets channel t)
    (h' : t.KeepsTargets channel u) : s.KeepsTargets channel u where
  rest := by rw [h'.rest, h.rest]
  targets other hne := (h'.targets other hne).trans (h.targets other hne)

theorem Prepared.KeepsTargets.refl (channel : ℕ) (data : Prepared α) :
    data.KeepsTargets channel data :=
  ⟨rfl, List.forall₂_same.mpr fun s _ => .refl channel s⟩

theorem Prepared.KeepsTargets.trans {channel : ℕ} {data next last : Prepared α}
    (h : data.KeepsTargets channel next) (h' : next.KeepsTargets channel last) :
    data.KeepsTargets channel last where
  rest := by rw [h'.rest, h.rest]
  samples := by
    refine List.forall₂_iff_get.mpr
      ⟨h.samples.length_eq.trans h'.samples.length_eq, fun i h1 h2 => ?_⟩
    have hnext : i < next.samples.length := h.samples.length_eq ▸ h1
    exact (h.samples.get h1 hnext).trans (h'.samples.get hnext h2)

namespace Running.Grows

variable {channel : ℕ} {lattices more : List (List ℕ)} {r after last : Running α}

theorem refl (channel : ℕ) (r : Running α) : r.Grows channel [] r where
  rest := rfl
  reports := ⟨[], rfl, (List.append_nil _).symm⟩
  prepared := by
    cases r.fit.prepared with
    | none => exact .none
    | some data => exact .some (.refl channel data)

theorem trans (h : r.Grows channel lattices after) (h' : after.Grows channel more last) :
    r.Grows channel (lattices ++ more) last where
  rest := by rw [h'.rest, h.rest]
  reports := by
    obtain ⟨l, hl, heq⟩ := h.reports
    obtain ⟨l', hl', heq'⟩ := h'.reports
    exact ⟨l ++ l', by rw [List.map_append, hl, hl'], by rw [heq', heq, List.append_assoc]⟩
  prepared := by
    have h1 := h.prepared
    have h2 := h'.prepared
    revert h1 h2
    generalize r.fit.prepared = a
    generalize after.fit.prepared = b
    generalize last.fit.prepared = c
    rintro (hab | _) (hbc | _)
    · exact .some (hab.trans hbc)
    · exact .none

theorem exists_prepared (h : r.Grows channel lattices after) {data : Prepared α}
    (hdata : r.fit.prepared = some data) :
    ∃ next, after.fit.prepared = some next ∧ data.KeepsTargets channel next := by
  have hrel := h.prepared
  rw [hdata] at hrel
  generalize after.fit.prepared = prepared at hrel ⊢
  cases hrel with
  | some hkeep => exact ⟨_, rfl, hkeep⟩

theorem climbsPerPass (h : r.Grows channel lattices after) :
    after.fit.climbsPerPass = r.fit.climbsPerPass := by
  rw [h.rest]
  rfl

theorem climbed (h : r.Grows channel lattices after) (climbs : ℕ) :
    after.fit.climbed climbs = r.fit.climbed climbs := by
  rw [h.rest]
  rfl

end Running.Grows

variable [Scalar α]

/-! ## Solves -/

namespace LevelSystem

variable {s : LevelSystem α} {x : Array α} {report : SolveReport α}

theorem res_of_iterate_eq_ok {n done : ℕ} {p : Progress α} {notices : List (Notice α)}
    (h : (s.iterate n done p notices).result = .ok report) : report.res = s.res := by
  induction n generalizing done p notices with
  | zero =>
    cases h
    rfl
  | succ n ih =>
    unfold iterate at h
    split at h
    · cases h
    · dsimp only at h
      split at h
      · cases h
        rfl
      · exact ih h

theorem res_of_solveDirect_eq_ok {tolerance : Option α}
    (h : (s.solveDirect tolerance x).result = .ok report) : report.res = s.res := by
  unfold solveDirect at h
  dsimp only at h
  split at h
  · cases h
  · obtain ⟨error, -, rfl⟩ := map_eq_ok.mp h
    rfl

omit [Scalar α] in
theorem res_of_fitted?_eq_some {t : LevelSystem α} (h : s.fitted? x = some t) : t.res = s.res := by
  unfold fitted? at h
  split at h
  · cases h
  · split at h
    · cases h
      rfl
    · obtain ⟨rhs, -, rfl⟩ := Option.map_eq_some_iff.mp h
      rfl

theorem res_of_solve_eq_ok {lineLimit : ℕ} (h : (s.solve lineLimit x).result = .ok report) :
    report.res = s.res := by
  unfold solve at h
  split at h
  · cases h
  · split at h
    · exact res_of_solveDirect_eq_ok h
    · split at h
      · cases h
      · rename_i fitted hfitted
        split at h
        · cases h
        · exact (res_of_iterate_eq_ok h).trans (res_of_fitted?_eq_some hfitted)

end LevelSystem

/-! ## Levels -/

namespace Level

variable {level next : Level α} {fit : Fit α} {channel : ℤ} {res : List ℕ}

/-- A level of a channel on a lattice. -/
structure IsFor (level : Level α) (channel : ℤ) (res : List ℕ) : Prop where
  channel : level.channel = channel
  res : level.res = res

theorem isFor_make? {secondPass : Bool} (h : make? fit res channel secondPass = .ok level) :
    level.IsFor channel res := by
  unfold make? at h
  simp only [bind_eq_ok, pure_eq_ok] at h
  obtain ⟨-, -, -, -, -, -, -, -, -, -, -, -, -, -, rfl⟩ := h
  exact ⟨rfl, rfl⟩

/-- The same level, with other equations and node values, or drawn to other curvature. -/
def Keeps (level next : Level α) : Prop :=
  next = { level with
    ccv := next.ccv, matrix := next.matrix, rhs := next.rhs, x := next.x, scale := next.scale }

theorem keeps_setCurvature? {source : List ℕ} {ccv : Curvature α}
    (h : level.setCurvature? fit source ccv = .ok next) : level.Keeps next := by
  unfold Level.setCurvature? at h
  simp only [bind_eq_ok, pure_eq_ok] at h
  obtain ⟨-, -, rfl⟩ := h
  exact rfl

theorem keeps_setup? (h : level.setup? fit = .ok next) : level.Keeps next := by
  unfold Level.setup? at h
  simp only [bind_eq_ok, pure_eq_ok] at h
  obtain ⟨-, -, -, -, -, -, -, -, -, -, rfl⟩ := h
  exact rfl

theorem keeps_seed? {coarser : Option (Level α)} (h : level.seed? fit coarser = .ok next) :
    level.Keeps next := by
  unfold Level.seed? at h
  cases coarser with
  | none =>
    simp only [bind_eq_ok, pure_eq_ok] at h
    obtain ⟨-, -, -, -, rfl⟩ := h
    exact rfl
  | some c =>
    simp only [bind_eq_ok, pure_eq_ok] at h
    obtain ⟨-, -, rfl⟩ := h
    exact rfl

variable (hfor : level.IsFor channel res)

include hfor

omit [Scalar α] in
theorem IsFor.of_keeps (h : level.Keeps next) : next.IsFor channel res := by
  rw [h]
  exact ⟨hfor.channel, hfor.res⟩

/-- A report says which lattice was solved. -/
theorem IsFor.res_of_solve_eq_ok {tolerance : α} {report : SolveReport α}
    (h : (level.solve fit (some tolerance)).result = .ok report) : report.res = res := by
  rw [← hfor.res]
  unfold Level.solve at h
  split at h
  · cases h
  · dsimp only [LevelSystem.solveGiven] at h
    split at h
    · exact LevelSystem.res_of_solve_eq_ok h
    · split at h
      · exact LevelSystem.res_of_solve_eq_ok h
      · cases h

omit [Scalar α] hfor in
theorem length_stretch? {n : ℕ} {l out : List α} (h : stretch? n l = some out) :
    out.length = n := by
  unfold stretch? at h
  split at h
  · rename_i hlen
    rw [← Option.some.inj h, hlen]
  · split at h
    · rw [← Option.some.inj h, List.length_replicate]
    · cases h

omit hfor in
theorem keepsTargets_addToTarget (channel : ℕ) (error : α) (s : Sample α) :
    s.KeepsTargets channel (addToTarget channel error s) where
  rest := rfl
  targets other hne := by
    show (s.targets.modify channel _)[other]? = _
    rw [List.getElem?_modify]
    simp only [if_neg (Ne.symm hne), id_map']

omit hfor in
/-- The misfit of a channel is added to the targets of that channel. -/
theorem keepsTargets_addMisfit? {data out : Prepared α} {channel : ℕ}
    (hchannel : level.channel = channel) (h : level.addMisfit? data = .ok out) :
    data.KeepsTargets channel out := by
  unfold addMisfit? at h
  simp only [bind_eq_ok, pure_eq_ok, require_eq_ok] at h
  obtain ⟨g, hg, values, hvalues, found, hfound, fitted, hfitted, rfl⟩ := h
  have hcount : values.length = data.samples.length := length_of_mapM_eq_ok hvalues
  have hplace : g = channel := by
    rw [hchannel] at hg
    unfold position? at hg
    rw [if_pos (Int.natCast_nonneg channel)] at hg
    split at hg
    · exact (Option.some.inj hg).symm
    · cases hg
  have herrors : (List.zipWith (· - ·) values fitted).length = data.samples.length := by
    rw [List.length_zipWith, length_stretch? hfitted, min_self, hcount]
  subst hplace
  refine ⟨rfl, List.forall₂_iff_get.mpr ⟨?_, fun i h1 h2 => ?_⟩⟩
  · show _ = (List.zipWith _ _ _).length
    rw [List.length_zipWith, herrors, min_self]
  · simp only [List.get_eq_getElem, List.getElem_zipWith]
    exact keepsTargets_addToTarget g _ _

end Level

/-! ## The steps -/

section Steps

variable {r : Running α} (channel : ℕ) (tolerance : α)

theorem grows_solvePosed (coarser : Option (Level α)) (fit : Fit α) {level : Level α}
    {res : List ℕ} (hfor : level.IsFor channel res) :
    Leads (solvePosed channel tolerance coarser fit level) r
      (fun last after => r.Grows channel [res] after ∧ last.channel = channel) fun _ => True := by
  unfold solvePosed
  refine leads_bind (leads_lift_ok fun up hup => leads_bind (leads_lift_ok fun seeded hseed => ?_))
  have hseeded := (hfor.of_keeps (Level.keeps_setup? hup)).of_keeps (Level.keeps_seed? hseed)
  refine leads_notify_if fun first => leads_bind (leads_lift_ok fun report hreport => ?_)
  refine leads_bind (leads_change (leads_notify_if fun second => leads_pure ⟨⟨rfl, ?_, ?_⟩, ?_⟩))
  · exact ⟨[report], by rw [List.map_singleton, hseeded.res_of_solve_eq_ok hreport], rfl⟩
  · exact (Running.Grows.refl channel r).prepared
  · exact hseeded.channel

theorem grows_solveLevel (secondPass : Bool) (ccv : Option (Curvature α))
    (coarser : Option (Level α)) (res : List ℕ) :
    Leads (solveLevel channel secondPass ccv tolerance coarser res) r
      (fun last after => r.Grows channel [res] after ∧ last.channel = channel) fun _ => True := by
  cases ccv with
  | none =>
    rw [solveLevel_none]
    exact leads_bind (leads_fit (leads_bind (leads_lift_ok fun level hlevel =>
      grows_solvePosed channel tolerance coarser _ (Level.isFor_make? hlevel))))
  | some c =>
    rw [solveLevel_some]
    exact leads_bind (leads_fit (leads_bind (leads_lift_ok fun level hlevel =>
      leads_bind (leads_lift_ok fun grid _ => leads_bind (leads_lift_ok fun bent hbent =>
        grows_solvePosed channel tolerance coarser _
          ((Level.isFor_make? hlevel).of_keeps (Level.keeps_setCurvature? hbent)))))))

theorem grows_foldlM (secondPass : Bool) (ccv : Option (Curvature α)) (levels : List (List ℕ))
    {coarser : Option (Level α)} (hcoarser : ∀ c, coarser = some c → c.channel = channel) :
    Leads (levels.foldlM (fun coarser res =>
        some <$> solveLevel channel secondPass ccv tolerance coarser res) coarser) r
      (fun last after => r.Grows channel levels after ∧ ∀ c, last = some c → c.channel = channel)
      fun _ => True := by
  induction levels generalizing r coarser with
  | nil => exact leads_pure ⟨.refl channel r, hcoarser⟩
  | cons res levels ih =>
    rw [List.foldlM_cons]
    refine leads_bind (leads_map ((grows_solveLevel channel tolerance secondPass ccv coarser
      res).imp ?_))
    rintro level after ⟨hafter, hlevel⟩
    refine (ih fun c hc => ?_).imp ?_
    · cases hc
      exact hlevel
    · rintro last final ⟨hfinal, hlast⟩
      exact ⟨hafter.trans hfinal, hlast⟩

theorem grows_solveLadder (secondPass : Bool) (ccv : Option (Curvature α)) :
    Leads (solveLadder channel secondPass ccv tolerance) r
      (fun last after => r.Grows channel (r.fit.climbed 1) after ∧ last.channel = channel)
      fun _ => True := by
  unfold solveLadder
  rw [r.fit.climbed_one]
  refine leads_bind (leads_fit (leads_bind ((grows_foldlM channel tolerance secondPass ccv _
    fun c hc => absurd hc (Option.some_ne_none c).symm).imp ?_)))
  rintro last after ⟨hafter, hlast⟩
  cases last with
  | none => exact leads_require_none rfl trivial
  | some c => exact leads_require rfl ⟨hafter, hlast c rfl⟩

theorem grows_solvePasses : Leads (solvePasses channel tolerance) r
    (fun last after => r.Grows channel (r.fit.climbed r.fit.climbsPerPass) after ∧
      last.channel = channel) fun _ => True := by
  unfold solvePasses Fit.climbsPerPass
  refine leads_bind (leads_fit ?_)
  by_cases htwo : r.fit.twoPass = true
  · rw [if_pos htwo, if_pos htwo]
    refine leads_bind ((grows_solveLadder channel tolerance false none).imp ?_)
    rintro first after ⟨hafter, -⟩
    refine leads_bind (leads_fit (leads_bind (leads_lift_ok fun ccv _ => ?_)))
    refine (grows_solveLadder channel tolerance true (some ccv)).imp ?_
    rintro last final ⟨hfinal, hlast⟩
    have hboth := hafter.trans hfinal
    rw [hafter.climbed, ← Fit.climbed_add] at hboth
    exact ⟨hboth, hlast⟩
  · rw [if_neg htwo, if_neg htwo]
    exact grows_solveLadder channel tolerance false none

/-- What all passes over a channel leave alone. -/
theorem grows_solveChannel (extra : ℕ) : Leads (solveChannel channel tolerance extra) r
    (fun _ after => r.Grows channel (r.fit.climbed ((extra + 1) * r.fit.climbsPerPass)) after)
    fun _ => True := by
  induction extra generalizing r with
  | zero =>
    rw [Nat.zero_add, Nat.one_mul]
    exact (grows_solvePasses channel tolerance).imp fun _ _ h => h.1
  | succ extra ih =>
    refine leads_bind ((grows_solvePasses channel tolerance).imp ?_)
    rintro level after ⟨hafter, hchannel⟩
    refine leads_bind (leads_fit (leads_bind (leads_lift_ok fun data hdata => leads_bind
      (leads_lift_ok fun next hnext => leads_bind (leads_change ?_)))))
    have hto : after.Grows channel []
        { after with fit := { after.fit with prepared := some next } } := by
      unfold Fit.prepared? at hdata
      rw [require_eq_ok] at hdata
      refine ⟨rfl, ⟨[], rfl, (List.append_nil _).symm⟩, ?_⟩
      rw [hdata]
      exact .some (Level.keepsTargets_addMisfit? hchannel hnext)
    refine ih.imp fun last final hfinal => ?_
    have hall := (hafter.trans hto).trans hfinal
    rwa [(hafter.trans hto).climbsPerPass, (hafter.trans hto).climbed, List.append_nil,
      ← Fit.climbed_add, Nat.add_comm, ← Nat.succ_mul] at hall

end Steps

end GridSpline
