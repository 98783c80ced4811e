import Mathlib
import GridSpline.Proofs.Curvature.Capture
import GridSpline.Proofs.Curvature.Downsample
import GridSpline.Proofs.Curvature.Filter
import GridSpline.Proofs.Fit.Pivot
import GridSpline.Proofs.Solver.Solve

/-!
# Solving a level

What becomes of a level of a fit that is ready: it may be drawn to a captured curvature, its
equations are set up, it gets first node values and is solved. Only the solve can fail, and only on
a lattice that is too large to be solved at once, when some node has no place on the diagonal. That
is the case when nothing holds the node.

## Main definitions

* `Lattice.IsLarge` — a lattice that is not solved at once.
* `Prepared.HoldsAll` — all nodes of a lattice are held.
* `Curvature.IsOn` — a curvature captured on a lattice.
* `Level.IsSetUp` — a level whose equations are set up.

## Main statements

* `IsPosed.exists_isSetUp` — the equations of a level can be set up.
* `IsSetUp.exists_seed?` — it gets first node values.
* `IsSetUp.solve_cases` — how its solve ends.
* `IsSetUp.solve_eq_error` — when it fails for certain.
-/

namespace GridSpline

open Scalar Failure
open Matrix
open GridSpline.Lattice

/-- A lattice that is not solved at once. -/
def Lattice.IsLarge (res : List ℕ) : Prop := ∃ r ∈ res, directResolution < r

/-- All nodes of a lattice are held. -/
def Prepared.HoldsAll (data : Prepared ℝ) (settings : Settings ℝ) (res : List ℕ)
    (channel : ℕ) : Prop :=
  ∀ i < size res, data.HoldsNode settings res channel i

/-- A curvature captured on a lattice. -/
structure Curvature.IsOn (ccv : Curvature ℝ) (res : List ℕ) : Prop where
  axes : ccv.length = res.length
  nodes : ∀ p ∈ ccv, p.size = size res

namespace Level

/-- A level whose equations are set up. -/
structure IsSetUp (level : Level ℝ) (fit : Fit ℝ) (data : Prepared ℝ) (res : List ℕ) (channel : ℕ) :
    Prop where
  posed : level.IsPosed fit data channel
  laid : level.IsLaidOn data res
  rhs : level.rhs.size = size level.res
  matrix : ∃ A, level.matrix = some A ∧ A.IsOver level.res ∧
    A.toSparse.toMatrix (size level.res) (size level.res) =
      hessian (size level.res) (level.squaresOf fit data channel).all

/-! ## Curvature and equations -/

theorem exists_setCurvature? {level : Level ℝ} {fit : Fit ℝ} {data : Prepared ℝ} {res : List ℕ}
    {channel : ℕ} (hposed : level.IsPosed fit data channel) (hlaid : level.IsLaidOn data res)
    (hvalid : data.IsValid) (hlen : res.length = data.res.length) {ccv : Curvature ℝ}
    (hccv : ccv.IsOn data.res) :
    ∃ bent, level.setCurvature? fit data.res ccv = .ok bent ∧ bent.IsPosed fit data channel ∧
      bent.IsLaidOn data res ∧
      bent.ccv = some (downsampled data.res level.res fit.symmetricDomain ccv) := by
  have hlen' : data.res.length = level.res.length := by rw [hlaid.res_eq, hlen]
  have hout := downsample?_eq hlen' hvalid.axes fit.symmetricDomain hvalid.resolutions
    hposed.resolutions hccv.axes hccv.nodes
  refine ⟨{ level with ccv := some (downsampled data.res level.res fit.symmetricDomain ccv) }, ?_,
    hposed.withCurvature (length_downsampled hlen' _ hccv.axes)
      fun p hp => size_of_mem_downsampled _ hp, { hlaid with }, rfl⟩
  unfold setCurvature?
  rw [hout]
  rfl

theorem IsPosed.exists_isSetUp {level : Level ℝ} {fit : Fit ℝ} {data : Prepared ℝ} {res : List ℕ}
    {channel : ℕ} (hposed : level.IsPosed fit data channel) (hlaid : level.IsLaidOn data res) :
    ∃ posed, level.setup? fit = .ok posed ∧ posed.IsSetUp fit data res channel := by
  obtain ⟨A, b, scale, hsetup, hover, hsize, hmatrix, -⟩ := hposed.exists_setup?
  exact ⟨_, hsetup, { hposed with }, { hlaid with }, hsize, A, rfl, hover, hmatrix⟩

namespace IsSetUp

variable {level : Level ℝ} {fit : Fit ℝ} {data : Prepared ℝ} {res : List ℕ} {channel : ℕ}
  (h : level.IsSetUp fit data res channel)

include h

/-! ## First node values -/

theorem withValues {x : Array ℝ} (hx : x.size = size level.res) :
    ({ level with x } : Level ℝ).IsSetUp fit data res channel :=
  ⟨{ h.posed with }, { h.laid with x := by rw [hx, h.laid.res_eq] }, h.rhs, h.matrix⟩

/-- Without a coarser level all nodes start at the average. -/
theorem seed?_none (hvalid : data.IsValid) (hc : channel < data.channels) :
    level.seed? fit none =
      .ok { level with x := Array.replicate (size level.res) (data.average.getD channel 0) } := by
  have haverage : channel < data.average.length := by rwa [hvalid.average]
  have hmap : (level.x.map fun _ => data.average[channel]) =
      Array.replicate (size level.res) data.average[channel] := by
    rw [← h.laid.size_x, Array.map_const']
  unfold seed?
  simp only [Fit.prepared?, h.posed.prepared, require_some, ok_bind, h.posed.isChannel,
    entryAt_ofNat haverage, List.getD_eq_getElem _ _ haverage, hmap]
  rfl

/-- The node values of a coarser level are carried over. -/
theorem seed?_some {c : Level ℝ} {source : List ℕ} (hcoarse : c.IsLaidOn data source)
    (hlen : source.length = res.length) (hsource : ∀ r ∈ source, 2 ≤ r) :
    level.seed? fit (some c) = .ok { level with
      x := arrayOf (size level.res) (carried source level.res (vectorOf (size source) c.x)) } := by
  have hne : source ≠ [] := by
    intro hnil
    rw [hnil, List.length_nil, ← h.laid.res_eq] at hlen
    exact h.posed.axes (List.length_eq_zero_iff.mp hlen.symm)
  have hlen' : source.length = level.res.length := by rw [hlen, h.laid.res_eq]
  unfold seed?
  simp only
  rw [hcoarse.res_eq, resample?_eq hlen' hsource h.posed.resolutions hne hcoarse.x]
  rfl

/-- The equations get first node values, from a coarser level if there is one. -/
theorem exists_seed? (hvalid : data.IsValid) (hc : channel < data.channels)
    {coarser : Option (Level ℝ)} (hcoarser : ∀ c, coarser = some c →
      ∃ source, c.IsLaidOn data source ∧ source.length = res.length ∧ ∀ r ∈ source, 2 ≤ r) :
    ∃ x, level.seed? fit coarser = .ok { level with x } ∧ x.size = size level.res := by
  cases coarser with
  | none => exact ⟨_, h.seed?_none hvalid hc, Array.size_replicate⟩
  | some c =>
    obtain ⟨source, hcoarse, hlen, hsource⟩ := hcoarser c rfl
    exact ⟨_, h.seed?_some hcoarse hlen hsource, size_arrayOf _ _⟩

end IsSetUp

/-! ## The solve -/

/-- The system that is solved. -/
noncomputable def systemOf (level : Level ℝ) (A : PackedMatrix ℝ) (tolerance : ℝ) : LevelSystem ℝ :=
  { LevelSystem.make level.res A.toSparse level.rhs level.scale with tolerance }

theorem solve_eq {level : Level ℝ} {fit : Fit ℝ} {A : PackedMatrix ℝ} {n : Number ℝ}
    (hA : level.matrix = some A) (hn : fit.settings.lineSweeps = some n) (tolerance : ℝ) :
    level.solve fit (some tolerance) =
      (level.systemOf A tolerance).solve (iterationsUpTo n) level.x := by
  unfold solve
  rw [hA]
  simp only
  unfold LevelSystem.solveGiven
  rw [hn]
  rfl

theorem isSmall_eq_false_iff (s : LevelSystem ℝ) : s.isSmall = false ↔ IsLarge s.res := by
  unfold LevelSystem.isSmall IsLarge
  rw [← Bool.not_eq_true, List.all_eq_true]
  simp

namespace IsSetUp

variable {level : Level ℝ} {fit : Fit ℝ} {data : Prepared ℝ} {res : List ℕ} {channel : ℕ}
  (h : level.IsSetUp fit data res channel) {A : PackedMatrix ℝ} {tolerance : ℝ}

include h

theorem isSquare (hA : level.matrix = some A) (ht : 0 ≤ tolerance) :
    (level.systemOf A tolerance).IsSquare (size level.res) := by
  obtain ⟨A', hA', hover, -⟩ := h.matrix
  cases hA.symm.trans hA'
  have htidy := PackedMatrix.tidy_toSparse hover
  exact ⟨h.posed.axes, htidy.rows, htidy.columns, rfl, rfl, h.rhs, ht⟩

/-- The system cannot be relaxed where the lattice is large and has a node that nothing holds. -/
theorem meetsZero_iff (hA : level.matrix = some A) (hready : fit.IsReady data)
    (hc : channel < data.channels) (hne : data.samples ≠ []) (hapart : data.KeepsApart res) :
    (level.systemOf A tolerance).MeetsZero ↔
      IsLarge res ∧ ¬data.HoldsAll fit.settings res channel := by
  obtain ⟨A', hA', hover, hmatrix⟩ := h.matrix
  cases hA.symm.trans hA'
  have hweighted := hready.isWeighted h.laid hc hne
  have hzero : ∀ i : Fin (size level.res),
      A.toSparse.toMatrix (size level.res) (size level.res) i i = 0 ↔
        ¬data.HoldsNode fit.settings res channel i := by
    intro i
    rw [hmatrix, ← h.posed.hessian_apply_self_pos_iff_holdsNode h.laid hready.valid hweighted
      hapart i, not_lt]
    have hnonneg : 0 ≤ hessian (size level.res) (level.squaresOf fit data channel).all i i :=
      (posSemidef_hessian fun r hr => h.posed.weight_nonneg hweighted hr).diag_nonneg
    exact ⟨fun heq => heq.le, fun hle => le_antisymm hle hnonneg⟩
  have hsize : size level.res = size res := by rw [h.laid.res_eq]
  have hpivot := SparseMatrix.hasZeroPivot_lower_iff (PackedMatrix.tidy_toSparse hover)
  unfold LevelSystem.MeetsZero
  rw [isSmall_eq_false_iff]
  show IsLarge level.res ∧ hasZeroPivot A.toSparse.lower = true ↔ _
  rw [hpivot]
  refine and_congr (by rw [h.laid.res_eq]) ?_
  simp only [Prepared.HoldsAll, not_forall]
  constructor
  · rintro ⟨i, hi⟩
    exact ⟨i, hsize ▸ i.isLt, (hzero i).mp hi⟩
  · rintro ⟨i, hi, hfree⟩
    exact ⟨⟨i, hsize.symm ▸ hi⟩, (hzero _).mpr hfree⟩

section Held

variable (hready : fit.IsReady data) (hc : channel < data.channels) (hne : data.samples ≠ [])
  (ht : 0 ≤ tolerance)

include hready hc hne ht

/-- How a solve ends. -/
theorem solve_cases : (level.solve fit (some tolerance)).x.size = size level.res ∧
    ((∃ report, (level.solve fit (some tolerance)).result = .ok report) ∨
      ((level.solve fit (some tolerance)).result = .error .singular ∧ IsLarge res ∧
        (data.KeepsApart res → ¬data.HoldsAll fit.settings res channel))) := by
  obtain ⟨n, hn⟩ := hready.lineSweeps
  obtain ⟨A, hA, -⟩ := h.matrix
  rw [solve_eq hA hn]
  obtain ⟨hsize, hresult⟩ :=
    (h.isSquare hA ht).solve_cases (iterationsUpTo (.integer n : Number ℝ)) h.laid.size_x
  refine ⟨hsize, hresult.imp_right fun hfailed => ⟨hfailed.1, ?_, ?_⟩⟩
  · rw [← h.laid.res_eq]
    exact (isSmall_eq_false_iff _).mp hfailed.2.1
  · intro hapart
    exact ((h.meetsZero_iff hA hready hc hne hapart).mp hfailed.2).2

/-- If lines are not relaxed a node that nothing holds makes it fail for certain. -/
theorem solve_eq_error (hapart : data.KeepsApart res)
    (hn : fit.settings.lineSweeps = some (.integer 0)) (hlarge : IsLarge res)
    (hfree : ¬data.HoldsAll fit.settings res channel) :
    (level.solve fit (some tolerance)).result = .error .singular := by
  obtain ⟨A, hA, -⟩ := h.matrix
  have hzero : (level.systemOf A tolerance).MeetsZero :=
    (h.meetsZero_iff hA hready hc hne hapart).mpr ⟨hlarge, hfree⟩
  have hnone : iterationsUpTo (.integer 0 : Number ℝ) = 0 := rfl
  rw [solve_eq hA hn, hnone]
  exact (h.isSquare hA ht).solve_eq_error hzero h.laid.size_x

end Held

end IsSetUp

end Level

end GridSpline
