import Mathlib
import GridSpline.Proofs.Fit.Frame
import GridSpline.Proofs.Order.Assembly
import GridSpline.Proofs.Order.Cells
import GridSpline.Proofs.Order.Given

/-!
# A level of samples in another order

A level keeps a cell for every sample, and a matrix with a row for every sample. If the samples come
in another order then so do these; everything else of the level is the same. The squares of the
samples are assembled to the same equations, so the level is solved alike, and the misfits that are
added to the targets are those of the same samples.

Nothing is asked of the settings, the default function or the lattice. A step that fails for the one
level fails for the same reason for the other one.

## Main definitions

* `Fit.TakesOrder` — a fit of completed samples, and an order of them.
* `Level.reordered` — the same level of the samples in another order.
* `Level.HasCells` — a level with so many cells.

## Main statements

* `TakesOrder.make?_eq`, `TakesOrder.setup?_eq`, `TakesOrder.seed?_eq`, `solve_reordered` — the
  steps of a level.
* `smoothedCurvature?_reordered` — what a second climb is drawn to.
* `addMisfit?_reordered` — what an extra pass is drawn to.
-/

namespace GridSpline

open Scalar Failure
open GridSpline.Lattice

variable {α : Type} {order kept : List ℕ} {fit : Fit α} {data : Prepared α} {level next : Level α}

/-! ## Levels -/

namespace Level

/-- The same level of the samples in another order. -/
def reordered (kept : List ℕ) (level : Level α) : Level α :=
  { level with
    bases := entriesAt kept level.bases
    cornerWeights := entriesAt kept level.cornerWeights
    interpolation := level.interpolation.reordered kept }

/-- A level with so many cells, each of which has a row in the matrix. -/
structure HasCells (n : ℕ) (level : Level α) : Prop where
  bases : level.bases.length = n
  cornerWeights : level.cornerWeights.length = n
  rows : level.interpolation.rows.size = n

theorem HasCells.of_keeps {n : ℕ} (h : level.HasCells n) (hkeeps : level.Keeps next) :
    next.HasCells n := by
  rw [hkeeps]
  exact ⟨h.bases, h.cornerWeights, h.rows⟩

end Level

/-! ## Squares of samples -/

namespace Level

/-- The same corners are refused, if there are the same cells. -/
theorem refuseCorners_entriesAt {A : PackedMatrix α} {bases : List ℤ}
    (horder : kept.Perm (List.range bases.length)) (offsets : List ℤ) :
    refuseCorners A (entriesAt kept bases) offsets = refuseCorners A bases offsets := by
  induction offsets with
  | nil => rfl
  | cons o later ih =>
    unfold refuseCorners
    rw [ih]
    simp only [discard_eq_map, require_mapM, mapM_require_entriesAt horder, ← comp_map]

variable (hcells : level.HasCells data.samples.length)
  (horder : kept.Perm (List.range data.samples.length))

omit hcells horder in
/-- The squares of samples are in the cells of the samples. -/
theorem of_mem_sampleResiduals? {squares : List (Residual α)}
    (h : level.sampleResiduals? data = .ok squares) {r : Residual α} (hr : r ∈ squares) :
    ∃ base ∈ level.bases, ∃ weights weight target,
      r = sampleResidual level.cornerOffsets base weights weight target := by
  unfold sampleResiduals? at h
  simp only [bind_eq_ok, pure_eq_ok] at h
  obtain ⟨_, -, _, -, _, -, _, -, rfl⟩ := h
  rw [← List.map_uncurry_zip_eq_zipWith, List.mem_map] at hr
  obtain ⟨⟨⟨base, weights⟩, weight, target⟩, hmem, rfl⟩ := hr
  exact ⟨base, (List.of_mem_zip (List.of_mem_zip hmem).1).1, weights, weight, target, rfl⟩

include hcells in
/-- There is a square for every sample. -/
theorem length_sampleResiduals? {squares : List (Residual α)}
    (h : level.sampleResiduals? data = .ok squares) : squares.length = data.samples.length := by
  unfold sampleResiduals? at h
  simp only [bind_eq_ok, pure_eq_ok, require_eq_ok] at h
  obtain ⟨_, -, weights, hweights, _, -, targets, htargets, rfl⟩ := h
  rw [List.length_zipWith, List.length_zip, List.length_zip, length_stretch? hweights,
    length_stretch? htargets, hcells.bases, hcells.cornerWeights, min_self, min_self]

include horder

theorem channelOf?_reordered (channel : ℤ) (part : Sample α → List α) :
    channelOf? (data.reordered kept) channel part =
      entriesAt kept <$> channelOf? data channel part :=
  mapM_entriesAt horder fun _ _ _ he => (require_eq_error.mp he).2.symm

include hcells

/-- The squares of samples in another order are those of the samples, in that order. -/
theorem sampleResiduals?_reordered : (level.reordered kept).sampleResiduals? (data.reordered kept) =
    entriesAt kept <$> level.sampleResiduals? data := by
  have hlt : ∀ {β : Type} {l : List β}, l.length = data.samples.length → ∀ i ∈ kept, i < l.length :=
    forall_lt_length horder
  have hstretch : ∀ l : List α, l.length = data.samples.length →
      stretch? (level.reordered kept).bases.length (entriesAt kept l) = some (entriesAt kept l) := by
    intro l hl
    refine stretch?_of_length ?_
    rw [length_entriesAt (hlt hl)]
    exact (length_entriesAt (hlt hcells.bases)).symm
  unfold sampleResiduals?
  simp only [channelOf?_reordered horder, map_bind, bind_map_left]
  refine bind_congr_of_eq_ok fun weights hweights => ?_
  have hw : weights.length = data.samples.length := length_of_mapM_eq_ok hweights
  rw [hstretch _ hw, stretch?_of_length (hw.trans hcells.bases.symm), require_some, require_some,
    ok_bind, ok_bind]
  refine bind_congr_of_eq_ok fun targets htargets => ?_
  have ht : targets.length = data.samples.length := length_of_mapM_eq_ok htargets
  have hcorners : (level.bases.zip level.cornerWeights).length = data.samples.length := by
    rw [List.length_zip, hcells.bases, hcells.cornerWeights, min_self]
  have hpairs : (weights.zip targets).length = data.samples.length := by
    rw [List.length_zip, hw, ht, min_self]
  rw [hstretch _ ht, stretch?_of_length (ht.trans hcells.bases.symm), require_some, require_some,
    ok_bind, ok_bind, map_pure, entriesAt_zipWith _ (hlt hcorners) (hlt hpairs), List.zip, List.zip,
    entriesAt_zipWith _ (hlt hcells.bases) (hlt hcells.cornerWeights),
    entriesAt_zipWith _ (hlt hw) (hlt ht)]
  rfl

end Level

variable [Scalar α]

/-! ## Making a level -/

namespace Level

theorem hasCells_make? {res : List ℕ} {channel : ℤ} {secondPass : Bool}
    (hdata : fit.prepared? = .ok data) (h : make? fit res channel secondPass = .ok level) :
    level.HasCells data.samples.length := by
  unfold make? at h
  rw [hdata] at h
  simp only [bind_eq_ok, pure_eq_ok] at h
  obtain ⟨_, -, _, -, _, -, _, -, _, ⟨⟩, cells, hcells, A, hA, rfl⟩ := h
  obtain ⟨hcount, hweights⟩ := Cell.of_locate? hcells
  rw [List.length_map] at hcount
  refine ⟨(List.length_map _).trans hcount, (List.length_map _).trans hcount, ?_⟩
  have hrows : A.rows.size = (cells.map Cell.weighted).length :=
    size_rows_of_interpolationMatrix? hweights (by rwa [List.map_map, List.map_map])
  rwa [List.length_map, hcount] at hrows

end Level

/-- A fit of completed samples that are all between the bounds of its grid, and an order of them. -/
structure Fit.TakesOrder (kept : List ℕ) (data : Prepared α) (fit : Fit α) : Prop where
  prepared : fit.prepared = some data
  within : ∀ g, fit.grid = some g → ∀ s ∈ data.samples, IsWithin g.low g.high s.position
  order : kept.Perm (List.range data.samples.length)

namespace Fit.TakesOrder

variable (h : fit.TakesOrder kept data)

include h

theorem prepared?_eq : fit.prepared? = .ok data := by
  unfold Fit.prepared?
  rw [h.prepared, require_some]

theorem prepared?_reordered : (fit.reordered order kept).prepared? = .ok (data.reordered kept) := by
  unfold Fit.prepared? Fit.reordered
  rw [h.prepared, Option.map_some, require_some]

theorem length_samples : (data.reordered kept).samples.length = data.samples.length :=
  (perm_entriesAt h.order).length_eq

theorem stiffnessWeights?_eq (res : List ℕ) (channel : ℤ) (secondPass : Bool) :
    stiffnessWeights? (fit.reordered order kept) res channel secondPass =
      stiffnessWeights? fit res channel secondPass := by
  have hfactor : smoothnessFactor? (fit.reordered order kept) res.length channel secondPass =
      smoothnessFactor? fit res.length channel secondPass := by
    unfold smoothnessFactor?
    rw [h.prepared?_reordered, h.prepared?_eq]
    simp only [ok_bind, h.length_samples]
    rfl
  unfold stiffnessWeights?
  rw [hfactor]
  rfl

/-- Samples in another order have the same cells, in that order. -/
theorem locate?_eq {final : Grid α} (hfinal : fit.grid? = .ok final) (res : List ℕ)
    (width : List α) :
    Cell.locate? res final.low final.high width
        { columns := data.res.length, rows := (data.reordered kept).samples.map (·.position) } =
      entriesAt kept <$> Cell.locate? res final.low final.high width
        { columns := data.res.length, rows := data.samples.map (·.position) } := by
  have horder : kept.Perm (List.range (data.samples.map (·.position)).length) := by
    rw [List.length_map]
    exact h.order
  have hpositions : (data.reordered kept).samples.map (·.position) =
      entriesAt kept (data.samples.map (·.position)) := (entriesAt_map ..).symm
  rw [hpositions]
  refine Cell.locate?_entriesAt horder fun p hp => ?_
  obtain ⟨s, hs, rfl⟩ := List.mem_map.mp hp
  exact h.within final (require_eq_ok.mp hfinal) s hs

/-- The level of samples in another order is made as that of the samples is. -/
theorem make?_eq (res : List ℕ) (channel : ℤ) (secondPass : Bool) :
    Level.make? (fit.reordered order kept) res channel secondPass =
      Level.reordered kept <$> Level.make? fit res channel secondPass := by
  have hgrid : (fit.reordered order kept).grid? = fit.grid? := rfl
  unfold Level.make?
  rw [h.prepared?_eq, h.prepared?_reordered, h.stiffnessWeights?_eq, hgrid, map_bind]
  refine bind_congr_of_eq_ok fun final hfinal => ?_
  simp only [ok_bind, map_bind]
  refine bind_congr fun width => bind_congr fun _ => bind_congr fun stiffness => ?_
  refine (congrArg (· >>= _) (h.locate?_eq hfinal res width)).trans ?_
  rw [bind_map_left]
  refine bind_congr_of_eq_ok fun cells hcells => ?_
  obtain ⟨hcount, hweights⟩ := Cell.of_locate? hcells
  have horder : kept.Perm (List.range (cells.map Cell.weighted).length) := by
    rw [List.length_map, hcount, List.length_map]
    exact h.order
  have hmatrix := interpolationMatrix?_entriesAt (n := size res) horder hweights
  rw [List.map_map, List.map_map] at hmatrix
  rw [← entriesAt_map, ← entriesAt_map]
  refine (congrArg (· >>= _) hmatrix).trans ?_
  rw [bind_map_left]
  rfl

end Fit.TakesOrder

/-! ## Steps of a level -/

namespace Level

theorem setCurvature?_reordered (kept : List ℕ) (source : List ℕ) (ccv : Curvature α) :
    (level.reordered kept).setCurvature? (fit.reordered order kept) source ccv =
      Level.reordered kept <$> level.setCurvature? fit source ccv := by
  unfold setCurvature?
  rw [map_bind]
  rfl

/-- There are only squares if there are axes. -/
theorem of_squares? {squares : Squares α} (hdata : fit.prepared? = .ok data)
    (h : level.squares? fit = .ok squares) :
    level.res ≠ [] ∧ level.sampleResiduals? data = .ok squares.samples := by
  unfold squares? stiffnessResiduals? stiffness? at h
  rw [hdata] at h
  simp only [ok_bind, bind_eq_ok, guard_eq_ok, pure_eq_ok] at h
  obtain ⟨_, ⟨_, -, hne, -⟩, _, -, samples, hsamples, rfl⟩ := h
  rw [List.isEmpty_iff] at hne
  exact ⟨hne, hsamples⟩

/-- The levels are solved alike. -/
theorem solve_reordered (tolerance : Option α) :
    (level.reordered kept).solve (fit.reordered order kept) tolerance = level.solve fit tolerance :=
  rfl

theorem smoothedCurvature?_reordered :
    smoothedCurvature? (fit.reordered order kept) (level.reordered kept) =
      smoothedCurvature? fit level := rfl

theorem interpolate?_reordered : (level.reordered kept).interpolate? =
    (fun y => (entriesAt kept y.toList).toArray) <$> level.interpolate? := by
  unfold interpolate?
  show require .shapeMismatch ((level.interpolation.reordered kept).mulVec? level.x) = _
  rw [SparseMatrix.mulVec?_reordered]
  cases level.interpolation.mulVec? level.x <;> rfl

variable (hcells : level.HasCells data.samples.length)
  (horder : kept.Perm (List.range data.samples.length))

include hcells horder

/-- The misfits that are added to the targets are those of the same samples. -/
theorem addMisfit?_reordered : (level.reordered kept).addMisfit? (data.reordered kept) =
    Prepared.reordered kept <$> level.addMisfit? data := by
  have hlt : ∀ {β : Type} {l : List β}, l.length = data.samples.length → ∀ i ∈ kept, i < l.length :=
    forall_lt_length horder
  have hchannel : position? (data.reordered kept).channels (level.reordered kept).channel =
      position? data.channels level.channel := rfl
  unfold addMisfit?
  rw [hchannel]
  simp only [channelOf?_reordered horder, interpolate?_reordered, map_bind, bind_map_left]
  refine bind_congr fun channel => bind_congr_of_eq_ok fun values hvalues =>
    bind_congr_of_eq_ok fun fitted hfitted => ?_
  have hv : values.length = data.samples.length := length_of_mapM_eq_ok hvalues
  have hf : fitted.toList.length = data.samples.length := by
    rw [Array.length_toList, SparseMatrix.size_of_mulVec? (require_eq_ok.mp hfitted), hcells.rows]
  have hlength : (entriesAt kept fitted.toList).length = (entriesAt kept values).length := by
    rw [length_entriesAt (hlt hf), length_entriesAt (hlt hv)]
  have herrors : (List.zipWith (· - ·) values fitted.toList).length = data.samples.length := by
    rw [List.length_zipWith, hv, hf, min_self]
  rw [stretch?_of_length hlength, stretch?_of_length (hf.trans hv.symm), require_some, require_some,
    ok_bind, ok_bind, map_pure, ← entriesAt_zipWith _ (hlt hv) (hlt hf)]
  unfold Prepared.reordered
  rw [entriesAt_zipWith _ (hlt herrors) (hlt rfl)]

end Level

namespace Fit.TakesOrder

variable (h : fit.TakesOrder kept data) (hcells : level.HasCells data.samples.length)

include h

/-- The first node values are the same. -/
theorem seed?_eq (coarser : Option (Level α)) :
    (level.reordered kept).seed? (fit.reordered order kept) (coarser.map (Level.reordered kept)) =
      Level.reordered kept <$> level.seed? fit coarser := by
  unfold Level.seed?
  cases coarser with
  | none =>
    rw [Option.map_none, h.prepared?_eq, h.prepared?_reordered, ok_bind, ok_bind, map_bind]
    rfl
  | some coarse =>
    rw [Option.map_some, map_bind]
    rfl

include hcells

theorem squares?_eq : (level.reordered kept).squares? (fit.reordered order kept) =
    (fun s => { s with samples := entriesAt kept s.samples }) <$> level.squares? fit := by
  unfold Level.squares?
  rw [h.prepared?_eq, h.prepared?_reordered, ok_bind, ok_bind,
    Level.sampleResiduals?_reordered hcells h.order]
  simp only [map_bind, bind_map_left, map_pure]
  rfl

/-- The levels have the same equations. -/
theorem setup?_eq [IsExact α] : (level.reordered kept).setup? (fit.reordered order kept) =
    Level.reordered kept <$> level.setup? fit := by
  have horder : kept.Perm (List.range level.bases.length) := hcells.bases.symm ▸ h.order
  unfold Level.setup?
  rw [h.squares?_eq hcells, bind_map_left, map_bind]
  refine bind_congr_of_eq_ok fun squares hsquares => ?_
  show (Level.refuseCorners (.zero level.res) (entriesAt kept level.bases) level.cornerOffsets >>= _)
    = _
  rw [Level.refuseCorners_entriesAt horder, map_bind]
  refine bind_congr_of_eq_ok fun _ hcorners => ?_
  obtain ⟨hne, hsamples⟩ := Level.of_squares? h.prepared?_eq hsquares
  -- No corner is refused, so the squares of the samples can be assembled, and in any order.
  have hperm : (entriesAt kept squares.samples).Perm squares.samples :=
    perm_entriesAt ((Level.length_sampleResiduals? hcells hsamples).symm ▸ h.order)
  have hmatrix := PackedMatrix.addSquares?_append_perm (.zero level.res)
    (squares.stiff ++ squares.weak) hperm fun r hr => by
      obtain ⟨base, hbase, weights, weight, target, rfl⟩ :=
        Level.of_mem_sampleResiduals? hsamples hr
      exact exists_addSquare?_of_refuseCorners hbase weights weight target
        (exists_column?_zero hne) hcorners
  rw [List.append_assoc, List.append_assoc] at hmatrix
  rw [map_bind]
  show (addTargets? (zeroRhs level.res) squares.stiff >>= _) = _
  refine bind_congr_of_eq_ok fun curvatureRhs hrhs => ?_
  have hsize : curvatureRhs.size = (PackedMatrix.zero level.res : PackedMatrix α).nodes :=
    (size_of_addTargets? hrhs).trans Array.size_replicate
  have htargets := addTargets?_append_perm curvatureRhs squares.weak hperm fun r hr => by
    obtain ⟨base, hbase, weights, weight, target, rfl⟩ := Level.of_mem_sampleResiduals? hsamples hr
    exact exists_addTarget?_of_refuseCorners hbase weights weight target hcorners hsize
  have hres : (level.reordered kept).res = level.res := rfl
  simp only [Level.Squares.all, hres, hmatrix, htargets, map_bind]
  rfl

end Fit.TakesOrder

end GridSpline
