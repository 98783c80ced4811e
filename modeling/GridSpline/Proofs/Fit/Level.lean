import Mathlib
import GridSpline.Fit.Level
import GridSpline.Proofs.Equations.Stiffness
import GridSpline.Proofs.Equations.WeakDefault
import GridSpline.Proofs.Grid.Width
import GridSpline.Proofs.Interpolation.Cell
import GridSpline.Proofs.Interpolation.Matrix
import GridSpline.Proofs.Settings.Checked
import GridSpline.Proofs.Solver.Vector

/-!
# The equations of a level

What a level needs for its equations to be set up, and what the equations then are. Every weighted
square of a level couples nodes of the lattice that the stencil reaches, so nothing can go wrong
when it is added, and what is added is not lost.

## Main definitions

* `Level.IsPosed` — a level whose parts fit each other and the samples.
* `Level.IsWeighted` — a level on which no square counts negatively.
* `Level.squaresOf` — the weighted squares of such a level.
* `Level.pullScale` — the length that errors are measured against.

## Main statements

* `IsPosed.squares?_eq` — the squares are made.
* `IsPosed.placed` — the equations can hold every square.
* `IsPosed.exists_setup?` — the equations are set up: the second derivatives of the squares, and
  what they pull the nodes to.
-/

namespace GridSpline

open Scalar Failure
open Matrix
open GridSpline.Lattice

/-! ## Channels of the samples -/

/-- The extent of the values of a channel. -/
noncomputable def Prepared.rangeOf (data : Prepared ℝ) (channel : ℕ) : ℝ :=
  data.valueRange.getD channel 0

/-- The weight, the value and the target of a sample in a channel. -/
noncomputable def Sample.weightIn (s : Sample ℝ) (channel : ℕ) : ℝ := s.weights.getD channel 0

@[inherit_doc Sample.weightIn]
noncomputable def Sample.valueIn (s : Sample ℝ) (channel : ℕ) : ℝ := s.values.getD channel 0

@[inherit_doc Sample.weightIn]
noncomputable def Sample.targetIn (s : Sample ℝ) (channel : ℕ) : ℝ := s.targets.getD channel 0

namespace Level

theorem channelOf?_eq {data : Prepared ℝ} {channel : ℕ} {part : Sample ℝ → List ℝ}
    (h : ∀ s ∈ data.samples, channel < (part s).length) :
    channelOf? data channel part = .ok (data.samples.map fun s => (part s).getD channel 0) := by
  refine mapM_eq_ok_map ?_
  intro s hs
  rw [entryAt_ofNat (h s hs), List.getD_eq_getElem _ _ (h s hs)]

/-! ## The scale of errors -/

/-- The length that errors are measured against: that of what all squares pull to, without what
second differences pull to. -/
noncomputable def pullScale {n : ℕ} (stiff all : Fin n → ℝ) : ℝ :=
  max (√(max (all ⬝ᵥ all - stiff ⬝ᵥ stiff) 0)) minScale

theorem errorScale_eq {n : ℕ} {c b : Array ℝ} (hc : c.size = n) (hb : b.size = n) :
    errorScale c b = pullScale (vectorOf n c) (vectorOf n b) := by
  unfold errorScale pullScale
  rw [dot_eq hb hb, dot_eq hc hc, larger_eq, larger_eq, sqrt_eq]

/-! ## Levels that fit the samples -/

/-- The cell of a sample. -/
noncomputable def cellOf (level : Level ℝ) (s : Sample ℝ) : Cell ℝ :=
  Cell.ofPoint level.res level.low level.width s.position

/-- A level with at least two nodes along every axis, whose cells are those of the samples, and
which has all that its weighted squares are made of. -/
structure IsPosed (level : Level ℝ) (fit : Fit ℝ) (data : Prepared ℝ) (channel : ℕ) : Prop where
  prepared : fit.prepared = some data
  isChannel : level.channel = channel
  axes : level.res ≠ []
  resolutions : ∀ r ∈ level.res, 2 ≤ r
  low : level.low.length = level.res.length
  width : level.width.length = level.res.length
  positions : ∀ s ∈ data.samples, s.position.length = level.res.length
  weights : ∀ s ∈ data.samples, channel < s.weights.length
  targets : ∀ s ∈ data.samples, channel < s.targets.length
  range : channel < data.valueRange.length
  stiffness : StiffnessInput level.res level.stiffness level.spacing level.ccv
  weak : ∀ f, fit.settings.weakFunction = some f →
    f.IsDefinedOn channel level.res.length ∧ ∃ w, fit.settings.weak = some w
  bases : level.bases = data.samples.map fun s => (level.cellOf s).base
  cornerWeights : level.cornerWeights =
    data.samples.map fun s => GridSpline.cornerWeights (level.cellOf s).fraction
  cornerOffsets : level.cornerOffsets =
    GridSpline.cornerOffsets ((strides level.res).map Int.ofNat)
  interpolation : interpolationMatrix? level.bases level.cornerWeights.flatten level.cornerOffsets
    (size level.res) = .ok level.interpolation

/-- No square of the level counts negatively, and those of the samples count. -/
structure IsWeighted (level : Level ℝ) (fit : Fit ℝ) (data : Prepared ℝ) (channel : ℕ) : Prop where
  samples : ∀ s ∈ data.samples, 0 < s.weightIn channel
  stiffness : ∀ w ∈ level.stiffness, 0 ≤ w * data.rangeOf channel
  weak : ∀ w, fit.settings.weak = some w → 0 ≤ w.toScalar

/-! ## Their squares -/

/-- The position of a node. -/
noncomputable def positionOf (level : Level ℝ) (i : ℕ) : List ℝ :=
  List.zipWith (· + ·) level.low
    (List.zipWith (fun (c : ℕ) w => (c : ℝ) * w) (coordsOf level.res i) level.width)

/-- The weighted square of a sample. -/
noncomputable def sampleSquare (level : Level ℝ) (channel : ℕ) (s : Sample ℝ) : Residual ℝ :=
  sampleResidual level.cornerOffsets (level.cellOf s).base
    (GridSpline.cornerWeights (level.cellOf s).fraction) (s.weightIn channel) (s.targetIn channel)

/-- The weighted squares of second differences. -/
noncomputable def stiffSquares (level : Level ℝ) (data : Prepared ℝ) (channel : ℕ) :
    List (Residual ℝ) :=
  ((axes level.res).map (stiffnessAlong level.res
    (level.stiffness.map (· * data.rangeOf channel)) level.spacing level.ccv)).flatten

/-- The weighted squares of the weak default, if there is one. -/
noncomputable def weakSquaresOf (level : Level ℝ) (fit : Fit ℝ) (channel : ℕ) :
    List (Residual ℝ) :=
  match fit.settings.weakFunction, fit.settings.weak with
  | some f, some w => weakSquares (weakNodeWeight w.toScalar (size level.res) level.res.length)
      ((List.range (size level.res)).map fun i => f.value channel (level.positionOf i))
  | _, _ => []

theorem mem_weakSquaresOf {level : Level ℝ} {fit : Fit ℝ} {channel : ℕ} {r : Residual ℝ}
    (hr : r ∈ level.weakSquaresOf fit channel) :
    ∃ (f : WeakFunction ℝ) (w : Number ℝ), fit.settings.weak = some w ∧
      r ∈ weakSquares (weakNodeWeight w.toScalar (size level.res) level.res.length)
        ((List.range (size level.res)).map fun i => f.value channel (level.positionOf i)) := by
  unfold weakSquaresOf at hr
  split at hr
  · rename_i f w _ hw
    exact ⟨f, w, hw, hr⟩
  · exact absurd hr List.not_mem_nil

/-- All weighted squares of a level. -/
noncomputable def squaresOf (level : Level ℝ) (fit : Fit ℝ) (data : Prepared ℝ) (channel : ℕ) :
    Squares ℝ where
  stiff := level.stiffSquares data channel
  weak := level.weakSquaresOf fit channel
  samples := data.samples.map (level.sampleSquare channel)

namespace IsPosed

variable {level : Level ℝ} {fit : Fit ℝ} {data : Prepared ℝ} {channel : ℕ}
  (h : level.IsPosed fit data channel)

include h

theorem size_pos : 0 < size level.res :=
  Lattice.size_pos fun r hr => by
    have := h.resolutions r hr
    omega

theorem stiffnessInput : StiffnessInput level.res (level.stiffness.map (· * data.rangeOf channel))
    level.spacing level.ccv where
  weights := by rw [List.length_map, h.stiffness.weights]
  spacing := h.stiffness.spacing
  targets := h.stiffness.targets

theorem stiffnessResiduals?_eq :
    level.stiffnessResiduals? data = .ok (level.stiffSquares data channel) := by
  have hrange : entryAt (α := ℝ) data.valueRange level.channel = .ok (data.rangeOf channel) := by
    rw [h.isChannel, entryAt_ofNat h.range]
    unfold Prepared.rangeOf
    rw [List.getD_eq_getElem _ _ h.range]
  unfold stiffnessResiduals?
  rw [hrange, ok_bind, stiffness?_eq h.stiffnessInput h.axes]
  rfl

/-! ### The weak default -/

theorem length_positionOf (i : ℕ) : (level.positionOf i).length = level.res.length := by
  unfold positionOf
  rw [List.length_zipWith, List.length_zipWith, length_coordsOf, h.low, h.width, min_self, min_self]

theorem positions?_eq :
    (Lattice.allCoords level.res).mapM (Grid.positionAt? level.low level.width) =
      some ((List.range (size level.res)).map level.positionOf) := by
  unfold allCoords
  rw [List.mapM_map]
  refine mapM_eq_some_map ?_
  intro i _
  exact Grid.positionAt?_eq (h.low.trans h.width.symm) (by rw [length_coordsOf, h.width])

theorem weakResiduals?_eq : level.weakResiduals? fit = .ok (level.weakSquaresOf fit channel) := by
  unfold weakResiduals? weakSquaresOf
  cases hf : fit.settings.weakFunction with
  | none => rfl
  | some f =>
    obtain ⟨hdef, w, hw⟩ := h.weak f hf
    have hpositions : (List.range (size level.res)).map level.positionOf ≠ [] := by
      have := h.size_pos
      simp only [ne_eq, List.map_eq_nil_iff, List.range_eq_nil]
      omega
    have haxes : level.res.length ≠ 0 := fun h0 => h.axes (List.length_eq_zero_iff.mp h0)
    simp only [hw]
    rw [h.positions?_eq, require_some, ok_bind, require_some, ok_bind, Number.toScalar?_eq, ok_bind,
      h.isChannel, weakDefault?_eq hdef hpositions haxes, List.length_map, List.length_range,
      List.map_map]
    · rfl
    · intro p hp
      obtain ⟨i, -, rfl⟩ := List.mem_map.mp hp
      exact h.length_positionOf i

/-! ### The samples -/

theorem sampleResiduals?_eq :
    level.sampleResiduals? data = .ok (data.samples.map (level.sampleSquare channel)) := by
  have hcount : level.bases.length = data.samples.length := by
    rw [h.bases, List.length_map]
  unfold sampleResiduals?
  rw [h.isChannel, channelOf?_eq h.weights, ok_bind, hcount, stretch?_of_length (List.length_map _),
    require_some, ok_bind, channelOf?_eq h.targets, ok_bind,
    stretch?_of_length (List.length_map _), require_some, ok_bind, h.bases, h.cornerWeights,
    List.zip_map', List.zip_map']
  simp only
  rw [List.zipWith_map, List.zipWith_self]
  rfl

/-- The squares are made. -/
theorem squares?_eq : level.squares? fit = .ok (level.squaresOf fit data channel) := by
  have hdata : fit.prepared? = .ok data := by
    unfold Fit.prepared?
    rw [h.prepared, require_some]
  unfold squares?
  rw [hdata, ok_bind, h.stiffnessResiduals?_eq, ok_bind, h.weakResiduals?_eq, ok_bind,
    h.sampleResiduals?_eq]
  rfl

/-! ## The equations can hold them -/

theorem corner_mem {s : Sample ℝ} (hs : s ∈ data.samples) {o : ℤ} (ho : o ∈ level.cornerOffsets) :
    0 ≤ (level.cellOf s).base + o ∧ (level.cellOf s).base + o < size level.res := by
  rw [h.cornerOffsets, cornerOffsets_strides h.axes] at ho
  obtain ⟨bits, hbits, rfl⟩ := List.mem_map.mp ho
  show 0 ≤ stepOffset level.res _ + _ ∧ stepOffset level.res _ + _ < _
  rw [stepOffset_eq h.axes]
  exact corner_mem_lattice
    (Cell.isCellCoords_coordsAt h.low h.width (h.positions s hs) h.resolutions)
    (length_of_mem_corners hbits)

theorem pairwise_cornerOffsets : level.cornerOffsets.Pairwise fun o p =>
    o < p ∧ (p - o).toNat ∈ stencilOffsets level.res := by
  rw [h.cornerOffsets]
  exact GridSpline.pairwise_cornerOffsets h.axes h.resolutions

theorem length_cornerOffsets_eq {s : Sample ℝ} (hs : s ∈ data.samples) :
    (GridSpline.cornerWeights (level.cellOf s).fraction).length = level.cornerOffsets.length := by
  rw [h.cornerOffsets, length_cornerWeights, length_cornerOffsets, List.length_map,
    length_strides h.axes]
  unfold cellOf
  rw [Cell.length_fraction_ofPoint h.low h.width (h.positions s hs)]

theorem placed_sampleSquare {s : Sample ℝ} (hs : s ∈ data.samples) :
    (level.sampleSquare channel s).Placed level.res := by
  constructor
  · intro t ht
    exact h.corner_mem hs (List.of_mem_zip ht).1
  · have hfst : (level.cornerOffsets.zip
        (GridSpline.cornerWeights (level.cellOf s).fraction)).map Prod.fst =
        level.cornerOffsets := List.map_fst_zip (h.length_cornerOffsets_eq hs).ge
    have hpair := h.pairwise_cornerOffsets
    rw [← hfst, List.pairwise_map] at hpair
    exact hpair

/-- The equations can hold every square. -/
theorem placed {r : Residual ℝ} (hr : r ∈ (level.squaresOf fit data channel).all) :
    r.Placed level.res := by
  rcases List.mem_append.mp hr with hstiff | hrest
  · obtain ⟨l, hl, hr⟩ := List.mem_flatten.mp hstiff
    obtain ⟨a, ha, rfl⟩ := List.mem_map.mp hl
    exact placed_of_mem_stiffnessAlong h.resolutions ha hr
  · rcases List.mem_append.mp hrest with hweak | hsample
    · obtain ⟨f, w, -, hmem⟩ := mem_weakSquaresOf hweak
      exact placed_of_mem_weakSquares (by rw [List.length_map, List.length_range]) hmem
    · obtain ⟨s, hs, rfl⟩ := List.mem_map.mp hsample
      exact h.placed_sampleSquare hs

/-- No square counts negatively. -/
theorem weight_nonneg (hw : level.IsWeighted fit data channel) {r : Residual ℝ}
    (hr : r ∈ (level.squaresOf fit data channel).all) : 0 ≤ r.weight := by
  rcases List.mem_append.mp hr with hstiff | hrest
  · obtain ⟨l, hl, hr⟩ := List.mem_flatten.mp hstiff
    obtain ⟨a, -, rfl⟩ := List.mem_map.mp hl
    refine weight_nonneg_of_mem_stiffnessAlong h.resolutions (fun w hmem => ?_) hr
    obtain ⟨v, hv, rfl⟩ := List.mem_map.mp hmem
    exact hw.stiffness v hv
  · rcases List.mem_append.mp hrest with hweak | hsample
    · obtain ⟨f, w, hset, hmem⟩ := mem_weakSquaresOf hweak
      rw [weight_of_mem_weakSquares hmem]
      exact weakNodeWeight_nonneg (hw.weak w hset) _ _
    · obtain ⟨s, hs, rfl⟩ := List.mem_map.mp hsample
      exact (hw.samples s hs).le

/-! ## The equations -/

/-- The corners of the cells can be coupled. -/
theorem refuseCorners_eq_ok {offsets : List ℤ} (hin : ∀ o ∈ offsets, o ∈ level.cornerOffsets)
    (hpair : offsets.Pairwise fun o p => o < p ∧ (p - o).toNat ∈ stencilOffsets level.res) :
    refuseCorners (PackedMatrix.zero level.res : PackedMatrix ℝ) level.bases offsets = .ok () := by
  induction offsets with
  | nil => rfl
  | cons o later ih =>
    obtain ⟨hfirst, hrest⟩ := List.pairwise_cons.mp hpair
    have hnodes : level.bases.mapM (fun b => Lattice.position?
        (PackedMatrix.zero level.res : PackedMatrix ℝ).nodes (b + o)) =
        some (level.bases.map fun b => (b + o).toNat) := by
      refine mapM_eq_some_map ?_
      intro b hb
      rw [h.bases] at hb
      obtain ⟨s, hs, rfl⟩ := List.mem_map.mp hb
      obtain ⟨h0, hlt⟩ := h.corner_mem hs (hin o List.mem_cons_self)
      exact position?_of_nonneg h0 hlt
    have hcolumn : ∀ p ∈ later, ∃ column,
        (PackedMatrix.zero level.res : PackedMatrix ℝ).column? (p - o) = .ok column ∧ True := by
      intro p hp
      obtain ⟨hlt, hmem⟩ := hfirst p hp
      obtain ⟨column, hcolumn⟩ := PackedMatrix.exists_column?_of_nonneg
        (PackedMatrix.isOver_zero level.res) (sub_pos.mpr hlt).le hmem
      exact ⟨column, hcolumn, trivial⟩
    obtain ⟨columns, hcolumns, -⟩ := exists_mapM_eq_ok hcolumn
    unfold refuseCorners
    rw [hnodes, hcolumns]
    exact ih (fun q hq => hin q (List.mem_cons_of_mem o hq)) hrest

/-- The equations are set up, and their scale leaves out what second differences pull to. -/
theorem exists_setup?_pullScale : ∃ A b,
    level.setup? fit = .ok { level with
      matrix := some A
      rhs := b
      scale := pullScale (pull (size level.res) (level.stiffSquares data channel))
        (pull (size level.res) (level.squaresOf fit data channel).all) } ∧
    A.IsOver level.res ∧ b.size = size level.res ∧
    A.toSparse.toMatrix (size level.res) (size level.res) =
      hessian (size level.res) (level.squaresOf fit data channel).all ∧
    vectorOf (size level.res) b =
      pull (size level.res) (level.squaresOf fit data channel).all := by
  let sq := level.squaresOf fit data channel
  have hall : ∀ r ∈ sq.all, r.Placed level.res := fun r hr => h.placed hr
  have hstiff : ∀ r ∈ sq.stiff, r.Placed level.res :=
    fun r hr => hall r (List.mem_append_left _ hr)
  have hrest : ∀ r ∈ sq.weak ++ sq.samples, r.Placed level.res :=
    fun r hr => hall r (List.mem_append_right _ hr)
  obtain ⟨c, hc, hcsize, hcvec⟩ := exists_addTargets?
    (b := zeroRhs level.res) (by simp [zeroRhs]) hstiff
  obtain ⟨b, hb, hbsize, hbvec⟩ := exists_addTargets? hcsize hrest
  obtain ⟨A, hA, hAover, hAdense⟩ := PackedMatrix.exists_addSquares? h.axes
    (PackedMatrix.isOver_zero level.res) hall
  have hstiffvec : vectorOf (size level.res) c =
      pull (size level.res) (level.stiffSquares data channel) := by
    rw [hcvec, vectorOf_zeroRhs, zero_add]
    rfl
  have hallvec : vectorOf (size level.res) b =
      pull (size level.res) (level.squaresOf fit data channel).all := by
    rw [hbvec, hcvec, vectorOf_zeroRhs, zero_add, ← pull_append]
    rfl
  refine ⟨A, b, ?_, hAover, hbsize, ?_, hallvec⟩
  · unfold setup?
    rw [h.squares?_eq, ok_bind]
    simp only
    rw [h.refuseCorners_eq_ok (fun o ho => ho) h.pairwise_cornerOffsets, ok_bind, hc, ok_bind, hb,
      ok_bind, hA, ← hstiffvec, ← hallvec, ← errorScale_eq hcsize hbsize]
    rfl
  · rw [PackedMatrix.toMatrix_toSparse hAover, hAdense, PackedMatrix.dense_zero, zero_add]

/-- The equations are set up. -/
theorem exists_setup? : ∃ A b scale,
    level.setup? fit = .ok { level with matrix := some A, rhs := b, scale } ∧
    A.IsOver level.res ∧ b.size = size level.res ∧
    A.toSparse.toMatrix (size level.res) (size level.res) =
      hessian (size level.res) (level.squaresOf fit data channel).all ∧
    vectorOf (size level.res) b =
      pull (size level.res) (level.squaresOf fit data channel).all := by
  obtain ⟨A, b, hsetup, hrest⟩ := h.exists_setup?_pullScale
  exact ⟨A, b, _, hsetup, hrest⟩

end IsPosed

end Level

end GridSpline
