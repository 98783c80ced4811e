import Mathlib
import GridSpline.Proofs.Fit.Energy
import GridSpline.Proofs.Motion.Filter
import GridSpline.Proofs.Motion.Space

/-!
# Levels of a moved problem

When the input space is moved, the samples and the bounds with it, a level becomes a level of the
rearranged lattice. Its energy at node values under their new numbers is what it was: second
differences are the same from both ends, the default function is asked at the same points, and the
nodes have the same shares in the samples. So the equations are the same up to the numbers of the
nodes, and errors are measured against the same length.

## Main definitions

* `Motion.sample` — a moved sample.
* `Motion.default` — the default function of the moved space.
* `Prepared.IsMoved`, `Fit.IsMoved`, `Level.IsMoved` — samples, a fit and a level that were moved.

## Main statements

* `IsMoved.curvatureEnergy_eq`, `IsMoved.weakEnergy_eq`, `IsMoved.sampleEnergy_eq` — the three parts
  of the energy.
* `IsMoved.exists_setup?` — the equations of the moved level.
-/

namespace GridSpline

open Scalar
open Matrix
open GridSpline.Lattice

namespace Motion

variable (v : Motion)

/-- A moved sample. -/
noncomputable def sample (s : Sample ℝ) : Sample ℝ := { s with position := v.point s.position }

/-- The default function of the moved space: a point is brought back first. -/
noncomputable def default : WeakFunction ℝ → WeakFunction ℝ
  | .unusable => .unusable
  | .function f => .function fun p => f (v.back p)

theorem valueAt_default (f : WeakFunction ℝ) (channel : ℤ) (p : List ℝ) :
    (v.default f).valueAt channel p = f.valueAt channel (v.back p) := by
  cases f <;> rfl

theorem value_default (f : WeakFunction ℝ) (channel : ℕ) {p : List ℝ}
    (h : Permutes v.axis p.length) :
    (v.default f).value channel (v.point p) = f.value channel p := by
  unfold WeakFunction.value
  rw [v.valueAt_default, v.back_point h]

end Motion

/-- Samples that were moved, and what belongs to them. -/
structure Prepared.IsMoved (v : Motion) (data data' : Prepared ℝ) : Prop where
  res : Moves v.axis (fun _ r => r) data.res data'.res
  channels : data'.channels = data.channels
  samples : data'.samples = data.samples.map v.sample
  bounds : Moves v.axis v.interval (data.low.zip data.high) (data'.low.zip data'.high)
  average : data'.average = data.average
  valueLow : data'.valueLow = data.valueLow
  valueRange : data'.valueRange = data.valueRange
  deviation : data'.deviation = data.deviation
  spacing : Moves v.axis v.rearrangement.turnSpacing data.spacing data'.spacing

/-- A fit that is ready for samples, and one that is ready for the moved samples. -/
structure Fit.IsMoved (v : Motion) (fit fit' : Fit ℝ) (data data' : Prepared ℝ) : Prop where
  ready : fit.IsReady data
  ready' : fit'.IsReady data'
  data : data.IsMoved v data'
  settings : fit'.settings =
    { fit.settings with weakFunction := fit.settings.weakFunction.map v.default }
  twoPass : fit'.twoPass = fit.twoPass
  symmetricDomain : fit'.symmetricDomain = fit.symmetricDomain

/-- A level on a lattice, and one on the rearranged lattice over the moved bounds. -/
structure Level.IsMoved (v : Motion) (level level' : Level ℝ) : Prop where
  lattice : v.rearrangement.Relates level.res level'.res
  stiffness : Moves v.axis (fun _ w => w) level.stiffness level'.stiffness
  spacing : Moves v.axis v.rearrangement.turnSpacing level.spacing level'.spacing
  ccv : Option.Rel (Moves v.axis fun _ => lattice.renumbered) level.ccv level'.ccv
  nodes : ∀ i, level'.positionOf (v.rearrangement.nodeOn level.res level'.res i) =
    v.point (level.positionOf i)
  places : ∀ p : List ℝ, p.length = level.res.length →
    Moves v.axis (v.rearrangement.turnPlace level.res) (Cell.placeAt level.low level.width p)
      (Cell.placeAt level'.low level'.width (v.point p))

namespace Level

/-- The weighted square of a second difference, by the line of its middle node. -/
theorem curvatureTerm_eq (level : Level ℝ) (data : Prepared ℝ) (channel : ℕ) {n : ℕ}
    (x : Fin n → ℝ) {a : Axis} {i : ℕ} (h : a.IsInterior i) :
    level.curvatureTerm data channel x a i =
      level.stiffness.getD a.index 0 * data.rangeOf channel * surfaceFactor (a.depth i - 1) *
        (((axes level.res).filter fun b => b.index ≠ a.index).map fun b =>
          surfaceFactor (b.depth i)).prod *
        (secondDifferenceAt (level.spacing.getD a.index none)
          (fun p => nodeValue x (lineNode a i p : ℕ)) (a.coord i) - level.curvatureTarget a i) ^ 2 := by
  have hbefore : ((i - a.stride : ℕ) : ℤ) = (i : ℤ) - a.stride :=
    Int.ofNat_sub (stride_le_of_isInterior h)
  unfold curvatureTerm secondDifferenceAt
  simp only
  rw [lineNode_coord_pred h.1, lineNode_coord, lineNode_coord_succ, hbefore]
  push_cast
  rfl

namespace IsMoved

variable {v : Motion} {level level' : Level ℝ} (h : level.IsMoved v level')
  {fit fit' : Fit ℝ} {data data' : Prepared ℝ} (hfit : fit.IsMoved v fit' data data')
  {channel : ℕ}

/-! ## Second differences -/

section Curvature

variable {a : Axis} (ha : a ∈ axes level.res)

include h ha

/-- What a second difference is drawn to. -/
theorem curvatureTarget_eq {i : ℕ} (hi : i < size level.res)
    (hccv : ∀ parts, level.ccv = some parts → parts.length = level.res.length) :
    level'.curvatureTarget (v.rearrangement.axisOn level'.res a)
        (v.rearrangement.nodeOn level.res level'.res i) = level.curvatureTarget a i := by
  have hrel := h.ccv
  unfold curvatureTarget
  generalize level.ccv = ccv at hrel hccv ⊢
  generalize level'.ccv = ccv' at hrel ⊢
  cases hrel with
  | none => rfl
  | @some parts parts' hparts =>
    have hindex : a.index < parts.length := hccv parts rfl ▸ index_lt ha
    simp only
    rw [show (v.rearrangement.axisOn level'.res a).index = v.axis a.index from rfl,
      hparts.getD hindex #[]]
    have hvalue := congrFun (h.lattice.vectorOf_renumbered (parts.getD a.index #[]))
      (h.lattice.nodes ⟨i, hi⟩)
    rw [Function.comp_apply, Equiv.symm_apply_apply] at hvalue
    exact hvalue

omit ha in
/-- The factors of a node along all other axes. -/
theorem prod_surfaceFactor_eq (i : ℕ) :
    (((axes level'.res).filter fun b =>
        b.index ≠ (v.rearrangement.axisOn level'.res a).index).map fun b =>
      surfaceFactor (b.depth (v.rearrangement.nodeOn level.res level'.res i))).prod =
    (((axes level.res).filter fun b => b.index ≠ a.index).map fun b =>
      surfaceFactor (b.depth i)).prod := by
  rw [((h.lattice.perm_axes.filter _).map _).prod_eq, List.filter_map, List.map_map]
  have hfilter : (axes level.res).filter ((fun b : Axis =>
      decide (b.index ≠ (v.rearrangement.axisOn level'.res a).index)) ∘
        v.rearrangement.axisOn level'.res) =
      (axes level.res).filter fun b => decide (b.index ≠ a.index) := by
    refine List.filter_congr fun b _ => ?_
    rw [Function.comp_apply, decide_eq_decide]
    exact (v.axis.injective.eq_iff (a := b.index) (b := a.index)).not
  rw [hfilter]
  refine congrArg List.prod (List.map_congr_left fun b hb => ?_)
  rw [Function.comp_apply, h.lattice.depth_axisOn (List.mem_of_mem_filter hb)]

end Curvature

section Energy

variable (hposed : level.IsPosed fit data channel)

include h hposed hfit

/-- The weighted square of a second difference. -/
theorem curvatureTerm_axisOn {a : Axis} (ha : a ∈ axes level.res) {i : ℕ} (hi : i < size level.res)
    (hint : a.IsInterior i) (x : Fin (size level.res) → ℝ) :
    level'.curvatureTerm data' channel (x ∘ h.lattice.nodes.symm)
        (v.rearrangement.axisOn level'.res a) (v.rearrangement.nodeOn level.res level'.res i) =
      level.curvatureTerm data channel x a i := by
  have hint' := (h.lattice.isInterior_axisOn ha i).mpr hint
  have hindex := index_lt ha
  have hstiff : a.index < level.stiffness.length := by rwa [hposed.stiffness.weights]
  have hspacing : a.index < level.spacing.length := by
    rwa [hposed.stiffness.spacing.length_eq]
  have hcount := length_getD_spacing hposed.stiffness.spacing ha
  have hrange : data'.rangeOf channel = data.rangeOf channel := by
    unfold Prepared.rangeOf
    rw [hfit.data.valueRange]
  have haxis : (v.rearrangement.axisOn level'.res a).index = v.axis a.index := rfl
  rw [curvatureTerm_eq _ _ _ _ hint', curvatureTerm_eq _ _ _ _ hint,
    h.prod_surfaceFactor_eq, h.lattice.depth_axisOn ha,
    h.curvatureTarget_eq ha hi fun parts hc => (hposed.stiffness.targets parts hc).1, hrange, haxis,
    h.stiffness.getD hstiff 0, h.spacing.getD hspacing none,
    h.lattice.secondDifferenceAt_axisOn ha hi hint hcount]

/-- The part of the energy that keeps the fit smooth. -/
theorem curvatureEnergy_eq (x : Fin (size level.res) → ℝ) :
    level'.curvatureEnergy data' channel (x ∘ h.lattice.nodes.symm) =
      level.curvatureEnergy data channel x := by
  unfold curvatureEnergy
  refine (h.lattice.moves_axes.map_perm fun e a hea => ?_).sum_eq
  obtain ⟨ha, -⟩ := mem_axes_of_getElem? hea
  rw [((h.lattice.perm_interior ha).map _).sum_eq, List.map_map]
  refine congrArg List.sum (List.map_congr_left fun i hi => ?_)
  obtain ⟨hlt, hint⟩ := mem_interior.mp hi
  exact h.curvatureTerm_axisOn hfit hposed ha hlt hint x

/-- The part of the energy that draws to the default function. -/
theorem weakEnergy_eq (x : Fin (size level.res) → ℝ) :
    level'.weakEnergy fit' channel (x ∘ h.lattice.nodes.symm) = level.weakEnergy fit channel x := by
  unfold weakEnergy
  rw [hfit.settings]
  cases fit.settings.weakFunction with
  | none => rfl
  | some f =>
    cases fit.settings.weak with
    | none => rfl
    | some w =>
      have hweight : weakNodeWeight w.toScalar (size level'.res) level'.res.length =
          weakNodeWeight w.toScalar (size level.res) level.res.length := by
        rw [h.lattice.size_eq, h.lattice.length_eq]
      simp only [Option.map_some]
      rw [← h.lattice.nodes.sum_comp, hweight]
      refine Finset.sum_congr rfl fun i _ => ?_
      have hpermutes : Permutes v.axis (level.positionOf i).length := by
        rw [hposed.length_positionOf]
        exact h.lattice.permutes
      rw [Function.comp_apply, Equiv.symm_apply_apply, h.lattice.nodes_apply, h.nodes,
        v.value_default f channel hpermutes]

variable (hlaid : level.IsLaidOn data level.res) (hposed' : level'.IsPosed fit' data' channel)
  (hlaid' : level'.IsLaidOn data' level'.res)

include hlaid hposed' hlaid'

/-- The value at a moved sample is what it was. -/
theorem form_sample_eq {s : Sample ℝ} (hs : s ∈ data.samples) (x : Fin (size level.res) → ℝ) :
    (level'.sampleSquare channel (v.sample s)).form (size level'.res) ⬝ᵥ
        (x ∘ h.lattice.nodes.symm) =
      (level.sampleSquare channel s).form (size level.res) ⬝ᵥ x := by
  have hs' : v.sample s ∈ data'.samples := by
    rw [hfit.data.samples]
    exact List.mem_map_of_mem hs
  have hform := hposed.form_sampleSquare_apply hlaid hfit.ready.valid hs
  have hform' := hposed'.form_sampleSquare_apply hlaid' hfit.ready'.valid hs'
  unfold dotProduct
  simp only [hform, hform']
  exact h.lattice.sum_share_comp_symm (h.places s.position (hposed.positions s hs)) x

/-- The part of the energy that draws to the samples. -/
theorem sampleEnergy_eq (x : Fin (size level.res) → ℝ) :
    level'.sampleEnergy data' channel (x ∘ h.lattice.nodes.symm) =
      level.sampleEnergy data channel x := by
  rw [← hposed'.energy_sampleSquares, ← hposed.energy_sampleSquares, hfit.data.samples]
  unfold totalEnergy
  rw [List.map_map, List.map_map, List.map_map]
  refine congrArg List.sum (List.map_congr_left fun s hs => ?_)
  simp only [Function.comp_apply]
  rw [h.form_sample_eq hfit hposed hlaid hposed' hlaid' hs]
  rfl

/-- The energy of the moved level, at node values under their new numbers. -/
theorem totalEnergy_all_eq (x : Fin (size level.res) → ℝ) :
    totalEnergy (size level'.res) (level'.squaresOf fit' data' channel).all
        (x ∘ h.lattice.nodes.symm) =
      totalEnergy (size level.res) (level.squaresOf fit data channel).all x := by
  rw [hposed'.energy_eq, hposed.energy_eq]
  unfold energy
  rw [h.curvatureEnergy_eq hfit hposed, h.weakEnergy_eq hfit hposed,
    h.sampleEnergy_eq hfit hposed hlaid hposed' hlaid']

/-- The equations of the moved level: the same under the new numbers of the nodes, and errors are
measured against the same length. -/
theorem exists_setup? : ∃ A b A' scale,
    level.setup? fit = .ok { level with matrix := some A, rhs := b, scale } ∧
    level'.setup? fit' =
      .ok { level' with matrix := some A', rhs := h.lattice.renumbered b, scale } ∧
    b.size = size level.res ∧ A'.toSparse.toMatrix (size level'.res) (size level'.res) =
      reindex h.lattice.nodes h.lattice.nodes
        (A.toSparse.toMatrix (size level.res) (size level.res)) := by
  -- The equations of both levels are those of their energies, and these are the same.
  obtain ⟨A, b, hsetup, -, hsize, hmatrix, hrhs⟩ := hposed.exists_setup?_pullScale
  obtain ⟨A', b', hsetup', -, hsize', hmatrix', hrhs'⟩ := hposed'.exists_setup?_pullScale
  have hall := h.totalEnergy_all_eq hfit hposed hlaid hposed' hlaid'
  have hstiff : ∀ x : Fin (size level.res) → ℝ,
      totalEnergy (size level'.res) (level'.stiffSquares data' channel)
        (x ∘ h.lattice.nodes.symm) =
      totalEnergy (size level.res) (level.stiffSquares data channel) x := by
    intro x
    rw [hposed'.energy_stiffSquares, hposed.energy_stiffSquares, h.curvatureEnergy_eq hfit hposed]
  have hb : b' = h.lattice.renumbered b := by
    refine eq_of_vectorOf_eq hsize' (h.lattice.size_renumbered b) ?_
    rw [h.lattice.vectorOf_renumbered, hrhs, hrhs', pull_eq_comp_symm hall]
  refine ⟨A, b, A', _, hsetup, ?_, hsize, ?_⟩
  · rw [hsetup', hb, pull_eq_comp_symm hall, pull_eq_comp_symm hstiff]
    unfold pullScale
    rw [comp_equiv_dotProduct_comp_equiv, comp_equiv_dotProduct_comp_equiv]
  · rw [hmatrix, hmatrix', hessian_eq_reindex hall]

end Energy

end IsMoved

end Level

end GridSpline
