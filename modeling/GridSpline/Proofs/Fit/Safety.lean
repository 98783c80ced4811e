import Mathlib
import GridSpline.Proofs.Fit.Run

/-!
# What can go wrong

Once input is accepted almost nothing can. There is a ladder, all samples are located on all of its
lattices, and whatever is added to the equations of a level has its place in them. No error is
raised on the way, and nothing that was added is lost when the matrix is written out.

What is left is the solve of a lattice that is too large to be solved at once. Sweeps of relaxation
divide by the diagonal, and a node that nothing holds has no place there: no sample is near, there
is no weak default, and there are no second differences. On a lattice with two nodes along some axis
there are none along the other axes either. Conjugate gradients, which solve the smaller lattices,
pass over such nodes.

## Main definitions

* `Residual.IsStorable` — a square whose pairs of coefficients can all be added.
* `Level.IsSafe` — a level whose equations are set up without an error and without a loss.

## Main statements

* `IsAccepted.exists_ladder_isSafe` — accepted input leads to safe levels only, and at the end a run
  can only fail for a zero on the diagonal if no two neighbouring nodes come to lie on each other.
* `IsAccepted.diagonal_and_run` — when there is one, and what becomes of the run.
-/

namespace GridSpline

open Scalar Failure
open GridSpline.Lattice

/-! ## Squares and levels -/

/-- Every pair of coefficients belongs to two nodes of the lattice, the one that is stored first,
and the stencil has a column for their difference. -/
def Residual.IsStorable (r : Residual ℝ) (res : List ℕ) : Prop :=
  ∀ (j k : ℕ) (hj : j < r.terms.length) (hk : k < r.terms.length), j ≤ k →
    0 ≤ r.terms[k].1 - r.terms[j].1 ∧ (j < k → 0 < r.terms[k].1 - r.terms[j].1) ∧
    (∃ column, (PackedMatrix.zero res : PackedMatrix ℝ).column? (r.terms[k].1 - r.terms[j].1) =
      .ok column) ∧
    0 ≤ r.base + r.terms[j].1 ∧
    r.base + r.terms[j].1 + (r.terms[k].1 - r.terms[j].1) < size res

theorem Residual.Placed.isStorable {r : Residual ℝ} {res : List ℕ} (h : r.Placed res)
    (hne : res ≠ []) : r.IsStorable res := by
  intro j k hj hk hle
  have hrow := h.onLattice _ (List.getElem_mem hj)
  have hother := h.onLattice _ (List.getElem_mem hk)
  have hcolumn : ∀ d : ℤ, 0 ≤ d → d.toNat ∈ stencilOffsets res →
      ∃ column, (PackedMatrix.zero res : PackedMatrix ℝ).column? d = .ok column :=
    fun d => PackedMatrix.exists_column?_of_nonneg (PackedMatrix.isOver_zero res)
  rcases hle.eq_or_lt with rfl | hlt
  · rw [sub_self, add_zero]
    exact ⟨le_refl 0, fun hlt => absurd hlt (lt_irrefl j),
      hcolumn 0 (le_refl 0) (zero_mem_stencilOffsets hne), hrow⟩
  · obtain ⟨horder, hmem⟩ := List.pairwise_iff_getElem.mp h.ordered j k hj hk hlt
    have hdiff : 0 < r.terms[k].1 - r.terms[j].1 := sub_pos.mpr horder
    exact ⟨hdiff.le, fun _ => hdiff, hcolumn _ hdiff.le hmem, hrow.1, by omega⟩

namespace Level

/-- The equations of the level are set up: the squares can be stored, the corners of a cell can be
coupled even if there are no samples, and everything that is stored stands in the whole matrix. -/
structure IsSafe (level : Level ℝ) (fit : Fit ℝ) : Prop where
  squares : ∃ squares, level.squares? fit = .ok squares ∧
    ∀ r ∈ squares.all, r.IsStorable level.res
  corners : level.cornerOffsets.Pairwise fun o p => 0 < p - o ∧
    ∃ column, (PackedMatrix.zero level.res : PackedMatrix ℝ).column? (p - o) = .ok column
  setup : ∃ A b scale, level.setup? fit = .ok { level with matrix := some A, rhs := b, scale } ∧
    ∀ i k, A.entryAt i k ≠ 0 → ∃ o, A.stencil.offsets[k]? = some o ∧ i + o < A.nodes ∧
      A.toSparse.entry i (i + o) = A.entryAt i k ∧ A.toSparse.entry (i + o) i = A.entryAt i k

theorem IsPosed.isSafe {level : Level ℝ} {fit : Fit ℝ} {data : Prepared ℝ} {channel : ℕ}
    (h : level.IsPosed fit data channel) : level.IsSafe fit := by
  obtain ⟨A, b, scale, hsetup, hover, -⟩ := h.exists_setup?
  refine ⟨⟨_, h.squares?_eq, fun r hr => (h.placed hr).isStorable h.axes⟩, ?_, A, b, scale, hsetup,
    fun i k hentry => PackedMatrix.exists_entry_toSparse hover hentry⟩
  refine h.pairwise_cornerOffsets.imp fun {o p} hpair => ?_
  have hdiff : 0 < p - o := sub_pos.mpr hpair.1
  exact ⟨hdiff, PackedMatrix.exists_column?_of_nonneg (PackedMatrix.isOver_zero level.res) hdiff.le
    hpair.2⟩

/-- The equations of the level are set up, and the nodes with a positive entry on the diagonal are
those that are held. -/
def HasDiagonal (level : Level ℝ) (fit : Fit ℝ) (held : ℕ → Prop) : Prop :=
  ∃ A b scale, level.setup? fit = .ok { level with matrix := some A, rhs := b, scale } ∧
    ∀ i : Fin (size level.res),
      0 < A.toSparse.toMatrix (size level.res) (size level.res) i i ↔ held i

theorem IsPosed.hasDiagonal {level : Level ℝ} {fit : Fit ℝ} {data : Prepared ℝ} {channel : ℕ}
    {res : List ℕ} (h : level.IsPosed fit data channel) (hlaid : level.IsLaidOn data res)
    (hready : fit.IsReady data) (hc : channel < data.channels) (hne : data.samples ≠ [])
    (hapart : data.KeepsApart res) :
    level.HasDiagonal fit (data.HoldsNode fit.settings res channel) := by
  obtain ⟨A, b, scale, hsetup, -, -, hmatrix, -⟩ := h.exists_setup?
  refine ⟨A, b, scale, hsetup, ?_⟩
  intro i
  rw [hmatrix]
  exact h.hessian_apply_self_pos_iff_holdsNode hlaid hready.valid
    (hready.isWeighted hlaid hc hne) hapart i

end Level

/-- The levels of a fit: one can be made, and drawn to a captured curvature. -/
theorem Fit.IsReady.exists_levels {fit : Fit ℝ} {data : Prepared ℝ} (hready : fit.IsReady data)
    {ladder : List (List ℕ)} (hladder : data.IsLadder ladder) {res : List ℕ} (hres : res ∈ ladder)
    {channel : ℕ} (hc : channel < data.channels) (secondPass : Bool) {P : Level ℝ → Prop}
    (hP : ∀ level, level.IsPosed fit data channel → level.IsLaidOn data res → P level) :
    ∃ level, Level.make? fit res channel secondPass = .ok level ∧ P level ∧
      ∀ ccv : Curvature ℝ, ccv.IsOn data.res →
        ∃ bent, level.setCurvature? fit data.res ccv = .ok bent ∧ P bent := by
  obtain ⟨hlen, htwo⟩ := hladder.levels res hres
  obtain ⟨level, hmake, hposed, hlaid, -⟩ := hready.exists_make? hlen htwo hc secondPass
  refine ⟨level, hmake, hP level hposed hlaid, ?_⟩
  intro ccv hccv
  obtain ⟨bent, hbent, hposed', hlaid', -⟩ :=
    Level.exists_setCurvature? hposed hlaid hready.valid hlen hccv
  exact ⟨bent, hbent, hP bent hposed' hlaid'⟩

namespace Fit.IsAccepted

variable {f : Fit ℝ} {c : CheckedSettings ℝ} {data : Prepared ℝ}

/-- Accepted input leads to safe levels only: for the fit when the first level is made, and for any
fit that is ready with the same samples, whatever their targets. If the neighbours of every spacing
stay apart on all lattices then a run can only fail for a zero on the diagonal. Where they coincide
a second difference divides by zero, and of what comes then real numbers say nothing. -/
theorem exists_ladder_isSafe (h : f.IsAccepted c data) :
    ∃ ladder, (fitLadder? data.res : Except (Failure ℝ) _) = .ok ladder ∧
      ladder.getLast? = some data.res ∧ (f.begun c data ladder).IsReady data ∧
      (∀ fit next, fit.IsReady next → data.IsRetargeted next → ∀ res ∈ ladder,
        (∃ cells, Cell.locate? res next.low next.high (Grid.cellWidths next.low next.high res)
          { columns := next.res.length, rows := next.samples.map (·.position) } = .ok cells) ∧
        ∀ channel < data.channels, ∀ secondPass, ∃ level,
          Level.make? fit res channel secondPass = .ok level ∧ level.IsSafe fit ∧
          ∀ ccv : Curvature ℝ, ccv.IsOn data.res →
            ∃ bent, level.setCurvature? fit data.res ccv = .ok bent ∧ bent.IsSafe fit) ∧
      (data.KeepsAllApart ladder → ∀ e, f.run.result = .error e → e = .singular) := by
  obtain ⟨ladder, hladder, hlast, -⟩ := h.exists_ladder
  refine ⟨ladder, hladder, hlast, h.isReady_begun ladder, ?_, ?_⟩
  · intro fit next hready hto res hres
    have hclimb := hto.isLadder (h.isLadder hladder)
    have hlen := (hclimb.levels res hres).1
    refine ⟨⟨_, hready.valid.locate?_eq hlen⟩, fun channel hc secondPass => ?_⟩
    rw [← hto.channels] at hc
    rw [← hto.res]
    exact hready.exists_levels hclimb hres hc secondPass fun _ hposed _ => hposed.isSafe
  · intro _ e he
    rcases h.run_cases hladder with ⟨⟨b, hb⟩, -⟩ | ⟨e', he', -, hfree⟩
    · rw [hb] at he
      cases he
    · rw [he', Except.error.injEq] at he
      exact he ▸ hfree.1

/-- The level of a bump is safe. -/
theorem exists_isSafe_bump : ∃ ladder level,
    (fitLadder? bumpData.res : Except (Failure ℝ) _) = .ok ladder ∧
    Level.make? (bump.begun narrowSettings bumpData ladder) [3, 4] 0 false = .ok level ∧
    level.IsSafe (bump.begun narrowSettings bumpData ladder) := by
  obtain ⟨ladder, hladder, hlast, hready, hlevels, -⟩ := isAccepted_bump.exists_ladder_isSafe
  obtain ⟨-, hchannels⟩ := hlevels _ _ hready (.refl hready.valid) _ (List.mem_of_getLast? hlast)
  obtain ⟨level, hmake, hsafe, -⟩ := hchannels 0 Nat.one_pos false
  exact ⟨ladder, level, hladder, hmake, hsafe⟩

/-! ## The diagonal -/

section Run

variable (h : f.IsAccepted c data) {ladder : List (List ℕ)}
  (hladder : (fitLadder? data.res : Except (Failure ℝ) _) = .ok ladder)
  (hapart : data.KeepsAllApart ladder)

include h hladder hapart

theorem run_cases_of_apart : (∃ b, f.run.result = .ok b) ∨
    (f.run.result = .error .singular ∧
      ¬data.HoldsLadder (f.settings.ofChecked c) ladder) := by
  rcases h.run_cases hladder with ⟨hok, -⟩ | ⟨e, herror, -, rfl, hfree⟩
  · exact Or.inl hok
  · exact Or.inr ⟨herror, hfree hapart⟩

/-- If lines are not relaxed a run succeeds exactly when all nodes are held. -/
theorem run_eq_ok_iff (hne : data.samples ≠ []) (hn : c.lineSweeps = 0) :
    (∃ b, f.run.result = .ok b) ↔ data.HoldsLadder (f.settings.ofChecked c) ladder := by
  have hsweeps : (f.settings.ofChecked c).lineSweeps = some (.integer 0) := by
    show some (Number.integer (c.lineSweeps : ℤ)) = _
    rw [hn]
    rfl
  rcases h.run_cases hladder with ⟨hok, hrelaxes⟩ | ⟨e, herror, -, -, hfree⟩
  · refine ⟨fun _ res hres hlarge channel hc => ?_, fun _ => hok⟩
    exact hrelaxes hne channel hc res hres hsweeps (hapart res hres) hlarge
  · refine ⟨fun ⟨b, hb⟩ => ?_, fun hall => absurd hall (hfree hapart)⟩
    rw [herror] at hb
    cases hb

end Run

/-- When there is a zero on the diagonal, and what becomes of the run. Where all nodes are held on
the lattices that are not solved at once the run succeeds. Otherwise it may fail, and if lines are
not relaxed it does. -/
theorem diagonal_and_run (h : f.IsAccepted c data) (hne : data.samples ≠ [])
    {ladder : List (List ℕ)} (hladder : (fitLadder? data.res : Except (Failure ℝ) _) = .ok ladder)
    (hapart : data.KeepsAllApart ladder) :
    (∀ fit next, fit.IsReady next → fit.settings = f.settings.ofChecked c →
      data.IsRetargeted next → ∀ res ∈ ladder, ∀ channel < data.channels, ∀ secondPass, ∃ level,
        Level.make? fit res channel secondPass = .ok level ∧
        level.HasDiagonal fit (data.HoldsNode (f.settings.ofChecked c) res channel) ∧
        ∀ ccv : Curvature ℝ, ccv.IsOn data.res →
          ∃ bent, level.setCurvature? fit data.res ccv = .ok bent ∧
            bent.HasDiagonal fit (data.HoldsNode (f.settings.ofChecked c) res channel)) ∧
    ((∃ b, f.run.result = .ok b) ∨ (f.run.result = .error .singular ∧
      ¬data.HoldsLadder (f.settings.ofChecked c) ladder)) ∧
    (c.lineSweeps = 0 → ((∃ b, f.run.result = .ok b) ↔
      data.HoldsLadder (f.settings.ofChecked c) ladder)) := by
  refine ⟨?_, h.run_cases_of_apart hladder hapart, h.run_eq_ok_iff hladder hapart hne⟩
  intro fit next hready hsettings hto res hres channel hc secondPass
  have hclimb := hto.isLadder (h.isLadder hladder)
  have hnode : data.HoldsNode (f.settings.ofChecked c) res channel =
      next.HoldsNode fit.settings res channel := by
    funext i
    rw [hsettings]
    exact propext (hto.holdsNode_iff _ res channel i).symm
  rw [← hto.channels] at hc
  rw [← hto.res, hnode]
  exact hready.exists_levels hclimb hres hc secondPass fun _ hposed hlaid =>
    hposed.hasDiagonal hlaid hready hc (hto.samples_ne_nil hne) (hto.keepsApart (hapart res hres))

end Fit.IsAccepted

/-! ## A narrow lattice -/

namespace Fit

theorem keepsAllApart_narrow (ladder : List (List ℕ)) : narrowData.KeepsAllApart ladder :=
  Prepared.keepsAllApart_of_forall_none (by simp [narrowData]) ladder

/-- The last node is too far from the only sample. -/
theorem not_holdsNode_narrow :
    ¬narrowData.HoldsNode (narrow.settings.ofChecked narrowSettings) [2, 5] 0 9 := by
  rintro (⟨hthree, -⟩ | ⟨w, -, hw, -⟩ | ⟨s, hs, hnear⟩)
  · exact absurd (hthree 2 List.mem_cons_self) (by decide)
  · cases hw
  · obtain rfl := List.mem_singleton.mp hs
    have hcoords : coordsOf [2, 5] 9 = [1, 4] := by decide
    unfold Prepared.IsNear at hnear
    rw [hcoords] at hnear
    simp [narrowData, Cell.placeAt, Grid.cellWidths] at hnear

/-- The single sample on a narrow lattice is an instance: the run fails. -/
theorem run_narrow : ∃ ladder,
    (fitLadder? narrowData.res : Except (Failure ℝ) _) = .ok ladder ∧
    narrowData.KeepsAllApart ladder ∧
    ¬narrowData.HoldsLadder (narrow.settings.ofChecked narrowSettings) ladder ∧
    narrow.run.result = .error .singular := by
  obtain ⟨ladder, hladder, hlast, -⟩ := isAccepted_narrow.exists_ladder
  have hne : narrowData.samples ≠ [] := List.cons_ne_nil _ _
  obtain ⟨-, hresult, hiff⟩ :=
    isAccepted_narrow.diagonal_and_run hne hladder (keepsAllApart_narrow ladder)
  have hfree : ¬narrowData.HoldsLadder (narrow.settings.ofChecked narrowSettings) ladder := by
    intro hall
    have hlarge : IsLarge [2, 5] := ⟨5, by simp, by decide⟩
    have hmem : [2, 5] ∈ ladder := List.mem_of_getLast? hlast
    exact not_holdsNode_narrow (hall _ hmem hlarge 0 Nat.one_pos 9 (by decide))
  refine ⟨ladder, hladder, keepsAllApart_narrow ladder, hfree, ?_⟩
  rcases hresult with hok | ⟨herror, -⟩
  · exact absurd ((hiff rfl).mp hok) hfree
  · exact herror

end Fit

end GridSpline
