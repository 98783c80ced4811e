import Mathlib
import GridSpline.Proofs.Fit.Run
import GridSpline.Proofs.Order.Climb

/-!
# Runs of samples in another order

The order in which samples are given does not matter, as long as sums do not depend on it. With the
rows of positions, values and weights put in another order, a run fails for the same reason, or it
succeeds and finds the same: the domain, the ladder, the grid, the outcomes of all solves and
whether some channel changes direction are the same, and so is what is reported on the way. Only
what is kept for each sample, its targets among it, is kept in that order. Rows in which something
is missing are dropped wherever they stand.

## Main statements

* `Fit.run_reordered` — a run of samples in another order.
-/

namespace GridSpline

open Scalar Failure FitM
open GridSpline.Lattice

variable {α : Type} [Scalar α] {order kept : List ℕ} {f f' : Fit α} {s : Start α}

/-! ## Two runs -/

/-- How two runs end that go alike. -/
theorem Fit.run_of_alike {good : Bool → Bool → Running α → Running α → Prop}
    (h : Alike runFit runFit { fit := f, notices := [] } { fit := f', notices := [] } good) :
    (∃ b after c after',
      f.run = { fit := after.fit, result := .ok b, notices := after.notices.reverse } ∧
      f'.run = { fit := after'.fit, result := .ok c, notices := after'.notices.reverse } ∧
      good b c after after') ∨
    ∃ e, f.run.result = .error e ∧ f'.run.result = .error e := by
  rcases Fit.run_of_leads (alike_iff_leads.mp h) with ⟨b, after, hrun, hb⟩ | ⟨e, hrun, he⟩
  · obtain ⟨c, after', hrun', hgood⟩ := Fit.exists_run_eq hb
    exact Or.inl ⟨b, after, c, after', hrun, hrun', hgood⟩
  · rcases Fit.run_of_leads he with ⟨_, _, -, hfalse⟩ | ⟨e', hrun', rfl⟩
    · exact hfalse.elim
    · exact Or.inr ⟨e', hrun, hrun'⟩

/-! ## Starting -/

variable [IsExact α]

/-- A run that starts has samples within its grid. -/
theorem Fit.takesOrder_started (hstart : f.start? = .ok s)
    (horder : kept.Perm (List.range s.data.samples.length)) :
    (f.started s).TakesOrder kept s.data := by
  have hprepare := (Fit.start?_eq_ok_iff.mp hstart).2.1
  obtain ⟨hlow, hhigh, -⟩ := Fit.grid_of_start? hstart
  refine ⟨rfl, ?_, horder⟩
  rintro _ ⟨⟩ sample hsample
  rw [hlow, hhigh]
  exact isWithin_prepare hprepare sample hsample

/-! ## Finishing -/

/-- What remains of a run goes alike for samples in another order. -/
theorem alike_finish_reordered (order : List ℕ) {r : Running α} (h : r.fit.TakesOrder kept s.data) :
    Alike (finish s) (finish (s.reordered kept)) r (r.reordered order kept)
      fun b c after after' => c = b ∧ after' = after.reordered order kept := by
  have hempty : (s.reordered kept).data.samples.isEmpty = s.data.samples.isEmpty :=
    (perm_entriesAt h.order).isEmpty_eq
  unfold finish
  rw [hempty]
  cases s.data.samples.isEmpty with
  | true => exact alike_bind (alike_change (alike_pure ⟨rfl, rfl⟩))
  | false =>
    refine alike_bind ((alike_solveChannels_reordered s.checked.tolerance h s.checked.extraFit
      (List.range s.data.channels)).imp ?_)
    rintro _ _ after _ rfl
    refine alike_bind (alike_fit (alike_bind (alike_lift_map (id_map _).symm fun g _ => ?_)))
    exact alike_bind (alike_change (alike_pure ⟨rfl, rfl⟩))

/-! ## Runs -/

section Given

variable (horder : order.Perm (List.range order.length)) {p v : Dense α} {m n k : ℕ}
  (hp : Dense.ofNested? f.given.positions = some p) (hpshape : p.shape = [order.length, m])
  (hv : Dense.ofNested? f.given.values = some v) (hvshape : v.shape = [n, k])

include horder hp hpshape hv hvshape

theorem alike_runFit_reordered : Alike runFit runFit { fit := f, notices := [] }
    { fit := { f with given := f.given.reordered order }, notices := [] }
    fun b c after after' =>
      c = b ∧ after' = after.reordered order (f.given.keptOrder order) := by
  have hstart' := start?_reordered hp hpshape hv hvshape horder
  refine alike_iff_leads.mpr ?_
  cases hstart : f.start? with
  | error e =>
    rw [hstart] at hstart'
    exact leads_runFit_of_error hstart (leads_runFit_of_error hstart' rfl)
  | ok s =>
    rw [hstart] at hstart'
    have hperm := keptOrder_perm_of_prepare hp hpshape hv hvshape horder
      (Fit.start?_eq_ok_iff.mp hstart).2.1
    have hfinish := alike_finish_reordered order (r := f.running s)
      (Fit.takesOrder_started hstart hperm)
    exact leads_runFit_of_start hstart ((alike_iff_leads.mp hfinish).mono
      (fun _ _ hb => leads_runFit_of_start hstart' hb)
      fun _ he => leads_runFit_of_start hstart' he)

/-- A run of samples in another order fails for the same reason, or it succeeds and finds the same,
with the samples that are kept in that order. -/
theorem Fit.run_reordered :
    ({ f with given := f.given.reordered order } : Fit α).run.result = f.run.result ∧
    ∀ b, f.run.result = .ok b → ({ f with given := f.given.reordered order } : Fit α).run =
      { f.run with fit := f.run.fit.reordered order (f.given.keptOrder order) } := by
  rcases Fit.run_of_alike (alike_runFit_reordered horder hp hpshape hv hvshape) with
    ⟨b, after, _, _, hrun, hrun', rfl, rfl⟩ | ⟨e, hrun, hrun'⟩
  · rw [hrun, hrun']
    exact ⟨rfl, fun _ _ => rfl⟩
  · rw [hrun, hrun']
    exact ⟨rfl, fun b hb => nomatch hb⟩

end Given

/-! ## Two samples -/

/-- Two samples of different weights in opposite corners of a lattice that is solved at once. -/
noncomputable def Fit.opposite : Fit ℝ :=
  .make
    { narrow.given with
      positions := .block { shape := [2, 2], data := #[0, 0, 1, 1] }
      values := .block { shape := [2, 1], data := #[0, 1] }
      resolution := some (.block { shape := [2], data := #[.integer 2, .integer 2] })
      weights := some (.block { shape := [2], data := #[1, 0.5] }) }
    narrow.settings true false false

/-- What the checks make of them. -/
noncomputable def oppositeData : Prepared ℝ where
  res := [2, 2]
  channels := 1
  samples := [{ position := [0, 0], values := [0], weights := [1], targets := [0] },
    { position := [1, 1], values := [1], weights := [0.5], targets := [1] }]
  low := [0, 0]
  high := [1, 1]
  average := [0.5]
  valueLow := [0]
  valueRange := [1]
  deviation := [defaultDeviation]
  spacing := [none, none]

theorem yields_opposite : Fit.opposite.given.Yields .always oppositeData where
  resolutions := rfl
  samples := samples?_of_tables (p := { columns := 2, rows := [[0, 0], [1, 1]] })
    (v := { columns := 1, rows := [[0], [1]] }) (k := [[1], [0.5]]) rfl rfl rfl (by decide) rfl rfl
    (by norm_num)
  bounds := by
    refine ⟨[0, 0], [1, 1], [], rfl, rfl, ?_⟩
    simp [oppositeData, extendDomain?, extendAxis, column, least?, greatest?, extendBound]
  paired := rfl
  extended := by simp [oppositeData]
  values := by
    have hwiden : widen (0 : ℝ) 1 [0, 1] = (0, 1) := by
      norm_num [widen, least?, greatest?]
    refine ⟨[0], [1], rfl, rfl, ?_⟩
    simp [oppositeData, Prepared.columns, List.range_succ, column, hwiden]
  average := by
    have hmean : meanOr (defaultAverage : ℝ) [0, 1] = 0.5 := by norm_num [meanOr]
    simp [oppositeData, Prepared.columns, List.range_succ, column, hmean]
  deviation := rfl
  spacing := rfl

theorem isAccepted_opposite : Fit.opposite.IsAccepted Fit.narrowSettings oppositeData where
  checked := Fit.check_narrow
  prepared := GivenSamples.prepare_iff.mpr yields_opposite
  weakFunction w hw := absurd hw (by simp [Fit.opposite, Fit.narrow, Fit.make])

/-- A run of the two samples has a result, and one of the second before the first finds the same. -/
theorem Fit.run_reordered_opposite :
    [1, 0].Perm (List.range 2) ∧
      Dense.ofNested? opposite.given.positions = some { shape := [2, 2], data := #[0, 0, 1, 1] } ∧
      Dense.ofNested? opposite.given.values = some { shape := [2, 1], data := #[0, 1] } ∧
      opposite.given.keptOrder [1, 0] = [1, 0] ∧
      ∃ b, opposite.run.result = .ok b ∧
        ({ opposite with given := opposite.given.reordered [1, 0] } : Fit ℝ).run =
          { opposite.run with fit := opposite.run.fit.reordered [1, 0] [1, 0] } := by
  have hperm : [1, 0].Perm (List.range [1, 0].length) := by decide
  have hweights : weightRows? [1, 0].length 1 opposite.given.weights = .ok [[1], [0.5]] := rfl
  have hrows : opposite.given.rows.length = [1, 0].length :=
    (rows_eq rfl rfl rfl rfl rfl hweights).2
  have hkept : opposite.given.keptOrder [1, 0] = [1, 0] :=
    keptOrder_of_isComplete (fun s _ => isComplete s) (hrows ▸ hperm)
  obtain ⟨b, hrun⟩ := isAccepted_opposite.exists_run_eq_ok (by decide) (by simp [oppositeData])
  obtain ⟨-, hreordered⟩ := Fit.run_reordered (f := opposite) hperm rfl rfl rfl rfl
  have hequal := hreordered b hrun
  rw [hkept] at hequal
  exact ⟨hperm, rfl, rfl, hkept, b, hrun, hequal⟩

end GridSpline
