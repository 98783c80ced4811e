import Mathlib
import GridSpline.Fit.Level
import GridSpline.Proofs.Curvature.Downsample
import GridSpline.Proofs.Equations.WeakDefault
import GridSpline.Proofs.Sample.Prepared
import GridSpline.Proofs.Settings.Checked
import GridSpline.Proofs.Smoothing.Optimum

/-!
# Fits that are ready to be solved

Once the settings and samples have passed their checks and the grid is laid, all that a level asks
of a fit is there: the samples, a grid over their domain, deviations for every channel, and settings
in their checked form. The stiffness along the axes can then be worked out on every lattice. It
never counts negatively, and it vanishes exactly on lattices that have only two nodes along some
axis, since the number of interior nodes that it is divided by is zero there.

## Main definitions

* `Fit.IsReady` — what a level asks of a fit.

## Main statements

* `interiorCount_pos_iff` — when a lattice has interior nodes.
* `IsReady.exists_stiffnessWeights?` — the stiffness of a lattice.
-/

namespace GridSpline

open Scalar Failure
open GridSpline.Lattice

/-- What a level asks of a fit. -/
structure Fit.IsReady (fit : Fit ℝ) (data : Prepared ℝ) : Prop where
  prepared : fit.prepared = some data
  valid : data.IsValid
  grid : ∃ g, fit.grid = some g ∧ g.res = data.res ∧ g.low = data.low ∧ g.high = data.high ∧
    g.spacing = data.spacing
  deviation : fit.given.deviation = some (.list (data.deviation.map .entry))
  smoothness : ∃ s, fit.settings.smoothness = some (.scalar s) ∧ s ≠ 0
  weak : ∃ w, fit.settings.weak = some (.scalar w) ∧ 0 ≤ w
  weakFunction : ∀ f, fit.settings.weakFunction = some f →
    ∀ channel < data.channels, f.IsDefinedOn channel data.res.length
  lineSweeps : ∃ n : ℕ, fit.settings.lineSweeps = some (.integer n)

/-! ## Interior nodes -/

theorem foldl_interior (res : List ℕ) (n : ℤ) :
    res.foldl (fun (n : ℤ) (r : ℕ) => n * ((r : ℤ) - 2)) n =
      n * (res.map fun r : ℕ => (r : ℤ) - 2).prod := by
  induction res generalizing n with
  | nil => simp
  | cons r rs ih => rw [List.foldl_cons, ih, List.map_cons, List.prod_cons, mul_assoc]

theorem interiorCount_eq (res : List ℕ) :
    interiorCount res = (res.map fun r : ℕ => (r : ℤ) - 2).prod := by
  unfold interiorCount
  rw [foldl_interior, one_mul]

/-- When a lattice has interior nodes. -/
theorem interiorCount_pos_iff {res : List ℕ} (hres : ∀ r ∈ res, 2 ≤ r) :
    0 < interiorCount res ↔ ∀ r ∈ res, 3 ≤ r := by
  rw [interiorCount_eq]
  constructor
  · intro hpos r hr
    by_contra hlt
    have h2 : (r : ℤ) - 2 = 0 := by
      have := hres r hr
      omega
    have hzero : (res.map fun r : ℕ => (r : ℤ) - 2).prod = 0 :=
      List.prod_eq_zero (List.mem_map.mpr ⟨r, hr, h2⟩)
    omega
  · intro h
    refine List.prod_pos ?_
    intro x hx
    obtain ⟨r, hr, rfl⟩ := List.mem_map.mp hx
    have := h r hr
    omega

/-! ## Scales -/

theorem two_le_meanResolution {res : List ℕ} (hne : res ≠ []) (hres : ∀ r ∈ res, 2 ≤ r) :
    2 ≤ meanResolution (scalars res : List ℝ) := by
  have hprod : ∀ (l : List ℕ) (a : ℝ), (∀ r ∈ l, 2 ≤ r) → 0 ≤ a →
      a * 2 ^ l.length ≤ ((scalars l : List ℝ)).foldl (· * ·) a := by
    intro l
    induction l with
    | nil =>
      intro a _ _
      rw [List.length_nil, pow_zero, mul_one]
      exact le_refl a
    | cons r rs ih =>
      intro a h ha
      have hr : (2 : ℝ) ≤ r := by exact_mod_cast h r List.mem_cons_self
      have hrest := ih (a * r) (fun x hx => h x (List.mem_cons_of_mem r hx)) (by positivity)
      calc a * 2 ^ (r :: rs).length = a * 2 * 2 ^ rs.length := by
            rw [List.length_cons, pow_succ]
            ring
        _ ≤ a * r * 2 ^ rs.length := by gcongr
        _ ≤ _ := hrest
  have hle := hprod res 1 hres zero_le_one
  rw [one_mul] at hle
  have hlen : res.length ≠ 0 := List.length_eq_zero_iff.not.mpr hne
  have hcount : (scalars res : List ℝ).length = res.length := List.length_map _
  unfold meanResolution
  simp only [pow_eq, hcount]
  calc (2 : ℝ) = (2 ^ res.length) ^ ((res.length : ℝ)⁻¹) :=
        (Real.pow_rpow_inv_natCast zero_le_two hlen).symm
    _ ≤ _ := by
        rw [one_div]
        exact Real.rpow_le_rpow (by positivity) hle (by positivity)

/-- The resolution in which stiffness is measured is that of two nodes at least, along every axis. -/
theorem two_le_latticeScales {symmetric : Bool} {res : List ℕ} (hres : ∀ r ∈ res, 2 ≤ r) {s : ℝ}
    (hs : s ∈ latticeScales symmetric res) : 2 ≤ s := by
  unfold latticeScales scaleResolutions at hs
  cases symmetric with
  | true =>
    obtain ⟨r, hr, rfl⟩ := List.mem_map.mp hs
    exact_mod_cast hres r hr
  | false =>
    obtain ⟨hlen, rfl⟩ := List.mem_replicate.mp hs
    refine two_le_meanResolution (fun hnil => hlen ?_) hres
    rw [hnil]
    rfl

theorem one_lt_latticeScales {symmetric : Bool} {res : List ℕ} (hres : ∀ r ∈ res, 2 ≤ r) {s : ℝ}
    (hs : s ∈ latticeScales symmetric res) : 1 < s :=
  one_lt_two.trans_le (two_le_latticeScales hres hs)

namespace Fit.IsReady

variable {fit : Fit ℝ} {data : Prepared ℝ} (h : fit.IsReady data)

include h

theorem prepared?_eq : fit.prepared? = .ok data := by
  unfold Fit.prepared?
  rw [h.prepared, require_some]

theorem exists_grid? : ∃ g, fit.grid? = .ok g ∧ g.res = data.res ∧ g.low = data.low ∧
    g.high = data.high ∧ g.spacing = data.spacing := by
  obtain ⟨g, hg, hrest⟩ := h.grid
  refine ⟨g, ?_, hrest⟩
  unfold Fit.grid?
  rw [hg, require_some]

theorem deviationOf?_eq {channel : ℕ} (hc : channel < data.channels) :
    fit.deviationOf? channel = .ok (data.deviation.getD channel 0) := by
  have hlt : channel < data.deviation.length := by rwa [h.valid.deviation]
  unfold Fit.deviationOf?
  rw [h.deviation]
  simp only
  rw [entryAt_ofNat (by rwa [List.length_map]), ok_bind, List.getElem_map,
    List.getD_eq_getElem _ _ hlt]
  rfl

/-! ## Stiffness -/

/-- Smoothness is weighted by a positive factor. -/
theorem exists_smoothnessFactor? (axes : ℕ) {channel : ℕ} (hc : channel < data.channels)
    (secondPass : Bool) :
    ∃ c, smoothnessFactor? fit axes channel secondPass = .ok c ∧ 0 < c := by
  obtain ⟨s, hs, hne⟩ := h.smoothness
  unfold smoothnessFactor?
  by_cases htwo : fit.twoPass = true
  · rw [if_pos htwo]
    cases secondPass with
    | true => exact ⟨1e-4, rfl, by norm_num⟩
    | false => exact ⟨1e-6, rfl, by norm_num⟩
  · rw [if_neg htwo, hs, require_some, ok_bind, Number.toScalar?_eq, ok_bind]
    by_cases hsign : 0 ≤ s
    · obtain ⟨best, hbest, hpos⟩ := exists_optimalSmoothing? axes
        (Nat.cast_nonneg data.samples.length) (data.deviation.getD channel 0)
      refine ⟨s * best, ?_, mul_pos (lt_of_le_of_ne hsign hne.symm) hpos⟩
      show (if 0 ≤ s then _ else _) = _
      rw [if_pos hsign, h.prepared?_eq, ok_bind, h.deviationOf?_eq hc, ok_bind, hbest]
      rfl
    · refine ⟨-s, ?_, by linarith⟩
      show (if 0 ≤ s then _ else _) = _
      rw [if_neg hsign]
      rfl

/-- The stiffness of a lattice: it is positive along all axes if the lattice has interior nodes, and
else it is zero along all of them. -/
theorem exists_stiffnessWeights? {res : List ℕ} (hres : ∀ r ∈ res, 2 ≤ r) {channel : ℕ}
    (hc : channel < data.channels) (secondPass : Bool) :
    ∃ l, stiffnessWeights? fit res channel secondPass = .ok l ∧ l.length = res.length ∧
      ((∀ r ∈ res, 3 ≤ r) → ∀ w ∈ l, 0 < w) ∧ ((∃ r ∈ res, r < 3) → ∀ w ∈ l, w = 0) := by
  obtain ⟨c, hfactor, hpos⟩ := h.exists_smoothnessFactor? res.length hc secondPass
  unfold stiffnessWeights?
  simp only
  by_cases hinterior : interiorCount res ≤ 0
  · rw [if_pos hinterior]
    refine ⟨res.map fun _ => 0, rfl, List.length_map _, ?_, ?_⟩
    · intro hall
      exact absurd ((interiorCount_pos_iff hres).mpr hall) (not_lt.mpr hinterior)
    · intro _ w hw
      obtain ⟨r, -, rfl⟩ := List.mem_map.mp hw
      rfl
  · rw [if_neg hinterior, hfactor, ok_bind]
    refine ⟨_, rfl, by rw [List.length_map, length_latticeScales], ?_, ?_⟩
    · intro _ w hw
      obtain ⟨s, hs, rfl⟩ := List.mem_map.mp hw
      have hscale : 0 < s - 1 := sub_pos.mpr (one_lt_latticeScales hres hs)
      have hcount : (0 : ℝ) < (interiorCount res : ℝ) := by exact_mod_cast not_le.mp hinterior
      positivity
    · rintro ⟨r, hr, hlt⟩
      have := (interiorCount_pos_iff hres).mp (not_le.mp hinterior) r hr
      omega

end Fit.IsReady

end GridSpline
