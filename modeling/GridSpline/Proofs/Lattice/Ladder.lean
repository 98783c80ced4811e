import Mathlib
import GridSpline.Proofs.Lattice.EdgeLengths

/-!
# The ladder of a fit

A fit starts with four nodes along every axis and means to double them with every step. The number
of steps and their common factor depend on the largest resolution alone, so lattices with the same
resolutions in another order have the same edge lengths.

## Main definitions

* `levelOn`, `fitLevelOn` — a level, by the number of its step.

## Main statements

* `exists_ladder?_eq_levelOn` — the ladder of a lattice and of those with its resolutions in another
  order.
* `exists_fitLadder?` — a lattice with at least two nodes along every axis has a ladder; it ends on
  the lattice, grows, and its levels have at least two nodes along every axis too.
-/

namespace GridSpline.Lattice

open Scalar Failure

/-- A level, by the number of its step. -/
noncomputable def levelOn (res : List ℤ) (f : ℝ) (i : ℕ) : List ℤ :=
  res.map (snap ⌊4 * f ^ i + 0.5⌋)

theorem map_levelFor_radii (res : List ℤ) (f : ℝ) (n : ℕ) :
    (radii f n (startResolution : ℝ)).map (levelFor res) = (List.range n).map (levelOn res f) := by
  rw [radii_eq, startResolution_cast, List.map_map]
  exact List.map_congr_left fun i _ => by
    rw [Function.comp_apply, levelFor, levelOn, Int.cast_ofNat]

theorem mapM_levelAt (res : List ℤ) {f : ℝ} (hf : 0 < f) (n : ℕ) :
    (radii f n (startResolution : ℝ)).mapM (levelAt res) =
      .ok ((List.range n).map (levelOn res f)) := by
  rw [← map_levelFor_radii]
  refine mapM_eq_ok_map fun r hr => levelAt_eq res ?_
  rw [radii_eq] at hr
  obtain ⟨i, -, rfl⟩ := List.mem_map.mp hr
  positivity

/-- The number of steps and the factor do not depend on the order of the axes. -/
theorem exists_ladder?_eq_levelOn {res : List ℤ} (hne : res ≠ []) (hres : ∀ r ∈ res, 1 ≤ r) :
    ∃ n f, ∀ res' : List ℤ, res'.Perm res →
      ladder? res' (startResolution : ℝ) (growthRatio : ℝ) =
        .ok ((List.range (n + 2)).map (levelOn res' f)) ∧
      IsLadderTo 4 res' ((List.range (n + 2)).map (levelOn res' f)) := by
  obtain ⟨L, hL⟩ := Option.isSome_iff_exists.mp (List.isSome_max?_of_ne_nil hne)
  obtain ⟨hmem, hmax⟩ := List.max?_eq_some_iff.mp hL
  obtain ⟨n, f, hgrowth, hf, hlast, -⟩ :=
    exists_growth? (hres L hmem) (show (1 : ℤ) ≤ 4 by decide) one_lt_two
  rw [← startResolution_cast, ← growthRatio_cast] at hgrowth
  refine ⟨n, f, fun res' hperm => ?_⟩
  have hmax' : ∀ t ∈ res', t ≤ L := fun t ht => hmax t (hperm.mem_iff.mp ht)
  have hL' : res'.max? = some L := List.max?_eq_some_iff.mpr ⟨hperm.mem_iff.mpr hmem, hmax'⟩
  have hreaches := reaches_radii hmax' (show (1 : ℤ) ≤ 4 by decide) hf hlast
  rw [← startResolution_cast] at hreaches
  rw [← map_levelFor_radii]
  exact ⟨(ladder?_eq hL' hgrowth).trans hreaches.levelsThrough?_eq, hreaches.isLadderTo⟩

/-! ## Resolutions of a fit -/

/-- A level of the ladder of a fit, by the number of its step. -/
noncomputable def fitLevelOn (res : List ℕ) (f : ℝ) (i : ℕ) : List ℕ :=
  (levelOn (res.map Int.ofNat) f i).map Int.toNat

/-- The ladder of a fit, by its steps. -/
theorem exists_fitLadder?_perm {res : List ℕ} (hne : res ≠ []) (hres : ∀ r ∈ res, 2 ≤ r) :
    ∃ n f, IsLadderTo 4 (res.map Int.ofNat)
        ((List.range (n + 2)).map (levelOn (res.map Int.ofNat) f)) ∧
      ∀ res', res'.Perm res → (fitLadder? res' : Except (Failure ℝ) _) =
        .ok ((List.range (n + 2)).map (fitLevelOn res' f)) := by
  have hne' : res.map Int.ofNat ≠ [] := fun h => hne (List.map_eq_nil_iff.mp h)
  have hres' : ∀ t ∈ res.map Int.ofNat, 1 ≤ t := by
    intro t ht
    obtain ⟨r, hr, rfl⟩ := List.mem_map.mp ht
    exact Int.ofNat_le.mpr (one_le_two.trans (hres r hr))
  obtain ⟨n, f, hladder⟩ := exists_ladder?_eq_levelOn hne' hres'
  refine ⟨n, f, (hladder _ (.refl _)).2, fun res' hperm => ?_⟩
  unfold fitLadder?
  rw [(hladder _ (hperm.map Int.ofNat)).1, ok_bind]
  exact congrArg Except.ok List.map_map

/-- The ladder of a fit. -/
theorem exists_fitLadder? {res : List ℕ} (hne : res ≠ []) (hres : ∀ r ∈ res, 2 ≤ r) :
    ∃ levels, (fitLadder? res : Except (Failure ℝ) (List (List ℕ))) = .ok levels ∧
      levels.getLast? = some res ∧ levels.Pairwise (List.Forall₂ (· ≤ ·)) ∧
      ∀ l ∈ levels, List.Forall₂ (fun r t => min 4 t ≤ r ∧ r ≤ t) l res := by
  obtain ⟨n, f, hladder, hlevels⟩ := exists_fitLadder?_perm hne hres
  have hmap : (List.range (n + 2)).map (fitLevelOn res f) =
      ((List.range (n + 2)).map (levelOn (res.map Int.ofNat) f)).map (List.map Int.toNat) :=
    List.map_map.symm
  refine ⟨_, hlevels res (.refl _), ?_, ?_, ?_⟩
  · rw [hmap, List.getLast?_map, hladder.last, Option.map_some, List.map_map]
    exact congrArg some (List.map_id res)
  · rw [hmap, List.pairwise_map]
    refine hladder.rises.imp fun {p c} hpc => ?_
    rw [List.forall₂_map_left_iff, List.forall₂_map_right_iff]
    exact hpc.imp fun _ _ hle => Int.toNat_le_toNat hle
  · intro l hl
    rw [hmap] at hl
    obtain ⟨level, hlevel, rfl⟩ := List.mem_map.mp hl
    have hbounds := hladder.within level hlevel
    rw [List.forall₂_map_right_iff] at hbounds
    rw [List.forall₂_map_left_iff]
    refine hbounds.imp ?_
    intro r t hrt
    obtain ⟨-, hlow, hhigh⟩ := hrt
    have hcast : Int.ofNat t = (t : ℤ) := rfl
    omega

section Level

variable {l res : List ℕ} {k : ℕ} (h : List.Forall₂ (fun r t => min 4 t ≤ r ∧ r ≤ t) l res)

include h

/-- A level has as many nodes along its axes as the lattice has, up to four. -/
theorem forall_le_level (hk : k ≤ 4) (hres : ∀ t ∈ res, k ≤ t) : ∀ r ∈ l, k ≤ r := by
  induction h with
  | nil => exact fun r hr => absurd hr List.not_mem_nil
  | cons hrt _ ih =>
    rw [List.forall_mem_cons] at hres ⊢
    exact ⟨(le_min hk hres.1).trans hrt.1, ih hres.2⟩

/-- A level has no more nodes along its axes than the lattice has. -/
theorem forall_level_le (hres : ∀ t ∈ res, t ≤ k) : ∀ r ∈ l, r ≤ k := by
  induction h with
  | nil => exact fun r hr => absurd hr List.not_mem_nil
  | cons hrt _ ih =>
    rw [List.forall_mem_cons] at hres ⊢
    exact ⟨hrt.2.trans hres.1, ih hres.2⟩

end Level

end GridSpline.Lattice
