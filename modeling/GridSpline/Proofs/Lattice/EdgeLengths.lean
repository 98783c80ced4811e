import Mathlib
import GridSpline.Lattice.Ladder
import GridSpline.Proofs.Real
import GridSpline.Proofs.Result

/-!
# Edge lengths and their levels

The levels of a ladder come from edge lengths, one by one: an axis has the length rounded to nodes,
or its target where that is within one node of it. So it takes little for edge lengths to lead to
the lattice asked for. They may come from any computation that starts at the start, does not fall
and ends no more than one and a half nodes short.

The exact edge lengths are the powers of one factor, times the start, and the last one is the
largest resolution. They rise, or, where the lattice asked for is smaller than the start, all of
them are past it. The factor is a root whose degree is a rounded number of steps, so it is off the
ratio asked for by half a step at most.

## Main definitions

* `Reaches` — edge lengths that lead to given resolutions.
* `IsLadderTo` — levels that do.

## Main statements

* `Reaches.levelsThrough?_eq`, `Reaches.isLadderTo` — edge lengths that lead to the resolutions
  have levels that do.
* `exists_growth?` — the number of levels and the factor.
* `reaches_radii` — the exact edge lengths lead to the resolutions.
* `exists_ladder?_isLadderTo` — every lattice has a ladder, from every start and for every ratio.
-/

namespace GridSpline.Lattice

open Scalar Failure

/-! ## One axis -/

theorem snap_mono {a b : ℤ} (h : a ≤ b) (t : ℤ) : snap a t ≤ snap b t := by
  unfold snap
  split <;> split <;> omega

theorem snap_of_le {a t : ℤ} (h : t ≤ a + 1) : snap a t = t := if_pos h

theorem snap_le (a t : ℤ) : snap a t ≤ t := by
  unfold snap
  split <;> omega

theorem le_snap {m a t : ℤ} (ht : m ≤ t) (ha : m ≤ a) : m ≤ snap a t := by
  unfold snap
  split <;> omega

/-- An axis is on its target or at least two nodes below it. -/
theorem snap_eq_or (a t : ℤ) : snap a t = t ∨ snap a t ≤ t - 2 := by
  unfold snap
  split <;> omega

/-- An edge length that is no more than one and a half nodes short is rounded to the target. -/
theorem le_rounded_add_one {r : ℝ} {t : ℤ} (h : t - 1.5 ≤ r) : t ≤ ⌊r + 0.5⌋ + 1 := by
  have hfloor : t - 1 ≤ ⌊r + 0.5⌋ := by
    refine Int.le_floor.mpr ?_
    push_cast
    linarith
  omega

/-! ## Levels -/

theorem levelAt_eq (res : List ℤ) {r : ℝ} (h : 0 ≤ r) :
    levelAt res r = .ok (res.map (snap ⌊r + 0.5⌋)) := by
  unfold levelAt
  rw [truncate?_of_nonneg _ (by linarith)]
  rfl

/-- The level with an edge length that is not negative. -/
noncomputable def levelFor (res : List ℤ) (r : ℝ) : List ℤ := res.map (snap ⌊r + 0.5⌋)

/-- Levels that nowhere become coarser pass the check. -/
theorem findDecrease_eq_none {levels : List (List ℤ)}
    (h : levels.Pairwise (List.Forall₂ (· ≤ ·))) : findDecrease levels = none := by
  have hzip : ∀ {p c : List ℤ}, List.Forall₂ (· ≤ ·) p c →
      (List.zipWith (fun p c => decide (c < p)) p c).any id = false := by
    intro p c hpc
    induction hpc with
    | nil => rfl
    | cons hle _ ih =>
      rw [List.zipWith_cons_cons, List.any_cons, ih, id_eq, Bool.or_false]
      exact decide_eq_false (not_lt.mpr hle)
  induction levels with
  | nil => rfl
  | cons p rest ih =>
    cases rest with
    | nil => rfl
    | cons c rest =>
      obtain ⟨hfirst, hrest⟩ := List.pairwise_cons.mp h
      unfold findDecrease
      rw [hzip (hfirst c List.mem_cons_self), if_neg Bool.false_ne_true]
      exact ih hrest

/-- Edge lengths that lead to the given resolutions: none is below both the start and the
resolutions, the last one is no more than one and a half nodes short of them, and only a length that
is as near to them may follow a greater one. -/
structure Reaches (start : ℤ) (res : List ℤ) (lengths : List ℝ) : Prop where
  nonneg : ∀ r ∈ lengths, 0 ≤ r
  start_le : ∀ r ∈ lengths, ∀ t ∈ res, ((min start t : ℤ) : ℝ) ≤ r
  rises : lengths.Pairwise fun r s => ∀ t ∈ res, r ≤ s ∨ (t : ℝ) - 1.5 ≤ s
  ends : ∃ r, lengths.getLast? = some r ∧ ∀ t ∈ res, t - 1.5 ≤ r

/-- Levels that lead from the start to the given resolutions. They end there and nowhere become
coarser. Along every axis a level has as many nodes as the last one, or at least two less, and it
has at least as many as at the start unless the last one has fewer. An axis that has come to its
end stays there. -/
structure IsLadderTo (start : ℤ) (res : List ℤ) (levels : List (List ℤ)) : Prop where
  last : levels.getLast? = some res
  rises : levels.Pairwise (List.Forall₂ (· ≤ ·))
  within : ∀ level ∈ levels,
    List.Forall₂ (fun r t => (r = t ∨ r ≤ t - 2) ∧ min start t ≤ r ∧ r ≤ t) level res
  stays : levels.Pairwise fun before after => ∀ e : ℕ, before[e]? = res[e]? → after[e]? = res[e]?

namespace Reaches

variable {start : ℤ} {res : List ℤ} {lengths : List ℝ} (h : Reaches start res lengths)

include h

/-- Every length has a level that is nowhere coarser than those before it. -/
theorem pairwise_levelFor :
    (lengths.map (levelFor res)).Pairwise (List.Forall₂ (· ≤ ·)) := by
  rw [List.pairwise_map]
  refine h.rises.imp fun {r s} hrs => ?_
  unfold levelFor
  rw [List.forall₂_map_left_iff, List.forall₂_map_right_iff, List.forall₂_same]
  intro t ht
  rcases hrs t ht with hle | hnear
  · exact snap_mono (Int.floor_mono (by linarith)) t
  · rw [snap_of_le (le_rounded_add_one hnear)]
    exact snap_le _ t

theorem getLast?_levelFor : (lengths.map (levelFor res)).getLast? = some res := by
  obtain ⟨r, hr, hnear⟩ := h.ends
  have hlevel : levelFor res r = res := by
    conv_rhs => rw [← List.map_id res]
    exact List.map_congr_left fun t ht => snap_of_le (le_rounded_add_one (hnear t ht))
  rw [List.getLast?_map, hr, Option.map_some, hlevel]

theorem isLadderTo : IsLadderTo start res (lengths.map (levelFor res)) where
  last := h.getLast?_levelFor
  rises := h.pairwise_levelFor
  within level hlevel := by
    obtain ⟨r, hr, rfl⟩ := List.mem_map.mp hlevel
    unfold levelFor
    rw [List.forall₂_map_left_iff, List.forall₂_same]
    intro t ht
    have hlow : min start t ≤ ⌊r + 0.5⌋ :=
      Int.le_floor.mpr (by linarith [h.start_le r hr t ht])
    exact ⟨snap_eq_or _ t, le_snap (min_le_right start t) hlow, snap_le _ t⟩
  stays := by
    rw [List.pairwise_map]
    refine h.rises.imp fun {r s} hrs e he => ?_
    unfold levelFor at he ⊢
    rw [List.getElem?_map] at he ⊢
    cases hres : res[e]? with
    | none => rfl
    | some t =>
      rw [hres, Option.map_some, Option.some_inj] at he
      rw [Option.map_some, Option.some_inj]
      rcases hrs t (List.mem_of_getElem? hres) with hle | hnear
      · have hmono := snap_mono (Int.floor_mono (show r + 0.5 ≤ s + 0.5 by linarith)) t
        rw [he] at hmono
        exact le_antisymm (snap_le _ t) hmono
      · exact snap_of_le (le_rounded_add_one hnear)

/-- Edge lengths that lead to the resolutions have levels that do. -/
theorem levelsThrough?_eq : levelsThrough? res lengths = .ok (lengths.map (levelFor res)) := by
  have hlevels : lengths.mapM (levelAt res) = .ok (lengths.map (levelFor res)) :=
    mapM_eq_ok_map fun r hr => levelAt_eq res (h.nonneg r hr)
  unfold levelsThrough?
  rw [hlevels, ok_bind, h.getLast?_levelFor, require_some, ok_bind, if_neg (by simp),
    findDecrease_eq_none h.pairwise_levelFor]
  rfl

end Reaches

/-- Lengths that start at the start and do not fall. -/
theorem reaches_of_pairwise_le {start : ℤ} {res : List ℤ} {lengths : List ℝ} (hstart : 0 ≤ start)
    (hfirst : lengths.head? = some (start : ℝ)) (hrises : lengths.Pairwise (· ≤ ·))
    (hends : ∀ r, lengths.getLast? = some r → ∀ t ∈ res, t - 1.5 ≤ r) :
    Reaches start res lengths := by
  obtain ⟨rest, rfl⟩ := List.head?_eq_some_iff.mp hfirst
  have hlow : ∀ r ∈ (start : ℝ) :: rest, (start : ℝ) ≤ r := by
    intro r hr
    rcases List.mem_cons.mp hr with rfl | hr
    · exact le_rfl
    · exact (List.pairwise_cons.mp hrises).1 r hr
  have hstart' : (0 : ℝ) ≤ start := by exact_mod_cast hstart
  refine ⟨fun r hr => hstart'.trans (hlow r hr), fun r hr t _ => ?_,
    hrises.imp fun hle t _ => Or.inl hle, _, List.getLast?_eq_some_getLast (List.cons_ne_nil _ _),
    hends _ (List.getLast?_eq_some_getLast _)⟩
  exact (Int.cast_le.mpr (min_le_left start t)).trans (hlow r hr)

/-! ## Growth -/

/-- More than one step: the number of steps is rounded, and their factor is a root. Rounding
changes it by the root of half a step at most. -/
theorem exists_steps {q ratio : ℝ} (hratio : 1 < ratio) (hq : ratio < q) : ∃ (n : ℕ) (f : ℝ),
    ⌊Real.log q / Real.log ratio + 0.5⌋ = (n : ℤ) + 1 ∧ f = Real.exp (Real.log q / ((n : ℝ) + 1)) ∧
      f ^ (n + 1) = q ∧ ratio ^ (0.75 : ℝ) ≤ f ∧ f < ratio ^ (1.5 : ℝ) := by
  have hpos : 0 < ratio := by linarith
  have hlog : 0 < Real.log ratio := Real.log_pos hratio
  obtain ⟨y, hy⟩ : ∃ y, y = Real.log q / Real.log ratio := ⟨_, rfl⟩
  have hlogq : Real.log q = Real.log ratio * y := by
    rw [hy, mul_div_cancel₀ _ hlog.ne']
  -- The distance is more than one step, so the rounded number of steps is not zero.
  have hsteps : 1 < y := by
    rw [hy, lt_div_iff₀ hlog, one_mul]
    exact Real.log_lt_log hpos hq
  rw [← hy]
  have hfloor : 1 ≤ ⌊y + 0.5⌋ := by
    refine Int.le_floor.mpr ?_
    push_cast
    linarith
  obtain ⟨n, hn⟩ := Int.eq_ofNat_of_zero_le (sub_nonneg.mpr hfloor)
  have hcount : ⌊y + 0.5⌋ = (n : ℤ) + 1 := by omega
  obtain ⟨hle, hlt⟩ := Int.floor_eq_iff.mp hcount
  push_cast at hle hlt
  have hn1 : (0 : ℝ) < (n : ℝ) + 1 := by positivity
  refine ⟨n, _, hcount, rfl, ?_, ?_, ?_⟩
  · have hexp : ((n + 1 : ℕ) : ℝ) * (Real.log q / ((n : ℝ) + 1)) = Real.log q := by
      push_cast
      field_simp
    rw [← Real.exp_nat_mul, hexp, Real.exp_log (by linarith)]
  · rw [Real.rpow_def_of_pos hpos, Real.exp_le_exp, hlogq, mul_div_assoc]
    refine mul_le_mul_of_nonneg_left ?_ hlog.le
    rw [le_div_iff₀ hn1]
    -- A single step is rounded from more than one, several steps from half a step less at least.
    rcases Nat.eq_zero_or_pos n with rfl | hmore
    · push_cast
      linarith
    · have : (1 : ℝ) ≤ n := by exact_mod_cast hmore
      linarith
  · rw [Real.rpow_def_of_pos hpos, Real.exp_lt_exp, hlogq, mul_div_assoc]
    refine mul_lt_mul_of_pos_left ?_ hlog
    rw [div_lt_iff₀ hn1]
    have : (0 : ℝ) ≤ n := Nat.cast_nonneg n
    linarith

/-- The number of levels is one more than that of the steps, and the steps lead exactly to the
largest resolution. With more than one step the factor is near the ratio asked for. -/
theorem exists_growth? {L start : ℤ} {ratio : ℝ} (hL : 1 ≤ L) (hstart : 1 ≤ start)
    (hratio : 1 < ratio) : ∃ (n : ℕ) (f : ℝ),
      growth? L (start : ℝ) ratio = .ok ((n + 2 : ℕ), f) ∧ 0 < f ∧ start * f ^ (n + 1) = L ∧
        (start * ratio < L → ratio ^ (0.75 : ℝ) ≤ f ∧ f < ratio ^ (1.5 : ℝ)) := by
  have hLpos : (0 : ℝ) < L := by exact_mod_cast Int.zero_lt_one.trans_le hL
  have hspos : (0 : ℝ) < start := by exact_mod_cast Int.zero_lt_one.trans_le hstart
  have hzero : ¬IsZero (start : ℝ) := by
    rw [isZero_iff]
    exact hspos.ne'
  unfold growth?
  simp only
  rw [if_neg hzero]
  by_cases hone : (L : ℝ) / start ≤ ratio
  · rw [if_pos hone]
    refine ⟨0, L / start, rfl, by positivity, ?_, fun hmore => ?_⟩
    · rw [zero_add, pow_one, mul_div_cancel₀ _ hspos.ne']
    · rw [div_le_iff₀ hspos] at hone
      linarith
  · obtain ⟨n, f, hcount, hf, hpow, hnear⟩ := exists_steps hratio (not_le.mp hone)
    have hdist : Real.log L - Real.log start = Real.log (L / start) :=
      (Real.log_div hLpos.ne' hspos.ne').symm
    have hsteps : 0 ≤ Real.log (L / start : ℝ) / Real.log ratio :=
      div_nonneg (Real.log_nonneg (by linarith [not_le.mp hone])) (Real.log_pos hratio).le
    rw [if_neg hone]
    refine ⟨n, f, ?_, hf ▸ Real.exp_pos _, ?_, fun _ => hnear⟩
    · simp only [log_eq, exp_eq, hdist]
      rw [truncate?_of_nonneg _ (by linarith), hcount, hf]
      show Except.ok ((n : ℤ) + 1 + 1, Real.exp (_ / (((n : ℤ) + 1 : ℤ) : ℝ))) = _
      push_cast
      rw [add_assoc]
      norm_num
    · rw [hpow, mul_div_cancel₀ _ hspos.ne']

theorem radii_eq (f : ℝ) (n : ℕ) (r : ℝ) :
    radii f n r = (List.range n).map fun i => r * f ^ i := by
  induction n generalizing r with
  | zero => rfl
  | succ n ih =>
    rw [radii, ih, List.range_succ_eq_map, List.map_cons, List.map_map, pow_zero, mul_one]
    refine congrArg (r :: ·) (List.map_congr_left ?_)
    intro i _
    rw [Function.comp_apply, pow_succ]
    ring

/-- The exact edge lengths lead to the resolutions, whether they grow or shrink. -/
theorem reaches_radii {res : List ℤ} {L start : ℤ} {n : ℕ} {f : ℝ} (hmax : ∀ t ∈ res, t ≤ L)
    (hstart : 1 ≤ start) (hf : 0 < f) (hlast : start * f ^ (n + 1) = L) :
    Reaches start res (radii f (n + 2) start) := by
  have hspos : (0 : ℝ) < start := by exact_mod_cast Int.zero_lt_one.trans_le hstart
  have hpast : ∀ t ∈ res, (t : ℝ) ≤ L := fun t ht => by exact_mod_cast hmax t ht
  have hends : ∃ r, (radii f (n + 2) (start : ℝ)).getLast? = some r ∧ ∀ t ∈ res, t - 1.5 ≤ r := by
    refine ⟨start * f ^ (n + 1), ?_, fun t ht => by linarith [hpast t ht]⟩
    rw [radii_eq, List.getLast?_map, List.getLast?_range, if_neg (by omega)]
    rfl
  rcases le_total 1 f with hgrow | hshrink
  · refine reaches_of_pairwise_le (by omega) rfl ?_ fun r hr => ?_
    · rw [radii_eq, List.pairwise_map]
      refine List.pairwise_lt_range.imp fun {i j} hij => ?_
      exact mul_le_mul_of_nonneg_left (pow_le_pow_right₀ hgrow hij.le) hspos.le
    · obtain ⟨r', hr', hnear⟩ := hends
      rw [hr', Option.some_inj] at hr
      exact hr ▸ hnear
  · -- All lengths are past the largest resolution.
    have hlow : ∀ r ∈ radii f (n + 2) (start : ℝ), (L : ℝ) ≤ r := by
      intro r hr
      rw [radii_eq] at hr
      obtain ⟨i, hi, rfl⟩ := List.mem_map.mp hr
      rw [← hlast]
      exact mul_le_mul_of_nonneg_left
        (pow_le_pow_of_le_one hf.le hshrink (by have := List.mem_range.mp hi; omega)) hspos.le
    refine ⟨fun r hr => ?_, fun r hr t ht => ?_, ?_, hends⟩
    · rw [radii_eq] at hr
      obtain ⟨i, -, rfl⟩ := List.mem_map.mp hr
      positivity
    · exact (Int.cast_le.mpr (min_le_right start t)).trans ((hpast t ht).trans (hlow r hr))
    · refine List.pairwise_of_forall_mem_list fun r _ s hs t ht => Or.inr ?_
      linarith [hpast t ht, hlow s hs]

theorem ladder?_eq {res : List ℤ} {L : ℤ} {start ratio : ℝ} {n : ℕ} {f : ℝ}
    (hL : res.max? = some L) (hgrowth : growth? L start ratio = .ok ((n : ℕ), f)) :
    ladder? res start ratio = levelsThrough? res (radii f n start) := by
  unfold ladder?
  rw [hL, require_some, ok_bind, hgrowth, ok_bind]
  rfl

/-! ## Ladders -/

theorem startResolution_cast : ((startResolution : ℕ) : ℝ) = ((4 : ℤ) : ℝ) := by
  norm_num [startResolution]

theorem growthRatio_cast : ((growthRatio : ℕ) : ℝ) = 2 := by norm_num [growthRatio]

/-- From any start and for any ratio there is a ladder of two levels or more to every lattice. The
same levels, as many as there are edge lengths, come from lengths that are computed in any other
way, if they start at the start, do not fall, and end no more than one and a half nodes short. Where
a fit makes more than one step its edge lengths grow by a factor between two powers of two. -/
theorem exists_ladder?_isLadderTo {res : List ℤ} (hne : res ≠ []) (hres : ∀ t ∈ res, 1 ≤ t)
    {start : ℤ} (hstart : 1 ≤ start) {ratio : ℝ} (hratio : 1 < ratio) :
    (∃ levels, ladder? res (start : ℝ) ratio = .ok levels ∧ 2 ≤ levels.length ∧
      IsLadderTo start res levels) ∧
    (∀ lengths : List ℝ, lengths.head? = some (start : ℝ) → lengths.Pairwise (· ≤ ·) →
      (∀ r, lengths.getLast? = some r → ∀ L, res.max? = some L → L - 1.5 ≤ r) →
      ∃ levels, levelsThrough? res lengths = .ok levels ∧ levels.length = lengths.length ∧
        IsLadderTo start res levels) ∧
    ∀ L, res.max? = some L → 8 < L → ∃ (count : ℤ) (f : ℝ),
      growth? L (startResolution : ℝ) (growthRatio : ℝ) = .ok (count, f) ∧
      ladder? res (startResolution : ℝ) (growthRatio : ℝ) =
        levelsThrough? res (radii f count.toNat (startResolution : ℝ)) ∧
      (2 : ℝ) ^ (0.75 : ℝ) ≤ f ∧ f < (2 : ℝ) ^ (1.5 : ℝ) := by
  obtain ⟨L, hL⟩ := Option.isSome_iff_exists.mp (List.isSome_max?_of_ne_nil hne)
  obtain ⟨hmem, hmax⟩ := List.max?_eq_some_iff.mp hL
  refine ⟨?_, fun lengths hfirst hrises hends => ?_, fun L' hL' hlarge => ?_⟩
  · obtain ⟨n, f, hgrowth, hf, hlast, -⟩ := exists_growth? (hres L hmem) hstart hratio
    have hreaches := reaches_radii hmax hstart hf hlast
    refine ⟨_, (ladder?_eq hL hgrowth).trans hreaches.levelsThrough?_eq, ?_, hreaches.isLadderTo⟩
    rw [List.length_map, radii_eq, List.length_map, List.length_range]
    omega
  · have hreaches : Reaches start res lengths := by
      refine reaches_of_pairwise_le (by omega) hfirst hrises fun r hr t ht => ?_
      have hle : (t : ℝ) ≤ L := by exact_mod_cast hmax t ht
      linarith [hends r hr L hL]
    exact ⟨_, hreaches.levelsThrough?_eq, List.length_map _, hreaches.isLadderTo⟩
  · rw [hL, Option.some_inj] at hL'
    subst hL'
    obtain ⟨n, f, hgrowth, -, -, hnear⟩ :=
      exists_growth? (hres L hmem) (show (1 : ℤ) ≤ 4 by decide) one_lt_two
    rw [← startResolution_cast, ← growthRatio_cast] at hgrowth
    have hL8 : (8 : ℝ) < L := by exact_mod_cast hlarge
    exact ⟨_, f, hgrowth, ladder?_eq hL hgrowth, hnear (by push_cast; linarith)⟩

/-- A lattice with a single node along an axis, and edge lengths that end more than one node short
of its largest resolution. -/
theorem exists_ladder?_isLadderTo_uneven :
    (∃ levels, ladder? [3, 30, 1] ((4 : ℤ) : ℝ) 3 = .ok levels ∧ 2 ≤ levels.length ∧
      IsLadderTo 4 [3, 30, 1] levels) ∧
    (∃ levels, levelsThrough? [3, 30, 1] [((4 : ℤ) : ℝ), 8.25, 28.5] = .ok levels ∧
      levels.length = 3 ∧ IsLadderTo 4 [3, 30, 1] levels) ∧
    ∃ (count : ℤ) (f : ℝ), growth? 30 (startResolution : ℝ) (growthRatio : ℝ) = .ok (count, f) ∧
      (2 : ℝ) ^ (0.75 : ℝ) ≤ f ∧ f < (2 : ℝ) ^ (1.5 : ℝ) := by
  have hmax : ([3, 30, 1] : List ℤ).max? = some 30 := rfl
  obtain ⟨hladder, hlengths, hfactor⟩ := exists_ladder?_isLadderTo
    (show ([3, 30, 1] : List ℤ) ≠ [] by decide) (by decide) (show (1 : ℤ) ≤ 4 by decide)
    (show (1 : ℝ) < 3 by norm_num)
  obtain ⟨count, f, hgrowth, -, hnear⟩ := hfactor 30 hmax (by decide)
  refine ⟨hladder, hlengths _ rfl (by norm_num) fun r hr L hL => ?_, count, f, hgrowth, hnear⟩
  rw [hmax, Option.some_inj] at hL
  obtain rfl : 28.5 = r := Option.some.inj hr
  rw [← hL]
  norm_num

end GridSpline.Lattice
