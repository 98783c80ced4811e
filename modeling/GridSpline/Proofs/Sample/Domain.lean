import Mathlib
import GridSpline.Proofs.Exact
import GridSpline.Proofs.Interpolation.Cell
import GridSpline.Proofs.Sample.Checks

/-!
# Samples and the domain

The samples that the checks keep are complete, and they have as many entries as there are axes and
channels. The domain takes them in: after the checks no sample is outside along any axis. Nothing
here needs real numbers. The bounds that were given may be no numbers at all; a sample is not
outside of such a bound.

## Main statements

* `kept_of_samples?` — what is known of the samples that are kept.
* `least?_spec`, `greatest?_spec` — outermost numbers.
* `isWithin_prepare` — after the checks no sample is outside.
-/

namespace GridSpline

open Scalar Failure

variable {α : Type}

/-! ## Rows -/

theorem mem_assemble {p v k : List (List α)} {s : Sample α} (h : s ∈ assemble p v k) :
    s.position ∈ p ∧ s.values ∈ v ∧ s.weights ∈ k ∧ s.targets = s.values := by
  induction p generalizing v k with
  | nil => simp [assemble] at h
  | cons p ps ih =>
    cases v with
    | nil => simp [assemble] at h
    | cons v vs =>
      cases k with
      | nil => simp [assemble] at h
      | cons k ks =>
        rw [assemble, List.mem_cons] at h
        rcases h with rfl | h
        · exact ⟨List.mem_cons_self, List.mem_cons_self, List.mem_cons_self, rfl⟩
        · obtain ⟨hp, hv, hk, ht⟩ := ih h
          exact ⟨List.mem_cons_of_mem _ hp, List.mem_cons_of_mem _ hv, List.mem_cons_of_mem _ hk,
            ht⟩

variable [Scalar α]

/-- What is known of the samples that are kept. -/
theorem kept_of_samples? {g : GivenSamples α} {axes channels : ℕ} {samples : List (Sample α)}
    (h : g.samples? axes = .ok (channels, samples)) : ∀ s ∈ samples,
      s.position.length = axes ∧ s.values.length = channels ∧ s.weights.length = channels ∧
        s.IsComplete ∧ (∀ w ∈ s.weights, ¬w ≤ 0) ∧ s.targets = s.values := by
  unfold GivenSamples.samples? at h
  simp only [bind_eq_ok, guard_eq_ok, pure_eq_ok, Prod.mk.injEq] at h
  obtain ⟨p, hp, v, hv, -, hcolumns, -, k, hk, hweights, rfl, rfl⟩ := h
  intro s hs
  obtain ⟨hassembled, hcomplete⟩ := List.mem_filter.mp hs
  obtain ⟨hposition, hvalues, hrow, htargets⟩ := mem_assemble hassembled
  refine ⟨?_, length_row_ofNested? hv _ hvalues, length_weightRow hk _ hrow,
    of_decide_eq_true hcomplete, ?_, htargets⟩
  · rw [length_row_ofNested? hp _ hposition]
    exact not_ne_iff.mp hcolumns
  · intro w hw hle
    exact hweights (List.any_eq_true.mpr ⟨s, hs, List.any_eq_true.mpr ⟨w, hw, decide_eq_true hle⟩⟩)

/-! ## Columns -/

omit [Scalar α] in
theorem mem_column_iff {rows : List (List α)} {e : ℕ} {x : α} :
    x ∈ column rows e ↔ ∃ r ∈ rows, r[e]? = some x := List.mem_filterMap

/-- A choice that is made again and again is one of the entries, and related to all of them. -/
theorem foldl_choice {choose : α → α → α} {R : α → α → Prop}
    (hchoose : ∀ {a b}, IsNumber a → IsNumber b →
      (choose a b = a ∨ choose a b = b) ∧ R (choose a b) a ∧ R (choose a b) b)
    (hrefl : ∀ {a}, IsNumber a → R a a)
    (htrans : ∀ {a b c}, R a b → R b c → R a c) {x : α} {l : List α}
    (hl : ∀ y ∈ x :: l, IsNumber y) :
    l.foldl choose x ∈ x :: l ∧ ∀ y ∈ x :: l, R (l.foldl choose x) y := by
  induction l generalizing x with
  | nil =>
    refine ⟨List.mem_cons_self, fun y hy => ?_⟩
    obtain rfl := List.mem_singleton.mp hy
    exact hrefl (hl y List.mem_cons_self)
  | cons z l ih =>
    have hx := hl x List.mem_cons_self
    have hz := hl z (List.mem_cons_of_mem x List.mem_cons_self)
    obtain ⟨hone, hfirst, hsecond⟩ := hchoose hx hz
    have hnumber : IsNumber (choose x z) := by
      rcases hone with heq | heq
      · rwa [heq]
      · rwa [heq]
    obtain ⟨hmem, hall⟩ := ih (x := choose x z) fun y hy => by
      rcases List.mem_cons.mp hy with rfl | hy
      · exact hnumber
      · exact hl y (List.mem_cons_of_mem x (List.mem_cons_of_mem z hy))
    have hchosen := hall _ List.mem_cons_self
    refine ⟨?_, fun y hy => ?_⟩
    · rcases List.mem_cons.mp hmem with heq | hrest
      · rw [List.foldl_cons, heq]
        rcases hone with heq | heq
        · rw [heq]
          exact List.mem_cons_self
        · rw [heq]
          exact List.mem_cons_of_mem x List.mem_cons_self
      · exact List.mem_cons_of_mem x (List.mem_cons_of_mem z hrest)
    · rcases List.mem_cons.mp hy with rfl | hy
      · exact htrans hchosen hfirst
      rcases List.mem_cons.mp hy with rfl | hy
      · exact htrans hchosen hsecond
      · exact hall y (List.mem_cons_of_mem _ hy)

variable [IsExact α]

section Outermost

variable {l : List α} (hl : ∀ x ∈ l, IsNumber x) {m : α}

include hl

/-- The least number of a column. -/
theorem least?_spec (h : least? l = some m) : m ∈ l ∧ ∀ x ∈ l, m ≤ x := by
  cases l with
  | nil => cases h
  | cons x l =>
    obtain rfl := Option.some.inj h
    exact foldl_choice minimum_spec id IsExact.le_trans hl

/-- The greatest number of a column. -/
theorem greatest?_spec (h : greatest? l = some m) : m ∈ l ∧ ∀ x ∈ l, x ≤ m := by
  cases l with
  | nil => cases h
  | cons x l =>
    obtain rfl := Option.some.inj h
    exact foldl_choice (R := fun a b => b ≤ a) maximum_spec id
      (fun h h' => IsExact.le_trans h' h) hl

end Outermost

/-! ## The domain -/

/-- No coordinate is below the lower end of an axis that took it in. -/
theorem not_below_extendBound {mode : Extend} {axis : ℕ} {bound value : α}
    {p : α × List (Notice α)} (h : extendBound mode .low axis bound value = .ok p) :
    ¬value < p.1 := by
  unfold extendBound at h
  by_cases hbeyond : value < bound
  · simp only [hbeyond, decide_true, if_true] at h
    cases mode with
    | never => cases h
    | warning =>
      cases h
      exact IsExact.lt_irrefl value
    | always =>
      cases h
      exact IsExact.lt_irrefl value
  · simp only [hbeyond, decide_false, Bool.false_eq_true, if_false] at h
    cases h
    exact hbeyond

/-- No coordinate is above the upper end of an axis that took it in. -/
theorem not_above_extendBound {mode : Extend} {axis : ℕ} {bound value : α}
    {p : α × List (Notice α)} (h : extendBound mode .high axis bound value = .ok p) :
    ¬p.1 < value := by
  unfold extendBound at h
  by_cases hbeyond : bound < value
  · simp only [hbeyond, decide_true, if_true] at h
    cases mode with
    | never => cases h
    | warning =>
      cases h
      exact IsExact.lt_irrefl value
    | always =>
      cases h
      exact IsExact.lt_irrefl value
  · simp only [hbeyond, decide_false, Bool.false_eq_true, if_false] at h
    cases h
    exact hbeyond

/-- No coordinate is beyond the bounds of an axis that took them in. -/
theorem not_beyond_extendAxis {mode : Extend} {axis : ℕ} {low high : α} {coordinates : List α}
    (hnumbers : ∀ x ∈ coordinates, IsNumber x) {out : (α × α) × List (Notice α)}
    (h : extendAxis mode axis low high coordinates = .ok out) :
    ∀ x ∈ coordinates, ¬x < out.1.1 ∧ ¬out.1.2 < x := by
  intro x hx
  unfold extendAxis at h
  split at h
  · rename_i first last hfirst hlast
    simp only [bind_eq_ok, pure_eq_ok] at h
    obtain ⟨l, hl, u, hu, rfl⟩ := h
    have hle := (least?_spec hnumbers hfirst).2 x hx
    have hge := (greatest?_spec hnumbers hlast).2 x hx
    exact ⟨fun hlt => not_below_extendBound hl (IsExact.lt_of_le_of_lt hle hlt),
      fun hlt => not_above_extendBound hu (IsExact.lt_of_lt_of_le hlt hge)⟩
  · rename_i hnone
    exfalso
    cases coordinates with
    | nil => exact List.not_mem_nil hx
    | cons a l => exact hnone _ _ rfl rfl

/-- After the domain was extended, no sample is beyond the bounds of any axis. -/
theorem not_beyond_extendDomain? {mode : Extend} {positions : List (List α)}
    (hnumbers : ∀ p ∈ positions, ∀ x ∈ p, IsNumber x) {axis : ℕ} {given : List (α × α)}
    {out : List (α × α) × List (Notice α)}
    (h : extendDomain? mode positions axis given = .ok out) :
    ∀ e (he : e < out.1.length), ∀ p ∈ positions, ∀ x,
      p[axis + e]? = some x → ¬x < (out.1[e]).1 ∧ ¬(out.1[e]).2 < x := by
  induction given generalizing axis out with
  | nil =>
    cases h
    exact fun e he => absurd he (Nat.not_lt_zero e)
  | cons b rest ih =>
    obtain ⟨low, high⟩ := b
    unfold extendDomain? at h
    simp only [bind_eq_ok, pure_eq_ok] at h
    obtain ⟨first, hfirst, others, hothers, rfl⟩ := h
    have hcolumn : ∀ x ∈ column positions axis, IsNumber x := by
      intro x hx
      obtain ⟨r, hr, hrx⟩ := mem_column_iff.mp hx
      exact hnumbers r hr x (List.mem_of_getElem? hrx)
    intro e he p hp x hx
    cases e with
    | zero => exact not_beyond_extendAxis hcolumn hfirst x (mem_column_iff.mpr ⟨p, hp, hx⟩)
    | succ e =>
      have he' : e < others.1.length := by simpa using he
      have hshift : axis + (e + 1) = axis + 1 + e := by omega
      rw [hshift] at hx
      exact ih hothers e he' p hp x hx

/-- After the checks no sample is outside. -/
theorem isWithin_prepare {g : GivenSamples α} {mode : Extend} {data : Prepared α}
    {notices : List (Notice α)} (h : g.prepare mode = .ok (data, notices)) :
    ∀ s ∈ data.samples, IsWithin data.low data.high s.position := by
  obtain ⟨found, -, hfinds, -, -, rfl, -⟩ := prepare_eq_ok_iff.mp h
  obtain ⟨low, high, hlow, hhigh, hbounds⟩ := hfinds.bounds
  have hkept := kept_of_samples? hfinds.samples
  have hnumbers : ∀ p ∈ found.samples.map (·.position), ∀ x ∈ p, IsNumber x := by
    intro p hp
    obtain ⟨s, hs, rfl⟩ := List.mem_map.mp hp
    exact (hkept s hs).2.2.2.1.1
  have hwithin := not_beyond_extendDomain? hnumbers hbounds
  have haxes := hfinds.length_bounds
  intro s hs
  have hposition : s.position.length = found.bounds.length := (hkept s hs).1.trans haxes.symm
  have hcoordinate : ∀ e (he : e < found.bounds.length) (hs' : e < s.position.length),
      ¬s.position[e] < (found.bounds[e]).1 ∧ ¬(found.bounds[e]).2 < s.position[e] :=
    fun e he hs' => hwithin e he _ (List.mem_map_of_mem hs) _
      (by rw [Nat.zero_add, List.getElem?_eq_getElem hs'])
  show IsWithin (found.bounds.map (·.1)) (found.bounds.map (·.2)) s.position
  refine ⟨List.forall₂_iff_get.mpr ⟨by rw [List.length_map, hposition], fun e h1 h2 => ?_⟩,
    List.forall₂_iff_get.mpr ⟨by rw [List.length_map, hposition], fun e h1 h2 => ?_⟩⟩
  · rw [List.length_map] at h1
    simpa using (hcoordinate e h1 h2).1
  · rw [List.length_map] at h2
    simpa using (hcoordinate e h2 h1).2

end GridSpline
