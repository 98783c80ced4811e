import Mathlib
import GridSpline.Proofs.Incomplete.Numbers

/-!
# Bounds of the samples

The domain is the box that is spanned by the given bounds and the samples. Whether it may be
extended only decides what is reported: a run that is to warn reports each bound that moved, and a
run that must not extend the domain refuses samples for which something would be reported. So axis
by axis the three modes do the same but for their reports, and therefore they do so together.

## Main definitions

* `DiffersInReports` — what three modes do that differ only in what they report.
* `IsSpanned` — the bounds of the box that is spanned by given bounds and rows.
* `movedNotices` — what is reported of all bounds.

## Main statements

* `differsInReports_extendDomain?` — how the bounds of all axes are found.
* `isSpanned_spanned`, `IsSpanned.unique` — the bounds that are found are those of the box.
-/

namespace GridSpline

open Scalar Failure

/-! ## Reports -/

section Reports

variable {α β γ δ : Type}

/-- What three modes do that differ only in what they report: the first one is silent, the second
one reports, and the third one fails if there is something to report. -/
structure DiffersInReports (run : Extend → Except (Failure α) (β × List (Notice α))) (b : β)
    (moved : List (Notice α)) : Prop where
  always : run .always = .ok (b, [])
  warning : run .warning = .ok (b, moved)
  never_of_nil : moved = [] → run .never = .ok (b, [])
  never_of_ne : moved ≠ [] → ∃ side axis value bound,
    run .never = .error (.beyondDomain side axis value bound)

namespace DiffersInReports

theorem pure (b : β) : DiffersInReports (α := α) (fun _ => .ok (b, [])) b [] where
  always := rfl
  warning := rfl
  never_of_nil _ := rfl
  never_of_ne h := absurd rfl h

/-- One after the other, two steps report what each of them reports. -/
theorem bind {run : Extend → Except (Failure α) (β × List (Notice α))} {b : β}
    {moved : List (Notice α)} (h : DiffersInReports run b moved)
    {next : Extend → Except (Failure α) (γ × List (Notice α))} {c : γ} {more : List (Notice α)}
    (hnext : DiffersInReports next c more) (pair : β → γ → δ) :
    DiffersInReports (fun mode => do
      let (x, below) ← run mode
      let (y, above) ← next mode
      return (pair x y, below ++ above)) (pair b c) (moved ++ more) where
  always := by rw [h.always, ok_bind, hnext.always]; rfl
  warning := by rw [h.warning, ok_bind, hnext.warning]; rfl
  never_of_nil hnil := by
    obtain ⟨hmoved, hmore⟩ := List.append_eq_nil_iff.mp hnil
    rw [h.never_of_nil hmoved, ok_bind, hnext.never_of_nil hmore]
    rfl
  never_of_ne hne := by
    by_cases hmoved : moved = []
    · obtain ⟨side, axis, value, bound, herror⟩ :=
        hnext.never_of_ne fun hmore => hne (by rw [hmoved, hmore, List.append_nil])
      exact ⟨side, axis, value, bound, by rw [h.never_of_nil hmoved, ok_bind, herror]; rfl⟩
    · obtain ⟨side, axis, value, bound, herror⟩ := h.never_of_ne hmoved
      exact ⟨side, axis, value, bound, by rw [herror]; rfl⟩

end DiffersInReports

end Reports

/-! ## Bounds -/

/-- What is reported of a bound that is taken to another place. -/
noncomputable def movedNotice (side : Side) (axis : ℕ) (bound bound' : ℝ) :
    List (Notice Reading) :=
  if bound' = bound then [] else [.moved side axis (.number bound) (.number bound')]

/-- What is reported of the bounds of an axis. -/
noncomputable def axisNotices (axis : ℕ) (b b' : ℝ × ℝ) : List (Notice Reading) :=
  movedNotice .low axis b.1 b'.1 ++ movedNotice .high axis b.2 b'.2

/-- Bounds as readings. -/
def numberPair (b : ℝ × ℝ) : Reading × Reading := (.number b.1, .number b.2)

theorem differsInReports_extendBound_low (axis : ℕ) (bound value : ℝ) :
    DiffersInReports
      (fun mode => extendBound mode .low axis (Reading.number bound) (Reading.number value))
      (.number (min bound value)) (movedNotice .low axis bound (min bound value)) := by
  unfold movedNotice extendBound
  by_cases hlt : value < bound
  · simp only [Reading.number_lt_number, hlt, decide_true, if_true, min_eq_right hlt.le, if_neg hlt.ne]
    exact ⟨rfl, rfl, fun h => absurd h (List.cons_ne_nil _ _), fun _ => ⟨_, _, _, _, rfl⟩⟩
  · simp only [Reading.number_lt_number, hlt, decide_false, Bool.false_eq_true, if_false,
      min_eq_left (not_lt.mp hlt), if_true]
    exact .pure _

theorem differsInReports_extendBound_high (axis : ℕ) (bound value : ℝ) :
    DiffersInReports
      (fun mode => extendBound mode .high axis (Reading.number bound) (Reading.number value))
      (.number (max bound value)) (movedNotice .high axis bound (max bound value)) := by
  unfold movedNotice extendBound
  by_cases hlt : bound < value
  · simp only [Reading.number_lt_number, hlt, decide_true, if_true, max_eq_right hlt.le, if_neg hlt.ne']
    exact ⟨rfl, rfl, fun h => absurd h (List.cons_ne_nil _ _), fun _ => ⟨_, _, _, _, rfl⟩⟩
  · simp only [Reading.number_lt_number, hlt, decide_false, Bool.false_eq_true, if_false,
      max_eq_left (not_lt.mp hlt), if_true]
    exact .pure _

/-- The bounds of an axis. -/
theorem differsInReports_extendAxis (axis : ℕ) (b : ℝ × ℝ) (coordinates : List ℝ) :
    DiffersInReports (fun mode => extendAxis mode axis (Reading.number b.1) (Reading.number b.2)
      (coordinates.map .number)) (numberPair (extended b coordinates))
      (axisNotices axis b (extended b coordinates)) := by
  have hkept : DiffersInReports (fun _ => .ok (numberPair b, [])) (numberPair b)
      (axisNotices axis b b) := by
    unfold axisNotices movedNotice
    rw [if_pos rfl, if_pos rfl, List.append_nil]
    exact .pure _
  unfold extendAxis extended
  rw [Reading.least?_map_number, Reading.greatest?_map_number]
  cases least? coordinates with
  | none => exact hkept
  | some first =>
    cases greatest? coordinates with
    | none => exact hkept
    | some last =>
      exact (differsInReports_extendBound_low axis b.1 first).bind
        (differsInReports_extendBound_high axis b.2 last) Prod.mk

/-- The bounds of all axes. -/
theorem differsInReports_extendDomain? (positions : List (List ℝ)) (axis : ℕ)
    (given : List (ℝ × ℝ)) :
    DiffersInReports
      (fun mode => extendDomain? mode (positions.map (·.map .number)) axis (given.map numberPair))
      ((given.zipIdx axis).map fun p => numberPair (extended p.1 (column positions p.2)))
      ((given.zipIdx axis).flatMap fun p =>
        axisNotices p.2 p.1 (extended p.1 (column positions p.2))) := by
  induction given generalizing axis with
  | nil => exact .pure _
  | cons b given ih =>
    have haxis := differsInReports_extendAxis axis b (column positions axis)
    rw [← Reading.column_map_number] at haxis
    exact haxis.bind (ih (axis + 1)) List.cons

theorem map_fst_numberPair (bounds : List (ℝ × ℝ)) :
    (bounds.map numberPair).map (·.1) = (bounds.map (·.1)).map .number := by
  rw [List.map_map, List.map_map]
  rfl

theorem map_snd_numberPair (bounds : List (ℝ × ℝ)) :
    (bounds.map numberPair).map (·.2) = (bounds.map (·.2)).map .number := by
  rw [List.map_map, List.map_map]
  rfl

theorem map_sub_numberPair (bounds : List (ℝ × ℝ)) :
    ((bounds.map numberPair).map fun b => b.2 - b.1) =
      (bounds.map fun b => b.2 - b.1).map .number := by
  rw [List.map_map, List.map_map]
  rfl

theorem zip_map_number (low high : List ℝ) :
    (low.map Reading.number).zip (high.map Reading.number) = (low.zip high).map numberPair :=
  List.zip_map

/-! ## The box -/

theorem isLeast_extended (b : ℝ × ℝ) (coordinates : List ℝ) :
    IsLeast (insert b.1 {x | x ∈ coordinates}) (extended b coordinates).1 := by
  unfold extended
  cases coordinates with
  | nil => simp [least?]
  | cons a l => exact (least?_eq_some_iff.mp rfl).insert b.1

theorem isGreatest_extended (b : ℝ × ℝ) (coordinates : List ℝ) :
    IsGreatest (insert b.2 {x | x ∈ coordinates}) (extended b coordinates).2 := by
  unfold extended
  cases coordinates with
  | nil => simp [least?]
  | cons a l => exact (greatest?_eq_some_iff.mp rfl).insert b.2

/-- The bounds of the box that is spanned by given bounds and samples. -/
structure IsSpanned (low high : List ℝ) (rows : List (List ℝ)) (low' high' : List ℝ) : Prop where
  length_low : low'.length = low.length
  length_high : high'.length = high.length
  least : ∀ e < low.length,
    IsLeast (insert (low.getD e 0) {x | ∃ r ∈ rows, r[e]? = some x}) (low'.getD e 0)
  greatest : ∀ e < high.length,
    IsGreatest (insert (high.getD e 0) {x | ∃ r ∈ rows, r[e]? = some x}) (high'.getD e 0)

/-- What is reported of all bounds: axis by axis, the lower one first. -/
noncomputable def movedNotices (low high low' high' : List ℝ) : List (Notice Reading) :=
  (List.range low.length).flatMap fun e =>
    axisNotices e (low.getD e 0, high.getD e 0) (low'.getD e 0, high'.getD e 0)

/-- The bounds after the rows were taken in. -/
noncomputable def spanned (low high : List ℝ) (rows : List (List ℝ)) : List (ℝ × ℝ) :=
  (low.zip high).zipIdx.map fun p => extended p.1 (column rows p.2)

section Spanned

variable {low high low' high' : List ℝ} {rows : List (List ℝ)} (hlen : high.length = low.length)

include hlen

theorem zipIdx_zip : (low.zip high).zipIdx =
    (List.range low.length).map fun e => ((low.getD e 0, high.getD e 0), e) := by
  refine List.ext_getElem (by simp [hlen]) fun e h1 h2 => ?_
  have he : e < low.length := by simpa using h2
  simp only [List.getElem_zipIdx, List.getElem_zip, List.getElem_map, List.getElem_range,
    List.getD_eq_getElem _ _ he, List.getD_eq_getElem _ _ (hlen ▸ he), Nat.zero_add]

theorem spanned_eq : spanned low high rows = (List.range low.length).map fun e =>
    extended (low.getD e 0, high.getD e 0) (column rows e) := by
  unfold spanned
  rw [zipIdx_zip hlen, List.map_map]
  rfl

theorem getD_map_spanned (f : ℝ × ℝ → ℝ) {e : ℕ} (he : e < low.length) :
    ((spanned low high rows).map f).getD e 0 =
      f (extended (low.getD e 0, high.getD e 0) (column rows e)) := by
  rw [spanned_eq hlen, List.map_map, List.getD_eq_getElem _ _ (by simpa using he),
    List.getElem_map, List.getElem_range]
  rfl

theorem isSpanned_spanned (rows : List (List ℝ)) : IsSpanned low high rows
    ((spanned low high rows).map (·.1)) ((spanned low high rows).map (·.2)) := by
  have hcolumn : ∀ e, {x | x ∈ column rows e} = {x | ∃ r ∈ rows, r[e]? = some x} := by
    intro e
    ext x
    exact List.mem_filterMap
  have hlength : (spanned low high rows).length = low.length := by
    rw [spanned_eq hlen, List.length_map, List.length_range]
  refine ⟨by rw [List.length_map, hlength], by rw [List.length_map, hlength, hlen],
    fun e he => ?_, fun e he => ?_⟩
  · rw [getD_map_spanned hlen _ he, ← hcolumn]
    exact isLeast_extended _ _
  · rw [getD_map_spanned hlen _ (hlen ▸ he), ← hcolumn]
    exact isGreatest_extended _ _

theorem flatMap_axisNotices : ((low.zip high).zipIdx.flatMap fun p =>
      axisNotices p.2 p.1 (extended p.1 (column rows p.2))) =
    movedNotices low high ((spanned low high rows).map (·.1))
      ((spanned low high rows).map (·.2)) := by
  unfold movedNotices
  rw [zipIdx_zip hlen, List.flatMap_map]
  refine List.flatMap_congr fun e he => ?_
  have he : e < low.length := List.mem_range.mp he
  rw [getD_map_spanned hlen _ he, getD_map_spanned hlen _ he]

end Spanned

namespace IsSpanned

variable {low high low' high' : List ℝ} {rows : List (List ℝ)}
  (h : IsSpanned low high rows low' high')

include h

/-- All rows lie in the box. -/
theorem inBox (hlen : high.length = low.length) {r : List ℝ} (hr : r ∈ rows)
    (hlength : r.length = low.length) : InBox low' high' r := by
  refine ⟨List.forall₂_iff_get.mpr ⟨h.length_low.trans hlength.symm, fun e h1 h2 => ?_⟩,
    List.forall₂_iff_get.mpr ⟨hlength.trans (hlen.symm.trans h.length_high.symm),
      fun e h1 h2 => ?_⟩⟩
  · have hle := (h.least e (h.length_low ▸ h1)).2 (Set.mem_insert_of_mem _
      ⟨r, hr, List.getElem?_eq_getElem h2⟩)
    rwa [List.getD_eq_getElem _ _ h1] at hle
  · have hle := (h.greatest e (h.length_high ▸ h2)).2 (Set.mem_insert_of_mem _
      ⟨r, hr, List.getElem?_eq_getElem h1⟩)
    rwa [List.getD_eq_getElem _ _ h2] at hle

/-- There is one such box. -/
theorem unique {low'' high'' : List ℝ} (h' : IsSpanned low high rows low'' high'') :
    low' = low'' ∧ high' = high'' := by
  refine ⟨List.ext_getElem (h.length_low.trans h'.length_low.symm) fun e h1 h2 => ?_,
    List.ext_getElem (h.length_high.trans h'.length_high.symm) fun e h1 h2 => ?_⟩
  · have he := h.length_low ▸ h1
    rw [← List.getD_eq_getElem low' 0 h1, ← List.getD_eq_getElem low'' 0 h2]
    exact (h.least e he).unique (h'.least e he)
  · have he := h.length_high ▸ h1
    rw [← List.getD_eq_getElem high' 0 h1, ← List.getD_eq_getElem high'' 0 h2]
    exact (h.greatest e he).unique (h'.greatest e he)

omit h in
/-- A box that has all rows already stays as it is. -/
theorem of_inBox (hin : ∀ r ∈ rows, InBox low high r) : IsSpanned low high rows low high where
  length_low := rfl
  length_high := rfl
  least e he := by
    refine ⟨Set.mem_insert _ _, ?_⟩
    rintro x (rfl | ⟨r, hr, hx⟩)
    · exact le_refl _
    · obtain ⟨h1, rfl⟩ := List.getElem?_eq_some_iff.mp hx
      rw [List.getD_eq_getElem _ _ he]
      exact (hin r hr).1.get he h1
  greatest e he := by
    refine ⟨Set.mem_insert _ _, ?_⟩
    rintro x (rfl | ⟨r, hr, hx⟩)
    · exact le_refl _
    · obtain ⟨h1, rfl⟩ := List.getElem?_eq_some_iff.mp hx
      rw [List.getD_eq_getElem _ _ he]
      exact (hin r hr).2.get h1 he

/-- Nothing is reported if the box stays as it is, and only then. -/
theorem movedNotices_eq_nil_iff (hlen : high.length = low.length) :
    movedNotices low high low' high' = [] ↔ low' = low ∧ high' = high := by
  unfold movedNotices axisNotices movedNotice
  simp only [List.flatMap_eq_nil_iff, List.mem_range, List.append_eq_nil_iff, ite_eq_left_iff,
    reduceCtorEq, imp_false, not_not]
  constructor
  · intro hkept
    refine ⟨List.ext_getElem h.length_low fun e h1 h2 => ?_,
      List.ext_getElem h.length_high fun e h1 h2 => ?_⟩
    · rw [← List.getD_eq_getElem low' 0 h1, ← List.getD_eq_getElem low 0 h2]
      exact (hkept e h2).1
    · rw [← List.getD_eq_getElem high' 0 h1, ← List.getD_eq_getElem high 0 h2]
      exact (hkept e (hlen ▸ h2)).2
  · rintro ⟨rfl, rfl⟩
    exact fun e _ => ⟨rfl, rfl⟩

/-- Nothing is reported if all rows lie in the given box, and only then. -/
theorem forall_inBox_iff (hlen : high.length = low.length)
    (hrows : ∀ r ∈ rows, r.length = low.length) :
    (∀ r ∈ rows, InBox low high r) ↔ movedNotices low high low' high' = [] := by
  rw [h.movedNotices_eq_nil_iff hlen]
  refine ⟨fun hin => h.unique (.of_inBox hin), ?_⟩
  rintro ⟨rfl, rfl⟩ r hr
  exact h.inBox hlen hr (hrows r hr)

end IsSpanned

/-- The extent of the box is not negative if there is something in it. -/
theorem sub_nonneg_of_inBox {bounds : List (ℝ × ℝ)} {r : List ℝ}
    (h : InBox (bounds.map (·.1)) (bounds.map (·.2)) r) : ∀ b ∈ bounds, 0 ≤ b.2 - b.1 := by
  intro b hb
  obtain ⟨e, he, rfl⟩ := List.mem_iff_getElem.mp hb
  have hr : e < r.length := by rw [h.length_low, List.length_map]; exact he
  have hle := (h.1.get (by simpa using he) hr).trans (h.2.get hr (by simpa using he))
  simpa only [List.get_eq_getElem, List.getElem_map, sub_nonneg] using hle

theorem zipWith_add_sub (bounds : List (ℝ × ℝ)) :
    List.zipWith (· + ·) (bounds.map (·.1)) (bounds.map fun b => b.2 - b.1) =
      bounds.map (·.2) := by
  rw [List.zipWith_map, List.zipWith_self]
  exact List.map_congr_left fun b _ => add_sub_cancel b.1 b.2

end GridSpline
