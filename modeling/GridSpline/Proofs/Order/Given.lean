import Mathlib
import GridSpline.Proofs.Fit.Start
import GridSpline.Proofs.Order.Rows
import GridSpline.Proofs.Sample.Domain

/-!
# Checking samples in another order

The checks read samples in another order as the same samples, and all that is worked out of them,
the outermost coordinates and values and the means, is the same. So they accept or refuse both
alike, and what they make of the one is what they make of the other in that order. Rows in which
something is missing are dropped first; what is left of the order is one of the other rows.

The scalars are exact: the mean of rounded numbers depends on the order in which they are added.

## Main definitions

* `GivenSamples.rows` — the samples before any is dropped.
* `GivenSamples.keptOrder` — what is left of an order of them.
* `Fit.reordered`, `Running.reordered` — a fit, and a run of it, of samples in another order.

## Main statements

* `samples?_reordered`, `extend?_reordered`, `complete?_reordered`, `prepare_reordered` — what the
  checks make of samples in another order.
* `start?_reordered` — how a run of them starts.
-/

namespace GridSpline

open Scalar Failure
open GridSpline.Lattice

variable {α : Type} {order : List ℕ}

/-! ## What is kept of an order -/

section Kept

variable [Scalar α]

/-- The samples of all rows, before those in which something is missing are dropped. There are none
if the rows do not fit each other. -/
def GivenSamples.rows (g : GivenSamples α) : List (Sample α) :=
  match Dense.ofNested? g.positions, Dense.ofNested? g.values with
  | some p, some v =>
    match weightRows? p.parts.length (v.shape.getD 1 0) g.weights with
    | .ok k => assemble p.parts v.parts k
    | .error _ => []
  | _, _ => []

/-- What is left of an order of the rows when those are dropped in which something is missing. -/
def GivenSamples.keptOrder (g : GivenSamples α) (order : List ℕ) : List ℕ :=
  orderAmong (placesOf (fun s => decide s.IsComplete) g.rows) order

/-- What is left of an order is one of the rows that are kept. -/
theorem keptOrder_perm {g : GivenSamples α} (horder : order.Perm (List.range g.rows.length)) :
    (g.keptOrder order).Perm
      (List.range (g.rows.filter fun s => decide s.IsComplete).length) := by
  rw [← length_placesOf]
  exact orderAmong_perm horder lt_length_of_mem_placesOf (nodup_placesOf _ _)

/-- If nothing is missing then all of the order is left. -/
theorem keptOrder_of_isComplete {g : GivenSamples α} (hcomplete : ∀ s ∈ g.rows, s.IsComplete)
    (horder : order.Perm (List.range g.rows.length)) : g.keptOrder order = order := by
  have hplaces : placesOf (fun s => decide s.IsComplete) g.rows = List.range g.rows.length := by
    refine List.filter_eq_self.mpr fun i hi => ?_
    rw [List.getElem?_eq_getElem (List.mem_range.mp hi)]
    exact decide_eq_true (hcomplete _ (List.getElem_mem _))
  unfold GivenSamples.keptOrder
  rw [hplaces]
  exact orderAmong_range fun i hi => lt_length_of_mem horder hi

end Kept

/-! ## Outermost and mean values -/

section Perm

variable [Scalar α] {l l' : List α} (h : l'.Perm l) (hl : ∀ x ∈ l, IsNumber x)

include h hl

/-- Which entry is outermost does not depend on the order. -/
theorem outermost_perm {pick : List α → Option α} {Related : α → α → Prop}
    (hnone : ∀ {l}, pick l = none ↔ l = [])
    (hpick : ∀ {l m}, (∀ x ∈ l, IsNumber x) → pick l = some m → m ∈ l ∧ ∀ x ∈ l, Related m x)
    (hantisymm : ∀ {a b}, Related a b → Related b a → a = b) : pick l' = pick l := by
  have hl' : ∀ x ∈ l', IsNumber x := fun x hx => hl x (h.mem_iff.mp hx)
  cases hm : pick l with
  | none =>
    obtain rfl := hnone.mp hm
    exact hnone.mpr h.eq_nil
  | some m =>
    cases hm' : pick l' with
    | none =>
      obtain rfl := hnone.mp hm'
      rw [hnone.mpr h.symm.eq_nil] at hm
      cases hm
    | some m' =>
      obtain ⟨hmem, hall⟩ := hpick hl hm
      obtain ⟨hmem', hall'⟩ := hpick hl' hm'
      rw [hantisymm (hall' m (h.mem_iff.mpr hmem)) (hall m' (h.mem_iff.mp hmem'))]

variable [IsExact α]

theorem least?_perm : least? l' = least? l :=
  outermost_perm h hl (fun {l} => by cases l <;> simp [least?])
    (fun hl hm => least?_spec hl hm) IsExact.le_antisymm

theorem greatest?_perm : greatest? l' = greatest? l :=
  outermost_perm h hl (fun {l} => by cases l <;> simp [greatest?])
    (fun hl hm => greatest?_spec hl hm) fun h h' => IsExact.le_antisymm h' h

theorem widen_perm (low high : α) : widen low high l' = widen low high l := by
  unfold widen
  rw [least?_perm h hl, greatest?_perm h hl]

theorem extendAxis_perm (mode : Extend) (axis : ℕ) (low high : α) :
    extendAxis mode axis low high l' = extendAxis mode axis low high l := by
  unfold extendAxis
  rw [least?_perm h hl, greatest?_perm h hl]

omit hl in
theorem meanOr_perm (default : α) : meanOr default l' = meanOr default l := by
  unfold meanOr
  rw [h.isEmpty_eq, sum_perm h, h.length_eq]

end Perm

section Columns

variable [Scalar α] {rows rows' : List (List α)} (h : rows'.Perm rows)
  (hrows : ∀ r ∈ rows, ∀ x ∈ r, IsNumber x)

omit [Scalar α] in
theorem column_perm {rows rows' : List (List α)} (h : rows'.Perm rows) (e : ℕ) :
    (column rows' e).Perm (column rows e) := h.filterMap _

include hrows in
theorem isNumber_of_mem_column (e : ℕ) : ∀ x ∈ column rows e, IsNumber x := by
  intro x hx
  obtain ⟨r, hr, hrx⟩ := mem_column_iff.mp hx
  exact hrows r hr x (List.mem_of_getElem? hrx)

include h hrows in
/-- The domain takes samples in in any order. -/
theorem extendDomain?_perm [IsExact α] (mode : Extend) (axis : ℕ) (given : List (α × α)) :
    extendDomain? mode rows' axis given = extendDomain? mode rows axis given := by
  induction given generalizing axis with
  | nil => rfl
  | cons b rest ih =>
    unfold extendDomain?
    rw [extendAxis_perm (column_perm h axis) (isNumber_of_mem_column hrows axis), ih]

include h in
/-- The means take samples in in any order. -/
theorem map_meanOr_perm [IsExact α] (channels : ℕ) (default : α) :
    ((List.range channels).map (column rows')).map (meanOr default) =
      ((List.range channels).map (column rows)).map (meanOr default) := by
  rw [List.map_map, List.map_map]
  exact List.map_congr_left fun e _ => meanOr_perm (column_perm h e) default

include h hrows in
/-- The extents take samples in in any order. -/
theorem zipWith_widen_perm [IsExact α] (channels : ℕ) (given : List (α × α)) :
    List.zipWith (fun (l, h) values => widen l h values) given
        ((List.range channels).map (column rows')) =
      List.zipWith (fun (l, h) values => widen l h values) given
        ((List.range channels).map (column rows)) := by
  rw [List.zipWith_map_right, List.zipWith_map_right]
  simp only [widen_perm (column_perm h _) (isNumber_of_mem_column hrows _)]

end Columns

/-! ## Samples -/

/-- The samples that are made of rows in another order. -/
theorem assemble_entriesAt {p v k : List (List α)} (hp : ∀ i ∈ order, i < p.length)
    (hv : ∀ i ∈ order, i < v.length) (hk : ∀ i ∈ order, i < k.length) :
    assemble (entriesAt order p) (entriesAt order v) (entriesAt order k) =
      entriesAt order (assemble p v k) := by
  have hzip : ∀ i ∈ order, i < (p.zip v).length := by
    intro i hi
    rw [List.length_zip]
    exact lt_min (hp i hi) (hv i hi)
  rw [assemble_eq_zipWith, assemble_eq_zipWith, entriesAt_zipWith _ hzip hk, List.zip,
    entriesAt_zipWith _ hp hv]

theorem length_assemble {p v k : List (List α)} (hv : v.length = p.length)
    (hk : k.length = p.length) : (assemble p v k).length = p.length := by
  rw [assemble_eq_zipWith, List.length_zipWith, List.length_zip, hv, hk, min_self, min_self]

section Completed

variable [Scalar α] [IsExact α] {g : GivenSamples α} {mode : Extend} {e : Extended α}
  (hfinds : g.Finds mode e) (hperm : order.Perm (List.range e.samples.length))

include hfinds hperm

/-- What samples in another order are completed to. -/
theorem completed_reordered (spacing : List (Spacing α)) :
    (e.reordered order).completed spacing = (e.completed spacing).reordered order := by
  have hsamples := perm_entriesAt hperm
  have hvalues : ∀ r ∈ e.samples.map (·.values), ∀ x ∈ r, IsNumber x := by
    intro r hr
    obtain ⟨s, hs, rfl⟩ := List.mem_map.mp hr
    exact (kept_of_samples? hfinds.samples s hs).2.2.2.1.2.1
  unfold Extended.completed Extended.reordered Prepared.reordered
  simp only [map_meanOr_perm (hsamples.map _), zipWith_widen_perm (hsamples.map _) hvalues]

/-- The checks that are left make the same of samples in another order. -/
theorem complete?_reordered (given : Option (Option (List (Option (Nested α))))) :
    (e.reordered order).complete? given = Prepared.reordered order <$> e.complete? given := by
  unfold Extended.complete?
  refine guard_map_congr fun _ => ?_
  simp only [completed_reordered hfinds hperm, map_bind, map_pure]
  rfl

end Completed

section Given

variable [Scalar α] {g : GivenSamples α} {p v : Dense α} {m n k axes : ℕ}
  (hp : Dense.ofNested? g.positions = some p) (hpshape : p.shape = [order.length, m])
  (hv : Dense.ofNested? g.values = some v) (hvshape : v.shape = [n, k])

include hp hpshape hv hvshape

/-- Where the rows fit each other there is a sample for every one. -/
theorem rows_eq (hcount : order.length = n) {w : List (List α)}
    (hw : weightRows? order.length k g.weights = .ok w) :
    g.rows = assemble p.parts v.parts w ∧ g.rows.length = order.length := by
  have hpparts := Dense.length_parts hpshape
  have hvparts := Dense.length_parts hvshape
  have hrows : g.rows = assemble p.parts v.parts w := by
    unfold GivenSamples.rows
    simp only [hp, hv, hpparts, hvshape, List.getD_cons_succ, List.getD_cons_zero, hw]
  refine ⟨hrows, ?_⟩
  rw [hrows, length_assemble (by rw [hvparts, hpparts, hcount])
    (by rw [length_weightRows? hw, hpparts]), hpparts]

/-- The samples that are kept are those of the rows in which nothing is missing. -/
theorem exists_of_samples? {channels : ℕ} {samples : List (Sample α)}
    (h : g.samples? axes = .ok (channels, samples)) :
    g.rows.length = order.length ∧ samples = g.rows.filter fun s => decide s.IsComplete := by
  unfold GivenSamples.samples? at h
  rw [SampleTable.ofNested?_of_shape _ _ hp hpshape, SampleTable.ofNested?_of_shape _ _ hv hvshape,
    ok_bind, ok_bind] at h
  simp only [Dense.length_parts hpshape, Dense.length_parts hvshape, bind_eq_ok, guard_eq_ok,
    pure_eq_ok, Prod.mk.injEq] at h
  obtain ⟨-, -, hcount, w, hw, -, -, rfl⟩ := h
  obtain ⟨hrows, hlength⟩ := rows_eq hp hpshape hv hvshape (not_not.mp hcount) hw
  exact ⟨hlength, by rw [hrows]⟩

variable (horder : order.Perm (List.range order.length))

include horder

theorem keptOrder_perm_of_samples? {channels : ℕ} {samples : List (Sample α)}
    (h : g.samples? axes = .ok (channels, samples)) :
    (g.keptOrder order).Perm (List.range samples.length) := by
  obtain ⟨hlength, rfl⟩ := exists_of_samples? hp hpshape hv hvshape h
  exact keptOrder_perm (hlength ▸ horder)

/-- What is read of samples in another order. -/
theorem samples?_reordered (axes : ℕ) : (g.reordered order).samples? axes =
    (fun q => (q.1, entriesAt (g.keptOrder order) q.2)) <$> g.samples? axes := by
  have hp' : Dense.ofNested? (g.reordered order).positions = some (p.reordered order) := by
    show Dense.ofNested? (g.positions.reordered order) = _
    rw [ofNested?_reordered horder, hp, Option.map_some]
  have hv' : Dense.ofNested? (g.reordered order).values = some (v.reordered order) := by
    show Dense.ofNested? (g.values.reordered order) = _
    rw [ofNested?_reordered horder, hv, Option.map_some]
  have hpshape' := (Dense.shape_reordered order p).trans hpshape
  have hvshape' := (Dense.shape_reordered order v).trans hvshape
  have hpparts := Dense.length_parts hpshape
  have hvparts := Dense.length_parts hvshape
  unfold GivenSamples.samples?
  rw [SampleTable.ofNested?_of_shape _ _ hp hpshape, SampleTable.ofNested?_of_shape _ _ hv hvshape,
    SampleTable.ofNested?_of_shape _ _ hp' hpshape',
    SampleTable.ofNested?_of_shape _ _ hv' hvshape']
  simp only [ok_bind, hpparts, hvparts, Dense.length_parts hpshape', Dense.length_parts hvshape']
  refine guard_map_congr fun _ => guard_map_congr fun _ => guard_map_congr fun hcount => ?_
  obtain rfl := not_not.mp hcount
  show (weightRows? order.length k (g.weights.map (Nested.reordered order)) >>= _) = _
  rw [weightRows?_reordered horder]
  cases hw : weightRows? order.length k g.weights with
  | error e => rfl
  | ok w =>
    obtain ⟨hrows, hlength⟩ := rows_eq hp hpshape hv hvshape rfl hw
    have hlt : ∀ {l : List (List α)}, l.length = order.length → ∀ i ∈ order, i < l.length :=
      forall_lt_length horder
    have hassemble := assemble_entriesAt (hlt hpparts) (hlt hvparts) (hlt (length_weightRows? hw))
    have hkept := perm_entriesAt (keptOrder_perm (hlength ▸ horder))
    rw [Dense.parts_reordered horder hpshape (Dense.size_of_ofNested? _ _ hp),
      Dense.parts_reordered horder hvshape (Dense.size_of_ofNested? _ _ hv), map_ok, ok_bind,
      ok_bind, hassemble, ← hrows, filter_entriesAt_eq, ← GivenSamples.keptOrder, hkept.any_eq]
    exact guard_map_congr fun _ => rfl

variable [IsExact α]

/-- The domain that is found of samples in another order. -/
theorem extend?_reordered (mode : Extend) : (g.reordered order).extend? mode =
    Extended.reordered (g.keptOrder order) <$> g.extend? mode := by
  unfold GivenSamples.extend?
  show (resolutions? g.resolution >>= _) = _
  cases hres : resolutions? g.resolution with
  | error e => rfl
  | ok res =>
    simp only [ok_bind, samples?_reordered hp hpshape hv hvshape horder]
    cases hsamples : g.samples? res.length with
    | error e => rfl
    | ok q =>
      obtain ⟨channels, samples⟩ := q
      have hperm := perm_entriesAt (keptOrder_perm_of_samples? hp hpshape hv hvshape horder hsamples)
      have hpositions : ∀ r ∈ samples.map (·.position), ∀ x ∈ r, IsNumber x := by
        intro r hr
        obtain ⟨s, hs, rfl⟩ := List.mem_map.mp hr
        exact (kept_of_samples? hsamples s hs).2.2.2.1.1
      simp only [map_ok, ok_bind, extendDomain?_perm (hperm.map _) hpositions mode, map_bind]
      exact bind_congr fun low => bind_congr fun high => bind_congr fun valueLow =>
        bind_congr fun valueHigh => bind_congr fun deviation => bind_congr fun moved => rfl

/-- What the checks make of samples in another order. -/
theorem prepare_reordered (mode : Extend) : (g.reordered order).prepare mode =
    (fun q => (q.1.reordered (g.keptOrder order), q.2)) <$> g.prepare mode := by
  unfold GivenSamples.prepare
  rw [extend?_reordered hp hpshape hv hvshape horder, bind_map_left, map_bind]
  refine bind_congr_of_eq_ok fun e he => ?_
  have hfinds := extend?_eq_ok_iff.mp he
  have hkept := keptOrder_perm_of_samples? hp hpshape hv hvshape horder hfinds.samples
  show ((e.reordered _).complete? g.spacing >>= _) = _
  rw [complete?_reordered hfinds hkept, bind_map_left, map_bind]
  rfl

end Given

/-! ## Runs -/

/-- The same fit of samples in another order, of which something is left for those that are kept. -/
def Fit.reordered (order kept : List ℕ) (f : Fit α) : Fit α :=
  { f with
    given := f.given.reordered order
    prepared := f.prepared.map (Prepared.reordered kept) }

/-- The same run of samples in another order. -/
def Running.reordered (order kept : List ℕ) (r : Running α) : Running α :=
  { r with fit := r.fit.reordered order kept }

/-- What a run makes of samples in another order. -/
def Start.reordered (kept : List ℕ) (s : Start α) : Start α :=
  { s with data := s.data.reordered kept }

section Start

variable [Scalar α] {f : Fit α} {p v : Dense α} {m n k : ℕ}
  (hp : Dense.ofNested? f.given.positions = some p) (hpshape : p.shape = [order.length, m])
  (hv : Dense.ofNested? f.given.values = some v) (hvshape : v.shape = [n, k])
  (horder : order.Perm (List.range order.length))

include hp hpshape hv hvshape horder

/-- What is left of the order is one of the samples that are fitted. -/
theorem keptOrder_perm_of_prepare {mode : Extend} {data : Prepared α} {notices : List (Notice α)}
    (h : f.given.prepare mode = .ok (data, notices)) :
    (f.given.keptOrder order).Perm (List.range data.samples.length) := by
  obtain ⟨e, -, hfinds, -, -, rfl, -⟩ := prepare_eq_ok_iff.mp h
  exact keptOrder_perm_of_samples? hp hpshape hv hvshape horder hfinds.samples

/-- How a run of samples in another order starts. -/
theorem start?_reordered [IsExact α] :
    ({ f with given := f.given.reordered order } : Fit α).start? =
      Start.reordered (f.given.keptOrder order) <$> f.start? := by
  unfold Fit.start?
  show (f.settings.check >>= fun checked =>
    (f.given.reordered order).prepare (.ofWord checked.extend) >>= _) = _
  simp only [prepare_reordered hp hpshape hv hvshape horder, bind_map_left, map_bind, map_pure]
  rfl

end Start

end GridSpline
