import GridSpline.Proofs.Channel.View
import GridSpline.Proofs.Fit.Start
import GridSpline.Proofs.Sample.Written

/-!
# Giving one channel alone

Input for several channels contains input for each of them: of values and weights that are given in
a table the column of the channel, and of what is given for each channel its entry. If nothing that
is given is missing, the checks make of the part what they make of the whole, in that channel.

## Main definitions

* `Nested.columnOf`, `Nested.entryOf` — the part of a table, or of a list, that is for a channel.
* `Fit.onChannel` — a new fit of one channel.
* `GivenSamples.IsComplete` — no row has anything missing.

## Main statements

* `entriesOf?_entryOf`, `samples?_onChannel`, `prepare_onChannel` — what the checks make of one
  channel.
* `start?_onChannel` — and how a run of it starts.
-/

namespace GridSpline

open Scalar Failure
open GridSpline.Lattice

variable {α : Type}

/-! ## Input for one channel -/

/-- The column of a channel; anything but a table stays as it is. -/
def Nested.columnOf (c : ℕ) (given : Nested α) : Nested α :=
  match (Dense.ofNested? given).bind Dense.rows? with
  | some rows => .block (.vector (column rows c))
  | none => given

/-- The entry of a channel; a single entry, which stands for all channels, stays as it is. -/
def Nested.entryOf (c : ℕ) (given : Nested α) : Nested α :=
  match given.entries?.bind (·[c]?) with
  | some x => .entry x
  | none => given

/-- What is given for one channel. -/
def GivenSamples.onChannel (c : ℕ) (g : GivenSamples α) : GivenSamples α :=
  { g with
    values := g.values.columnOf c
    weights := g.weights.map (Nested.columnOf c)
    valueLow := g.valueLow.map (Nested.entryOf c)
    valueHigh := g.valueHigh.map (Nested.entryOf c)
    deviation := g.deviation.map (Nested.entryOf c) }

/-- A new fit of one channel, with all else as it is given. -/
def Fit.onChannel (c : ℕ) (f : Fit α) : Fit α :=
  .make (f.given.onChannel c) (f.settings.onChannel c) f.twoPass f.symmetricDomain f.verbose

/-- What a run of one channel makes of its input. -/
def Start.onChannel (c : ℕ) (s : Start α) : Start α :=
  { s with data := s.data.onChannel c, grid := s.grid.onChannel c }

/-! ## What is read -/

theorem getElem?_onlyEntry_zero {β : Type} (c : ℕ) (l : List β) : (onlyEntry c l)[0]? = l[c]? := by
  unfold onlyEntry
  cases l[c]? <;> rfl

theorem column_map_onlyEntry (rows : List (List α)) (c : ℕ) :
    column (rows.map (onlyEntry c)) 0 = column rows c := by
  unfold column
  rw [List.filterMap_map]
  exact congrArg (List.filterMap · rows) (funext (getElem?_onlyEntry_zero c))

/-- A column of rows that are long enough. -/
theorem map_singleton_column {rows : List (List α)} {c : ℕ} (h : ∀ r ∈ rows, c < r.length) :
    (column rows c).map ([·]) = rows.map (onlyEntry c) := by
  unfold column
  induction rows with
  | nil => rfl
  | cons r rows ih =>
    have hr := h r List.mem_cons_self
    rw [List.filterMap_cons, List.getElem?_eq_getElem hr, List.map_cons, List.map_cons,
      onlyEntry_of_lt hr, ih fun s hs => h s (List.mem_cons_of_mem r hs)]

theorem Dense.rows?_of_shape_one {d : Dense α} {n : ℕ} (h : d.shape = [n]) : d.rows? = none := by
  unfold rows?
  rw [h]

theorem Dense.length_of_rows? {d : Dense α} {n m : ℕ} (hshape : d.shape = [n, m])
    {rows : List (List α)} (h : d.rows? = some rows) : rows.length = n := by
  unfold rows? at h
  rw [hshape] at h
  rw [← Option.some.inj h, List.length_map, List.length_range]

/-- A quantity that is given for each channel, or for all, has one entry for a channel alone. -/
theorem entriesOf?_entryOf {field : String} {count c : ℕ} {default : α} {given : Option (Nested α)}
    {l : List α} (h : entriesOf? field count default given = .ok l) (hc : c < count) :
    entriesOf? field (1 : ℕ) default (given.map (Nested.entryOf c)) = .ok (onlyEntry c l) := by
  cases given with
  | none =>
    unfold entriesOf? at h ⊢
    rw [repeated?_ofNat, Except.ok.injEq] at h
    rw [← h, onlyEntry_replicate hc]
    rfl
  | some nested =>
    have hentry : ∀ x, entriesOf? field (1 : ℕ) default (some (.entry x)) = .ok [x] := fun _ => rfl
    unfold entriesOf? at h
    simp only [bind_eq_ok, require_eq_ok] at h
    obtain ⟨d, hd, h⟩ := h
    have hentries : nested.entries? = some d.entries := by
      unfold Nested.entries?
      rw [hd, Option.map_some]
    rw [Option.map_some, Nested.entryOf, hentries, Option.bind_some]
    split at h
    · rename_i x hx
      rw [repeated?_ofNat, Except.ok.injEq] at h
      rw [← h, onlyEntry_replicate hc, hx]
      cases c with
      | zero => exact hentry x
      | succ c =>
        unfold entriesOf?
        simp only [List.getElem?_cons_succ, List.getElem?_nil, hd, require_some, ok_bind, hx]
        rfl
    · split at h
      · rename_i hlen
        rw [pure_eq_ok] at h
        have hlt : c < l.length := by
          rw [← h]
          omega
        rw [h, List.getElem?_eq_getElem hlt, onlyEntry_of_lt hlt]
        exact hentry _
      · cases h

/-- The column of a channel is read as the entries that the rows have for it. -/
theorem ofNested?_columnOf {given : Nested α} {t : SampleTable α} {c : ℕ}
    (h : SampleTable.ofNested? "values" none given = .ok t) (hc : c < t.columns) :
    SampleTable.ofNested? "values" none (given.columnOf c) =
      .ok { columns := 1, rows := t.rows.map (onlyEntry c) } := by
  have hread := h
  have hrow := length_row_ofNested? h
  unfold SampleTable.ofNested? at h
  simp only [bind_eq_ok, require_eq_ok] at h
  obtain ⟨d, hd, h⟩ := h
  unfold Nested.columnOf
  rw [hd, Option.bind_some]
  split at h
  · rename_i n hshape
    rw [if_neg fun hcolumns => Option.some_ne_none _ hcolumns.2.symm] at h
    simp only [pure_eq_ok] at h
    subst h
    obtain rfl : c = 0 := Nat.lt_one_iff.mp hc
    rw [Dense.rows?_of_shape_one hshape, hread, List.map_map]
    rfl
  · simp only [bind_eq_ok, require_eq_ok, pure_eq_ok] at h
    obtain ⟨rows, hrows, rfl⟩ := h
    rw [hrows, ← map_singleton_column fun r hr => (hrow r hr).symm ▸ hc]
    exact SampleTable.ofNested?_vector _ _
  · simp at h

/-- The weights of a channel. -/
theorem weightRows?_columnOf [Scalar α] {count channels c : ℕ} {given : Option (Nested α)}
    {k : List (List α)} (h : weightRows? count channels given = .ok k) (hc : c < channels) :
    weightRows? count 1 (given.map (Nested.columnOf c)) = .ok (k.map (onlyEntry c)) := by
  have hrow := length_weightRow h
  unfold weightRows? at h
  cases given with
  | none =>
    rw [pure_eq_ok] at h
    subst h
    rw [List.map_replicate, onlyEntry_replicate hc]
    rfl
  | some nested =>
    simp only [bind_eq_ok, require_eq_ok] at h
    obtain ⟨d, hd, h⟩ := h
    rw [Option.map_some, Nested.columnOf, hd, Option.bind_some]
    split at h
    · rename_i n hshape
      rw [Dense.rows?_of_shape_one hshape]
      split at h
      · rename_i hcount
        rw [pure_eq_ok] at h
        subst h
        have hones : (d.entries.map (List.replicate channels)).map (onlyEntry c) =
            d.entries.map (List.replicate 1) := by
          rw [List.map_map]
          exact List.map_congr_left fun x _ => onlyEntry_replicate hc x
        unfold weightRows?
        simp only [hd, require_some, ok_bind, hshape]
        rw [if_pos hcount, hones]
        rfl
      · cases h
    · rename_i n m hshape
      split at h
      · rename_i hcount
        rw [require_eq_ok] at h
        have hcolumn := map_singleton_column fun r hr => (hrow r hr).symm ▸ hc
        have hlength : (column k c).length = count := by
          have hrows := congrArg List.length hcolumn
          rw [List.length_map, List.length_map] at hrows
          rw [hrows, Dense.length_of_rows? hshape h, hcount.1]
        rw [h, ← hcolumn, ← hlength]
        exact weightRows?_vector 1 _
      · cases h
    · cases h

theorem assemble_onChannel (c : ℕ) (p v k : List (List α)) :
    assemble p (v.map (onlyEntry c)) (k.map (onlyEntry c)) =
      (assemble p v k).map (Sample.onChannel c) := by
  induction p generalizing v k with
  | nil => rfl
  | cons p ps ih =>
    cases v with
    | nil => rfl
    | cons v vs =>
      cases k with
      | nil => rfl
      | cons k ks => exact congrArg (_ :: ·) (ih vs ks)

/-! ## Completeness -/

section Complete

variable [Scalar α]

/-- No entry is missing. -/
def Nested.IsComplete (given : Nested α) : Prop :=
  ∀ l, given.entries? = some l → ∀ x ∈ l, IsNumber x

/-- No row has anything missing. -/
structure GivenSamples.IsComplete (g : GivenSamples α) : Prop where
  positions : g.positions.IsComplete
  values : g.values.IsComplete
  weights : ∀ given, g.weights = some given → given.IsComplete

omit [Scalar α] in
theorem mem_entries_of_mem_rows? {d : Dense α} {rows : List (List α)} (h : d.rows? = some rows)
    {r : List α} (hr : r ∈ rows) {x : α} (hx : x ∈ r) : x ∈ d.entries := by
  unfold Dense.rows? at h
  split at h
  · rw [Option.some.injEq] at h
    subst h
    obtain ⟨i, -, rfl⟩ := List.mem_map.mp hr
    rw [Array.toList_extract, List.extract_eq_take_drop] at hx
    exact List.mem_of_mem_drop (List.mem_of_mem_take hx)
  · cases h

omit [Scalar α] in
/-- What stands in a row was given. -/
theorem exists_entries?_of_ofNested? {field : String} {columns : Option ℕ} {given : Nested α}
    {t : SampleTable α} (h : SampleTable.ofNested? field columns given = .ok t) :
    ∃ l, given.entries? = some l ∧ ∀ r ∈ t.rows, ∀ x ∈ r, x ∈ l := by
  unfold SampleTable.ofNested? at h
  simp only [bind_eq_ok, require_eq_ok] at h
  obtain ⟨d, hd, h⟩ := h
  refine ⟨d.entries, by rw [Nested.entries?, hd, Option.map_some], fun r hr x hx => ?_⟩
  split at h
  · split at h
    · simp only [pure_eq_ok] at h
      subst h
      rwa [List.mem_singleton.mp hr] at hx
    · simp only [pure_eq_ok] at h
      subst h
      obtain ⟨y, hy, rfl⟩ := List.mem_map.mp hr
      rwa [List.mem_singleton.mp hx]
  · simp only [bind_eq_ok, require_eq_ok, pure_eq_ok] at h
    obtain ⟨rows, hrows, rfl⟩ := h
    exact mem_entries_of_mem_rows? hrows hr hx
  · simp at h

/-- Weights were given, or all are one. -/
theorem weightRows?_cases {count channels : ℕ} {given : Option (Nested α)} {k : List (List α)}
    (h : weightRows? count channels given = .ok k) :
    (∃ nested l, given = some nested ∧ nested.entries? = some l ∧ ∀ r ∈ k, ∀ x ∈ r, x ∈ l) ∨
      ∀ r ∈ k, r = List.replicate channels 1 := by
  unfold weightRows? at h
  cases given with
  | none =>
    simp only [pure_eq_ok] at h
    subst h
    exact Or.inr fun r hr => List.eq_of_mem_replicate hr
  | some nested =>
    simp only [bind_eq_ok, require_eq_ok] at h
    obtain ⟨d, hd, h⟩ := h
    refine Or.inl ⟨nested, d.entries, rfl, by rw [Nested.entries?, hd, Option.map_some],
      fun r hr x hx => ?_⟩
    split at h
    · split at h
      · simp only [pure_eq_ok] at h
        subst h
        obtain ⟨y, hy, rfl⟩ := List.mem_map.mp hr
        rwa [List.eq_of_mem_replicate hx]
      · simp at h
    · split at h
      · exact mem_entries_of_mem_rows? (require_eq_ok.mp h) hr hx
      · simp at h
    · simp at h

/-- Where nothing that is given is missing, no row is dropped, unless all are. -/
theorem GivenSamples.IsComplete.isComplete_of_mem {g : GivenSamples α} (h : g.IsComplete)
    {axes : ℕ} {p v : SampleTable α} {k : List (List α)}
    (hp : SampleTable.ofNested? "positions" (some axes) g.positions = .ok p)
    (hv : SampleTable.ofNested? "values" none g.values = .ok v) (hcolumns : 0 < v.columns)
    (hk : weightRows? p.rows.length v.columns g.weights = .ok k)
    (hsome : ∃ s ∈ assemble p.rows v.rows k, s.IsComplete) :
    ∀ s ∈ assemble p.rows v.rows k, s.IsComplete := by
  obtain ⟨positions, hpositions, hposition⟩ := exists_entries?_of_ofNested? hp
  obtain ⟨values, hvalues, hvalue⟩ := exists_entries?_of_ofNested? hv
  have hweight : ∀ r ∈ k, ∀ x ∈ r, IsNumber x := by
    rcases weightRows?_cases hk with ⟨nested, l, hnested, hl, hmem⟩ | hones
    · exact fun r hr x hx => h.weights nested hnested l hl x (hmem r hr x hx)
    · -- All weights are one, and that is a number since some row is complete.
      obtain ⟨s, hs, hcomplete⟩ := hsome
      have hone : IsNumber (1 : α) := hcomplete.2.2 1 (by
        rw [hones _ (mem_assemble hs).2.2.1]
        exact List.mem_replicate.mpr ⟨hcolumns.ne', rfl⟩)
      intro r hr x hx
      rw [hones r hr] at hx
      rwa [List.eq_of_mem_replicate hx]
  intro s hs
  obtain ⟨hp, hv, hk, -⟩ := mem_assemble hs
  exact ⟨fun x hx => h.positions positions hpositions x (hposition _ hp x hx),
    fun x hx => h.values values hvalues x (hvalue _ hv x hx), hweight _ hk⟩

end Complete

/-! ## Checks -/

section Checks

variable [Scalar α] {g : GivenSamples α} {c : ℕ}

theorem Sample.IsComplete.onChannel {s : Sample α} (h : s.IsComplete) (c : ℕ) :
    (s.onChannel c).IsComplete :=
  ⟨h.1, fun x hx => h.2.1 x (mem_of_mem_onlyEntry hx),
    fun x hx => h.2.2 x (mem_of_mem_onlyEntry hx)⟩

/-- The samples of a channel alone are what the samples have of it. -/
theorem samples?_onChannel (hcomplete : g.IsComplete) {axes channels : ℕ}
    {samples : List (Sample α)} (h : g.samples? axes = .ok (channels, samples))
    (hsamples : samples ≠ []) (hc : c < channels) :
    (g.onChannel c).samples? axes = .ok (1, samples.map (Sample.onChannel c)) := by
  unfold GivenSamples.samples? at h ⊢
  simp only [bind_eq_ok, guard_eq_ok, pure_eq_ok, Prod.mk.injEq] at h ⊢
  obtain ⟨p, hp, v, hv, hcount, hcolumns, hrows, k, hk, hpositive, rfl, rfl⟩ := h
  have hall := hcomplete.isComplete_of_mem hp hv (Nat.zero_lt_of_lt hc) hk (by
    obtain ⟨s, hs⟩ := List.exists_mem_of_ne_nil _ hsamples
    obtain ⟨hmem, hs⟩ := List.mem_filter.mp hs
    exact ⟨s, hmem, of_decide_eq_true hs⟩)
  have hkept : ((assemble p.rows v.rows k).map (Sample.onChannel c)).filter
      (fun s => decide s.IsComplete) = (assemble p.rows v.rows k).map (Sample.onChannel c) := by
    refine List.filter_eq_self.mpr fun s hs => decide_eq_true ?_
    obtain ⟨t, ht, rfl⟩ := List.mem_map.mp hs
    exact (hall t ht).onChannel c
  rw [List.filter_eq_self.mpr fun s hs => decide_eq_true (hall s hs)] at hpositive ⊢
  have hsingle : ¬(1 < 1 ∨ maxChannels < 1) := by decide
  refine ⟨p, hp, _, ofNested?_columnOf hv hc, hsingle, hcolumns, ?_, k.map (onlyEntry c),
    weightRows?_columnOf hk hc, ?_, rfl, ?_⟩
  · rw [List.length_map]
    exact hrows
  · rw [assemble_onChannel, hkept]
    intro hnot
    obtain ⟨s, hs, hany⟩ := List.any_eq_true.mp hnot
    obtain ⟨t, ht, rfl⟩ := List.mem_map.mp hs
    obtain ⟨w, hw, hle⟩ := List.any_eq_true.mp hany
    exact hpositive (List.any_eq_true.mpr
      ⟨t, ht, List.any_eq_true.mpr ⟨w, mem_of_mem_onlyEntry hw, hle⟩⟩)
  · rw [assemble_onChannel, hkept]

omit [Scalar α] in
theorem columns_onChannel {channels : ℕ} (hc : c < channels) (samples : List (Sample α)) :
    (List.range 1).map (column ((samples.map (Sample.onChannel c)).map (·.values))) =
      onlyEntry c ((List.range channels).map (column (samples.map (·.values)))) := by
  have hvalues : (samples.map (Sample.onChannel c)).map (·.values) =
      (samples.map (·.values)).map (onlyEntry c) := by
    rw [List.map_map, List.map_map]
    rfl
  rw [onlyEntry_map, onlyEntry_of_lt (by rwa [List.length_range]), List.getElem_range, hvalues]
  exact congrArg ([·]) (column_map_onlyEntry _ c)

theorem onlyEntry_zip {β γ : Type} (c : ℕ) (l : List β) (l' : List γ) :
    onlyEntry c (l.zip l') = (onlyEntry c l).zip (onlyEntry c l') :=
  onlyEntry_zipWith Prod.mk c l l'

/-- What is known of a channel alone when the domain is found. -/
def Extended.onChannel (c : ℕ) (e : Extended α) : Extended α :=
  { e with
    channels := 1
    samples := e.samples.map (Sample.onChannel c)
    valueBounds := onlyEntry c e.valueBounds
    deviation := onlyEntry c e.deviation }

/-- The checks make of a channel alone what they make of all channels, in that channel. -/
theorem prepare_onChannel (hcomplete : g.IsComplete) {mode : Extend} {data : Prepared α}
    {notices : List (Notice α)} (h : g.prepare mode = .ok (data, notices))
    (hsamples : data.samples ≠ []) (hc : c < data.channels) :
    (g.onChannel c).prepare mode = .ok (data.onChannel c, notices) := by
  obtain ⟨e, spacing, hfinds, hempty, hspacing, rfl, rfl⟩ := prepare_eq_ok_iff.mp h
  change e.samples ≠ [] at hsamples
  change c < e.channels at hc
  obtain ⟨low, high, hlow, hhigh, hbounds⟩ := hfinds.bounds
  obtain ⟨valueLow, valueHigh, hvalueLow, hvalueHigh, hvalues⟩ := hfinds.valueBounds
  have hpositions : (e.samples.map (Sample.onChannel c)).map (·.position) =
      e.samples.map (·.position) := by
    rw [List.map_map]
    rfl
  refine prepare_eq_ok_iff.mpr ⟨e.onChannel c, spacing, {
    resolutions := hfinds.resolutions
    samples := samples?_onChannel hcomplete hfinds.samples hsamples hc
    bounds := ⟨low, high, hlow, hhigh, hpositions ▸ hbounds⟩
    valueBounds := ⟨_, _, entriesOf?_entryOf hvalueLow hc, entriesOf?_entryOf hvalueHigh hc,
      (congrArg (onlyEntry c) hvalues).trans (onlyEntry_zip c valueLow valueHigh)⟩
    deviation := entriesOf?_entryOf hfinds.deviation hc }, hempty, hspacing, ?_, rfl⟩
  unfold Extended.completed Extended.onChannel Prepared.onChannel
  have hcolumns := columns_onChannel hc e.samples
  simp only [hcolumns, onlyEntry_map, onlyEntry_zipWith]

theorem check_onChannel (c : ℕ) (s : Settings α) : (s.onChannel c).check = s.check := by
  have hany : ((s.weakFunction.map (WeakFunction.component c)).any fun w => !w.isFunction) =
      s.weakFunction.any fun w => !w.isFunction := by
    cases s.weakFunction with
    | none => rfl
    | some w => exact congrArg (! ·) (w.isFunction_component c)
  unfold Settings.check Settings.onChannel
  rw [hany]

/-- A run of a channel alone starts as the run of all channels does. -/
theorem start?_onChannel {f : Fit α} (hcomplete : f.given.IsComplete) {s : Start α}
    (h : f.start? = .ok s) (hsamples : s.data.samples ≠ []) (hc : c < s.data.channels) :
    (f.onChannel c).start? = .ok (s.onChannel c) := by
  obtain ⟨hcheck, hprepare, hgrid, hladder⟩ := Fit.start?_eq_ok_iff.mp h
  refine Fit.start?_eq_ok_iff.mpr ⟨(check_onChannel c f.settings).trans hcheck,
    prepare_onChannel hcomplete hprepare hsamples hc, ?_, hladder⟩
  unfold Grid.constant? at hgrid ⊢
  simp only [Option.bind_eq_bind, Option.bind_eq_some_iff, Option.pure_def, Option.some.injEq]
    at hgrid ⊢
  obtain ⟨width, hwidth, heq⟩ := hgrid
  refine ⟨width, hwidth, ?_⟩
  unfold Start.onChannel Grid.onChannel
  simp only [← heq]
  rw [onlyEntry_replicate hc]
  rfl

end Checks

end GridSpline
