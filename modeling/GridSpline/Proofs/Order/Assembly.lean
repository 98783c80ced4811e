import Mathlib
import GridSpline.Fit.Level
import GridSpline.Proofs.Exact
import GridSpline.Proofs.Result
import GridSpline.Proofs.Sparse.Stencil

/-!
# Squares in another order

Many squares share nodes, so the same entries of the equations are added to again and again. Which
entries a square adds to, and what it adds, depends on the lattice but not on what is there already.
Exact additions commute, and so squares that the equations can hold are assembled to the same
equations in any order, entry by entry. The squares of samples are such squares once the corners of
their cells have not been refused.

Nothing is said about other squares, which may have been added before.

## Main definitions

* `Puts` — a step that puts things into a store in which it does not look.

## Main statements

* `foldlM_perm` — such steps can be taken in any order.
* `puts_addSquare?`, `puts_addTarget?` — the assembly takes such steps.
* `exists_addSquare?_of_refuseCorners`, `exists_addTarget?_of_refuseCorners` — it can take them for
  samples.
-/

namespace GridSpline

open Scalar Failure
open GridSpline.Lattice

/-! ## Stores -/

section Store

variable {σ π ρ ε : Type} {put : σ → π → σ} {Good : σ → Prop}

/-- A store into which things can be put in any order, and which then stays good. -/
structure IsStore (put : σ → π → σ) (Good : σ → Prop) : Prop where
  good : ∀ {s}, Good s → ∀ a, Good (put s a)
  comm : ∀ s a b, put (put s a) b = put (put s b) a

/-- A step that puts things into a store in which it does not look, or fails without looking. -/
def Puts (put : σ → π → σ) (Good : σ → Prop) (step : σ → Except ε σ) : Prop :=
  ∃ things : Except ε (List π), ∀ s, Good s → step s = (·.foldl put s) <$> things

variable (h : IsStore put Good)

include h

theorem IsStore.good_foldl {s : σ} (hs : Good s) (things : List π) :
    Good (things.foldl put s) := List.foldlRecOn things put hs fun _ hs a _ => h.good hs a

omit h in
theorem puts_pure : Puts put Good (pure : σ → Except ε σ) := ⟨.ok [], fun _ _ => rfl⟩

theorem Puts.bind {first second : σ → Except ε σ} (hfirst : Puts put Good first)
    (hsecond : Puts put Good second) : Puts put Good fun s => first s >>= second := by
  obtain ⟨things, hthings⟩ := hfirst
  obtain ⟨things', hthings'⟩ := hsecond
  cases things with
  | error e => exact ⟨.error e, fun s hs => congrArg (· >>= second) (hthings s hs)⟩
  | ok things =>
    refine ⟨(things ++ ·) <$> things', fun s hs => ?_⟩
    show first s >>= second = _
    rw [hthings s hs, map_ok, ok_bind, hthings' _ (h.good_foldl hs things), ← comp_map]
    exact congrArg (· <$> things') (funext fun l => List.foldl_append.symm)

/-- A step that succeeds somewhere succeeds everywhere, and puts the same things. -/
theorem Puts.exists_foldl {step : σ → Except ε σ} (hstep : Puts put Good step) {s t : σ}
    (hs : Good s) (hok : step s = .ok t) :
    ∃ things : List π, ∀ u, Good u →
      step u = .ok (things.foldl put u) ∧ Good (things.foldl put u) := by
  obtain ⟨things, hthings⟩ := hstep
  cases things with
  | error e => cases (hthings s hs).symm.trans hok
  | ok things => exact ⟨things, fun u hu => ⟨hthings u hu, h.good_foldl hu things⟩⟩

variable {step : σ → ρ → Except ε σ} (hstep : ∀ r, Puts put Good (step · r))

include hstep

theorem IsStore.good_foldlM {rs : List ρ} {s t : σ} (hs : Good s) (ht : rs.foldlM step s = .ok t) :
    Good t := by
  induction rs generalizing s with
  | nil =>
    cases ht
    exact hs
  | cons r rs ih =>
    rw [List.foldlM_cons, bind_eq_ok] at ht
    obtain ⟨u, hu, ht⟩ := ht
    obtain ⟨things, hthings⟩ := (hstep r).exists_foldl h hs hu
    obtain ⟨heq, hgood⟩ := hthings s hs
    obtain rfl := Except.ok.inj (heq.symm.trans hu)
    exact ih hgood ht

/-- Steps that succeed can be taken in any order. -/
theorem foldlM_perm {rs rs' : List ρ} (hperm : rs'.Perm rs) {s : σ} (hs : Good s)
    (hok : ∀ r ∈ rs, ∃ t, step s r = .ok t) : rs'.foldlM step s = rs.foldlM step s := by
  have hthings : ∀ r ∈ rs, ∃ things : List π, ∀ u, Good u →
      step u r = .ok (things.foldl put u) ∧ Good (things.foldl put u) := by
    intro r hr
    obtain ⟨t, ht⟩ := hok r hr
    exact (hstep r).exists_foldl h hs ht
  clear hok
  induction hperm generalizing s with
  | nil => rfl
  | cons r _ ih =>
    obtain ⟨things, hr⟩ := hthings r List.mem_cons_self
    obtain ⟨heq, hgood⟩ := hr s hs
    rw [List.foldlM_cons, List.foldlM_cons, heq, ok_bind, ok_bind]
    exact ih hgood fun q hq => hthings q (List.mem_cons_of_mem r hq)
  | swap r q rs =>
    obtain ⟨things, hr⟩ := hthings r List.mem_cons_self
    obtain ⟨things', hq⟩ := hthings q (List.mem_cons_of_mem r List.mem_cons_self)
    obtain ⟨hreq, hrgood⟩ := hr s hs
    obtain ⟨hqeq, hqgood⟩ := hq s hs
    have hcomm : things'.foldl put (things.foldl put s) = things.foldl put (things'.foldl put s) := by
      rw [← List.foldl_append, ← List.foldl_append]
      exact List.perm_append_comm.foldl_eq' (fun a _ b _ u => h.comm u a b) s
    simp only [List.foldlM_cons, hreq, hqeq, ok_bind, (hq _ hrgood).1, (hr _ hqgood).1, hcomm]
  | trans _ hperm ih ih' =>
    rw [ih hs fun r hr => hthings r (hperm.mem_iff.mp hr), ih' hs hthings]

/-- The same, after steps of which nothing is known. -/
theorem foldlM_append_perm (rs : List ρ) {qs qs' : List ρ} (hperm : qs'.Perm qs) {s : σ}
    (hs : Good s) (hok : ∀ q ∈ qs, ∃ t, step s q = .ok t) :
    (rs ++ qs').foldlM step s = (rs ++ qs).foldlM step s := by
  rw [List.foldlM_append, List.foldlM_append]
  cases ht : rs.foldlM step s with
  | error e => rfl
  | ok t =>
    have hgood := h.good_foldlM hstep hs ht
    refine foldlM_perm h hstep hperm hgood fun q hq => ?_
    obtain ⟨u, hu⟩ := hok q hq
    obtain ⟨things, hthings⟩ := (hstep q).exists_foldl h hs hu
    exact ⟨_, (hthings t hgood).1⟩

end Store

/-! ## The equations as stores -/

/-- Changes of entries that commute can be made in any order. -/
theorem modify_modify_comm {β : Type} (a : Array β) (i j : ℕ) {f g : β → β}
    (h : ∀ x, f (g x) = g (f x)) : (a.modify i f).modify j g = (a.modify j g).modify i f := by
  refine Array.ext_getElem? fun k => ?_
  simp only [Array.getElem?_modify]
  by_cases hi : i = k
  · by_cases hj : j = k
    · simp only [hi, hj, if_true, Option.map_map]
      exact congrArg (Option.map · a[k]?) (funext fun x => (h x).symm)
    · simp only [hi, hj, if_true, if_false]
  · simp only [hi, if_false]

variable {α : Type} [Scalar α]

/-- Adds to an entry of an array. -/
def addTo (b : Array α) (t : ℕ × α) : Array α := b.modify t.1 (· + t.2)

namespace PackedMatrix

/-- Adds to a stored entry. -/
def addTo (A : PackedMatrix α) (t : (ℕ × ℕ) × α) : PackedMatrix α := A.addAt t.1.1 t.1.2 t.2

/-- A matrix over the same nodes with the same columns. -/
structure IsLike (Z A : PackedMatrix α) : Prop where
  nodes : A.nodes = Z.nodes
  stencil : A.stencil = Z.stencil

variable {Z A : PackedMatrix α}

omit [Scalar α] in
theorem IsLike.refl (Z : PackedMatrix α) : Z.IsLike Z := ⟨rfl, rfl⟩

omit [Scalar α] in
theorem IsLike.column?_eq (h : Z.IsLike A) (offset : ℤ) : A.column? offset = Z.column? offset := by
  unfold column?
  rw [h.stencil]

theorem IsLike.addAt (h : Z.IsLike A) (node column : ℕ) (v : α) : Z.IsLike (A.addAt node column v) :=
  ⟨h.nodes, h.stencil⟩

theorem puts_addTerm? (Z : PackedMatrix α) (row offset : ℤ) (v : α) :
    Puts addTo Z.IsLike (addTerm? · row offset v) := by
  refine ⟨(fun place => [(place, v)]) <$> Z.place? row offset, fun A hA => ?_⟩
  have hplace : A.place? row offset = Z.place? row offset := by
    unfold place?
    rw [hA.column?_eq, hA.nodes]
  show (A.place? row offset >>= fun _ => _) = _
  rw [hplace, ← comp_map]
  cases Z.place? row offset <;> rfl

variable [IsExact α]

theorem isStore (Z : PackedMatrix α) : IsStore addTo Z.IsLike where
  good h t := h.addAt t.1.1 t.1.2 t.2
  comm A s t := by
    unfold addTo addAt
    simp only [PackedMatrix.mk.injEq, true_and]
    exact modify_modify_comm A.coef s.1.1 t.1.1 fun row =>
      modify_modify_comm row t.1.2 s.1.2 fun x => IsExact.add_right_comm x s.2 t.2

theorem puts_addProducts? (Z : PackedMatrix α) (node start : ℤ) (factor : α)
    (terms : List (ℤ × α)) : Puts addTo Z.IsLike (addProducts? node start factor terms) := by
  induction terms with
  | nil => exact puts_pure
  | cons t terms ih =>
    exact (puts_addTerm? Z node (t.1 - start) (factor * t.2)).bind Z.isStore ih

/-- The assembly adds to entries it does not look at. -/
theorem puts_addSquare? (Z : PackedMatrix α) (r : Residual α) :
    Puts addTo Z.IsLike (addSquare? · r) := by
  have hpairs : ∀ terms : List (ℤ × α), Puts addTo Z.IsLike (addPairs? r.base r.slope terms) := by
    intro terms
    induction terms with
    | nil => exact puts_pure
    | cons t terms ih =>
      exact (puts_addProducts? Z (r.base + t.1) t.1 (r.slope * t.2) (t :: terms)).bind Z.isStore ih
  exact hpairs r.terms

/-- The matrix of squares in another order, after squares of which nothing is known. -/
theorem addSquares?_append_perm (Z : PackedMatrix α) (rs : List (Residual α))
    {ss ss' : List (Residual α)} (hperm : ss'.Perm ss)
    (hok : ∀ r ∈ ss, ∃ B, Z.addSquare? r = .ok B) :
    Z.addSquares? (rs ++ ss') = Z.addSquares? (rs ++ ss) :=
  foldlM_append_perm Z.isStore (puts_addSquare? Z) rs hperm (.refl Z) hok

end PackedMatrix

variable [IsExact α]

theorem isStore_rhs (n : ℕ) : IsStore addTo fun b : Array α => b.size = n where
  good h t := by rwa [addTo, Array.size_modify]
  comm b s t := modify_modify_comm b s.1 t.1 fun x => IsExact.add_right_comm x t.2 s.2

omit [IsExact α] in
theorem puts_addMultiples? (n : ℕ) (base : ℤ) (slope target : α) (terms : List (ℤ × α)) :
    Puts addTo (fun b : Array α => b.size = n) (addMultiples? base slope target terms) := by
  induction terms with
  | nil => exact puts_pure
  | cons t terms ih =>
    obtain ⟨o, c⟩ := t
    obtain ⟨things, hthings⟩ := ih
    cases hplace : position? n (base + o) with
    | none =>
      refine ⟨.error .indexOutOfRange, fun b hb => ?_⟩
      unfold addMultiples?
      rw [hb, hplace]
      rfl
    | some i =>
      refine ⟨((i, slope * c * target) :: ·) <$> things, fun b hb => ?_⟩
      unfold addMultiples?
      rw [hb, hplace, ← comp_map]
      exact hthings _ (Array.size_modify.trans hb)

omit [IsExact α] in
/-- The right-hand side is added to without being looked at. -/
theorem puts_addTarget? (n : ℕ) (r : Residual α) :
    Puts addTo (fun b : Array α => b.size = n) (addTarget? · r) := by
  unfold addTarget?
  cases r.target with
  | none => exact puts_pure
  | some t => exact puts_addMultiples? n r.base r.slope t r.terms

theorem size_of_addTargets? {b c : Array α} {rs : List (Residual α)}
    (h : addTargets? b rs = .ok c) : c.size = b.size :=
  (isStore_rhs b.size).good_foldlM (puts_addTarget? b.size) rfl h

/-- The right-hand side of squares in another order, after squares of which nothing is known. -/
theorem addTargets?_append_perm (b : Array α) (rs : List (Residual α))
    {ss ss' : List (Residual α)} (hperm : ss'.Perm ss)
    (hok : ∀ r ∈ ss, ∃ c, addTarget? b r = .ok c) :
    addTargets? b (rs ++ ss') = addTargets? b (rs ++ ss) :=
  foldlM_append_perm (isStore_rhs b.size) (puts_addTarget? b.size) rs hperm rfl hok

/-! ## The squares of samples -/

section Corners

omit [IsExact α]

variable {Z A : PackedMatrix α} {bases offsets : List ℤ}

omit [Scalar α] in
theorem map_fst_zip_sublist (offsets : List ℤ) (weights : List α) :
    ((offsets.zip weights).map Prod.fst).Sublist offsets := by
  induction offsets generalizing weights with
  | nil => exact .slnil
  | cons o offsets ih =>
    cases weights with
    | nil => exact List.nil_sublist _
    | cons w weights => exact (ih weights).cons_cons o

omit [Scalar α] in
/-- Corners that are not refused exist, and each can be coupled to the later ones. -/
theorem of_refuseCorners (h : Level.refuseCorners Z bases offsets = .ok ()) :
    (∀ b ∈ bases, ∀ o ∈ offsets, ∃ i, position? Z.nodes (b + o) = some i) ∧
      offsets.Pairwise fun o p => ∃ k, Z.column? (p - o) = .ok k := by
  induction offsets with
  | nil => exact ⟨fun b _ o ho => absurd ho List.not_mem_nil, .nil⟩
  | cons o later ih =>
    unfold Level.refuseCorners at h
    simp only [discard_eq_map, bind_eq_ok, map_eq_ok, require_mapM] at h
    obtain ⟨_, ⟨places, hplaces, -⟩, _, ⟨columns, hcolumns, -⟩, hrest⟩ := h
    obtain ⟨hlater, hpairs⟩ := ih hrest
    refine ⟨fun b hb p hp => ?_, .cons (fun p hp => exists_of_mapM_eq_ok hcolumns hp) hpairs⟩
    rcases List.mem_cons.mp hp with rfl | hp
    · obtain ⟨i, hi⟩ := exists_of_mapM_eq_ok hplaces hb
      exact ⟨i, require_eq_ok.mp hi⟩
    · exact hlater b hb p hp

namespace PackedMatrix

theorem IsLike.exists_addProducts? (hA : Z.IsLike A) {node : ℤ}
    (hnode : ∃ i, position? Z.nodes node = some i) (start : ℤ) (factor : α) {terms : List (ℤ × α)}
    (hcolumn : ∀ t ∈ terms, ∃ k, Z.column? (t.1 - start) = .ok k) :
    ∃ B, addProducts? node start factor terms A = .ok B ∧ Z.IsLike B := by
  induction terms generalizing A with
  | nil => exact ⟨A, rfl, hA⟩
  | cons t terms ih =>
    obtain ⟨i, hi⟩ := hnode
    obtain ⟨k, hk⟩ := hcolumn t List.mem_cons_self
    have hterm : A.addTerm? node (t.1 - start) (factor * t.2) =
        .ok (A.addAt i k (factor * t.2)) := by
      unfold addTerm? place?
      rw [hA.column?_eq, hk, ok_bind, hA.nodes, hi]
      rfl
    obtain ⟨B, hB, hlike⟩ := ih (hA.addAt i k (factor * t.2)) fun s hs =>
      hcolumn s (List.mem_cons_of_mem t hs)
    refine ⟨B, ?_, hlike⟩
    show A.addTerm? node (t.1 - start) (factor * t.2) >>= _ = _
    rw [hterm]
    exact hB

theorem IsLike.exists_addPairs? (hA : Z.IsLike A) (hzero : ∃ k, Z.column? 0 = .ok k) (base : ℤ) (slope : α)
    {terms : List (ℤ × α)} (hplace : ∀ t ∈ terms, ∃ i, position? Z.nodes (base + t.1) = some i)
    (hcolumn : (terms.map Prod.fst).Pairwise fun o p => ∃ k, Z.column? (p - o) = .ok k) :
    ∃ B, addPairs? base slope terms A = .ok B := by
  induction terms generalizing A with
  | nil => exact ⟨A, rfl⟩
  | cons t terms ih =>
    obtain ⟨hlater, hpairs⟩ := List.pairwise_cons.mp hcolumn
    have hcolumns : ∀ s ∈ t :: terms, ∃ k, Z.column? (s.1 - t.1) = .ok k := by
      intro s hs
      rcases List.mem_cons.mp hs with rfl | hs
      · rwa [sub_self]
      · exact hlater s.1 (List.mem_map_of_mem hs)
    obtain ⟨B, hB, hlike⟩ := hA.exists_addProducts? (hplace t List.mem_cons_self) t.1
      (slope * t.2) hcolumns
    obtain ⟨C, hC⟩ := ih hlike (fun s hs => hplace s (List.mem_cons_of_mem t hs)) hpairs
    refine ⟨C, ?_⟩
    show addProducts? (base + t.1) t.1 (slope * t.2) (t :: terms) A >>= _ = _
    rw [hB]
    exact hC

end PackedMatrix

variable {base : ℤ} (hbase : base ∈ bases) (weights : List α) (weight target : α)

include hbase

/-- Samples in cells whose corners are not refused can be assembled. -/
theorem exists_addSquare?_of_refuseCorners (hzero : ∃ k, Z.column? 0 = .ok k)
    (h : Level.refuseCorners Z bases offsets = .ok ()) :
    ∃ B, Z.addSquare? (Level.sampleResidual offsets base weights weight target) = .ok B := by
  obtain ⟨hplace, hcolumn⟩ := of_refuseCorners h
  refine PackedMatrix.IsLike.exists_addPairs? (.refl Z) hzero base _ (fun t ht => ?_) ?_
  · exact hplace base hbase t.1 (List.of_mem_zip ht).1
  · exact hcolumn.sublist (map_fst_zip_sublist offsets weights)

theorem exists_addTarget?_of_refuseCorners (h : Level.refuseCorners Z bases offsets = .ok ())
    {b : Array α} (hb : b.size = Z.nodes) :
    ∃ c, addTarget? b (Level.sampleResidual offsets base weights weight target) = .ok c := by
  have hplace := (of_refuseCorners h).1 base hbase
  have hmultiples : ∀ (slope : α) (terms : List (ℤ × α)) (b : Array α), b.size = Z.nodes →
      (∀ t ∈ terms, t.1 ∈ offsets) → ∃ c, addMultiples? base slope target terms b = .ok c := by
    intro slope terms
    induction terms with
    | nil => exact fun b _ _ => ⟨b, rfl⟩
    | cons t terms ih =>
      intro b hb hterms
      obtain ⟨i, hi⟩ := hplace t.1 (hterms t List.mem_cons_self)
      unfold addMultiples?
      rw [hb, hi]
      exact ih _ (Array.size_modify.trans hb) fun s hs => hterms s (List.mem_cons_of_mem t hs)
  exact hmultiples _ _ b hb fun t ht => (List.of_mem_zip ht).1

end Corners

omit [IsExact α] in
/-- The difference of a node to itself has a column. -/
theorem exists_column?_zero {res : List ℕ} (hne : res ≠ []) :
    ∃ k, (PackedMatrix.zero res : PackedMatrix α).column? 0 = .ok k := by
  have hmem := zero_mem_stencilOffsets hne
  have hreached : (Stencil.ofRes res).IsReached 0 := Stencil.isReached hmem
  obtain ⟨k, hk⟩ : ∃ k, (Stencil.ofRes res).column? 0 = some k := Stencil.exists_column hmem
  have hstencil : (PackedMatrix.zero res : PackedMatrix α).stencil = .ofRes res := rfl
  refine ⟨k, ?_⟩
  unfold PackedMatrix.column?
  rw [hstencil, if_pos hreached, hk]
  rfl

end GridSpline
