import Mathlib

/-!
# Lists that follow the axes

Much of what a fit works with is listed by axis: resolutions, coordinates, bounds, spacings. When
the axes are put in another order, each of these lists has the same entries in that order, and every
entry may have been changed in a way that belongs to its axis. Sums, products and checks over the
axes do not see the order.

## Main definitions

* `Moves` — one list has, changed, the entries of another where their axes went.
* `moved` — the list that is meant.

## Main statements

* `Moves.map`, `Moves.zipWith` — lists that are made entry by entry move with those that they are
  made of.
* `Moves.map_perm` — the entries of both lists are the same up to their order.
-/

namespace GridSpline

/-- What belongs to an axis stands, changed, where the axis went. -/
def Moves {α β : Type} (σ : Equiv.Perm ℕ) (g : ℕ → α → β) (l : List α) (l' : List β) : Prop :=
  ∀ e, l'[σ e]? = l[e]?.map (g e)

/-- The entries of a list, changed, where their axes go. -/
def moved {α β : Type} [Inhabited α] (σ : Equiv.Perm ℕ) (g : ℕ → α → β) (l : List α) : List β :=
  (List.range l.length).map fun e => g (σ.symm e) (l.getD (σ.symm e) default)

/-- The axes below a number are put in another order among themselves. -/
def Permutes (σ : Equiv.Perm ℕ) (n : ℕ) : Prop := ∀ e, σ e < n ↔ e < n

variable {α β γ δ ε ζ : Type} {σ : Equiv.Perm ℕ}

theorem Permutes.symm {n : ℕ} (h : Permutes σ n) : Permutes σ.symm n := by
  intro e
  rw [← h, Equiv.apply_symm_apply]

theorem Permutes.perm_range {n : ℕ} (h : Permutes σ n) :
    ((List.range n).map σ).Perm (List.range n) := by
  refine (List.perm_ext_iff_of_nodup (List.nodup_range.map σ.injective) List.nodup_range).mpr
    fun e => ?_
  rw [List.mem_map, List.mem_range]
  constructor
  · rintro ⟨d, hd, rfl⟩
    exact (h d).mpr (List.mem_range.mp hd)
  · intro he
    exact ⟨σ.symm e, List.mem_range.mpr ((h.symm e).mpr he), σ.apply_symm_apply e⟩

theorem moves_moved [Inhabited α] (g : ℕ → α → β) {l : List α} (h : Permutes σ l.length) :
    Moves σ g l (moved σ g l) := by
  intro e
  unfold moved
  rw [List.getElem?_map]
  by_cases he : e < l.length
  · rw [List.getElem?_range ((h e).mpr he), Option.map_some, Equiv.symm_apply_apply,
      List.getElem?_eq_getElem he, Option.map_some, List.getD_eq_getElem _ _ he]
  · have hout : (List.range l.length).length ≤ σ e := by
      rw [List.length_range]
      exact not_lt.mp fun hlt => he ((h e).mp hlt)
    rw [List.getElem?_eq_none hout, List.getElem?_eq_none (not_lt.mp he)]
    rfl

/-- A list that is the same everywhere does not change. -/
theorem moves_replicate {n : ℕ} (h : Permutes σ n) (x : α) :
    Moves σ (fun _ y => y) (List.replicate n x) (List.replicate n x) := by
  intro e
  rw [Option.map_id', List.getElem?_replicate, List.getElem?_replicate]
  exact if_congr (h e) rfl rfl

theorem map_some_eq_map_range (l : List α) : l.map some = (List.range l.length).map (l[·]?) := by
  refine List.ext_getElem (by simp) fun e h1 h2 => ?_
  rw [List.length_map, List.length_range] at h2
  rw [List.getElem_map, List.getElem_map, List.getElem_range, List.getElem?_eq_getElem h2]

namespace Moves

variable {g : ℕ → α → β} {l : List α} {l' : List β}

theorem lt_length_iff (h : Moves σ g l l') (e : ℕ) : σ e < l'.length ↔ e < l.length := by
  have hentry := h e
  constructor
  · intro hlt
    by_contra hge
    rw [List.getElem?_eq_getElem hlt, List.getElem?_eq_none (not_lt.mp hge)] at hentry
    exact Option.some_ne_none _ hentry
  · intro hlt
    by_contra hge
    rw [List.getElem?_eq_getElem hlt, List.getElem?_eq_none (not_lt.mp hge)] at hentry
    exact Option.some_ne_none _ hentry.symm

theorem length_eq (h : Moves σ g l l') : l'.length = l.length := by
  have hrange : (Finset.range l.length).map σ.toEmbedding = Finset.range l'.length := by
    ext e
    rw [Finset.mem_map_equiv, Finset.mem_range, Finset.mem_range, ← h.lt_length_iff,
      Equiv.apply_symm_apply]
  rw [← Finset.card_range l'.length, ← hrange, Finset.card_map, Finset.card_range]

theorem permutes (h : Moves σ g l l') : Permutes σ l.length := by
  intro e
  rw [← h.lt_length_iff e, h.length_eq]

theorem getElem?_of_some (h : Moves σ g l l') {e : ℕ} {x : α} (he : l[e]? = some x) :
    l'[σ e]? = some (g e x) := by
  rw [h e, he, Option.map_some]

theorem getD (h : Moves σ g l l') {e : ℕ} (he : e < l.length) (d : α) (d' : β) :
    l'.getD (σ e) d' = g e (l.getD e d) := by
  rw [List.getD_eq_getElem?_getD, h e, List.getElem?_eq_getElem he, List.getD_eq_getElem _ _ he]
  rfl

/-- Every entry of the new list comes from the axis that went there. -/
theorem exists_of_mem (h : Moves σ g l l') {y : β} (hy : y ∈ l') :
    ∃ e x, l[e]? = some x ∧ y = g e x := by
  obtain ⟨e, he, rfl⟩ := List.mem_iff_getElem.mp hy
  have hentry := h (σ.symm e)
  rw [Equiv.apply_symm_apply, List.getElem?_eq_getElem he] at hentry
  obtain ⟨x, hx, hgx⟩ := Option.map_eq_some_iff.mp hentry.symm
  exact ⟨_, x, hx, hgx.symm⟩

/-- There is only one such list. -/
theorem ext (h : Moves σ g l l') {l'' : List β} (h' : Moves σ g l l'') : l' = l'' := by
  refine List.ext_getElem? fun e => ?_
  rw [← σ.apply_symm_apply e, h, h']

theorem congr {g' : ℕ → α → β} (h : Moves σ g l l')
    (hg : ∀ e x, l[e]? = some x → g e x = g' e x) : Moves σ g' l l' := by
  intro e
  rw [h e]
  cases he : l[e]? with
  | none => rfl
  | some x => rw [Option.map_some, Option.map_some, hg e x he]

/-! ## Lists made of others -/

theorem map (h : Moves σ g l l') {F : α → γ} {F' : β → δ} {k : ℕ → γ → δ}
    (hF : ∀ e x, l[e]? = some x → F' (g e x) = k e (F x)) : Moves σ k (l.map F) (l'.map F') := by
  intro e
  rw [List.getElem?_map, List.getElem?_map, h e]
  cases he : l[e]? with
  | none => rfl
  | some x => simp only [Option.map_some, hF e x he]

theorem zipWith {k : ℕ → γ → δ} {m : List γ} {m' : List δ} (h : Moves σ g l l')
    (hk : Moves σ k m m') {F : α → γ → ε} {F' : β → δ → ζ} {j : ℕ → ε → ζ}
    (hF : ∀ e x y, l[e]? = some x → m[e]? = some y → F' (g e x) (k e y) = j e (F x y)) :
    Moves σ j (List.zipWith F l m) (List.zipWith F' l' m') := by
  intro e
  rw [List.getElem?_zipWith, List.getElem?_zipWith, h e, hk e]
  cases he : l[e]? with
  | none => rfl
  | some x =>
    cases hy : m[e]? with
    | none => rfl
    | some y => simp only [Option.map_some, hF e x y he hy]

theorem zip {k : ℕ → γ → δ} {m : List γ} {m' : List δ} (h : Moves σ g l l')
    (hk : Moves σ k m m') :
    Moves σ (fun e (p : α × γ) => (g e p.1, k e p.2)) (l.zip m) (l'.zip m') := by
  rw [List.zip_eq_zipWith, List.zip_eq_zipWith]
  exact h.zipWith hk fun _ _ _ _ _ => rfl

/-- What is made of an entry and of the changed entry is the same, so it is the same for the two
lists up to the order. -/
theorem map_perm (h : Moves σ g l l') {F : α → γ} {G : β → γ}
    (hF : ∀ e x, l[e]? = some x → G (g e x) = F x) : (l'.map G).Perm (l.map F) := by
  have hmap : Moves σ (fun _ x => x) (l.map F) (l'.map G) := h.map hF
  -- The entries of the one list are looked up in the order of the other one.
  have hperm := hmap.permutes.perm_range.map ((l'.map G)[·]?)
  rw [List.map_map, ← hmap.length_eq, ← map_some_eq_map_range] at hperm
  have hentries : (List.range (l'.map G).length).map ((fun e => (l'.map G)[e]?) ∘ σ) =
      (l.map F).map some := by
    rw [map_some_eq_map_range, hmap.length_eq]
    refine List.map_congr_left fun e _ => ?_
    rw [Function.comp_apply, hmap e, Option.map_id']
  rw [hentries] at hperm
  exact ((List.map_perm_map_iff (Option.some_injective _)).mp hperm).symm

/-- Where the entries are changed in one way, only their order is another one. -/
theorem perm_map {f : α → β} (h : Moves σ (fun _ => f) l l') : l'.Perm (l.map f) := by
  have hperm := h.map_perm (F := f) (G := id) fun _ _ _ => rfl
  rwa [List.map_id] at hperm

theorem perm {m m' : List α} (h : Moves σ (fun _ x => x) m m') : m'.Perm m := by
  have hperm := h.perm_map
  rwa [List.map_id'] at hperm

end Moves

end GridSpline
