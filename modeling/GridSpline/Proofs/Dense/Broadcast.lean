import Mathlib.Data.List.Forall2
import Mathlib.Data.Option.Basic
import GridSpline.Dense.Basic

/-!
# Arrays that are repeated alike

Two arrays of one shape whose entries correspond are repeated to a larger shape alike: both can be,
or neither, and then the entries correspond again. Whether an array can be repeated is thus a matter
of shapes, and every entry of the result is one of the entries given.

## Main statements

* `mapM_isSome_iff` — a choice along a list succeeds if it does for every entry.
* `Dense.broadcastTo?_rel` — arrays whose entries correspond are repeated alike.
-/

namespace GridSpline

open GridSpline.Lattice

/-! ## Lists -/

section Lists

variable {β γ δ : Type}

/-- Choices along a list, each with its outcome. -/
theorem forall₂_of_mapM {f : β → Option γ} {l : List β} {r : List γ} (h : l.mapM f = some r) :
    List.Forall₂ (fun b c => f b = some c) l r := by
  induction l generalizing r with
  | nil =>
    cases h
    exact .nil
  | cons b bs ih =>
    rw [List.mapM_cons] at h
    obtain ⟨c, hc, h⟩ := Option.bind_eq_some_iff.mp h
    obtain ⟨cs, hcs, h⟩ := Option.bind_eq_some_iff.mp h
    cases h
    exact .cons hc (ih hcs)

theorem mapM_of_forall₂ {f : β → Option γ} {l : List β} {r : List γ}
    (h : List.Forall₂ (fun b c => f b = some c) l r) : l.mapM f = some r := by
  induction h with
  | nil => rfl
  | cons hb _ ih =>
    rw [List.mapM_cons, hb, ih]
    rfl

/-- A choice that can be made for every entry can be made along the list. -/
theorem mapM_isSome_iff {f : β → Option γ} {l : List β} :
    (∃ r, l.mapM f = some r) ↔ ∀ b ∈ l, ∃ c, f b = some c := by
  constructor
  · rintro ⟨r, hr⟩ b hb
    have h := forall₂_of_mapM hr
    obtain ⟨i, hi, rfl⟩ := List.mem_iff_getElem.mp hb
    exact ⟨_, h.get hi (h.length_eq ▸ hi)⟩
  · intro h
    induction l with
    | nil => exact ⟨[], rfl⟩
    | cons b bs ih =>
      obtain ⟨c, hc⟩ := h b List.mem_cons_self
      obtain ⟨cs, hcs⟩ := ih fun x hx => h x (List.mem_cons_of_mem b hx)
      exact ⟨c :: cs, mapM_of_forall₂ (.cons hc (forall₂_of_mapM hcs))⟩

end Lists

/-! ## Repeating an array -/

namespace Dense

variable {β γ : Type} {R : β → γ → Prop}

theorem get?_rel {a : Dense β} {b : Dense γ} (hshape : a.shape = b.shape)
    (h : List.Forall₂ R a.entries b.entries) (index : List ℕ) :
    Option.Rel R (a.get? index) (b.get? index) := by
  unfold get?
  rw [hshape]
  generalize nodeOf b.shape.reverse index = p
  have hlen : a.data.size = b.data.size := h.length_eq
  rcases Nat.lt_or_ge p a.data.size with hp | hp
  · rw [Array.getElem?_eq_getElem hp, Array.getElem?_eq_getElem (hlen ▸ hp)]
    exact .some (h.get hp (h.length_eq ▸ hp))
  · rw [Array.getElem?_eq_none hp, Array.getElem?_eq_none (hlen ▸ hp)]
    exact .none

theorem mapM_rel {f : ℕ → Option β} {g : ℕ → Option γ} (h : ∀ i, Option.Rel R (f i) (g i))
    (l : List ℕ) : Option.Rel (List.Forall₂ R) (l.mapM f) (l.mapM g) := by
  induction l with
  | nil => exact .some .nil
  | cons i l ih =>
    rw [List.mapM_cons, List.mapM_cons]
    have hi := h i
    revert hi ih
    generalize f i = x
    generalize g i = y
    generalize l.mapM f = xs
    generalize l.mapM g = ys
    intro hrest hi
    cases hi with
    | none => exact .none
    | some hxy =>
      cases hrest with
      | none => exact .none
      | some hrest => exact .some (.cons hxy hrest)

theorem ofIndices?_rel {f : List ℕ → Option β} {g : List ℕ → Option γ}
    (h : ∀ index, Option.Rel R (f index) (g index)) (shape : List ℕ) :
    Option.Rel (fun c d : Dense _ => List.Forall₂ R c.entries d.entries)
      (ofIndices? shape f) (ofIndices? shape g) := by
  have hdata := mapM_rel (fun i => h (coordsOf shape.reverse i)) (List.range (size shape.reverse))
  show Option.Rel _ (Option.bind _ _) (Option.bind _ _)
  revert hdata
  generalize ((List.range (size shape.reverse)).mapM fun i => f (coordsOf shape.reverse i)) = x
  generalize ((List.range (size shape.reverse)).mapM fun i => g (coordsOf shape.reverse i)) = y
  intro hdata
  cases hdata with
  | none => exact .none
  | some hentries => exact .some hentries

/-- Arrays whose entries correspond are repeated alike. -/
theorem broadcastTo?_rel {a : Dense β} {b : Dense γ} (hshape : a.shape = b.shape)
    (h : List.Forall₂ R a.entries b.entries) (shape : List ℕ) :
    Option.Rel (fun c d : Dense _ => List.Forall₂ R c.entries d.entries)
      (a.broadcastTo? shape) (b.broadcastTo? shape) := by
  unfold broadcastTo?
  simp only
  rw [hshape]
  split
  · exact ofIndices?_rel (fun index => get?_rel hshape h _) shape
  · exact .none

end Dense

end GridSpline
