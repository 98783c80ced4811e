import Mathlib
import GridSpline.Proofs.Equations.LeastSquares
import GridSpline.Proofs.Sparse.Packed

/-!
# Assembly

The equations are assembled square by square, and a square pair by pair. Each pair of coefficients
is added once, at the node that comes first; the other half of the matrix is its mirror image. What
results are the second derivatives of the squares and what the squares pull the nodes to.

The key is `Coupled.combination_mul`: for terms in the order of the nodes, the pairs of a list are
those of its first term with all terms and those of the rest, and the first node takes part in no
later pair on the side that is not stored.

## Main definitions

* `Coupled` — terms that the equations of a lattice can hold.

## Main statements

* `exists_addSquares?` — the assembly of the matrix succeeds, and gives the second derivatives.
* `exists_addTargets?` — the assembly of the right-hand side succeeds, and gives the pull.
-/

namespace GridSpline

open Matrix
open GridSpline.Lattice

/-- The terms are those of nodes of the lattice, in the order of the nodes, and the stencil has a
column for the difference between any two of them. -/
structure Coupled (res : List ℕ) (base : ℤ) (terms : List (ℤ × ℝ)) : Prop where
  onLattice : ∀ t ∈ terms, 0 ≤ base + t.1 ∧ base + t.1 < size res
  ordered : terms.Pairwise fun s t => s.1 < t.1 ∧ (t.1 - s.1).toNat ∈ stencilOffsets res

/-- The equations of a lattice can hold the square. -/
def Residual.Placed (res : List ℕ) (r : Residual ℝ) : Prop := Coupled res r.base r.terms

variable {res : List ℕ} {A : PackedMatrix ℝ} {base : ℤ} {terms : List (ℤ × ℝ)}

theorem Coupled.tail {t : ℤ × ℝ} (h : Coupled res base (t :: terms)) :
    Coupled res base terms where
  onLattice s hs := h.onLattice s (List.mem_cons_of_mem t hs)
  ordered := (List.pairwise_cons.mp h.ordered).2

/-- The steps from the first node to all nodes of the square. -/
theorem Coupled.exists_steps {t : ℤ × ℝ} (h : Coupled res base (t :: terms)) (hne : res ≠ [])
    {i : ℕ} (hi : base + t.1 = (i : ℤ)) :
    ∀ s ∈ t :: terms, ∃ d ∈ stencilOffsets res, s.1 - t.1 = (d : ℤ) ∧ i + d < size res := by
  intro s hs
  have hfirst := (List.pairwise_cons.mp h.ordered).1
  obtain ⟨-, hhigh⟩ := h.onLattice s hs
  rcases List.mem_cons.mp hs with rfl | hs
  · exact ⟨0, zero_mem_stencilOffsets hne, by simp, by omega⟩
  · obtain ⟨hgt, hmem⟩ := hfirst s hs
    exact ⟨(s.1 - t.1).toNat, hmem, by omega, by omega⟩

/-- The pairs of a square are those of its first term with all terms, and those of the rest. -/
theorem Coupled.combination_mul {t : ℤ × ℝ} (h : Coupled res base (t :: terms)) {k l : ℕ}
    (hkl : k ≤ l) : combination base (t :: terms) k * combination base (t :: terms) l =
      (if base + t.1 = (k : ℤ) then t.2 else 0) * combination base (t :: terms) l +
        combination base terms k * combination base terms l := by
  -- A later node takes part with the first one only as the later of the two.
  have hlater : combination base terms k * (if base + t.1 = (l : ℤ) then t.2 else 0) = 0 := by
    by_cases hl : base + t.1 = (l : ℤ)
    · rw [combination_eq_zero, zero_mul]
      intro s hs hk
      have hgt := ((List.pairwise_cons.mp h.ordered).1 s hs).1
      omega
    · rw [if_neg hl, mul_zero]
  rw [combination_cons _ _ _ k, add_mul, combination_cons _ _ _ l, mul_add (combination _ _ _),
    hlater, zero_add]

namespace PackedMatrix

/-! ## The matrix -/

/-- The products of one coefficient with those of nodes further on. -/
theorem exists_addProducts? (hA : A.IsOver res) {i : ℕ} {start : ℤ} (factor : ℝ)
    (h : ∀ t ∈ terms, ∃ o ∈ stencilOffsets res, t.1 - start = (o : ℤ) ∧ i + o < size res) :
    ∃ B, addProducts? i start factor terms A = .ok B ∧ B.IsOver res ∧
      ∀ k l : ℕ, B.forward k l =
        A.forward k l + if k = i then factor * combination (i - start) terms l else 0 := by
  induction terms generalizing A with
  | nil =>
    refine ⟨A, rfl, hA, ?_⟩
    intro k l
    simp
  | cons t terms ih =>
    obtain ⟨o, c⟩ := t
    obtain ⟨d, hd, hod, hlt⟩ := h _ List.mem_cons_self
    obtain ⟨B, hB, hBres, hBentry⟩ := exists_addTerm? hA hd hlt (factor * c)
    obtain ⟨C, hC, hCres, hCentry⟩ := ih hBres fun t ht => h t (List.mem_cons_of_mem _ ht)
    refine ⟨C, ?_, hCres, ?_⟩
    · unfold addProducts?
      have hstep : A.addTerm? (i : ℤ) (o - start) (factor * c) = .ok B := by
        rw [← hB]
        exact congrArg (fun d => A.addTerm? (i : ℤ) d (factor * c)) hod
      rw [hstep, ok_bind, hC]
    · intro k l
      rw [hCentry, hBentry, combination_cons]
      simp only at hod
      have hiff : l = i + d ↔ ((i : ℤ) - start + o = l) := by omega
      by_cases hk : k = i
      · rw [if_pos hk, if_pos hk]
        by_cases hl : l = i + d
        · rw [if_pos ⟨hk, hl⟩, if_pos (hiff.mp hl)]
          ring
        · rw [if_neg fun hc => hl hc.2, if_neg fun hc => hl (hiff.mpr hc)]
          ring
      · rw [if_neg hk, if_neg hk, if_neg fun hc => hk hc.1]
        ring

/-- All pairs of coefficients of one square. -/
theorem exists_addPairs? (hne : res ≠ []) (hA : A.IsOver res) (slope : ℝ)
    (h : Coupled res base terms) :
    ∃ B, addPairs? base slope terms A = .ok B ∧ B.IsOver res ∧
      ∀ k l : ℕ, k ≤ l → B.forward k l =
        A.forward k l + slope * (combination base terms k * combination base terms l) := by
  induction terms generalizing A with
  | nil =>
    refine ⟨A, rfl, hA, ?_⟩
    intro k l _
    simp
  | cons t terms ih =>
    obtain ⟨i, hi⟩ := Int.eq_ofNat_of_zero_le (h.onLattice _ List.mem_cons_self).1
    obtain ⟨B, hB, hBres, hBentry⟩ :=
      exists_addProducts? hA (slope * t.2) (h.exists_steps hne hi)
    obtain ⟨C, hC, hCres, hCentry⟩ := ih hBres h.tail
    refine ⟨C, ?_, hCres, ?_⟩
    · unfold addPairs?
      rw [hi, hB, ok_bind, hC]
    · intro k l hkl
      have hbase : (i : ℤ) - t.1 = base := by omega
      have hki : (base + t.1 = (k : ℤ)) ↔ k = i := by omega
      rw [hCentry k l hkl, hBentry, hbase, h.combination_mul hkl, if_congr hki rfl rfl]
      split <;> ring

/-- One square. -/
theorem exists_addSquare? (hne : res ≠ []) (hA : A.IsOver res) {r : Residual ℝ}
    (h : r.Placed res) :
    ∃ B, A.addSquare? r = .ok B ∧ B.IsOver res ∧ B.dense (size res) =
      A.dense (size res) + r.slope • vecMulVec (r.form (size res)) (r.form (size res)) := by
  obtain ⟨B, hB, hBres, hentry⟩ := exists_addPairs? hne hA r.slope h
  refine ⟨B, hB, hBres, ?_⟩
  ext i j
  have hle : min (i : ℕ) j ≤ max (i : ℕ) j := min_le_max
  show B.forward (min (i : ℕ) j) (max (i : ℕ) j) = A.forward (min (i : ℕ) j) (max (i : ℕ) j) +
    r.slope * (r.form (size res) i * r.form (size res) j)
  rw [hentry _ _ hle]
  rcases le_total (i : ℕ) j with hij | hji
  · rw [min_eq_left hij, max_eq_right hij]
    rfl
  · rw [min_eq_right hji, max_eq_left hji]
    congr 2
    exact mul_comm _ _

/-- The matrix of a list of squares is that of their second derivatives. -/
theorem exists_addSquares? (hne : res ≠ []) (hA : A.IsOver res) {rs : List (Residual ℝ)}
    (h : ∀ r ∈ rs, r.Placed res) :
    ∃ B, A.addSquares? rs = .ok B ∧ B.IsOver res ∧
      B.dense (size res) = A.dense (size res) + hessian (size res) rs := by
  induction rs generalizing A with
  | nil => exact ⟨A, rfl, hA, by simp [hessian]⟩
  | cons r rs ih =>
    obtain ⟨B, hB, hBres, hdense⟩ := exists_addSquare? hne hA (h r List.mem_cons_self)
    obtain ⟨C, hC, hCres, hdense'⟩ := ih hBres fun s hs => h s (List.mem_cons_of_mem r hs)
    refine ⟨C, ?_, hCres, ?_⟩
    · unfold addSquares?
      rw [List.foldlM_cons, hB, ok_bind]
      exact hC
    · rw [hdense', hdense, hessian_cons, add_assoc]

end PackedMatrix

/-! ## The right-hand side -/

theorem exists_addMultiples? {n : ℕ} (slope target : ℝ) {b : Array ℝ} (hb : b.size = n)
    (h : ∀ t ∈ terms, 0 ≤ base + t.1 ∧ base + t.1 < n) :
    ∃ b', addMultiples? base slope target terms b = .ok b' ∧ b'.size = n ∧
      ∀ i : ℕ, b'.getD i 0 = b.getD i 0 + slope * target * combination base terms i := by
  induction terms generalizing b with
  | nil => exact ⟨b, rfl, hb, fun i => by simp⟩
  | cons t terms ih =>
    obtain ⟨o, c⟩ := t
    obtain ⟨h0, hlt⟩ := h _ List.mem_cons_self
    simp only at h0 hlt
    have hpos := position?_of_nonneg h0 (hb.symm ▸ hlt)
    have hin : (base + o).toNat < b.size := by omega
    obtain ⟨b', hb', hsize, hentry⟩ := ih (b := b.modify (base + o).toNat (· + slope * c * target))
      (by simpa using hb) fun t ht => h t (List.mem_cons_of_mem _ ht)
    refine ⟨b', ?_, hsize, ?_⟩
    · unfold addMultiples?
      rw [hpos]
      exact hb'
    · intro i
      have hmodify : (b.modify (base + o).toNat (· + slope * c * target)).getD i 0 =
          b.getD i 0 + if base + o = (i : ℤ) then slope * c * target else 0 := by
        simp only [Array.getD_eq_getD_getElem?, Array.getElem?_modify]
        by_cases hi : (base + o).toNat = i
        · subst hi
          rw [if_pos rfl, if_pos (by omega), Array.getElem?_eq_getElem hin]
          rfl
        · rw [if_neg hi, if_neg (by omega), add_zero]
      rw [hentry, hmodify, combination_cons]
      simp only
      split <;> ring

/-- What one square draws its nodes to. -/
theorem exists_addTarget? {b : Array ℝ} (hb : b.size = size res) {r : Residual ℝ}
    (h : r.Placed res) :
    ∃ b', addTarget? b r = .ok b' ∧ b'.size = size res ∧
      vectorOf (size res) b' =
        vectorOf (size res) b + (r.slope * r.aim) • r.form (size res) := by
  cases ht : r.target with
  | none =>
    refine ⟨b, by simp only [addTarget?, ht]; rfl, hb, ?_⟩
    have haim : r.aim = 0 := by
      unfold Residual.aim
      rw [ht]
      rfl
    rw [haim, mul_zero, zero_smul, add_zero]
  | some t =>
    have haim : r.aim = t := by
      unfold Residual.aim
      rw [ht]
      rfl
    obtain ⟨b', hb', hsize, hentry⟩ := exists_addMultiples? r.slope t hb h.onLattice
    refine ⟨b', by simp only [addTarget?, ht]; exact hb', hsize, ?_⟩
    funext i
    rw [haim]
    exact hentry i

/-- The right-hand side of a list of squares is what they pull the nodes to. -/
theorem exists_addTargets? {b : Array ℝ} (hb : b.size = size res) {rs : List (Residual ℝ)}
    (h : ∀ r ∈ rs, r.Placed res) :
    ∃ b', addTargets? b rs = .ok b' ∧ b'.size = size res ∧
      vectorOf (size res) b' = vectorOf (size res) b + pull (size res) rs := by
  induction rs generalizing b with
  | nil => exact ⟨b, rfl, hb, by simp [pull]⟩
  | cons r rs ih =>
    obtain ⟨c, hc, hcsize, hcvec⟩ := exists_addTarget? hb (h r List.mem_cons_self)
    obtain ⟨d, hd, hdsize, hdvec⟩ := ih hcsize fun s hs => h s (List.mem_cons_of_mem r hs)
    refine ⟨d, ?_, hdsize, ?_⟩
    · unfold addTargets?
      rw [List.foldlM_cons, hc, ok_bind]
      exact hd
    · rw [hdvec, hcvec, pull_cons, add_assoc]

theorem vectorOf_zeroRhs (res : List ℕ) :
    vectorOf (size res) (zeroRhs res : Array ℝ) = 0 := by
  funext i
  simp [vectorOf, zeroRhs]

end GridSpline
