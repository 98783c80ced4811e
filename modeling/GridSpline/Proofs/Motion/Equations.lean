import Mathlib
import GridSpline.Proofs.Equations.LeastSquares
import GridSpline.Proofs.Interpolation.Resample
import GridSpline.Proofs.Motion.Lattice

/-!
# Equations of a rearranged lattice

The equations of weighted squares are known from their energy. So if the nodes are renumbered and
the energy stays the same, the equations are the same up to the numbers of the nodes, whatever
squares the energy is made of and in whatever order they are added.

## Main definitions

* `Relates.renumbered` — node values under the new numbers.

## Main statements

* `pull_eq_comp_symm`, `hessian_eq_reindex` — the equations of an energy that is kept.
* `Relates.nodeValue_comp_symm` — the value of a node under its new number.
* `Relates.share_nodeOn` — the share of a node in a place that moves along.
* `Relates.exists_resample?` — node values carried to another lattice.
-/

namespace GridSpline

open Matrix
open GridSpline.Lattice

/-! ## Renumbered nodes -/

section Renumbered

variable {n n' : ℕ} {π : Fin n ≃ Fin n'} {rs rs' : List (Residual ℝ)}
  (h : ∀ x : Fin n → ℝ, totalEnergy n' rs' (x ∘ π.symm) = totalEnergy n rs x)

include h

/-- The part of the energy that is linear in the node values. -/
theorem dotProduct_pull_comp_symm (u : Fin n → ℝ) :
    (u ∘ π.symm) ⬝ᵥ pull n' rs' = u ⬝ᵥ pull n rs := by
  have hplus := h u
  have hminus := h (-u)
  have hzero := h 0
  have hneg : (-u) ∘ π.symm = -(u ∘ π.symm) := rfl
  -- The quadratic part does not see the sign.
  have expand : ∀ {k : ℕ} (ss : List (Residual ℝ)) (v : Fin k → ℝ),
      totalEnergy k ss v - totalEnergy k ss (-v) = -(2 * (v ⬝ᵥ pull k ss)) := by
    intro k ss v
    have h1 := totalEnergy_add ss 0 v
    have h2 := totalEnergy_add ss 0 (-v)
    rw [zero_add, mulVec_zero, zero_sub, dotProduct_neg] at h1 h2
    rw [mulVec_neg, neg_dotProduct_neg, neg_dotProduct] at h2
    linarith
  have h1 := expand rs u
  have h2 := expand rs' (u ∘ π.symm)
  rw [hneg] at hminus
  linarith

/-- The part of the energy that is quadratic in the node values. -/
theorem dotProduct_hessian_comp_symm (u v : Fin n → ℝ) :
    (u ∘ π.symm) ⬝ᵥ (hessian n' rs' *ᵥ (v ∘ π.symm)) = u ⬝ᵥ (hessian n rs *ᵥ v) := by
  -- Polarization: a symmetric form is known from its squares.
  have expand : ∀ {k : ℕ} (ss : List (Residual ℝ)) (v w : Fin k → ℝ),
      v ⬝ᵥ (hessian k ss *ᵥ w) =
        totalEnergy k ss (v + w) - totalEnergy k ss v - totalEnergy k ss w +
          totalEnergy k ss 0 := by
    intro k ss v w
    have h1 := totalEnergy_add ss 0 (v + w)
    have h2 := totalEnergy_add ss 0 v
    have h3 := totalEnergy_add ss 0 w
    have hsymm : w ⬝ᵥ (hessian k ss *ᵥ v) = v ⬝ᵥ (hessian k ss *ᵥ w) := by
      rw [dotProduct_mulVec, ← mulVec_transpose, isSymm_hessian, dotProduct_comm]
    rw [zero_add, mulVec_zero, zero_sub, dotProduct_neg] at h1 h2 h3
    rw [mulVec_add, add_dotProduct, dotProduct_add, add_dotProduct, add_dotProduct] at h1
    linarith
  have hadd : u ∘ π.symm + v ∘ π.symm = (u + v) ∘ π.symm := rfl
  have hzero := h 0
  rw [show (0 : Fin n → ℝ) ∘ π.symm = 0 from rfl] at hzero
  rw [expand, expand, hadd, h, h, h, hzero]

/-- Where the energy is kept, every node is pulled as before. -/
theorem pull_eq_comp_symm : pull n' rs' = pull n rs ∘ π.symm := by
  refine dotProduct_eq _ _ fun w => ?_
  have hw : w = (w ∘ π) ∘ π.symm := by
    funext i
    simp
  rw [dotProduct_comm, hw, dotProduct_pull_comp_symm h, comp_equiv_dotProduct_comp_equiv,
    dotProduct_comm]

/-- Where the energy is kept, the matrix is the same up to the numbers of the nodes. -/
theorem hessian_eq_reindex : hessian n' rs' = reindex π π (hessian n rs) := by
  ext i j
  have hsingle : ∀ k : Fin n', Pi.single (π.symm k) (1 : ℝ) ∘ π.symm = Pi.single k 1 := by
    intro k
    funext l
    rw [Function.comp_apply, Pi.single_apply, Pi.single_apply]
    exact if_congr (π.symm.injective.eq_iff) rfl rfl
  have hentry := dotProduct_hessian_comp_symm h (Pi.single (π.symm i) 1) (Pi.single (π.symm j) 1)
  rw [hsingle, hsingle, mulVec_single_one, mulVec_single_one, single_one_dotProduct,
    single_one_dotProduct] at hentry
  exact hentry

end Renumbered

namespace Rearrangement.Relates

variable {m : Rearrangement} {res res' : List ℕ} (h : m.Relates res res')

include h

/-- The value of a node under its new number. -/
theorem nodeValue_comp_symm (x : Fin (size res) → ℝ) {i : ℕ} (hi : i < size res) :
    nodeValue (x ∘ h.nodes.symm) (m.nodeOn res res' i : ℕ) = nodeValue x i := by
  have hthere := nodeValue_fin (x ∘ h.nodes.symm) (h.nodes ⟨i, hi⟩)
  rw [Function.comp_apply, Equiv.symm_apply_apply] at hthere
  exact hthere.trans (nodeValue_fin x ⟨i, hi⟩).symm

/-- Node values under the new numbers. -/
noncomputable def renumbered (x : Array ℝ) : Array ℝ :=
  Array.ofFn (vectorOf (size res) x ∘ h.nodes.symm)

@[simp] theorem size_renumbered (x : Array ℝ) : (h.renumbered x).size = size res' :=
  Array.size_ofFn

theorem vectorOf_renumbered (x : Array ℝ) :
    vectorOf (size res') (h.renumbered x) = vectorOf (size res) x ∘ h.nodes.symm := by
  funext i
  rw [vectorOf_apply (h.size_renumbered x)]
  unfold renumbered
  rw [Array.getElem_ofFn]

theorem getD_renumbered (x : Array ℝ) {i : ℕ} (hi : i < size res) :
    (h.renumbered x).getD (m.nodeOn res res' i) 0 = x.getD i 0 := by
  have hvalue := congrFun (h.vectorOf_renumbered x) (h.nodes ⟨i, hi⟩)
  rwa [Function.comp_apply, Equiv.symm_apply_apply] at hvalue

/-- An array whose values are those of another one under the new numbers. -/
theorem eq_renumbered {x x' : Array ℝ} (hx' : x'.size = size res')
    (heq : ∀ i : Fin (size res), vectorOf (size res') x' (h.nodes i) = vectorOf (size res) x i) :
    x' = h.renumbered x := by
  refine eq_of_vectorOf_eq hx' (h.size_renumbered x) ?_
  funext i
  rw [vectorOf_renumbered, Function.comp_apply, ← heq, Equiv.apply_symm_apply]

theorem renumbered_replicate (c : ℝ) :
    h.renumbered (Array.replicate (size res) c) = Array.replicate (size res') c := by
  refine (h.eq_renumbered Array.size_replicate fun i => ?_).symm
  rw [vectorOf_apply Array.size_replicate, vectorOf_apply Array.size_replicate,
    Array.getElem_replicate, Array.getElem_replicate]

theorem arrayOf_eq_renumbered {f f' : ℕ → ℝ}
    (hf : ∀ i < size res, f' (m.nodeOn res res' i) = f i) :
    arrayOf (size res') f' = h.renumbered (arrayOf (size res) f) := by
  refine h.eq_renumbered (size_arrayOf _ _) fun i => ?_
  rw [vectorOf_arrayOf, vectorOf_arrayOf]
  exact hf i i.isLt

end Rearrangement.Relates

/-! ## Places -/

namespace Rearrangement

/-- The place on an axis after the rearrangement. -/
noncomputable def turnPlace (m : Rearrangement) (res : List ℕ) (e : ℕ) (t : ℝ) : ℝ :=
  if m.reversed e then ((res.getD e 0 : ℕ) : ℝ) - 1 - t else t

theorem hat_turnPlace (m : Rearrangement) {res : List ℕ} {e c : ℕ} (hc : c < res.getD e 0) (t : ℝ) :
    hat (m.turnPlace res e t) (m.turnOn res e c) = hat t c := by
  unfold turnPlace turnOn turn hat
  split
  · have hcast : ((res.getD e 0 - 1 - c : ℕ) : ℝ) = ((res.getD e 0 : ℕ) : ℝ) - 1 - c := by
      rw [Nat.cast_sub (by omega), Nat.cast_sub (by omega), Nat.cast_one]
    rw [hcast, sub_sub_sub_cancel_left, abs_sub_comm]
  · rfl

namespace Relates

variable {m : Rearrangement} {res res' : List ℕ} (h : m.Relates res res')

include h

/-- Corresponding nodes have the same share in places that correspond. -/
theorem share_nodeOn {place place' : List ℝ} (hplace : Moves m.axis (m.turnPlace res) place place')
    (i : ℕ) : share res' place' (m.nodeOn res res' i) = share res place i := by
  have hzip : Moves m.axis (fun _ v => v) (List.zipWith hat place (coordsOf res i))
      (List.zipWith hat place' (coordsOf res' (m.nodeOn res res' i))) := by
    refine hplace.zipWith (h.moves_coordsOf i) fun e t c _ hc => ?_
    obtain ⟨he, rfl⟩ := List.getElem?_eq_some_iff.mp hc
    have he' : e < res.length := by rwa [length_coordsOf] at he
    have hlt := (within_iff.mp (within_coordsOf h.pos i)).get he he'
    refine m.hat_turnPlace ?_ t
    rw [List.getD_eq_getElem _ _ he']
    exact hlt
  unfold share
  exact hzip.perm.prod_eq

/-- A sum over all nodes can be taken over the corresponding ones. -/
theorem sum_share_comp_symm {place place' : List ℝ}
    (hplace : Moves m.axis (m.turnPlace res) place place') (x : Fin (size res) → ℝ) :
    ∑ j : Fin (size res'), share res' place' j * (x ∘ h.nodes.symm) j =
      ∑ j : Fin (size res), share res place j * x j := by
  rw [← h.nodes.sum_comp]
  refine Finset.sum_congr rfl fun j _ => ?_
  rw [Function.comp_apply, Equiv.symm_apply_apply, h.nodes_apply, h.share_nodeOn hplace]

/-- Node values carried to another lattice, before and after both are rearranged. -/
theorem carried_nodeOn {target target' : List ℕ} (ht : m.Relates target target')
    (x : Fin (size res) → ℝ) (i : ℕ) :
    carried res' target' (x ∘ h.nodes.symm) (m.nodeOn target target' i) =
      carried res target x i := by
  have hparts : Moves m.axis (fun e (v : ℝ) => if m.reversed e then 1 - v else v)
      (List.zipWith (fun (c r : ℕ) => (c : ℝ) / ((r : ℝ) - 1)) (coordsOf target i) target)
      (List.zipWith (fun (c r : ℕ) => (c : ℝ) / ((r : ℝ) - 1))
        (coordsOf target' (m.nodeOn target target' i)) target') := by
    refine (ht.moves_coordsOf i).zipWith ht.resolutions fun e c r hc hr => ?_
    obtain ⟨he, rfl⟩ := List.getElem?_eq_some_iff.mp hc
    obtain ⟨he', rfl⟩ := List.getElem?_eq_some_iff.mp hr
    have hlt := (within_iff.mp (within_coordsOf ht.pos i)).get he he'
    have htwo := ht.two_le _ (List.getElem_mem he')
    simp only [List.get_eq_getElem] at hlt
    -- A reversed axis is passed from its other end.
    have hne : ((target[e] : ℕ) : ℝ) - 1 ≠ 0 := by
      have : (2 : ℝ) ≤ target[e] := by exact_mod_cast htwo
      linarith
    unfold turnOn turn
    rw [List.getD_eq_getElem _ _ he']
    split
    · rw [Nat.cast_sub (by omega), Nat.cast_sub (by omega), Nat.cast_one, sub_div, div_self hne]
    · rfl
  have hplaces : Moves m.axis (m.turnPlace res) (placesIn res target (coordsOf target i))
      (placesIn res' target' (coordsOf target' (m.nodeOn target target' i))) := by
    refine hparts.zipWith h.resolutions fun e v r _ hr => ?_
    obtain ⟨he, rfl⟩ := List.getElem?_eq_some_iff.mp hr
    unfold turnPlace
    rw [List.getD_eq_getElem _ _ he]
    split
    · ring
    · rfl
  unfold carried
  exact h.sum_share_comp_symm hplaces x

/-- Resampling, before and after both lattices are rearranged. -/
theorem exists_resample? {target target' : List ℕ} (ht : m.Relates target target') (hne : res ≠ [])
    (hlen : res.length = target.length) {x : Array ℝ} (hx : x.size = size res) :
    ∃ y, resample? res target x = .ok y ∧ y.size = size target ∧
      resample? res' target' (h.renumbered x) = .ok (ht.renumbered y) := by
  have hlen' : res'.length = target'.length := by rw [h.length_eq, ht.length_eq, hlen]
  refine ⟨_, resample?_eq hlen h.two_le ht.two_le hne hx, size_arrayOf _ _, ?_⟩
  rw [resample?_eq hlen' h.two_le' ht.two_le' (h.ne_nil hne) (h.size_renumbered x),
    h.vectorOf_renumbered]
  exact congrArg Except.ok (ht.arrayOf_eq_renumbered fun i _ => h.carried_nodeOn ht _ i)

end Relates

end Rearrangement

end GridSpline
