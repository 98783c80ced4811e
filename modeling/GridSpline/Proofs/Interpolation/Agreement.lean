import Mathlib
import GridSpline.Proofs.Dense.Components
import GridSpline.Proofs.Interpolation.Interpolant
import GridSpline.Proofs.Lattice.Lines

/-!
# Resampling is interpolation at the nodes

Resampling finds the cell of a node from the numbers of nodes alone, and interpolation from the
position of the node in a box. Both give the node the same place, so that the values at the nodes of
another grid are the product of the interpolation matrix with the values given. On the way every
vector of an array is treated alike. The values stay between those given; nothing changes on the
same lattice, and nothing is lost on a lattice each of whose cells is a part of a cell.

## Main definitions

* `resampled` — the values at the nodes of another lattice.

## Main statements

* `exists_coords_eq` — the nodes of a lattice are nodes of any lattice that divides its cells.
* `resampleArray?_eq` — resampling treats the vectors of an array alike.
* `resampleArray?_self`, `resampleArray?_there_and_back` — what resampling leaves as it is.
* `Grid.Divides.resampleArray?_eq_mulVec` — resampling is the product with the interpolation matrix.
-/

namespace GridSpline

open Scalar Failure
open GridSpline.Lattice

/-- The values at the nodes of another lattice. -/
noncomputable def resampled (source target : List ℕ) (part : Array ℝ) : Array ℝ :=
  arrayOf (size target) (carried source target (vectorOf (size source) part))

@[simp] theorem size_resampled (source target : List ℕ) (part : Array ℝ) :
    (resampled source target part).size = size target := size_arrayOf _ _

@[simp] theorem vectorOf_resampled (source target : List ℕ) (part : Array ℝ) :
    vectorOf (size target) (resampled source target part) =
      fun i : Fin (size target) => carried source target (vectorOf (size source) part) i :=
  vectorOf_arrayOf _ _

theorem size_of_mem_map_resampled (source target : List ℕ) (parts : List (Array ℝ)) :
    ∀ part ∈ parts.map (resampled source target), part.size = size target := by
  intro part hpart
  obtain ⟨p, -, rfl⟩ := List.mem_map.mp hpart
  exact size_resampled source target p

/-! ## One vector -/

/-- On the same lattice nothing changes. -/
theorem resampled_self {source : List ℕ} (hsource : ∀ r ∈ source, 2 ≤ r) {part : Array ℝ}
    (hpart : part.size = size source) : resampled source source part = part := by
  refine eq_of_vectorOf_eq (size_resampled _ _ _) hpart ?_
  rw [vectorOf_resampled]
  exact funext (carried_self hsource _)

section Finer

/-- A node on an axis is a node of any axis that divides its cells. -/
theorem exists_coord_eq {s r x : ℕ} (hs : 2 ≤ s) (hr : 2 ≤ r) (h : s - 1 ∣ r - 1) (hx : x < s) :
    ∃ y < r, (x : ℝ) / ((s : ℝ) - 1) * ((r : ℝ) - 1) = y ∧
      (y : ℝ) / ((r : ℝ) - 1) * ((s : ℝ) - 1) = x := by
  obtain ⟨q, hq⟩ := h
  have hcells : ((r - 1 : ℕ) : ℝ) = ((s - 1 : ℕ) : ℝ) * q := by exact_mod_cast hq
  rw [Nat.cast_sub (by omega), Nat.cast_sub (by omega), Nat.cast_one] at hcells
  have hcoarse : (s : ℝ) - 1 ≠ 0 := by
    have : (2 : ℝ) ≤ s := by exact_mod_cast hs
    linarith
  have hfine : (r : ℝ) - 1 ≠ 0 := by
    have : (2 : ℝ) ≤ r := by exact_mod_cast hr
    linarith
  refine ⟨x * q, ?_, ?_, ?_⟩
  · have hle : x * q ≤ (s - 1) * q := Nat.mul_le_mul_right q (by omega)
    omega
  · rw [hcells]
    push_cast
    field_simp
  · rw [div_mul_eq_mul_div, div_eq_iff hfine, hcells]
    push_cast
    ring

variable {source target : List ℕ} (hsource : ∀ r ∈ source, 2 ≤ r) (htarget : ∀ r ∈ target, 2 ≤ r)
  (h : List.Forall₂ (fun s r => s - 1 ∣ r - 1) source target)

include hsource htarget h

/-- The nodes of a lattice are nodes of any lattice that divides its cells. -/
theorem exists_coords_eq {c : List ℕ} (hc : Within source c) : ∃ d, Within target d ∧
    placesIn target source c = d.map (fun y : ℕ => (y : ℝ)) ∧
    placesIn source target d = c.map fun x : ℕ => (x : ℝ) := by
  induction h generalizing c with
  | nil =>
    cases c with
    | nil => exact ⟨[], trivial, rfl, rfl⟩
    | cons _ _ => exact hc.elim
  | @cons s r ss rs hdvd _ ih =>
    cases c with
    | nil => exact hc.elim
    | cons x xs =>
      obtain ⟨ds, hwithin, hthere, hback⟩ := ih (fun a ha => hsource a (List.mem_cons_of_mem s ha))
        (fun a ha => htarget a (List.mem_cons_of_mem r ha)) hc.2
      obtain ⟨y, hy, hxy, hyx⟩ := exists_coord_eq (hsource s List.mem_cons_self)
        (htarget r List.mem_cons_self) hdvd hc.1
      refine ⟨y :: ds, ⟨hy, hwithin⟩, ?_, ?_⟩
      · exact congrArg₂ List.cons hxy hthere
      · exact congrArg₂ List.cons hyx hback

/-- Where the cells of a lattice are divided, no value is lost. -/
theorem resampled_resampled {part : Array ℝ} (hpart : part.size = size source) :
    resampled target source (resampled source target part) = part := by
  refine eq_of_vectorOf_eq (size_resampled _ _ _) hpart ?_
  rw [vectorOf_resampled, vectorOf_resampled]
  funext j
  obtain ⟨d, hd, hthere, hback⟩ := exists_coords_eq hsource htarget h
    (within_coordsOf (fun r hr => Nat.zero_lt_of_lt (hsource r hr)) j)
  rw [← coordsOf_nodeOf hd] at hthere hback
  rw [carried_of_placesIn_eq (j := ⟨nodeOf target d, nodeOf_lt_size hd⟩) _ hthere,
    carried_of_placesIn_eq _ hback]

end Finer

section Between

variable {source target : List ℕ} (hlen : source.length = target.length)
  (hsource : ∀ r ∈ source, 2 ≤ r) (htarget : ∀ r ∈ target, 2 ≤ r) (hne : source ≠ [])

include hlen hsource htarget hne

/-- All values lie between any bounds of the values given. -/
theorem resampled_between {part : Array ℝ} (hpart : part.size = size source) {lo hi : ℝ}
    (h : ∀ v ∈ part, lo ≤ v ∧ v ≤ hi) : ∀ v ∈ resampled source target part, lo ≤ v ∧ v ≤ hi := by
  intro v hv
  obtain ⟨i, -, rfl⟩ := List.mem_map.mp (List.mem_toArray.mp hv)
  refine carried_between hlen hsource htarget hne (fun j => ?_) i
  rw [vectorOf_apply hpart]
  exact h _ (Array.getElem_mem _)

end Between

/-! ## Arrays -/

section Arrays

variable {source target : List ℕ} (hsource : ∀ r ∈ source, 2 ≤ r) (hne : source ≠ [])
  {x : Dense ℝ} {rest : List ℕ} (hshape : x.shape = size source :: rest)
  (hdata : x.data.size = size x.shape)

include hsource hne hshape hdata

/-- Resampling treats the vectors of an array alike. -/
theorem resampleArray?_eq (hlen : source.length = target.length) (htarget : ∀ r ∈ target, 2 ≤ r)
    {parts : List (Array ℝ)} (hparts : x.components? = some parts) :
    resampleArray? source target x =
      .ok (.ofComponents (size target) rest (parts.map (resampled source target))) := by
  have hsizes := Dense.size_of_mem_components? hshape hdata hparts
  have hzero : (Array.replicate (x.shape.headD 0) (0 : ℝ)).size = size source := by
    rw [hshape, Array.size_replicate, List.headD_cons]
  have hvectors := mapM_eq_ok_map (g := resampled source target) fun part hpart =>
    sampleCells?_eq hlen hsource htarget hne (hsizes part hpart)
  unfold resampleArray?
  rw [cellsIn?_eq hlen hne, ok_bind, hparts, require_some, ok_bind,
    sampleCells?_eq hlen hsource htarget hne hzero, hvectors, hshape]
  rfl

/-- Resampled to its own lattice, an array stays as it is. -/
theorem resampleArray?_self : resampleArray? source source x = .ok x := by
  obtain ⟨parts, hparts⟩ : ∃ parts, x.components? = some parts := ⟨_, Dense.components?_eq hshape⟩
  have hsizes := Dense.size_of_mem_components? hshape hdata hparts
  rw [resampleArray?_eq hsource hne hshape hdata rfl hsource hparts,
    List.map_congr_left fun part hpart => resampled_self hsource (hsizes part hpart),
    List.map_id', Dense.ofComponents_of_components? hshape hdata hparts]

/-- Resampled to a lattice that divides the cells and back, an array is what it was. -/
theorem resampleArray?_there_and_back (htarget : ∀ r ∈ target, 2 ≤ r)
    (h : List.Forall₂ (fun s r => s - 1 ∣ r - 1) source target) {out : Dense ℝ}
    (hout : resampleArray? source target x = .ok out) :
    resampleArray? target source out = .ok x := by
  obtain ⟨parts, hparts⟩ : ∃ parts, x.components? = some parts := ⟨_, Dense.components?_eq hshape⟩
  have hsizes := Dense.size_of_mem_components? hshape hdata hparts
  have hlen := h.length_eq
  have htargetne : target ≠ [] := by
    rwa [ne_eq, ← List.length_eq_zero_iff, ← hlen, List.length_eq_zero_iff]
  obtain rfl := Except.ok.inj ((resampleArray?_eq hsource hne hshape hdata hlen
    htarget hparts).symm.trans hout)
  have hall := size_of_mem_map_resampled source target parts
  have hnumber : (parts.map (resampled source target)).length = size rest := by
    rw [List.length_map, Dense.length_of_components? hshape hparts]
  have hback : parts.map (resampled target source ∘ resampled source target) = parts :=
    (List.map_congr_left fun part hpart =>
      resampled_resampled hsource htarget h (hsizes part hpart)).trans (List.map_id parts)
  rw [resampleArray?_eq htarget htargetne rfl (Dense.size_ofComponents hall hnumber) hlen.symm
      hsource (Dense.components?_ofComponents hall hnumber),
    List.map_map, hback, Dense.ofComponents_of_components? hshape hdata hparts]

end Arrays

/-! ## The matrix -/

namespace Grid

section Nodes

variable {g t : Grid ℝ} (hg : g.Divides) (ht : t.Divides) (hlow : t.low = g.low)
  (hhigh : t.high = g.high)

include hg ht hlow hhigh

/-- The interpolation matrix at the nodes of another grid over the box has the product that
resampling gives. -/
theorem Interpolates.mulVec_nodes {W : SparseMatrix ℝ}
    (h : g.Interpolates ((List.range (size t.res)).map t.nodeAt) W) (part : Array ℝ) :
    W.mulVec part = resampled g.res t.res part := by
  have hsize : ((List.range (size t.res)).map t.nodeAt).length = size t.res := by
    rw [List.length_map, List.length_range]
  refine eq_of_vectorOf_eq ((SparseMatrix.size_mulVec W _).trans h.tidy.rows)
    ((size_resampled _ _ _).trans hsize.symm) ?_
  funext n
  rw [h.vectorOf_mulVec, vectorOf_apply ((size_resampled _ _ _).trans hsize.symm)]
  simp only [Fin.getElem_fin, List.getElem_map, List.getElem_range, resampled, arrayOf,
    List.getElem_toArray, hg.placeOf_nodeAt ht hlow hhigh]
  rfl

/-- Resampling an array is the product with the interpolation matrix at the nodes of another grid
over the box. -/
theorem Divides.resampleArray?_eq_mulVec {x : Dense ℝ} {rest : List ℕ}
    (hshape : x.shape = size g.res :: rest) (hdata : x.data.size = size x.shape) :
    ∃ nodes cells W parts out, t.nodePositions? = some nodes ∧ g.locate? nodes = .ok cells ∧
      cellMatrix? g.res cells = .ok W ∧ x.components? = some parts ∧
      resampleArray? g.res t.res x = .ok out ∧
      out = .ofComponents (size t.res) rest (parts.map W.mulVec) ∧
      out.components? = some (parts.map W.mulVec) ∧
      (rest.length ≤ 1 → W.mulDense? x = some out) ∧
      (∀ part ∈ parts, ∀ lo hi, (∀ v ∈ part, lo ≤ v ∧ v ≤ hi) →
        ∀ v ∈ W.mulVec part, lo ≤ v ∧ v ≤ hi) ∧
      (t.res = g.res → out = x) ∧
      (List.Forall₂ (fun s r => s - 1 ∣ r - 1) g.res t.res →
        resampleArray? t.res g.res out = .ok x) := by
  have hlen : g.res.length = t.res.length := by rw [← hg.low, ← ht.low, hlow]
  have hnodes : ∀ p ∈ (List.range (size t.res)).map t.nodeAt, InBox g.low g.high p := by
    intro p hp
    obtain ⟨i, -, rfl⟩ := List.mem_map.mp hp
    rw [← hlow, ← hhigh]
    exact ht.inBox_nodeAt i
  obtain ⟨W, hW, hrows⟩ := exists_interpolates hg.axes (hg.forall₂_holds hnodes)
  obtain ⟨parts, hparts⟩ : ∃ parts, x.components? = some parts := ⟨_, Dense.components?_eq hshape⟩
  have hsizes := Dense.size_of_mem_components? hshape hdata hparts
  have hproduct : parts.map W.mulVec = parts.map (resampled g.res t.res) :=
    List.map_congr_left fun part _ => hrows.mulVec_nodes hg ht hlow hhigh part
  have hall : ∀ part ∈ parts.map W.mulVec, part.size = size t.res :=
    hproduct ▸ size_of_mem_map_resampled g.res t.res parts
  have hnumber : (parts.map W.mulVec).length = size rest := by
    rw [List.length_map, Dense.length_of_components? hshape hparts]
  have hout := resampleArray?_eq hg.nodes hg.axes hshape hdata hlen ht.nodes hparts
  rw [← hproduct] at hout
  refine ⟨_, _, W, parts, _, ht.nodePositions?_eq, hg.locate?_eq hnodes, hW, hparts, hout, rfl,
    Dense.components?_ofComponents hall hnumber, fun hrank => ?_,
    fun part hpart lo hi hbounds => ?_, fun hres => ?_, fun hdvd => ?_⟩
  · have hsize : W.rows.size = size t.res := by
      rw [hrows.tidy.rows, List.length_map, List.length_range]
    unfold SparseMatrix.mulDense? Dense.rank
    rw [hparts, hsize, hshape, hrows.tidy.columns, if_neg (by simp; omega)]
    rfl
  · rw [hrows.mulVec_nodes hg ht hlow hhigh]
    exact resampled_between hlen hg.nodes ht.nodes hg.axes (hsizes part hpart) hbounds
  · have hself := resampleArray?_self hg.nodes hg.axes hshape hdata
    rw [hres] at hout
    rw [hres]
    exact Except.ok.inj (hout.symm.trans hself)
  · exact resampleArray?_there_and_back hg.nodes hg.axes hshape hdata ht.nodes hdvd hout

end Nodes

/-- Twice as many cells along both axes of a square. -/
theorem Divides.resampleArray?_eq_mulVec_halved :
    ∃ g t : Grid ℝ, constant? [0, 0] [1, 1] [2, 3] 1 [none, none] 0 = some g ∧
      constant? [0, 0] [1, 1] [3, 5] 1 [none, none] 0 = some t ∧
      ∃ nodes cells W out, t.nodePositions? = some nodes ∧ g.locate? nodes = .ok cells ∧
        cellMatrix? g.res cells = .ok W ∧
        W.mulDense? (.vector [0, 1, -1, 0.5, 1, 0]) = some out ∧
        resampleArray? [2, 3] [3, 5] (.vector [0, 1, -1, 0.5, 1, 0]) = .ok out ∧
        resampleArray? [3, 5] [2, 3] out = .ok (.vector [0, 1, -1, 0.5, 1, 0]) := by
  have hbounds : List.Forall₂ (· < ·) [(0 : ℝ), 0] [1, 1] := by norm_num
  obtain ⟨g, hg, hdivides, hres, hlow, hhigh⟩ := exists_constant?_divides hbounds
    (show 2 = [2, 3].length from rfl) (by simp) (by simp) 1 [none, none] 0
  obtain ⟨t, ht, hfiner, hres', hlow', hhigh'⟩ := exists_constant?_divides hbounds
    (show 2 = [3, 5].length from rfl) (by simp) (by simp) 1 [none, none] 0
  have hshape : (Dense.vector [(0 : ℝ), 1, -1, 0.5, 1, 0]).shape = size g.res :: [] := by
    rw [hres]
    rfl
  obtain ⟨nodes, cells, W, parts, out, hnodes, hcells, hW, -, hout, -, -, hproduct, -, -, hback⟩ :=
    hdivides.resampleArray?_eq_mulVec hfiner (hlow'.trans hlow.symm) (hhigh'.trans hhigh.symm)
      hshape rfl
  rw [hres, hres'] at hout hback
  exact ⟨g, t, hg, ht, nodes, cells, W, out, hnodes, hcells, hW, hproduct (by simp), hout,
    hback (by norm_num)⟩

end Grid

end GridSpline
