import Mathlib
import GridSpline.Proofs.Curvature.Capture
import GridSpline.Proofs.Curvature.Straight
import GridSpline.Proofs.Dense.Components
import GridSpline.Proofs.Equations.Affine
import GridSpline.Proofs.Fit.Ready
import GridSpline.Proofs.Interpolation.MultiAffine
import GridSpline.Proofs.Motion.Filter

/-!
# The filter as linear passes

A pass along an axis is a linear map of node values. It works on every line of the axis by itself
and in the same way, and there it keeps straight lines and the ends of all lines. So the whole
filter, which makes a pass along each axis in any order, keeps values that are straight along every
axis, and it keeps all values at the corners of the lattice.

## Main definitions

* `KeepsLines` — maps of the values of a line that keep straight lines and ends.
* `WorksAlong` — maps of node values that work on the lines of an axis.
* `lineFilter`, `passAlong` — the filter of a line, and the pass along an axis.
* `IsCorner` — the nodes at the ends of all axes.

## Main statements

* `keepsLines_lineFilter`, `worksAlong_passAlong` — what one pass does.
* `vectorOf_filtered` — the passes along all axes.
* `exists_passes_filterArray?` — the filter of an array.
-/

namespace GridSpline

open Matrix
open GridSpline.Lattice

variable {n : ℕ}

/-! ## Lines of node values -/

/-- A map of the values of a line that keeps straight lines, and the ends of all lines. -/
structure KeepsLines (L : (Fin n → ℝ) →ₗ[ℝ] Fin n → ℝ) : Prop where
  straight : ∀ p q : ℝ, L (fun k : Fin n => p + q * (k : ℕ)) = fun k : Fin n => p + q * (k : ℕ)
  ends : ∀ (u : Fin n → ℝ) (k : Fin n), (k : ℕ) = 0 ∨ (k : ℕ) + 1 = n → L u k = u k

/-- The value of a node depends linearly on the node values. -/
noncomputable def valueAt (n : ℕ) (i : ℤ) : (Fin n → ℝ) →ₗ[ℝ] ℝ where
  toFun x := nodeValue x i
  map_add' x y := by
    unfold nodeValue
    split
    · rfl
    · rw [add_zero]
  map_smul' c x := by
    unfold nodeValue
    split
    · rfl
    · rw [smul_zero]

theorem valueAt_fin (x : Fin n → ℝ) (i : Fin n) : valueAt n (i : ℕ) x = x i :=
  nodeValue_fin x i

/-- The values of the line through a node. -/
noncomputable def lineThrough (n : ℕ) (a : Axis) (i : ℕ) : (Fin n → ℝ) →ₗ[ℝ] Fin a.count → ℝ :=
  LinearMap.pi fun p => valueAt n (lineNode a i p : ℕ)

/-- A map of node values works on every line of an axis by itself, and in the same way. -/
def WorksAlong (a : Axis) (F : (Fin n → ℝ) →ₗ[ℝ] Fin n → ℝ)
    (L : (Fin a.count → ℝ) →ₗ[ℝ] Fin a.count → ℝ) : Prop :=
  ∀ x, ∀ i < n, lineThrough n a i (F x) = L (lineThrough n a i x)

section Line

variable {res : List ℕ} {a : Axis} (hres : ∀ r ∈ res, 2 ≤ r) (ha : a ∈ axes res)

theorem lineThrough_apply (x : Fin n → ℝ) (i : ℕ) (p : Fin a.count) :
    lineThrough n a i x p = valueAt n (lineNode a i p : ℕ) x := rfl

include hres ha

theorem coord_lineNode {i : ℕ} (hi : i < size res) {p : ℕ} (hp : p < a.count) :
    a.coord (lineNode a i p) = p := by
  have hpos : ∀ r ∈ res, 0 < r := fun r hr => by have := hres r hr; omega
  have hget := getElem?_coordsOf ha (lineNode a i p)
  have hlen : a.index < (coordsOf res i).length := by
    rw [length_coordsOf]
    exact index_lt ha
  rw [coordsOf_lineNode hpos ha hi hp, List.getElem?_set_self hlen, Option.some.injEq] at hget
  exact hget.symm

/-- All nodes of a line have the same line. -/
theorem lineThrough_lineNode {i : ℕ} (hi : i < size res) {p : ℕ} (hp : p < a.count) :
    lineThrough n a (lineNode a i p) = lineThrough n a i := by
  refine LinearMap.ext fun x => funext fun q => ?_
  have hsame : lineNode a (lineNode a i p) q = lineNode a i q := by
    unfold lineNode at *
    have hcoord := coord_lineNode hres ha hi hp
    unfold lineNode at hcoord
    rw [hcoord, Nat.add_sub_cancel]
  rw [lineThrough_apply, lineThrough_apply, hsame]

/-- A node is found on its line at its coordinate. -/
theorem lineThrough_coord (x : Fin n → ℝ) (i : Fin n) :
    lineThrough n a i x ⟨a.coord i, coord_lt hres ha⟩ = x i := by
  rw [lineThrough_apply]
  simp only [lineNode_coord]
  exact valueAt_fin x i

/-- What works on the lines of an axis and keeps their ends, keeps values at ends. -/
theorem WorksAlong.apply_end {F : (Fin n → ℝ) →ₗ[ℝ] Fin n → ℝ}
    {L : (Fin a.count → ℝ) →ₗ[ℝ] Fin a.count → ℝ} (hF : WorksAlong a F L) (hL : KeepsLines L)
    (x : Fin n → ℝ) {i : Fin n} (hi : a.coord i = 0 ∨ a.coord i + 1 = a.count) : F x i = x i := by
  rw [← lineThrough_coord hres ha (F x) i, hF x i i.isLt, hL.ends _ _ hi,
    lineThrough_coord hres ha]

/-- What works on the lines of an axis and keeps straight lines, keeps values that are straight. -/
theorem WorksAlong.apply_of_isAffineAlong {F : (Fin (size res) → ℝ) →ₗ[ℝ] Fin (size res) → ℝ}
    {L : (Fin a.count → ℝ) →ₗ[ℝ] Fin a.count → ℝ} (hF : WorksAlong a F L) (hL : KeepsLines L)
    {x : Fin (size res) → ℝ} (hx : IsAffineAlong res a none x) : F x = x := by
  funext i
  have hi := i.isLt
  obtain ⟨start, hstart, hline⟩ := exists_lineStart a i
  obtain ⟨p, q, hpq⟩ := hx start (by omega) hstart
  have hstraight : lineThrough (size res) a i x =
      fun k : Fin a.count => p + q * (k : ℕ) := by
    funext k
    have hnode : lineNode a i k = start + k * a.stride := by
      unfold lineNode
      omega
    rw [lineThrough_apply, hnode]
    exact hpq k k.isLt
  rw [← lineThrough_coord hres ha (F x) i, hF x i hi, hstraight, hL.straight, ← hstraight,
    lineThrough_coord hres ha]

end Line

/-! ## The filter of a line -/

/-- The filter of a line. Every value is a combination of the values of the line. -/
noncomputable def lineFilter (k : Kernel ℝ) (n : ℕ) : (Fin n → ℝ) →ₗ[ℝ] Fin n → ℝ :=
  Matrix.mulVecLin fun place p => filteredAt k n (Pi.single (p : ℕ) 1) place

section Kernel

variable {k : Kernel ℝ} (hk : k.IsCentred n)

include hk

theorem lineFilter_apply (u : ℕ → ℝ) (place : Fin n) :
    lineFilter k n (fun p => u p) place = filteredAt k n u place := by
  rw [filteredAt_eq_sum_single hk u place.isLt, ← Fin.sum_univ_eq_sum_range
    fun p => u p * filteredAt k n (Pi.single p 1) place]
  show ∑ p : Fin n, filteredAt k n (Pi.single (p : ℕ) 1) place * u p = _
  exact Finset.sum_congr rfl fun p _ => mul_comm (filteredAt k n _ place) (u p)

theorem keepsLines_lineFilter (hsum : k.weights.sum = 1) : KeepsLines (lineFilter k n) where
  straight p q := by
    funext place
    rw [lineFilter_apply hk fun j => p + q * j]
    exact filteredAt_affine hk hsum (fun _ _ => rfl) place.isLt
  ends u place hend := by
    have hu : u = fun p : Fin n => nodeValue u (p : ℕ) := funext fun p => (nodeValue_fin u p).symm
    rw [hu, lineFilter_apply hk fun j => nodeValue u (j : ℕ)]
    exact filteredAt_end hk hsum _ hend

end Kernel

/-! ## Passes -/

/-- The pass along an axis. -/
noncomputable def passAlong (n : ℕ) (a : Axis) (k : Kernel ℝ) : (Fin n → ℝ) →ₗ[ℝ] Fin n → ℝ :=
  LinearMap.pi fun i =>
    valueAt a.count (a.coord i) ∘ₗ lineFilter k a.count ∘ₗ lineThrough n a i

section Pass

variable {res : List ℕ} {a : Axis} (hres : ∀ r ∈ res, 2 ≤ r) (ha : a ∈ axes res)

include hres ha

/-- A pass works on every line by itself. -/
theorem worksAlong_passAlong (k : Kernel ℝ) :
    WorksAlong a (passAlong (size res) a k) (lineFilter k a.count) := by
  intro x i hi
  funext p
  have hnode := lineNode_lt_size ha hi p.isLt
  rw [lineThrough_apply, valueAt_fin _ ⟨lineNode a i p, hnode⟩]
  show valueAt a.count (a.coord (lineNode a i p))
    (lineFilter k a.count (lineThrough (size res) a (lineNode a i p) x)) = _
  rw [coord_lineNode hres ha hi p.isLt, lineThrough_lineNode hres ha hi p.isLt, valueAt_fin]

/-- The pass is the filter along the axis. -/
theorem vectorOf_filterAlong {k : Kernel ℝ} (hk : k.IsCentred a.count) (x : Array ℝ) :
    vectorOf (size res) (filterAlong (size res) a k x) =
      passAlong (size res) a k (vectorOf (size res) x) := by
  funext i
  have hi := i.isLt
  have hline : lineThrough (size res) a i (vectorOf (size res) x) =
      fun p : Fin a.count => x.getD (lineNode a i p) 0 := by
    funext p
    have hnode := lineNode_lt_size ha hi p.isLt
    rw [lineThrough_apply, valueAt_fin _ ⟨lineNode a i p, hnode⟩]
    rfl
  show (filterAlong (size res) a k x).getD i 0 = valueAt a.count (a.coord i)
    (lineFilter k a.count (lineThrough (size res) a i (vectorOf (size res) x)))
  rw [getD_filterAlong a k x hi, hline, valueAt_fin _ ⟨a.coord i, coord_lt hres ha⟩,
    lineFilter_apply hk fun p => x.getD (lineNode a i p) 0]

end Pass

/-! ## All axes -/

/-- The kernel of an axis. -/
noncomputable def kernelAlong (res : List ℕ) (stdev : ℝ) (symmetric : Bool) (a : Axis) :
    Kernel ℝ :=
  kernelOf stdev a.count (⌊(latticeScales symmetric res : List ℝ).getD a.index 0⌋ : ℤ)

theorem scaledAxes_eq (res : List ℕ) (symmetric : Bool) : scaledAxes res symmetric =
    (axes res).map fun a => (a, (latticeScales symmetric res : List ℝ).getD a.index 0) := by
  have hscales := length_latticeScales symmetric res
  have haxes : (axes res).length = res.length := length_axesFrom 0 1 res
  unfold scaledAxes
  refine List.ext_getElem (by simp [hscales, haxes]) fun e h1 h2 => ?_
  have he : e < (axes res).length := by simpa using h2
  have hindex : ((axes res)[e]).index = e :=
    (mem_axes_of_getElem? (List.getElem?_eq_getElem he)).2
  rw [List.getElem_zip, List.getElem_map, hindex, List.getD_eq_getElem]

/-- The nodes at the ends of all axes. -/
def IsCorner (res : List ℕ) (i : ℕ) : Prop :=
  ∀ a ∈ axes res, a.coord i = 0 ∨ a.coord i + 1 = a.count

section Lattice

variable {res : List ℕ} (hres : ∀ r ∈ res, 2 ≤ r) {stdev : ℝ} (h : stdev ≠ 0) (symmetric : Bool)

include hres

/-- The passes along all axes, in any order. -/
theorem vectorOf_filtered {order : List Axis} (horder : order.Perm (axes res)) (x : Array ℝ) :
    vectorOf (size res) (filtered (size res) stdev (scaledAxes res symmetric) x) =
      order.foldl (fun v a => passAlong (size res) a (kernelAlong res stdev symmetric a) v)
        (vectorOf (size res) x) := by
  have hscaled := (horder.map fun a =>
    (a, (latticeScales symmetric res : List ℝ).getD a.index 0)).symm
  rw [← scaledAxes_eq] at hscaled
  rw [filtered_perm hres stdev symmetric hscaled, filtered, List.foldl_map]
  have hmem : ∀ a ∈ order, a ∈ axes res := fun a ha => horder.mem_iff.mp ha
  clear horder hscaled
  induction order generalizing x with
  | nil => rfl
  | cons a order ih =>
    have ha := hmem a List.mem_cons_self
    have hk := isCentred_kernelOf stdev (hres _ (count_mem ha))
      (⌊(latticeScales symmetric res : List ℝ).getD a.index 0⌋ : ℤ)
    rw [List.foldl_cons, List.foldl_cons, ih (filterAlong (size res) a _ x)
      fun b hb => hmem b (List.mem_cons_of_mem a hb), vectorOf_filterAlong hres ha hk]
    rfl

include h

theorem keepsLines_kernelAlong {a : Axis} (ha : a ∈ axes res) :
    KeepsLines (lineFilter (kernelAlong res stdev symmetric a) a.count) :=
  keepsLines_lineFilter (isCentred_kernelOf stdev (hres _ (count_mem ha)) _)
    (sum_weights_kernelOf h _ _)

/-- Values at corners are kept. -/
theorem getElem?_filtered_of_isCorner {x : Array ℝ} (hx : x.size = size res) {i : ℕ}
    (hi : i < size res) (hcorner : IsCorner res i) :
    (filtered (size res) stdev (scaledAxes res symmetric) x)[i]? = x[i]? := by
  have hsize := size_filtered stdev (scaledAxes res symmetric) hx
  have hvector : vectorOf (size res) (filtered (size res) stdev (scaledAxes res symmetric) x)
      ⟨i, hi⟩ = vectorOf (size res) x ⟨i, hi⟩ := by
    rw [vectorOf_filtered hres symmetric (List.Perm.refl _)]
    refine List.foldlRecOn
      (motive := fun v : Fin (size res) → ℝ => v ⟨i, hi⟩ = vectorOf (size res) x ⟨i, hi⟩) _ _ rfl
      fun v hv a ha => ?_
    have hpass := worksAlong_passAlong hres ha (kernelAlong res stdev symmetric a)
    rw [hpass.apply_end hres ha (keepsLines_kernelAlong hres h symmetric ha) v (hcorner a ha), hv]
  rw [vectorOf_apply hsize, vectorOf_apply hx] at hvector
  rw [Array.getElem?_eq_getElem (hsize.symm ▸ hi), Array.getElem?_eq_getElem (hx.symm ▸ hi)]
  exact congrArg some hvector

/-- Values that are straight along every axis are kept. -/
theorem filtered_of_isAffineAlong {x : Array ℝ} (hx : x.size = size res)
    (haffine : ∀ a ∈ axes res, IsAffineAlong res a none (vectorOf (size res) x)) :
    filtered (size res) stdev (scaledAxes res symmetric) x = x := by
  refine eq_of_vectorOf_eq (size_filtered stdev _ hx) hx ?_
  rw [vectorOf_filtered hres symmetric (List.Perm.refl _)]
  refine List.foldlRecOn (motive := (· = vectorOf (size res) x)) _ _ rfl fun v hv a ha => ?_
  have hpass := worksAlong_passAlong hres ha (kernelAlong res stdev symmetric a)
  rw [hv, hpass.apply_of_isAffineAlong hres ha (keepsLines_kernelAlong hres h symmetric ha)
    (haffine a ha)]

end Lattice

/-! ## Arrays -/

/-- What the filter makes of one component: the passes along all axes, in whichever order they are
made, and what they leave. -/
structure IsFilteredTo (res : List ℕ) (F : Axis → (Fin (size res) → ℝ) →ₗ[ℝ] Fin (size res) → ℝ)
    (x y : Array ℝ) : Prop where
  size_eq : x.size = size res ∧ y.size = size res
  passes : ∀ order : List Axis, order.Perm (axes res) →
    vectorOf (size res) y = order.foldl (fun v a => F a v) (vectorOf (size res) x)
  corners : ∀ i < size res, IsCorner res i → y[i]? = x[i]?
  straight : (∀ a ∈ axes res, IsAffineAlong res a none (vectorOf (size res) x)) → y = x

/-- The filter of an array is that of its components. -/
theorem filterArray?_eq {res : List ℕ} (hne : res ≠ []) (hres : ∀ r ∈ res, 2 ≤ r) {stdev : ℝ}
    (h : stdev ≠ 0) (symmetric : Bool) {ccv : Dense ℝ} {rest : List ℕ} {parts : List (Array ℝ)}
    (hshape : ccv.shape = size res :: rest) (hdata : ccv.data.size = size ccv.shape)
    (hparts : ccv.components? = some parts) : filterArray? res stdev symmetric ccv =
      .ok (.ofComponents (size res) rest (filteredCurvature res stdev symmetric parts)) := by
  have hflat : ({ shape := size res :: rest, data := ccv.data } : Dense ℝ) = ccv := by
    rw [← hshape]
  unfold filterArray?
  simp only [hshape, List.drop_one, List.tail_cons]
  rw [scaleResolutions?_scalars hne, hflat, hparts, hdata, hshape, if_neg (not_not_intro rfl)]
  show (do
    let part ← filterCurvature? res stdev symmetric parts
    pure (Dense.ofComponents (size res) rest part)) = _
  rw [filterCurvature?_eq hne hres h symmetric (Dense.size_of_mem_components? hshape hdata hparts)]
  rfl

/-- The filter of an array. Along every axis all components go through the same pass, and where all
of them are straight along all axes the array is returned as it is. -/
theorem exists_passes_filterArray? {res : List ℕ} (hne : res ≠ []) (hres : ∀ r ∈ res, 2 ≤ r)
    {stdev : ℝ} (h : stdev ≠ 0) (symmetric : Bool) :
    (∀ s ∈ (latticeScales symmetric res : List ℝ), 1 < ⌊s⌋) ∧
    ∃ F : Axis → (Fin (size res) → ℝ) →ₗ[ℝ] Fin (size res) → ℝ,
      (∀ a ∈ axes res, ∃ L, KeepsLines L ∧ WorksAlong a (F a) L) ∧
      ∀ (ccv : Dense ℝ) (rest : List ℕ), ccv.shape = size res :: rest →
        ccv.data.size = size ccv.shape → ∃ out parts parts',
          filterArray? res stdev symmetric ccv = .ok out ∧
          out.shape = ccv.shape ∧ out.data.size = size out.shape ∧
          ccv.components? = some parts ∧ out.components? = some parts' ∧
          List.Forall₂ (IsFilteredTo res F) parts parts' ∧
          ((∀ x ∈ parts, ∀ a ∈ axes res, IsAffineAlong res a none (vectorOf (size res) x)) →
            out = ccv) := by
  refine ⟨fun s hs => ?_, fun a => passAlong (size res) a (kernelAlong res stdev symmetric a),
    fun a ha => ⟨_, keepsLines_kernelAlong hres h symmetric ha, worksAlong_passAlong hres ha _⟩,
    fun ccv rest hshape hdata => ?_⟩
  · have htwo : (2 : ℤ) ≤ ⌊s⌋ := Int.le_floor.mpr (by exact_mod_cast two_le_latticeScales hres hs)
    omega
  · obtain ⟨parts, hparts⟩ : ∃ parts, ccv.components? = some parts :=
      ⟨_, Dense.components?_eq hshape⟩
    have hlen := Dense.length_of_components? hshape hparts
    have hsize := Dense.size_of_mem_components? hshape hdata hparts
    have hsize' : ∀ y ∈ filteredCurvature res stdev symmetric parts, y.size = size res := by
      intro y hy
      obtain ⟨x, hx, rfl⟩ := List.mem_map.mp hy
      exact size_filtered stdev _ (hsize x hx)
    have hlen' : (filteredCurvature res stdev symmetric parts).length = size rest :=
      (List.length_map _).trans hlen
    have hout := filterArray?_eq hne hres h symmetric hshape hdata hparts
    have hkept : ∀ x ∈ parts, (∀ a ∈ axes res, IsAffineAlong res a none (vectorOf (size res) x)) →
        filtered (size res) stdev (scaledAxes res symmetric) x = x :=
      fun x hx => filtered_of_isAffineAlong hres h symmetric (hsize x hx)
    refine ⟨_, parts, _, hout, hshape.symm, Dense.size_ofComponents hsize' hlen', hparts,
      Dense.components?_ofComponents hsize' hlen', ?_, fun haffine => ?_⟩
    · refine List.forall₂_map_right_iff.mpr (List.forall₂_same.mpr fun x hx => ⟨⟨hsize x hx,
        size_filtered stdev _ (hsize x hx)⟩, fun order horder => ?_, fun i hi hcorner => ?_,
        hkept x hx⟩)
      · exact vectorOf_filtered hres symmetric horder x
      · exact getElem?_filtered_of_isCorner hres h symmetric (hsize x hx) hi hcorner
    · have hsame : filteredCurvature res stdev symmetric parts = parts :=
        (List.map_congr_left fun x hx => hkept x hx (haffine x hx)).trans (List.map_id' parts)
      rw [hsame, Dense.ofComponents_of_components? hshape hdata hparts]

/-- One component is bilinear in the coordinates, and the other falls along axis 1. -/
theorem exists_passes_filterArray?_bilinear :
    [2, 3] ≠ [] ∧ (∀ r ∈ [2, 3], 2 ≤ r) ∧ (1 : ℝ) ≠ 0 ∧
    filterArray? [2, 3] 1 false ⟨[6, 2], #[0, 1, 0, 1, 0, 0, 1, 0, 0, -1, 2, -1]⟩ =
      (.ok ⟨[6, 2], #[0, 1, 0, 1, 0, 0, 1, 0, 0, -1, 2, -1]⟩ : Except (Failure ℝ) (Dense ℝ)) := by
  have hres : ∀ r ∈ [2, 3], 2 ≤ r := by decide
  refine ⟨by decide, hres, one_ne_zero, ?_⟩
  obtain ⟨-, F, -, hF⟩ :=
    exists_passes_filterArray? (by decide : [2, 3] ≠ []) hres one_ne_zero false
  obtain ⟨out, parts, parts', hout, -, -, hparts, -, -, hsame⟩ :=
    hF ⟨[6, 2], #[0, 1, 0, 1, 0, 0, 1, 0, 0, -1, 2, -1]⟩ [2] rfl rfl
  have hbilinear : vectorOf (size [2, 3]) #[0, 0, 0, 1, 0, 2] =
      nodeTrend [2, 3] [0, 0] [1, 1] fun p => p.getD 0 0 * p.getD 1 0 := by
    funext i
    fin_cases i <;> simp [vectorOf, nodeTrend, boxPoint, coordsOf]
  have hfalling : vectorOf (size [2, 3]) #[1, 1, 0, 0, -1, -1] =
      nodeTrend [2, 3] [0, 0] [1, 1] fun p => 1 - p.getD 1 0 := by
    funext i
    fin_cases i <;> norm_num [vectorOf, nodeTrend, boxPoint, coordsOf]
  have hproduct : IsMultiAffineMap 2 fun p => p.getD 0 0 * p.getD 1 0 := by
    intro p hp e he
    obtain ⟨s, t, rfl⟩ := List.length_eq_two.mp hp
    interval_cases e
    · exact ⟨0, t, fun v => by simp [mul_comm]⟩
    · exact ⟨0, s, fun v => by simp⟩
  have hslope : IsMultiAffineMap 2 fun p => 1 - p.getD 1 0 := by
    intro p hp e he
    obtain ⟨s, t, rfl⟩ := List.length_eq_two.mp hp
    interval_cases e
    · exact ⟨1 - t, 0, fun v => by simp⟩
    · exact ⟨1, -1, fun v => by simp [sub_eq_add_neg]⟩
  obtain rfl : [#[0, 0, 0, 1, 0, 2], #[1, 1, 0, 0, -1, -1]] = parts :=
    Option.some.inj ((rfl : _ = some _).trans hparts)
  rw [hout, hsame]
  intro x hx a ha
  rw [List.mem_cons, List.mem_singleton] at hx
  rcases hx with rfl | rfl
  · rw [hbilinear]
    refine isAffineAlong_nodeTrend ?_ (by decide) rfl rfl ha
    exact hproduct
  · rw [hfalling]
    refine isAffineAlong_nodeTrend ?_ (by decide) rfl rfl ha
    exact hslope

end GridSpline
