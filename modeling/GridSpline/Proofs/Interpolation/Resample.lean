import Mathlib
import GridSpline.Interpolation.Resample
import GridSpline.Proofs.Interpolation.Hat
import GridSpline.Proofs.Lattice.Line
import GridSpline.Proofs.Solver.Vector

/-!
# Node values on another lattice

Node values that are carried to another lattice are read at the places of its nodes, measured in
cells of the first lattice. So every new value is a mean of old ones, and the share of an old node
is a product of hats: it does not depend on which of two cells a node on their common face was
located in. The shares add up to one.

## Main definitions

* `placesIn` — the place of a node of another lattice.
* `share` — the share of a node at a place.
* `carried` — the values on the other lattice.

## Main statements

* `resample?_eq`, `resampleAll?_eq` — every new value is a mean of old ones.
* `sum_share` — the shares add up to one.
* `carried_between` — no value leaves the range of the values given.
* `carried_self` — on the same lattice nothing changes.
-/

namespace GridSpline

open Scalar Failure
open Matrix
open GridSpline.Lattice

/-- The place of a node of another lattice, measured in cells. -/
noncomputable def placesIn (source target coords : List ℕ) : List ℝ :=
  List.zipWith (fun part (r : ℕ) => part * ((r : ℝ) - 1))
    (List.zipWith (fun (c r : ℕ) => (c : ℝ) / ((r : ℝ) - 1)) coords target) source

/-- The share of a node at a place: a product of hats. -/
noncomputable def share (res : List ℕ) (place : List ℝ) (i : ℕ) : ℝ :=
  (List.zipWith hat place (coordsOf res i)).prod

/-- The value that a node of another lattice gets. -/
noncomputable def carried (source target : List ℕ) (x : Fin (size source) → ℝ) (i : ℕ) : ℝ :=
  ∑ j : Fin (size source), share source (placesIn source target (coordsOf target i)) j * x j

/-! ## One place -/

theorem sum_cornerWeights (parts : List ℝ) : (cornerWeights parts).sum = 1 := by
  have hpair : ∀ (t : ℝ) (l : List ℝ), (l.flatMap fun w => [(1 - t) * w, t * w]).sum = l.sum := by
    intro t l
    induction l with
    | nil => rfl
    | cons w l ih =>
      rw [List.flatMap_cons, List.sum_append, ih, List.sum_cons]
      simp only [List.sum_cons, List.sum_nil]
      ring
  induction parts with
  | nil => simp [cornerWeights]
  | cons t parts ih => rw [cornerWeights, hpair, ih]

section Place

variable {res : List ℕ} (hres : ∀ r ∈ res, 2 ≤ r) (hne : res ≠ []) {place : List ℝ}

include hres hne

variable (hplace : List.Forall₂ (fun (t : ℝ) (r : ℕ) => 0 ≤ t ∧ t ≤ (r : ℝ) - 1) place res)

include hplace

/-- The blend of the corners of a cell is a mean over all nodes. -/
theorem sum_share_mul (x : Fin (size res) → ℝ) : ∑ i : Fin (size res), share res place i * x i =
    (List.zipWith (fun o w => w * nodeValue x ((Cell.ofPlace res place).base + o))
      (cornerOffsets ((strides res).map Int.ofNat))
      (cornerWeights (Cell.ofPlace res place).fraction)).sum := by
  have hform : (fun i : Fin (size res) => combination (Cell.ofPlace res place).base
      ((cornerOffsets ((strides res).map Int.ofNat)).zip
        (cornerWeights (Cell.ofPlace res place).fraction)) i) =
      fun i : Fin (size res) => share res place i := by
    funext i
    exact Cell.combination_ofPlace hres hplace hne i.isLt
  have hsum := dotProduct_combination (Cell.ofPlace res place).base
    ((cornerOffsets ((strides res).map Int.ofNat)).zip
      (cornerWeights (Cell.ofPlace res place).fraction)) x
  rw [hform] at hsum
  rw [← List.map_uncurry_zip_eq_zipWith]
  exact hsum

/-- The shares add up to one. -/
theorem sum_share : ∑ i : Fin (size res), share res place i = 1 := by
  have hlen : (cornerOffsets ((strides res).map Int.ofNat)).length =
      (cornerWeights (Cell.ofPlace res place).fraction).length := by
    rw [length_cornerOffsets, length_cornerWeights, List.length_map, length_strides hne,
      Cell.length_fraction_ofPlace hplace.length_eq]
  have hone := sum_share_mul hres hne hplace fun _ => 1
  simp only [mul_one] at hone
  have hweights : List.zipWith (fun o w => w * nodeValue (fun _ : Fin (size res) => (1 : ℝ))
      ((Cell.ofPlace res place).base + o)) (cornerOffsets ((strides res).map Int.ofNat))
      (cornerWeights (Cell.ofPlace res place).fraction) =
        cornerWeights (Cell.ofPlace res place).fraction := by
    refine List.ext_getElem (by rw [List.length_zipWith, hlen, min_self]) fun j h1 h2 => ?_
    have hnode := (Cell.holds_ofPlace hres hplace).corner_mem hne
      (List.getElem_mem (l := cornerOffsets ((strides res).map Int.ofNat)) (n := j) (by omega))
    rw [List.getElem_zipWith, nodeValue, dif_pos hnode, mul_one]
  rw [hone, hweights, sum_cornerWeights]

end Place

/-- No node has a negative share. -/
theorem share_nonneg (res : List ℕ) (place : List ℝ) (i : ℕ) : 0 ≤ share res place i := by
  refine List.prod_nonneg fun v hv => ?_
  obtain ⟨e, he, rfl⟩ := List.mem_iff_getElem.mp hv
  rw [List.getElem_zipWith]
  exact le_max_right _ _

/-- At a node that node has the whole share. -/
theorem share_node (res : List ℕ) (i j : Fin (size res)) :
    share res ((coordsOf res i).map fun c : ℕ => (c : ℝ)) j = if i = j then 1 else 0 := by
  unfold share
  by_cases hij : i = j
  · subst hij
    have hpeak : ∀ c : ℕ, hat c c = 1 := fun c => by simp [hat]
    rw [if_pos rfl, List.zipWith_map_left, List.zipWith_self]
    simp [hpeak]
  · rw [if_neg hij]
    by_contra hshare
    rw [← ne_eq, prod_hat_ne_zero_iff (by rw [List.length_map, length_coordsOf, length_coordsOf]),
      List.forall₂_map_left_iff] at hshare
    -- Two coordinates that are less than one cell apart are the same.
    have hcoords : coordsOf res i = coordsOf res j := by
      refine List.forall₂_eq_eq_eq ▸ hshare.imp fun c d hcd => ?_
      rw [abs_lt] at hcd
      have h1 : c < d + 1 := by exact_mod_cast (by linarith : (c : ℝ) < d + 1)
      have h2 : d < c + 1 := by exact_mod_cast (by linarith : (d : ℝ) < c + 1)
      omega
    exact hij (Fin.ext (eq_of_coordsOf_eq i.isLt j.isLt hcoords))

/-- A node of another lattice that is at a node of the first one gets its value. -/
theorem carried_of_placesIn_eq {source target : List ℕ} (x : Fin (size source) → ℝ)
    {i : ℕ} {j : Fin (size source)}
    (h : placesIn source target (coordsOf target i) =
      (coordsOf source j).map fun c : ℕ => (c : ℝ)) :
    carried source target x i = x j := by
  unfold carried
  simp only [h, share_node, ite_mul, one_mul, zero_mul, Finset.sum_ite_eq, Finset.mem_univ, if_true]

/-! ## All nodes -/

section Resample

variable {source target : List ℕ} (hlen : source.length = target.length)
  (hsource : ∀ r ∈ source, 2 ≤ r) (htarget : ∀ r ∈ target, 2 ≤ r) (hne : source ≠ [])

include hlen in
theorem length_placesIn {coords : List ℕ} (hcoords : coords.length = target.length) :
    (placesIn source target coords).length = source.length := by
  unfold placesIn
  rw [List.length_zipWith, List.length_zipWith, hcoords, min_self, hlen, min_self]

include hlen hsource htarget in
/-- The nodes of the other lattice lie between the first node and the last one. -/
theorem forall₂_placesIn (i : ℕ) :
    List.Forall₂ (fun (t : ℝ) (r : ℕ) => 0 ≤ t ∧ t ≤ (r : ℝ) - 1)
      (placesIn source target (coordsOf target i)) source := by
  have hcoords := length_coordsOf target i
  have hwithin := within_iff.mp (within_coordsOf (fun r hr => Nat.zero_lt_of_lt (htarget r hr)) i)
  refine List.forall₂_iff_get.mpr ⟨length_placesIn hlen hcoords, fun e h1 h2 => ?_⟩
  have he : e < target.length := hlen ▸ h2
  have hs := hsource _ (List.getElem_mem h2)
  have ht := htarget _ (List.getElem_mem he)
  have hc := hwithin.get (i := e) (by omega) he
  have hlast : (0 : ℝ) < (target[e] : ℝ) - 1 := by
    have : (2 : ℝ) ≤ target[e] := by exact_mod_cast ht
    linarith
  have hcells : (0 : ℝ) ≤ (source[e] : ℝ) - 1 := by
    have : (2 : ℝ) ≤ source[e] := by exact_mod_cast hs
    linarith
  simp only [List.get_eq_getElem] at hc
  have hle : ((coordsOf target i)[e] : ℝ) ≤ (target[e] : ℝ) - 1 := by
    have : ((coordsOf target i)[e] : ℝ) + 1 ≤ target[e] := by exact_mod_cast hc
    linarith
  simp only [List.get_eq_getElem, placesIn, List.getElem_zipWith]
  constructor
  · positivity
  · exact mul_le_of_le_one_left hcells ((div_le_one hlast).mpr hle)

include hlen hne in
theorem cellIn?_eq {coords : List ℕ} (hcoords : coords.length = target.length) :
    (cellIn? source target coords : Except (Failure ℝ) (Cell ℝ)) =
      .ok (Cell.ofPlace source (placesIn source target coords)) := by
  have hplace : placeIn? source target coords = some (placesIn source target coords) := by
    unfold placeIn?
    rw [zipStretch?_of_length _ hcoords, Option.bind_eq_bind, Option.bind_some]
    refine zipStretch?_of_length _ ?_
    rw [List.length_zipWith, hcoords, min_self, hlen]
  unfold cellIn?
  rw [hplace, Option.bind_eq_bind, Option.bind_some,
    Cell.ofPlace?_eq (length_placesIn hlen hcoords) hne, require_some]

include hlen hne in
theorem cellsIn?_eq : (cellsIn? source target : Except (Failure ℝ) _) =
    .ok ((List.range (size target)).map fun i =>
      Cell.ofPlace source (placesIn source target (coordsOf target i))) := by
  have htarget : target ≠ [] := by
    intro hnil
    rw [hnil, List.length_nil, List.length_eq_zero_iff] at hlen
    exact hne hlen
  unfold cellsIn? allCoords?
  rw [if_neg (by simpa using htarget), require_some, ok_bind,
    cellIn?_eq hlen hne (List.length_map _)]
  show (allCoords target).mapM _ = _
  unfold allCoords
  rw [List.mapM_map]
  exact mapM_eq_ok_map fun i _ => cellIn?_eq hlen hne (length_coordsOf target i)

include hsource hne in
theorem blend_ofPlace {place : List ℝ}
    (hplace : List.Forall₂ (fun (t : ℝ) (r : ℕ) => 0 ≤ t ∧ t ≤ (r : ℝ) - 1) place source)
    {x : Array ℝ} (hx : x.size = size source) : (do
      let values ← require .indexOutOfRange (cornerValues? x (Cell.ofPlace source place).base
        (cornerOffsets ((strides source).map Int.ofNat)))
      return blendCorners (cornerWeights (Cell.ofPlace source place).fraction) values :
        Except (Failure ℝ) ℝ) =
      .ok (∑ j : Fin (size source), share source place j * vectorOf (size source) x j) := by
  have hcorners : cornerValues? x (Cell.ofPlace source place).base
      (cornerOffsets ((strides source).map Int.ofNat)) =
      some ((cornerOffsets ((strides source).map Int.ofNat)).map fun o =>
        nodeValue (vectorOf (size source) x) ((Cell.ofPlace source place).base + o)) := by
    refine mapM_eq_some_map fun o ho => ?_
    obtain ⟨h0, hlt⟩ := (Cell.holds_ofPlace hsource hplace).corner_mem hne ho
    rw [position?_of_nonneg h0 (by rw [hx]; exact hlt), Option.bind_some,
      Array.getElem?_eq_getElem (by rw [hx]; omega), nodeValue, dif_pos ⟨h0, hlt⟩,
      vectorOf_apply hx]
  rw [hcorners, require_some, ok_bind, sum_share_mul hsource hne hplace]
  show Except.ok (blendCorners _ _) = _
  unfold blendCorners
  rw [foldl_add, zero_add, List.zipWith_map_right, List.zipWith_comm]

include hlen hsource htarget hne

theorem sampleCells?_eq {x : Array ℝ} (hx : x.size = size source) :
    sampleCells? source ((List.range (size target)).map fun i =>
        Cell.ofPlace source (placesIn source target (coordsOf target i))) x =
      .ok (arrayOf (size target) (carried source target (vectorOf (size source) x))) := by
  have hvalues := mapM_eq_ok_map (l := List.range (size target))
    (g := carried source target (vectorOf (size source) x)) fun i _ =>
      blend_ofPlace hsource hne (forall₂_placesIn hlen hsource htarget i) hx
  unfold sampleCells?
  simp only
  rw [List.mapM_map]
  exact bind_eq_ok.mpr ⟨_, hvalues, rfl⟩

/-- Node values carried to another lattice. -/
theorem resample?_eq {x : Array ℝ} (hx : x.size = size source) :
    resample? source target x =
      .ok (arrayOf (size target) (carried source target (vectorOf (size source) x))) := by
  unfold resample?
  rw [cellsIn?_eq hlen hne, ok_bind, sampleCells?_eq hlen hsource htarget hne hx]

/-- Several node vectors carried to another lattice. -/
theorem resampleAll?_eq {xs : List (Array ℝ)} (hxs : ∀ x ∈ xs, x.size = size source) :
    resampleAll? source target xs = .ok (xs.map fun x =>
      arrayOf (size target) (carried source target (vectorOf (size source) x))) := by
  unfold resampleAll?
  rw [cellsIn?_eq hlen hne, ok_bind]
  exact mapM_eq_ok_map fun x hx => sampleCells?_eq hlen hsource htarget hne (hxs x hx)

/-- Where all nodes that have a share have one value, that is the value read. -/
theorem carried_eq_of_forall {x : Fin (size source) → ℝ} {i : ℕ} {v : ℝ}
    (h : ∀ j : Fin (size source),
      share source (placesIn source target (coordsOf target i)) j ≠ 0 → x j = v) :
    carried source target x i = v := by
  have hshared : ∀ j : Fin (size source),
      share source (placesIn source target (coordsOf target i)) j * x j =
        share source (placesIn source target (coordsOf target i)) j * v := by
    intro j
    by_cases hj : share source (placesIn source target (coordsOf target i)) j = 0
    · rw [hj, zero_mul, zero_mul]
    · rw [h j hj]
  unfold carried
  rw [Finset.sum_congr rfl fun j _ => hshared j, ← Finset.sum_mul,
    sum_share hsource hne (forall₂_placesIn hlen hsource htarget i), one_mul]

/-- A value that is read lies between any bounds of the values given. -/
theorem carried_between {x : Fin (size source) → ℝ} {lo hi : ℝ} (h : ∀ j, lo ≤ x j ∧ x j ≤ hi)
    (i : ℕ) : lo ≤ carried source target x i ∧ carried source target x i ≤ hi := by
  have hone := sum_share hsource hne (forall₂_placesIn hlen hsource htarget i)
  have hshare := share_nonneg source (placesIn source target (coordsOf target i))
  unfold carried
  constructor
  · calc
      lo = ∑ j : Fin (size source),
          share source (placesIn source target (coordsOf target i)) j * lo := by
        rw [← Finset.sum_mul, hone, one_mul]
      _ ≤ _ := Finset.sum_le_sum fun j _ => mul_le_mul_of_nonneg_left (h j).1 (hshare j)
  · calc
      _ ≤ ∑ j : Fin (size source),
          share source (placesIn source target (coordsOf target i)) j * hi :=
        Finset.sum_le_sum fun j _ => mul_le_mul_of_nonneg_left (h j).2 (hshare j)
      _ = hi := by rw [← Finset.sum_mul, hone, one_mul]

/-- Values that are the same at all nodes stay what they are. -/
theorem carried_const (c : ℝ) (i : ℕ) : carried source target (fun _ => c) i = c :=
  carried_eq_of_forall hlen hsource htarget hne fun _ _ => rfl

end Resample

/-! ## The same lattice -/

section Own

variable {res : List ℕ} (hres : ∀ r ∈ res, 2 ≤ r)

include hres

/-- The nodes of a lattice are at their own coordinates. -/
theorem placesIn_self {coords : List ℕ} (hcoords : coords.length = res.length) :
    placesIn res res coords = coords.map fun c : ℕ => (c : ℝ) := by
  unfold placesIn
  refine List.ext_getElem (by simp [hcoords]) fun e h1 h2 => ?_
  have he : e < res.length := by
    rw [List.length_map, hcoords] at h2
    exact h2
  have hr : (2 : ℝ) ≤ res[e] := by exact_mod_cast hres _ (List.getElem_mem he)
  rw [List.getElem_zipWith, List.getElem_zipWith, List.getElem_map,
    div_mul_cancel₀ _ (by linarith)]

/-- Carried to their own lattice, node values stay what they are. -/
theorem carried_self (x : Fin (size res) → ℝ) (i : Fin (size res)) :
    carried res res x i = x i :=
  carried_of_placesIn_eq x (placesIn_self hres (length_coordsOf res i))

end Own

end GridSpline
