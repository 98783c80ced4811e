import Mathlib
import GridSpline.Proofs.Solver.Lowering

/-!
# The course of a solve

A lattice that is not small is solved by iterations. At first they relax lines, as long as that
makes good progress and is allowed; after that they relax nodes, in batches of sweeps. An iteration
that is not the last one has left an error that is not below the tolerance, and if the error fell at
all, then by a fair part for each sweep. That is why the size of the next batch can be worked out
from logarithms: both errors are positive, and their quotient is bounded away from one.

## Main definitions

* `LevelSystem.EstimatesSafely` — a state from which the size of the next batch can be worked out.
* `LevelSystem.IsIterated` — the states that iterations lead through.
* `LevelSystem.IsCourse` — the states of a solve, one after the other.

## Main statements

* `LevelSystem.exists_states` — iterations lead from one state to the next.
* `LevelSystem.estimatesSafely_of_goesOn` — why the size of a batch can be worked out.
* `LevelSystem.exists_isCourse_report` — the course of a solve and what is reported of it.
-/

namespace GridSpline

open Scalar Failure

/-- A property that a number has only if the number before has it belongs to the first numbers. -/
theorem exists_prefix (q : ℕ → Prop) (count : ℕ) (h : ∀ k, k + 1 < count → q (k + 1) → q k) :
    ∃ m ≤ count, (∀ k < m, q k) ∧ ∀ k, m ≤ k → k < count → ¬q k := by
  classical
  have hexists : ∃ m, m = count ∨ ¬q m := ⟨count, Or.inl rfl⟩
  refine ⟨Nat.find hexists, Nat.find_min' hexists (Or.inl rfl), fun k hk => ?_, fun k hmk => ?_⟩
  · by_contra hq
    exact Nat.find_min hexists hk (Or.inr hq)
  · induction k, hmk using Nat.le_induction with
    | base => exact fun hlt => (Nat.find_spec hexists).resolve_left hlt.ne
    | succ k _ ih => exact fun hlt hq => ih (by omega) (h k hlt hq)

namespace LevelSystem

variable {s : LevelSystem ℝ} {p q : Progress ℝ}

/-! ## One iteration -/

/-- The error before the last iteration and the one after it are such that the size of the next
batch can be worked out from their logarithms. -/
structure EstimatesSafely (s : LevelSystem ℝ) (p : Progress ℝ) : Prop where
  tolerance_pos : 0 < s.tolerance
  tolerance_le : s.tolerance ≤ p.error
  previous_pos : 0 < p.previous
  rate : p.error / p.previous ≤ slowestProgress ^ p.batch
  divisor : log p.error - log p.previous ≠ 0

/-- A batch has at least one sweep and not more than are allowed. -/
theorem nextBatch?_bounds {batch : ℕ} (h : s.nextBatch? p = .ok batch) :
    1 ≤ batch ∧ batch ≤ maxBatch := by
  unfold nextBatch? at h
  have hmax : maxBatch = 16 := rfl
  split at h
  · cases h
    exact ⟨le_rfl, by omega⟩
  · obtain ⟨estimate, -, hbatch⟩ := bind_eq_ok.mp h
    rw [pure_eq_ok] at hbatch
    omega

/-- What an iteration that relaxes nodes does. -/
theorem of_advanceNodes?_eq_ok (h : s.advanceNodes? p = .ok q) :
    s.nextBatch? p = .ok q.batch ∧ sweeps? s.lower s.upper s.rhs q.batch p.x = .ok q.x ∧
      q.error = s.errorOf q.x ∧ q.previous = p.error ∧
      q.ratio = (if 0 < p.error then (q.error / p.error) ^ (1 / (q.batch : ℝ)) else 0) ∧
      q.lineLimit = p.lineLimit := by
  unfold advanceNodes? at h
  simp only [bind_eq_ok, pure_eq_ok] at h
  obtain ⟨batch, hbatch, x, hx, rfl⟩ := h
  exact ⟨hbatch, hx, rfl, rfl, rfl, rfl⟩

theorem isDone_eq_false_iff : s.isDone p = false ↔
    s.tolerance ≤ p.error ∧ ¬(p.ratio ≤ 1 ∧ slowestProgress < p.ratio) := by
  unfold isDone
  rw [Bool.or_eq_false_iff, Bool.and_eq_false_iff, not_and_or]
  simp

/-- After an iteration that relaxed nodes and was not the last one, the size of the next batch can
be worked out if the error fell. -/
theorem estimatesSafely_of_goesOn (ht : 0 < s.tolerance) (h : s.advanceNodes? p = .ok q)
    (hgoesOn : s.isDone q = false) (hfell : q.error < q.previous) : s.EstimatesSafely q := by
  obtain ⟨hle, hslow⟩ := isDone_eq_false_iff.mp hgoesOn
  obtain ⟨hbatch, -, -, hprevious, hratio, -⟩ := of_advanceNodes?_eq_ok h
  have herror : 0 < q.error := ht.trans_le hle
  have hpos : 0 < q.previous := herror.trans hfell
  have hone : 1 ≤ q.batch := (nextBatch?_bounds hbatch).1
  have hpart : 0 ≤ q.error / q.previous := (div_pos herror hpos).le
  rw [← hprevious, if_pos hpos] at hratio
  have hratio_le : q.ratio ≤ 1 := by
    rw [hratio]
    exact Real.rpow_le_one hpart ((div_le_one hpos).mpr hfell.le) (by positivity)
  refine ⟨ht, hle, hpos, ?_, ?_⟩
  · have hrate : q.ratio ≤ slowestProgress := not_lt.mp fun hlt => hslow ⟨hratio_le, hlt⟩
    have hnonneg : 0 ≤ q.ratio := by
      rw [hratio]
      exact Real.rpow_nonneg hpart _
    calc q.error / q.previous = q.ratio ^ q.batch := by
          rw [hratio, one_div, Real.rpow_inv_natCast_pow hpart (by omega)]
      _ ≤ slowestProgress ^ q.batch := pow_le_pow_left₀ hnonneg hrate _
  · rw [log_eq, log_eq, sub_ne_zero]
    exact (Real.log_lt_log herror hfell).ne

theorem advance?_of_lt {iteration : ℕ} (h : p.lineLimit < iteration) :
    s.advance? iteration p = s.advanceNodes? p := if_neg (not_le.mpr h)

theorem of_advance?_eq_ok {iteration : ℕ} (hline : iteration ≤ p.lineLimit)
    (h : s.advance? iteration p = .ok q) :
    ∃ steps, truncate? (Lattice.meanOf s.res : ℝ) = .ok steps ∧
      q = s.advanceLines steps.toNat p := by
  obtain ⟨steps, hsteps⟩ := exists_truncate? (Lattice.meanOf s.res : ℝ)
  unfold advance? at h
  rw [if_pos hline, hsteps] at h
  exact ⟨steps, hsteps, (Except.ok.inj h).symm⟩

/-- The error of a state is that of its node values. -/
theorem error_eq_of_advance? {iteration : ℕ} (h : s.advance? iteration p = .ok q) :
    q.error = s.errorOf q.x := by
  rcases Nat.lt_or_ge p.lineLimit iteration with hlt | hge
  · rw [advance?_of_lt hlt] at h
    exact (of_advanceNodes?_eq_ok h).2.2.1
  · obtain ⟨steps, -, rfl⟩ := of_advance?_eq_ok hge h
    rfl

theorem lineLimit_advanceLines (s : LevelSystem ℝ) (steps : ℕ) (p : Progress ℝ) :
    (s.advanceLines steps p).lineLimit =
      if lineStall < (s.advanceLines steps p).ratio then 0 else p.lineLimit := rfl

theorem lineLimit_advanceLines_le (s : LevelSystem ℝ) (steps : ℕ) (p : Progress ℝ) :
    (s.advanceLines steps p).lineLimit ≤ p.lineLimit := by
  rw [lineLimit_advanceLines]
  split
  · exact Nat.zero_le _
  · exact le_rfl

/-- Lines are relaxed again only if enough of the error went away. -/
theorem ratio_advanceLines_le {steps : ℕ} (h : (s.advanceLines steps p).lineLimit ≠ 0) :
    (s.advanceLines steps p).ratio ≤ lineStall := by
  rw [lineLimit_advanceLines] at h
  by_contra hstall
  exact h (if_pos (not_le.mp hstall))

/-! ## All iterations -/

/-- The states of a solve, one after the other. It starts with iterations that relax lines, at most
as many as are allowed, and all but the last of these leave a small enough part of the error. Then
come iterations that relax nodes in batches. Where the size of a batch is worked out, this can be
done. -/
structure IsCourse (s : LevelSystem ℝ) (lineSweeps : ℕ) (x : Array ℝ) (count lines : ℕ)
    (states : ℕ → Progress ℝ) : Prop where
  first : states 0 = s.begin lineSweeps x
  bounds : 1 ≤ count ∧ count ≤ maxIterations
  allowed : lines ≤ count ∧ lines ≤ lineSweeps
  line : ∀ k < lines, ∃ steps, truncate? (Lattice.meanOf s.res : ℝ) = .ok steps ∧
    states (k + 1) = s.advanceLines steps.toNat (states k)
  progress : ∀ k, k + 1 < lines → (states (k + 1)).ratio ≤ lineStall
  batch : ∀ k, lines ≤ k → k < count → s.advanceNodes? (states k) = .ok (states (k + 1)) ∧
    1 ≤ (states (k + 1)).batch ∧ (states (k + 1)).batch ≤ maxBatch
  estimate : ∀ k, lines ≤ k → k < count → (states k).batch ≠ 0 → 0 < (states k).error →
    (states k).error < (states k).previous → s.EstimatesSafely (states k)

/-- The states that iterations lead through, of which as many were done before. No iteration but the
last one ends them, and that one's state is what is left and reported. -/
structure IsIterated (s : LevelSystem ℝ) (fuel done : ℕ) (notices : List (Notice ℝ)) (count : ℕ)
    (states : ℕ → Progress ℝ) : Prop where
  next : ∀ k < count, s.advance? (done + k + 1) (states k) = .ok (states (k + 1))
  goesOn : ∀ k, k + 1 < count → s.isDone (states (k + 1)) = false
  ends : s.isDone (states count) = true ∨ count = fuel
  values : (s.iterate fuel done (states 0) notices).x = (states count).x
  result : (s.iterate fuel done (states 0) notices).result =
    .ok (s.report (done + count) (states count).error)

section Iterated

variable {fuel done : ℕ} {notices : List (Notice ℝ)}

/-- An iteration that ends the solve. -/
theorem isIterated_of_isDone (hq : s.advance? (done + 1) p = .ok q) (hdone : s.isDone q = true) :
    s.IsIterated (fuel + 1) done notices 1 fun k => if k = 0 then p else q where
  next k hk := by
    obtain rfl : k = 0 := by omega
    exact hq
  goesOn k hk := by omega
  ends := Or.inl hdone
  values := by
    show (s.iterate (fuel + 1) done p notices).x = q.x
    rw [iterate, hq]
    simp only
    rw [if_pos hdone]
  result := by
    show (s.iterate (fuel + 1) done p notices).result = .ok (s.report (done + 1) q.error)
    rw [iterate, hq]
    simp only
    rw [if_pos hdone]

/-- An iteration after which others follow. -/
theorem IsIterated.cons {count : ℕ} {states : ℕ → Progress ℝ}
    (h : s.IsIterated fuel (done + 1)
      (.iterated s.res (done + 1) (states 0).error :: notices) count states)
    (hq : s.advance? (done + 1) p = .ok (states 0)) (hdone : s.isDone (states 0) = false) :
    s.IsIterated (fuel + 1) done notices (count + 1) fun k => k.casesOn p states where
  next k hk := by
    cases k with
    | zero => exact hq
    | succ k =>
      have hstep := h.next k (by omega)
      rwa [Nat.add_right_comm done 1 k] at hstep
  goesOn k hk := by
    cases k with
    | zero => exact hdone
    | succ k => exact h.goesOn k (by omega)
  ends := h.ends.imp id fun heq => by rw [heq]
  values := by
    show (s.iterate (fuel + 1) done p notices).x = (states count).x
    rw [iterate, hq]
    simp only
    rw [if_neg (Bool.eq_false_iff.mp hdone)]
    exact h.values
  result := by
    show (s.iterate (fuel + 1) done p notices).result = _
    rw [iterate, hq]
    simp only
    rw [if_neg (Bool.eq_false_iff.mp hdone), h.result, Nat.add_assoc, Nat.add_comm 1 count]

end Iterated

/-- Iterations that never fail lead from one state to the next, until one of them is the last one.
-/
theorem exists_states {P : Array ℝ → Prop}
    (hadvance : ∀ k (p : Progress ℝ), P p.x → ∃ q, s.advance? k p = .ok q ∧ P q.x)
    (fuel done : ℕ) (hp : P p.x) (notices : List (Notice ℝ)) :
    ∃ count ≤ fuel, ∃ states : ℕ → Progress ℝ, (0 < fuel → 0 < count) ∧ states 0 = p ∧
      s.IsIterated fuel done notices count states := by
  induction fuel generalizing done p notices with
  | zero =>
    exact ⟨0, le_rfl, fun _ => p, id, rfl,
      fun k hk => absurd hk (Nat.not_lt_zero k), fun k hk => absurd hk (Nat.not_lt_zero _),
      Or.inr rfl, rfl, rfl⟩
  | succ fuel ih =>
    obtain ⟨q, hq, hkept⟩ := hadvance (done + 1) p hp
    cases hdone : s.isDone q with
    | true =>
      exact ⟨1, Nat.le_add_left 1 fuel, _, fun _ => one_pos, rfl, isIterated_of_isDone hq hdone⟩
    | false =>
      obtain ⟨count, hcount, states, -, rfl, hstates⟩ :=
        ih (done + 1) hkept (.iterated s.res (done + 1) q.error :: notices)
      exact ⟨count + 1, Nat.succ_le_succ hcount, _, fun _ => Nat.succ_pos count, rfl,
        hstates.cons hq hdone⟩

/-- States that iterations lead through make up the course of a solve. -/
theorem exists_isCourse_of_states (ht : 0 < s.tolerance) {lineSweeps count : ℕ} {x : Array ℝ}
    {states : ℕ → Progress ℝ} (hfirst : states 0 = s.begin lineSweeps x)
    (hbounds : 1 ≤ count ∧ count ≤ maxIterations)
    (hstates : s.IsIterated maxIterations 0 [] count states) :
    ∃ lines, s.IsCourse lineSweeps x count lines states := by
  have hnext := hstates.next
  simp only [Nat.zero_add] at hnext
  -- An iteration that relaxes nodes keeps the limit, so no iteration after it relaxes lines.
  obtain ⟨lines, hlines, hline, hnode⟩ := exists_prefix
    (fun k => k + 1 ≤ (states k).lineLimit) count fun k hk hlater => by
      by_contra hnow
      have hstep := hnext k (by omega)
      rw [advance?_of_lt (not_le.mp hnow)] at hstep
      have hkept := (of_advanceNodes?_eq_ok hstep).2.2.2.2.2
      omega
  have hmade : ∀ k < lines, ∃ steps, truncate? (Lattice.meanOf s.res : ℝ) = .ok steps ∧
      states (k + 1) = s.advanceLines steps.toNat (states k) :=
    fun k hk => of_advance?_eq_ok (hline k hk) (hnext k (by omega))
  have hbatch : ∀ k, lines ≤ k → k < count →
      s.advanceNodes? (states k) = .ok (states (k + 1)) := by
    intro k hlk hk
    rw [← advance?_of_lt (not_le.mp (hnode k hlk hk))]
    exact hnext k hk
  have hbegun : ∀ k ≤ lines, (states k).lineLimit ≤ lineSweeps ∧ (states k).batch = 0 := by
    intro k hk
    induction k with
    | zero =>
      rw [hfirst]
      exact ⟨le_rfl, rfl⟩
    | succ k ih =>
      obtain ⟨steps, -, hstep⟩ := hmade k (by omega)
      obtain ⟨hlimit, hzero⟩ := ih (by omega)
      rw [hstep]
      exact ⟨(lineLimit_advanceLines_le s _ _).trans hlimit, hzero⟩
  refine ⟨lines, hfirst, hbounds, ⟨hlines, ?_⟩, hmade, ?_, ?_, ?_⟩
  · cases lines with
    | zero => exact Nat.zero_le _
    | succ last => exact (hline last (by omega)).trans (hbegun last (by omega)).1
  · intro k hk
    obtain ⟨steps, -, hstep⟩ := hmade k (by omega)
    have hlater := hline (k + 1) hk
    rw [hstep] at hlater ⊢
    exact ratio_advanceLines_le (by omega)
  · intro k hlk hk
    have hstep := hbatch k hlk hk
    exact ⟨hstep, nextBatch?_bounds (of_advanceNodes?_eq_ok hstep).1⟩
  · intro k hlk hk hone _ hfell
    obtain ⟨before, rfl⟩ : ∃ before, k = before + 1 := by
      refine Nat.exists_eq_succ_of_ne_zero ?_
      rintro rfl
      exact hone (hbegun 0 (Nat.zero_le _)).2
    have hafter : lines ≤ before := by
      by_contra hlt
      exact hone (hbegun (before + 1) (by omega)).2
    exact estimatesSafely_of_goesOn ht (hbatch before hafter (by omega))
      (hstates.goesOn before hk) hfell

section Level

variable {n : ℕ} {A : SparseMatrix ℝ} {b x : Array ℝ} {res : List ℕ} {t : ℝ}

/-- For a square matrix without a zero on its diagonal, and a lattice that is not small, a solve
makes at least one iteration and not more than are allowed. What is reported are the number of
iterations and the error of the node values that are left, and whether it is below the tolerance. If
it is not, then no more iterations were allowed, or the last one left nearly all of the error. -/
theorem exists_isCourse_report (hA : A.Tidy n n) (hdiag : ∀ i, A.toMatrix n n i i ≠ 0)
    (hb : b.size = n) (hx : x.size = n) (hres : ∃ r ∈ res, directResolution < r) (scale : ℝ)
    (ht : 0 < t) (lineSweeps : ℕ) :
    let s := { make res A b scale with tolerance := t }
    let out := s.solve lineSweeps x
    ∃ count lines states, s.IsCourse lineSweeps x count lines states ∧ out.x = (states count).x ∧
      ∃ report, out.result = .ok report ∧ report.iterations = count ∧
        report.error = solutionError A b scale out.x ∧
        (report.converged = true ↔ report.error < t) ∧
        (report.converged = false → count = maxIterations ∨
          slowestProgress < (states count).ratio ∧ (states count).ratio ≤ 1) := by
  intro s out
  obtain ⟨r, hr, hlarge⟩ := hres
  have hsquare : s.IsSquare n :=
    { axes := List.ne_nil_of_mem hr, rows := hA.rows, columns := hA.columns, lower := rfl,
      upper := rfl, rhs := hb, tolerance := ht.le }
  have hpivot : hasZeroPivot s.lower = false := by
    rw [Bool.eq_false_iff]
    intro hzero
    obtain ⟨i, hi⟩ := (SparseMatrix.hasZeroPivot_lower_iff hA).mp hzero
    exact hdiag i hi
  have hadvance : ∀ k (p : Progress ℝ), p.x.size = n →
      ∃ q, s.advance? k p = .ok q ∧ q.x.size = n := by
    intro k p hp
    rcases hsquare.advance?_cases k hp with hok | ⟨_, -, -, hzero⟩
    · exact hok
    · rw [hpivot] at hzero
      cases hzero
  have hlargest : s.isSmall = false :=
    List.all_eq_false.mpr ⟨r, hr, by simpa using hlarge⟩
  have hout : out = s.iterate maxIterations 0 (s.begin lineSweeps x) [] :=
    hsquare.solve_of_large hlargest lineSweeps hx
  obtain ⟨count, hcount, states, hpos, hfirst, hstates⟩ :=
    exists_states (P := fun y => y.size = n) hadvance maxIterations 0
      (p := s.begin lineSweeps x) hx []
  have hvalues := hstates.values
  have hresult := hstates.result
  rw [hfirst, ← hout] at hvalues hresult
  rw [Nat.zero_add] at hresult
  obtain ⟨lines, hcourse⟩ :=
    exists_isCourse_of_states ht hfirst ⟨hpos (by decide), hcount⟩ hstates
  refine ⟨count, lines, states, hcourse, hvalues, _, hresult, rfl, ?_, decide_eq_true_iff, ?_⟩
  · obtain ⟨last, rfl⟩ : ∃ last, count = last + 1 :=
      Nat.exists_eq_succ_of_ne_zero (by have := hcourse.bounds.1; omega)
    rw [hvalues]
    exact error_eq_of_advance? (hstates.next last (Nat.lt_succ_self last))
  · intro hopen
    rcases hstates.ends with hdone | hlast
    · refine Or.inr ?_
      by_contra hfair
      have hfalse : s.isDone (states count) = false :=
        isDone_eq_false_iff.mpr ⟨not_lt.mp (of_decide_eq_false hopen), fun h => hfair h.symm⟩
      rw [hdone] at hfalse
      cases hfalse
    · exact Or.inl hlast

/-- A matrix with a negative diagonal. -/
theorem exists_isCourse_negative :
    let s := { make [5] (ones 5 (-2)) (Array.replicate 5 1) 1 with tolerance := 1 }
    let out := s.solve 3 (Array.replicate 5 0)
    ∃ count lines states, s.IsCourse 3 (Array.replicate 5 0) count lines states ∧
      ∃ report, out.result = .ok report ∧ report.iterations = count ∧
        (report.converged = true ↔ report.error < 1) := by
  intro s out
  have hdiag : ∀ i, (ones 5 (-2)).toMatrix 5 5 i i ≠ 0 := by
    intro i
    rw [toMatrix_ones]
    norm_num [Matrix.vecMulVec]
  obtain ⟨count, lines, states, hcourse, -, report, hresult, hcount, -, hconverged, -⟩ :=
    exists_isCourse_report (tidy_ones 5 (-2)) hdiag (b := Array.replicate 5 1) (by simp)
      (x := Array.replicate 5 0) (by simp) ⟨5, List.mem_singleton_self 5, by decide⟩ 1 one_pos 3
  exact ⟨count, lines, states, hcourse, report, hresult, hcount, hconverged⟩

end Level

end LevelSystem

end GridSpline
