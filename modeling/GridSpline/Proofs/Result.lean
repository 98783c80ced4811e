import GridSpline.Failure.Basic

/-!
# Results that may fail

A chain of steps succeeds when every step does. The lemmas below take such a chain apart, and put
one together when the outcome of every step is known. The statements about look-ups say when a
position that is known to exist is found.
-/

namespace GridSpline

variable {ε β γ : Type}

/-! ## Chains -/

theorem bind_eq_ok {x : Except ε β} {f : β → Except ε γ} {c : γ} :
    (x >>= f) = .ok c ↔ ∃ b, x = .ok b ∧ f b = .ok c := by
  cases x <;> simp [Bind.bind, Except.bind]

theorem bind_eq_error {x : Except ε β} {f : β → Except ε γ} {e : ε} :
    (x >>= f) = .error e ↔ x = .error e ∨ ∃ b, x = .ok b ∧ f b = .error e := by
  cases x <;> simp [Bind.bind, Except.bind]

@[simp] theorem ok_bind (b : β) (f : β → Except ε γ) : (Except.ok b >>= f) = f b := rfl

@[simp] theorem error_bind (e : ε) (f : β → Except ε γ) :
    ((Except.error e : Except ε β) >>= f) = .error e := rfl

@[simp] theorem map_ok (f : β → γ) (b : β) :
    f <$> (Except.ok b : Except ε β) = .ok (f b) := rfl

/-- Chains that go on alike from what the first step can give. -/
theorem bind_congr_of_eq_ok {x : Except ε β} {f g : β → Except ε γ}
    (h : ∀ b, x = .ok b → f b = g b) : x >>= f = x >>= g := by
  cases x with
  | error e => rfl
  | ok b => exact h b rfl

theorem map_eq_ok {x : Except ε β} {f : β → γ} {c : γ} :
    f <$> x = .ok c ↔ ∃ b, x = .ok b ∧ f b = c := by
  cases x <;> simp [Functor.map, Except.map]

theorem discard_eq_map (x : Except ε β) : Functor.discard x = (fun _ => ()) <$> x := by
  cases x <;> rfl

@[simp] theorem pure_eq_ok {b c : β} : (pure b : Except ε β) = .ok c ↔ b = c := by
  simp [pure, Except.pure]

/-- A chain that throws under a condition goes on only where the condition fails. -/
@[simp] theorem guard_eq_ok {c : Prop} [Decidable c] {e : ε} {f : PUnit → Except ε γ}
    {rest : Except ε γ} {b : γ} :
    (if c then throw e >>= f else rest) = .ok b ↔ ¬c ∧ rest = .ok b := by
  by_cases h : c
  · simp [h, throw, throwThe, MonadExceptOf.throw]
  · simp [h]

/-- A chain that throws unless a condition holds. -/
@[simp] theorem ite_throw_eq_ok {c : Prop} [Decidable c] {e : ε} {x : Except ε γ} {b : γ} :
    (if c then x else throw e) = .ok b ↔ c ∧ x = .ok b := by
  by_cases h : c
  · simp [h]
  · simp [h]

/-- Two chains that throw under the same condition are the same if they go on alike. -/
theorem guard_congr {c : Prop} [Decidable c] {e : ε} {f f' : PUnit → Except ε γ}
    {rest rest' : Except ε γ} (h : ¬c → rest = rest') :
    (if c then throw e >>= f else rest) = if c then throw e >>= f' else rest' := by
  by_cases hc : c
  · rw [if_pos hc, if_pos hc]
    rfl
  · rw [if_neg hc, if_neg hc, h hc]

/-- A chain that throws under a condition, with a result that is seen in another way. -/
theorem guard_map_congr {δ : Type} {c : Prop} [Decidable c] {e : ε} {f : PUnit → Except ε γ}
    {f' : PUnit → Except ε δ} {rest : Except ε γ} {rest' : Except ε δ} {g : γ → δ}
    (h : ¬c → rest' = g <$> rest) : (if c then throw e >>= f' else rest') =
      g <$> (if c then throw e >>= f else rest) := by
  by_cases hc : c
  · rw [if_pos hc, if_pos hc]
    rfl
  · rw [if_neg hc, if_neg hc, h hc]

/-! ## Lists of steps -/

/-- Steps that all succeed succeed together. -/
theorem mapM_eq_ok_map {f : β → Except ε γ} {g : β → γ} {l : List β}
    (h : ∀ b ∈ l, f b = .ok (g b)) : l.mapM f = .ok (l.map g) := by
  induction l with
  | nil => rfl
  | cons b bs ih =>
    have hb := h b List.mem_cons_self
    have hbs := ih fun x hx => h x (List.mem_cons_of_mem b hx)
    rw [List.mapM_cons, hb, ok_bind, hbs]
    rfl

/-- Steps that can all succeed give a list of what they can give. -/
theorem exists_mapM_eq_ok {f : β → Except ε γ} {P : γ → Prop} {l : List β}
    (h : ∀ b ∈ l, ∃ c, f b = .ok c ∧ P c) :
    ∃ r, l.mapM f = .ok r ∧ r.length = l.length ∧ ∀ c ∈ r, P c := by
  induction l with
  | nil => exact ⟨[], rfl, rfl, fun c hc => absurd hc List.not_mem_nil⟩
  | cons b bs ih =>
    obtain ⟨c, hc, hP⟩ := h b List.mem_cons_self
    obtain ⟨r, hr, hlen, hall⟩ := ih fun x hx => h x (List.mem_cons_of_mem b hx)
    refine ⟨c :: r, ?_, by rw [List.length_cons, hlen, List.length_cons], ?_⟩
    · rw [List.mapM_cons, hc, ok_bind, hr]
      rfl
    · intro x hx
      rcases List.mem_cons.mp hx with rfl | hx
      · exact hP
      · exact hall x hx

/-- The results of steps that all succeed are the results together. -/
theorem mapM_eq_ok_iff {f : β → Except ε γ} {l : List β} {r : List γ} :
    l.mapM f = .ok r ↔ l.map f = r.map .ok := by
  induction l generalizing r with
  | nil =>
    rw [List.mapM_nil, pure_eq_ok, List.map_nil, eq_comm, eq_comm (a := []), List.map_eq_nil_iff]
  | cons b l ih =>
    simp only [List.mapM_cons, bind_eq_ok, pure_eq_ok, List.map_cons]
    constructor
    · rintro ⟨c, hc, rest, hrest, rfl⟩
      rw [List.map_cons, hc, ih.mp hrest]
    · intro h
      cases r with
      | nil => cases h
      | cons c rest =>
        obtain ⟨hc, hrest⟩ := List.cons.inj h
        exact ⟨c, hc, rest, ih.mpr hrest, rfl⟩

theorem length_of_mapM_eq_ok {f : β → Except ε γ} {l : List β} {r : List γ}
    (h : l.mapM f = .ok r) : r.length = l.length := by
  have hlength := congrArg List.length (mapM_eq_ok_iff.mp h)
  rw [List.length_map, List.length_map] at hlength
  exact hlength.symm

/-- Steps that succeed together succeed each. -/
theorem exists_of_mapM_eq_ok {f : β → Except ε γ} {l : List β} {r : List γ}
    (h : l.mapM f = .ok r) {b : β} (hb : b ∈ l) : ∃ c, f b = .ok c := by
  have hmem : f b ∈ l.map f := List.mem_map_of_mem hb
  rw [mapM_eq_ok_iff.mp h] at hmem
  obtain ⟨c, -, hc⟩ := List.mem_map.mp hmem
  exact ⟨c, hc.symm⟩

/-- Steps that fail together fail for the reason of one of them. -/
theorem exists_mem_of_mapM_eq_error {f : β → Except ε γ} {l : List β} {e : ε}
    (h : l.mapM f = .error e) : ∃ b ∈ l, f b = .error e := by
  induction l with
  | nil => cases h
  | cons b l ih =>
    rw [List.mapM_cons, bind_eq_error] at h
    rcases h with hb | ⟨c, -, h⟩
    · exact ⟨b, List.mem_cons_self, hb⟩
    rcases bind_eq_error.mp h with hrest | ⟨rest, -, hpure⟩
    · obtain ⟨d, hd, he⟩ := ih hrest
      exact ⟨d, List.mem_cons_of_mem b hd, he⟩
    · cases hpure

/-- Choices that all have a result have one together. -/
theorem mapM_eq_some_map {f : β → Option γ} {g : β → γ} {l : List β}
    (h : ∀ b ∈ l, f b = some (g b)) : l.mapM f = some (l.map g) := by
  induction l with
  | nil => rfl
  | cons b bs ih =>
    have hb := h b List.mem_cons_self
    have hbs := ih fun x hx => h x (List.mem_cons_of_mem b hx)
    rw [List.mapM_cons, hb, hbs]
    rfl

namespace Failure

variable {α : Type}

/-! ## Look-ups -/

@[simp] theorem require_some (reason : Failure α) (b : β) : require reason (some b) = .ok b := rfl

@[simp] theorem require_eq_ok {reason : Failure α} {o : Option β} {b : β} :
    require reason o = .ok b ↔ o = some b := by
  cases o <;> simp [require]

/-- Choices that have to have a result together have to have one each. -/
theorem require_mapM (reason : Failure α) (f : β → Option γ) (l : List β) :
    require reason (l.mapM f) = l.mapM fun b => require reason (f b) := by
  induction l with
  | nil => rfl
  | cons b l ih =>
    rw [List.mapM_cons, List.mapM_cons, ← ih]
    cases f b with
    | none => rfl
    | some c => cases l.mapM f <;> rfl

@[simp] theorem require_eq_error {reason e : Failure α} {o : Option β} :
    require reason o = .error e ↔ o = none ∧ reason = e := by
  cases o <;> simp [require]

end Failure

namespace Lattice

/-- A position that exists is found. -/
theorem position?_ofNat {n i : Nat} (h : i < n) : position? n (i : Int) = some i := by
  unfold position?
  rw [if_pos (Int.natCast_nonneg i), if_pos (by exact_mod_cast h), Int.toNat_natCast]

/-- A position that is not negative is found where it is. -/
theorem position?_of_nonneg {n : Nat} {i : Int} (h0 : 0 ≤ i) (h : i < n) :
    position? n i = some i.toNat := by
  unfold position?
  rw [if_pos h0, if_pos h]

end Lattice

namespace Failure

variable {α : Type}

theorem entryAt_ofNat {l : List β} {i : Nat} (h : i < l.length) :
    entryAt (α := α) l (i : Int) = .ok l[i] := by
  unfold entryAt
  rw [Lattice.position?_ofNat h, Option.bind_some, List.getElem?_eq_getElem h]
  rfl

end Failure

end GridSpline
