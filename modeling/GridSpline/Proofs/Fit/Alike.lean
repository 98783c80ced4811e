import GridSpline.Proofs.Fit.Running

/-!
# Comparing two runs

Two runs go alike if each step of the one corresponds to a step of the other: both succeed, and then
their results and the states they leave are related, or both fail for the same reason. The lemmas
below follow two runs side by side, as those about `Leads` follow one.

## Main definitions

* `FitM.Alike` — two steps that correspond.

## Main statements

* `alike_bind` — one step after another.
* `alike_lift` — steps that have their results without the state.
* `Alike.leads` — what is known of the first of two runs that go alike.
-/

namespace GridSpline

open Failure

namespace FitM

variable {α β γ δ ε : Type} {r r' : Running α}

/-- Two steps, each from its own state, lead to related results and states, or fail alike. -/
def Alike (m : FitM α β) (m' : FitM α γ) (r r' : Running α)
    (good : β → γ → Running α → Running α → Prop) : Prop :=
  match m.run.run r, m'.run.run r' with
  | (.ok b, after), (.ok c, after') => good b c after after'
  | (.error e, _), (.error e', _) => e' = e
  | _, _ => False

/-- Steps go alike if the second one follows wherever the first one leads. -/
theorem alike_iff_leads {m : FitM α β} {m' : FitM α γ}
    {good : β → γ → Running α → Running α → Prop} :
    Alike m m' r r' good ↔
      Leads m r (fun b after => Leads m' r' (fun c after' => good b c after after') fun _ => False)
        fun e => Leads m' r' (fun _ _ => False) fun e' => e' = e := by
  unfold Alike Leads
  rcases m.run.run r with ⟨_ | _, _⟩ <;> rcases m'.run.run r' with ⟨_ | _, _⟩ <;> rfl

theorem alike_pure {b : β} {c : γ} {good : β → γ → Running α → Running α → Prop}
    (h : good b c r r') : Alike (pure b) (pure c) r r' good := h

/-- One step after another. -/
theorem alike_bind {m : FitM α β} {m' : FitM α γ} {k : β → FitM α δ} {k' : γ → FitM α ε}
    {good : δ → ε → Running α → Running α → Prop}
    (h : Alike m m' r r' fun b c after after' => Alike (k b) (k' c) after after' good) :
    Alike (m >>= k) (m' >>= k') r r' good := by
  rw [alike_iff_leads] at h ⊢
  refine leads_bind (h.mono (fun b after hb => ?_) fun e he => leads_bind (he.imp ?_))
  · obtain ⟨c, after', hm, hk⟩ := hb.exists_run_eq
    -- The second run goes on from one state, wherever the first one is led from here.
    exact (alike_iff_leads.mp hk).mono
      (fun _ _ hd => leads_bind (leads_of_run_eq hm hd))
      fun _ hd => leads_bind (leads_of_run_eq hm hd)
  · exact fun _ _ hfalse => hfalse.elim

theorem Alike.imp {m : FitM α β} {m' : FitM α γ} {good good' : β → γ → Running α → Running α → Prop}
    (h : Alike m m' r r' good)
    (hgood : ∀ b c after after', good b c after after' → good' b c after after') :
    Alike m m' r r' good' :=
  alike_iff_leads.mpr ((alike_iff_leads.mp h).imp fun b after hb => hb.imp (hgood b · after))

/-- If the first of two runs that go alike has a result, then so has the second one. -/
theorem Alike.leads {m : FitM α β} {m' : FitM α γ} {good : β → γ → Running α → Running α → Prop}
    (h : Alike m m' r r' good) :
    Leads m r (fun b after => ∃ c after', m'.run.run r' = (.ok c, after') ∧ good b c after after')
      fun _ => True :=
  (alike_iff_leads.mp h).mono (fun _ _ hb => hb.exists_run_eq) fun _ _ => trivial

theorem alike_map {m : FitM α β} {m' : FitM α γ} {f : β → δ} {f' : γ → ε}
    {good : δ → ε → Running α → Running α → Prop}
    (h : Alike m m' r r' fun b c after after' => good (f b) (f' c) after after') :
    Alike (f <$> m) (f' <$> m') r r' good := by
  rw [← bind_pure_comp, ← bind_pure_comp]
  exact alike_bind (h.imp fun _ _ _ _ hb => alike_pure hb)

/-! ## Single steps -/

/-- Steps that have their results without the state. -/
theorem alike_lift {x : Except (Failure α) β} {x' : Except (Failure α) γ}
    {good : β → γ → Running α → Running α → Prop}
    (hok : ∀ b, x = .ok b → ∃ c, x' = .ok c ∧ good b c r r')
    (herror : ∀ e, x = .error e → x' = .error e) : Alike (liftM x) (liftM x') r r' good := by
  refine alike_iff_leads.mpr (leads_lift_any (fun b hb => ?_) fun e he => ?_)
  · obtain ⟨c, hc, hgood⟩ := hok b hb
    exact leads_lift hc hgood
  · exact leads_lift_error (herror e he) rfl

/-- Steps whose results are known. -/
theorem alike_lift_ok {x : Except (Failure α) β} {x' : Except (Failure α) γ} {b : β} {c : γ}
    {good : β → γ → Running α → Running α → Prop} (hx : x = .ok b) (hx' : x' = .ok c)
    (h : good b c r r') : Alike (liftM x) (liftM x') r r' good := by
  subst hx hx'
  exact h

/-- The second step has the result of the first one, seen in another way. -/
theorem alike_lift_map {x : Except (Failure α) β} {x' : Except (Failure α) γ} {f : β → γ}
    {good : β → γ → Running α → Running α → Prop} (hx : x' = f <$> x)
    (h : ∀ b, x = .ok b → good b (f b) r r') : Alike (liftM x) (liftM x') r r' good := by
  subst hx
  refine alike_lift (fun b hb => ⟨f b, ?_, h b hb⟩) fun e he => ?_
  · rw [hb]
    rfl
  · rw [he]
    rfl

theorem alike_fit {good : Fit α → Fit α → Running α → Running α → Prop}
    (h : good r.fit r'.fit r r') : Alike FitM.fit FitM.fit r r' good := h

theorem alike_change {f f' : Fit α → Fit α} {good : Unit → Unit → Running α → Running α → Prop}
    (h : good () () { r with fit := f r.fit } { r' with fit := f' r'.fit }) :
    Alike (change f) (change f') r r' good := h

theorem alike_require {reason : Failure α} {o : Option β} {o' : Option γ}
    {good : β → γ → Running α → Running α → Prop}
    (h : Option.Rel (fun b c => good b c r r') o o') :
    Alike (require reason o) (require reason o') r r' good := by
  cases h with
  | none => exact rfl
  | some h => exact h

/-- Something that is reported in both runs, only if it is asked for. -/
theorem alike_notify_if {verbose : Bool} {l l' : List (Notice α)} {k : Unit → FitM α β}
    {k' : Unit → FitM α γ} {good : β → γ → Running α → Running α → Prop}
    (h : ∀ notices notices', (l' = l → r'.notices = r.notices → notices' = notices) →
      Alike (k ()) (k' ()) { r with notices } { r' with notices := notices' } good) :
    Alike (if verbose = true then notify l >>= k else k ())
      (if verbose = true then notify l' >>= k' else k' ()) r r' good := by
  cases verbose with
  | true =>
    exact alike_bind (h (l.reverse ++ r.notices) (l'.reverse ++ r'.notices)
      fun hl hn => by rw [hl, hn])
  | false => exact h r.notices r'.notices fun _ hn => hn

end FitM

end GridSpline
