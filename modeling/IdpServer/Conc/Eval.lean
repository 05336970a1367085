import IdpServer.Conc.Prog

/-!
# Conc.Eval — one run from beginning to end

Code that nothing disturbs and whose calls all answer takes a state to a state. Code that only reads and
checks is a function of the state (`outcome`).
-/

namespace IdpServer.Conc.Prog

variable {σ ℓ α β ε : Type} {s s' : σ}

theorem eval_bind_run (p : ExceptT ε (Prog σ ℓ) α) (k : α → ExceptT ε (Prog σ ℓ) β) :
    (p >>= k).run.eval s = (ExceptT.bindCont k (p.run.eval s).1).eval (p.run.eval s).2 :=
  eval_bind _ _ _

variable {p : ExceptT ε (Prog σ ℓ) α} {k : α → ExceptT ε (Prog σ ℓ) β} {a : α} {e : ε} {u : Unit}
variable {g : σ → α} {c : Prop} {o : Option α}

theorem eval_bind_of_ok (h : p.run.eval s = (.ok a, s')) :
    (p >>= k).run.eval s = (k a).run.eval s' := by
  rw [eval_bind_run, h]
  rfl

theorem eval_bind_of_error (h : p.run.eval s = (.error e, s')) :
    (p >>= k).run.eval s = (.error e, s') := by
  rw [eval_bind_run, h]
  rfl

theorem eval_bind_eq_ok {b : β} : (p >>= k).run.eval s = (.ok b, s') ↔
      ∃ a t, p.run.eval s = (.ok a, t) ∧ (k a).run.eval t = (.ok b, s') := by
  constructor
  · intro h
    cases hp : p.run.eval s with
    | mk r t =>
      cases r with
      | ok a => exact ⟨a, t, rfl, (eval_bind_of_ok hp).symm.trans h⟩
      | error e => cases (eval_bind_of_error hp).symm.trans h
  · rintro ⟨a, t, hp, hk⟩
    rw [eval_bind_of_ok hp]
    exact hk

theorem eval_pure_eq_ok {b : α} :
    (pure a : ExceptT ε (Prog σ ℓ) α).run.eval s = (.ok b, s') ↔ a = b ∧ s = s' := by
  show ((.ok a, s) : Except ε α × σ) = _ ↔ _
  simp

theorem eval_call_eq_ok {p : Prog σ ℓ α} :
    (call e p).run.eval s = (.ok a, s') ↔ p.eval s = (a, s') := by
  have hcall : (call e p).run.eval s = (.ok (p.eval s).1, (p.eval s).2) := eval_bind _ _ _
  rw [hcall]
  simp [Prod.ext_iff]

theorem eval_attempt_eq_ok {p : Prog σ ℓ α} :
    (attempt p : ExceptT ε (Prog σ ℓ) Unit).run.eval s = (.ok u, s') ↔ (p.eval s).2 = s' := by
  have hattempt : (attempt p : ExceptT ε (Prog σ ℓ) Unit).run.eval s = (.ok (), (p.eval s).2) :=
    eval_bind _ _ _
  rw [hattempt]
  simp [Prod.ext_iff]

theorem eval_lift_eq_ok {p : Prog σ ℓ α} :
    (liftM p : ExceptT ε (Prog σ ℓ) α).run.eval s = (.ok a, s') ↔ p.eval s = (a, s') := by
  have hlift : (liftM p : ExceptT ε (Prog σ ℓ) α).run.eval s =
      (.ok (p.eval s).1, (p.eval s).2) := eval_bind _ _ _
  rw [hlift]
  simp [Prod.ext_iff]

theorem eval_read : (read g : Prog σ ℓ α).eval s = (g s, s) := rfl

theorem eval_atom {l : ℓ} {f : σ → α × σ} : (atom l f).eval s = f s := rfl

theorem eval_require_eq_ok [Decidable c] :
    (require c e : ExceptT ε (Prog σ ℓ) Unit).run.eval s = (.ok u, s') ↔ c ∧ s = s' := by
  rw [require]
  split
  next h => exact eval_pure_eq_ok.trans (by simp [h])
  next h =>
    simp only [h, false_and, iff_false]
    intro h
    cases h

theorem eval_found_eq_ok :
    (found o e : ExceptT ε (Prog σ ℓ) α).run.eval s = (.ok a, s') ↔ o = some a ∧ s = s' := by
  rw [found.eq_def]
  cases o with
  | some b => exact eval_pure_eq_ok.trans (by simp)
  | none =>
    simp only [reduceCtorEq, false_and, iff_false]
    intro h
    cases h

theorem Silent.eval {p : Prog σ ℓ α} (h : p.Silent) : (p.eval s).2 = s := by
  induction p generalizing s with
  | ret a => rfl
  | look k ih => exact ih s (h s)
  | act l f k => exact h.1.elim
  | choose k ih => exact ih true (h true)

/-! ## Outcomes -/

/-- What code that ends well returns. -/
def outcome (p : ExceptT ε (Prog σ ℓ) α) (s : σ) : Option α := (p.run.eval s).1.toOption

theorem outcome_eq_some : outcome p s = some a ↔ ∃ t, p.run.eval s = (.ok a, t) := by
  unfold outcome
  cases p.run.eval s with
  | mk r t => cases r <;> simp [Except.toOption]

theorem outcome_pure (a : α) : outcome (pure a : ExceptT ε (Prog σ ℓ) α) s = some a := rfl

theorem outcome_bind (p : ExceptT ε (Prog σ ℓ) α) (k : α → ExceptT ε (Prog σ ℓ) β) :
    outcome (p >>= k) s = (outcome p s).bind fun a => outcome (k a) (p.run.eval s).2 := by
  unfold outcome
  rw [eval_bind_run]
  cases (p.run.eval s).1 <;> rfl

theorem outcome_of_eval (h : p.run.eval s = (.ok a, s')) :
    outcome (p >>= k) s = outcome (k a) s' := by
  rw [outcome_bind, outcome_eq_some.mpr ⟨s', h⟩, h]
  rfl

theorem outcome_ask : outcome (call e (read g) >>= k) s = outcome (k (g s)) s := rfl

theorem outcome_look :
    outcome ((liftM (read g : Prog σ ℓ α) : ExceptT ε (Prog σ ℓ) α) >>= k) s = outcome (k (g s)) s := rfl

theorem outcome_found : outcome (found o e >>= k) s = o.bind fun a => outcome (k a) s := by
  rw [found.eq_def]
  cases o <;> rfl

theorem outcome_require [Decidable c] {k : Unit → ExceptT ε (Prog σ ℓ) β} :
    outcome (require c e >>= k) s = if c then outcome (k ()) s else none := by
  rw [require]
  split <;> rfl

end IdpServer.Conc.Prog
