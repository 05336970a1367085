import IdpServer.Conc.Run

/-!
# Conc.Returns — what a program can answer

Some facts about an answer come from the inputs and the checks on the way alone. `Returns Q` says that a
program answers with a `Q` whatever it reads and whichever of its calls fail.
-/

namespace IdpServer.Conc

variable {σ ℓ α β ε ι : Type}

namespace Prog

def Returns (Q : α → Prop) : Prog σ ℓ α → Prop
  | .ret a => Q a
  | .look k => ∀ s, (k s).Returns Q
  | .act _ _ k => ∀ s, (k s).Returns Q
  | .choose k => ∀ b, (k b).Returns Q

variable {P Q : α → Prop}

theorem Returns.imp {p : Prog σ ℓ α} (h : p.Returns P) (hQ : ∀ a, P a → Q a) : p.Returns Q := by
  induction p with
  | ret a => exact hQ a h
  | look k ih => exact fun s => ih s (h s)
  | act l f k ih => exact fun s => ih s (h s)
  | choose k ih => exact fun b => ih b (h b)

theorem returns_any (p : Prog σ ℓ α) : p.Returns fun _ => True := by
  induction p with
  | ret a => trivial
  | look k ih => exact ih
  | act l f k ih => exact ih
  | choose k ih => exact ih

theorem Returns.bind {R : β → Prop} {p : Prog σ ℓ α} {k : α → Prog σ ℓ β} (hp : p.Returns P)
    (hk : ∀ a, P a → (k a).Returns R) : (p.bind k).Returns R := by
  induction p with
  | ret a => exact hk a hp
  | look k ih => exact fun s => ih s (hp s)
  | act l f k ih => exact fun s => ih s (hp s)
  | choose k ih => exact fun b => ih b (hp b)

abbrev Yields (Q : α → Prop) (p : ExceptT ε (Prog σ ℓ) α) : Prop :=
  p.run.Returns fun r => ∀ a, r = .ok a → Q a

section Yields

variable {R : β → Prop} {p : ExceptT ε (Prog σ ℓ) α} {k : α → ExceptT ε (Prog σ ℓ) β} {e : ε}

theorem yields_pure {a : α} (h : Q a) : Yields Q (pure a : ExceptT ε (Prog σ ℓ) α) := by
  intro b hb
  rwa [← Except.ok.inj hb]

theorem yields_throw : Yields Q (throw e : ExceptT ε (Prog σ ℓ) α) := by
  intro a ha
  cases ha

theorem Yields.bind (hp : Yields P p) (hk : ∀ a, P a → Yields R (k a)) : Yields R (p >>= k) := by
  refine Returns.bind hp fun r hr => ?_
  cases r with
  | ok a => exact hk a (hr a rfl)
  | error e => exact yields_throw

theorem yields_then (hk : ∀ a, Yields R (k a)) : Yields R (p >>= k) :=
  .bind ((returns_any p.run).imp fun _ _ _ _ => trivial) fun a (_ : True) => hk a

theorem yields_found {o : Option α} :
    Yields (fun a => o = some a) (found o e : ExceptT ε (Prog σ ℓ) α) := by
  rw [found.eq_def]
  cases o with
  | some a => exact yields_pure rfl
  | none => exact yields_throw

theorem yields_require {c : Prop} [Decidable c] :
    Yields (fun _ => c) (require c e : ExceptT ε (Prog σ ℓ) Unit) := by
  rw [require]
  split
  next h => exact yields_pure h
  next => exact yields_throw

theorem yields_lift {p : Prog σ ℓ α} (hp : p.Returns Q) :
    Yields Q (liftM p : ExceptT ε (Prog σ ℓ) α) := by
  refine hp.bind fun a ha => ?_
  exact yields_pure ha

theorem yields_call {p : Prog σ ℓ α} (hp : p.Returns Q) : Yields Q (call e p) := by
  intro sent
  cases sent with
  | false => exact yields_throw
  | true =>
    refine hp.bind fun a ha answered => ?_
    cases answered with
    | false => exact yields_throw
    | true => exact yields_pure ha

end Yields

end Prog

variable {E : σ → σ → Prop} {A : Moment ι σ ℓ → ι → ℓ → Prop} {c c' : Config ι σ ℓ α}
variable {Q : ι → α → Prop}

/-- **What holds of every answer** of a program holds of what it answers in a run. -/
theorem returns_reach [DecidableEq ι] (h : ∀ i, (c.procs i).Returns (Q i)) (hrun : Reach E A c c') :
    ∀ i, (c'.procs i).Returns (Q i) := by
  have hresume {d : Config ι σ ℓ α} {i : ι} {p : Prog σ ℓ α} (hd : ∀ i, (d.procs i).Returns (Q i))
      (hp : p.Returns (Q i)) : ∀ j, (Function.update d.procs i p j).Returns (Q j) := by
    intro j
    by_cases hj : j = i
    · subst hj
      rwa [Function.update_self]
    · rw [Function.update_of_ne hj]
      exact hd j
  induction hrun with
  | refl => exact h
  | tail _ hstep ih =>
    cases hstep with
    | env _ => exact ih
    | @look i k hk => exact hresume ih ((hk ▸ ih i : (Prog.look k).Returns (Q i)) _)
    | @act i l f k hk _ => exact hresume ih ((hk ▸ ih i : (Prog.act l f k).Returns (Q i)) _)
    | @choose i k b hk => exact hresume ih ((hk ▸ ih i : (Prog.choose k).Returns (Q i)) b)

theorem returns_of_ret [DecidableEq ι] (h : ∀ i, (c.procs i).Returns (Q i)) (hrun : Reach E A c c')
    {i : ι} {a : α} (hret : c'.procs i = .ret a) : Q i a := by
  have hi := returns_reach h hrun i
  rwa [hret] at hi

end IdpServer.Conc
