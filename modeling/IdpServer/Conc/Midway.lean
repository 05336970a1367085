import Mathlib.Data.List.Infix
import IdpServer.Conc.Run

/-!
# Conc.Midway — a run seen from one of its steps

`Reach.through`: each command of a run with one particular step is recorded in the trace up to the step, is
the step itself, or is of a program that had not returned by then.
-/

namespace IdpServer.Conc

variable {ι σ ℓ α : Type} [DecidableEq ι] {E : σ → σ → Prop} {A : Moment ι σ ℓ → ι → ℓ → Prop}
variable {c c' c'' : Config ι σ ℓ α}

variable {i : ι} {c₀ : Config ι σ ℓ α}

theorem Reach.returned (h : Reach E A c c') {a : α} (hret : c.procs i = .ret a) :
    c'.procs i = .ret a := by
  have hkept : ∀ {d : Config ι σ ℓ α} {j : ι} {p : Prog σ ℓ α}, d.procs i = .ret a →
      d.procs j ≠ .ret a → Function.update d.procs j p i = .ret a := by
    intro d j p hd hj
    have hne : i ≠ j := fun h => hj (h ▸ hd)
    rw [Function.update_of_ne hne, hd]
  induction h with
  | refl => exact hret
  | tail _ hstep ih =>
    cases hstep with
    | env hE => exact ih
    | look hk => exact hkept ih (by rw [hk]; nofun)
    | act hk ha => exact hkept ih (by rw [hk]; nofun)
    | choose b hk => exact hkept ih (by rw [hk]; nofun)

theorem Reach.trace_suffix (h : Reach E A c c') : c.trace <:+ c'.trace := by
  induction h with
  | refl => exact List.suffix_refl _
  | tail _ hstep ih =>
    cases hstep with
    | env hE => exact ih
    | look hk => exact ih
    | act hk ha => exact ih.trans (List.suffix_cons _ _)
    | choose b hk => exact ih

theorem Reach.recorded (h : Reach E A c c') :
    Reach E (fun m i l => A m i l ∧ (⟨i, l, m.shared⟩ :: m.trace) <:+ c'.trace) c c' := by
  -- the trace that records them is fixed, the end of the run moves
  have hall : ∀ t, c'.trace <:+ t →
      Reach E (fun m i l => A m i l ∧ (⟨i, l, m.shared⟩ :: m.trace) <:+ t) c c' := by
    intro t ht
    induction h with
    | refl => exact .refl
    | tail _ hstep ih =>
      cases hstep with
      | env hE => exact (ih ht).tail (.env hE)
      | look hk => exact (ih ht).tail (.look hk)
      | act hk ha => exact (ih ((List.suffix_cons _ _).trans ht)).tail (.act hk ⟨ha, ht⟩)
      | choose b hk => exact (ih ht).tail (.choose b hk)
  exact hall _ (List.suffix_refl _)

theorem Reach.pending (h : Reach E A c c') :
    Reach E (fun m i l => A m i l ∧ c.trace <:+ m.trace ∧ ∀ a, c.procs i ≠ .ret a) c c' := by
  induction h with
  | refl => exact .refl
  | @tail d d' hrun hstep ih =>
    cases hstep with
    | env hE => exact ih.tail (.env hE)
    | look hk => exact ih.tail (.look hk)
    | act hk ha =>
      refine ih.tail (.act hk ⟨ha, Reach.trace_suffix hrun, fun a hret => ?_⟩)
      cases hk.symm.trans (Reach.returned hrun hret)
    | choose b hk => exact ih.tail (.choose b hk)

/-- The commands of a run that comes by this configuration and takes this step there. -/
def Through (c : Config ι σ ℓ α) (x : Event ι σ ℓ) (m : Moment ι σ ℓ) (i : ι) (l : ℓ) : Prop :=
  (⟨i, l, m.shared⟩ :: m.trace) <:+ c.trace ∨ (m = c.toMoment ∧ ⟨i, l, m.shared⟩ = x) ∨
    ((x :: c.trace) <:+ m.trace ∧ ∀ a, c.procs i ≠ .ret a)

theorem Reach.until (h : Reach E A c₀ c) (x : Event ι σ ℓ) : Reach E (Through c x) c₀ c :=
  Relation.ReflTransGen.mono (fun _ _ => Step.imp fun _ _ _ h => Or.inl h.2) _ _ h.recorded

/-- **A run that takes a step.** -/
theorem Reach.through {x : Event ι σ ℓ} (hbefore : Reach E A c₀ c) (hstep : Step E A c c')
    (hx : c'.trace = x :: c.trace) (hafter : Reach E A c' c'') : Reach E (Through c x) c₀ c'' := by
  have hlast : Step E (Through c x) c c' := by
    cases hstep with
    | act hk ha => exact .act hk (.inr (.inl ⟨rfl, (List.cons.inj hx).1⟩))
    | env hE => exact absurd hx.symm (List.cons_ne_self _ _)
    | look hk => exact absurd hx.symm (List.cons_ne_self _ _)
    | choose b hk => exact absurd hx.symm (List.cons_ne_self _ _)
  have hrest : Reach E (Through c x) c' c'' := by
    refine Relation.ReflTransGen.mono (fun _ _ => Step.imp fun m i l h => ?_) _ _ hafter.pending
    refine .inr (.inr ⟨hx ▸ h.2.1, fun a hret => h.2.2 a ?_⟩)
    exact Reach.returned (.single hstep) hret
  exact ((hbefore.until x).tail hlast).trans hrest

theorem exists_step_played [∀ m i l, Decidable (A m i l)] {P : Config ι σ ℓ α → Prop}
    [DecidablePred P]
    (h : (c.move A (.run i)).any (fun c' => decide (c'.trace.length ≠ c.trace.length ∧ P c')) = true) :
    ∃ d l c', Reach E A c d ∧ Step E A d c' ∧ c'.trace = ⟨i, l, d.shared⟩ :: d.trace ∧
      d.toMoment = c.toMoment ∧ (∀ j, j ≠ i → d.procs j = c.procs j) ∧ P c' := by
  have hset : Reach E A c (c.resume i ((c.procs i).settle c.shared)) := by
    simpa only [resume_self] using settle_reach c i (c.procs i)
  simp only [Config.move] at h
  split at h
  next l f k hk =>
    rw [hk] at hset
    split at h
    next ha =>
      refine ⟨c.resume i (.act l f k), l, _, hset, .act (Function.update_self _ _ _) ha, rfl, rfl,
        fun j hj => Function.update_of_ne hj _ _, ?_⟩
      simpa [Config.resume] using (of_decide_eq_true h).2
    next => cases h
  next => exact absurd rfl (of_decide_eq_true h).1

end IdpServer.Conc
