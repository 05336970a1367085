import IdpServer.Conc.Wp

/-!
# Conc.Alone — one program and its environment

What a program knows between two of its actions is what the moves of `E` leave, and what it knows when it
returns it knows of every run that has come to the return (`alone_run`).
-/

namespace IdpServer.Conc

variable {σ ℓ α β ε : Type}

def alone (E : σ → σ → Prop) : Discipline Unit σ ℓ where
  inv _ := True
  mono m m' := m.trace <:+ m'.trace ∧
    (m'.trace = m.trace → Relation.ReflTransGen E m.shared m'.shared)
  mono_refl _ := ⟨List.suffix_refl _, fun _ => .refl⟩
  mono_trans := by
    rintro a b c ⟨hab, eab⟩ ⟨hbc, ebc⟩
    refine ⟨hab.trans hbc, fun hca => ?_⟩
    have hba : b.trace = a.trace :=
      (hca ▸ hbc).eq_of_length_le hab.length_le
    exact (eab hba).trans (ebc (hca.trans hba.symm))

variable {E : σ → σ → Prop} {A : Moment Unit σ ℓ → Unit → ℓ → Prop} {m : Moment Unit σ ℓ}

theorem own_unit (m : Moment Unit σ ℓ) : m.own () = m.trace :=
  List.filter_eq_self.mpr fun _ _ => by simp

def KeptBy (E : σ → σ → Prop) (R : Moment Unit σ ℓ → Prop) : Prop :=
  ∀ t s s', E s s' → R ⟨t, s⟩ → R ⟨t, s'⟩

variable {R : Moment Unit σ ℓ → Prop}

theorem alone_stable (hR : KeptBy E R) : (alone E).Stable () R := by
  rintro ⟨t, s⟩ ⟨t', s'⟩ hr hi hm
  have htrace : t' = t := by simpa only [own_unit] using hr.own
  subst htrace
  have hmoves : Relation.ReflTransGen E s s' := hr.mono.2 rfl
  clear hr hi
  induction hmoves with
  | refl => exact hm
  | tail _ hE ih => exact hR _ _ _ hE ih

theorem alone_after (l : ℓ) (f : σ → σ) :
    (alone E).inv (m.after () l f) ∧ (alone E).mono m (m.after () l f) := by
  refine ⟨trivial, List.suffix_cons _ _, fun h => ?_⟩
  exact absurd (congrArg List.length h) (by simp)

theorem alone_send {l : ℓ} {f : σ → α × σ} {e : ε} {k : α → ExceptT ε (Prog σ ℓ) β}
    {Q : Except ε β → Moment Unit σ ℓ → Prop} (hR : KeptBy E R) (hm : R m)
    (herr : ∀ m', R m' → Q (.error e) m')
    (hk : ∀ m', R m' → let m'' := m'.after () l fun s => (f s).2
      Q (.error e) m'' ∧ Wp (alone E) A () (k (f m'.shared).1).run Q m'') :
    Wp (alone E) A () (Prog.call e (Prog.atom l f) >>= k).run Q m := by
  refine wp_send (alone_stable hR) hm herr fun m' _ hm' _ => ?_
  obtain ⟨hinv, hmono⟩ := alone_after l fun s => (f s).2
  exact ⟨hinv, hmono, hk m' hm'⟩

/-- **What holds at the return** of a program that keeps it against the environment. -/
theorem alone_run {s : σ} {p : Prog σ ℓ α} {Q : α → Moment Unit σ ℓ → Prop}
    (hQ : ∀ a, KeptBy E (Q a)) (hp : Wp (alone E) A () p Q ⟨[], s⟩)
    {c : Config Unit σ ℓ α} (hrun : Reach E A (Config.start s fun _ => p) c) {a : α}
    (hret : c.procs () = .ret a) : Q a c.toMoment := by
  have hsafe : c.Safe (alone E) A fun _ => Q := by
    refine sound (fun m s' _ hE => ?_) (fun _ a m m' hr hi h => ?_) ⟨trivial, fun _ => hp⟩ hrun
    · exact ⟨trivial, List.suffix_refl _, fun _ => .single hE⟩
    · exact alone_stable (hQ a) m m' hr hi h
  exact hsafe.returned hret

theorem Reach.widen {ι : Type} [DecidableEq ι] {E' : σ → σ → Prop}
    {A : Moment ι σ ℓ → ι → ℓ → Prop} {c c' : Config ι σ ℓ α} (hE : ∀ s s', E s s' → E' s s')
    (h : Reach E A c c') : Reach E' A c c' := by
  refine Relation.ReflTransGen.mono (fun d d' hstep => ?_) c c' h
  cases hstep with
  | env h => exact .env (hE _ _ h)
  | look h => exact .look h
  | act h ha => exact .act h ha
  | choose b h => exact .choose b h

/-! ## The undisturbed run -/

namespace Prog

def log : Prog σ ℓ α → σ → List (Event Unit σ ℓ) → List (Event Unit σ ℓ)
  | .ret _, _, t => t
  | .look k, s, t => (k s).log s t
  | .act l f k, s, t => (k s).log (f s) (⟨(), l, s⟩ :: t)
  | .choose k, s, t => (k true).log s t

end Prog

theorem alone_eval (E : σ → σ → Prop) (p : Prog σ ℓ α) (s : σ) (t : List (Event Unit σ ℓ)) :
    Reach E Unrestricted (⟨⟨t, s⟩, fun _ => p⟩ : Config Unit σ ℓ α)
      ⟨⟨p.log s t, (p.eval s).2⟩, fun _ => .ret (p.eval s).1⟩ := by
  have hupdate (q q' : Prog σ ℓ α) : Function.update (fun _ : Unit => q) () q' = fun _ => q' := by
    funext i
    rfl
  induction p generalizing s t with
  | ret a => exact .refl
  | look k ih =>
    refine .head (.look (i := ()) rfl) ?_
    exact ih s s t
  | act l f k ih =>
    refine .head (.act (i := ()) rfl trivial) ?_
    exact ih s (f s) _
  | choose k ih =>
    refine .head (.choose (i := ()) true rfl) ?_
    exact ih true s t

end IdpServer.Conc
