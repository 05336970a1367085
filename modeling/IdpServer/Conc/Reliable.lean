import IdpServer.Conc.Wp

/-!
# Conc.Reliable — programs whose calls are answered

A call may fail before its command, or lose its answer. To `reliable` programs neither happens, to
`reliableFrom P` ones not from their first command in `P` on.
-/

namespace IdpServer.Conc

variable {ι σ ℓ α β ε : Type} [DecidableEq ι]

namespace Prog

def reliable : Prog σ ℓ α → Prog σ ℓ α
  | .ret a => .ret a
  | .look k => .look fun s => (k s).reliable
  | .act l f k => .act l f fun s => (k s).reliable
  | .choose k => (k true).reliable

/-- The program when no call fails from its first command in `P` on. -/
def reliableFrom (P : ℓ → Bool) : Prog σ ℓ α → Prog σ ℓ α
  | .ret a => .ret a
  | .look k => .look fun s => (k s).reliableFrom P
  | .act l f k => .act l f fun s => if P l then (k s).reliable else (k s).reliableFrom P
  | .choose k => .choose fun b => (k b).reliableFrom P

theorem reliable_bind (p : Prog σ ℓ α) (g : α → Prog σ ℓ β) :
    (p.bind g).reliable = p.reliable.bind fun a => (g a).reliable := by
  induction p with
  | ret a => rfl
  | look k ih => exact congrArg Prog.look (funext ih)
  | act l f k ih => exact congrArg (Prog.act l f) (funext ih)
  | choose k ih => exact ih true

theorem reliableFrom_bind {P : ℓ → Bool} {p : Prog σ ℓ α} (hp : p.Acts fun l _ => P l = false)
    (g : α → Prog σ ℓ β) :
    (p.bind g).reliableFrom P = (p.reliableFrom P).bind fun a => (g a).reliableFrom P := by
  induction p with
  | ret a => rfl
  | look k ih => exact congrArg Prog.look (funext fun s => ih s (hp s))
  | act l f k ih =>
    refine congrArg (Prog.act l f) (funext fun s => ?_)
    simp only [hp.1, Bool.false_eq_true, if_false]
    exact ih s (hp.2 s)
  | choose k ih => exact congrArg Prog.choose (funext fun b => ih b (hp b))

end Prog

section Rules

variable {D : Discipline ι σ ℓ} {A : Moment ι σ ℓ → ι → ℓ → Prop} {i : ι} {m : Moment ι σ ℓ}
variable {P : ℓ → Bool}

variable {p : Prog σ ℓ α} {Q : Except ε β → Moment ι σ ℓ → Prop} {g : α → ExceptT ε (Prog σ ℓ) β}
variable {e : ε} {l : ℓ}

theorem Wp.reliable {Q : α → Moment ι σ ℓ → Prop} (h : Wp D A i p Q m) :
    Wp D A i p.reliable Q m := by
  induction p generalizing m with
  | ret a => exact h
  | look k ih => exact fun m' hr hi => ih _ (h m' hr hi)
  | act l f k ih =>
    intro m' hr hi ha
    obtain ⟨hinv, hmono, hrest⟩ := h m' hr hi ha
    exact ⟨hinv, hmono, ih _ hrest⟩
  | choose k ih => exact ih true (h true)

theorem Wp.reliableFrom {Q : α → Moment ι σ ℓ → Prop} (h : Wp D A i p Q m) :
    Wp D A i (p.reliableFrom P) Q m := by
  induction p generalizing m with
  | ret a => exact h
  | look k ih => exact fun m' hr hi => ih _ (h m' hr hi)
  | act l f k ih =>
    intro m' hr hi ha
    obtain ⟨hinv, hmono, hrest⟩ := h m' hr hi ha
    refine ⟨hinv, hmono, ?_⟩
    split
    · exact Wp.reliable hrest
    · exact ih _ hrest
  | choose k ih => exact fun b => ih b (h b)

/-! ### Calls that are answered -/

theorem wp_reliable_bind {p : ExceptT ε (Prog σ ℓ) α} : Wp D A i (p >>= g).run.reliable Q m ↔
      Wp D A i p.run.reliable (fun r m' => match r with
        | .ok a => Wp D A i (g a).run.reliable Q m'
        | .error e => Q (.error e) m') m := by
  have hbind : (p >>= g).run.reliable =
      p.run.reliable.bind fun r => (ExceptT.bindCont g r).reliable :=
    Prog.reliable_bind _ _
  rw [hbind, wp_bind]
  constructor <;>
  · intro h
    refine h.imp fun r m' hr => ?_
    cases r <;> exact hr

theorem wp_reliable_call {Q : Except ε α → Moment ι σ ℓ → Prop} :
    Wp D A i (Prog.call e p).run.reliable Q m ↔ Wp D A i p.reliable (fun a => Q (.ok a)) m := by
  have hcall : (Prog.call e p).run.reliable = p.reliable.bind fun a => .ret (.ok a) :=
    Prog.reliable_bind _ _
  rw [hcall, wp_bind]
  rfl

theorem wp_reliable_attempt {Q : Except ε Unit → Moment ι σ ℓ → Prop} :
    Wp D A i (Prog.attempt (ε := ε) p).run.reliable Q m ↔
      Wp D A i p.reliable (fun _ => Q (.ok ())) m := by
  have hattempt : (Prog.attempt (ε := ε) p).run.reliable = p.reliable.bind fun _ => .ret (.ok ()) :=
    Prog.reliable_bind _ _
  rw [hattempt, wp_bind]
  rfl

theorem wp_reliable_lift {Q : Except ε α → Moment ι σ ℓ → Prop} :
    Wp D A i (liftM p : ExceptT ε (Prog σ ℓ) α).run.reliable Q m ↔
      Wp D A i p.reliable (fun a => Q (.ok a)) m := by
  have hlift : (liftM p : ExceptT ε (Prog σ ℓ) α).run.reliable = p.reliable.bind fun a => .ret (.ok a) :=
    Prog.reliable_bind _ _
  rw [hlift, wp_bind]
  rfl

theorem wp_reliable_require {c : Prop} [Decidable c] {k : Unit → ExceptT ε (Prog σ ℓ) β}
    (hno : ¬ c → Q (.error e) m) (hyes : c → Wp D A i (k ()).run.reliable Q m) :
    Wp D A i (Prog.require c e >>= k).run.reliable Q m := by
  rw [Prog.require]
  split
  next h => exact hyes h
  next h => exact hno h

/-! ### Up to the point and past it -/

theorem wp_from_then {p : ExceptT ε (Prog σ ℓ) α} (hp : p.run.Acts fun l _ => P l = false)
    (h : Wp D A i p.run (fun r m' => match r with
      | .ok a => Wp D A i ((g a).run.reliableFrom P) Q m'
      | .error e => Q (.error e) m') m) : Wp D A i ((p >>= g).run.reliableFrom P) Q m := by
  have hbind : (p >>= g).run.reliableFrom P =
      (p.run.reliableFrom P).bind fun r => (ExceptT.bindCont g r).reliableFrom P :=
    Prog.reliableFrom_bind hp _
  rw [hbind, wp_bind]
  refine h.reliableFrom.imp fun r m' hr => ?_
  cases r <;> exact hr

section Statements

variable {Q : Except ε β → Moment ι σ ℓ → Prop} {R : Moment ι σ ℓ → Prop}

variable {e : ε} {k : α → ExceptT ε (Prog σ ℓ) β} {g : σ → α}

theorem wp_from_require {c : Prop} [Decidable c] {k : Unit → ExceptT ε (Prog σ ℓ) β}
    (hno : ¬ c → Q (.error e) m) (hyes : c → Wp D A i ((k ()).run.reliableFrom P) Q m) :
    Wp D A i ((Prog.require c e >>= k).run.reliableFrom P) Q m := by
  rw [Prog.require]
  split
  next h => exact hyes h
  next h => exact hno h

theorem wp_from_found {o : Option α} (hnone : o = none → Q (.error e) m)
    (hsome : ∀ a, o = some a → Wp D A i ((k a).run.reliableFrom P) Q m) :
    Wp D A i ((Prog.found o e >>= k).run.reliableFrom P) Q m := by
  unfold Prog.found
  cases o with
  | none => exact hnone rfl
  | some a => exact hsome a rfl

theorem wp_from_ask (hR : D.Stable i R) (hm : R m) (herr : ∀ m', R m' → Q (.error e) m')
    (hk : ∀ m', D.inv m' → R m' → Wp D A i ((k (g m'.shared)).run.reliableFrom P) Q m') :
    Wp D A i ((Prog.call e (Prog.read g) >>= k).run.reliableFrom P) Q m := by
  refine wp_from_then (.call fun _ => trivial) (wp_call (herr m hm) fun m' hr hi => ?_)
  have hm' := hR _ _ hr hi hm
  exact ⟨hk m' hi hm', herr m' hm'⟩

theorem wp_from_clock (hR : D.Stable i R) (hm : R m)
    (hk : ∀ m', D.inv m' → R m' → Wp D A i ((k (g m'.shared)).run.reliableFrom P) Q m') :
    Wp D A i (((liftM (Prog.read g : Prog σ ℓ α) : ExceptT ε (Prog σ ℓ) α) >>= k).run.reliableFrom P)
      Q m := by
  refine wp_from_then (.lift fun _ => trivial) (wp_lift.mpr fun m' hr hi => ?_)
  exact hk m' hi (hR _ _ hr hi hm)

theorem wp_from_acts {C : ℓ → (σ → σ) → Prop} {p : ExceptT ε (Prog σ ℓ) α} (hp : p.run.Acts C)
    (hquiet : ∀ l f, C l f → P l = false) (hR : D.Stable i R)
    (hC : ∀ m l f, C l f → D.inv m → R m → A m i l →
      D.inv (m.after i l f) ∧ D.mono m (m.after i l f) ∧ R (m.after i l f)) (hm : R m)
    (herr : ∀ e m', R m' → Q (.error e) m')
    (hk : ∀ a m', R m' → Wp D A i ((k a).run.reliableFrom P) Q m') :
    Wp D A i ((p >>= k).run.reliableFrom P) Q m := by
  refine wp_from_then (hp.imp hquiet) ((Wp.of_acts hp hR hC hm).imp fun r m' hr => ?_)
  cases r with
  | ok a => exact hk a m' hr
  | error e => exact herr e m' hr

end Statements

theorem wp_from_send {f : σ → α × σ} {k : α → ExceptT ε (Prog σ ℓ) β} {R : Moment ι σ ℓ → Prop}
    (hl : P l = true) (hR : D.Stable i R) (hm : R m) (herr : Q (.error e) m)
    (hk : ∀ m', D.inv m' → R m' → A m' i l → let m'' := m'.after i l fun s => (f s).2
      D.inv m'' ∧ D.mono m' m'' ∧ Wp D A i (k (f m'.shared).1).run.reliable Q m'') :
    Wp D A i ((Prog.call e (Prog.atom l f) >>= k).run.reliableFrom P) Q m := by
  intro sent
  cases sent with
  | false => exact herr
  | true =>
    intro m' hr hi ha
    obtain ⟨hinv, hmono, hnext⟩ := hk m' hi (hR _ _ hr hi hm) ha
    refine ⟨hinv, hmono, ?_⟩
    dsimp only
    rw [if_pos hl]
    exact hnext

theorem wp_from_first {p : ExceptT ε (Prog σ ℓ) α}
    (h : Wp D A i (p.run.reliableFrom P) (fun r m' => match r with
      | .ok a => Wp D A i (g a).run Q m'
      | .error e => Q (.error e) m') m) : Wp D A i ((p >>= g).run.reliableFrom P) Q m := by
  have hprog : ∀ (p : Prog σ ℓ (Except ε α)) m, Wp D A i (p.reliableFrom P)
      (fun r m' => Wp D A i (ExceptT.bindCont g r) Q m') m →
      Wp D A i ((p.bind (ExceptT.bindCont g)).reliableFrom P) Q m := by
    intro p
    induction p with
    | ret r => exact fun m h => Wp.reliableFrom h
    | look k ih => exact fun m h m' hr hi => ih _ m' (h m' hr hi)
    | act l f k ih =>
      intro m h m' hr hi ha
      obtain ⟨hinv, hmono, hrest⟩ := h m' hr hi ha
      refine ⟨hinv, hmono, ?_⟩
      cases hl : P l with
      | true =>
        simp only [hl, if_true] at hrest ⊢
        rw [Prog.reliable_bind, wp_bind]
        exact hrest.imp fun r m'' hpost => hpost.reliable
      | false =>
        simp only [hl, Bool.false_eq_true, if_false] at hrest ⊢
        exact ih _ _ hrest
    | choose k ih => exact fun m h b => ih b m (h b)
  refine hprog p.run m (h.imp fun r m' hr => ?_)
  cases r <;> exact hr

def Moment.reached (P : ℓ → Bool) (i : ι) (m : Moment ι σ ℓ) : Bool := (m.own i).any (P ·.label)

theorem Moment.reached_after {f : σ → σ} :
    (m.after i l f).reached P i = (P l || m.reached P i) := by
  rw [Moment.reached, Moment.own_after_self, List.any_cons, Moment.reached]

theorem wp_reliable_reached {Q : α → Moment ι σ ℓ → Prop} (hm : m.reached P i = true)
    (h : Wp D A i p.reliable Q m) :
    Wp D A i p.reliable (fun a m' => m'.reached P i = true ∧ Q a m') m := by
  induction p generalizing m with
  | ret a => exact ⟨hm, h⟩
  | look k ih =>
    intro m' hr hi
    have hm' : m'.reached P i = true := by rwa [Moment.reached, hr.own]
    exact ih _ hm' (h m' hr hi)
  | act l f k ih =>
    intro m' hr hi ha
    obtain ⟨hinv, hmono, hrest⟩ := h m' hr hi ha
    have hm' : (m'.after i l f).reached P i = true := by
      rw [Moment.reached_after, Moment.reached, hr.own]
      exact Bool.or_eq_true_iff.mpr (.inr hm)
    exact ⟨hinv, hmono, ih _ hm' hrest⟩
  | choose k ih => exact ih true hm h

theorem wp_from_bind_prog {g : α → Prog σ ℓ β} {Q : β → Moment ι σ ℓ → Prop}
    (hm : m.reached P i = false)
    (h : Wp D A i (p.reliableFrom P) (fun a m' => if m'.reached P i = true then
      Wp D A i (g a).reliable Q m' else Wp D A i ((g a).reliableFrom P) Q m') m) :
    Wp D A i ((p.bind g).reliableFrom P) Q m := by
  induction p generalizing m with
  | ret a =>
    change (if m.reached P i = true then _ else _) at h
    rwa [if_neg (by simp [hm])] at h
  | look k ih =>
    intro m' hr hi
    have hm' : m'.reached P i = false := by rwa [Moment.reached, hr.own]
    exact ih _ hm' (h m' hr hi)
  | act l f k ih =>
    intro m' hr hi ha
    obtain ⟨hinv, hmono, hrest⟩ := h m' hr hi ha
    have hm' : m'.reached P i = false := by rwa [Moment.reached, hr.own]
    refine ⟨hinv, hmono, ?_⟩
    cases hl : P l with
    | true =>
      have hreached : (m'.after i l f).reached P i = true := by rw [Moment.reached_after, hl, Bool.true_or]
      simp only [hl, if_true] at hrest ⊢
      rw [Prog.reliable_bind, wp_bind]
      refine (wp_reliable_reached hreached hrest).imp fun a m'' hpost => ?_
      obtain ⟨hpast, hpost⟩ := hpost
      rwa [if_pos hpast] at hpost
    | false =>
      have hreached : (m'.after i l f).reached P i = false := by
        rw [Moment.reached_after, hl, hm', Bool.false_or]
      simp only [hl, Bool.false_eq_true, if_false] at hrest ⊢
      exact ih _ hreached hrest
  | choose k ih => exact fun b => ih b hm (h b)

theorem wp_from_bind {p : ExceptT ε (Prog σ ℓ) α} (hm : m.reached P i = false)
    (h : Wp D A i (p.run.reliableFrom P) (fun r m' => match r with
      | .ok a => if m'.reached P i = true then Wp D A i (g a).run.reliable Q m'
          else Wp D A i ((g a).run.reliableFrom P) Q m'
      | .error e => Q (.error e) m') m) : Wp D A i ((p >>= g).run.reliableFrom P) Q m := by
  refine wp_from_bind_prog hm (h.imp fun r m' hr => ?_)
  cases r with
  | ok a => exact hr
  | error e =>
    split <;> exact hr

theorem wp_reliable_ok {p : ExceptT ε (Prog σ ℓ) α}
    (hp : Wp D A i p.run.reliable (fun r _ => r.isOk = true) m)
    (hg : ∀ a m', Wp D A i (g a).run.reliable (fun r _ => r.isOk = true) m') :
    Wp D A i (p >>= g).run.reliable (fun r _ => r.isOk = true) m := by
  refine wp_reliable_bind.mpr (hp.imp fun r m' hr => ?_)
  cases r with
  | ok a => exact hg a m'
  | error e => cases hr

end Rules

/-! ## Programs of which nothing is asked but the end -/

def Discipline.free (ι σ ℓ : Type) : Discipline ι σ ℓ where
  inv _ := True
  mono _ _ := True
  mono_refl _ := trivial
  mono_trans _ _ := trivial

section Free

variable {A : Moment ι σ ℓ → ι → ℓ → Prop} {i : ι} {m : Moment ι σ ℓ} {P : ℓ → Bool}

theorem wp_free (p : Prog σ ℓ α) : Wp (.free ι σ ℓ) A i p (fun _ _ => True) m := by
  induction p generalizing m with
  | ret a => trivial
  | look k ih => exact fun _ _ _ => ih _
  | act l f k ih => exact fun _ _ _ _ => ⟨trivial, trivial, ih _⟩
  | choose k ih => exact fun b => ih b

theorem unreached_stable {D : Discipline ι σ ℓ} (P : ℓ → Bool) (i : ι) :
    D.Stable i fun m => m.reached P i = false := by
  intro m m' hr _ h
  rwa [Moment.reached, hr.own]

theorem unreached_after {l : ℓ} {f : σ → σ} (h : m.reached P i = false) (hl : P l = false) :
    (m.after i l f).reached P i = false := by
  rw [Moment.reached_after, hl, h, Bool.false_or]

theorem wp_from_before {p : ExceptT ε (Prog σ ℓ) α} {k : α → ExceptT ε (Prog σ ℓ) β}
    {Q : Except ε β → Moment ι σ ℓ → Prop} (hp : p.run.Acts fun l _ => P l = false)
    (hm : m.reached P i = false) (herr : ∀ e m', m'.reached P i = false → Q (.error e) m')
    (hk : ∀ a m', m'.reached P i = false → Wp (.free ι σ ℓ) A i ((k a).run.reliableFrom P) Q m') :
    Wp (.free ι σ ℓ) A i ((p >>= k).run.reliableFrom P) Q m :=
  wp_from_acts hp (fun _ _ h => h) (unreached_stable P i)
    (fun _ _ _ hl _ hm _ => ⟨trivial, trivial, unreached_after hm hl⟩) hm herr hk

end Free

end IdpServer.Conc
