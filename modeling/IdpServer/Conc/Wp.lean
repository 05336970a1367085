import Mathlib.Data.List.Infix
import IdpServer.Conc.Run

/-!
# Conc.Wp — one program among the others

A `Discipline` is what a program may count on from the rest: an invariant, and a preorder that every command
and move respects. `Wp` is the weakest precondition under it, and `sound` is about every run.
-/

namespace IdpServer.Conc

variable {ι σ ℓ α β γ ε : Type}

theorem Moment.clock_refl (clock : σ → Int) (m : Moment ι σ ℓ) : clock m.shared ≤ clock m.shared :=
  Int.le_refl _

theorem Moment.clock_trans (clock : σ → Int) {a b c : Moment ι σ ℓ} (hab : clock a.shared ≤ clock b.shared)
    (hbc : clock b.shared ≤ clock c.shared) : clock a.shared ≤ clock c.shared :=
  Int.le_trans hab hbc

theorem Moment.list_refl (list : σ → List γ) (m : Moment ι σ ℓ) : list m.shared <+: list m.shared :=
  List.prefix_refl _

theorem Moment.list_trans (list : σ → List γ) {a b c : Moment ι σ ℓ} (hab : list a.shared <+: list b.shared)
    (hbc : list b.shared <+: list c.shared) : list a.shared <+: list c.shared :=
  hab.trans hbc

variable [DecidableEq ι]

structure Discipline (ι σ ℓ : Type) where
  inv : Moment ι σ ℓ → Prop
  mono : Moment ι σ ℓ → Moment ι σ ℓ → Prop
  mono_refl : ∀ m, mono m m
  mono_trans : ∀ {a b c}, mono a b → mono b c → mono a c

def Moment.own (m : Moment ι σ ℓ) (i : ι) : List (Event ι σ ℓ) :=
  m.trace.filter fun e => e.pid = i

@[simp] theorem Moment.own_after_self {m : Moment ι σ ℓ} {i : ι} {l : ℓ} {f : σ → σ} :
    (m.after i l f).own i = ⟨i, l, m.shared⟩ :: m.own i := by
  simp [Moment.own]

theorem Moment.mem_own {m : Moment ι σ ℓ} {i : ι} {e : Event ι σ ℓ} :
    e ∈ m.own i ↔ e ∈ m.trace ∧ e.pid = i := by
  simp [Moment.own]

namespace Discipline

variable (D : Discipline ι σ ℓ)

structure Rely (i : ι) (m m' : Moment ι σ ℓ) : Prop where
  mono : D.mono m m'
  suffix : m.trace <:+ m'.trace
  own : m'.own i = m.own i

variable {D}

theorem Rely.refl (i : ι) (m : Moment ι σ ℓ) : D.Rely i m m :=
  ⟨D.mono_refl m, List.suffix_refl _, rfl⟩

theorem Rely.trans {i : ι} {a b c : Moment ι σ ℓ} (hab : D.Rely i a b) (hbc : D.Rely i b c) :
    D.Rely i a c :=
  ⟨D.mono_trans hab.mono hbc.mono, hab.suffix.trans hbc.suffix, hbc.own.trans hab.own⟩

theorem Rely.of_other {i j : ι} {m : Moment ι σ ℓ} {l : ℓ} {f : σ → σ} (hij : j ≠ i)
    (hm : D.mono m (m.after j l f)) : D.Rely i m (m.after j l f) := by
  refine ⟨hm, List.suffix_cons _ _, ?_⟩
  simp [Moment.own, hij]

end Discipline

/-- **The weakest precondition of one program among the others.** -/
def Wp (D : Discipline ι σ ℓ) (A : Moment ι σ ℓ → ι → ℓ → Prop) (i : ι) :
    Prog σ ℓ α → (α → Moment ι σ ℓ → Prop) → Moment ι σ ℓ → Prop
  | .ret a, Q, m => Q a m
  | .look k, Q, m => ∀ m', D.Rely i m m' → D.inv m' → Wp D A i (k m'.shared) Q m'
  | .act l f k, Q, m => ∀ m', D.Rely i m m' → D.inv m' → A m' i l →
      D.inv (m'.after i l f) ∧ D.mono m' (m'.after i l f) ∧
        Wp D A i (k m'.shared) Q (m'.after i l f)
  | .choose k, Q, m => ∀ b, Wp D A i (k b) Q m

section Rules

variable {D : Discipline ι σ ℓ} {A : Moment ι σ ℓ → ι → ℓ → Prop} {i : ι}
variable {m : Moment ι σ ℓ}

variable {p : Prog σ ℓ α} {g : σ → α} {Q : α → Moment ι σ ℓ → Prop} {a : α} {e : ε}
variable {P : ℓ → (σ → σ) → Prop} {c : Prop} {k : α → ExceptT ε (Prog σ ℓ) β}

theorem wp_bind {g : α → Prog σ ℓ β} {Q : β → Moment ι σ ℓ → Prop} :
    Wp D A i (p.bind g) Q m ↔ Wp D A i p (fun a m' => Wp D A i (g a) Q m') m := by
  induction p generalizing m with
  | ret a => exact Iff.rfl
  | look k ih => exact forall_congr' fun m' => forall₂_congr fun _ _ => ih _
  | act l f k ih =>
    refine forall_congr' fun m' => forall₃_congr fun _ _ _ => ?_
    exact and_congr_right fun _ => and_congr_right fun _ => ih _
  | choose k ih => exact forall_congr' fun b => ih b

theorem Wp.imp {R : α → Moment ι σ ℓ → Prop} (h : Wp D A i p Q m) (hQR : ∀ a m, Q a m → R a m) :
    Wp D A i p R m := by
  induction p generalizing m with
  | ret a => exact hQR a m h
  | look k ih => exact fun m' hr hi => ih _ (h m' hr hi)
  | act l f k ih =>
    intro m' hr hi ha
    obtain ⟨h₁, h₂, h₃⟩ := h m' hr hi ha
    exact ⟨h₁, h₂, ih _ h₃⟩
  | choose k ih => exact fun b => ih b (h b)

theorem Wp.rely {m' : Moment ι σ ℓ} (hQ : ∀ a m m', D.Rely i m m' → D.inv m' → Q a m → Q a m')
    (h : Wp D A i p Q m) (hr : D.Rely i m m') (hi : D.inv m') : Wp D A i p Q m' := by
  induction p with
  | ret a => exact hQ a m m' hr hi h
  | look k => exact fun m'' hr' hi' => h m'' (hr.trans hr') hi'
  | act l f k => exact fun m'' hr' hi' ha => h m'' (hr.trans hr') hi' ha
  | choose k ih => exact fun b => ih b (h b)

@[simp] theorem wp_ret : Wp D A i (.ret a) Q m ↔ Q a m := Iff.rfl

/-! ### Code that may fail -/

theorem wp_bind_except {p : ExceptT ε (Prog σ ℓ) α} {g : α → ExceptT ε (Prog σ ℓ) β}
    {Q : Except ε β → Moment ι σ ℓ → Prop} :
    Wp D A i (p >>= g).run Q m ↔ Wp D A i p.run (fun r m' => match r with
        | .ok a => Wp D A i (g a).run Q m'
        | .error e => Q (.error e) m') m := by
  show Wp D A i (Prog.bind p.run (ExceptT.bindCont g)) Q m ↔ _
  rw [wp_bind]
  constructor <;>
  · intro h
    refine h.imp fun r m' hr => ?_
    cases r <;> exact hr

@[simp] theorem wp_throw {Q : Except ε α → Moment ι σ ℓ → Prop} :
    Wp D A i (throw e : ExceptT ε (Prog σ ℓ) α).run Q m ↔ Q (.error e) m := Iff.rfl

theorem wp_call {Q : Except ε α → Moment ι σ ℓ → Prop} (hfail : Q (.error e) m)
    (h : Wp D A i p (fun a m' => Q (.ok a) m' ∧ Q (.error e) m') m) :
    Wp D A i (Prog.call e p).run Q m := by
  intro sent
  cases sent with
  | false => exact hfail
  | true =>
    refine wp_bind.mpr (h.imp fun a m' ha answered => ?_)
    cases answered with
    | false => exact ha.2
    | true => exact ha.1

theorem wp_attempt {Q : Except ε Unit → Moment ι σ ℓ → Prop} (hskip : Q (.ok ()) m)
    (h : Wp D A i p (fun _ m' => Q (.ok ()) m') m) :
    Wp D A i (Prog.attempt (ε := ε) p).run Q m := by
  intro sent
  cases sent with
  | false => exact hskip
  | true => exact wp_bind.mpr h

theorem wp_lift {Q : Except ε α → Moment ι σ ℓ → Prop} :
    Wp D A i (liftM p : ExceptT ε (Prog σ ℓ) α).run Q m ↔
      Wp D A i p (fun a m' => Q (.ok a) m') m := by
  exact wp_bind

theorem wp_adapt {ε' : Type} {g : ε → ε'} {p : ExceptT ε (Prog σ ℓ) α}
    {Q : Except ε' α → Moment ι σ ℓ → Prop} :
    Wp D A i (Prog.adapt g p).run Q m ↔ Wp D A i p.run (fun r m' => Q (r.mapError g) m') m :=
  wp_bind

/-! ### Along the code of a service

Each rule takes one statement off the front of the code. `R` is what the program has established
so far; it must survive interference, and it is what the program knows when a call fails. -/

def Discipline.Stable (D : Discipline ι σ ℓ) (i : ι) (R : Moment ι σ ℓ → Prop) : Prop :=
  ∀ m m', D.Rely i m m' → D.inv m' → R m → R m'

theorem stable_true : D.Stable i fun _ => True := fun _ _ _ _ h => h

variable {Q : Except ε β → Moment ι σ ℓ → Prop} {R : Moment ι σ ℓ → Prop}

theorem Wp.of_acts (hp : p.Acts P) (hR : D.Stable i R)
    (hP : ∀ m l f, P l f → D.inv m → R m → A m i l →
      D.inv (m.after i l f) ∧ D.mono m (m.after i l f) ∧ R (m.after i l f)) (hm : R m) :
    Wp D A i p (fun _ => R) m := by
  induction p generalizing m with
  | ret a => exact hm
  | look k ih => exact fun m' hr hi => ih _ (hp _) (hR _ _ hr hi hm)
  | act l f k ih =>
    intro m' hr hi ha
    obtain ⟨hinv, hmono, hm'⟩ := hP m' l f hp.1 hi (hR _ _ hr hi hm) ha
    exact ⟨hinv, hmono, ih _ (hp.2 _) hm'⟩
  | choose k ih => exact fun b => ih b (hp b) hm

theorem wp_require [Decidable c] {k : Unit → ExceptT ε (Prog σ ℓ) β} (hno : ¬ c → Q (.error e) m)
    (hyes : c → Wp D A i (k ()).run Q m) : Wp D A i (Prog.require c e >>= k).run Q m := by
  rw [Prog.require]
  split
  next h => exact hyes h
  next h => exact hno h

theorem wp_whenever [Decidable c] {p : ExceptT ε (Prog σ ℓ) Unit}
    {Q : Except ε Unit → Moment ι σ ℓ → Prop} (hno : ¬ c → Q (.ok ()) m)
    (hyes : c → Wp D A i p.run Q m) : Wp D A i (Prog.whenever c p).run Q m := by
  rw [Prog.whenever]
  split
  next h => exact hyes h
  next h => exact hno h

theorem wp_provided {c : Prop} [Decidable c] {a : α} {p : ExceptT ε (Prog σ ℓ) α}
    {Q : Except ε α → Moment ι σ ℓ → Prop} (hno : ¬ c → Q (.ok a) m)
    (hyes : c → Wp D A i p.run Q m) : Wp D A i (Prog.provided c a p).run Q m := by
  rw [Prog.provided]
  split
  next h => exact hyes h
  next h => exact hno h

theorem wp_found {o : Option α} (hnone : o = none → Q (.error e) m)
    (hsome : ∀ a, o = some a → Wp D A i (k a).run Q m) :
    Wp D A i (Prog.found o e >>= k).run Q m := by
  unfold Prog.found
  cases o with
  | none => exact hnone rfl
  | some a => exact hsome a rfl

theorem wp_ask (hR : D.Stable i R) (hm : R m) (herr : ∀ m', R m' → Q (.error e) m')
    (hk : ∀ m', D.inv m' → R m' → Wp D A i (k (g m'.shared)).run Q m') :
    Wp D A i (Prog.call e (Prog.read g) >>= k).run Q m := by
  refine wp_bind_except.mpr (wp_call (herr m hm) fun m' hr hi => ?_)
  have hm' := hR _ _ hr hi hm
  exact ⟨hk m' hi hm', herr m' hm'⟩

theorem wp_clock (hR : D.Stable i R) (hm : R m)
    (hk : ∀ m', D.inv m' → R m' → Wp D A i (k (g m'.shared)).run Q m') :
    Wp D A i ((liftM (Prog.read g : Prog σ ℓ α) : ExceptT ε (Prog σ ℓ) α) >>= k).run Q m := by
  refine wp_bind_except.mpr (wp_lift.mpr fun m' hr hi => ?_)
  exact hk m' hi (hR _ _ hr hi hm)

theorem wp_acts {p : ExceptT ε (Prog σ ℓ) α} (hp : p.run.Acts P) (hR : D.Stable i R)
    (hP : ∀ m l f, P l f → D.inv m → R m → A m i l →
      D.inv (m.after i l f) ∧ D.mono m (m.after i l f) ∧ R (m.after i l f)) (hm : R m)
    (herr : ∀ e m', R m' → Q (.error e) m') (hk : ∀ a m', R m' → Wp D A i (k a).run Q m') :
    Wp D A i (p >>= k).run Q m := by
  refine wp_bind_except.mpr ((Wp.of_acts hp hR hP hm).imp fun r m' hr => ?_)
  cases r with
  | ok a => exact hk a m' hr
  | error e => exact herr e m' hr

theorem wp_silent {p : ExceptT ε (Prog σ ℓ) α} (hp : p.run.Silent) (hR : D.Stable i R) (hm : R m)
    (herr : ∀ e m', R m' → Q (.error e) m') (hk : ∀ a m', R m' → Wp D A i (k a).run Q m') :
    Wp D A i (p >>= k).run Q m :=
  wp_acts hp hR (fun _ _ _ h => h.elim) hm herr hk

theorem wp_send {l : ℓ} {f : σ → α × σ} (hR : D.Stable i R) (hm : R m)
    (herr : ∀ m', R m' → Q (.error e) m')
    (hk : ∀ m', D.inv m' → R m' → A m' i l → let m'' := m'.after i l fun s => (f s).2
      D.inv m'' ∧ D.mono m' m'' ∧ Q (.error e) m'' ∧ Wp D A i (k (f m'.shared).1).run Q m'') :
    Wp D A i (Prog.call e (Prog.atom l f) >>= k).run Q m := by
  refine wp_bind_except.mpr (wp_call (herr m hm) fun m' hr hi ha => ?_)
  obtain ⟨hinv, hmono, hlost, hnext⟩ := hk m' hi (hR _ _ hr hi hm) ha
  exact ⟨hinv, hmono, hnext, hlost⟩

/-! ### What code that may fail returns -/

abbrev Gives (P : α → Moment ι σ ℓ → Prop) : Except ε α → Moment ι σ ℓ → Prop :=
  fun r m => ∀ a, r = .ok a → P a m

omit [DecidableEq ι] in
theorem gives_error {P : α → Moment ι σ ℓ → Prop} : Gives P (.error e) m := by
  intro a h
  cases h

omit [DecidableEq ι] in
theorem Gives.ok {P : α → Moment ι σ ℓ → Prop} (h : P a m) : Gives P (.ok a : Except ε α) m := by
  rintro _ ⟨⟩
  exact h

/-- A postcondition that is owed for what code returns only. For these the rules above need not be told
what is known when a statement fails. -/
class Lenient (Q : Except ε β → Moment ι σ ℓ → Prop) : Prop where
  error : ∀ e m, Q (.error e) m

omit [DecidableEq ι] in
instance lenient_gives (P : β → Moment ι σ ℓ → Prop) : Lenient (ε := ε) (Gives P) :=
  ⟨fun _ _ => gives_error⟩

omit [DecidableEq ι] in
instance lenient_true : Lenient (ι := ι) (σ := σ) (ℓ := ℓ) (ε := ε) (β := β) fun _ _ => True :=
  ⟨fun _ _ => trivial⟩

namespace Wp

variable [Lenient Q] {e : ε} {k : α → ExceptT ε (Prog σ ℓ) β} {g : σ → α}

variable {p : ExceptT ε (Prog σ ℓ) α} {P : α → Moment ι σ ℓ → Prop}

theorem bind (hp : Wp D A i p.run (Gives P) m) (hk : ∀ a m', P a m' → Wp D A i (k a).run Q m') :
    Wp D A i (p >>= k).run Q m := by
  refine wp_bind_except.mpr (hp.imp fun r m' hr => ?_)
  cases r with
  | error e => exact Lenient.error e m'
  | ok a => exact hk a m' (hr a rfl)

omit [Lenient Q] in
theorem ok {a : α} (h : P a m) : Wp D A i (pure a : ExceptT ε (Prog σ ℓ) α).run (Gives P) m :=
  Gives.ok h

theorem throw : Wp D A i (throwThe ε e : ExceptT ε (Prog σ ℓ) β).run Q m := Lenient.error e m

omit [Lenient Q] in
theorem caught {ε' : Type} {p : ExceptT ε' (Prog σ ℓ) α} {k : Except ε' α → ExceptT ε (Prog σ ℓ) β}
    {P : Except ε' α → Moment ι σ ℓ → Prop} (hp : Wp D A i p.run P m)
    (hk : ∀ r m', P r m' → Wp D A i (k r).run Q m') :
    Wp D A i ((liftM p.run : ExceptT ε (Prog σ ℓ) (Except ε' α)) >>= k).run Q m :=
  wp_bind_except.mpr (wp_lift.mpr (hp.imp hk))

theorem require {c : Prop} [Decidable c] {k : Unit → ExceptT ε (Prog σ ℓ) β}
    (hk : c → Wp D A i (k ()).run Q m) : Wp D A i (Prog.require c e >>= k).run Q m :=
  wp_require (fun _ => Lenient.error e m) hk

theorem found {o : Option α} (hk : ∀ a, o = some a → Wp D A i (k a).run Q m) :
    Wp D A i (Prog.found o e >>= k).run Q m :=
  wp_found (fun _ => Lenient.error e m) hk

theorem ask (hR : D.Stable i R) (hm : R m) (hk : ∀ m', D.inv m' → R m' → Wp D A i (k (g m'.shared)).run Q m') :
    Wp D A i (Prog.call e (Prog.read g) >>= k).run Q m :=
  wp_ask hR hm (fun m' _ => Lenient.error e m') hk

theorem read (hk : ∀ m', D.inv m' → Wp D A i (k (g m'.shared)).run Q m') :
    Wp D A i (Prog.call e (Prog.read g) >>= k).run Q m :=
  .ask stable_true trivial fun m' hinv _ => hk m' hinv

omit [Lenient Q] in
theorem clock (hk : ∀ m', D.inv m' → Wp D A i (k (g m'.shared)).run Q m') :
    Wp D A i ((liftM (Prog.read g : Prog σ ℓ α) : ExceptT ε (Prog σ ℓ) α) >>= k).run Q m :=
  wp_clock stable_true trivial fun m' hinv _ => hk m' hinv

theorem silent (hp : p.run.Silent) (hR : D.Stable i R) (hm : R m)
    (hk : ∀ a m', R m' → Wp D A i (k a).run Q m') : Wp D A i (p >>= k).run Q m :=
  wp_silent hp hR hm (fun e m' _ => Lenient.error e m') hk

theorem skip (hp : p.run.Silent) (hk : ∀ a m', Wp D A i (k a).run Q m') :
    Wp D A i (p >>= k).run Q m :=
  .silent hp stable_true trivial fun a m' _ => hk a m'

theorem send {l : ℓ} {f : σ → α × σ} (hR : D.Stable i R) (hm : R m)
    (hk : ∀ m', D.inv m' → R m' → A m' i l → let m'' := m'.after i l fun s => (f s).2
      D.inv m'' ∧ D.mono m' m'' ∧ Wp D A i (k (f m'.shared).1).run Q m'') :
    Wp D A i (Prog.call e (Prog.atom l f) >>= k).run Q m := by
  refine wp_send hR hm (fun m' _ => Lenient.error e m') fun m' hinv hm' ha => ?_
  obtain ⟨hinv', hmono, hnext⟩ := hk m' hinv hm' ha
  exact ⟨hinv', hmono, Lenient.error e _, hnext⟩

end Wp

end Rules

/-! ## Soundness -/

section Soundness

variable {D : Discipline ι σ ℓ} {A : Moment ι σ ℓ → ι → ℓ → Prop} {E : σ → σ → Prop}
variable {Q : ι → α → Moment ι σ ℓ → Prop} {c₀ c c' : Config ι σ ℓ α}

def Config.Safe (D : Discipline ι σ ℓ) (A : Moment ι σ ℓ → ι → ℓ → Prop)
    (Q : ι → α → Moment ι σ ℓ → Prop) (c : Config ι σ ℓ α) : Prop :=
  D.inv c.toMoment ∧ ∀ i, Wp D A i (c.procs i) (Q i) c.toMoment

def Discipline.Admits (D : Discipline ι σ ℓ) (E : σ → σ → Prop) : Prop :=
  ∀ (m : Moment ι σ ℓ) (s : σ), D.inv m → E m.shared s →
    D.inv ⟨m.trace, s⟩ ∧ D.mono m ⟨m.trace, s⟩

def Discipline.Keeps (D : Discipline ι σ ℓ) (Q : ι → α → Moment ι σ ℓ → Prop) : Prop :=
  ∀ i a m m', D.Rely i m m' → D.inv m' → Q i a m → Q i a m'

theorem Config.Safe.resume {i : ι} {p : Prog σ ℓ α} (h : c.Safe D A Q)
    (hp : Wp D A i p (Q i) c.toMoment) : (c.resume i p).Safe D A Q := by
  refine ⟨h.1, fun j => ?_⟩
  by_cases hj : j = i
  · subst hj
    simpa [Config.resume] using hp
  · simpa [Config.resume, hj] using h.2 j

theorem Config.Safe.step (henv : D.Admits E) (hQ : D.Keeps Q) (h : c.Safe D A Q)
    (hstep : Step E A c c') : c'.Safe D A Q := by
  cases hstep with
  | env hE =>
    obtain ⟨hi, hm⟩ := henv c.toMoment _ h.1 hE
    exact ⟨hi, fun j => (h.2 j).rely (hQ j) ⟨hm, List.suffix_refl _, rfl⟩ hi⟩
  | @look i k hk =>
    have hw := h.2 i
    rw [hk] at hw
    exact h.resume (hw _ (.refl i _) h.1)
  | @choose i k b hk =>
    have hw := h.2 i
    rw [hk] at hw
    exact h.resume (hw b)
  | @act i l f k hk ha =>
    have hw := h.2 i
    rw [hk] at hw
    obtain ⟨hi, hm, hnext⟩ := hw _ (.refl i _) h.1 ha
    refine ⟨hi, fun j => ?_⟩
    by_cases hj : j = i
    · subst hj
      simpa using hnext
    · -- for the others the command is interference
      simpa [hj] using (h.2 j).rely (hQ j) (.of_other (fun e => hj e.symm) hm) hi

/-- **From one program to every run.** If the environment and every program keep the discipline, so does
every configuration of every admissible run. -/
theorem sound (henv : D.Admits E) (hQ : D.Keeps Q) (h₀ : c₀.Safe D A Q) (h : Reach E A c₀ c) :
    c.Safe D A Q := by
  induction h with
  | refl => exact h₀
  | tail _ hstep ih => exact ih.step henv hQ hstep

theorem Config.Safe.mono (henv : D.Admits E) (hQ : D.Keeps Q) (h : c.Safe D A Q)
    (hrun : Reach E A c c') : D.mono c.toMoment c'.toMoment := by
  induction hrun with
  | refl => exact D.mono_refl _
  | @tail d d' hpre hstep ih =>
    refine D.mono_trans ih ?_
    have hd := sound henv hQ h hpre
    cases hstep with
    | env hE => exact (henv _ _ hd.1 hE).2
    | look hk => exact D.mono_refl _
    | choose b hk => exact D.mono_refl _
    | @act i l f k hk ha =>
      have hw := hd.2 i
      rw [hk] at hw
      exact (hw _ (.refl i _) hd.1 ha).2.1

theorem Config.Safe.returned (h : c.Safe D A Q) {i : ι} {a : α} (hret : c.procs i = .ret a) :
    Q i a c.toMoment := by
  have hw := h.2 i
  rw [hret] at hw
  exact hw

end Soundness

end IdpServer.Conc
