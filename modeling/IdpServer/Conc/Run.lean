import Mathlib.Logic.Relation
import Mathlib.Logic.Function.Basic
import IdpServer.Conc.Prog

/-!
# Conc.Run — interleaved runs of a family of programs

`Config` is a family of programs in flight over one shared state, with the trace of commands. `Reach E A` are
the runs **whose every command met `A` when it was carried out**, among moves `E` of the environment.
-/

namespace IdpServer.Conc

variable {ι σ ℓ α : Type}

/-- One command carried out: by which program, which command, and the state it found. -/
structure Event (ι σ ℓ : Type) where
  pid : ι
  label : ℓ
  before : σ

/-- What can be seen at one moment of a run: the commands so far, **the latest first**, and the
shared state. -/
structure Moment (ι σ ℓ : Type) where
  trace : List (Event ι σ ℓ)
  shared : σ

namespace Moment

/-- The moment after program `i` carried out a command. -/
def after (m : Moment ι σ ℓ) (i : ι) (l : ℓ) (f : σ → σ) : Moment ι σ ℓ :=
  ⟨⟨i, l, m.shared⟩ :: m.trace, f m.shared⟩

@[simp] theorem after_trace (m : Moment ι σ ℓ) (i : ι) (l : ℓ) (f : σ → σ) :
    (m.after i l f).trace = ⟨i, l, m.shared⟩ :: m.trace := rfl

@[simp] theorem after_shared (m : Moment ι σ ℓ) (i : ι) (l : ℓ) (f : σ → σ) :
    (m.after i l f).shared = f m.shared := rfl

def Did (m : Moment ι σ ℓ) (i : ι) (P : ℓ → σ → Prop) : Prop :=
  ∃ e ∈ m.trace, e.pid = i ∧ P e.label e.before

theorem Did.mono {m m' : Moment ι σ ℓ} {i : ι} {P Q : ℓ → σ → Prop}
    (hsuf : m.trace <:+ m'.trace) (hPQ : ∀ l s, P l s → Q l s) (h : m.Did i P) : m'.Did i Q := by
  obtain ⟨e, he, hi, hP⟩ := h
  exact ⟨e, hsuf.subset he, hi, hPQ _ _ hP⟩

theorem did_after {m : Moment ι σ ℓ} {i j : ι} {l : ℓ} {f : σ → σ} {P : ℓ → σ → Prop} :
    (m.after i l f).Did j P ↔ (i = j ∧ P l m.shared) ∨ m.Did j P := by
  simp only [Did, after_trace, List.mem_cons, exists_eq_or_imp]

end Moment

/-- A family of programs in flight. -/
structure Config (ι σ ℓ α : Type) extends Moment ι σ ℓ where
  procs : ι → Prog σ ℓ α

namespace Config

/-- A fresh family over an initial state: nothing has been carried out. -/
def start (s : σ) (procs : ι → Prog σ ℓ α) : Config ι σ ℓ α := ⟨⟨[], s⟩, procs⟩

variable [DecidableEq ι]

def resume (c : Config ι σ ℓ α) (i : ι) (p : Prog σ ℓ α) : Config ι σ ℓ α :=
  { c with procs := Function.update c.procs i p }

end Config

variable [DecidableEq ι]

/-- One step of the family. `E` is what the environment may do to the shared state, `A` the
condition a command must meet when it is carried out. -/
inductive Step (E : σ → σ → Prop) (A : Moment ι σ ℓ → ι → ℓ → Prop) :
    Config ι σ ℓ α → Config ι σ ℓ α → Prop
  | env {c : Config ι σ ℓ α} {s : σ} (h : E c.shared s) :
      Step E A c ⟨⟨c.trace, s⟩, c.procs⟩
  | look {c : Config ι σ ℓ α} {i : ι} {k : σ → Prog σ ℓ α} (h : c.procs i = .look k) :
      Step E A c (c.resume i (k c.shared))
  | act {c : Config ι σ ℓ α} {i : ι} {l : ℓ} {f : σ → σ} {k : σ → Prog σ ℓ α}
      (h : c.procs i = .act l f k) (ha : A c.toMoment i l) :
      Step E A c ⟨c.toMoment.after i l f, Function.update c.procs i (k c.shared)⟩
  | choose {c : Config ι σ ℓ α} {i : ι} {k : Bool → Prog σ ℓ α} (b : Bool)
      (h : c.procs i = .choose k) : Step E A c (c.resume i (k b))

/-- The runs whose every command met `A`. -/
abbrev Reach (E : σ → σ → Prop) (A : Moment ι σ ℓ → ι → ℓ → Prop) :
    Config ι σ ℓ α → Config ι σ ℓ α → Prop :=
  Relation.ReflTransGen (Step E A)

/-- No condition on commands. -/
def Unrestricted : Moment ι σ ℓ → ι → ℓ → Prop := fun _ _ _ => True

variable {E : σ → σ → Prop} {A : Moment ι σ ℓ → ι → ℓ → Prop} {c : Config ι σ ℓ α}

theorem Step.imp {B : Moment ι σ ℓ → ι → ℓ → Prop} {c' : Config ι σ ℓ α}
    (hAB : ∀ m i l, A m i l → B m i l) (h : Step E A c c') : Step E B c c' := by
  cases h with
  | env h => exact .env h
  | look h => exact .look h
  | act h ha => exact .act h (hAB _ _ _ ha)
  | choose b h => exact .choose b h

theorem Reach.restrict {P : List (Event ι σ ℓ) → Prop} {c₀ : Config ι σ ℓ α}
    (hP : ∀ e t, P (e :: t) → P t) (h : Reach E A c₀ c) (hc : P c.trace) :
    Reach E (fun m i l => A m i l ∧ P m.trace) c₀ c := by
  induction h with
  | refl => exact .refl
  | tail _ hstep ih =>
    cases hstep with
    | env hE => exact (ih hc).tail (.env hE)
    | look hk => exact (ih hc).tail (.look hk)
    | choose b hk => exact (ih hc).tail (.choose b hk)
    | act hk ha => exact (ih (hP _ _ hc)).tail (.act hk ⟨ha, hP _ _ hc⟩)

theorem Reach.acts {P : ι → ℓ → (σ → σ) → Prop} {s : σ} {procs : ι → Prog σ ℓ α}
    (hprocs : ∀ i, (procs i).Acts (P i)) (h : Reach E A (Config.start s procs) c) :
    (∀ i, (c.procs i).Acts (P i)) ∧ ∀ x ∈ c.trace, ∃ f, P x.pid x.label f := by
  have hupdate : ∀ {c : Config ι σ ℓ α} {i : ι} {p : Prog σ ℓ α}, (∀ j, (c.procs j).Acts (P j)) →
      p.Acts (P i) → ∀ j, (Function.update c.procs i p j).Acts (P j) := by
    intro c i p hc hp j
    by_cases hj : j = i
    · subst hj
      simpa using hp
    · simpa [hj] using hc j
  induction h with
  | refl => exact ⟨hprocs, nofun⟩
  | tail _ hstep ih =>
    obtain ⟨hacts, htrace⟩ := ih
    cases hstep with
    | env hE => exact ⟨hacts, htrace⟩
    | @look i k hk =>
      have hi := hacts i
      rw [hk] at hi
      exact ⟨hupdate hacts (hi _), htrace⟩
    | @choose i k b hk =>
      have hi := hacts i
      rw [hk] at hi
      exact ⟨hupdate hacts (hi b), htrace⟩
    | @act i l f k hk ha =>
      have hi := hacts i
      rw [hk] at hi
      refine ⟨hupdate hacts (hi.2 _), fun x hx => ?_⟩
      rcases List.mem_cons.mp hx with rfl | hx
      · exact ⟨f, hi.1⟩
      · exact htrace x hx

omit [DecidableEq ι] in
theorem eq_of_countP_le_one {t : List α} {p : α → Bool} (h : t.countP p ≤ 1) {x y : α} (hx : x ∈ t) (hy : y ∈ t) (hxp : p x = true)
    (hyp : p y = true) : x = y := by
  rw [List.countP_eq_length_filter] at h
  have hx' := List.mem_filter.mpr ⟨hx, hxp⟩
  have hy' := List.mem_filter.mpr ⟨hy, hyp⟩
  match hf : t.filter p with
  | [] => rw [hf] at hx'; cases hx'
  | [z] =>
    rw [hf] at hx' hy'
    rw [List.mem_singleton.mp hx', List.mem_singleton.mp hy']
  | _ :: _ :: _ => rw [hf] at h; simp at h

/-! ## Playing a schedule -/

inductive Move (ι σ : Type) where
  | run (i : ι)
  | pick (i : ι) (b : Bool)
  | env (f : σ → σ)

def Prog.settle (s : σ) : Prog σ ℓ α → Prog σ ℓ α
  | .look k => (k s).settle s
  | .choose k => (k true).settle s
  | p => p

instance (m : Moment ι σ ℓ) (i : ι) (l : ℓ) : Decidable (Unrestricted m i l) :=
  inferInstanceAs (Decidable True)

section Playing

variable (A : Moment ι σ ℓ → ι → ℓ → Prop) [∀ m i l, Decidable (A m i l)]

namespace Config

def move (c : Config ι σ ℓ α) : Move ι σ → Option (Config ι σ ℓ α)
  | .run i =>
    match (c.procs i).settle c.shared with
    | .act l f k =>
      if A c.toMoment i l then
        some ⟨c.toMoment.after i l f, Function.update c.procs i (k c.shared)⟩
      else none
    | p => some (c.resume i p)
  | .pick i b =>
    match c.procs i with
    | .choose k => some (c.resume i (k b))
    | .look k => some (c.resume i (k c.shared))
    | _ => none
  | .env f => some ⟨⟨c.trace, f c.shared⟩, c.procs⟩

def play (c : Config ι σ ℓ α) : List (Move ι σ) → Option (Config ι σ ℓ α)
  | [] => some c
  | mv :: rest => (c.move A mv).bind fun c' => c'.play rest

def played (c : Config ι σ ℓ α) (sched : List (Move ι σ)) : Config ι σ ℓ α :=
  (c.play A sched).getD c

end Config

/-- The environment's moves of a schedule are allowed ones. -/
def Move.Allowed (E : σ → σ → Prop) : Move ι σ → Prop
  | .env f => ∀ s, E s (f s)
  | _ => True

variable {A}

variable {E : σ → σ → Prop} {c c' : Config ι σ ℓ α} {P : Config ι σ ℓ α → Prop}

omit [∀ m i l, Decidable (A m i l)] in
theorem settle_reach (c : Config ι σ ℓ α) (i : ι) (p : Prog σ ℓ α) :
    Reach E A (c.resume i p) (c.resume i (p.settle c.shared)) := by
  induction p with
  | ret a => exact .refl
  | act l f k => exact .refl
  | look k ih =>
    refine .head (.look (i := i) (k := k) ?_) ?_
    · simp [Config.resume]
    · simpa [Config.resume, Prog.settle] using ih c.shared
  | choose k ih =>
    refine .head (.choose (i := i) (k := k) true ?_) ?_
    · simp [Config.resume]
    · simpa [Config.resume, Prog.settle] using ih true

theorem resume_self (c : Config ι σ ℓ α) (i : ι) : c.resume i (c.procs i) = c := by
  simp [Config.resume]

theorem move_reach {mv : Move ι σ} (hE : mv.Allowed E) (h : c.move A mv = some c') :
    Reach E A c c' := by
  cases mv with
  | env f =>
    cases h
    exact .single (.env (hE _))
  | pick i b =>
    simp only [Config.move] at h
    split at h
    next k hk => cases h; exact .single (.choose b hk)
    next k hk => cases h; exact .single (.look hk)
    next => cases h
  | run i =>
    have hset : Reach E A c (c.resume i ((c.procs i).settle c.shared)) := by
      simpa only [resume_self] using settle_reach c i (c.procs i)
    simp only [Config.move] at h
    split at h
    next l f k hk =>
      rw [hk] at hset
      obtain ⟨ha, h⟩ := Option.ite_none_right_eq_some.mp h
      cases h
      have hstep := Step.act (E := E) (c := c.resume i (.act l f k))
        (f := f) (k := k) (by simp [Config.resume]) ha
      simpa [Config.resume] using hset.tail hstep
    next => cases h; exact hset

theorem play_reach {sched : List (Move ι σ)} (hE : ∀ mv ∈ sched, mv.Allowed E)
    (h : c.play A sched = some c') : Reach E A c c' := by
  induction sched generalizing c with
  | nil => cases h; exact .refl
  | cons mv rest ih =>
    obtain ⟨d, hd, hrest⟩ := Option.bind_eq_some_iff.mp h
    exact (move_reach (hE mv (by simp)) hd).trans (ih (fun x hx => hE x (by simp [hx])) hrest)

theorem played_reach (sched : List (Move ι σ)) (hE : ∀ mv ∈ sched, mv.Allowed E)
    (h : (c.play A sched).isSome = true) : Reach E A c (c.played A sched) := by
  obtain ⟨c', hc'⟩ := Option.isSome_iff_exists.mp h
  rw [Config.played, hc']
  exact play_reach hE hc'

theorem exists_played (sched : List (Move ι σ)) [DecidablePred P] (hE : ∀ mv ∈ sched, mv.Allowed E)
    (h : (c.play A sched).any (fun c' => decide (P c')) = true) : ∃ c', Reach E A c c' ∧ P c' := by
  cases hc : c.play A sched with
  | none =>
    rw [hc] at h
    cases h
  | some c' =>
    rw [hc] at h
    exact ⟨c', play_reach hE hc, of_decide_eq_true h⟩

theorem exists_played_imp {Q : Config ι σ ℓ α → Prop} [DecidablePred P] (sched : List (Move ι σ))
    (hE : ∀ mv ∈ sched, mv.Allowed E) (h : (c.play A sched).any (fun c' => decide (P c')) = true)
    (hQ : ∀ c', Reach E A c c' → P c' → Q c') : ∃ c', Reach E A c c' ∧ Q c' := by
  obtain ⟨c', hrun, hP⟩ := exists_played sched hE h
  exact ⟨c', hrun, hQ c' hrun hP⟩

end Playing

end IdpServer.Conc
