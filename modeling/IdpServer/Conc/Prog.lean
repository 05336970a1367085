import Mathlib.Control.Lawful

/-!
# Conc.Prog — sequential code cut at its atomic actions

Between two commands of a service function any number of foreign commands may run. `Prog` is sequential
code over one shared state `σ`, cut at exactly those points:

* `look` reads the state and changes nothing;
* `act` is one atomic command, named by its label `ℓ`;
* `choose` is a decision the code does not make itself, such as whether a call fails.
-/

namespace IdpServer.Conc

inductive Prog (σ ℓ α : Type) where
  | ret (a : α)
  | look (k : σ → Prog σ ℓ α)
  | act (l : ℓ) (f : σ → σ) (k : σ → Prog σ ℓ α)
  | choose (k : Bool → Prog σ ℓ α)

namespace Prog

variable {σ ℓ α β ε : Type}

def bind : Prog σ ℓ α → (α → Prog σ ℓ β) → Prog σ ℓ β
  | .ret a, g => g a
  | .look k, g => .look fun s => (k s).bind g
  | .act l f k, g => .act l f fun s => (k s).bind g
  | .choose k, g => .choose fun b => (k b).bind g

instance : Monad (Prog σ ℓ) where
  pure := .ret
  bind := .bind

/-- A read of the shared state. -/
def read (g : σ → α) : Prog σ ℓ α := .look fun s => .ret (g s)

def atom (l : ℓ) (f : σ → α × σ) : Prog σ ℓ α :=
  .act l (fun s => (f s).2) fun s => .ret (f s).1

def update (l : ℓ) (f : σ → σ) : Prog σ ℓ Unit := atom l fun s => ((), f s)

def observe (l : ℓ) (g : σ → α) : Prog σ ℓ α := atom l fun s => (g s, s)

def flip : Prog σ ℓ Bool := .choose .ret

/-- A call that may fail. It fails before the command is carried out, or the command is carried
out and its answer is lost, or it answers. -/
def call (e : ε) (p : Prog σ ℓ α) : ExceptT ε (Prog σ ℓ) α :=
  ExceptT.mk <| .choose fun sent =>
    if sent then
      p.bind fun a => .choose fun answered => .ret (if answered then .ok a else .error e)
    else .ret (.error e)

def attempt (p : Prog σ ℓ α) : ExceptT ε (Prog σ ℓ) Unit :=
  ExceptT.mk <| .choose fun sent =>
    if sent then p.bind fun _ => .ret (.ok ()) else .ret (.ok ())

/-- The error `e` unless the condition holds. Conditions are decided by `wp_require` and its like
only, so that reducing a goal does not run them. -/
@[irreducible] def require (c : Prop) [Decidable c] (e : ε) : ExceptT ε (Prog σ ℓ) Unit :=
  if c then pure () else throw e

@[irreducible] def whenever (c : Prop) [Decidable c] (p : ExceptT ε (Prog σ ℓ) Unit) :
    ExceptT ε (Prog σ ℓ) Unit :=
  if c then p else pure ()

@[irreducible] def provided (c : Prop) [Decidable c] (a : α) (p : ExceptT ε (Prog σ ℓ) α) :
    ExceptT ε (Prog σ ℓ) α :=
  if c then p else pure a

/-- The value that is there, or the error `e`. -/
@[irreducible] def found (o : Option α) (e : ε) : ExceptT ε (Prog σ ℓ) α :=
  match o with
  | some a => pure a
  | none => throw e

def adapt {ε' : Type} (g : ε → ε') (p : ExceptT ε (Prog σ ℓ) α) : ExceptT ε' (Prog σ ℓ) α :=
  ExceptT.mk (p.run.bind fun r => .ret (r.mapError g))

/-- The run of one program with nothing else in flight and no failing call. -/
def eval : Prog σ ℓ α → σ → α × σ
  | .ret a, s => (a, s)
  | .look k, s => (k s).eval s
  | .act _ f k, s => (k s).eval (f s)
  | .choose k, s => (k true).eval s

/-- What a program that has returned returned. -/
def answer : Prog σ ℓ α → Option α
  | .ret a => some a
  | _ => none

theorem eq_ret_of_answer {p : Prog σ ℓ α} {a : α} (h : p.answer = some a) : p = .ret a := by
  cases p with
  | ret b => rw [Option.some.inj h]
  | _ => cases h

instance [DecidableEq α] (p : Prog σ ℓ α) (a : α) : Decidable (p = .ret a) :=
  decidable_of_iff (p.answer = some a) ⟨eq_ret_of_answer, fun h => by rw [h, answer]⟩

def Acts (P : ℓ → (σ → σ) → Prop) : Prog σ ℓ α → Prop
  | .ret _ => True
  | .look k => ∀ s, (k s).Acts P
  | .act l f k => P l f ∧ ∀ s, (k s).Acts P
  | .choose k => ∀ b, (k b).Acts P

abbrev Silent (p : Prog σ ℓ α) : Prop := p.Acts fun _ _ => False

section Acts

variable {P P' : ℓ → (σ → σ) → Prop}

variable {p : Prog σ ℓ α} {g : σ → α} {e : ε} {c : Prop} {o : Option α}

theorem Acts.imp (h : p.Acts P) (hP : ∀ l f, P l f → P' l f) : p.Acts P' := by
  induction p with
  | ret a => trivial
  | look k ih => exact fun s => ih s (h s)
  | act l f k ih => exact ⟨hP _ _ h.1, fun s => ih s (h.2 s)⟩
  | choose k ih => exact fun b => ih b (h b)

theorem Acts.and (h : p.Acts P) (h' : p.Acts P') : p.Acts fun l f => P l f ∧ P' l f := by
  induction p with
  | ret a => trivial
  | look k ih => exact fun s => ih s (h s) (h' s)
  | act l f k ih => exact ⟨⟨h.1, h'.1⟩, fun s => ih s (h.2 s) (h'.2 s)⟩
  | choose k ih => exact fun b => ih b (h b) (h' b)

theorem Silent.acts (h : p.Silent) : p.Acts P := h.imp fun _ _ => False.elim

theorem Acts.bind {g : α → Prog σ ℓ β} (hp : p.Acts P) (hg : ∀ a, (g a).Acts P) :
    (p.bind g).Acts P := by
  induction p with
  | ret a => exact hg a
  | look k ih => exact fun s => ih s (hp s)
  | act l f k ih => exact ⟨hp.1, fun s => ih s (hp.2 s)⟩
  | choose k ih => exact fun b => ih b (hp b)

theorem Acts.call (hp : p.Acts P) : (Prog.call e p).run.Acts P := by
  intro sent
  cases sent with
  | false => trivial
  | true => exact hp.bind fun a answered => by cases answered <;> trivial

theorem Acts.attempt (hp : p.Acts P) : (Prog.attempt (ε := ε) p).run.Acts P := by
  intro sent
  cases sent with
  | false => trivial
  | true => exact hp.bind fun _ => trivial

theorem Acts.lift (hp : p.Acts P) : (liftM p : ExceptT ε (Prog σ ℓ) α).run.Acts P :=
  hp.bind fun _ => trivial

theorem Acts.require [Decidable c] : (Prog.require c e : ExceptT ε (Prog σ ℓ) Unit).run.Acts P := by
  unfold Prog.require
  split <;> trivial

theorem Acts.whenever [Decidable c] {p : ExceptT ε (Prog σ ℓ) Unit} (hp : p.run.Acts P) :
    (Prog.whenever c p).run.Acts P := by
  unfold Prog.whenever
  split
  · exact hp
  · trivial

theorem Acts.provided [Decidable c] {a : α} {p : ExceptT ε (Prog σ ℓ) α} (hp : p.run.Acts P) :
    (Prog.provided c a p).run.Acts P := by
  unfold Prog.provided
  split
  · exact hp
  · trivial

theorem Acts.found : (Prog.found o e : ExceptT ε (Prog σ ℓ) α).run.Acts P := by
  unfold Prog.found
  split <;> trivial

theorem Acts.adapt {ε' : Type} {g : ε → ε'} {p : ExceptT ε (Prog σ ℓ) α} (hp : p.run.Acts P) :
    (Prog.adapt g p).run.Acts P :=
  hp.bind fun _ => trivial

theorem Acts.bind_except {p : ExceptT ε (Prog σ ℓ) α} {g : α → ExceptT ε (Prog σ ℓ) β}
    (hp : p.run.Acts P) (hg : ∀ a, (g a).run.Acts P) : (p >>= g).run.Acts P := by
  refine Acts.bind hp fun r => ?_
  cases r with
  | ok a => exact hg a
  | error e => trivial

/-! Each of the following rules takes one statement off the front of the code. -/

variable {k : α → ExceptT ε (Prog σ ℓ) β}

theorem Acts.ask (hk : ∀ a, (k a).run.Acts P) : (Prog.call e (read g) >>= k).run.Acts P :=
  .bind_except (.call fun _ => trivial) hk

theorem Acts.clock (hk : ∀ a, (k a).run.Acts P) :
    ((liftM (read g : Prog σ ℓ α) : ExceptT ε (Prog σ ℓ) α) >>= k).run.Acts P :=
  .bind_except (.lift fun _ => trivial) hk

theorem Acts.send {l : ℓ} {f : σ → α × σ} (h : P l fun s => (f s).2) (hk : ∀ a, (k a).run.Acts P) :
    (Prog.call e (atom l f) >>= k).run.Acts P :=
  .bind_except (.call ⟨h, fun _ => trivial⟩) hk

theorem Acts.found_of (hk : ∀ a, o = some a → (k a).run.Acts P) :
    (Prog.found o e >>= k).run.Acts P := by
  unfold Prog.found
  cases o with
  | none => trivial
  | some a => exact hk a rfl

theorem Acts.found_then (hk : ∀ a, (k a).run.Acts P) : (Prog.found o e >>= k).run.Acts P :=
  .found_of fun a _ => hk a

theorem Acts.require_of [Decidable c] {k : Unit → ExceptT ε (Prog σ ℓ) β}
    (hk : c → (k ()).run.Acts P) : (Prog.require c e >>= k).run.Acts P := by
  unfold Prog.require
  split
  next h => exact hk h
  next => trivial

theorem Acts.require_then [Decidable c] {k : Unit → ExceptT ε (Prog σ ℓ) β} (hk : (k ()).run.Acts P) :
    (Prog.require c e >>= k).run.Acts P :=
  .require_of fun _ => hk

end Acts

@[simp] theorem pure_eq (a : α) : (pure a : Prog σ ℓ α) = .ret a := rfl

@[simp] theorem bind_eq (p : Prog σ ℓ α) (g : α → Prog σ ℓ β) : p >>= g = p.bind g := rfl

@[simp] theorem ret_bind (a : α) (g : α → Prog σ ℓ β) : (ret a).bind g = g a := rfl

theorem eval_bind (p : Prog σ ℓ α) (g : α → Prog σ ℓ β) (s : σ) :
    (p.bind g).eval s = (g (p.eval s).1).eval (p.eval s).2 := by
  induction p generalizing s with
  | ret a => rfl
  | look k ih => exact ih s s
  | act l f k ih => exact ih s (f s)
  | choose k ih => exact ih true s

end Prog

end IdpServer.Conc
