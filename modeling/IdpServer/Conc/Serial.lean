import IdpServer.Conc.Alone

/-!
# Conc.Serial — calls one after the other

`Serial` is a history of calls, each of which has come to its return before the next one begins, and
`Serial.invariant` the rule for what holds after every such history.
-/

namespace IdpServer.Conc

variable {σ ℓ α κ : Type}

/-- Nobody else changes the state. -/
def Untouched : σ → σ → Prop := fun _ _ => False

def Goes (p : Prog σ ℓ α) (s : σ) (a : α) (m : Moment Unit σ ℓ) : Prop :=
  ∃ c, Reach Untouched Unrestricted (Config.start s fun _ => p) c ∧ c.procs () = .ret a ∧
    c.toMoment = m

theorem goes_eval (p : Prog σ ℓ α) (s : σ) : Goes p s (p.eval s).1 ⟨p.log s [], (p.eval s).2⟩ :=
  ⟨_, alone_eval Untouched p s [], rfl, rfl⟩

theorem untouched_kept {R : Moment Unit σ ℓ → Prop} : KeptBy Untouched R :=
  fun _ _ _ h _ => h.elim

theorem untouched_stable (R : Moment Unit σ ℓ → Prop) : (alone Untouched).Stable () R :=
  alone_stable untouched_kept

theorem untouched_atom {l : ℓ} {f : σ → α × σ} {m : Moment Unit σ ℓ} {Q : α → Moment Unit σ ℓ → Prop}
    (h : Q (f m.shared).1 (m.after () l fun s => (f s).2)) :
    Wp (alone Untouched) Unrestricted () (Prog.atom l f) Q m := by
  intro m' hrely hinv _
  obtain rfl := untouched_stable (fun m' => m' = m) m m' hrely hinv rfl
  obtain ⟨hkept, hmono⟩ := alone_after l fun s => (f s).2
  exact ⟨hkept, hmono, h⟩

theorem Goes.post {p : Prog σ ℓ α} {s : σ} {a : α} {m : Moment Unit σ ℓ}
    {Q : α → Moment Unit σ ℓ → Prop} (h : Goes p s a m)
    (hp : Wp (alone Untouched) Unrestricted () p Q ⟨[], s⟩) : Q a m := by
  obtain ⟨c, hrun, hret, rfl⟩ := h
  exact alone_run (fun _ => untouched_kept) hp hrun hret

/-- A call of a history: what was called, what it answered, and the commands it sent. -/
structure Done (κ σ ℓ α : Type) where
  call : κ
  answer : α
  trace : List (Event Unit σ ℓ)

/-- The histories from a state, **the latest call first**. `C` is the condition on a call, given the
history and the state it finds. -/
inductive Serial (code : κ → Prog σ ℓ α) (C : List (Done κ σ ℓ α) → σ → κ → Prop) (s : σ) :
    List (Done κ σ ℓ α) → σ → Prop
  | start : Serial code C s [] s
  | call {h : List (Done κ σ ℓ α)} {s₁ : σ} {k : κ} {a : α} {m : Moment Unit σ ℓ}
      (hrun : Serial code C s h s₁) (hC : C h s₁ k) (hgo : Goes (code k) s₁ a m) :
      Serial code C s (⟨k, a, m.trace⟩ :: h) m.shared

/-- **What each call keeps holds after every history.** -/
theorem Serial.invariant {code : κ → Prog σ ℓ α} {C : List (Done κ σ ℓ α) → σ → κ → Prop} {s s' : σ}
    {h : List (Done κ σ ℓ α)} {I : List (Done κ σ ℓ α) → σ → Prop} (hstart : I [] s)
    (hcall : ∀ h s₁ k, I h s₁ → C h s₁ k → Wp (alone Untouched) Unrestricted () (code k)
      (fun a m => I (⟨k, a, m.trace⟩ :: h) m.shared) ⟨[], s₁⟩)
    (hrun : Serial code C s h s') : I h s' := by
  induction hrun with
  | start => exact hstart
  | call _ hC hgo ih => exact hgo.post (hcall _ _ _ ih hC)

theorem Serial.evaluated {code : κ → Prog σ ℓ α} {C : List (Done κ σ ℓ α) → σ → κ → Prop} {s s₁ : σ}
    {h : List (Done κ σ ℓ α)} (hrun : Serial code C s h s₁) (k : κ) (hC : C h s₁ k) :
    Serial code C s (⟨k, ((code k).eval s₁).1, (code k).log s₁ []⟩ :: h) ((code k).eval s₁).2 :=
  .call hrun hC (goes_eval (code k) s₁)

end IdpServer.Conc
