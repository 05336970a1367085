import IdpServer.Conc.Run

/-!
# Conc.Seen — what a program has read when it answers

`Seen p ss a`: the program answers `a` if it finds the states `ss`, one after the other, at its reads and
commands. `seen_of_run` is the way from a run to it.
-/

namespace IdpServer.Conc

variable {ι σ ℓ α β ε : Type}

inductive Seen : Prog σ ℓ α → List σ → α → Prop
  | ret (a : α) : Seen (.ret a) [] a
  | look {k : σ → Prog σ ℓ α} {s : σ} {ss : List σ} {a : α} (h : Seen (k s) ss a) :
      Seen (.look k) (s :: ss) a
  | act {l : ℓ} {f : σ → σ} {k : σ → Prog σ ℓ α} {s : σ} {ss : List σ} {a : α}
      (h : Seen (k s) ss a) : Seen (.act l f k) (s :: ss) a
  | choose {k : Bool → Prog σ ℓ α} (b : Bool) {ss : List σ} {a : α} (h : Seen (k b) ss a) :
      Seen (.choose k) ss a

variable {a : α} {ss : List σ} {p : Prog σ ℓ α} {i : ι}

theorem seen_ret {b : α} : Seen (.ret a : Prog σ ℓ α) ss b ↔ ss = [] ∧ b = a := by
  constructor
  · rintro ⟨⟩
    exact ⟨rfl, rfl⟩
  · rintro ⟨rfl, rfl⟩
    exact .ret b

theorem seen_bind {k : α → Prog σ ℓ β} {b : β} (h : Seen (p.bind k) ss b) :
    ∃ ss₁ ss₂ a, ss = ss₁ ++ ss₂ ∧ Seen p ss₁ a ∧ Seen (k a) ss₂ b := by
  induction p generalizing ss with
  | ret a => exact ⟨[], ss, a, rfl, .ret a, h⟩
  | look f ih =>
    cases h with
    | look h =>
      obtain ⟨ss₁, ss₂, a, rfl, hp, hk⟩ := ih _ h
      exact ⟨_ :: ss₁, ss₂, a, rfl, .look hp, hk⟩
  | act l f g ih =>
    cases h with
    | act h =>
      obtain ⟨ss₁, ss₂, a, rfl, hp, hk⟩ := ih _ h
      exact ⟨_ :: ss₁, ss₂, a, rfl, .act hp, hk⟩
  | choose g ih =>
    cases h with
    | choose b h =>
      obtain ⟨ss₁, ss₂, a, rfl, hp, hk⟩ := ih _ h
      exact ⟨ss₁, ss₂, a, rfl, .choose b hp, hk⟩

theorem seen_ask {g : σ → α} {e : ε} {k : α → ExceptT ε (Prog σ ℓ) β} {r : Except ε β}
    (h : Seen (Prog.call e (Prog.read g) >>= k).run ss r) :
    r = .error e ∨ ∃ s rest, ss = s :: rest ∧ Seen (k (g s)).run rest r := by
  obtain ⟨ss₁, ss₂, a, rfl, hcall, hk⟩ := seen_bind h
  cases hcall with
  | choose sent hcall =>
    cases sent with
    | false =>
      obtain ⟨-, rfl⟩ := seen_ret.mp hcall
      exact .inl (seen_ret.mp hk).2
    | true =>
      cases hcall with
      | look hcall =>
        cases hcall with
        | choose answered hcall =>
          cases answered with
          | false =>
            obtain ⟨-, rfl⟩ := seen_ret.mp hcall
            exact .inl (seen_ret.mp hk).2
          | true =>
            obtain ⟨rfl, rfl⟩ := seen_ret.mp hcall
            exact .inr ⟨_, ss₂, rfl, hk⟩

theorem seen_update [DecidableEq ι] {procs : ι → Prog σ ℓ α} {j : ι}
    (h : Seen (Function.update procs j p i) ss a) : i = j ∧ Seen p ss a ∨ Seen (procs i) ss a := by
  by_cases hj : i = j
  · subst hj
    rw [Function.update_self] at h
    exact .inl ⟨rfl, h⟩
  · rw [Function.update_of_ne hj] at h
    exact .inr h

/-- **What a program has read in a run**: the states are those of configurations that the run goes
through. -/
theorem seen_of_run [DecidableEq ι] {E : σ → σ → Prop} {A : Moment ι σ ℓ → ι → ℓ → Prop}
    {c c' : Config ι σ ℓ α} (hrun : Reach E A c c') (hret : c'.procs i = .ret a) :
    ∃ ss, Seen (c.procs i) ss a ∧ ∀ s ∈ ss, ∃ d, Reach E A c d ∧ Reach E A d c' ∧ d.shared = s := by
  induction hrun using Relation.ReflTransGen.head_induction_on with
  | refl =>
    rw [hret]
    exact ⟨[], .ret a, nofun⟩
  | @head c d hstep hrest ih =>
    obtain ⟨ss, hseen, hall⟩ := ih
    have hlater : ∀ s ∈ ss, ∃ d, Reach E A c d ∧ Reach E A d c' ∧ d.shared = s := by
      intro s hs
      obtain ⟨x, hx, hx', hshared⟩ := hall s hs
      exact ⟨x, .head hstep hx, hx', hshared⟩
    have hhere : ∀ s ∈ c.shared :: ss, ∃ d, Reach E A c d ∧ Reach E A d c' ∧ d.shared = s := by
      intro s hs
      rcases List.mem_cons.mp hs with rfl | hs
      · exact ⟨c, .refl, .head hstep hrest, rfl⟩
      · exact hlater s hs
    cases hstep with
    | env hE => exact ⟨ss, hseen, hlater⟩
    | look hk =>
      rcases seen_update hseen with ⟨rfl, hown⟩ | hother
      · exact ⟨_, hk ▸ .look hown, hhere⟩
      · exact ⟨ss, hother, hlater⟩
    | act hk ha =>
      rcases seen_update hseen with ⟨rfl, hown⟩ | hother
      · exact ⟨_, hk ▸ .act hown, hhere⟩
      · exact ⟨ss, hother, hlater⟩
    | choose b hk =>
      rcases seen_update hseen with ⟨rfl, hown⟩ | hother
      · exact ⟨ss, hk ▸ .choose b hown, hlater⟩
      · exact ⟨ss, hother, hlater⟩

end IdpServer.Conc
