import IdpServer.Conc.Wp

/-!
# Conc.Duty — what a command leaves to be done

A program may mark many things with one command and deal with them one by one. Whatever is owed, some command
has taken on (`Accounted`); when all is discharged, nothing is owed.
-/

namespace IdpServer.Conc

variable {ι σ ℓ κ : Type}

/-- The parts of an arrangement by which programs mark things and deal with them later. -/
structure Duty (ι σ ℓ κ : Type) where
  owed : σ → κ → Prop
  settled : σ → κ → Prop
  takes : Event ι σ ℓ → κ → Prop
  not_owed : ∀ {s k}, settled s k → ¬ owed s k

namespace Duty

variable (T : Duty ι σ ℓ κ)

def Accounted (m : Moment ι σ ℓ) : Prop :=
  ∀ k, T.owed m.shared k → ∃ x ∈ m.trace, T.takes x k

/-- Settled things stay settled. -/
def Lasting (D : Discipline ι σ ℓ) : Prop :=
  ∀ m m', D.mono m m' → ∀ k, T.settled m.shared k → T.settled m'.shared k

variable {T} {m : Moment ι σ ℓ}

variable {l : ℓ} {f : σ → σ} {s : σ} {D : Discipline ι σ ℓ}

theorem Accounted.after {i : ι} (h : T.Accounted m)
    (hf : ∀ k, T.owed (f m.shared) k → T.owed m.shared k ∨ T.takes ⟨i, l, m.shared⟩ k) :
    T.Accounted (m.after i l f) := by
  intro k hk
  rcases hf k hk with hk | hk
  · obtain ⟨x, hx, hxk⟩ := h k hk
    exact ⟨x, .tail _ hx, hxk⟩
  · exact ⟨_, .head _, hk⟩

theorem Accounted.env (h : T.Accounted m) (hs : ∀ k, T.owed s k → T.owed m.shared k) :
    T.Accounted ⟨m.trace, s⟩ :=
  fun k hk => h k (hs k hk)

variable [DecidableEq ι] {i : ι} {P Q : σ → κ → Prop}

variable (T) in
def Pending (i : ι) (P : σ → κ → Prop) (m : Moment ι σ ℓ) : Prop :=
  ∀ x ∈ m.own i, ∀ k, T.takes x k → T.settled m.shared k ∨ P m.shared k

variable (T) in
abbrev Discharged (i : ι) : Moment ι σ ℓ → Prop := T.Pending i fun _ _ => False

theorem Pending.start : T.Pending i P ⟨[], s⟩ := by
  intro x hx
  cases hx

theorem Discharged.pending (h : T.Discharged i m) : T.Pending i P m :=
  fun x hx k hk => (h x hx k hk).imp_right False.elim

theorem Pending.stable (hT : T.Lasting D) (i : ι)
    (hP : ∀ m m', D.mono m m' → ∀ k, P m.shared k → P m'.shared k) :
    D.Stable i (T.Pending i P) := by
  intro m m' hr _ h x hx k hk
  rw [hr.own] at hx
  exact (h x hx k hk).imp (hT m m' hr.mono k) (hP m m' hr.mono k)

theorem Discharged.stable (hT : T.Lasting D) (i : ι) : D.Stable i (T.Discharged i) :=
  Pending.stable hT i fun _ _ _ _ => False.elim

theorem Pending.after (h : T.Pending i P m) (hT : T.Lasting D) (hmono : D.mono m (m.after i l f))
    (hold : ∀ k, P m.shared k → T.settled (f m.shared) k ∨ Q (f m.shared) k)
    (hnew : ∀ k, T.takes ⟨i, l, m.shared⟩ k → T.settled (f m.shared) k ∨ Q (f m.shared) k) :
    T.Pending i Q (m.after i l f) := by
  intro x hx k hk
  rw [Moment.own_after_self] at hx
  rcases List.mem_cons.mp hx with rfl | hx
  · exact hnew k hk
  · rcases h x hx k hk with hs | hP
    · exact .inl (hT _ _ hmono k hs)
    · exact hold k hP

theorem Accounted.nothing_owed (h : T.Accounted m) (hall : ∀ i, T.Discharged i m) (k : κ) :
    ¬ T.owed m.shared k := by
  intro hk
  obtain ⟨x, hx, hxk⟩ := h k hk
  rcases hall x.pid x (Moment.mem_own.mpr ⟨hx, rfl⟩) k hxk with hs | hfalse
  · exact T.not_owed hs hk
  · exact hfalse

end Duty

end IdpServer.Conc
