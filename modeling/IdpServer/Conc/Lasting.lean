import IdpServer.Conc.Wp

/-!
# Conc.Lasting — what stays true, and what was true

What a program may still say of the state it has read is that the fact held **at an earlier moment**
(`Discipline.Past`). Such facts last while commands keep the discipline (`Discipline.Kept`).
-/

namespace IdpServer.Conc

variable {ι σ ℓ α β ε : Type}

namespace Discipline

variable (D : Discipline ι σ ℓ)

structure Later (m m' : Moment ι σ ℓ) : Prop where
  mono : D.mono m m'
  suffix : m.trace <:+ m'.trace

def Kept (m m' : Moment ι σ ℓ) : Prop := D.inv m' ∧ D.mono m m'

/-- An assertion that lasts for the rest of a run. -/
def Lasting (P : Moment ι σ ℓ → Prop) : Prop := ∀ m m', D.Later m m' → P m → P m'

/-- An assertion that held at an earlier moment of the run. -/
def Past (P : Moment ι σ ℓ → Prop) (m : Moment ι σ ℓ) : Prop :=
  ∃ m₀, D.inv m₀ ∧ P m₀ ∧ D.Later m₀ m

variable {D} {P P' : Moment ι σ ℓ → Prop} {m m' : Moment ι σ ℓ}

theorem Later.refl (D : Discipline ι σ ℓ) (m : Moment ι σ ℓ) : D.Later m m :=
  ⟨D.mono_refl m, List.suffix_refl _⟩

theorem Later.trans {m'' : Moment ι σ ℓ} (h : D.Later m m') (h' : D.Later m' m'') : D.Later m m'' :=
  ⟨D.mono_trans h.mono h'.mono, h.suffix.trans h'.suffix⟩

theorem Past.now (hinv : D.inv m) (h : P m) : D.Past P m := ⟨m, hinv, h, .refl D m⟩

theorem Past.imp (h : D.Past P m) (hP : ∀ m₀, D.inv m₀ → P m₀ → P' m₀) : D.Past P' m := by
  obtain ⟨m₀, hinv, hm₀, hlater⟩ := h
  exact ⟨m₀, hinv, hP m₀ hinv hm₀, hlater⟩

theorem past_lasting (P : Moment ι σ ℓ → Prop) : D.Lasting (D.Past P) := by
  rintro m m' h ⟨m₀, hinv, hm₀, hlater⟩
  exact ⟨m₀, hinv, hm₀, hlater.trans h⟩

theorem Lasting.and (hP : D.Lasting P) (hP' : D.Lasting P') : D.Lasting fun m => P m ∧ P' m :=
  fun _ _ h hm => ⟨hP _ _ h hm.1, hP' _ _ h hm.2⟩

theorem lasting_const (D : Discipline ι σ ℓ) (c : Prop) : D.Lasting fun _ => c := fun _ _ _ h => h

theorem Lasting.stable [DecidableEq ι] (hP : D.Lasting P) (i : ι) : D.Stable i P :=
  fun _ _ hr _ h => hP _ _ ⟨hr.mono, hr.suffix⟩ h

variable {i : ι} {l : ℓ} {f : σ → σ}

theorem Kept.lasting (h : D.Kept m (m.after i l f)) (hP : D.Lasting P) (hm : P m) :
    P (m.after i l f) :=
  hP _ _ ⟨h.2, List.suffix_cons _ _⟩ hm

theorem Kept.done (h : D.Kept m (m.after i l f)) (hP : D.Lasting P) (hm : P m)
    (hQ : ∀ m', P m' → P' m') :
    D.inv (m.after i l f) ∧ D.mono m (m.after i l f) ∧ P' (m.after i l f) :=
  ⟨h.1, h.2, hQ _ (h.lasting hP hm)⟩

theorem Later.after (hm : D.mono m (m.after i l f)) : D.Later m (m.after i l f) :=
  ⟨hm, List.suffix_cons _ _⟩

end Discipline

section Rules

variable [DecidableEq ι] {D : Discipline ι σ ℓ} {A : Moment ι σ ℓ → ι → ℓ → Prop} {i : ι}
variable {m : Moment ι σ ℓ} {P : Moment ι σ ℓ → Prop} {C : ℓ → (σ → σ) → Prop}

theorem Wp.lasting {p : Prog σ ℓ α} {Q : α → Moment ι σ ℓ → Prop} (h : Wp D A i p Q m) (hP : D.Lasting P)
    (hm : P m) : Wp D A i p (fun a m' => Q a m' ∧ P m') m := by
  induction p generalizing m with
  | ret a => exact ⟨h, hm⟩
  | look k ih => exact fun m' hr hi => ih _ (h m' hr hi) (hP.stable i _ _ hr hi hm)
  | act l f k ih =>
    intro m' hr hi ha
    obtain ⟨hinv, hmono, hrest⟩ := h m' hr hi ha
    exact ⟨hinv, hmono, ih _ hrest (hP _ _ (.after hmono) (hP.stable i _ _ hr hi hm))⟩
  | choose k ih => exact fun b => ih b (h b) hm

theorem wp_last {p : Prog σ ℓ α} (hp : p.Acts C)
    (hkept : ∀ m l f, C l f → D.inv m → A m i l → D.Kept m (m.after i l f)) (hP : D.Lasting P)
    (hm : P m) : Wp D A i p (fun _ => P) m := by
  refine Wp.of_acts hp (hP.stable i) (fun m' l f hl hinv hm' ha => ?_) hm
  exact (hkept m' l f hl hinv ha).done hP hm' fun _ h => h

theorem wp_last_then {p : ExceptT ε (Prog σ ℓ) α} {k : α → ExceptT ε (Prog σ ℓ) β}
    {Q : Except ε β → Moment ι σ ℓ → Prop} (hp : p.run.Acts C)
    (hkept : ∀ m l f, C l f → D.inv m → A m i l → D.Kept m (m.after i l f)) (hP : D.Lasting P)
    (hm : P m) (herr : ∀ e m', P m' → Q (.error e) m')
    (hk : ∀ a m', P m' → Wp D A i (k a).run Q m') : Wp D A i (p >>= k).run Q m := by
  refine wp_bind_except.mpr ((wp_last hp hkept hP hm).imp fun r m' hm' => ?_)
  cases r with
  | error e => exact herr e m' hm'
  | ok a => exact hk a m' hm'

namespace Wp

variable {Q : Except ε β → Moment ι σ ℓ → Prop} [Lenient Q] {p : ExceptT ε (Prog σ ℓ) α}
variable {k : α → ExceptT ε (Prog σ ℓ) β}

theorem last (hp : p.run.Acts C) (hkept : ∀ m l f, C l f → D.inv m → A m i l → D.Kept m (m.after i l f))
    (hP : D.Lasting P) (hm : P m) (hk : ∀ a m', P m' → Wp D A i (k a).run Q m') : Wp D A i (p >>= k).run Q m :=
  wp_last_then hp hkept hP hm (fun e m' _ => Lenient.error e m') hk

theorem keep {P' : α → Moment ι σ ℓ → Prop} (hp : Wp D A i p.run (Gives P') m) (hP : D.Lasting P) (hm : P m)
    (hk : ∀ a m', P' a m' → P m' → Wp D A i (k a).run Q m') : Wp D A i (p >>= k).run Q m := by
  refine wp_bind_except.mpr ((hp.lasting hP hm).imp fun r m' hr => ?_)
  cases r with
  | error e => exact Lenient.error e m'
  | ok a => exact hk a m' (hr.1 a rfl) hr.2

end Wp

end Rules

end IdpServer.Conc
