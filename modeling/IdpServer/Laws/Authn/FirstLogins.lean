import IdpServer.Laws.Authn.Federation

/-!
# Laws.Authn.FirstLogins — simultaneous first logins converge

Many logins of a new identity can each set out to create its account. One creates it
(`first_logins_converge`), and the others find it when they look again.
-/

namespace IdpServer.Laws.Authn

open Conc IdpServer.Cache Store Go IdpServer.Authn

variable {ι : Type}

def NoOtherAccounts (w w' : World) : Prop := directory w' = directory w

section Law

variable (env : Env) (accounts : List Identity) (subject : String)

def Converged (now : List Identity) : Prop :=
  now = accounts ∨ ∃ x, now = accounts ++ [x] ∧
    env.sqlEq x.userUUID (federatedSubjectUserUUID env provider subject) = true

def firstLogins : Discipline ι World Label where
  inv m := Converged env accounts subject (directory m.shared)
  mono m m' := directory m.shared <+: directory m'.shared
  mono_refl := Moment.list_refl directory
  mono_trans := @Moment.list_trans ι World Label Identity directory

variable {env accounts subject} {m : Moment ι World Label} {i : ι}

theorem firstLogins_same {l : Label} {f : World → World} (hinv : (firstLogins env accounts subject).inv m)
    (hf : directory (f m.shared) = directory m.shared) :
    (firstLogins env accounts subject).Kept m (m.after i l f) := by
  constructor
  · show Converged env accounts subject (directory (f m.shared))
    rw [hf]
    exact hinv
  · show directory m.shared <+: directory (f m.shared)
    rw [hf]

theorem firstLogins_create (hrefl : ∀ text, env.sqlEq text text = true) {u : User}
    (huuid : u.userUUID = federatedSubjectUserUUID env provider subject)
    (hinv : (firstLogins env accounts subject).inv m) :
    Creates env (firstLogins env accounts subject) i u m := by
  rcases directory_createUser env m.shared u with hsame | ⟨id, hfresh, hnext⟩
  · exact firstLogins_same hinv hsame
  obtain hnone | ⟨x, hone, hmade⟩ := hinv
  · constructor
    · show Converged env accounts subject
        (directory { m.shared with db := (m.shared.db.createUser env.sqlEq u).2 })
      rw [hnext, hnone]
      exact .inr ⟨_, rfl, by rw [huuid, hrefl]⟩
    · show directory m.shared <+:
        directory { m.shared with db := (m.shared.db.createUser env.sqlEq u).2 }
      rw [hnext]
      exact List.prefix_append _ _
  · have hfree := (hfresh x (by simp [hone])).2
    rw [huuid, hmade] at hfree
    cases hfree

theorem firstLogins_entrance (hrefl : ∀ text, env.sqlEq text text = true)
    {A : Moment ι World Label → ι → Label → Prop} {r : ConnectorResult}
    (hs : trimSpace r.subject = subject) :
    Entrance env (firstLogins env accounts subject) A i r where
  grows h := h
  elsewhere _ hf hinv _ := firstLogins_same hinv (hf _)
  create _ huuid _ hinv _ := firstLogins_create hrefl (hs ▸ huuid) hinv

end Law

/-- **Simultaneous first logins converge.** Any number of logins of one identity run among each other, with
any names and addresses, and no account answers to their keys at the start. Then at most one account is
created, and every login that succeeds enters it. -/
theorem first_logins_converge [DecidableEq ι] (env : Env) (logins : ι → Arrival) (subject : String)
    (hrefl : ∀ text, env.sqlEq text text = true) (hsha : ∀ name, env.newSHA1 name ≠ "")
    (hlogins : ∀ i, ∃ r, (logins i).answered = some r ∧ trimSpace r.subject = subject) {w : World}
    (hnew : ∀ i, ∀ r ∈ (logins i).answered, ∀ x ∈ directory w, ¬ Traced env r x)
    {c : Config ι World Label (Option Int)}
    (hrun : Reach NoOtherAccounts Unrestricted (Config.start w fun i => (logins i).code env) c) :
    ∃ created, directory c.shared = directory w ++ created ∧ created.length ≤ 1 ∧
      ∀ i id, c.procs i = .ret (some id) → ∃ x ∈ created, x.id = id := by
  have hsafe : c.Safe (firstLogins env (directory w) subject) Unrestricted fun i account m =>
      ∀ id, account = some id → ∃ r x, (logins i).answered = some r ∧ Entered env r x m ∧ x.id = id := by
    refine sound (fun m s hinv hE => ?_) (fun i account m m' hrely _ hm id hid => ?_)
      ⟨.inl rfl, fun i => ?_⟩ hrun
    · rw [NoOtherAccounts] at hE
      refine ⟨?_, ?_⟩
      · show Converged env (directory w) subject (directory s)
        rw [hE]
        exact hinv
      · show directory m.shared <+: directory s
        rw [hE]
    · obtain ⟨r, x, hr, ⟨hx, htraced⟩, hid⟩ := hm id hid
      exact ⟨r, x, hr, ⟨hrely.mono.subset hx, htraced⟩, hid⟩
    · obtain ⟨r, hr, hs⟩ := hlogins i
      refine (entrance_wp (firstLogins_entrance hrefl hs) hrefl hsha hr).imp fun account m hm id hid => ?_
      obtain ⟨x, hx, hid⟩ := hm id hid
      exact ⟨r, x, hr, hx, hid⟩
  -- who is entered is not one of those who were there
  have hentered : ∀ i id, c.procs i = .ret (some id) →
      ∃ x, x ∈ directory c.shared ∧ x ∉ directory w ∧ x.id = id := by
    intro i id hret
    obtain ⟨r, x, hr, ⟨hx, htraced⟩, hid⟩ := hsafe.returned hret id rfl
    exact ⟨x, hx, fun hold => hnew i r hr x hold htraced, hid⟩
  obtain hnone | ⟨x, hone, -⟩ := hsafe.1
  · refine ⟨[], by rw [hnone, List.append_nil], Nat.zero_le 1, fun i id hret => ?_⟩
    obtain ⟨x, hx, hfresh, -⟩ := hentered i id hret
    exact absurd (hnone ▸ hx) hfresh
  · refine ⟨[x], hone, Nat.le_refl 1, fun i id hret => ?_⟩
    obtain ⟨y, hy, hfresh, hid⟩ := hentered i id hret
    rw [hone] at hy
    rcases List.mem_append.mp hy with hold | hlast
    · exact absurd hold hfresh
    · exact ⟨y, hlast, hid⟩

/-- Both logins have probed for a name before one of them creates the account: the other one, with
another name, enters it too. -/
theorem first_logins_converge_renamed :
    ∃ c, Reach NoOtherAccounts Unrestricted
        (Config.start (World.empty 0) fun i => (renamed i).code uuidEnv) c ∧
      c.procs 0 = .ret (some 1) ∧ c.procs 1 = .ret (some 1) ∧
      ∃ created, directory c.shared = directory (World.empty 0) ++ created ∧ created.length ≤ 1 ∧
        ∀ i id, c.procs i = .ret (some id) → ∃ x ∈ created, x.id = id := by
  obtain ⟨c, hrun, hfirst, hsecond⟩ := exists_played (E := NoOtherAccounts) (A := Unrestricted)
    (c := Config.start (World.empty 0) fun i => (renamed i).code uuidEnv)
    (P := fun c => c.procs 0 = .ret (some 1) ∧ c.procs 1 = .ret (some 1))
    ([.pick 1 true, .pick 1 true, .pick 1 true, .pick 1 true, .pick 1 true, .pick 1 true,
      .pick 1 true, .pick 1 true, .pick 1 true, .pick 1 true, .pick 1 true, .pick 1 true] ++ inTurns)
    (by simp [inTurns, Move.Allowed]) (by decide +kernel)
  refine ⟨c, hrun, hfirst, hsecond, ?_⟩
  refine first_logins_converge uuidEnv renamed "sub" uuidEnv_refl uuidEnv_sha ?_
    (fun _ _ _ _ h => by cases h) hrun
  exact Fin.forall_fin_two.mpr ⟨⟨_, rfl, by decide +kernel⟩, ⟨_, rfl, by decide +kernel⟩⟩

end IdpServer.Laws.Authn
