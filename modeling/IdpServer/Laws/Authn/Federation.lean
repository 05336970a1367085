import Mathlib.Data.Fintype.Basic
import IdpServer.Laws.Authn.Accounts
import IdpServer.Laws.Authn.Guessing

/-!
# Laws.Authn.Federation — one identity, one account

`resolveExistingUser` also looks for the username and the address that the provider sends (`identity_unstable`,
`provisioned_shared`). The laws are for providers that do not send those of other accounts.
-/

namespace IdpServer.Laws.Authn

open Conc IdpServer.Cache Store Go IdpServer.Authn

variable {ι : Type}

/-! ## One identity -/

section OneIdentity

variable (env : Env) (logins : ι → Arrival) (subject : String)

/-- **The condition** on the accounts: what is sent with the subject is not the name or the address of
another account, and the identity has one account at most. -/
structure Sole (accounts : List Identity) : Prop where
  own : ∀ x ∈ accounts, ∀ j, ∀ r ∈ (logins j).answered, trimSpace r.subject = subject →
    Claimed env r x → Own env subject x
  one : ∀ x ∈ accounts, ∀ y ∈ accounts, Own env subject x → Own env subject y → x.id = y.id

def Stranger (x : Identity) : Prop :=
  ¬ Own env subject x ∧
    ∀ j, ∀ r ∈ (logins j).answered, trimSpace r.subject = subject → ¬ Claimed env r x

/-- Elsewhere accounts of strangers are created. -/
def Joins (w w' : World) : Prop :=
  ∃ new, directory w' = directory w ++ new ∧ ∀ x ∈ new, Stranger env logins subject x

def Sends (i : ι) : Prop := ∃ r ∈ (logins i).answered, trimSpace r.subject = subject

/-- **The condition** on the calls: who is not of the identity creates accounts of strangers. -/
def OthersApart (_ : Moment ι World Label) (i : ι) : Label → Prop
  | .createUser u => Sends logins subject i ∨ Stranger env logins subject (.of u)
  | _ => True

instance [Fintype ι] (x : Identity) : Decidable (Stranger env logins subject x) := by
  unfold Stranger; infer_instance

instance (i : ι) : Decidable (Sends logins subject i) := by
  unfold Sends; infer_instance

instance [Fintype ι] (m : Moment ι World Label) (i : ι) (l : Label) :
    Decidable (OthersApart env logins subject m i l) := by
  induction l using Label.casesOn <;> dsimp only [OthersApart] <;> infer_instance

/-- The accounts stay, and a new one of the identity has the UUID that is made of the subject. -/
def Extends (m m' : Moment ι World Label) : Prop :=
  ∃ new, directory m'.shared = directory m.shared ++ new ∧ ∀ x ∈ new, Own env subject x →
    x.userUUID = federatedSubjectUserUUID env provider subject

def oneIdentity : Discipline ι World Label where
  inv m := Sole env logins subject (directory m.shared)
  mono := Extends env subject
  mono_refl m := ⟨[], by simp, fun _ h => by cases h⟩
  mono_trans := by
    rintro a b c ⟨new, hnew, hown⟩ ⟨new', hnew', hown'⟩
    refine ⟨new ++ new', by rw [hnew', hnew, List.append_assoc], fun x hx => ?_⟩
    rcases List.mem_append.mp hx with hx | hx
    · exact hown x hx
    · exact hown' x hx

variable {env logins subject} {accounts : List Identity} {m : Moment ι World Label} {i : ι}

theorem Sole.strangers (h : Sole env logins subject accounts) {new : List Identity}
    (hnew : ∀ x ∈ new, Stranger env logins subject x) :
    Sole env logins subject (accounts ++ new) := by
  have hold : ∀ x ∈ accounts ++ new, Own env subject x → x ∈ accounts := by
    intro x hx hown
    rcases List.mem_append.mp hx with hx | hx
    · exact hx
    · exact absurd hown (hnew x hx).1
  refine ⟨fun x hx j r hr hs hclaimed => ?_, fun x hx y hy hox hoy => ?_⟩
  · rcases List.mem_append.mp hx with hx | hx
    · exact h.own x hx j r hr hs hclaimed
    · exact absurd hclaimed ((hnew x hx).2 j r hr hs)
  · exact h.one x (hold x hx hox) y (hold y hy hoy) hox hoy

theorem Sole.first (h : Sole env logins subject accounts) (hnone : ∀ x ∈ accounts, ¬ Own env subject x)
    {x : Identity} (hx : Own env subject x) : Sole env logins subject (accounts ++ [x]) := by
  have hlast : ∀ y ∈ accounts ++ [x], Own env subject y → y = x := by
    intro y hy hown
    rcases List.mem_append.mp hy with hy | hy
    · exact absurd hown (hnone y hy)
    · exact List.mem_singleton.mp hy
  refine ⟨fun y hy j r hr hs hclaimed => ?_, fun y hy z hz hoy hoz => ?_⟩
  · rcases List.mem_append.mp hy with hy | hy
    · exact absurd (h.own y hy j r hr hs hclaimed) (hnone y hy)
    · exact List.mem_singleton.mp hy ▸ hx
  · rw [hlast y hy hoy, hlast z hz hoz]

theorem oneIdentity_strangers {f : World → World} {l : Label} (new : List Identity)
    (hf : directory (f m.shared) = directory m.shared ++ new)
    (hnew : ∀ x ∈ new, Stranger env logins subject x)
    (hinv : (oneIdentity env logins subject).inv m) :
    (oneIdentity env logins subject).Kept m (m.after i l f) := by
  refine ⟨?_, new, hf, fun x hx hown => absurd hown (hnew x hx).1⟩
  show Sole env logins subject (directory (f m.shared))
  rw [hf]
  exact hinv.strangers hnew

theorem oneIdentity_elsewhere (A : Moment ι World Label → ι → Label → Prop) :
    Elsewhere (oneIdentity env logins subject) A i := by
  intro m l f _ hf hinv _
  exact oneIdentity_strangers [] (by simp [hf]) (fun _ h => by cases h) hinv

theorem oneIdentity_create (hi : ¬ Sends logins subject i) {u : User}
    (hinv : (oneIdentity env logins subject).inv m)
    (ha : OthersApart env logins subject m i (.createUser u)) :
    Creates env (oneIdentity env logins subject) i u m := by
  have hstranger := ha.resolve_left hi
  rcases directory_createUser env m.shared u with hsame | ⟨id, -, hnext⟩
  · exact oneIdentity_strangers [] (by simp [hsame]) (fun _ h => by cases h) hinv
  · refine oneIdentity_strangers _ hnext (fun x hx => ?_) hinv
    rw [List.mem_singleton.mp hx]
    exact hstranger

/-- **A login of the identity** creates its first account or none. -/
theorem oneIdentity_entrance (hrefl : ∀ text, env.sqlEq text text = true) {r : ConnectorResult}
    (hs : trimSpace r.subject = subject) :
    Entrance env (oneIdentity env logins subject) (OthersApart env logins subject) i r where
  grows := fun ⟨new, hnew, _⟩ => ⟨new, hnew.symm⟩
  elsewhere := oneIdentity_elsewhere _
  create := by
    intro m u hne huuid hpast hinv _
    subst hs
    rcases directory_createUser env m.shared u with hsame | ⟨id, hfresh, hnext⟩
    · exact oneIdentity_strangers [] (by simp [hsame]) (fun _ h => by cases h) hinv
    -- the subject was looked for, and whoever came later has the other UUID
    have hnone : ∀ x ∈ directory m.shared, ¬ Own env (trimSpace r.subject) x := by
      rintro x hx ⟨-, hsubject | hmade⟩
      · obtain ⟨m₀, -, hunknown, ⟨new, hnew, hown⟩, -⟩ := hpast
        rw [hnew] at hx
        rcases List.mem_append.mp hx with hold | hlater
        · rw [hunknown x hold] at hsubject
          cases hsubject
        · have hsame := hown x hlater ⟨hne, .inl hsubject⟩
          have hfree := (hfresh x (hnew ▸ hx)).2
          rw [hsame, huuid, hrefl] at hfree
          cases hfree
      · have hfree := (hfresh x hx).2
        rw [huuid, hmade] at hfree
        cases hfree
    have hfirst : Own env (trimSpace r.subject) ⟨id, u.userUUID, u.username, u.email⟩ := by
      refine ⟨hne, .inr ?_⟩
      rw [huuid, hrefl]
    refine ⟨?_, [_], hnext, fun x hx _ => ?_⟩
    · show Sole env logins (trimSpace r.subject) (directory { m.shared with
        db := (m.shared.db.createUser env.sqlEq u).2 })
      rw [hnext]
      exact hinv.first hnone hfirst
    · rw [List.mem_singleton.mp hx]
      exact huuid

end OneIdentity

/-- **One identity enters one account**, whatever else is sent with its subject and whoever else signs in,
as long as what is sent are not the name and the address of others. -/
theorem identity_stable [DecidableEq ι] {env : Env} {logins : ι → Arrival} {subject : String}
    {w : World} {E : World → World → Prop} (hrefl : ∀ text, env.sqlEq text text = true)
    (hsha : ∀ name, env.newSHA1 name ≠ "") (hstart : Sole env logins subject (directory w))
    (hE : ∀ s s', E s s' → Joins env logins subject s s') {c : Config ι World Label (Option Int)}
    (hrun : Reach E (OthersApart env logins subject)
      (Config.start w fun i => (logins i).code env) c) {i j : ι} {r q : ConnectorResult}
    (hi : (logins i).answered = some r) (hj : (logins j).answered = some q)
    (hr : trimSpace r.subject = subject) (hq : trimSpace q.subject = subject) {a b : Int}
    (ha : c.procs i = .ret (some a)) (hb : c.procs j = .ret (some b)) : a = b := by
  let Q : ι → Option Int → Moment ι World Label → Prop := fun i account m =>
    ∀ r, (logins i).answered = some r → trimSpace r.subject = subject → ∀ id, account = some id →
      ∃ x, Entered env r x m ∧ x.id = id
  have hsafe : c.Safe (oneIdentity env logins subject) (OthersApart env logins subject) Q := by
    refine sound (fun m s hinv hmove => ?_) (fun i account m m' hrely _ hm r hr hs id hid => ?_) ?_ hrun
    · obtain ⟨new, hnew, hstrangers⟩ := hE _ _ hmove
      refine ⟨?_, new, hnew, fun x hx hown => absurd hown (hstrangers x hx).1⟩
      show Sole env logins subject (directory s)
      rw [hnew]
      exact hinv.strangers hstrangers
    · obtain ⟨x, hx, hid⟩ := hm r hr hs id hid
      exact ⟨x, entered_lasting (oneIdentity_entrance (i := i) hrefl hs) x m m'
        ⟨hrely.mono, hrely.suffix⟩ hx, hid⟩
    · refine ⟨hstart, fun i => ?_⟩
      by_cases hsends : Sends logins subject i
      · obtain ⟨r, hr, hs⟩ := hsends
        refine (entrance_wp (oneIdentity_entrance hrefl hs) hrefl hsha hr).imp
          fun account m hm r' hr' _ id hid => ?_
        cases hr.symm.trans hr'
        exact hm id hid
      · refine (arrival_wp (admission_of_elsewhere (oneIdentity_elsewhere _)
          (oneIdentity_create hsends) _)).imp fun _ _ _ r hr hs => absurd ⟨r, hr, hs⟩ hsends
  have hinv : Sole env logins subject (directory c.shared) := hsafe.1
  -- whatever key an account was found under, it is that of the identity
  have hown : ∀ {k r x}, (logins k).answered = some r → trimSpace r.subject = subject →
      Entered env r x c.toMoment → Own env subject x := by
    rintro k r x hk rfl ⟨hx, hown | hclaimed⟩
    · exact hown
    · exact hinv.own x hx k r hk rfl hclaimed
  obtain ⟨x, hx, rfl⟩ := hsafe.returned ha r hi hr a rfl
  obtain ⟨y, hy, rfl⟩ := hsafe.returned hb q hj hq b rfl
  exact hinv.one x hx.1 y hy.1 (hown hi hr hx) (hown hj hq hy)

/-! ### Examples -/

def uuidEnv : Env := { Env.plain [] with newSHA1 := fun name => "uuid:" ++ name }

theorem uuidEnv_refl (text : String) : uuidEnv.sqlEq text text = true := decide_eq_true rfl

theorem uuidEnv_sha (name : String) : uuidEnv.newSHA1 name ≠ "" := by
  intro h
  have := congrArg String.length h
  simp [uuidEnv] at this

def arriving (sessionID subject username : String) : Arrival where
  draws := ⟨sessionID, "c1", "11", "u-9"⟩
  answer := .ok { authenticated := true, subject := subject, username := username }
  input := { method := "federated_oidc" }

def renamed : Fin 2 → Arrival
  | 0 => arriving "s1" "sub" "ada"
  | 1 => arriving "s2" "sub" "bob"

def inTurns : List (Move (Fin 2) World) := List.replicate 4 (.run 0) ++ List.replicate 4 (.run 1)

theorem identity_stable_renamed :
    ∃ c a b, Reach (Joins uuidEnv renamed "sub") (OthersApart uuidEnv renamed "sub")
        (Config.start (World.empty 0) fun i => (renamed i).code uuidEnv) c ∧
      c.procs 0 = .ret (some a) ∧ c.procs 1 = .ret (some b) ∧ a = b := by
  let c := (Config.start (World.empty 0) fun i => (renamed i).code uuidEnv).played
    (OthersApart uuidEnv renamed "sub") inTurns
  have hrun : Reach (Joins uuidEnv renamed "sub") (OthersApart uuidEnv renamed "sub")
      (Config.start (World.empty 0) fun i => (renamed i).code uuidEnv) c :=
    played_reach _ (by simp [inTurns, Move.Allowed]) (by decide +kernel)
  have hfirst : c.procs 0 = .ret (some 1) := by decide +kernel
  have hsecond : c.procs 1 = .ret (some 1) := by decide +kernel
  exact ⟨c, 1, 1, hrun, hfirst, hsecond, identity_stable uuidEnv_refl uuidEnv_sha
    ⟨fun _ h => (by cases h), fun _ h => (by cases h)⟩ (fun _ _ h => h) hrun (i := 0) (j := 1) rfl rfl
    (by decide +kernel) (by decide +kernel) hfirst hsecond⟩

/-- There is a local account with the first name: the first login enters it, and the second creates
another. -/
theorem identity_unstable :
    ∃ c : Config (Fin 2) World Label (Option Int),
      Reach (fun _ _ => False) Unrestricted
        (Config.start oneAccount fun i => (renamed i).code uuidEnv) c ∧
      c.procs 0 = .ret (some 1) ∧ c.procs 1 = .ret (some 2) :=
  ⟨_, played_reach (A := Unrestricted) inTurns (by simp [inTurns, Move.Allowed]) (by decide +kernel),
    by decide +kernel, by decide +kernel⟩

/-! ## Created accounts -/

def createdID (env : Env) (x : Event ι World Label) : Option Int :=
  match x.label with
  | .createUser u => (x.before.db.createUser env.sqlEq u).1.map (·.id)
  | _ => none

def Provisioned (env : Env) (m : Moment ι World Label) (i : ι) (id : Int) : Prop :=
  ∃ x ∈ m.trace, x.pid = i ∧ createdID env x = some id

instance [DecidableEq ι] (env : Env) (m : Moment ι World Label) (i : ι) (id : Int) :
    Decidable (Provisioned env m i id) := by unfold Provisioned; infer_instance

section Provisioning

variable (env : Env) (logins : ι → Arrival)

def Unclaimed (r : ConnectorResult) (x : Identity) : Prop :=
  ∀ j, ∀ q ∈ (logins j).answered, trimSpace q.subject ≠ trimSpace r.subject → ¬ Claimed env q x

/-- **The condition**: a login creates an account with a name and an address that are not sent with
other subjects. -/
def OwnNames (_ : Moment ι World Label) (i : ι) : Label → Prop
  | .createUser u => ∀ r ∈ (logins i).answered, Unclaimed env logins r (.of u)
  | _ => True

instance [Fintype ι] (m : Moment ι World Label) (i : ι) (l : Label) :
    Decidable (OwnNames env logins m i l) := by
  induction l using Label.casesOn <;> dsimp only [OwnNames, Unclaimed] <;> infer_instance

def Enrols (w w' : World) : Prop :=
  directory w <+: directory w' ∧ ((directory w').map (·.id)).Nodup

structure MadeFor (r : ConnectorResult) (x : Identity) : Prop where
  subject : trimSpace r.subject ≠ ""
  userUUID : x.userUUID = federatedSubjectUserUUID env provider (trimSpace r.subject)
  unclaimed : Unclaimed env logins r x

structure Accounted (m : Moment ι World Label) : Prop where
  ids : ((directory m.shared).map (·.id)).Nodup
  created : ∀ i id, Provisioned env m i id → ∃ x ∈ directory m.shared, x.id = id ∧
    ∀ r ∈ (logins i).answered, MadeFor env logins r x

def registry : Discipline ι World Label where
  inv := Accounted env logins
  mono m m' := directory m.shared <+: directory m'.shared
  mono_refl := Moment.list_refl directory
  mono_trans := @Moment.list_trans ι World Label Identity directory

variable {env logins} {m : Moment ι World Label} {i : ι}

theorem Accounted.elsewhere (h : Accounted env logins m) {l : Label} {f : World → World}
    (hl : createdID env (⟨i, l, m.shared⟩ : Event ι World Label) = none)
    (hf : directory (f m.shared) = directory m.shared) : Accounted env logins (m.after i l f) := by
  refine ⟨?_, ?_⟩
  · show ((directory (f m.shared)).map (·.id)).Nodup
    rw [hf]
    exact h.ids
  · rintro k id ⟨x, hx, hk, hid⟩
    show ∃ y ∈ directory (f m.shared), _
    rw [hf]
    rcases List.mem_cons.mp hx with rfl | hx
    · rw [hl] at hid
      cases hid
    · exact h.created k id ⟨x, hx, hk, hid⟩

theorem Accounted.create (h : Accounted env logins m) {u : User}
    (hmade : ∀ r ∈ (logins i).answered, trimSpace r.subject ≠ "" ∧
      u.userUUID = federatedSubjectUserUUID env provider (trimSpace r.subject) ∧
      Unclaimed env logins r (.of u)) : Creates env (registry env logins) i u m := by
  cases hrow : (m.shared.db.createUser env.sqlEq u).1 with
  | none =>
    have hsame := Database.createUser_eq_none hrow
    have hdir : directory { m.shared with db := (m.shared.db.createUser env.sqlEq u).2 } =
        directory m.shared := by rw [hsame]
    refine ⟨h.elsewhere (by simp [createdID, hrow]) hdir, ?_⟩
    show directory m.shared <+: directory _
    rw [Moment.after_shared, hdir]
  | some row =>
    obtain ⟨hold, ⟨huuid, hname, hemail⟩, hnext⟩ := Database.createUser_eq_some hrow
    have hdir : directory { m.shared with db := (m.shared.db.createUser env.sqlEq u).2 } =
        directory m.shared ++ [.of row] := by simp [directory, hnext]
    refine ⟨⟨?_, ?_⟩, ?_⟩
    · show ((directory { m.shared with db := (m.shared.db.createUser env.sqlEq u).2 }).map
        (·.id)).Nodup
      rw [hdir, List.map_append, List.nodup_append]
      refine ⟨h.ids, List.nodup_singleton _, ?_⟩
      intro a ha b hb hab
      obtain ⟨x, hx, rfl⟩ := List.mem_map.mp ha
      obtain ⟨old, hmem, rfl⟩ := List.mem_map.mp hx
      have hlater : (Identity.of old).id < (Identity.of row).id := (hold old hmem).1
      rw [hab, List.mem_singleton.mp hb] at hlater
      exact Int.lt_irrefl _ hlater
    · rintro k id ⟨x, hx, rfl, hid⟩
      show ∃ y ∈ directory { m.shared with db := (m.shared.db.createUser env.sqlEq u).2 }, _
      rw [hdir]
      rcases List.mem_cons.mp hx with rfl | hx
      · refine ⟨.of row, List.mem_append_right _ List.mem_cons_self, ?_, fun r hr => ?_⟩
        · simpa [createdID, hrow, Identity.of] using hid
        · obtain ⟨hs, hmade, hunclaimed⟩ := hmade r hr
          refine ⟨hs, huuid.trans hmade, fun j q hq hne hclaimed => hunclaimed j q hq hne ?_⟩
          simpa only [Claimed, Identity.of, hname, hemail] using hclaimed
      · obtain ⟨y, hy, hid, hmade⟩ := h.created x.pid id ⟨x, hx, rfl, hid⟩
        exact ⟨y, List.mem_append_left _ hy, hid, hmade⟩
    · show directory m.shared <+: directory _
      rw [Moment.after_shared, hdir]
      exact List.prefix_append _ _

theorem registry_elsewhere (A : Moment ι World Label → ι → Label → Prop) :
    Elsewhere (registry env logins) A i := by
  intro m l f hl hf hinv _
  have hnone : createdID env (⟨i, l, m.shared⟩ : Event ι World Label) = none := by
    cases l with
    | createUser u => exact absurd rfl (hl u)
    | _ => rfl
  refine ⟨Accounted.elsewhere hinv hnone (hf _), ?_⟩
  show directory m.shared <+: directory (f m.shared)
  rw [hf]

theorem registry_entrance {r : ConnectorResult} (hr : (logins i).answered = some r) :
    Entrance env (registry env logins) (OwnNames env logins) i r where
  grows h := h
  elsewhere := registry_elsewhere _
  create := by
    intro m u hne huuid _ hinv ha
    refine Accounted.create hinv fun q hq => ?_
    cases hr.symm.trans hq
    exact ⟨hne, huuid, ha r hr⟩

end Provisioning

theorem subject_of_userUUID {env : Env} (hinj : ∀ a b, env.sqlEq (env.newSHA1 a) (env.newSHA1 b) = true →
    a = b) {s t : String} (hs : trimSpace s ≠ "") (ht : trimSpace t ≠ "")
    (h : env.sqlEq (federatedSubjectUserUUID env provider (trimSpace s))
      (federatedSubjectUserUUID env provider (trimSpace t)) = true) : trimSpace s = trimSpace t := by
  simp only [federatedSubjectUserUUID, trimSpace_trimSpace, if_neg hs, if_neg ht] at h
  exact (String.append_right_inj _).mp (hinj _ _ h)

/-- **An account that was created for one subject is not entered with another**, as long as its name
and its address are not sent with another. -/
theorem provisioned_unshared [DecidableEq ι] {env : Env} {logins : ι → Arrival} {w : World}
    {E : World → World → Prop} (hrefl : ∀ text, env.sqlEq text text = true)
    (hsha : ∀ name, env.newSHA1 name ≠ "")
    (hinj : ∀ a b, env.sqlEq (env.newSHA1 a) (env.newSHA1 b) = true → a = b)
    (hgenerated : ∀ j, ∀ q ∈ (logins j).answered, ∀ name,
      env.sqlEq (env.newSHA1 name) (trimSpace q.subject) = false)
    (hstart : ((directory w).map (·.id)).Nodup) (hE : ∀ s s', E s s' → Enrols s s')
    {c : Config ι World Label (Option Int)}
    (hrun : Reach E (OwnNames env logins) (Config.start w fun i => (logins i).code env) c)
    {i j : ι} {r q : ConnectorResult} (hi : (logins i).answered = some r)
    (hj : (logins j).answered = some q) (hne : trimSpace q.subject ≠ trimSpace r.subject) {id : Int}
    (hprovisioned : Provisioned env c.toMoment i id) : c.procs j ≠ .ret (some id) := by
  let Q : ι → Option Int → Moment ι World Label → Prop := fun i account m =>
    ∀ r, (logins i).answered = some r → ∀ id, account = some id → ∃ x, Entered env r x m ∧ x.id = id
  have hsafe : c.Safe (registry env logins) (OwnNames env logins) Q := by
    refine sound (fun m s hinv hmove => ?_) (fun i account m m' hrely _ hm r hr id hid => ?_) ?_ hrun
    · obtain ⟨hgrows, hids⟩ := hE _ _ hmove
      refine ⟨⟨hids, fun i id hid => ?_⟩, hgrows⟩
      obtain ⟨x, hx, h⟩ := hinv.created i id hid
      exact ⟨x, hgrows.subset hx, h⟩
    · obtain ⟨x, hx, hid⟩ := hm r hr id hid
      exact ⟨x, ⟨hrely.mono.subset hx.1, hx.2⟩, hid⟩
    · refine ⟨⟨hstart, fun i id h => ?_⟩, fun i => ?_⟩
      · obtain ⟨x, hx, -⟩ := h
        cases hx
      cases hi : (logins i).answered with
      | some r =>
        refine (entrance_wp (registry_entrance hi) hrefl hsha hi).imp
          fun account m hm r' hr' id hid => ?_
        cases hi.symm.trans hr'
        exact hm id hid
      | none =>
        refine (arrival_wp (admission_of_elsewhere (registry_elsewhere _) (fun hinv _ => ?_) _)).imp
          fun _ _ _ r hr => by rw [hi] at hr; cases hr
        exact Accounted.create hinv fun r hr => by rw [hi] at hr; cases hr
  have hinv : Accounted env logins c.toMoment := hsafe.1
  intro hret
  obtain ⟨x, ⟨hx, htraced⟩, hid⟩ := hsafe.returned hret q hj id rfl
  obtain ⟨y, hy, hid', hmade⟩ := hinv.created i id hprovisioned
  obtain rfl : x = y := List.inj_on_of_nodup_map hinv.ids hx hy (hid.trans hid'.symm)
  obtain ⟨hs, huuid, hunclaimed⟩ := hmade r hi
  -- none of the four keys is the account's
  rcases htraced with ⟨ht, hsubject | hmade⟩ | hclaimed
  · have hother := hgenerated j q hj (trimSpace provider ++ "|" ++ trimSpace r.subject)
    rw [huuid, federatedSubjectUserUUID, trimSpace_trimSpace, if_neg hs, hother] at hsubject
    cases hsubject
  · rw [huuid] at hmade
    exact hne (subject_of_userUUID hinj hs ht hmade).symm
  · exact hunclaimed j q hj hne hclaimed

/-! ### Examples -/

theorem uuidEnv_injective (a b : String)
    (h : uuidEnv.sqlEq (uuidEnv.newSHA1 a) (uuidEnv.newSHA1 b) = true) : a = b :=
  (String.append_right_inj "uuid:").mp (of_decide_eq_true h)

theorem uuidEnv_generated {subject : String} (h : subject.toList.head? = some 's') (name : String) :
    uuidEnv.sqlEq (uuidEnv.newSHA1 name) subject = false := by
  refine decide_eq_false fun heq => ?_
  rw [← heq] at h
  simp [uuidEnv] at h

def apart : Fin 2 → Arrival
  | 0 => arriving "s1" "sub-1" "ada"
  | 1 => arriving "s2" "sub-2" "bob"

theorem answered_generated {logins : Fin 2 → Arrival}
    (h : ∀ j, ∀ q ∈ (logins j).answered, (trimSpace q.subject).toList.head? = some 's') (j : Fin 2) :
    ∀ q ∈ (logins j).answered, ∀ name,
      uuidEnv.sqlEq (uuidEnv.newSHA1 name) (trimSpace q.subject) = false :=
  fun q hq => uuidEnv_generated (h j q hq)

theorem provisioned_unshared_apart :
    ∃ c, Reach Enrols (OwnNames uuidEnv apart)
        (Config.start (World.empty 0) fun i => (apart i).code uuidEnv) c ∧
      Provisioned uuidEnv c.toMoment 0 1 ∧ (∃ id, c.procs 1 = .ret (some id)) ∧
      c.procs 1 ≠ .ret (some 1) := by
  let c := (Config.start (World.empty 0) fun i => (apart i).code uuidEnv).played
    (OwnNames uuidEnv apart) inTurns
  have hrun : Reach Enrols (OwnNames uuidEnv apart)
      (Config.start (World.empty 0) fun i => (apart i).code uuidEnv) c :=
    played_reach _ (by simp [inTurns, Move.Allowed]) (by decide +kernel)
  have hprovisioned : Provisioned uuidEnv c.toMoment 0 1 := by decide +kernel
  refine ⟨c, hrun, hprovisioned, ⟨2, by decide +kernel⟩, ?_⟩
  have hstart : ((directory (World.empty 0)).map (·.id)).Nodup := List.nodup_nil
  exact provisioned_unshared uuidEnv_refl uuidEnv_sha uuidEnv_injective
    (answered_generated (by decide +kernel)) hstart (fun _ _ h => h) hrun (i := 0) (j := 1) rfl rfl (by decide +kernel) hprovisioned

def namesakes : Fin 2 → Arrival
  | 0 => arriving "s1" "sub-1" "ada"
  | 1 => arriving "s2" "sub-2" "ada"

/-- The second enters the account of the first. -/
theorem provisioned_shared :
    (∀ a b, uuidEnv.sqlEq (uuidEnv.newSHA1 a) (uuidEnv.newSHA1 b) = true → a = b) ∧
    (∀ j, ∀ q ∈ (namesakes j).answered, ∀ name,
      uuidEnv.sqlEq (uuidEnv.newSHA1 name) (trimSpace q.subject) = false) ∧
    ∃ c : Config (Fin 2) World Label (Option Int),
      Reach (fun _ _ => False) Unrestricted
        (Config.start (World.empty 0) fun i => (namesakes i).code uuidEnv) c ∧
      Provisioned uuidEnv c.toMoment 0 1 ∧ c.procs 1 = .ret (some 1) :=
  ⟨uuidEnv_injective, answered_generated (by decide +kernel), _,
    played_reach (A := Unrestricted) inTurns (by simp [inTurns, Move.Allowed]) (by decide +kernel),
    by decide +kernel, by decide +kernel⟩

end IdpServer.Laws.Authn
