import IdpServer.Laws.Authn.Grounds

/-!
# Laws.Authn.Accounts — which account a provider's answer leads to

`Authenticate` looks for an account under four keys of the provider's answer, and creates one if there is none.
One of the keys is that of the account that is entered (`entrance_wp`).
-/

namespace IdpServer.Laws.Authn

open Conc IdpServer.Cache Store Go IdpServer.Authn

variable {ι : Type}

/-! ## The directory -/

structure Identity where
  id : Int
  userUUID : String
  username : String
  email : String
  deriving DecidableEq, Repr

def Identity.of (u : User) : Identity := ⟨u.id, u.userUUID, u.username, u.email⟩

def directory (w : World) : List Identity := w.db.users.map .of

theorem mem_directory {u : User} {w : World} (h : u ∈ w.db.users) : .of u ∈ directory w :=
  List.mem_map_of_mem h

theorem directory_lockAccount (w : World) (userID : Int) :
    directory { w with db := w.db.lockAccount userID } = directory w := by
  simp only [directory, Database.lockAccount, List.map_map]
  refine List.map_congr_left fun u _ => ?_
  dsimp only [Function.comp_apply]
  split <;> rfl

theorem directory_createUser (env : Env) (w : World) (u : User) :
    directory { w with db := (w.db.createUser env.sqlEq u).2 } = directory w ∨
    ∃ id, (∀ x ∈ directory w, x.id < id ∧ env.sqlEq x.userUUID u.userUUID = false) ∧
      directory { w with db := (w.db.createUser env.sqlEq u).2 } =
        directory w ++ [⟨id, u.userUUID, u.username, u.email⟩] := by
  cases h : (w.db.createUser env.sqlEq u).1 with
  | none => exact .inl (by rw [Database.createUser_eq_none h])
  | some row =>
    obtain ⟨hold, ⟨huuid, hname, hemail⟩, hnext⟩ := Database.createUser_eq_some h
    refine .inr ⟨row.id, fun x hx => ?_, ?_⟩
    · obtain ⟨old, hmem, rfl⟩ := List.mem_map.mp hx
      exact hold old hmem
    · simp [directory, hnext, Identity.of, huuid, hname, hemail]

theorem directory_createSession (env : Env) (w : World) (s : Session) :
    directory { w with db := (w.db.createSession env.sqlEq s).2 } = directory w := by
  simp only [directory, Database.createSession]
  split <;> rfl

theorem Sundry.directory {env : Env} {l : Label} {f : World → World} (h : Sundry env l f) :
    (∃ u, l = .createUser u ∧ f = fun w => { w with db := (w.db.createUser env.sqlEq u).2 }) ∨
    (∀ u, l ≠ .createUser u) ∧ ∀ w, Authn.directory (f w) = Authn.directory w := by
  cases h with
  | createUser u => exact .inl ⟨u, rfl, rfl⟩
  | lockAccount userID =>
    exact .inr ⟨fun _ h => (by cases h), fun w => directory_lockAccount w userID⟩
  | limit _ hl g =>
    refine .inr ⟨fun u h => ?_, fun _ => rfl⟩
    subst h
    cases hl
  | _ => exact .inr ⟨fun _ h => (by cases h), fun _ => rfl⟩

/-! ## Keys -/

def provider : String := "federated_oidc"

def Own (env : Env) (subject : String) (x : Identity) : Prop :=
  subject ≠ "" ∧ (env.sqlEq x.userUUID subject = true ∨
    env.sqlEq x.userUUID (federatedSubjectUserUUID env provider subject) = true)

def Claimed (env : Env) (r : ConnectorResult) (x : Identity) : Prop :=
  (trimSpace r.username ≠ "" ∧ env.sqlEq x.username (trimSpace r.username) = true) ∨
  (normalizeFederatedEmail r.email ≠ "" ∧
    env.sqlEq x.email (normalizeFederatedEmail r.email) = true)

instance (env : Env) (subject : String) (x : Identity) : Decidable (Own env subject x) := by
  unfold Own; infer_instance

instance (env : Env) (r : ConnectorResult) (x : Identity) : Decidable (Claimed env r x) := by
  unfold Claimed; infer_instance

/-- One of the four keys of the answer is the account's. -/
def Traced (env : Env) (r : ConnectorResult) (x : Identity) : Prop :=
  Own env (trimSpace r.subject) x ∨ Claimed env r x

def Unknown (env : Env) (r : ConnectorResult) (w : World) : Prop :=
  ∀ x ∈ directory w, env.sqlEq x.userUUID (trimSpace r.subject) = false

def Entered (env : Env) (r : ConnectorResult) (x : Identity) (m : Moment ι World Label) : Prop :=
  x ∈ directory m.shared ∧ Traced env r x

/-! ## The calls -/

/-- A call of `Authenticate`, with the answer of the provider if it gets to ask for it. -/
structure Arrival where
  draws : LoginDraws
  answer : Except AuthnError ConnectorResult
  input : AuthenticateInput

def LoginOutcome.account : LoginOutcome → Option Int
  | .session result => some result.userID
  | .mfaEnrollmentRequired result => some result.userID
  | .redirect _ => none
  | .mfaRequired _ => none

namespace Arrival

/-- The call; its answer is the account that was entered. -/
def code (env : Env) (a : Arrival) : Action (Option Int) := do
  match ← (Authn.authenticate env a.draws a.answer a.input).run with
  | .ok outcome => return LoginOutcome.account outcome
  | .error _ => return none

/-- What the provider says, in a federated login. -/
def answered (a : Arrival) : Option ConnectorResult :=
  if resolveMethodType a.input = some .federatedOIDC then a.answer.toOption else none

theorem answered_eq_some {a : Arrival} {r : ConnectorResult} :
    a.answered = some r ↔ resolveMethodType a.input = some .federatedOIDC ∧ a.answer = .ok r := by
  unfold answered
  split
  next h =>
    cases a.answer with
    | error e => simp [Except.toOption]
    | ok q => simp [Except.toOption, h]
  next h => simp [h]

end Arrival

/-! ## The way in -/

section Entrance

variable [DecidableEq ι] {env : Env} {D : Discipline ι World Label}
variable {A : Moment ι World Label → ι → Label → Prop} {i : ι} {m : Moment ι World Label}

/-- Commands that leave the directory alone keep the discipline. -/
def Elsewhere (D : Discipline ι World Label) (A : Moment ι World Label → ι → Label → Prop) (i : ι) : Prop :=
  ∀ {m l f}, (∀ u, l ≠ .createUser u) → (∀ w, directory (f w) = directory w) → D.inv m → A m i l →
    D.Kept m (m.after i l f)

def Creates (env : Env) (D : Discipline ι World Label) (i : ι) (u : User)
    (m : Moment ι World Label) : Prop :=
  D.Kept m (m.after i (.createUser u) fun w => { w with db := (w.db.createUser env.sqlEq u).2 })

/-- What a law has to show about a federated login: the UUID of a created account is made of the subject,
which was looked for before. -/
structure Entrance (env : Env) (D : Discipline ι World Label)
    (A : Moment ι World Label → ι → Label → Prop) (i : ι) (r : ConnectorResult) : Prop where
  grows : ∀ {m m'}, D.mono m m' → directory m.shared <+: directory m'.shared
  elsewhere : Elsewhere D A i
  create : ∀ {m u}, trimSpace r.subject ≠ "" →
    u.userUUID = federatedSubjectUserUUID env provider (trimSpace r.subject) →
    D.Past (fun m₀ => Unknown env r m₀.shared) m → D.inv m → A m i (.createUser u) →
    Creates env D i u m

omit [DecidableEq ι] in
theorem admission_of_elsewhere (h : Elsewhere D A i)
    (hcreate : ∀ {m u}, D.inv m → A m i (.createUser u) → Creates env D i u m) (call : Login) :
    Admission env D A i call where
  sundry hl hinv ha := by
    rcases hl.directory with ⟨u, rfl, rfl⟩ | ⟨hother, hsame⟩
    · exact hcreate hinv ha
    · exact h hother hsame hinv ha
  save _ hinv ha := h (fun _ h => by cases h) (fun _ => rfl) hinv ha
  create row _ _ _ _ _ hinv ha :=
    h (fun _ h => by cases h) (fun w => directory_createSession env w row) hinv ha

variable {r : ConnectorResult}

omit [DecidableEq ι] in
theorem Entrance.createSession (laws : Entrance env D A i r) {s : Session} (hinv : D.inv m)
    (ha : A m i (.createSession s)) : D.Kept m (m.after i (.createSession s) fun w =>
      { w with db := (w.db.createSession env.sqlEq s).2 }) :=
  laws.elsewhere (fun _ h => by cases h) (fun w => directory_createSession env w s) hinv ha

omit [DecidableEq ι] in
theorem Entrance.saveSession (laws : Entrance env D A i r) {e : SessionCacheEntry} {ttl : Int}
    (hinv : D.inv m) (ha : A m i (.saveSession e ttl)) : D.Kept m (m.after i (.saveSession e ttl)
      fun w => { w with sessions := w.sessions.save w.now e ttl }) :=
  laws.elsewhere (fun _ h => by cases h) (fun _ => rfl) hinv ha

omit [DecidableEq ι] in
theorem entered_lasting (laws : Entrance env D A i r) (x : Identity) :
    D.Lasting (Entered env r x) :=
  fun _ _ h hm => ⟨(laws.grows h.mono).subset hm.1, hm.2⟩

def Opens (env : Env) (r : ConnectorResult) (found : Option User) (m : Moment ι World Label) : Prop :=
  ∀ u, found = some u → Entered env r (.of u) m

/-- What a search has come to: an account with one of the keys, or none with the subject. -/
def Sought (env : Env) (D : Discipline ι World Label) (r : ConnectorResult) (found : Option User)
    (m : Moment ι World Label) : Prop :=
  Opens env r found m ∧
  (found = none → trimSpace r.subject ≠ "" → D.Past (fun m₀ => Unknown env r m₀.shared) m)

def methodResult (r : ConnectorResult) : MethodResult where
  handled := true
  authenticated := r.authenticated
  subject := r.subject
  identityProvider := provider
  username := r.username
  displayName := r.displayName
  email := r.email
  redirectURI := r.redirectURI

variable {P : Moment ι World Label → Prop} {draws : LoginDraws} {u : User} {redirectURI : String}
variable {a : Arrival}

theorem lookup_wp (key : User → String) {text : String} (hP : D.Lasting P) (hm : P m)
    (hkey : ∀ u : User, env.sqlEq (key u) text = true → Traced env r (.of u)) :
    Wp D A i (Prog.call AuthnError.store
        (Prog.read fun w : World => w.db.users.find? fun u => env.sqlEq (key u) text)).run
      (Gives fun found m' => P m' ∧ Opens env r found m' ∧
        (found = none → D.Past (fun m₀ => ∀ u ∈ m₀.shared.db.users, env.sqlEq (key u) text = false) m'))
      m := by
  refine wp_call gives_error fun m₁ hr hinv => ⟨?_, gives_error⟩
  rintro _ ⟨⟩
  refine ⟨hP.stable i _ _ hr hinv hm, fun u hu => ?_, fun hnone => .now hinv ?_⟩
  · have htext := List.find?_some hu
    exact ⟨mem_directory (List.mem_of_find?_eq_some hu), hkey u htext⟩
  · simpa using List.find?_eq_none.mp hnone

theorem findBySubject_sought : Wp D A i (findBySubject env (methodResult r)).run
      (Gives fun found m' => Sought env D r found m') m := by
  unfold findBySubject
  split
  next hblank =>
    have hempty : trimSpace r.subject = "" := nonblank_eq_none.mp hblank
    exact .ok ⟨fun _ h => (by cases h), fun _ hs => absurd hempty hs⟩
  next subject hsubject =>
    obtain ⟨rfl, hs⟩ := nonblank_eq_some.mp hsubject
    refine .bind (lookup_wp (·.userUUID) (D.lasting_const True) trivial
      fun u hu => .inl ⟨hs, .inl hu⟩) fun found m₁ hm₁ => ?_
    obtain ⟨-, hfound, hnone⟩ := hm₁
    cases found with
    | some u =>
      exact .ok ⟨hfound, fun h => by cases h⟩
    | none =>
      have hunknown : D.Past (fun m₀ => Unknown env r m₀.shared) m₁ := by
        refine (hnone rfl).imp fun m₀ _ h x hx => ?_
        obtain ⟨u, hu, rfl⟩ := List.mem_map.mp hx
        exact h u hu
      refine wp_provided (fun _ => ?_) fun _ => ?_
      · exact .ok ⟨fun _ h => (by cases h), fun _ _ => hunknown⟩
      · refine (lookup_wp (·.userUUID) (Discipline.past_lasting _) hunknown
          fun u hu => .inl ⟨hs, .inr hu⟩).imp fun _ m₂ h found hfound => ?_
        exact ⟨(h found hfound).2.1, fun _ _ => (h found hfound).1⟩

omit [DecidableEq ι] in
theorem sought_none_lasting :
    D.Lasting fun m => trimSpace r.subject ≠ "" → D.Past (fun m₀ => Unknown env r m₀.shared) m :=
  fun _ _ h hm hs => Discipline.past_lasting _ _ _ h (hm hs)

theorem resolveExistingUser_sought : Wp D A i (resolveExistingUser env (methodResult r)).run
      (Gives fun found m' => Sought env D r found m') m := by
  unfold resolveExistingUser
  refine .bind findBySubject_sought fun found m₁ hm₁ => ?_
  cases found with
  | some u =>
    exact .ok hm₁
  | none =>
    have hunknown := hm₁.2 rfl
    have hlater {found : Option User} {m' : Moment ι World Label}
        (h : (trimSpace r.subject ≠ "" → D.Past (fun m₀ => Unknown env r m₀.shared) m') ∧
          Opens env r found m') : Sought env D r found m' :=
      ⟨h.2, fun _ => h.1⟩
    -- the username, then the address
    have hname : Wp D A i (lookupUserByUsername env r.username).run
        (Gives fun found m' => Sought env D r found m') m₁ := by
      unfold lookupUserByUsername
      split
      next => rintro _ ⟨⟩; exact ⟨fun _ h => (by cases h), fun _ => hunknown⟩
      next name hname =>
        obtain ⟨rfl, hne⟩ := nonblank_eq_some.mp hname
        refine (lookup_wp (·.username) sought_none_lasting hunknown
          fun u hu => .inr (.inl ⟨hne, hu⟩)).imp fun _ m₂ h found hfound => ?_
        exact hlater ⟨(h found hfound).1, (h found hfound).2.1⟩
    refine .bind hname fun found m₂ hm₂ => ?_
    cases found with
    | some u =>
      exact .ok hm₂
    | none =>
      refine wp_provided (fun _ => ?_) fun hne => ?_
      · exact .ok hm₂
      · refine (lookup_wp (·.email) sought_none_lasting (hm₂.2 rfl)
          fun u hu => .inr (.inr ⟨hne, hu⟩)).imp fun _ m₃ h found hfound => ?_
        exact hlater ⟨(h found hfound).1, (h found hfound).2.1⟩

theorem recoverFederatedUser_entered : Wp D A i (recoverFederatedUser env (methodResult r)).run
      (Gives fun found m' => Opens env r found m') m := by
  refine .caught resolveExistingUser_sought fun res m' h => ?_
  split
  next u => exact .ok (h (some u) rfl).1
  next => exact gives_error

theorem federatedUser_userUUID (result : MethodResult) (userUUID username : String) :
    (federatedUser result userUUID username).userUUID = userUUID := rfl

theorem provisionFederatedUser_entered (laws : Entrance env D A i r)
    (hrefl : ∀ text, env.sqlEq text text = true) (hsha : ∀ name, env.newSHA1 name ≠ "")
    (hm : trimSpace r.subject ≠ "" → D.Past (fun m₀ => Unknown env r m₀.shared) m) :
    Wp D A i (provisionFederatedUser env draws (methodResult r)).run
      (Gives fun found m' => Opens env r found m') m := by
  unfold provisionFederatedUser
  split
  next => rintro _ ⟨⟩ _ ⟨⟩
  next subject hsubject =>
    obtain ⟨hsub, hs⟩ := nonblank_eq_some.mp hsubject
    replace hsub : trimSpace r.subject = subject := hsub
    rw [← hsub] at hs
    have hderived : federatedSubjectUserUUID env (methodResult r).identityProvider subject =
        federatedSubjectUserUUID env provider (trimSpace r.subject) := by rw [hsub]; rfl
    have hpresent : federatedSubjectUserUUID env provider (trimSpace r.subject) ≠ "" := by
      rw [federatedSubjectUserUUID, trimSpace_trimSpace, if_neg hs]
      exact hsha _
    dsimp only
    rw [hderived, if_neg hpresent]
    refine .silent (firstFree_silent _) ((Discipline.past_lasting _).stable i) (hm hs) fun username m₁ hm₁ => ?_
    refine wp_bind_except.mpr (wp_lift.mpr
      (wp_call recoverFederatedUser_entered fun m₂ hr hinv ha => ?_))
    have hpast := (Discipline.past_lasting _).stable i _ _ hr hinv hm₁
    have hkept := laws.create hs (federatedUser_userUUID _ _ _) hpast hinv ha
    refine ⟨hkept.1, hkept.2, ?_, recoverFederatedUser_entered⟩
    dsimp only
    split
    next row hrow =>
      rintro _ ⟨⟩ _ ⟨⟩
      have hcreated : (m₂.shared.db.createUser env.sqlEq (federatedUser (methodResult r)
          (federatedSubjectUserUUID env provider (trimSpace r.subject)) username)).1 = some row :=
        Except.ok.inj hrow
      obtain ⟨-, ⟨huuid, -, -⟩, hnext⟩ := Database.createUser_eq_some hcreated
      refine ⟨mem_directory ?_, .inl ⟨hs, .inr ?_⟩⟩
      · rw [Moment.after_shared, hnext]
        exact List.mem_append_right _ List.mem_cons_self
      · show env.sqlEq row.userUUID _ = true
        rw [huuid, federatedUser_userUUID, hrefl]
    next => exact recoverFederatedUser_entered

theorem resolveUser_entered (laws : Entrance env D A i r)
    (hrefl : ∀ text, env.sqlEq text text = true) (hsha : ∀ name, env.newSHA1 name ≠ "") :
    Wp D A i (resolveUser env draws .federatedOIDC (methodResult r)).run
      (Gives fun found m' => Opens env r found m') m := by
  refine .bind resolveExistingUser_sought fun found m₁ hm₁ => ?_
  cases found with
  | none => exact provisionFederatedUser_entered laws hrefl hsha (hm₁.2 rfl)
  | some u => exact .ok hm₁.1

theorem createSession_entered (laws : Entrance env D A i r) (hP : D.Lasting P) (hm : P m)
    {method : AuthnMethodType} {sessionID ipAddress userAgent returnTo : String} {now : Int} :
    Wp D A i (createSession env sessionID u method ipAddress userAgent redirectURI returnTo now).run
      (Gives fun result m' => P m' ∧ result.userID = u.id) m := by
  refine .keep (sessionContext_wp u method) hP hm fun context m₁ _ hm₁ => ?_
  refine .send (hP.stable i) hm₁ fun m₂ hinv₂ hm₂ ha => ?_
  have hkept := laws.createSession hinv₂ ha
  refine ⟨hkept.1, hkept.2, .require fun _ => ?_⟩
  refine .send (hP.stable i) (hkept.lasting hP hm₂) fun m₃ hinv₃ hm₃ ha₃ => ?_
  have hkept₃ := laws.saveSession hinv₃ ha₃
  refine ⟨hkept₃.1, hkept₃.2, ?_⟩
  exact .ok ⟨hkept₃.lasting hP hm₃, rfl⟩

theorem enter_entered (laws : Entrance env D A i r) {input : AuthenticateInput}
    (hm : Entered env r (.of u) m) :
    Wp D A i (enter env draws input .federatedOIDC u redirectURI).run
      (Gives fun outcome m' => ∀ id, LoginOutcome.account outcome = some id →
        ∃ x, Entered env r x m' ∧ x.id = id) m := by
  have hlasting : D.Lasting (Entered env r (.of u)) := entered_lasting laws _
  refine .require fun _ => .require fun _ => ?_
  refine wp_clock (hlasting.stable i) hm fun m₁ _ hm₁ => ?_
  refine .bind (createSession_entered laws hlasting hm₁) fun result m₂ hm₂ => ?_
  rintro _ ⟨⟩ id hid
  exact ⟨.of u, hm₂.1, hm₂.2.symm.trans (Option.some.inj hid)⟩

theorem arrival_wp (laws : Admission env D A i (.authenticate a.draws a.answer a.input)) :
    Wp D A i (a.code env) (fun _ _ => True) m :=
  wp_bind.mpr ((authenticate_wp laws).imp fun r _ _ => by cases r <;> trivial)

/-- **Who is let in by the answer of a provider has one of its keys.** -/
theorem entrance_wp (laws : Entrance env D A i r) (hrefl : ∀ text, env.sqlEq text text = true)
    (hsha : ∀ name, env.newSHA1 name ≠ "") (ha : a.answered = some r) :
    Wp D A i (a.code env) (fun account m' => ∀ id, account = some id →
      ∃ x, Entered env r x m' ∧ x.id = id) m := by
  obtain ⟨hmethod, hanswer⟩ := Arrival.answered_eq_some.mp ha
  have hlogin : Wp D A i (Authn.authenticate env a.draws a.answer a.input).run
      (Gives fun outcome m' => ∀ id, LoginOutcome.account outcome = some id →
        ∃ x, Entered env r x m' ∧ x.id = id) m := by
    unfold Authn.authenticate
    rw [hmethod, hanswer]
    refine .found fun method h => ?_
    cases h
    show Wp D A i (ExceptT.run (if (methodResult r).redirectURI ≠ "" ∧
      (methodResult r).authenticated = false then _ else _)) _ m
    split
    next =>
      rintro _ ⟨⟩ id hid
      cases hid
    next =>
      refine .require fun _ => ?_
      refine .bind (resolveUser_entered laws hrefl hsha) fun found m₁ hm₁ => ?_
      exact .found fun u hu => enter_entered laws (hm₁ u hu)
  refine wp_bind.mpr (hlogin.imp fun res m' h => ?_)
  cases res with
  | error e =>
    rintro _ ⟨⟩
  | ok outcome => exact h outcome rfl

end Entrance

end IdpServer.Laws.Authn
