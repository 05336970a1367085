import IdpServer.Laws.Consent.Accepting

/-!
# Laws.Authz.Authorizing — what is known when a code is stored

`authorize` sends one command, after its reads. `V` is any property that all states of the run have, and
`authorize_wp` hands what is known to the command.
-/

namespace IdpServer.Laws.Authz

open Conc IdpServer.Cache Go IdpServer.Authz
open Laws.Consent (Serves hasActiveConsent_silent)

/-- **The session was seen active**: its hash and its state in the cache, or its row, at the instant the
clock showed. -/
def SeenActive (env : Env) (V : World → Prop) (sessionID : String) (session : Session) : Prop :=
  ∃ w₀, V w₀ ∧
    ((∃ w₁ w₂ hash userID, V w₁ ∧ V w₂ ∧ w₁.sessions.hmget w₁.now sessionID = some hash ∧
        let entry := sessionCacheEntry sessionID hash (w₂.sessions.bitfield w₂.now sessionID)
        isSessionEntryActive entry w₀.now = true ∧ parseUserID (trimSpace entry.userID) = some userID ∧
          session = cachedSession entry userID) ∨
      ∃ w₃, V w₃ ∧ w₃.db.findSession env.sqlEq sessionID = some session ∧
        session.loggedOutAt = none ∧ w₀.now < session.expiresAt)

/-- **A consent was seen that covers the scopes.** -/
def SeenConsent (V : World → Prop) (userID clientID : Int) (scopes : List String) : Prop :=
  ∃ w consent granted, V w ∧ w.db.findActiveConsent userID clientID = some consent ∧
    unmarshalStrings consent.scopesJSON = some granted ∧ consentCovers granted scopes = true

structure Authorized (env : Env) (V : World → Prop) (cmd : AuthorizationCommand) (client : Client)
    (session : Session) : Prop where
  serves : Serves env cmd client
  active : ∃ sessionID, nonblank cmd.sessionID = some sessionID ∧ SeenActive env V sessionID session
  consent : client.requireConsent = true →
    SeenConsent V session.userID client.id (requestedScopes cmd.scope)

section Authorize

variable {ι : Type} [DecidableEq ι] {D : Discipline ι World Label}
  {A : Moment ι World Label → ι → Label → Prop} {i : ι} {m : Moment ι World Label}
  {env : Env} {cmd : AuthorizationCommand} {V : World → Prop}

theorem findClient_wp :
    Wp D A i (Authz.findClient env cmd).run (Gives fun client _ => Serves env cmd client) m := by
  refine .require fun hnamed => ?_
  refine .require fun htype => ?_
  refine .read fun m₁ _ => ?_
  refine .found fun client hfound => ?_
  refine .require fun hactive => ?_
  refine .require fun hgrant => ?_
  refine .require fun hredirect => ?_
  refine .require fun hscopes => ?_
  refine .require fun hpkce => ?_
  exact .ok ⟨hnamed, htype, hfound, hactive, hgrant, hredirect, hscopes, hpkce⟩

theorem findActiveSession_gives (hV : ∀ m, D.inv m → V m.shared) (sessionID : String) :
    Wp D A i (findActiveSession env sessionID).run
      (Gives fun found _ => ∀ session, found = some session → SeenActive env V sessionID session) m := by
  refine .clock fun m₀ hinv₀ => ?_
  refine wp_bind_except.mpr (wp_call gives_error fun m₁ _ hinv₁ m₂ _ hinv₂ => ?_)
  refine ⟨?_, gives_error⟩
  dsimp only
  split
  next session hcached =>
    rintro _ ⟨⟩ _ ⟨⟩
    obtain ⟨entry, hentry, hsession⟩ := Option.bind_eq_some_iff.mp hcached
    obtain ⟨hread, hactive⟩ := Option.filter_eq_some_iff.mp hentry
    obtain ⟨hash, hhash, rfl⟩ := Option.map_eq_some_iff.mp hread
    obtain ⟨userID, huser, rfl⟩ := Option.map_eq_some_iff.mp hsession
    exact ⟨m₀.shared, hV _ hinv₀, .inl ⟨m₁.shared, m₂.shared, hash, userID, hV _ hinv₁, hV _ hinv₂, hhash,
      hactive, huser, rfl⟩⟩
  next =>
    refine .read fun m₃ hinv₃ => ?_
    rintro _ ⟨⟩ session hsession
    obtain ⟨hrow, hopen⟩ := Option.filter_eq_some_iff.mp hsession
    have hopen := of_decide_eq_true hopen
    exact ⟨m₀.shared, hV _ hinv₀, .inr ⟨m₃.shared, hV _ hinv₃, hrow, hopen.1, hopen.2⟩⟩

theorem requestSession_gives (hV : ∀ m, D.inv m → V m.shared) :
    Wp D A i (requestSession env cmd).run (Gives fun found _ => ∀ session, found = some session →
        ∃ sessionID, nonblank cmd.sessionID = some sessionID ∧ SeenActive env V sessionID session) m := by
  unfold requestSession
  cases hid : nonblank cmd.sessionID with
  | none =>
    rintro _ ⟨⟩ session h
    cases h
  | some sessionID =>
    refine (findActiveSession_gives hV sessionID).imp fun r _ hr found hfound session hsession => ?_
    exact ⟨sessionID, rfl, hr found hfound session hsession⟩

theorem hasActiveConsent_gives (hV : ∀ m, D.inv m → V m.shared) (userID clientID : Int)
    (scopes : List String) :
    Wp D A i (hasActiveConsent userID clientID scopes).run
      (Gives fun found _ => found = true → SeenConsent V userID clientID scopes) m := by
  refine .read fun m₁ hinv₁ => ?_
  split
  next =>
    rintro _ ⟨⟩ h
    cases h
  next consent hconsent =>
    refine .found fun granted hgranted => ?_
    rintro _ ⟨⟩ hcovers
    exact ⟨m₁.shared, consent, granted, hV _ hinv₁, hconsent, hgranted, hcovers⟩

def codeRow (env : Env) (code : String) (cmd : AuthorizationCommand) (client : Client)
    (session : Session) (now : Int) : AuthorizationCode :=
  let model := codeModel env code cmd client session now
  { model with scopesJSON := env.jsonColumn model.scopesJSON }

/-- **The authorize endpoint among other programs.** All it owes is the command that stores the code. -/
theorem authorize_wp {code : String} (hV : ∀ m, D.inv m → V m.shared)
    (hcreate : ∀ {m client session} (now : Int), Authorized env V cmd client session → D.inv m →
      A m i (.createAuthorizationCode (codeRow env code cmd client session now)) →
      D.Kept m (m.after i (.createAuthorizationCode (codeRow env code cmd client session now)) fun w =>
        { w with db :=
          (w.db.createAuthorizationCode env.sqlEq (codeRow env code cmd client session now)).2 })) :
    Wp D A i (authorize env code cmd).run (fun _ _ => True) m := by
  have hissue : ∀ {m client session}, Authorized env V cmd client session →
      Wp D A i (issueCode env code cmd client session).run (Gives fun _ _ => True) m := by
    intro m client session hauthorized
    refine .clock fun m₁ _ => ?_
    refine .send stable_true trivial fun m₂ hinv₂ _ ha => ?_
    have hkept := hcreate m₁.shared.now hauthorized hinv₂ ha
    refine ⟨hkept.1, hkept.2, .require fun _ => ?_⟩
    exact fun _ _ => trivial
  refine Wp.imp (Q := Gives fun _ _ => True) ?_ fun _ _ _ => trivial
  refine .bind findClient_wp fun client m₁ hserves => ?_
  refine .bind (requestSession_gives hV) fun found m₂ hfound => ?_
  cases found with
  | none => exact fun _ _ => trivial
  | some session =>
    have hsession := hfound session rfl
    cases hconsent : client.requireConsent with
    | false => exact hissue ⟨hserves, hsession, fun h => absurd (hconsent.symm.trans h) nofun⟩
    | true =>
      refine .bind (hasActiveConsent_gives hV _ _ _) fun consented m₃ hseen => ?_
      cases consented with
      | false => exact fun _ _ => trivial
      | true => exact hissue ⟨hserves, hsession, fun _ => hseen rfl⟩

end Authorize

end IdpServer.Laws.Authz
