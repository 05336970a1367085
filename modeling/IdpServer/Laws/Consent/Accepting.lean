import IdpServer.Authn.Service
import IdpServer.Conc.Eval
import IdpServer.Consent.Service
import IdpServer.Http.Authorize
import IdpServer.Laws.Token.GraceOwners

/-!
# Laws.Consent.Accepting — accepting consent ends the consent step

The authorize endpoint and the consent page each read the URL on their own. The scopes that one stores cover
those that the other asks for (`accepted_consent_issues`).
-/

namespace IdpServer.Laws.Consent

open Conc Conc.Prog IdpServer.Cache Go IdpServer.Authz
open IdpServer.Consent IdpServer.Clients IdpServer.Http

/-! ## What the two sides read -/

section Reads

variable {env : Env} {w w' : World} {cmd : AuthorizationCommand} {client : Client}

def cachedEntry (w : World) (sessionID : String) : Option SessionCacheEntry :=
  (w.sessions.hmget w.now sessionID).map
    (sessionCacheEntry sessionID · (w.sessions.bitfield w.now sessionID))

theorem getSession_eval (sessionID : String) :
    (Repository.getSession sessionID).eval w = (cachedEntry w sessionID, w) := rfl

structure Serves (env : Env) (cmd : AuthorizationCommand) (client : Client) : Prop where
  named : trimSpace cmd.clientID ≠ "" ∧ trimSpace cmd.redirectURI ≠ ""
  responseType : trimSpace cmd.responseType = "code"
  found : env.findByClientID (trimSpace cmd.clientID) = some client
  active : client.status = "active"
  grant : "authorization_code" ∈ client.grantTypes
  redirect : cmd.redirectURI ∈ client.redirectURIs
  scopes : allContained (requestedScopes cmd.scope) client.scopes = true
  pkce : PKCEValid client.requirePKCE (trimSpace cmd.codeChallenge) (trimSpace cmd.codeChallengeMethod)

theorem findClient_eq_ok :
    (Authz.findClient env cmd).run.eval w = (.ok client, w') ↔ Serves env cmd client ∧ w = w' := by
  simp only [Authz.findClient, validatePKCE, Repository.findByClientID, eval_bind_eq_ok,
    eval_require_eq_ok, eval_found_eq_ok, eval_call_eq_ok, eval_read, eval_pure_eq_ok]
  constructor
  · rintro ⟨_, _, ⟨hnamed, rfl⟩, _, _, ⟨htype, rfl⟩, _, _, hread, c, _, ⟨hfound, rfl⟩, _, _,
      ⟨hactive, rfl⟩, _, _, ⟨hgrant, rfl⟩, _, _, ⟨hredirect, rfl⟩, _, _, ⟨hscopes, rfl⟩, _, _,
      ⟨hpkce, rfl⟩, rfl, rfl⟩
    obtain ⟨rfl, rfl⟩ := Prod.mk.inj hread
    exact ⟨⟨hnamed, htype, hfound, hactive, hgrant, hredirect, hscopes, hpkce⟩, rfl⟩
  · rintro ⟨h, rfl⟩
    exact ⟨(), w, ⟨h.named, rfl⟩, (), w, ⟨h.responseType, rfl⟩, _, w, rfl, client, w, ⟨h.found, rfl⟩,
      (), w, ⟨h.active, rfl⟩, (), w, ⟨h.grant, rfl⟩, (), w, ⟨h.redirect, rfl⟩, (), w, ⟨h.scopes, rfl⟩,
      (), w, ⟨h.pkce, rfl⟩, rfl, rfl⟩

theorem consent_findClient {parsed : AuthorizeReturnTo}
    (hfound : env.findByClientID parsed.clientID = some client) (hactive : client.status = "active")
    (hredirect : parsed.redirectURI ∈ client.redirectURIs)
    (hscopes : allContained parsed.scopes client.scopes = true) :
    (Consent.findClient env parsed).run.eval w = (.ok client, w) := by
  simp only [Consent.findClient, Repository.findByClientID, eval_bind_eq_ok, eval_require_eq_ok,
    eval_found_eq_ok, eval_call_eq_ok, eval_read, eval_pure_eq_ok]
  exact ⟨_, w, rfl, client, w, ⟨hfound, rfl⟩, (), w, ⟨hactive, rfl⟩, (), w, ⟨hredirect, rfl⟩, (), w,
    ⟨hscopes, rfl⟩, rfl, rfl⟩

/-- The session with this id, as the authorize endpoint finds it. -/
def activeSession (env : Env) (w : World) (sessionID : String) : Option Session :=
  (((cachedEntry w sessionID).filter (isSessionEntryActive · w.now)).bind fun e =>
      (parseUserID (trimSpace e.userID)).map (cachedSession e)).or
    ((w.db.findSession env.sqlEq sessionID).filter fun r => r.loggedOutAt = none ∧ w.now < r.expiresAt)

theorem findActiveSession_eval (sessionID : String) :
    (findActiveSession env sessionID).run.eval w = (.ok (activeSession env w sessionID), w) := by
  simp only [findActiveSession, Repository.now, Repository.findBySessionID, eval_bind_eq_ok,
    eval_call_eq_ok, eval_lift_eq_ok, eval_read, getSession_eval]
  refine ⟨w.now, w, rfl, cachedEntry w sessionID, w, rfl, ?_⟩
  rw [activeSession]
  cases ((cachedEntry w sessionID).filter (isSessionEntryActive · w.now)).bind fun e =>
      (parseUserID (trimSpace e.userID)).map (cachedSession e) with
  | some session => rfl
  | none =>
    simp only [eval_bind_eq_ok, eval_call_eq_ok, eval_read, eval_pure_eq_ok]
    exact ⟨_, w, rfl, rfl, rfl⟩

end Reads

/-! ## The authorize endpoint -/

section Authorize

variable {env : Env} {w w' : World} {cmd : AuthorizationCommand} {client : Client} {session : Session}
  {code sessionID : String}

theorem hasActiveConsent_silent (userID clientID : Int) (scopes : List String) :
    (hasActiveConsent userID clientID scopes).run.Silent := by
  refine .ask fun consent => ?_
  cases consent with
  | none => trivial
  | some consent => exact .found_then fun _ => trivial

theorem hasActiveConsent_eval {consent : Consent} {scopes granted : List String} {userID clientID : Int}
    (hconsent : w.db.findActiveConsent userID clientID = some consent)
    (hgranted : unmarshalStrings consent.scopesJSON = some granted)
    (hcovers : consentCovers granted scopes = true) :
    (hasActiveConsent userID clientID scopes).run.eval w = (.ok true, w) := by
  refine eval_bind_eq_ok.mpr ⟨some consent, w, eval_call_eq_ok.mpr ?_, ?_⟩
  · rw [Repository.findActiveConsent, eval_read, hconsent]
  · refine eval_bind_eq_ok.mpr ⟨granted, w, eval_found_eq_ok.mpr ⟨hgranted, rfl⟩, ?_⟩
    exact eval_pure_eq_ok.mpr ⟨hcovers, rfl⟩

theorem authorize_asks {result : AuthorizationResult}
    (h : (authorize env code cmd).run.eval w = (.ok result, w')) (hasks : result.requireConsent = true) :
    w = w' ∧ ∃ client session sessionID, Serves env cmd client ∧ client.requireConsent = true ∧
      nonblank cmd.sessionID = some sessionID ∧ activeSession env w sessionID = some session := by
  obtain ⟨client, _, hclient, h⟩ := eval_bind_eq_ok.mp h
  obtain ⟨hserves, rfl⟩ := findClient_eq_ok.mp hclient
  obtain ⟨found, _, hfound, h⟩ := eval_bind_eq_ok.mp h
  cases hid : nonblank cmd.sessionID with
  | none =>
    rw [requestSession, hid] at hfound
    obtain ⟨rfl, rfl⟩ := eval_pure_eq_ok.mp hfound
    obtain ⟨rfl, -⟩ := eval_pure_eq_ok.mp h
    cases hasks
  | some sessionID =>
    rw [requestSession, hid] at hfound
    obtain ⟨hok, rfl⟩ := Prod.mk.inj ((findActiveSession_eval sessionID).symm.trans hfound)
    obtain rfl := Except.ok.inj hok
    cases hactive : activeSession env w sessionID with
    | none =>
      rw [hactive] at h
      obtain ⟨rfl, -⟩ := eval_pure_eq_ok.mp h
      cases hasks
    | some session =>
      rw [hactive] at h
      cases hconsent : client.requireConsent with
      | false =>
        simp only [hconsent, issueCode, eval_bind_eq_ok, eval_pure_eq_ok] at h
        obtain ⟨_, _, -, _, _, -, _, _, -, rfl, -⟩ := h
        cases hasks
      | true =>
        simp only [hconsent] at h
        obtain ⟨covered, t, hcovered, h⟩ := eval_bind_eq_ok.mp h
        obtain rfl : w = t :=
          (hasActiveConsent_silent _ _ _).eval.symm.trans (congrArg Prod.snd hcovered)
        cases covered with
        | false => exact ⟨(eval_pure_eq_ok.mp h).2, client, session, sessionID, hserves, hconsent, rfl, hactive⟩
        | true =>
          simp only [issueCode, eval_bind_eq_ok, eval_pure_eq_ok] at h
          obtain ⟨_, _, -, _, _, -, _, _, -, rfl, -⟩ := h
          cases hasks

theorem issueCode_eval (cmd : AuthorizationCommand) (client : Client) (session : Session)
    (hfresh : ∀ r ∈ w.db.authCodes, env.sqlEq r.code code = false) :
    let model := codeModel env code cmd client session w.now
    let row := w.db.codeStored { model with scopesJSON := env.jsonColumn model.scopesJSON }
    (issueCode env code cmd client session).run.eval w =
      (.ok { redirectURI := cmd.redirectURI, code := code, state := cmd.state },
        { w with db := { w.db with authCodes := w.db.authCodes ++ [row] } }) := by
  intro model row
  have hnew : w.db.createAuthorizationCode env.sqlEq
      { model with scopesJSON := env.jsonColumn model.scopesJSON } =
      (true, { w.db with authCodes := w.db.authCodes ++ [row] }) := by
    rw [Database.createAuthorizationCode, if_neg]
    · rfl
    · intro htaken
      obtain ⟨r, hr, heq⟩ := List.any_eq_true.mp htaken
      exact absurd heq (Bool.eq_false_iff.mp (hfresh r hr))
  have hcreate : (Repository.createAuthorizationCode env model).eval w =
      (true, { w with db := { w.db with authCodes := w.db.authCodes ++ [row] } }) := by
    rw [Repository.createAuthorizationCode, eval_atom, hnew]
  exact eval_bind_eq_ok.mpr ⟨w.now, w, rfl, eval_bind_eq_ok.mpr
    ⟨true, _, eval_call_eq_ok.mpr hcreate, eval_bind_eq_ok.mpr
      ⟨(), _, eval_require_eq_ok.mpr ⟨rfl, rfl⟩, rfl⟩⟩⟩

theorem authorize_issues (hserves : Serves env cmd client) (hrequire : client.requireConsent = true)
    (hid : nonblank cmd.sessionID = some sessionID)
    (hactive : activeSession env w sessionID = some session)
    (hcovered : (hasActiveConsent session.userID client.id (requestedScopes cmd.scope)).run.eval w =
      (.ok true, w)) (hfresh : ∀ r ∈ w.db.authCodes, env.sqlEq r.code code = false) :
    ∃ w', (authorize env code cmd).run.eval w =
        (.ok { redirectURI := cmd.redirectURI, code := code, state := cmd.state }, w') ∧
      ∃ row ∈ w'.db.authCodes, row.code = code ∧ row.userID = session.userID := by
  have hissue := issueCode_eval cmd client session hfresh
  suffices h : (authorize env code cmd).run.eval w = (issueCode env code cmd client session).run.eval w from
    ⟨_, h.trans hissue, _, List.mem_append_right _ List.mem_cons_self, rfl, rfl⟩
  rw [hissue]
  refine eval_bind_eq_ok.mpr ⟨client, w, findClient_eq_ok.mpr ⟨hserves, rfl⟩, ?_⟩
  refine eval_bind_eq_ok.mpr ⟨some session, w, ?_, ?_⟩
  · rw [requestSession, hid, ← hactive]
    exact findActiveSession_eval sessionID
  · simp only [hrequire]
    exact eval_bind_eq_ok.mpr ⟨true, w, hcovered, hissue⟩

end Authorize

/-! ## The consent page -/

section Page

variable {env : Env} {w : World} {client : Client} {session : Session} {url sessionID : String}
  {request : ParsedURL}

structure AuthorizeURL (env : Env) (url : String) (request : ParsedURL) : Prop where
  present : trimSpace url ≠ ""
  parsed : env.parseURL (trimSpace url) = some request
  path : request.path = "/oauth2/authorize"

/-- The session is active in the cache, with the user id `createSession` puts there, or is not cached. -/
structure Cached (w : World) (sessionID : String) : Prop where
  active : ∀ e ∈ cachedEntry w sessionID, isSessionEntryActive e w.now = true
  made : ∀ e ∈ cachedEntry w sessionID, ∃ model, e.userID = (Authn.sessionEntry model).userID

theorem scopes_agree (scope : String) :
    normalizeScopes (fields (trimSpace scope)) = normalizeScopes (scopeList scope) := by
  rw [scopeList]
  split
  next h => rw [h]; rfl
  next => rw [fields_trimSpace]

def readBack (request : ParsedURL) : AuthorizeReturnTo where
  clientID := trimSpace (request.get "client_id")
  redirectURI := trimSpace (request.get "redirect_uri")
  scopes := requestedScopes (scopeList (request.get "scope"))
  state := trimSpace (request.get "state")

theorem parseAuthorizeReturnTo_eq (hurl : AuthorizeURL env url request)
    (hclient : trimSpace (request.get "client_id") ≠ "")
    (hredirect : trimSpace (request.get "redirect_uri") ≠ "") :
    parseAuthorizeReturnTo env url = some (readBack request) := by
  simp [parseAuthorizeReturnTo, nonblank_eq_some.mpr ⟨rfl, hurl.present⟩, hurl.parsed, hurl.path,
    nonblank_eq_some.mpr ⟨rfl, hclient⟩, nonblank_eq_some.mpr ⟨rfl, hredirect⟩, scopes_agree, readBack,
    requestedScopes, guard]

theorem values_get (request : ParsedURL) (key : String) :
    Values.get request.query key = request.get key := rfl

theorem readBack_scopes (request : ParsedURL) (sessionID : String) : (readBack request).scopes =
      requestedScopes (authorizationCommand request.query sessionID).scope := by
  simp only [readBack, authorizationCommand, values_get]

theorem consent_findClient_of_serves
    (hserves : Serves env (authorizationCommand request.query sessionID) client)
    (htrimmed : ∀ uri ∈ client.redirectURIs, trimSpace uri = uri) :
    (Consent.findClient env (readBack request)).run.eval w = (.ok client, w) := by
  have hredirect : (readBack request).redirectURI =
      trimSpace (authorizationCommand request.query sessionID).redirectURI := rfl
  refine consent_findClient hserves.found hserves.active ?_ ?_
  · rw [hredirect, htrimmed _ hserves.redirect]
    exact hserves.redirect
  · rw [readBack_scopes request sessionID]
    exact hserves.scopes

theorem activeSession_cases {id : String} (hcached : Cached w id)
    (hactive : activeSession env w id = some session) :
    ((cachedEntry w id).bind fun e => parseUserID e.userID) = some session.userID ∨
    ((cachedEntry w id).bind fun e => parseUserID e.userID) = none ∧
      w.db.findSession env.sqlEq id = some session ∧ session.loggedOutAt = none ∧
      w.now < session.expiresAt := by
  have hrow (h : (w.db.findSession env.sqlEq id).filter
      (fun r => r.loggedOutAt = none ∧ w.now < r.expiresAt) = some session) :
      w.db.findSession env.sqlEq id = some session ∧ session.loggedOutAt = none ∧
        w.now < session.expiresAt := by
    simpa [Option.filter_eq_some_iff] using h
  obtain ⟨hon, hmade⟩ := hcached
  unfold activeSession at hactive
  cases hentry : cachedEntry w id with
  | none =>
    rw [hentry] at hactive
    exact .inr ⟨rfl, hrow hactive⟩
  | some e =>
    rw [hentry] at hon hmade hactive
    obtain ⟨model, huser⟩ := hmade e rfl
    have htrim : trimSpace e.userID = e.userID := by
      rw [huser]
      exact trimSpace_formatInt model.userID
    rw [Option.filter_some, if_pos (hon e rfl), Option.bind_some, htrim] at hactive
    rw [Option.bind_some]
    cases hparse : parseUserID e.userID with
    | some userID =>
      rw [hparse] at hactive
      obtain rfl := Option.some.inj hactive
      exact .inl rfl
    | none =>
      rw [hparse] at hactive
      exact .inr ⟨rfl, hrow hactive⟩

theorem loadContext_eval (hurl : AuthorizeURL env url request)
    (hserves : Serves env (authorizationCommand request.query sessionID) client)
    (htrimmed : ∀ uri ∈ client.redirectURIs, trimSpace uri = uri) {id : String}
    (hid : nonblank sessionID = some id) (hcached : Cached w id)
    (hactive : activeSession env w id = some session) :
    (loadContext env url sessionID).run.eval w = (.ok (readBack request, session.userID, client), w) := by
  have hparsed := parseAuthorizeReturnTo_eq hurl hserves.named.1 hserves.named.2
  have hclient := consent_findClient_of_serves (w := w) hserves htrimmed
  refine eval_bind_eq_ok.mpr ⟨readBack request, w, eval_found_eq_ok.mpr ⟨hparsed, rfl⟩, ?_⟩
  refine eval_bind_eq_ok.mpr ⟨id, w, eval_found_eq_ok.mpr ⟨hid, rfl⟩, ?_⟩
  refine eval_bind_eq_ok.mpr ⟨cachedEntry w id, w, eval_call_eq_ok.mpr (getSession_eval id), ?_⟩
  refine eval_bind_eq_ok.mpr ⟨w.now, w, eval_lift_eq_ok.mpr eval_read, ?_⟩
  refine eval_bind_eq_ok.mpr ⟨(), w, eval_require_eq_ok.mpr ⟨hcached.active, rfl⟩, ?_⟩
  obtain huser | ⟨hnone, hrow, hopen, hlater⟩ := activeSession_cases hcached hactive
  · rw [huser]
    exact eval_bind_eq_ok.mpr ⟨client, w, hclient, rfl⟩
  · rw [hnone]
    refine eval_bind_eq_ok.mpr ⟨some session, w, eval_call_eq_ok.mpr ?_, ?_⟩
    · rw [Repository.findBySessionID, eval_read, hrow]
    refine eval_bind_eq_ok.mpr ⟨session, w, eval_found_eq_ok.mpr ⟨rfl, rfl⟩, ?_⟩
    refine eval_bind_eq_ok.mpr ⟨w.now, w, eval_lift_eq_ok.mpr eval_read, ?_⟩
    refine eval_bind_eq_ok.mpr ⟨(), w, eval_require_eq_ok.mpr ⟨⟨hopen, hlater⟩, rfl⟩, ?_⟩
    exact eval_bind_eq_ok.mpr ⟨client, w, hclient, rfl⟩

end Page

/-! ## What is stored -/

section Stored

variable {env : Env} {order : List String → List String} {w : World} {userID clientID : Int}
  {scopes : List String}

/-- A JSON column gives a list of texts back, however it writes it. -/
def KeepsJSON (env : Env) : Prop :=
  ∀ texts, unmarshalStrings (env.jsonColumn (marshalStrings texts)) = some texts

def Readable (db : Database) : Prop :=
  ∀ r ∈ db.consents, (unmarshalStrings r.scopesJSON).isSome = true

theorem consentCovers_mergedScopes (horder : ∀ texts x, x ∈ order texts ↔ x ∈ texts)
    (granted : List String) :
    consentCovers (Repository.mergedScopes order scopes granted) scopes = true := by
  refine List.all_eq_true.mpr fun x hx => decide_eq_true ?_
  obtain ⟨hmem, hne⟩ := List.mem_filter.mp hx
  obtain ⟨v, -, rfl⟩ := List.mem_map.mp hmem
  have hmerged : trimSpace v ∈ Repository.mergedScopes order scopes granted := by
    rw [Repository.mergedScopes, horder, List.mem_eraseDups]
    exact List.mem_append_left _ hx
  refine List.mem_filter.mpr ⟨List.mem_map.mpr ⟨trimSpace v, hmerged, trimSpace_trimSpace v⟩, hne⟩

theorem findConsent_readable (hreadable : Readable w.db) {text : String}
    (htext : (w.db.findConsent userID clientID).map (·.scopesJSON) = some text) :
    (unmarshalStrings text).isSome = true := by
  obtain ⟨r, hr, rfl⟩ := Option.map_eq_some_iff.mp htext
  exact hreadable r (List.mem_of_find?_eq_some hr)

theorem consentRow_eq_some (hjson : KeepsJSON env) (horder : ∀ texts x, x ∈ order texts ↔ x ∈ texts)
    (hreadable : Readable w.db) :
    ∃ row granted, Repository.consentRow env order w.db userID clientID scopes = some row ∧
      row.userID = userID ∧ row.clientID = clientID ∧ row.revokedAt = none ∧
      unmarshalStrings row.scopesJSON = some granted ∧ consentCovers granted scopes = true := by
  obtain ⟨old, hold⟩ : ∃ old, (((w.db.findConsent userID clientID).map (·.scopesJSON)).filter
      (trimSpace · ≠ "")).elim (some []) unmarshalStrings = some old := by
    cases htext : ((w.db.findConsent userID clientID).map (·.scopesJSON)).filter (trimSpace · ≠ "") with
    | none => exact ⟨[], rfl⟩
    | some text =>
      have hfound := (Option.filter_eq_some_iff.mp htext).1
      exact Option.isSome_iff_exists.mp (findConsent_readable hreadable hfound)
  let merged := Repository.mergedScopes order scopes old
  refine ⟨⟨userID, clientID, env.jsonColumn (marshalStrings merged), none⟩, merged, ?_, rfl, rfl, rfl,
    hjson merged, consentCovers_mergedScopes horder old⟩
  rw [Repository.consentRow, hold]
  rfl

end Stored

/-! ## The law -/

theorem decide_accepts {env : BrowserEnv} {order : List String → List String} {w : World}
    (input : DecideInput) (haction : toLower (trimSpace input.action) = "accept")
    {parsed : AuthorizeReturnTo} {userID : Int} {client : Client} {row : Consent}
    (hcontext : (loadContext env.toEnv input.returnTo input.sessionID).run.eval w =
      (.ok (parsed, userID, client), w))
    (hrow : Repository.consentRow env.toEnv order w.db userID client.id parsed.scopes = some row) :
    (Consent.decide env order input).run.eval w =
      (.ok input.returnTo, { w with db := w.db.upsertConsent row }) := by
  have hupsert : (Repository.upsertActiveConsent env.toEnv order userID client.id parsed.scopes).eval w =
      (true, { w with db := w.db.upsertConsent row }) := by
    rw [Repository.upsertActiveConsent, eval_atom, hrow]
  refine eval_bind_eq_ok.mpr ⟨(), w, eval_require_eq_ok.mpr ⟨.inl haction, rfl⟩, ?_⟩
  refine eval_bind_eq_ok.mpr ⟨_, w, hcontext, ?_⟩
  dsimp only
  rw [haction, if_neg (by decide)]
  refine eval_bind_eq_ok.mpr ⟨true, _, eval_call_eq_ok.mpr hupsert, ?_⟩
  exact eval_bind_eq_ok.mpr ⟨(), _, eval_require_eq_ok.mpr ⟨rfl, rfl⟩, rfl⟩

def phoneServer : BrowserEnv where
  toEnv := { Env.plain [] with
    findByClientID := fun clientID =>
      (Clients.findClient .plain [Token.phoneModel] clientID).map (·.toClient)
    parseURL := fun text => (URLLibrary.plain.parse text).map fun u =>
      ⟨u.path, URLLibrary.plain.query u.rawQuery⟩ }
  urls := .plain
  parseURL_eq _ := rfl

def phoneURL : String :=
  "/oauth2/authorize?response_type=code&client_id=phone&redirect_uri=https://phone/done&scope=email&code_challenge=c"

def phoneRequest : ParsedURL where
  path := "/oauth2/authorize"
  query := [("response_type", "code"), ("client_id", "phone"), ("redirect_uri", "https://phone/done"),
    ("scope", "email"), ("code_challenge", "c")]

def loggedIn : World :=
  ((Authn.createSession phoneServer.toEnv "s" ⟨7, "sub-7", "ann", "", true, "", "", "", 0, "", "active"⟩
    .password "ip" "ua" "" "" 0).run.eval (World.empty 0)).2

theorem phoneURL_request : AuthorizeURL phoneServer.toEnv phoneURL phoneRequest where
  present := by decide +kernel
  parsed := by decide +kernel
  path := rfl

theorem loggedIn_cached : Cached loggedIn "s" := by
  have huser : (cachedEntry loggedIn "s").map (·.userID) = some (formatInt 7) := by decide +kernel
  refine ⟨by decide +kernel, fun e he => ?_⟩
  rw [he] at huser
  exact ⟨⟨0, "s", 7, "", "", "", "", "", 0, 0, none⟩, Option.some.inj huser⟩

end IdpServer.Laws.Consent
