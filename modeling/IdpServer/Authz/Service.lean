import IdpServer.Repository

/-!
# Authz.Service — authorization codes

`authorize` checks the client, the scopes and the code challenge of a request, then the session and the
consent of the user, and stores an authorization code.
-/

namespace IdpServer.Authz

open Conc Conc.Prog IdpServer.Cache Go

inductive AuthzError where
  | invalidRequest
  | unsupportedResponseType
  | invalidClient
  | invalidRedirectURI
  | invalidScope
  | invalidCodeChallenge
  | store
  deriving DecidableEq, Repr

structure AuthorizationCommand where
  responseType : String
  clientID : String
  redirectURI : String
  scope : List String
  state : String := ""
  codeChallenge : String := ""
  codeChallengeMethod : String := ""
  sessionID : String
  nonce : String := ""
  deriving DecidableEq, Repr

structure AuthorizationResult where
  requireLogin : Bool := false
  requireConsent : Bool := false
  loginRedirectURI : String := ""
  consentRedirectURI : String := ""
  redirectURI : String := ""
  code : String := ""
  state : String := ""
  deriving DecidableEq, Repr

def cachedSession (entry : SessionCacheEntry) (userID : Int) : Session where
  id := 0
  sessionID := entry.sessionID
  userID := userID
  subject := entry.subject
  acr := entry.acr
  amrJSON := entry.amrJSON
  ipAddress := entry.ipAddress
  userAgent := entry.userAgent
  authenticatedAt := entry.authenticatedAt
  expiresAt := entry.expiresAt
  loggedOutAt := none

def findActiveSession (env : Env) (sessionID : String) : Service AuthzError (Option Session) := do
  let now ← Repository.now
  let entry ← call .store (Repository.getSession sessionID)
  let cached := (entry.filter (isSessionEntryActive · now)).bind fun e =>
    (parseUserID (trimSpace e.userID)).map (cachedSession e)
  match cached with
  | some session => return some session
  | none =>
    let row ← call .store (Repository.findBySessionID env sessionID)
    return row.filter fun r => r.loggedOutAt = none ∧ now < r.expiresAt

def normalizeCodeChallengeMethod (method : String) : String :=
  let folded := toUpper (trimSpace method)
  if folded = "" ∨ folded = "PLAIN" then "plain"
  else if folded = "S256" then "S256"
  else trimSpace method

def PKCEValid (requirePKCE : Bool) (challenge method : String) : Prop :=
  if challenge = "" then requirePKCE = false
  else normalizeCodeChallengeMethod method = "plain" ∨ normalizeCodeChallengeMethod method = "S256"

instance (requirePKCE : Bool) (challenge method : String) :
    Decidable (PKCEValid requirePKCE challenge method) := by
  unfold PKCEValid; infer_instance

def validatePKCE (requirePKCE : Bool) (challenge method : String) : Service AuthzError Unit :=
  require (PKCEValid requirePKCE challenge method) .invalidCodeChallenge

def requestedScopes (scope : List String) : List String :=
  if normalizeScopes scope = [] then ["openid"] else normalizeScopes scope

def consentCovers (granted scopes : List String) : Bool :=
  (allowedScopes scopes).all fun s => s ∈ allowedScopes granted

def hasActiveConsent (userID clientID : Int) (scopes : List String) : Service AuthzError Bool := do
  match ← call .store (Repository.findActiveConsent userID clientID) with
  | none => return false
  | some consent =>
    let granted ← found (unmarshalStrings consent.scopesJSON) .store
    return consentCovers granted scopes

def codeModel (env : Env) (code : String) (cmd : AuthorizationCommand) (client : Client)
    (session : Session) (now : Int) : AuthorizationCode where
  id := 0
  code := code
  clientDBID := client.id
  userID := session.userID
  sessionDBID := if session.id > 0 then some session.id else none
  redirectURI := cmd.redirectURI
  scopesJSON := marshalStrings (requestedScopes cmd.scope)
  stateValue := trimSpace cmd.state
  nonceValue := trimSpace cmd.nonce
  codeChallenge := trimSpace cmd.codeChallenge
  codeChallengeMethod := normalizeCodeChallengeMethod cmd.codeChallengeMethod
  expiresAt := now + env.codeTTL
  consumedAt := none

def issueCode (env : Env) (code : String) (cmd : AuthorizationCommand) (client : Client)
    (session : Session) : Service AuthzError AuthorizationResult := do
  let now ← Repository.now
  let created ← call .store
    (Repository.createAuthorizationCode env (codeModel env code cmd client session now))
  require (created = true) .store
  return { redirectURI := cmd.redirectURI, code := code, state := cmd.state }

/-- What `authorize` requires of the client and the request before it looks at the session. -/
def findClient (env : Env) (cmd : AuthorizationCommand) : Service AuthzError Client := do
  require (trimSpace cmd.clientID ≠ "" ∧ trimSpace cmd.redirectURI ≠ "") .invalidRequest
  require (trimSpace cmd.responseType = "code") .unsupportedResponseType
  let client ← found (← call .store (Repository.findByClientID env (trimSpace cmd.clientID)))
    .invalidClient
  require (client.status = "active") .invalidClient
  require ("authorization_code" ∈ client.grantTypes) .invalidClient
  require (cmd.redirectURI ∈ client.redirectURIs) .invalidRedirectURI
  require (allContained (requestedScopes cmd.scope) client.scopes = true) .invalidScope
  validatePKCE client.requirePKCE (trimSpace cmd.codeChallenge) (trimSpace cmd.codeChallengeMethod)
  return client

def requestSession (env : Env) (cmd : AuthorizationCommand) :
    Service AuthzError (Option Session) :=
  match nonblank cmd.sessionID with
  | none => pure none
  | some sessionID => findActiveSession env sessionID

/-- `Authorize`, with the code drawn for it. -/
def authorize (env : Env) (code : String) (cmd : AuthorizationCommand) :
    Service AuthzError AuthorizationResult := do
  let client ← findClient env cmd
  match ← requestSession env cmd with
  | none => return { requireLogin := true, loginRedirectURI := "/login" }
  | some session =>
    match client.requireConsent with
    | false => issueCode env code cmd client session
    | true =>
      match ← hasActiveConsent session.userID client.id (requestedScopes cmd.scope) with
      | false => return { requireConsent := true, consentRedirectURI := "/consent" }
      | true => issueCode env code cmd client session

end IdpServer.Authz
