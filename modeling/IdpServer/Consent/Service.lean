import IdpServer.Repository

/-!
# Consent.Service — the consent page

`loadContext` reads client and scopes out of the URL of the authorize request and finds the user by their
session. Accepting is remembered and leads back to the URL, denying leads to the client.
-/

namespace IdpServer.Consent

open Conc Conc.Prog IdpServer.Cache Go

/-- The errors of the service. -/
inductive ConsentError where
  | invalidReturnTo
  | loginRequired
  | invalidClient
  | invalidScope
  | invalidAction
  | store
  deriving DecidableEq, Repr

structure AuthorizeReturnTo where
  clientID : String
  redirectURI : String
  scopes : List String
  state : String
  deriving DecidableEq, Repr

def parseAuthorizeReturnTo (env : Env) (returnTo : String) : Option AuthorizeReturnTo := do
  let returnTo ← nonblank returnTo
  let u ← env.parseURL returnTo
  guard (u.path = "/oauth2/authorize")
  let clientID ← nonblank (u.get "client_id")
  let redirectURI ← nonblank (u.get "redirect_uri")
  let scopes := normalizeScopes (fields (trimSpace (u.get "scope")))
  return {
    clientID := clientID
    redirectURI := redirectURI
    scopes := if scopes = [] then ["openid"] else scopes
    state := trimSpace (u.get "state") }

/-- The client of the request, checked as at the authorize endpoint. -/
def findClient (env : Env) (parsed : AuthorizeReturnTo) : Service ConsentError Client := do
  let client ← found (← call .store (Repository.findByClientID env parsed.clientID)) .invalidClient
  require (client.status = "active") .invalidClient
  require (parsed.redirectURI ∈ client.redirectURIs) .invalidReturnTo
  require (allContained parsed.scopes client.scopes = true) .invalidScope
  return client

def loadContext (env : Env) (returnTo sessionID : String) :
    Service ConsentError (AuthorizeReturnTo × Int × Client) := do
  let parsed ← found (parseAuthorizeReturnTo env returnTo) .invalidReturnTo
  let sessionID ← found (nonblank sessionID) .loginRequired
  let entry ← call .store (Repository.getSession sessionID)
  let now ← Repository.now
  require (∀ e ∈ entry, isSessionEntryActive e now = true) .loginRequired
  match entry.bind fun e => parseUserID e.userID with
  | some userID => return (parsed, userID, ← findClient env parsed)
  | none =>
    let row ← found (← call .store (Repository.findBySessionID env sessionID)) .loginRequired
    let later ← Repository.now
    require (row.loggedOutAt = none ∧ later < row.expiresAt) .loginRequired
    return (parsed, row.userID, ← findClient env parsed)

structure PrepareResult where
  clientID : String
  clientName : String
  scopes : List String
  returnTo : String
  deriving DecidableEq, Repr

def prepare (env : Env) (returnTo sessionID : String) : Service ConsentError PrepareResult := do
  let (parsed, _, client) ← loadContext env returnTo sessionID
  return ⟨client.clientID, client.clientName, parsed.scopes, returnTo⟩

structure DecideInput where
  returnTo : String
  sessionID : String
  action : String
  deriving DecidableEq, Repr

def buildDenyRedirect (urls : URLLibrary) (redirectURI state : String) : Option String :=
  urls.withQuery redirectURI (("error", "access_denied") :: unlessEmpty "state" state)

/-- `Decide`: where the browser goes next. A set of scopes is walked in the order `order`. -/
protected def decide (env : BrowserEnv) (order : List String → List String) (input : DecideInput) :
    Service ConsentError String := do
  let action := toLower (trimSpace input.action)
  require (action = "accept" ∨ action = "deny") .invalidAction
  let (parsed, userID, client) ← loadContext env.toEnv input.returnTo input.sessionID
  if action = "deny" then
    found (buildDenyRedirect env.urls parsed.redirectURI parsed.state) .invalidReturnTo
  else
    let stored ← call .store
      (Repository.upsertActiveConsent env.toEnv order userID client.id parsed.scopes)
    require (stored = true) .store
    return input.returnTo

end IdpServer.Consent
