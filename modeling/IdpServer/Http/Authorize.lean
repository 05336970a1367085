import IdpServer.Authz.Service

/-!
# Http.Authorize — the authorize endpoint

The handler makes a command of the query and the session cookie, and a redirect of the result. An error too is
sent to the `redirect_uri` of the request, **whatever that is**.
-/

namespace IdpServer.Http

open Conc Conc.Prog Go IdpServer.Authz

def scopeList (scope : String) : List String := if trimSpace scope = "" then [] else fields scope

/-- A request to the endpoint: its query, its `RequestURI` and the cookie `idp_session`. -/
structure AuthorizeRequest where
  query : Values
  requestURI : String
  sessionID : String
  deriving DecidableEq, Repr

/-- The command of a query in a session. -/
def authorizationCommand (query : Values) (sessionID : String) : AuthorizationCommand where
  sessionID := sessionID
  responseType := query.get "response_type"
  clientID := query.get "client_id"
  redirectURI := query.get "redirect_uri"
  scope := scopeList (query.get "scope")
  state := query.get "state"
  nonce := query.get "nonce"
  codeChallenge := query.get "code_challenge"
  codeChallengeMethod := query.get "code_challenge_method"

/-- What is answered to a browser: a redirect, or an error with its status. -/
inductive Reply where
  | redirect (target : String)
  | error (status : Nat) (text : String)
  deriving DecidableEq, Repr

def buildAuthorizeSuccessRedirect (urls : URLLibrary) (redirectURI code state : String) :
    Option String :=
  urls.withQuery redirectURI (("code", code) :: unlessEmpty "state" state)

def buildAuthorizeErrorRedirect (urls : URLLibrary) (redirectURI code description state : String) :
    Option String :=
  urls.withQuery redirectURI
    (("error", code) :: (unlessEmpty "error_description" description ++ unlessEmpty "state" state))

def withReturnTo (urls : URLLibrary) (loginURI returnTo : String) : String :=
  (urls.withQuery loginURI [("return_to", returnTo)]).getD loginURI

def errorDescription (storeText : String) : AuthzError → String
  | .invalidRequest => "invalid request"
  | .unsupportedResponseType => "unsupported response type"
  | .invalidClient => "invalid client"
  | .invalidRedirectURI => "invalid redirect uri"
  | .invalidScope => "invalid scope"
  | .invalidCodeChallenge => "invalid code challenge"
  | .store => storeText

def errorCode : AuthzError → String
  | .unsupportedResponseType => "unsupported_response_type"
  | .invalidScope => "invalid_scope"
  | .invalidClient => "unauthorized_client"
  | .invalidRequest | .invalidRedirectURI | .invalidCodeChallenge | .store => "invalid_request"

def writeAuthorizeError (urls : URLLibrary) (storeText : String) (cmd : AuthorizationCommand)
    (e : AuthzError) : Reply :=
  let target := if cmd.redirectURI = "" then none else
    buildAuthorizeErrorRedirect urls cmd.redirectURI (errorCode e) (errorDescription storeText e)
      cmd.state
  match target with
  | some target => .redirect target
  | none => .error 400 (errorDescription storeText e)

def writeAuthorizeResult (urls : URLLibrary) (requestURI : String) (result : AuthorizationResult) :
    Reply :=
  if result.requireConsent then .redirect (withReturnTo urls result.consentRedirectURI requestURI)
  else if result.requireLogin then .redirect (withReturnTo urls result.loginRedirectURI requestURI)
  else match buildAuthorizeSuccessRedirect urls result.redirectURI result.code result.state with
    | some target => .redirect target
    | none => .error 500 "failed to build redirect url"

/-- `ServeHTTP`, with the code drawn for the request. -/
def serveAuthorize (env : BrowserEnv) (code storeText : String) (request : AuthorizeRequest) :
    Prog World Label Reply := do
  let cmd := authorizationCommand request.query request.sessionID
  match ← (authorize env.toEnv code cmd).run with
  | .error e => return writeAuthorizeError env.urls storeText cmd e
  | .ok result => return writeAuthorizeResult env.urls request.requestURI result

end IdpServer.Http
