import IdpServer.Authn.Login
import IdpServer.Crypto.Jwt

/-!
# Federation.Provider — logging in with another identity provider

Without a code `authenticate` keeps a state and a nonce and sends the browser to the other provider; with one
it consumes the state, redeems the code and reads the claims. `Upstream` is what that provider answers.
-/

namespace IdpServer.Federation

open Conc Conc.Prog IdpServer.Cache Go Store
open IdpServer.Authn (ConnectorResult)
open IdpServer.Crypto (Value segments)

/-! ## Configuration -/

structure OIDCProviderConfig where
  issuer : String
  clientID : String
  clientSecret : String
  redirectURI : String
  scopes : List String
  clientAuthMethod : String
  usernameClaim : String
  displayNameClaim : String
  emailClaim : String
  stateTTL : Int
  deriving DecidableEq, Repr

def normalizeClientAuthMethod (value : String) : String :=
  let folded := toLower (trimSpace value)
  if folded = "client_secret_post" ∨ folded = "none" then folded else "client_secret_basic"

def fallback (value defaultValue : String) : String := (nonblank value).getD defaultValue

def newOIDCProvider (cfg : OIDCProviderConfig) : OIDCProviderConfig where
  issuer := trimSpace cfg.issuer
  clientID := trimSpace cfg.clientID
  clientSecret := cfg.clientSecret
  redirectURI := trimSpace cfg.redirectURI
  scopes := if normalizeScopes cfg.scopes = [] then ["openid", "profile", "email"]
    else normalizeScopes cfg.scopes
  clientAuthMethod := normalizeClientAuthMethod cfg.clientAuthMethod
  usernameClaim := fallback cfg.usernameClaim "preferred_username"
  displayNameClaim := fallback cfg.displayNameClaim "name"
  emailClaim := fallback cfg.emailClaim "email"
  stateTTL := if cfg.stateTTL ≤ 0 then 600 * second else cfg.stateTTL

/-! ## The other provider -/

structure DiscoveryDocument where
  issuer : String
  authorizationEndpoint : String
  tokenEndpoint : String
  userInfoEndpoint : String
  deriving DecidableEq, Repr

structure TokenForm where
  code : String
  redirectURI : String
  clientID : String
  clientSecret : Option String
  basicAuth : Option (String × String)
  deriving DecidableEq, Repr

structure TokenResponse where
  accessToken : String
  idToken : String
  deriving DecidableEq, Repr

/-- The claims of a user: a decoded JSON object. -/
abbrev UserClaims := List (String × Value)

structure Upstream where
  discovery : Option DiscoveryDocument
  token : String → TokenForm → Option TokenResponse
  userInfo : String → String → Option UserClaims
  unmarshal : List UInt8 → Option UserClaims
  urls : URLLibrary

def UserClaims.find (claims : UserClaims) (key : String) : Option Value :=
  (claims.find? fun p => p.1 = key).map (·.2)

/-- `firstStringClaim`: the first of the claims that is a text and not blank, trimmed. -/
def firstStringClaim (claims : UserClaims) (keys : List String) : String :=
  (keys.findSome? fun key =>
    match claims.find key with
    | some (.text s) => nonblank s
    | _ => none).getD ""

def claimContainsAudience (raw : Value) (expected : String) : Bool :=
  match raw with
  | .text s => s = expected
  | .list items => some expected ∈ items
  | _ => false

/-- `validateOIDCClaims`. A claim that is blank passes, as does anything when there is nothing to
compare it with. -/
def validateOIDCClaims (claims : UserClaims) (issuer audience nonce : String) :
    Service String Unit := do
  let iss := firstStringClaim claims ["iss"]
  require (issuer ≠ "" → iss ≠ "" → iss = issuer) "unexpected oidc issuer"
  require (audience ≠ "" → ∀ raw ∈ claims.find "aud", claimContainsAudience raw audience = true)
    "unexpected oidc audience"
  let got := firstStringClaim claims ["nonce"]
  require (nonce ≠ "" → got ≠ "" → got = nonce) "unexpected oidc nonce"

def decodeJWTClaims (up : Upstream) (token : String) : Option UserClaims :=
  match segments token with
  | [_, payload, _] => Base64.decodeString payload >>= up.unmarshal
  | _ => none

def loadDiscovery (up : Upstream) : Option DiscoveryDocument :=
  up.discovery.filter fun metadata => metadata.tokenEndpoint ≠ ""

def buildAuthorizationURL (up : Upstream) (endpoint clientID redirectURI state nonce : String)
    (scopes : List String) : Option String := do
  let u ← up.urls.parse endpoint
  let q := (((((up.urls.query u.rawQuery).set "response_type" "code").set "client_id" clientID).set
    "redirect_uri" redirectURI).set "scope" (" ".intercalate scopes)).set "state" state
  return up.urls.string { u with rawQuery := up.urls.encode (q.set "nonce" nonce) }

/-! ## The two halves of a login -/

structure OIDCAuthenticateInput where
  redirectURI : String := ""
  returnTo : String := ""
  state : String := ""
  code : String := ""
  nonce : String := ""
  deriving DecidableEq, Repr

def beginAuthentication (cfg : OIDCProviderConfig) (up : Upstream) (metadata : DiscoveryDocument)
    (redirectURI returnTo state nonce : String) : Service String ConnectorResult := do
  require (metadata.authorizationEndpoint ≠ "") "oidc discovery is missing authorization_endpoint"
  let now ← Repository.now
  let value : OAuthState := {
    clientID := ""
    redirectURI := redirectURI
    sessionID := ""
    createdAt := now
    returnTo := trimSpace returnTo
    nonce := nonce }
  call "save oidc state" (Repository.saveState state value cfg.stateTTL)
  let authURL ← found (buildAuthorizationURL up metadata.authorizationEndpoint cfg.clientID
    redirectURI state nonce cfg.scopes) "build oidc authorization url"
  return { authenticated := false, redirectURI := authURL }

def consumeState (state : String) : Service String OAuthState := do
  require (state ≠ "") "oidc state is required"
  let value ← call "load oidc state" (Repository.getState state)
  let value ← found value "oidc state is invalid or expired"
  call "delete oidc state" (Repository.deleteState state)
  return value

def exchangeCode (cfg : OIDCProviderConfig) (up : Upstream) (metadata : DiscoveryDocument)
    (code redirectURI : String) : Service String TokenResponse := do
  let secret := if cfg.clientSecret = "" then none else some cfg.clientSecret
  let form : TokenForm := {
    code := code
    redirectURI := redirectURI
    clientID := cfg.clientID
    clientSecret := secret.filter fun _ => cfg.clientAuthMethod = "client_secret_post"
    basicAuth := (secret.filter fun _ => cfg.clientAuthMethod = "client_secret_basic").map
      (cfg.clientID, ·) }
  let response ← call "oidc token request failed"
    (Prog.observe (.exchangeCode code redirectURI) fun _ => up.token metadata.tokenEndpoint form)
  let response ← found response "oidc token request failed"
  require (response.accessToken ≠ "" ∨ response.idToken ≠ "") "oidc token response is missing tokens"
  return response

/-- The claims of the user: those of the userinfo endpoint, or else those of the ID token. -/
def userClaims (up : Upstream) (metadata : DiscoveryDocument) (response : TokenResponse) :
    Service String UserClaims := do
  let claims ← provided (metadata.userInfoEndpoint ≠ "" ∧ response.accessToken ≠ "") [] <|
    found (up.userInfo metadata.userInfoEndpoint response.accessToken) "oidc userinfo request failed"
  let claims ← provided (claims = [] ∧ response.idToken ≠ "") claims <|
    found (decodeJWTClaims up response.idToken) "decode id_token claims"
  require (claims ≠ []) "oidc provider returned no user claims"
  return claims

/-- The nonce a callback is held to: the one it brings, or else the one that was kept. -/
def expectedNonce (saved : OAuthState) (input : OIDCAuthenticateInput) : String :=
  if input.nonce ≠ "" then trimSpace input.nonce else trimSpace saved.nonce

def validatedClaims (cfg : OIDCProviderConfig) (up : Upstream) (metadata : DiscoveryDocument)
    (input : OIDCAuthenticateInput) (redirectURI : String) (saved : OAuthState) :
    Service String UserClaims := do
  let redirectURI := (nonblank saved.redirectURI).getD redirectURI
  let response ← exchangeCode cfg up metadata input.code redirectURI
  let claims ← userClaims up metadata response
  let issuer := (nonblank metadata.issuer).getD cfg.issuer
  validateOIDCClaims claims issuer cfg.clientID (expectedNonce saved input)
  return claims

def authenticatedUser (cfg : OIDCProviderConfig) (claims : UserClaims) (saved : OAuthState) :
    Service String ConnectorResult := do
  let sub := firstStringClaim claims ["sub"]
  let subject := if sub = "" then firstStringClaim claims [cfg.emailClaim, cfg.usernameClaim] else sub
  require (subject ≠ "") "oidc subject claim is missing"
  return {
    authenticated := true
    subject := subject
    username := firstStringClaim claims [cfg.usernameClaim, "preferred_username", "name"]
    displayName := firstStringClaim claims [cfg.displayNameClaim, "name"]
    email := firstStringClaim claims [cfg.emailClaim, "email"]
    redirectURI := trimSpace saved.returnTo }

def completeWithClaims (cfg : OIDCProviderConfig) (up : Upstream) (metadata : DiscoveryDocument)
    (input : OIDCAuthenticateInput) (redirectURI : String) :
    Service String (UserClaims × ConnectorResult) := do
  let saved ← consumeState (trimSpace input.state)
  let claims ← validatedClaims cfg up metadata input redirectURI saved
  return (claims, ← authenticatedUser cfg claims saved)

def completeAuthentication (cfg : OIDCProviderConfig) (up : Upstream) (metadata : DiscoveryDocument)
    (input : OIDCAuthenticateInput) (redirectURI : String) : Service String ConnectorResult :=
  Prod.snd <$> completeWithClaims cfg up metadata input redirectURI

/-- `Authenticate`, of a configured provider. -/
def authenticate (cfg : OIDCProviderConfig) (up : Upstream) (state nonce : String)
    (input : OIDCAuthenticateInput) : Service String ConnectorResult := do
  require (trimSpace cfg.issuer ≠ "" ∧ trimSpace cfg.clientID ≠ "") "oidc provider is not configured"
  let redirectURI := (nonblank input.redirectURI).getD cfg.redirectURI
  require (redirectURI ≠ "") "oidc redirect_uri is required"
  let metadata ← found (loadDiscovery up) "oidc discovery request failed"
  match nonblank input.code with
  | none => beginAuthentication cfg up metadata redirectURI input.returnTo state nonce
  | some _ => completeAuthentication cfg up metadata input redirectURI

end IdpServer.Federation
