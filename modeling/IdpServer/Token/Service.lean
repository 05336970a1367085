import IdpServer.Repository

/-!
# Token.Service — the token endpoint

`Exchange` and its five grants. An access token is signed, stored in the database and, as a best effort,
in the cache; some grants add a refresh token. What the source draws at random is the argument `Draws`.
-/

namespace IdpServer.Token

open Conc Conc.Prog IdpServer.Cache Go Store

/-- The errors of the service. -/
inductive TokenError where
  | unsupportedGrantType
  | invalidClient
  | invalidScope
  | invalidCode
  | invalidRedirectURI
  | invalidCodeVerifier
  | invalidRefreshToken
  | invalidUserCredentials
  | invalidDeviceCode
  | authorizationPending
  | slowDown
  | accessDenied
  | signer
  | store
  deriving DecidableEq, Repr

inductive GrantType where
  | authorizationCode
  | refreshToken
  | clientCredentials
  | password
  | deviceCode
  | other (text : String)
  deriving DecidableEq, Repr

def GrantType.text : GrantType → String
  | .authorizationCode => "authorization_code"
  | .refreshToken => "refresh_token"
  | .clientCredentials => "client_credentials"
  | .password => "password"
  | .deviceCode => "urn:ietf:params:oauth:grant-type:device_code"
  | .other text => text

structure ExchangeInput where
  grantType : GrantType
  clientID : String := ""
  clientSecret : String := ""
  replayFingerprint : String := ""
  code : String := ""
  redirectURI : String := ""
  codeVerifier : String := ""
  refreshToken : String := ""
  deviceCode : String := ""
  username : String := ""
  password : String := ""
  scopes : List String := []

structure ExchangeResult where
  accessToken : String
  tokenType : String
  expiresIn : Int
  refreshToken : String
  scope : String
  idToken : String
  deriving DecidableEq, Repr

/-- What one exchange draws at random. -/
structure Draws where
  accessJTI : String
  idJTI : String
  refreshToken : String
  deriving DecidableEq, Repr

def refreshTokenGracePeriod : Int := 10 * second

/-! ## Clients -/

/-- The checks on the client that every grant starts with. -/
def findClient (env : Env) (clientID : String) (grantType : GrantType) :
    Service TokenError Client := do
  let client ← call .store (Repository.findByClientID env (trimSpace clientID))
  let client ← found client .invalidClient
  require (client.status = "active") .invalidClient
  require (grantType.text ∈ client.grantTypes) .invalidClient
  return client

def validateClientSecret (env : Env) (client : Client) (presentedSecret : String) :
    Service TokenError Unit :=
  require (trimSpace client.clientSecretHash = "" ∨
    env.verifyPassword presentedSecret client.clientSecretHash = true) .invalidClient

/-! ## Issuing -/

/-- The claims of an access token. -/
def accessClaims (env : Env) (client : Client) (sub jti : String) (scopes : List String)
    (now : Int) : AccessClaims where
  iss := env.issuer
  sub := sub
  aud := [client.clientID]
  exp := unix (now + client.accessTokenTTLSeconds * second)
  iat := unix now
  nbf := unix now
  jti := jti
  cid := client.clientID
  scp := scopes

def accessModel (env : Env) (client : Client) (token : String) (userID : Option Int)
    (subject : String) (scopes : List String) (now : Int) : AccessToken where
  id := 0
  tokenValue := token
  tokenSHA256 := env.sha256Hex token
  clientID := client.id
  userID := userID
  subject := subject
  audienceJSON := marshalStrings [client.clientID]
  scopesJSON := marshalStrings scopes
  tokenType := "Bearer"
  tokenFormat := "jwt"
  issuedAt := now
  expiresAt := now + client.accessTokenTTLSeconds * second
  revokedAt := none

def int64StringPtr : Option Int → String
  | none => ""
  | some n => formatInt n

def accessEntry (client : Client) (model : AccessToken) : AccessTokenHash where
  clientID := client.clientID
  userID := int64StringPtr model.userID
  subject := model.subject
  scopesJSON := model.scopesJSON
  audienceJSON := model.audienceJSON
  tokenType := model.tokenType
  tokenFormat := model.tokenFormat
  issuedAt := model.issuedAt
  expiresAt := model.expiresAt

def cacheUntil {α : Type} (expiresAt : Int) (write : Int → Action α) : Action α := do
  let now ← Repository.now
  write (expiresAt - now)

def issueAccessToken (env : Env) (client : Client) (sub : String) (userID : Option Int)
    (subject : String) (scopes : List String) (now : Int) (jti : String) :
    Service TokenError ExchangeResult := do
  let token ← found (env.mintAccessToken (accessClaims env client sub jti scopes now)) .signer
  let model := accessModel env client token userID subject scopes now
  let created ← call .store (Repository.createAccessToken env model)
  require (created = true) .store
  attempt (cacheUntil model.expiresAt
    (Repository.saveAccessToken model.tokenSHA256 (accessEntry client model)))
  let later ← Repository.now
  return {
    accessToken := token
    tokenType := "Bearer"
    expiresIn := (model.expiresAt - later).tdiv second
    refreshToken := ""
    scope := " ".intercalate scopes
    idToken := "" }

def refreshModel (env : Env) (client : Client) (token : String) (userID : Option Int)
    (subject : String) (scopes : List String) (now : Int) : RefreshToken where
  id := 0
  tokenValue := token
  tokenSHA256 := env.sha256Hex token
  clientID := client.id
  userID := userID
  subject := subject
  scopesJSON := marshalStrings scopes
  issuedAt := now
  expiresAt := now + client.refreshTokenTTLSeconds * second
  revokedAt := none
  replacedByTokenID := none

def refreshEntry (client : Client) (model : RefreshToken) (familyID : String) :
    RefreshTokenCacheEntry where
  tokenSHA256 := model.tokenSHA256
  clientID := client.clientID
  userID := int64StringPtr model.userID
  subject := model.subject
  scopesJSON := model.scopesJSON
  familyID := familyID
  issuedAt := model.issuedAt
  expiresAt := model.expiresAt

def shouldIssueRefreshToken (client : Client) (scopes : List String) : Bool :=
  0 < client.refreshTokenTTLSeconds && GrantType.refreshToken.text ∈ client.grantTypes &&
    "offline_access" ∈ scopes

def issueRefreshToken (env : Env) (client : Client) (user : User) (scopes : List String) (now : Int)
    (token : String) : Service TokenError Unit := do
  let model := refreshModel env client token (some user.id) user.userUUID scopes now
  let created ← call .store (Repository.createRefreshToken env model)
  require (created = true) .store
  attempt (cacheUntil model.expiresAt
    (Repository.saveRefreshToken (refreshEntry client model model.tokenSHA256)))

def issueUserGrantTokens (env : Env) (draws : Draws) (client : Client) (user : User)
    (scopes : List String) (now : Int) : Service TokenError ExchangeResult := do
  let result ← issueAccessToken env client user.userUUID (some user.id) user.userUUID scopes now
    draws.accessJTI
  if shouldIssueRefreshToken client scopes then
    issueRefreshToken env client user scopes now draws.refreshToken
    return { result with refreshToken := draws.refreshToken }
  else return result

/-- How long an ID token is valid: as long as an access token where the client does not say. -/
def idTokenTTLSeconds (client : Client) : Int :=
  if client.idTokenTTLSeconds > 0 then client.idTokenTTLSeconds
  else if client.accessTokenTTLSeconds > 0 then client.accessTokenTTLSeconds
  else 3600

def idClaims (env : Env) (client : Client) (user : User) (code : AuthorizationCode) (now : Int)
    (jti : String) : IDClaims where
  iss := env.issuer
  sub := user.userUUID
  aud := client.clientID
  exp := unix (now + idTokenTTLSeconds client * second)
  iat := unix now
  authTime := unix now
  jti := jti
  azp := client.clientID
  name := user.displayName
  preferredUsername := user.username
  email := user.email
  emailVerified := user.emailVerified
  nonce := if code.nonceValue = "" then none else some code.nonceValue

def mintIDToken (env : Env) (client : Client) (user : User) (code : AuthorizationCode) (now : Int)
    (jti : String) : Service TokenError String :=
  found (env.mintIDToken (idClaims env client user code now jti)) .signer

/-! ## The grants -/

/-- The verifier fits what was stored with the code: equal to the challenge, or hashed to it. -/
def CodeVerifierValid (env : Env) (code : AuthorizationCode) (verifier : String)
    (requirePKCE : Bool) : Prop :=
  if code.codeChallenge = "" then requirePKCE = false
  else verifier ≠ "" ∧
    if toUpper code.codeChallengeMethod = "" ∨ toUpper code.codeChallengeMethod = "PLAIN" then
      code.codeChallenge = verifier
    else if toUpper code.codeChallengeMethod = "S256" then
      code.codeChallenge = env.sha256Base64URL verifier
    else False

instance (env : Env) (code : AuthorizationCode) (verifier : String) (requirePKCE : Bool) :
    Decidable (CodeVerifierValid env code verifier requirePKCE) := by
  unfold CodeVerifierValid; infer_instance

def validateCodeVerifier (env : Env) (code : AuthorizationCode) (verifier : String)
    (requirePKCE : Bool) : Service TokenError Unit :=
  require (CodeVerifierValid env code verifier requirePKCE) .invalidCodeVerifier

def exchangeAuthorizationCode (env : Env) (draws : Draws) (input : ExchangeInput) :
    Service TokenError ExchangeResult := do
  let client ← findClient env input.clientID .authorizationCode
  require (input.redirectURI ∈ client.redirectURIs) .invalidRedirectURI
  validateClientSecret env client input.clientSecret
  let consumedAt ← Repository.now
  let code ← found (← call .store (Repository.consumeByCode env input.code consumedAt)) .invalidCode
  require (code.clientDBID = client.id) .invalidCode
  require (code.redirectURI = input.redirectURI) .invalidRedirectURI
  validateCodeVerifier env code input.codeVerifier client.requirePKCE
  let user ← found (← call .store (Repository.findUserByID code.userID)) .invalidCode
  let now ← Repository.now
  let scopes := mustDecodeScopeJSON code.scopesJSON
  let result ← issueUserGrantTokens env draws client user scopes now
  if "openid" ∈ scopes then
    let idToken ← mintIDToken env client user code now draws.idJTI
    return { result with idToken := idToken }
  else return result

def replayedResult (r : TokenResponse) : ExchangeResult :=
  ⟨r.accessToken, r.tokenType, r.expiresIn, r.refreshToken, r.scope, r.idToken⟩

def checkReplay (sha fp : String) : Service TokenError (Option ExchangeResult) := do
  match ← call .store (Repository.checkRefreshTokenReplay sha fp) with
  | .grace response => return some (replayedResult response)
  | .rejected => throw .invalidRefreshToken
  | .none => return none

/-- After a rotation that failed: the response of the one that did not, or else the error. -/
def tryRefreshTokenGraceReplay (sha fp : String) (err : TokenError) :
    Service TokenError ExchangeResult := do
  match ← liftM (checkReplay sha fp).run with
  | .ok (some result) => return result
  | _ => throw err

def rotate (env : Env) (client : Client) (oldSHA fp : String) (old : RefreshToken)
    (scopes : List String) (now : Int) (result : ExchangeResult) (newToken : String) :
    Service TokenError ExchangeResult := do
  let new := refreshModel env client newToken old.userID old.subject scopes now
  match ← liftM (call TokenError.store (Repository.rotateRefreshToken env oldSHA now new)).run with
  | .ok .rotated =>
    attempt (cacheUntil new.expiresAt fun ttl =>
      Repository.rotateCachedToken oldSHA (refreshEntry client new oldSHA)
        ⟨result.accessToken, result.tokenType, result.expiresIn, newToken, result.scope,
          result.idToken⟩ fp ttl refreshTokenGracePeriod)
    return { result with refreshToken := newToken }
  | .ok .noRows => tryRefreshTokenGraceReplay oldSHA fp .invalidRefreshToken
  | .ok .duplicate => tryRefreshTokenGraceReplay oldSHA fp .store
  | .error e => tryRefreshTokenGraceReplay oldSHA fp e

def exchangeRefreshToken (env : Env) (draws : Draws) (input : ExchangeInput) :
    Service TokenError ExchangeResult := do
  let client ← findClient env input.clientID .refreshToken
  validateClientSecret env client input.clientSecret
  let oldSHA := env.sha256Hex input.refreshToken
  let fp := trimSpace input.replayFingerprint
  match ← checkReplay oldSHA fp with
  | some result => return result
  | none =>
    let old ← found (← call .store (Repository.findActiveRefreshTokenBySHA256 oldSHA))
      .invalidRefreshToken
    require (old.clientID = client.id) .invalidRefreshToken
    let user ← found (← call .store (Repository.findUserByID (old.userID.getD 0)))
      .invalidRefreshToken
    let now ← Repository.now
    let scopes := mustDecodeScopeJSON old.scopesJSON
    let result ← issueAccessToken env client user.userUUID old.userID old.subject scopes now
      draws.accessJTI
    if client.refreshTokenTTLSeconds ≤ 0 then return result
    else rotate env client oldSHA fp old scopes now result draws.refreshToken

/-- The scopes of a grant that names them: all of the client's when none are asked for. -/
def requestedScopes (client : Client) (scopes : List String) : List String :=
  if normalizeScopes scopes = [] then client.scopes else normalizeScopes scopes

def exchangeClientCredentials (env : Env) (draws : Draws) (input : ExchangeInput) :
    Service TokenError ExchangeResult := do
  let client ← findClient env input.clientID .clientCredentials
  validateClientSecret env client input.clientSecret
  let scopes := requestedScopes client input.scopes
  require (allContained scopes client.scopes = true) .invalidScope
  let now ← Repository.now
  issueAccessToken env client client.clientID none client.clientID scopes now draws.accessJTI

def exchangePassword (env : Env) (draws : Draws) (input : ExchangeInput) :
    Service TokenError ExchangeResult := do
  let client ← findClient env input.clientID .password
  validateClientSecret env client input.clientSecret
  let user ← found (← call .store (Repository.findUserByUsername env (trimSpace input.username)))
    .invalidUserCredentials
  require (user.status = "" ∨ user.status = "active") .invalidUserCredentials
  let valid ← liftM (Repository.verifyPassword env user input.password)
  require (valid = true) .invalidUserCredentials
  let scopes := requestedScopes client input.scopes
  require (allContained scopes client.scopes = true) .invalidScope
  let now ← Repository.now
  issueUserGrantTokens env draws client user scopes now

def deviceRefusal : DeviceStatus → Option TokenError
  | .blank => some .authorizationPending
  | .pending => some .authorizationPending
  | .denied => some .accessDenied
  | .consumed => some .invalidDeviceCode
  | .approved => none

def exchangeDeviceCode (env : Env) (draws : Draws) (input : ExchangeInput) :
    Service TokenError ExchangeResult := do
  let client ← findClient env input.clientID .deviceCode
  validateClientSecret env client input.clientSecret
  let entry ← found (← call .store (Repository.getByDeviceCode (trimSpace input.deviceCode)))
    .invalidDeviceCode
  let checkedAt ← Repository.now
  require (entry.clientID = client.clientID ∧ checkedAt < entry.expiresAt) .invalidDeviceCode
  let polledAt ← Repository.now
  let allowed ← call .store
    (Repository.touchPoll entry.deviceCode polledAt (entry.interval * second))
  require (allowed = true) .slowDown
  match deviceRefusal entry.status with
  | some e => throw e
  | none =>
    let userID ← found ((parseInt entry.userID).filter (0 < ·)) .invalidDeviceCode
    let user ← found (← call .store (Repository.findUserByID userID)) .invalidDeviceCode
    require (user.userUUID = entry.subject) .invalidDeviceCode
    let now ← Repository.now
    let result ← issueUserGrantTokens env draws client user (mustDecodeScopeJSON entry.scopesJSON)
      now
    let consumedAt ← Repository.now
    call .store (Repository.markDeviceConsumed entry.deviceCode consumedAt)
    return result

def exchange (env : Env) (draws : Draws) (input : ExchangeInput) :
    Service TokenError ExchangeResult :=
  match input.grantType with
  | .authorizationCode => exchangeAuthorizationCode env draws input
  | .refreshToken => exchangeRefreshToken env draws input
  | .clientCredentials => exchangeClientCredentials env draws input
  | .password => exchangePassword env draws input
  | .deviceCode => exchangeDeviceCode env draws input
  | .other _ => throw .unsupportedGrantType

end IdpServer.Token
