import IdpServer.Repository

/-!
# Http.Middleware — the guards of the endpoints

`requireSessionPermissions` protects the administration and `requireBearerToken` the endpoints called with an
access token, such as `userInfo`; `introspect` is for resource servers.
-/

namespace IdpServer.Http

open Conc Conc.Prog IdpServer.Cache Go

/-! ## Sessions with permissions -/

def mustParseInt64 (value : String) : Int :=
  let digits := (trimSpace value).toList
  if digits.all Char.isDigit then
    digits.foldl (fun n c => (n * 10 + (c.toNat - 48 : Int)).bmod (2 ^ 64)) 0
  else 0

def adminSession (entry : SessionCacheEntry) : Session where
  id := 0
  sessionID := entry.sessionID
  userID := mustParseInt64 entry.userID
  subject := entry.subject
  acr := entry.acr
  amrJSON := entry.amrJSON
  ipAddress := entry.ipAddress
  userAgent := entry.userAgent
  authenticatedAt := entry.authenticatedAt
  expiresAt := entry.expiresAt
  loggedOutAt := none

def findSession (env : Env) (sessionID : String) : Service String (Option Session) := do
  let entry ← call "invalid session" (Repository.getSession sessionID)
  let now ← Repository.now
  match entry.filter (isSessionEntryActive · now) with
  | some e => return some (adminSession e)
  | none => call "invalid session" (Repository.findBySessionID env sessionID)

def sessionHasOTP (session : Session) : Bool :=
  contains (toLower (trimSpace session.amrJSON)) "\"otp\"" ||
    equalFold (trimSpace session.acr) "urn:idp:acr:mfa"

def hasAll (mask : Mask) (required : List Mask) : Bool :=
  required.all fun p => p = 0#32 || mask &&& p = p

def requireSessionPermissions (env : Env) (required : List Mask) (cookie : String) :
    Service String (User × Session) := do
  let sessionID ← found (nonblank cookie) "login required"
  let session ← found (← findSession env sessionID) "session expired"
  let now ← Repository.now
  require (session.loggedOutAt = none ∧ now < session.expiresAt) "session expired"
  require (sessionHasOTP session = true) "mfa required"
  let user ← call "permission lookup failed" (Repository.findUserByID session.userID)
  let user ← found user "user unavailable"
  require (user.status = "active") "user unavailable"
  require (hasAll user.privilegeMask required = true) "insufficient privilege"
  return (user, session)

/-! ## Access tokens -/

def extractBearerToken (header : String) : String :=
  if "Bearer ".toList <+: header.toList then
    trimSpace (String.ofList (header.toList.drop "Bearer ".length))
  else ""

/-- `RequireBearerToken`: the token and its claims. -/
def requireBearerToken (env : Env) (header : String) : Service String (String × AccessClaims) := do
  require (extractBearerToken header ≠ "") "missing bearer token"
  let token := extractBearerToken header
  let revoked ← call "invalid access token" (Repository.isAccessTokenRevoked (env.sha256Hex token))
  require (revoked = false) "access token revoked"
  let now ← Repository.now
  let claims ← found (env.parseAndValidate token now) "invalid access token"
  return (token, claims)

structure UserInfoOutput where
  subject : String
  name : String
  preferredName : String
  email : String
  emailVerified : Bool
  deriving DecidableEq, Repr

/-- The profile of a user. -/
def profile (user : User) : UserInfoOutput :=
  ⟨user.userUUID, user.displayName, user.username, user.email, user.emailVerified⟩

def getUserInfo (env : Env) (accessToken : String) : Service String UserInfoOutput := do
  require (trimSpace accessToken ≠ "") "invalid access token"
  let now ← Repository.now
  let claims ← found (env.parseAndValidate accessToken now) "invalid access token"
  require (claims.sub ≠ "") "invalid access token"
  let user ← call "server error" (Repository.findUserByUUID env claims.sub)
  let user ← found user "user not found"
  return profile user

/-- The userinfo endpoint: the guard, then the profile. -/
def userInfo (env : Env) (header : String) : Service String UserInfoOutput := do
  let (token, _) ← requireBearerToken env header
  getUserInfo env token

structure IntrospectionOutput where
  scope : String
  clientID : String
  tokenType : String
  exp : Int
  iat : Int
  nbf : Int
  sub : String
  aud : List String
  iss : String
  jti : String
  username : String
  deriving DecidableEq, Repr

/-- `isServerIssuedAccessToken`. A failing store counts as an answer: that of the cache as no
entry, that of the database as no row. -/
def isServerIssuedAccessToken (sha : String) : Action Bool := do
  match ← (call () (Repository.getAccessToken sha)).run with
  | .ok (some entry) =>
    let now ← Repository.now
    return now < entry.expiresAt
  | _ =>
    match ← (call () (Repository.findActiveAccessTokenBySHA256 sha)).run with
    | .ok (some _) => return true
    | _ => return false

/-- `Introspect`; `none` is an inactive token. The only errors are those of the stores. -/
def introspect (env : Env) (accessToken : String) :
    Service Unit (Option IntrospectionOutput) := do
  match nonblank accessToken with
  | none => return none
  | some token =>
    match ← call () (Repository.isAccessTokenRevoked (env.sha256Hex token)) with
    | true => return none
    | false =>
      let now ← Repository.now
      match env.parseAndValidate token now with
      | none => return none
      | some claims =>
        match ← isServerIssuedAccessToken (env.sha256Hex token) with
        | false => return none
        | true =>
          let user ← if trimSpace claims.sub = "" then pure none
            else call () (Repository.findUserByUUID env (trimSpace claims.sub))
          return some {
            scope := " ".intercalate claims.scp
            clientID := trimSpace claims.cid
            tokenType := "Bearer"
            exp := claims.exp
            iat := claims.iat
            nbf := claims.nbf
            sub := trimSpace claims.sub
            aud := claims.aud
            iss := trimSpace claims.iss
            jti := trimSpace claims.jti
            username := (user.map (·.username)).getD "" }

end IdpServer.Http
