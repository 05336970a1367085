import IdpServer.Conc.Prog
import IdpServer.Cache.Session
import IdpServer.Cache.Token
import IdpServer.Cache.Device
import IdpServer.Cache.RateLimit
import IdpServer.Cache.Replay
import IdpServer.Go.Url
import IdpServer.Persistence

/-!
# World — the shared state of the server

One database and one Redis instance, with the clock. `Label` names the commands, and the reads whose moment
matters; every other read is silent. `Env` is what does not change while the server runs.
-/

namespace IdpServer

open Conc IdpServer.Cache Store

/-- The stores and the clock. -/
structure World where
  now : Int
  db : Database
  tokens : TokenCache
  sessions : SessionCache
  mfa : MFAStore
  devices : DeviceCache
  enrollments : Keyspace String TOTPEnrollmentEntry
  limits : RateLimitCache
  states : Keyspace String OAuthState

/-- Empty stores at an instant. -/
def World.empty (now : Int) : World :=
  ⟨now, .empty, .empty, .empty, .empty, .empty, .empty, .empty, .empty⟩

/-- Time passes, in nanoseconds. -/
def World.later (ns : Nat) (w : World) : World := { w with now := w.now + ns }

/-- One command to a store: SQL statements and transactions, Redis commands and scripts, and last the
comparison of a password, which costs an attacker a guess, and a request to the token endpoint of another
identity provider. -/
inductive Label where
  | createUser (u : User)
  | lockAccount (userID : Int)
  | unlockAccount (userID : Int)
  | updateRoleAndPrivilege (userID : Int) (roleCode : String) (mask : Mask) (tenantScope : String)
  | createRole (role : OperatorRole)
  | updateRole (role : OperatorRole)
  | upsertRole (role : OperatorRole)
  | deleteRole (roleCode : String)
  | upsertTOTP (t : TOTPCredential)
  | upsertPasskey (p : PasskeyCredential)
  | createSession (s : Session)
  | logoutBySessionID (sessionID : String) (loggedOutAt : Int)
  | logoutAllByUserID (userID loggedOutAt : Int)
  | createAccessToken (t : AccessToken)
  | createRefreshToken (t : RefreshToken)
  | rotateRefreshToken (oldSHA : String) (revokedAt : Int) (new : RefreshToken)
  | listActiveAccessTokens (userID : Int)
  | revokeAccessTokens (userID revokedAt : Int)
  | revokeRefreshTokens (userID revokedAt : Int)
  | createAuthorizationCode (c : AuthorizationCode)
  | consumeByCode (code : String) (consumedAt : Int)
  | upsertActiveConsent (userID clientID : Int) (scopes : List String)
  | hmgetMFAChallenge (id : String)
  | bitfieldMFAChallenge (id : String)
  | saveMFAChallenge (e : MFAChallengeEntry) (ttl : Int)
  | deleteMFAChallenge (id : String)
  | reserveTOTPStepUse (userID purpose : String) (step : Int)
  | saveSession (e : SessionCacheEntry) (ttl : Int)
  | deleteSessionHash (sessionID : String)
  | deleteSession (sessionID userID : String)
  | listUserSessionIDs (userID : String)
  | saveAccessToken (sha : String) (e : AccessTokenHash) (ttl : Int)
  | saveRefreshToken (e : RefreshTokenCacheEntry) (ttl : Int)
  | checkRefreshReplay (sha : String) (nowTS : Int) (fp : String)
  | rotateToken (oldSHA : String) (new : RefreshTokenCacheEntry) (response : TokenResponse)
      (fp : String) (newTTL nowTS : Int)
  | revokeAccessToken (sha : String) (ttl : Int)
  | revokeRefreshToken (sha : String) (ttl : Int)
  | saveDevice (e : DeviceCodeEntry) (ttl : Int)
  | touchPoll (deviceCode : String) (polledAt minInterval : Int)
  | approveDevice (deviceCode userID subject : String) (approvedAt : Int)
  | denyDevice (deviceCode : String) (deniedAt : Int)
  | consumeDevice (deviceCode : String) (consumedAt : Int)
  | saveTOTPEnrollment (e : TOTPEnrollmentEntry) (ttl : Int)
  | deleteTOTPEnrollment (sessionID : String)
  | addUserSessionIndex (userID sessionID : String) (ttl : Int)
  | removeUserSessionIndex (userID sessionID : String)
  | incrementLoginFailByUser (username userID : String)
  | incrementLoginFailByIP (ip : String)
  | incrementBlacklistByUser (username userID : String)
  | resetLoginFailByUser (username : String)
  | resetBlacklistByUser (username : String)
  | resetLoginFailByIP (ip : String)
  | clearIPLock (ip : String)
  | clearUserLock (userID : String)
  | saveState (state : String) (value : OAuthState) (ttl : Int)
  | deleteState (state : String)
  | verifyPassword (userID : Int)
  | exchangeCode (code redirectURI : String)
  deriving DecidableEq

abbrev Action := Prog World Label

abbrev Service (ε : Type) := ExceptT ε Action

structure AccessClaims where
  iss : String
  sub : String
  aud : List String
  exp : Int
  iat : Int
  nbf : Int
  jti : String
  cid : String
  scp : List String
  deriving DecidableEq, Repr

structure IDClaims where
  iss : String
  sub : String
  aud : String
  exp : Int
  iat : Int
  authTime : Int
  jti : String
  azp : String
  name : String
  preferredUsername : String
  email : String
  emailVerified : Bool
  nonce : Option String
  deriving DecidableEq, Repr

structure PasskeyUser where
  userHandle : String
  username : String
  displayName : String
  deriving DecidableEq, Repr

/-- A parsed URL, with the decoded parameters of its query in order. -/
structure ParsedURL where
  path : String
  query : List (String × String)
  deriving DecidableEq, Repr

/-- `Query().Get`: the first value, or nothing. -/
def ParsedURL.get (u : ParsedURL) (key : String) : String :=
  ((u.query.find? fun q => q.1 = key).map (·.2)).getD ""

structure RateLimitPolicy where
  failureWindow : Int
  maxFailuresPerIP : Int
  maxFailuresPerUser : Int
  userLockThreshold : Int
  userLockTTL : Int
  permanentUserLockThreshold : Int
  deriving DecidableEq, Repr

def defaultRateLimitPolicy : RateLimitPolicy where
  failureWindow := 15 * 60 * second
  maxFailuresPerIP := 20
  maxFailuresPerUser := 5
  userLockThreshold := 5
  userLockTTL := 30 * 60 * second
  permanentUserLockThreshold := 10

/-- What is fixed while the server runs. -/
structure Env where
  sqlEq : String → String → Bool
  jsonColumn : String → String
  findByClientID : String → Option Client
  verifyPassword : String → String → Bool
  sha256Hex : String → String
  sha256Base64URL : String → String
  mintAccessToken : AccessClaims → Option String
  mintIDToken : IDClaims → Option String
  parseAndValidate : String → Int → Option AccessClaims
  parseURL : String → Option ParsedURL
  verifyCodeWithStep : String → String → Int → Option Int
  beginLogin : PasskeyUser → List String → Option (String × String)
  finishLogin : PasskeyUser → List String → String → String → Option (String × String)
  beginRegistration : PasskeyUser → List String → Option (String × String)
  finishRegistration : PasskeyUser → List String → String → String → Option (String × String)
  passkeyEnabled : Bool
  provisioningURI : String → String → String
  newSHA1 : String → String
  sha1Prefix : String → String
  issuer : String
  sessionTTL : Int
  mfaTTL : Int
  codeTTL : Int
  totpSetupTTL : Int
  passkeySetupTTL : Int
  forceMFAEnrollment : Bool
  ratePolicy : RateLimitPolicy

/-- The environment of code that writes addresses too. -/
structure BrowserEnv extends Env where
  urls : Go.URLLibrary
  parseURL_eq : ∀ text, parseURL text = (urls.parse text).map fun u => ⟨u.path, urls.query u.rawQuery⟩

/-- An environment to try the services in: digests and signatures are readable, passwords and one-time codes
are compared as they are, and nobody has a passkey. -/
def Env.plain (clients : List Client) : Env where
  sqlEq a b := a = b
  jsonColumn text := text
  findByClientID clientID := clients.find? fun c => c.clientID = clientID
  verifyPassword secret hash := secret = hash
  sha256Hex text := text
  sha256Base64URL text := text
  mintAccessToken claims := some claims.jti
  mintIDToken claims := some claims.jti
  parseAndValidate token now := some
    { iss := "https://idp", sub := "", aud := [], exp := now, iat := now, nbf := now, jti := token
      cid := "", scp := [] }
  parseURL _ := none
  verifyCodeWithStep secret code now := if secret = code then some (now / (30 * second)) else none
  beginLogin _ _ := none
  finishLogin _ _ _ _ := none
  beginRegistration _ _ := none
  finishRegistration _ _ _ _ := none
  passkeyEnabled := false
  provisioningURI account secret := account ++ secret
  newSHA1 name := name
  sha1Prefix name := name
  issuer := "https://idp"
  sessionTTL := 3600 * second
  mfaTTL := 300 * second
  codeTTL := 600 * second
  totpSetupTTL := 600 * second
  passkeySetupTTL := 600 * second
  forceMFAEnrollment := false
  ratePolicy := defaultRateLimitPolicy

end IdpServer
