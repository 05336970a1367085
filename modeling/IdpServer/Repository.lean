import IdpServer.Scopes
import IdpServer.World

/-!
# Repository — the stores as the services call them

Each method of a repository as the sequence of commands it sends. Whether a call fails is decided where a
service makes it (`Prog.call`, `Prog.attempt`).
-/

namespace IdpServer.Repository

open Conc IdpServer.Cache Go

def now : Action Int := Prog.read (·.now)

/-! ## Accounts -/

def findUserByID (id : Int) : Action (Option User) := Prog.read (·.db.findUser id)

def findUserByUsername (env : Env) (username : String) : Action (Option User) :=
  Prog.read (·.db.users.find? fun u => env.sqlEq u.username username)

def findUserByUUID (env : Env) (userUUID : String) : Action (Option User) :=
  Prog.read (·.db.users.find? fun u => env.sqlEq u.userUUID userUUID)

def findUserByEmail (env : Env) (email : String) : Action (Option User) :=
  Prog.read (·.db.users.find? fun u => env.sqlEq u.email email)

def createUser (env : Env) (u : User) : Action (Option User) :=
  Prog.atom (.createUser u) fun w =>
    ((w.db.createUser env.sqlEq u).1, { w with db := (w.db.createUser env.sqlEq u).2 })

def lockAccount (userID : Int) : Action Unit :=
  Prog.update (.lockAccount userID) fun w => { w with db := w.db.lockAccount userID }

def unlockAccount (userID : Int) : Action Unit :=
  Prog.update (.unlockAccount userID) fun w => { w with db := w.db.unlockAccount userID }

def verifyPassword (env : Env) (user : User) (password : String) : Action Bool :=
  Prog.observe (.verifyPassword user.id) fun _ => env.verifyPassword password user.passwordHash

def findTOTPByUserID (userID : Int) : Action (Option TOTPCredential) :=
  Prog.read (·.db.findTOTP userID)

def upsertTOTP (t : TOTPCredential) : Action Unit :=
  Prog.update (.upsertTOTP t) fun w => { w with db := w.db.upsertTOTP t }

def listPasskeysByUserID (userID : Int) : Action (List PasskeyCredential) :=
  Prog.read (·.db.listPasskeys userID)

def upsertPasskey (env : Env) (p : PasskeyCredential) : Action Unit :=
  let row := { p with credentialJSON := env.jsonColumn p.credentialJSON }
  Prog.update (.upsertPasskey row) fun w => { w with db := w.db.upsertPasskey env.sqlEq row }

/-! ## Operators and clients -/

def findByRoleCode (env : Env) (roleCode : String) : Action (Option OperatorRole) :=
  Prog.read (·.db.findRole env.sqlEq roleCode)

def createRole (env : Env) (role : OperatorRole) : Action Bool :=
  Prog.atom (.createRole role) fun w =>
    ((w.db.createRole env.sqlEq role).1, { w with db := (w.db.createRole env.sqlEq role).2 })

def updateRole (env : Env) (role : OperatorRole) : Action Unit :=
  Prog.update (.updateRole role) fun w => { w with db := w.db.updateRole env.sqlEq role }

def upsertRole (env : Env) (role : OperatorRole) : Action Unit :=
  Prog.update (.upsertRole role) fun w => { w with db := w.db.upsertRole env.sqlEq role }

def deleteByRoleCode (env : Env) (roleCode : String) : Action Unit :=
  Prog.update (.deleteRole roleCode) fun w => { w with db := w.db.deleteRole env.sqlEq roleCode }

def countByRoleCode (env : Env) (roleCode : String) : Action Nat :=
  Prog.read (·.db.countByRoleCode env.sqlEq roleCode)

def updateRoleAndPrivilege (userID : Int) (roleCode : String) (mask : Mask) (tenantScope : String) :
    Action Unit :=
  Prog.update (.updateRoleAndPrivilege userID roleCode mask tenantScope) fun w =>
    { w with db := w.db.updateRoleAndPrivilege userID roleCode mask tenantScope }

def findByClientID (env : Env) (clientID : String) : Action (Option Client) :=
  Prog.read fun _ => env.findByClientID clientID

/-! ## MFA challenges -/

def hmgetMFAChallenge (id : String) : Action (Option MFAChallengeHash) :=
  Prog.observe (.hmgetMFAChallenge id) fun w => w.mfa.hmget w.now id

def bitfieldMFAChallenge (id : String) : Action PackedState :=
  Prog.observe (.bitfieldMFAChallenge id) fun w => w.mfa.bitfield w.now id

/-- `GetMFAChallenge`: two commands, with room between them. -/
def getMFAChallenge (id : String) : Action (Option MFAChallengeEntry) := do
  let hash ← hmgetMFAChallenge id
  let packed ← bitfieldMFAChallenge id
  return hash.map (mfaChallengeEntry · packed)

def saveMFAChallenge (e : MFAChallengeEntry) (ttl : Int) : Action (Except StateError Unit) :=
  Prog.atom (.saveMFAChallenge e ttl) fun w =>
    ((Cache.saveMFAChallenge w.mfa w.now e ttl).1,
      { w with mfa := (Cache.saveMFAChallenge w.mfa w.now e ttl).2 })

def deleteMFAChallenge (id : String) : Action Unit :=
  Prog.update (.deleteMFAChallenge id) fun w => { w with mfa := Cache.deleteMFAChallenge w.mfa id }

def reserveTOTPStepUse (userID purpose : String) (step ttl : Int) : Action Bool :=
  Prog.atom (.reserveTOTPStepUse userID purpose step) fun w =>
    ((Cache.reserveTOTPStepUse w.mfa w.now userID purpose step ttl).1,
      { w with mfa := (Cache.reserveTOTPStepUse w.mfa w.now userID purpose step ttl).2 })

def saveTOTPEnrollment (e : TOTPEnrollmentEntry) (ttl : Int) : Action Unit :=
  Prog.update (.saveTOTPEnrollment e ttl) fun w =>
    { w with enrollments := Cache.saveTOTPEnrollment w.enrollments w.now e ttl }

def getTOTPEnrollment (sessionID : String) : Action (Option TOTPEnrollmentEntry) :=
  Prog.read fun w => w.enrollments.get w.now sessionID

def deleteTOTPEnrollment (sessionID : String) : Action Unit :=
  Prog.update (.deleteTOTPEnrollment sessionID) fun w =>
    { w with enrollments := w.enrollments.del sessionID }

/-! ## Sessions -/

/-- `Create`; `false` is a duplicate key. -/
def createSession (env : Env) (s : Session) : Action Bool :=
  let row := { s with amrJSON := env.jsonColumn s.amrJSON }
  Prog.atom (.createSession row) fun w =>
    ((w.db.createSession env.sqlEq row).1, { w with db := (w.db.createSession env.sqlEq row).2 })

def findBySessionID (env : Env) (sessionID : String) : Action (Option Session) :=
  Prog.read (·.db.findSession env.sqlEq sessionID)

def listActiveSessions (userID : Int) : Action (List Session) :=
  Prog.read fun w => w.db.listActiveSessions w.now userID

def logoutBySessionID (env : Env) (sessionID : String) (loggedOutAt : Int) : Action Unit :=
  Prog.update (.logoutBySessionID sessionID loggedOutAt) fun w =>
    { w with db := w.db.logoutBySessionID env.sqlEq sessionID loggedOutAt }

def logoutAllByUserID (userID loggedOutAt : Int) : Action Unit :=
  Prog.update (.logoutAllByUserID userID loggedOutAt) fun w =>
    { w with db := w.db.logoutAllByUserID userID loggedOutAt }

def saveSession (e : SessionCacheEntry) (ttl : Int) : Action Unit :=
  Prog.update (.saveSession e ttl) fun w => { w with sessions := w.sessions.save w.now e ttl }

def getSession (sessionID : String) : Action (Option SessionCacheEntry) := do
  let hash ← Prog.read fun w => w.sessions.hmget w.now sessionID
  let packed ← Prog.read fun w => w.sessions.bitfield w.now sessionID
  return hash.map (sessionCacheEntry sessionID · packed)

/-- `Delete` of the session cache: it reads the user first, and without one it only removes the
hash. -/
def deleteSession (sessionID : String) : Action Unit := do
  match ← getSession sessionID with
  | none =>
    Prog.update (.deleteSessionHash sessionID) fun w =>
      { w with sessions := { w.sessions with hash := w.sessions.hash.del sessionID } }
  | some entry =>
    Prog.update (.deleteSession sessionID entry.userID) fun w =>
      { w with sessions := w.sessions.deleteSession w.now sessionID entry.userID }

def listUserSessionIDs (userID : String) : Action (List String) :=
  Prog.observe (.listUserSessionIDs userID) fun w => w.sessions.members w.now userID

def addUserSessionIndex (userID sessionID : String) (ttl : Int) : Action Unit :=
  Prog.update (.addUserSessionIndex userID sessionID ttl) fun w =>
    { w with sessions := w.sessions.addUserSessionIndex w.now userID sessionID ttl }

def removeUserSessionIndex (userID sessionID : String) : Action Unit :=
  Prog.update (.removeUserSessionIndex userID sessionID) fun w =>
    { w with sessions := w.sessions.removeUserSessionIndex w.now userID sessionID }

/-! ## Tokens in the database -/

def createAccessToken (env : Env) (t : AccessToken) : Action Bool :=
  let row := { t with
    audienceJSON := env.jsonColumn t.audienceJSON, scopesJSON := env.jsonColumn t.scopesJSON }
  Prog.atom (.createAccessToken row) fun w =>
    ((w.db.createAccessToken row).1, { w with db := (w.db.createAccessToken row).2 })

def createRefreshToken (env : Env) (t : RefreshToken) : Action Bool :=
  let row := { t with scopesJSON := env.jsonColumn t.scopesJSON }
  Prog.atom (.createRefreshToken row) fun w =>
    ((w.db.createRefreshToken row).1, { w with db := (w.db.createRefreshToken row).2 })

def findActiveAccessTokenBySHA256 (sha : String) : Action (Option AccessToken) :=
  Prog.read fun w => w.db.findActiveAccessToken w.now sha

def findActiveRefreshTokenBySHA256 (sha : String) : Action (Option RefreshToken) :=
  Prog.read fun w => w.db.findActiveRefreshToken w.now sha

def rotateRefreshToken (env : Env) (oldSHA : String) (revokedAt : Int) (new : RefreshToken) :
    Action Database.RotateOutcome :=
  let row := { new with scopesJSON := env.jsonColumn new.scopesJSON }
  Prog.atom (.rotateRefreshToken oldSHA revokedAt row) fun w =>
    ((w.db.rotateRefreshToken oldSHA revokedAt row).1,
      { w with db := (w.db.rotateRefreshToken oldSHA revokedAt row).2 })

def listActiveAccessTokensByUserID (userID : Int) : Action (List AccessToken) :=
  Prog.observe (.listActiveAccessTokens userID) fun w => w.db.listActiveAccessTokens w.now userID

def listActiveRefreshTokensByUserID (userID : Int) : Action (List RefreshToken) :=
  Prog.read fun w => w.db.listActiveRefreshTokens w.now userID

def revokeAccessTokensByUserID (userID revokedAt : Int) : Action Unit :=
  Prog.update (.revokeAccessTokens userID revokedAt) fun w =>
    { w with db := w.db.revokeAccessTokens w.now userID revokedAt }

def revokeRefreshTokensByUserID (userID revokedAt : Int) : Action Unit :=
  Prog.update (.revokeRefreshTokens userID revokedAt) fun w =>
    { w with db := w.db.revokeRefreshTokens w.now userID revokedAt }

/-! ## Tokens in the cache -/

def saveAccessToken (sha : String) (e : AccessTokenHash) (ttl : Int) : Action Unit :=
  Prog.update (.saveAccessToken sha e ttl) fun w =>
    { w with tokens := w.tokens.saveAccessToken w.now sha e ttl }

def saveRefreshToken (e : RefreshTokenCacheEntry) (ttl : Int) : Action Unit :=
  Prog.update (.saveRefreshToken e ttl) fun w =>
    { w with tokens := w.tokens.saveRefreshToken w.now e ttl }

def checkRefreshTokenReplay (sha fp : String) : Action TokenCache.ReplayResult := do
  let nowTS ← unix <$> now
  Prog.atom (.checkRefreshReplay sha nowTS fp) fun w =>
    ((w.tokens.checkRefreshReplay w.now sha nowTS fp).1,
      { w with tokens := (w.tokens.checkRefreshReplay w.now sha nowTS fp).2 })

def rotateCachedToken (oldSHA : String) (new : RefreshTokenCacheEntry) (response : TokenResponse)
    (fp : String) (newTTL graceTTL : Int) : Action TokenCache.RotateReply := do
  let nowTS ← unix <$> now
  Prog.atom (.rotateToken oldSHA new response fp newTTL nowTS) fun w =>
    let r := w.tokens.rotateToken w.now oldSHA new response fp (durationSeconds newTTL)
      (durationSeconds graceTTL) nowTS
    (r.1, { w with tokens := r.2 })

def revokeAccessToken (sha : String) (ttl : Int) : Action Unit :=
  Prog.update (.revokeAccessToken sha ttl) fun w =>
    { w with tokens := w.tokens.revokeAccessToken w.now sha ttl }

def revokeRefreshToken (sha : String) (ttl : Int) : Action Unit :=
  Prog.update (.revokeRefreshToken sha ttl) fun w =>
    { w with tokens := w.tokens.revokeRefreshToken w.now sha ttl }

def getAccessToken (sha : String) : Action (Option AccessTokenHash) :=
  Prog.read fun w => w.tokens.access.get w.now sha

def isAccessTokenRevoked (sha : String) : Action Bool :=
  Prog.read fun w => w.tokens.isAccessTokenRevoked w.now sha

/-! ## Device codes -/

def saveDevice (e : DeviceCodeEntry) (ttl : Int) : Action Unit :=
  Prog.update (.saveDevice e ttl) fun w => { w with devices := w.devices.save w.now e ttl }

def getByDeviceCode (deviceCode : String) : Action (Option DeviceCodeEntry) :=
  Prog.read fun w => w.devices.getByDeviceCode w.now deviceCode

def getByUserCode (userCode : String) : Action (Option DeviceCodeEntry) := do
  match ← Prog.read fun w => w.devices.userCode.get w.now userCode with
  | none => return none
  | some deviceCode => getByDeviceCode deviceCode

def touchPoll (deviceCode : String) (polledAt minInterval : Int) : Action Bool :=
  Prog.atom (.touchPoll deviceCode polledAt minInterval) fun w =>
    ((w.devices.touchPoll w.now deviceCode polledAt minInterval).1,
      { w with devices := (w.devices.touchPoll w.now deviceCode polledAt minInterval).2 })

def approveDevice (userCode userID subject : String) (approvedAt : Int) : Action Unit := do
  match ← getByUserCode userCode with
  | none => return
  | some e => Prog.update (.approveDevice e.deviceCode userID subject approvedAt) fun w =>
    { w with devices := w.devices.approve w.now e.deviceCode userID subject approvedAt }

def denyDevice (userCode : String) (deniedAt : Int) : Action Unit := do
  match ← getByUserCode userCode with
  | none => return
  | some e => Prog.update (.denyDevice e.deviceCode deniedAt) fun w =>
    { w with devices := w.devices.deny w.now e.deviceCode deniedAt }

def markDeviceConsumed (deviceCode : String) (consumedAt : Int) : Action Unit :=
  Prog.update (.consumeDevice deviceCode consumedAt) fun w =>
    { w with devices := w.devices.markConsumed w.now deviceCode consumedAt }

/-! ## Authorization codes and consents -/

def createAuthorizationCode (env : Env) (c : AuthorizationCode) : Action Bool :=
  let row := { c with scopesJSON := env.jsonColumn c.scopesJSON }
  Prog.atom (.createAuthorizationCode row) fun w =>
    ((w.db.createAuthorizationCode env.sqlEq row).1,
      { w with db := (w.db.createAuthorizationCode env.sqlEq row).2 })

def consumeByCode (env : Env) (code : String) (consumedAt : Int) :
    Action (Option AuthorizationCode) :=
  Prog.atom (.consumeByCode code consumedAt) fun w =>
    ((w.db.consumeByCode env.sqlEq code consumedAt).1,
      { w with db := (w.db.consumeByCode env.sqlEq code consumedAt).2 })

def findActiveConsent (userID clientID : Int) : Action (Option Consent) :=
  Prog.read fun w => w.db.findActiveConsent userID clientID

/-- What `UpsertActiveConsent` stores: the scopes with those of the row, in the order in which the
set of them is walked. -/
def mergedScopes (order : List String → List String) (scopes granted : List String) : List String :=
  order (allowedScopes scopes ++ allowedScopes granted).eraseDups

/-- The row after `UpsertActiveConsent`, unless the text of the row before it cannot be decoded. -/
def consentRow (env : Env) (order : List String → List String) (db : Database)
    (userID clientID : Int) (scopes : List String) : Option Consent :=
  let existing := ((db.findConsent userID clientID).map (·.scopesJSON)).filter (trimSpace · ≠ "")
  (existing.elim (some []) unmarshalStrings).map fun granted =>
    ⟨userID, clientID, env.jsonColumn (marshalStrings (mergedScopes order scopes granted)), none⟩

/-- `UpsertActiveConsent`: one transaction that locks the row and writes it anew; `false` is the
error of a text that cannot be decoded. -/
def upsertActiveConsent (env : Env) (order : List String → List String) (userID clientID : Int)
    (scopes : List String) : Action Bool :=
  Prog.atom (.upsertActiveConsent userID clientID scopes) fun w =>
    match consentRow env order w.db userID clientID scopes with
    | none => (false, w)
    | some row => (true, { w with db := w.db.upsertConsent row })

/-! ## Federated logins -/

def saveState (state : String) (value : OAuthState) (ttl : Int) : Action Unit :=
  Prog.update (.saveState state value ttl) fun w =>
    { w with states := Cache.saveState w.states w.now state value ttl }

def getState (state : String) : Action (Option OAuthState) :=
  Prog.read fun w => w.states.get w.now state

def deleteState (state : String) : Action Unit :=
  Prog.update (.deleteState state) fun w => { w with states := w.states.del state }

/-! ## Rate limits -/

def isIPLocked (ip : String) : Action Bool := Prog.read fun w => w.limits.isIPLocked w.now ip

def isUserLocked (userID : String) : Action Bool :=
  Prog.read fun w => w.limits.isUserLocked w.now userID

def incrementLoginFailByUser (username userID : String) (counterTTL threshold lockTTL : Int) :
    Action RateLimitIncrementResult :=
  Prog.atom (.incrementLoginFailByUser username userID) fun w =>
    let r := w.limits.incrementLoginFailByUser w.now username userID counterTTL threshold lockTTL
    (r.1, { w with limits := r.2 })

def incrementLoginFailByIP (ip : String) (counterTTL threshold lockTTL : Int) :
    Action RateLimitIncrementResult :=
  Prog.atom (.incrementLoginFailByIP ip) fun w =>
    let r := w.limits.incrementLoginFailByIP w.now ip counterTTL threshold lockTTL
    (r.1, { w with limits := r.2 })

def incrementBlacklistByUser (username userID : String) (threshold : Int) :
    Action RateLimitIncrementResult :=
  Prog.atom (.incrementBlacklistByUser username userID) fun w =>
    let r := w.limits.incrementBlacklistByUser w.now username userID threshold
    (r.1, { w with limits := r.2 })

def resetLoginFailByUser (username : String) : Action Unit :=
  Prog.update (.resetLoginFailByUser username) fun w =>
    { w with limits := { w.limits with failUser := w.limits.failUser.del username } }

def resetBlacklistByUser (username : String) : Action Unit :=
  Prog.update (.resetBlacklistByUser username) fun w =>
    { w with limits := { w.limits with blacklistUser := w.limits.blacklistUser.del username } }

def resetLoginFailByIP (ip : String) : Action Unit :=
  Prog.update (.resetLoginFailByIP ip) fun w =>
    { w with limits := { w.limits with failIP := w.limits.failIP.del ip } }

def clearIPLock (ip : String) : Action Unit :=
  Prog.update (.clearIPLock ip) fun w =>
    { w with limits := { w.limits with ipLock := w.limits.ipLock.del ip } }

def clearUserLock (userID : String) : Action Unit :=
  Prog.update (.clearUserLock userID) fun w =>
    { w with limits := { w.limits with userLock := w.limits.userLock.del userID } }

end IdpServer.Repository
