import IdpServer.Repository

/-!
# Authn.Service — login sessions and the second factor

Creating a session, and the MFA challenge before it, which one of three completions deletes. What the source
draws at random is an argument.
-/

namespace IdpServer.Authn

open Conc Conc.Prog IdpServer.Cache Go Store

/-- The errors of the service. -/
inductive AuthnError where
  | invalidCredentials
  | userLocked
  | userDisabled
  | rateLimited
  | unsupportedMethod
  | mfaRequired
  | invalidTOTPCode
  | totpCodeReused
  | mfaChallengeExpired
  | mfaPushNotApproved
  | mfaPushRejected
  | invalidMFAAction
  | mfaApproverMismatch
  | invalidPushMatchCode
  | passkeyUnavailable
  | passkeySessionMissing
  | usernameExhausted
  | connector
  | provider
  | store
  deriving DecidableEq, Repr

inductive AuthnMethodType where
  | password
  | federatedOIDC
  deriving DecidableEq, Repr

/-- `AuthenticateResult`, as a completed login fills it. -/
structure AuthenticateResult where
  sessionID : String
  userID : Int
  subject : String
  roleCode : String
  redirectURI : String
  returnTo : String
  mfaEnrollmentRequired : Bool
  authenticatedAt : Int
  expiresAt : Int
  deriving DecidableEq, Repr

structure PollMFAChallengeResult where
  challengeID : String
  mfaMode : MFAMode
  passkeyAvailable : Bool
  pushStatus : PushStatus
  pushCode : String
  expiresAt : Int
  deriving DecidableEq, Repr

structure BeginMFAPasskeyResult where
  challengeID : String
  optionsJSON : String
  expiresAt : Int
  deriving DecidableEq, Repr

/-! ## Accounts -/

def lookupTOTP (userID : Int) : Service AuthnError (Option TOTPCredential) :=
  if userID ≤ 0 then pure none else call .store (Repository.findTOTPByUserID userID)

def credentialTexts (credentials : List PasskeyCredential) : List String :=
  (credentials.map fun c => trimSpace c.credentialJSON).filter (· ≠ "")

def lookupPasskeyCredentialJSON (userID : Int) : Service AuthnError (List String) :=
  if userID ≤ 0 then pure []
  else credentialTexts <$> call .store (Repository.listPasskeysByUserID userID)

def toPasskeyUser (user : User) : PasskeyUser :=
  let number := if user.id > 0 then formatInt user.id else ""
  let orElse := fun text default => if trimSpace text = "" then default else trimSpace text
  let username := orElse user.username number
  ⟨orElse user.userUUID number, username, orElse user.displayName username⟩

/-! ## Sessions -/

def sessionAuthContext : AuthnMethodType → String × String
  | .federatedOIDC => ("urn:idp:acr:federated_oidc", "[\"federated_oidc\"]")
  | .password => ("urn:idp:acr:pwd", "[\"pwd\"]")

/-- The context of a new session. A password login of a user with a TOTP credential counts as two factors,
unless the credential cannot be read. -/
def sessionContext (user : User) (method : AuthnMethodType) :
    Service AuthnError (String × String) := do
  if method = .password then
    match ← liftM (lookupTOTP user.id).run with
    | .ok (some _) => return ("urn:idp:acr:mfa", "[\"pwd\",\"otp\"]")
    | _ => return sessionAuthContext method
  else return sessionAuthContext method

def sessionModel (env : Env) (sessionID : String) (user : User) (context : String × String)
    (ipAddress userAgent : String) (now : Int) : Session where
  id := 0
  sessionID := sessionID
  userID := user.id
  subject := user.userUUID
  acr := context.1
  amrJSON := context.2
  ipAddress := ipAddress
  userAgent := userAgent
  authenticatedAt := now
  expiresAt := now + env.sessionTTL
  loggedOutAt := none

def sessionEntry (model : Session) : SessionCacheEntry where
  sessionID := model.sessionID
  userID := formatInt model.userID
  subject := model.subject
  acr := model.acr
  amrJSON := model.amrJSON
  ipAddress := model.ipAddress
  userAgent := model.userAgent
  authenticatedAt := model.authenticatedAt
  expiresAt := model.expiresAt
  status := "active"
  stateMask := sessionStateActive
  stateVersion := 0

/-- `createSession`: first the row, then the cache. -/
def createSession (env : Env) (sessionID : String) (user : User) (method : AuthnMethodType)
    (ipAddress userAgent redirectURI returnTo : String) (now : Int) :
    Service AuthnError AuthenticateResult := do
  let context ← sessionContext user method
  let model := sessionModel env sessionID user context ipAddress userAgent now
  let created ← call .store (Repository.createSession env model)
  require (created = true) .store
  call .store (Repository.saveSession (sessionEntry model) env.sessionTTL)
  return {
    sessionID := sessionID
    userID := user.id
    subject := user.userUUID
    roleCode := user.roleCode
    redirectURI := redirectURI
    returnTo := returnTo
    mfaEnrollmentRequired := false
    authenticatedAt := now
    expiresAt := now + env.sessionTTL }

def resolveActiveSessionUserID (env : Env) (sessionID : String) : Service AuthnError Int := do
  require (trimSpace sessionID ≠ "") .mfaApproverMismatch
  let now ← Repository.now
  let entry ← call .store (Repository.getSession (trimSpace sessionID))
  match (entry.filter (isSessionEntryActive · now)).bind fun e => parseUserID (trimSpace e.userID) with
  | some userID => return userID
  | none =>
    let row ← call .store (Repository.findBySessionID env (trimSpace sessionID))
    let row ← found row .mfaApproverMismatch
    require (row.loggedOutAt = none ∧ now < row.expiresAt) .mfaApproverMismatch
    return row.userID

/-! ## Challenges -/

def normalizeMFAMode (mode : String) : MFAMode :=
  if trimSpace mode = MFAMode.passkeyTOTPFallback.text then .passkeyTOTPFallback
  else if trimSpace mode = MFAMode.pushTOTPFallback.text then .pushTOTPFallback
  else .totpOnly

def normalizePushStatus (status : String) : PushStatus :=
  if trimSpace (toLower status) = PushStatus.approved.text then .approved
  else if trimSpace (toLower status) = PushStatus.denied.text then .denied
  else .pending

def ttlUntil (now expiresAt : Int) : Int := if expiresAt - now ≤ 0 then second else expiresAt - now

def liveChallenge (challengeID : String) (now : Int) : Service AuthnError MFAChallengeEntry := do
  let challenge ← call .store (Repository.getMFAChallenge challengeID)
  let challenge ← found challenge .mfaChallengeExpired
  require (now < challenge.expiresAt) .mfaChallengeExpired
  return challenge

def saveChallenge (e : MFAChallengeEntry) (now : Int) (onConflict onInvalid : AuthnError) :
    Service AuthnError Unit := do
  match ← call .store (Repository.saveMFAChallenge e (ttlUntil now e.expiresAt)) with
  | .ok () => return
  | .error .versionConflict => throw onConflict
  | .error .invalidTransition => throw onInvalid

def createMFAChallenge (env : Env) (challengeID pushCode : String) (user : User)
    (ipAddress userAgent returnTo redirectURI : String) :
    Service AuthnError (String × String) := do
  let now ← Repository.now
  let ttl := if env.mfaTTL ≤ 0 then 300 * second else env.mfaTTL
  let entry : MFAChallengeEntry := {
    challengeID := challengeID
    userID := formatInt user.id
    subject := user.userUUID
    username := user.username
    ipAddress := ipAddress
    userAgent := userAgent
    returnTo := returnTo
    redirectURI := redirectURI
    mfaMode := MFAMode.totpOnly.text
    pushStatus := PushStatus.pending.text
    pushCode := pushCode
    approverUserID := ""
    decidedAt := zeroTime
    passkeySessionJSON := ""
    expiresAt := now + ttl
    stateMask := 0#32
    stateVersion := 0 }
  match ← call .store (Repository.saveMFAChallenge entry ttl) with
  | .ok () => return (challengeID, pushCode)
  | .error _ => throw .mfaRequired

def updateMFAChallengeMode (challengeID mode : String) : Service AuthnError Unit := do
  require (trimSpace challengeID ≠ "") .mfaChallengeExpired
  let now ← Repository.now
  let challenge ← liveChallenge (trimSpace challengeID) now
  saveChallenge { challenge with mfaMode := (normalizeMFAMode mode).text } now
    .mfaChallengeExpired .mfaChallengeExpired

/-- `BeginMFAPasskey`: the options for the browser; the session goes into the challenge. -/
def beginMFAPasskey (env : Env) (challengeID : String) :
    Service AuthnError BeginMFAPasskeyResult := do
  require (env.passkeyEnabled = true) .passkeyUnavailable
  let now ← Repository.now
  let challenge ← liveChallenge (trimSpace challengeID) now
  require (normalizeMFAMode challenge.mfaMode = .passkeyTOTPFallback) .passkeyUnavailable
  let userID ← found (parseUserID (trimSpace challenge.userID)) .mfaChallengeExpired
  let user ← found (← call .store (Repository.findUserByID userID)) .invalidCredentials
  require (user.status = "active") .invalidCredentials
  let credentials ← lookupPasskeyCredentialJSON user.id
  require (credentials ≠ []) .passkeyUnavailable
  let (options, session) ← found (env.beginLogin (toPasskeyUser user) credentials) .provider
  saveChallenge { challenge with passkeySessionJSON := session } now
    .mfaChallengeExpired .mfaChallengeExpired
  return ⟨challenge.challengeID, options, challenge.expiresAt⟩

def pollMFAChallenge (challengeID : String) : Service AuthnError PollMFAChallengeResult := do
  let now ← Repository.now
  let challenge ← liveChallenge (trimSpace challengeID) now
  let mode := normalizeMFAMode challenge.mfaMode
  return {
    challengeID := challenge.challengeID
    mfaMode := mode
    passkeyAvailable := mode = .passkeyTOTPFallback
    pushStatus := normalizePushStatus challenge.pushStatus
    pushCode := challenge.pushCode
    expiresAt := challenge.expiresAt }

/-- `DecideMFAPush`: only the same user's session may decide, and approving takes the code. -/
def decideMFAPush (env : Env) (challengeID approverSessionID action matchCode : String) :
    Service AuthnError PollMFAChallengeResult := do
  let action := toLower (trimSpace action)
  require (action = PushStatus.approved.text ∨ action = PushStatus.denied.text) .invalidMFAAction
  let now ← Repository.now
  let challenge ← liveChallenge (trimSpace challengeID) now
  require (normalizeMFAMode challenge.mfaMode = .pushTOTPFallback) .invalidMFAAction
  let approverUserID ← resolveActiveSessionUserID env approverSessionID
  let challengeUserID ← found (parseUserID (trimSpace challenge.userID)) .mfaChallengeExpired
  require (approverUserID = challengeUserID) .mfaApproverMismatch
  require (action = PushStatus.approved.text →
    trimSpace matchCode ≠ "" ∧ trimSpace matchCode = trimSpace challenge.pushCode)
    .invalidPushMatchCode
  let decided := { challenge with
    pushStatus := action
    approverUserID := formatInt approverUserID
    decidedAt := now }
  saveChallenge decided now .mfaChallengeExpired .invalidMFAAction
  return {
    challengeID := decided.challengeID
    mfaMode := normalizeMFAMode decided.mfaMode
    passkeyAvailable := false
    pushStatus := normalizePushStatus decided.pushStatus
    pushCode := decided.pushCode
    expiresAt := decided.expiresAt }

/-! ## Completions -/

/-- The end every completion shares: the challenge is consumed, then the login it holds becomes a
session. -/
def completeMFA (env : Env) (sessionID : String) (challenge : MFAChallengeEntry) (user : User)
    (now : Int) : Service AuthnError AuthenticateResult := do
  call .store (Repository.deleteMFAChallenge challenge.challengeID)
  createSession env sessionID user .password challenge.ipAddress challenge.userAgent
    challenge.redirectURI challenge.returnTo now

def totpPurposeLogin : String := "login"
def totpStepReplayTTL : Int := 120 * second

def verifyTOTP (env : Env) (sessionID challengeID code : String) :
    Service AuthnError AuthenticateResult := do
  let now ← Repository.now
  let challenge ← liveChallenge (trimSpace challengeID) now
  let userID ← found (parseUserID challenge.userID) .mfaChallengeExpired
  let user ← found (← call .store (Repository.findUserByID userID)) .mfaChallengeExpired
  let credential ← found (← lookupTOTP user.id) .invalidTOTPCode
  let step ← found (env.verifyCodeWithStep credential.secret code now) .invalidTOTPCode
  let reserved ← call .store
    (Repository.reserveTOTPStepUse challenge.userID totpPurposeLogin step totpStepReplayTTL)
  require (reserved = true) .totpCodeReused
  let result ← completeMFA env sessionID challenge user now
  if env.passkeyEnabled then
    let credentials ← lookupPasskeyCredentialJSON user.id
    return { result with mfaEnrollmentRequired := credentials.isEmpty }
  else return result

def updatePasskey (env : Env) (user : User) (credentialID credentialJSON : String) (now : Int) :
    Service AuthnError Unit :=
  whenever (trimSpace credentialID ≠ "" ∧ trimSpace credentialJSON ≠ "") <|
    attempt (Repository.upsertPasskey env
      ⟨user.id, trimSpace credentialID, trimSpace credentialJSON, some now⟩)

def verifyMFAPasskey (env : Env) (sessionID challengeID responseJSON : String) :
    Service AuthnError AuthenticateResult := do
  require (env.passkeyEnabled = true) .passkeyUnavailable
  let now ← Repository.now
  let challenge ← liveChallenge (trimSpace challengeID) now
  require (normalizeMFAMode challenge.mfaMode = .passkeyTOTPFallback) .passkeyUnavailable
  require (trimSpace challenge.passkeySessionJSON ≠ "") .passkeySessionMissing
  let userID ← found (parseUserID (trimSpace challenge.userID)) .mfaChallengeExpired
  let user ← found (← call .store (Repository.findUserByID userID)) .invalidCredentials
  require (user.status = "active") .invalidCredentials
  let credentials ← lookupPasskeyCredentialJSON user.id
  require (credentials ≠ []) .passkeyUnavailable
  let (credentialID, updated) ← found
    (env.finishLogin (toPasskeyUser user) credentials challenge.passkeySessionJSON responseJSON)
    .provider
  updatePasskey env user credentialID updated now
  completeMFA env sessionID challenge user now

def finalizeMFAPush (env : Env) (sessionID challengeID : String) :
    Service AuthnError AuthenticateResult := do
  let now ← Repository.now
  let challenge ← liveChallenge (trimSpace challengeID) now
  require (normalizePushStatus challenge.pushStatus ≠ .denied) .mfaPushRejected
  require (normalizePushStatus challenge.pushStatus = .approved) .mfaPushNotApproved
  let userID ← found (parseUserID (trimSpace challenge.userID)) .mfaChallengeExpired
  let user ← found (← call .store (Repository.findUserByID userID)) .invalidCredentials
  require (user.status = "active") .invalidCredentials
  completeMFA env sessionID challenge user now

end IdpServer.Authn
