import IdpServer.Repository

/-!
# Enrolment.Service — setting up a second factor

A new TOTP secret waits under the session for its first code. A passkey registration waits **in the place of a
login challenge**, told apart by its mode alone.
-/

namespace IdpServer.Enrolment

open Conc Conc.Prog IdpServer.Cache Go Store

/-- The errors of the two services. -/
inductive EnrolmentError where
  | loginRequired
  | enrollmentExpired
  | invalidTOTPCode
  | totpCodeReused
  | passkeyDisabled
  | passkeySetupExpired
  | passkeyCredentialSave
  | state (e : StateError)
  | provider
  | store
  deriving DecidableEq, Repr

/-- The user behind an active cache entry, as far as there is one. `userID` reads the cached id. -/
def cachedUser (userID : SessionCacheEntry → Option Int) (entry : Option SessionCacheEntry)
    (now : Int) : Service EnrolmentError (Option (SessionCacheEntry × User)) :=
  match entry.filter (isSessionEntryActive · now) with
  | none => pure none
  | some e =>
    match userID e with
    | none => pure none
    | some id => Option.map (e, ·) <$> call .store (Repository.findUserByID id)

def rowUser (env : Env) (sessionID : String) (now : Int) :
    Service EnrolmentError (Session × User) := do
  let row ← found (← call .store (Repository.findBySessionID env sessionID)) .loginRequired
  require (row.loggedOutAt = none ∧ now < row.expiresAt) .loginRequired
  let user ← found (← call .store (Repository.findUserByID row.userID)) .loginRequired
  return (row, user)

structure MFAAuthContext where
  sessionID : String
  userID : Int
  subject : String
  username : String
  email : String
  ipAddress : String
  userAgent : String
  deriving DecidableEq, Repr

/-- `loadUser` of the TOTP service. From the row, a blank subject falls back to that of the
session. -/
def loadMFAUser (env : Env) (sessionID : String) : Service EnrolmentError MFAAuthContext := do
  let sessionID ← found (nonblank sessionID) .loginRequired
  let now ← Repository.now
  let entry ← call .store (Repository.getSession sessionID)
  match ← cachedUser (fun e => parseUserID e.userID) entry now with
  | some (e, user) =>
    return ⟨sessionID, user.id, user.userUUID, user.username, user.email, e.ipAddress, e.userAgent⟩
  | none =>
    let (row, user) ← rowUser env sessionID now
    let subject := (nonblank user.userUUID).getD (trimSpace row.subject)
    return ⟨sessionID, user.id, subject, user.username, user.email, row.ipAddress, row.userAgent⟩

def loadPasskeyUser (env : Env) (sessionID : String) : Service EnrolmentError User := do
  let sessionID ← found (nonblank sessionID) .loginRequired
  let now ← Repository.now
  let entry ← call .store (Repository.getSession sessionID)
  match ← cachedUser (fun e => parseUserID (trimSpace e.userID)) entry now with
  | some (_, user) => return user
  | none => return (← rowUser env sessionID now).2

/-! ## TOTP -/

inductive SetupResult where
  | alreadyEnabled
  | started (secret provisioningURI : String)
  deriving DecidableEq, Repr

structure ConfirmResult where
  enabled : Bool
  totpRequired : Bool := false
  mfaChallengeID : String := ""
  redirectURI : String := ""
  returnTo : String := ""
  deriving DecidableEq, Repr

def beginTOTPSetup (env : Env) (secret sessionID : String) : Service EnrolmentError SetupResult := do
  let user ← loadMFAUser env sessionID
  match ← call .store (Repository.findTOTPByUserID user.userID) with
  | some _ => return .alreadyEnabled
  | none =>
    let accountName := (nonblank user.email).elim user.username fun _ => user.email
    let provisioningURI := env.provisioningURI accountName secret
    let ttl := if env.totpSetupTTL ≤ 0 then 600 * second else env.totpSetupTTL
    let now ← Repository.now
    call .store (Repository.saveTOTPEnrollment
      ⟨trimSpace sessionID, formatInt user.userID, secret, provisioningURI, now + ttl⟩ ttl)
    return .started secret provisioningURI

def loginChallengeTTL : Int := 300 * second

def createLoginChallenge (challengeID : String) (user : MFAAuthContext) (returnTo : String)
    (now : Int) : Service EnrolmentError Unit := do
  let entry : MFAChallengeEntry := {
    challengeID := challengeID
    userID := formatInt user.userID
    subject := user.subject
    username := user.username
    ipAddress := user.ipAddress
    userAgent := user.userAgent
    returnTo := returnTo
    redirectURI := returnTo
    mfaMode := ""
    pushStatus := ""
    pushCode := ""
    approverUserID := ""
    decidedAt := zeroTime
    passkeySessionJSON := ""
    expiresAt := now + loginChallengeTTL
    stateMask := 0#32
    stateVersion := 0 }
  match ← call .store (Repository.saveMFAChallenge entry loginChallengeTTL) with
  | .ok () => return
  | .error e => throw (.state e)

def invalidateCurrentSession (env : Env) (user : MFAAuthContext) (now : Int) :
    Service EnrolmentError Unit := do
  call .store (Repository.logoutBySessionID env user.sessionID now)
  call .store (Repository.deleteSession user.sessionID)
  call .store (Repository.removeUserSessionIndex (formatInt user.userID) user.sessionID)

/-- The session is exchanged for a challenge, to log in again with the second factor. -/
def challengeAgain (env : Env) (challengeID : String) (user : MFAAuthContext) (returnTo : String)
    (now : Int) : Service EnrolmentError ConfirmResult := do
  createLoginChallenge challengeID user returnTo now
  invalidateCurrentSession env user now
  return {
    enabled := true
    totpRequired := true
    mfaChallengeID := challengeID
    redirectURI := "/login/totp"
    returnTo := returnTo }

def totpPurposeEnable2FA : String := "enable_2fa"
def totpStepReplayTTL : Int := 120 * second

def confirmTOTPSetup (env : Env) (challengeID sessionID code returnTo : String) :
    Service EnrolmentError ConfirmResult := do
  let user ← loadMFAUser env sessionID
  let now ← Repository.now
  let entry ← found (← call .store (Repository.getTOTPEnrollment (trimSpace sessionID)))
    .enrollmentExpired
  require (now < entry.expiresAt) .enrollmentExpired
  require (entry.userID = formatInt user.userID) .enrollmentExpired
  let step ← found (env.verifyCodeWithStep entry.secret code now) .invalidTOTPCode
  let reserved ← call .store (Repository.reserveTOTPStepUse (formatInt user.userID)
    totpPurposeEnable2FA step totpStepReplayTTL)
  require (reserved = true) .totpCodeReused
  call .store (Repository.upsertTOTP ⟨user.userID, entry.secret⟩)
  call .store (Repository.deleteTOTPEnrollment (trimSpace sessionID))
  match nonblank returnTo with
  | none => return { enabled := true }
  | some returnTo => challengeAgain env challengeID user returnTo now

def beginLoginChallenge (env : Env) (challengeID sessionID returnTo : String) :
    Service EnrolmentError ConfirmResult := do
  let user ← loadMFAUser env sessionID
  match nonblank returnTo with
  | none => return { enabled := true }
  | some returnTo =>
    let _ ← found (← call .store (Repository.findTOTPByUserID user.userID)) .enrollmentExpired
    let now ← Repository.now
    challengeAgain env challengeID user returnTo now

/-! ## Passkeys -/

def passkeySetupMFAMode : String := "passkey_setup"

/-- `toPasskeyUser` of the passkey service, where the id stands in for any missing text. -/
def toPasskeyUser (user : User) : PasskeyUser :=
  let name := (nonblank user.username).getD (formatInt user.id)
  ⟨(nonblank user.userUUID).getD (formatInt user.id), name, (nonblank user.displayName).getD name⟩

def credentialJSONList (credentials : List PasskeyCredential) : List String :=
  credentials.filterMap fun c => nonblank c.credentialJSON

structure BeginSetupResult where
  setupID : String
  optionsJSON : String
  expiresAt : Int
  deriving DecidableEq, Repr

def beginPasskeySetup (env : Env) (setupID sessionID : String) :
    Service EnrolmentError BeginSetupResult := do
  require (env.passkeyEnabled = true) .passkeyDisabled
  let user ← loadPasskeyUser env sessionID
  let existing ← call .store (Repository.listPasskeysByUserID user.id)
  let (options, session) ← found
    (env.beginRegistration (toPasskeyUser user) (credentialJSONList existing)) .provider
  let now ← Repository.now
  let ttl := if env.passkeySetupTTL ≤ 0 then 600 * second else env.passkeySetupTTL
  let entry : MFAChallengeEntry := {
    challengeID := setupID
    userID := formatInt user.id
    subject := user.userUUID
    username := user.username
    ipAddress := ""
    userAgent := ""
    returnTo := ""
    redirectURI := ""
    mfaMode := passkeySetupMFAMode
    pushStatus := ""
    pushCode := ""
    approverUserID := ""
    decidedAt := zeroTime
    passkeySessionJSON := session
    expiresAt := now + ttl
    stateMask := 0#32
    stateVersion := 0 }
  match ← call .store (Repository.saveMFAChallenge entry ttl) with
  | .ok () => return ⟨setupID, options, now + ttl⟩
  | .error e => throw (.state e)

def finishPasskeySetup (env : Env) (sessionID setupID responseJSON : String) :
    Service EnrolmentError String := do
  require (env.passkeyEnabled = true) .passkeyDisabled
  let user ← loadPasskeyUser env sessionID
  let challenge ← call .store (Repository.getMFAChallenge (trimSpace setupID))
  let now ← Repository.now
  let challenge ← found challenge .passkeySetupExpired
  require (now < challenge.expiresAt) .passkeySetupExpired
  require (equalFold (trimSpace challenge.mfaMode) passkeySetupMFAMode = true) .passkeySetupExpired
  require (trimSpace challenge.passkeySessionJSON ≠ "") .passkeySetupExpired
  require (trimSpace challenge.userID = formatInt user.id) .passkeySetupExpired
  let existing ← call .store (Repository.listPasskeysByUserID user.id)
  let (credentialID, credentialJSON) ← found (env.finishRegistration (toPasskeyUser user)
    (credentialJSONList existing) challenge.passkeySessionJSON responseJSON) .provider
  call .passkeyCredentialSave (Repository.upsertPasskey env
    ⟨user.id, credentialID, credentialJSON, none⟩)
  call .store (Repository.deleteMFAChallenge challenge.challengeID)
  return credentialID

end IdpServer.Enrolment
