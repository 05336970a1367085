import IdpServer.Authn.Service

/-!
# Authn.Login — the first factor

`Authenticate`: the password plugin with its rate limits, or the answer of a federated provider. That answer
is an argument, as is what is drawn at random.
-/

namespace IdpServer.Authn

open Conc Conc.Prog IdpServer.Cache Go Store

structure AuthenticateInput where
  method : String := ""
  username : String := ""
  password : String := ""
  redirectURI : String := ""
  returnTo : String := ""
  state : String := ""
  code : String := ""
  nonce : String := ""
  ipAddress : String := ""
  userAgent : String := ""

structure LoginDraws where
  sessionID : String
  challengeID : String
  pushCode : String
  userUUID : String
  deriving DecidableEq, Repr

/-- `AuthenticateResult` of an authentication method. -/
structure MethodResult where
  handled : Bool
  authenticated : Bool
  userID : Int := 0
  userStatus : String := ""
  subject : String := ""
  identityProvider : String := ""
  username : String := ""
  displayName : String := ""
  email : String := ""
  redirectURI : String := ""
  deriving DecidableEq, Repr

structure ConnectorResult where
  authenticated : Bool
  subject : String := ""
  username : String := ""
  displayName : String := ""
  email : String := ""
  redirectURI : String := ""
  deriving DecidableEq, Repr

structure MFARequiredResult where
  userID : Int
  subject : String
  redirectURI : String
  returnTo : String
  challengeID : String
  mfaMode : MFAMode
  passkeyAvailable : Bool
  pushStatus : PushStatus
  pushCode : String
  deriving DecidableEq, Repr

/-- How `Authenticate` ends when it does not fail. Two errors of the source come with a result and are ends
here: a second factor is required, or has to be enrolled. -/
inductive LoginOutcome where
  | redirect (uri : String)
  | session (result : AuthenticateResult)
  | mfaRequired (result : MFARequiredResult)
  | mfaEnrollmentRequired (result : AuthenticateResult)
  deriving DecidableEq, Repr

def resolveMethodType (input : AuthenticateInput) : Option AuthnMethodType :=
  let method := toLower (trimSpace input.method)
  if method ≠ "" then
    if method = "password" then some .password
    else if method = "federated_oidc" then some .federatedOIDC
    else none
  else if trimSpace input.username ≠ "" ∨ input.password ≠ "" then some .password
  else if trimSpace input.code ≠ "" ∨ trimSpace input.state ≠ "" ∨ trimSpace input.nonce ≠ "" then
    some .federatedOIDC
  else some .password

/-! ## Passwords -/

def lookupUserByUsername (env : Env) (username : String) : Service AuthnError (Option User) :=
  match nonblank username with
  | none => pure none
  | some name => call .store (Repository.findUserByUsername env name)

def checkIPLock (ipAddress : String) : Service AuthnError Unit :=
  match nonblank ipAddress with
  | none => pure ()
  | some ip => do
    let locked ← call .store (Repository.isIPLocked ip)
    require (locked = false) .rateLimited

def preparePasswordAuthentication (env : Env) (username ipAddress : String) :
    Service AuthnError (Option User) := do
  checkIPLock ipAddress
  match ← lookupUserByUsername env username with
  | none => return none
  | some user =>
    let locked ← call .store (Repository.isUserLocked (formatInt user.id))
    require (locked = false) .userLocked
    return some user

def passwordUser (env : Env) (username : String) (prefetched : Option User) :
    Service AuthnError (Option User) :=
  match prefetched with
  | some user => pure (some user)
  | none => call .store (Repository.findUserByUsername env (trimSpace username))

def passwordMethod (env : Env) (username password : String) (prefetched : Option User) :
    Service AuthnError MethodResult := do
  require (trimSpace username ≠ "" ∧ password ≠ "") .invalidCredentials
  let user ← found (← passwordUser env username prefetched) .invalidCredentials
  require (user.status ≠ "locked") .userLocked
  require (user.status = "" ∨ user.status = "active") .userDisabled
  let valid ← liftM (Repository.verifyPassword env user password)
  require (valid = true) .invalidCredentials
  return {
    handled := true
    authenticated := true
    userID := user.id
    userStatus := user.status
    subject := user.userUUID
    username := user.username
    displayName := user.displayName
    email := user.email }

def accountID (user : Option User) : String :=
  match user with
  | some u => if 0 < u.id then formatInt u.id else ""
  | none => ""

/-- The count of a failure under the typed name; the answer is whether the account is now locked. -/
def countUserFailure (env : Env) (username userID : String) : Service AuthnError Bool :=
  let policy := env.ratePolicy
  provided (0 < policy.failureWindow ∧ 0 < policy.maxFailuresPerUser ∧ username ≠ "") false <|
    (·.locked) <$> call .store (Repository.incrementLoginFailByUser username userID
      policy.failureWindow policy.userLockThreshold policy.userLockTTL)

def countIPFailure (env : Env) (ipAddress : String) : Service AuthnError Bool :=
  let policy := env.ratePolicy
  provided (0 < policy.failureWindow ∧ 0 < policy.maxFailuresPerIP ∧ ipAddress ≠ "") false <|
    (·.locked) <$> call .store (Repository.incrementLoginFailByIP ipAddress policy.failureWindow
      policy.maxFailuresPerIP policy.userLockTTL)

def countBlacklist (env : Env) (username userID : String) : Service AuthnError Bool :=
  let policy := env.ratePolicy
  provided (userID ≠ "" ∧ username ≠ "" ∧ 0 < policy.permanentUserLockThreshold) false <|
    (·.locked) <$> call .store (Repository.incrementBlacklistByUser username userID
      policy.permanentUserLockThreshold)

/-- The lock in the database; if it cannot be written the one in the cache is taken back. -/
def lockForGood (user : Option User) : Service AuthnError AuthnError :=
  match user with
  | none => throw .store
  | some u => do
    match ← liftM (call AuthnError.store (Repository.lockAccount u.id)).run with
    | .ok () => return .userLocked
    | .error e =>
      attempt (Repository.clearUserLock (formatInt u.id))
      throw e

def registerPasswordFailure (env : Env) (username ipAddress : String) (user : Option User) :
    Service AuthnError AuthnError := do
  match ← countUserFailure env (trimSpace username) (accountID user) with
  | true => return .userLocked
  | false =>
    match ← countIPFailure env (trimSpace ipAddress) with
    | true => return .rateLimited
    | false =>
      match ← countBlacklist env (trimSpace username) (accountID user) with
      | true => lockForGood user
      | false => return .invalidCredentials

def passwordFactor (env : Env) (input : AuthenticateInput) : Service AuthnError MethodResult := do
  let user ← preparePasswordAuthentication env input.username input.ipAddress
  match ← liftM (passwordMethod env input.username input.password user).run with
  | .ok result => return result
  | .error .invalidCredentials =>
    throw (← registerPasswordFailure env input.username input.ipAddress user)
  | .error e => throw e

def resetUserLimits (username : String) : Service AuthnError Unit :=
  match nonblank username with
  | none => pure ()
  | some name => do
    call .store (Repository.resetLoginFailByUser name)
    call .store (Repository.resetBlacklistByUser name)

def resetIPLimits (ipAddress : String) : Service AuthnError Unit :=
  match nonblank ipAddress with
  | none => pure ()
  | some ip => do
    call .store (Repository.resetLoginFailByIP ip)
    call .store (Repository.clearIPLock ip)

def resetPasswordRateLimit (username ipAddress : String) : Service AuthnError Unit := do
  resetUserLimits username
  resetIPLimits ipAddress

/-! ## Providers -/

def federatedMethod (answer : Except AuthnError ConnectorResult) : Service AuthnError MethodResult :=
  match answer with
  | .error e => throw e
  | .ok r => return {
      handled := true
      authenticated := r.authenticated
      subject := r.subject
      identityProvider := "federated_oidc"
      username := r.username
      displayName := r.displayName
      email := r.email
      redirectURI := r.redirectURI }

def federatedSubjectUserUUID (env : Env) (identityProvider subject : String) : String :=
  if trimSpace subject = "" then ""
  else env.newSHA1 (trimSpace identityProvider ++ "|" ++ trimSpace subject)

def normalizeFederatedEmail (value : String) : String :=
  let value := toLower (trimSpace value)
  if value = "" ∨ contains value " " = true ∨ contains value "@" = false then "" else value

def findBySubject (env : Env) (result : MethodResult) : Service AuthnError (Option User) :=
  match nonblank result.subject with
  | none => pure none
  | some subject => do
    match ← call .store (Repository.findUserByUUID env subject) with
    | some user => return some user
    | none =>
      let federatedUUID := federatedSubjectUserUUID env result.identityProvider subject
      provided (federatedUUID ≠ "" ∧ federatedUUID ≠ subject) none <|
        call .store (Repository.findUserByUUID env federatedUUID)

def findByEmail (env : Env) (result : MethodResult) : Service AuthnError (Option User) :=
  provided (normalizeFederatedEmail result.email ≠ "") none <|
    call .store (Repository.findUserByEmail env (normalizeFederatedEmail result.email))

def namedUser (result : MethodResult) : User where
  id := result.userID
  userUUID := trimSpace result.subject
  username := trimSpace result.username
  email := trimSpace result.email
  emailVerified := false
  displayName := trimSpace result.displayName
  passwordHash := ""
  roleCode := ""
  privilegeMask := 0#32
  tenantScope := ""
  status := trimSpace result.userStatus

def resolveExistingUser (env : Env) (result : MethodResult) : Service AuthnError (Option User) :=
  if result.userID > 0 then pure (some (namedUser result))
  else do
    match ← findBySubject env result with
    | some user => return some user
    | none =>
      match ← lookupUserByUsername env result.username with
      | some user => return some user
      | none => findByEmail env result

/-! ### New accounts -/

def trimUsernameTo (value : String) (limit : Nat) : String :=
  String.ofList (value.toList.take limit)

def usernameChar (c : Char) : Char :=
  if 'a' ≤ c ∧ c ≤ 'z' ∨ '0' ≤ c ∧ c ≤ '9' ∨ c = '.' ∨ c = '_' ∨ c = '-' then c else '_'

def usernameSeparator (c : Char) : Bool := c = '.' || c = '_' || c = '-'

def sanitizeFederatedUsername (value : String) : String :=
  let value := toLower (trimSpace value)
  if value = "" then ""
  else
    let kept := (value.toList.map usernameChar).take 32
    let trimmed := ((kept.dropWhile usernameSeparator).reverse.dropWhile usernameSeparator).reverse
    trimUsernameTo (String.ofList (trimmed ++ List.replicate (3 - trimmed.length) 'x')) 32

def emailName (email : String) : String :=
  let name := String.ofList (email.toList.takeWhile (· ≠ '@'))
  if name = "" ∨ name = email then email else name

def candidateFederatedUsername (env : Env) (result : MethodResult) (userUUID : String) : String :=
  if trimSpace result.username ≠ "" then trimSpace result.username
  else if normalizeFederatedEmail result.email ≠ "" then
    emailName (normalizeFederatedEmail result.email)
  else if trimSpace result.displayName ≠ "" then trimSpace result.displayName
  else if trimSpace result.subject ≠ "" then
    "oidc_" ++ env.sha1Prefix (trimSpace result.subject)
  else if trimSpace userUUID ≠ "" then
    "oidc_" ++ String.ofList ((trimSpace userUUID).toList.filter (· ≠ '-'))
  else "oidc_user"

/-- The names that are tried in turn: the plain one, then with a number of two digits. -/
def usernameCandidate (base : String) (i : Nat) : String :=
  if i = 0 then base
  else
    let suffix := "_" ++ (if i < 10 then "0" else "") ++ toString i
    trimUsernameTo base (32 - suffix.length) ++ suffix

def firstFree (env : Env) : List String → Service AuthnError String
  | [] => throw .usernameExhausted
  | candidate :: rest => do
    match ← call .store (Repository.findUserByUsername env candidate) with
    | none => return candidate
    | some _ => firstFree env rest

def allocateFederatedUsername (env : Env) (result : MethodResult) (userUUID : String) :
    Service AuthnError String :=
  let name := sanitizeFederatedUsername (candidateFederatedUsername env result userUUID)
  let base := trimUsernameTo (if name = "" then "oidc_user" else name) 26
  firstFree env ((List.range 100).map (usernameCandidate base))

def federatedPasswordHashPlaceholder : String := "!federated_oidc_only"

def federatedUser (result : MethodResult) (userUUID username : String) : User where
  id := 0
  userUUID := userUUID
  username := username
  email := if normalizeFederatedEmail result.email = "" then userUUID ++ "@federated.local"
    else normalizeFederatedEmail result.email
  emailVerified := true
  displayName := if trimSpace result.displayName = "" then username else trimSpace result.displayName
  passwordHash := federatedPasswordHashPlaceholder
  roleCode := ""
  privilegeMask := 0#32
  tenantScope := ""
  status := "active"

def recoverFederatedUser (env : Env) (result : MethodResult) : Service AuthnError (Option User) := do
  match ← liftM (resolveExistingUser env result).run with
  | .ok (some user) => return some user
  | _ => throw .store

def provisionFederatedUser (env : Env) (draws : LoginDraws) (result : MethodResult) :
    Service AuthnError (Option User) :=
  match nonblank result.subject with
  | none => pure none
  | some subject => do
    let derived := federatedSubjectUserUUID env result.identityProvider subject
    let userUUID := if derived = "" then draws.userUUID else derived
    let username ← allocateFederatedUsername env result userUUID
    let created ← liftM (call AuthnError.store
      (Repository.createUser env (federatedUser result userUUID username))).run
    match created with
    | .ok (some user) => return some user
    | _ => recoverFederatedUser env result

def resolveUser (env : Env) (draws : LoginDraws) (method : AuthnMethodType)
    (result : MethodResult) : Service AuthnError (Option User) := do
  match ← resolveExistingUser env result, method with
  | none, .federatedOIDC => provisionFederatedUser env draws result
  | user, _ => return user

/-! ## The login -/

def challengeLogin (env : Env) (draws : LoginDraws) (input : AuthenticateInput) (user : User)
    (redirectURI : String) (passkeyAvailable : Bool) : Service AuthnError LoginOutcome := do
  let (challengeID, pushCode) ← createMFAChallenge env draws.challengeID draws.pushCode user
    input.ipAddress input.userAgent input.returnTo input.redirectURI
  let mode : MFAMode := if passkeyAvailable then .passkeyTOTPFallback else .totpOnly
  updateMFAChallengeMode challengeID mode.text
  return .mfaRequired {
    userID := user.id
    subject := user.userUUID
    redirectURI := redirectURI
    returnTo := input.returnTo
    challengeID := challengeID
    mfaMode := mode
    passkeyAvailable := passkeyAvailable
    pushStatus := .pending
    pushCode := pushCode }

def sessionLogin (env : Env) (draws : LoginDraws) (input : AuthenticateInput) (user : User)
    (method : AuthnMethodType) (redirectURI : String) (now : Int) :
    Service AuthnError AuthenticateResult :=
  createSession env draws.sessionID user method input.ipAddress input.userAgent redirectURI
    input.returnTo now

/-- After a password: the limits are reset, and a second factor is asked for if there is one. -/
def afterPassword (env : Env) (draws : LoginDraws) (input : AuthenticateInput) (user : User)
    (redirectURI : String) (now : Int) : Service AuthnError LoginOutcome := do
  resetPasswordRateLimit user.username input.ipAddress
  let credential ← lookupTOTP user.id
  let credentials ← lookupPasskeyCredentialJSON user.id
  let passkeyAvailable := !credentials.isEmpty && env.passkeyEnabled
  if credential.isSome || passkeyAvailable then
    challengeLogin env draws input user redirectURI passkeyAvailable
  else
    let result ← sessionLogin env draws input user .password redirectURI now
    if env.forceMFAEnrollment then
      return .mfaEnrollmentRequired { result with mfaEnrollmentRequired := true }
    else return .session result

def enter (env : Env) (draws : LoginDraws) (input : AuthenticateInput) (method : AuthnMethodType)
    (user : User) (redirectURI : String) : Service AuthnError LoginOutcome := do
  require (user.status ≠ "locked") .userLocked
  require (user.status = "" ∨ user.status = "active") .userDisabled
  let now ← Repository.now
  match method with
  | .password => afterPassword env draws input user redirectURI now
  | .federatedOIDC =>
    let result ← sessionLogin env draws input user .federatedOIDC redirectURI now
    return .session result

def firstFactor (env : Env) (answer : Except AuthnError ConnectorResult) (input : AuthenticateInput) :
    AuthnMethodType → Service AuthnError MethodResult
  | .password => passwordFactor env input
  | .federatedOIDC => federatedMethod answer

/-- `Authenticate`. A result that is not authenticated and has no address is one of a provider: the password
plugin answers with an error. -/
def authenticate (env : Env) (draws : LoginDraws) (answer : Except AuthnError ConnectorResult)
    (input : AuthenticateInput) : Service AuthnError LoginOutcome := do
  let method ← found (resolveMethodType input) .unsupportedMethod
  let result ← firstFactor env answer input method
  if result.redirectURI ≠ "" ∧ result.authenticated = false then
    return .redirect result.redirectURI
  else
    require (result.handled = true ∧ result.authenticated = true) .invalidCredentials
    let user ← resolveUser env draws method result
    let user ← found user .invalidCredentials
    enter env draws input method user result.redirectURI

end IdpServer.Authn
