import IdpServer.Authn.Login
import IdpServer.Http.Authorize

/-!
# Http.Login — the pages of a login

The login page validates `return_to` before the login and the address it ends with after it; the second page
goes by the challenge. Form tokens, cookies and texts are left out.
-/

namespace IdpServer.Http

open Conc Conc.Prog Go IdpServer.Authn

@[irreducible] def validateLocalRedirectTarget (urls : URLLibrary) (target : String) : Option String :=
  let target := trimSpace target
  if target = "" then some ""
  else if contains target "\\" || hasPrefix target "//" then none
  else do
    let u ← urls.parse target
    guard (u.scheme = "" ∧ u.host = "" ∧ u.user = none ∧ u.opaquePart = "")
    guard (hasPrefix u.path "/" = true)
    return urls.string u

section Validation

variable {urls : URLLibrary} {target result : String}

theorem validate_blank (h : trimSpace target = "") : validateLocalRedirectTarget urls target = some "" := by
  unfold validateLocalRedirectTarget
  exact if_pos h

theorem validate_eq_some (h : trimSpace target ≠ "") :
    validateLocalRedirectTarget urls target = some result ↔
      contains (trimSpace target) "\\" = false ∧ hasPrefix (trimSpace target) "//" = false ∧
      ∃ u, urls.parse (trimSpace target) = some u ∧
        (u.scheme = "" ∧ u.host = "" ∧ u.user = none ∧ u.opaquePart = "") ∧
        hasPrefix u.path "/" = true ∧ urls.string u = result := by
  unfold validateLocalRedirectTarget
  rw [if_neg h]
  cases hlocal : (contains (trimSpace target) "\\" || hasPrefix (trimSpace target) "//") with
  | true =>
    rcases Bool.or_eq_true_iff.mp hlocal with hlocal | hlocal <;> simp [hlocal]
  | false =>
    obtain ⟨hbackslash, hslashes⟩ := Bool.or_eq_false_iff.mp hlocal
    simp [hbackslash, hslashes, Option.bind_eq_some_iff, Option.guard_eq_some']

end Validation

def roleHome (roleCode : String) : String :=
  match toLower (trimSpace roleCode) with
  | "end_user" => "/"
  | "support" => "/admin/workbench/support"
  | "oauth_admin" => "/admin/workbench/oauth"
  | "security_admin" => "/admin/workbench/security"
  | "super_admin" => "/admin"
  | _ => ""

def resolveBrowserPostLoginRedirect (returnTo upstreamRedirectURI roleCode : String) : String :=
  ((nonblank returnTo).or (nonblank upstreamRedirectURI)).getD (roleHome roleCode)

def buildMFASetupURI (urls : URLLibrary) (returnTo : String) : String :=
  if returnTo = "" then "/mfa/passkey/setup" else withReturnTo urls "/mfa/passkey/setup" returnTo

def defaultPostLoginRedirect : String := "/"

/-- What becomes of a visit to one of the pages. -/
inductive LoginReply where
  | page
  | upstream (target : String)
  | secondFactor
  | finished (target : String)
  | stays
  deriving DecidableEq, Repr

/-! ## The first page -/

def writeOutcome (urls : URLLibrary) (returnTo : String) : LoginOutcome → LoginReply
  | .redirect uri => .upstream uri
  | .mfaRequired _ => .secondFactor
  | .mfaEnrollmentRequired _ => .finished (buildMFASetupURI urls returnTo)
  | .session result =>
    let target := resolveBrowserPostLoginRedirect returnTo result.redirectURI result.roleCode
    match validateLocalRedirectTarget urls target with
    | none => .page
    | some target => if target = "" then .stays else .finished target

/-- `Handle` of the login page, with the request as the input of `Authenticate`. -/
def login (env : BrowserEnv) (draws : LoginDraws) (answer : Except AuthnError ConnectorResult)
    (request : AuthenticateInput) : Prog World Label LoginReply :=
  match validateLocalRedirectTarget env.urls request.returnTo with
  | none => return .page
  | some returnTo => do
    match ← (authenticate env.toEnv draws answer { request with returnTo := returnTo }).run with
    | .error _ => return .page
    | .ok outcome => return writeOutcome env.urls returnTo outcome

/-! ## The second page -/

def resumeTarget (result : AuthenticateResult) : String :=
  resolveBrowserPostLoginRedirect result.returnTo result.redirectURI result.roleCode

def resumeTargetOrHome (result : AuthenticateResult) : String :=
  if resumeTarget result = "" then defaultPostLoginRedirect else resumeTarget result

def writeVerified (urls : URLLibrary) (html : Bool) (result : AuthenticateResult) : LoginReply :=
  if result.mfaEnrollmentRequired then .finished (buildMFASetupURI urls (resumeTarget result))
  else if resumeTarget result ≠ "" then .finished (resumeTarget result)
  else if html then .finished defaultPostLoginRedirect else .stays

def loginTOTP (env : BrowserEnv) (html : Bool) (sessionID challengeID code : String) :
    Prog World Label LoginReply := do
  match ← (verifyTOTP env.toEnv sessionID challengeID code).run with
  | .error _ => return .page
  | .ok result => return writeVerified env.urls html result

def loginPasskeyBegin (env : BrowserEnv) (challengeID : String) : Prog World Label LoginReply := do
  let _ ← (beginMFAPasskey env.toEnv challengeID).run
  return .page

def loginPasskeyFinish (env : BrowserEnv) (sessionID challengeID responseJSON : String) :
    Prog World Label LoginReply := do
  if trimSpace responseJSON = "" then return .page
  else
    match ← (verifyMFAPasskey env.toEnv sessionID challengeID (trimSpace responseJSON)).run with
    | .error _ => return .page
    | .ok result => return .finished (resumeTargetOrHome result)

def loginPushDecision (env : BrowserEnv) (challengeID approverSessionID action matchCode : String) :
    Prog World Label LoginReply := do
  let _ ← (decideMFAPush env.toEnv challengeID approverSessionID action matchCode).run
  return .page

/-- `writePushStatus`: a login that was approved is finished by the poll that notices. -/
def loginPushStatus (env : BrowserEnv) (sessionID challengeID : String) :
    Prog World Label LoginReply := do
  if trimSpace challengeID = "" then return .page
  else
    match ← (pollMFAChallenge challengeID).run with
    | .error _ => return .page
    | .ok state =>
      if state.mfaMode = .pushTOTPFallback ∧ state.pushStatus = .approved then
        match ← (finalizeMFAPush env.toEnv sessionID challengeID).run with
        | .error _ => return .page
        | .ok result => return .finished (resumeTargetOrHome result)
      else return .page

end IdpServer.Http
