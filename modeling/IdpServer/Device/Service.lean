import IdpServer.Repository

/-!
# Device.Service — device authorization in the browser

A device asks for a pair of codes (`start`), the user sees what it asks for (`prepare`) and decides
(`decide`). The poll is a grant of the token endpoint.
-/

namespace IdpServer.Device

open Conc Conc.Prog IdpServer.Cache Go Store

inductive DeviceError where
  | invalidUserCode
  | loginRequired
  | invalidAction
  | invalidClient
  | invalidScope
  | store
  deriving DecidableEq, Repr

structure StartResult where
  deviceCode : String
  userCode : String
  expiresAt : Int
  interval : Int
  clientID : String
  deriving DecidableEq, Repr

structure PrepareResult where
  userCode : String
  clientID : String
  clientName : String
  scopes : List String
  deriving DecidableEq, Repr

/-- The lifetime of a device code and the least time between two polls, as the server is wired. -/
def deviceTTL : Int := 600 * second
def pollInterval : Int := 5 * second

/-- `Start`: a pending authorization under the two codes drawn for it. -/
def start (env : Env) (deviceCode userCode clientID : String) (scopes : List String) :
    Service DeviceError StartResult := do
  let client ← call .store (Repository.findByClientID env (trimSpace clientID))
  let client ← found client .invalidClient
  require (client.status = "active" ∧
    "urn:ietf:params:oauth:grant-type:device_code" ∈ client.grantTypes) .invalidClient
  let scopes := if normalizeScopes scopes = [] then client.scopes else normalizeScopes scopes
  require (allContained scopes client.scopes = true) .invalidScope
  let now ← Repository.now
  let entry : DeviceCodeEntry := {
    deviceCode := deviceCode
    userCode := userCode
    clientID := client.clientID
    clientName := client.clientName
    scopesJSON := marshalStrings scopes
    status := .pending
    expiresAt := now + deviceTTL
    interval := pollInterval / second }
  call .store (Repository.saveDevice entry deviceTTL)
  return ⟨deviceCode, userCode, now + deviceTTL, pollInterval / second, client.clientID⟩

/-- Who is logged in: the user id and subject of an active session, from the cache or else from
its row. -/
def sessionUser (env : Env) (sessionID : String) : Service DeviceError (Int × String) := do
  let entry ← call .store (Repository.getSession sessionID)
  let now ← Repository.now
  let cached := (entry.filter (isSessionEntryActive · now)).bind fun e =>
    (parseUserID e.userID).map fun userID => (userID, e.subject)
  match cached with
  | some user => return user
  | none =>
    let row ← found (← call .store (Repository.findBySessionID env sessionID)) .loginRequired
    let later ← Repository.now
    require (row.loggedOutAt = none ∧ later < row.expiresAt) .loginRequired
    return (row.userID, row.subject)

def loadContext (env : Env) (sessionID userCode : String) :
    Service DeviceError (DeviceCodeEntry × Int × String) := do
  let userCode := toUpper (trimSpace userCode)
  require (userCode ≠ "") .invalidUserCode
  let entry ← found (← call .store (Repository.getByUserCode userCode)) .invalidUserCode
  let now ← Repository.now
  require (now < entry.expiresAt ∧ (entry.status = .blank ∨ entry.status = .pending))
    .invalidUserCode
  require (trimSpace sessionID ≠ "") .loginRequired
  let user ← sessionUser env (trimSpace sessionID)
  return (entry, user)

def prepare (env : Env) (sessionID userCode : String) : Service DeviceError PrepareResult := do
  let (entry, _) ← loadContext env sessionID userCode
  return ⟨entry.userCode, entry.clientID, entry.clientName, mustDecodeScopeJSON entry.scopesJSON⟩

inductive Decision where
  | approve
  | deny
  deriving DecidableEq, Repr

def parseDecision (action : String) : Option Decision :=
  if toLower (trimSpace action) = "approve" then some .approve
  else if toLower (trimSpace action) = "deny" then some .deny
  else none

/-- `Decide`: whether the device was approved. -/
def decide (env : Env) (sessionID userCode action : String) : Service DeviceError Bool := do
  let decision ← found (parseDecision action) .invalidAction
  let (entry, userID, subject) ← loadContext env sessionID userCode
  let now ← Repository.now
  match decision with
  | .deny =>
    call .store (Repository.denyDevice entry.userCode now)
    return false
  | .approve =>
    call .store (Repository.approveDevice entry.userCode (formatInt userID) subject now)
    return true

end IdpServer.Device
