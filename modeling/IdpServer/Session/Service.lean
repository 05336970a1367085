import IdpServer.Repository

/-!
# Session.Service — logging out

`logout` ends one session, `logoutAll` every session of its user and the user's tokens. Rows are marked first
and the cache cleared afterwards. The order of listed sessions is not modelled.
-/

namespace IdpServer.Session

open Conc Conc.Prog IdpServer.Cache Go

inductive SessionError where
  | store
  deriving DecidableEq, Repr

structure LogoutResult where
  sessionID : String := ""
  userID : String := ""
  deriving DecidableEq, Repr

structure LogoutAllResult where
  sessionID : String := ""
  userID : String := ""
  revokedSessionCount : Nat := 0
  revokedAccessTokens : Nat := 0
  revokedRefreshTokens : Nat := 0
  deriving DecidableEq, Repr

def logout (env : Env) (sessionID : String) : Service SessionError LogoutResult := do
  match nonblank sessionID with
  | none => return {}
  | some sessionID =>
    match ← call .store (Repository.findBySessionID env sessionID) with
    | none =>
      call .store (Repository.deleteSession sessionID)
      return {}
    | some session =>
      whenever (session.loggedOutAt = none) do
        let now ← Repository.now
        call .store (Repository.logoutBySessionID env sessionID now)
      call .store (Repository.deleteSession sessionID)
      return { sessionID := sessionID, userID := formatInt session.userID }

def sessionIDsToClear (active : List Session) (cached : List String) : List String :=
  (((active.map (·.sessionID) ++ cached).map trimSpace).filter (· ≠ "")).eraseDups

def clearSessions : List String → Service SessionError Unit
  | [] => pure ()
  | sessionID :: rest => do
    call .store (Repository.deleteSession sessionID)
    clearSessions rest

def markRevoked (revoke : String → Int → Action Unit) (revokedAt : Int) :
    List (String × Int) → Service SessionError Unit
  | [] => pure ()
  | (sha, expiresAt) :: rest => do
    whenever (expiresAt - revokedAt > 0) do
      call .store (revoke sha (expiresAt - revokedAt))
    markRevoked revoke revokedAt rest

def revokeUserTokens (userID revokedAt : Int) : Service SessionError (Nat × Nat) := do
  let accessTokens ← call .store (Repository.listActiveAccessTokensByUserID userID)
  let refreshTokens ← call .store (Repository.listActiveRefreshTokensByUserID userID)
  call .store (Repository.revokeAccessTokensByUserID userID revokedAt)
  call .store (Repository.revokeRefreshTokensByUserID userID revokedAt)
  markRevoked Repository.revokeAccessToken revokedAt
    (accessTokens.map fun t => (t.tokenSHA256, t.expiresAt))
  markRevoked Repository.revokeRefreshToken revokedAt
    (refreshTokens.map fun t => (t.tokenSHA256, t.expiresAt))
  return (accessTokens.length, refreshTokens.length)

def logoutUser (userID : Int) (sessionID : String) : Service SessionError LogoutAllResult := do
  let now ← Repository.now
  let active ← call .store (Repository.listActiveSessions userID)
  call .store (Repository.logoutAllByUserID userID now)
  let cached ← call .store (Repository.listUserSessionIDs (formatInt userID))
  let ids := sessionIDsToClear active cached
  clearSessions ids
  let (revokedAccess, revokedRefresh) ← revokeUserTokens userID now
  return {
    sessionID := sessionID
    userID := formatInt userID
    revokedSessionCount := ids.length
    revokedAccessTokens := revokedAccess
    revokedRefreshTokens := revokedRefresh }

def logoutAll (env : Env) (sessionID : String) : Service SessionError LogoutAllResult := do
  match nonblank sessionID with
  | none => return {}
  | some sessionID =>
    match ← call .store (Repository.findBySessionID env sessionID) with
    | none =>
      call .store (Repository.deleteSession sessionID)
      return { sessionID := sessionID }
    | some session => logoutUser session.userID sessionID

def adminLogoutUser (userID : Int) : Service SessionError LogoutAllResult :=
  if userID ≤ 0 then pure {} else logoutUser userID ""

end IdpServer.Session
