import IdpServer.Cache.Mfa

/-!
# Cache.Session — login sessions in Redis

A hash with the fields of a session, a packed pair with its state mask and version, and for each user an
index of session ids.
-/

namespace IdpServer.Cache

open Go Store

/-- The hash of a session. -/
structure SessionHash where
  userID : String
  subject : String
  acr : String
  amrJSON : String
  ipAddress : String
  userAgent : String
  authenticatedAt : Int
  expiresAt : Int
  status : String
  deriving DecidableEq, Repr

structure SessionCacheEntry extends SessionHash where
  sessionID : String
  stateMask : Mask
  stateVersion : Nat
  deriving DecidableEq, Repr

/-- `IsSessionEntryActive`, for an entry that is there. -/
def isSessionEntryActive (e : SessionCacheEntry) (now : Int) : Bool :=
  now < e.expiresAt && isSessionStateActive (normalizeSessionStateMask e.stateMask e.status)

def parseUserID (s : String) : Option Int := (parseInt s).filter (0 < ·)

/-- The keys of the session cache: hash and state by session id, the index by user id. -/
structure SessionCache where
  hash : Keyspace String SessionHash
  state : Keyspace String PackedState
  index : Keyspace String (List String)

namespace SessionCache

def empty : SessionCache := ⟨.empty, .empty, .empty⟩

/-- `save_session.lua`, with the time to live in seconds. The index lives at least as long as the
new session, as far as whole seconds tell. -/
def saveSession (c : SessionCache) (now : Int) (sessionID : String) (h : SessionHash) (ttl : Int)
    (mask : Mask) (version : Nat) : SessionCache :=
  let index := c.index.alter now h.userID fun old => (old.getD []).insert sessionID
  { hash := (c.hash.alter now sessionID fun _ => h).expireIn now sessionID ttl
    state := (c.state.alter now sessionID fun _ => ⟨mask, version⟩).expireIn now sessionID ttl
    index :=
      if ttl > 0 ∧ (index.ttl now h.userID < 0 ∨ index.ttl now h.userID < ttl) then
        index.expire now h.userID (now + ttl * second)
      else index }

def deleteSession (c : SessionCache) (now : Int) (sessionID userID : String) : SessionCache :=
  let index :=
    match c.index.get now userID with
    | none => c.index
    | some members =>
      if (members.erase sessionID).isEmpty then c.index.del userID
      else c.index.alter now userID fun _ => members.erase sessionID
  { hash := c.hash.del sessionID, state := c.state.del sessionID, index := index }

/-- `AddUserSessionIndex`: whatever the time to live of the index was, it is this one now. -/
def addUserSessionIndex (c : SessionCache) (now : Int) (userID sessionID : String) (ttl : Int) :
    SessionCache :=
  let index := c.index.alter now userID fun old => (old.getD []).insert sessionID
  { c with index := index.expireCommand now userID (durationSeconds ttl) }

def removeUserSessionIndex (c : SessionCache) (now : Int) (userID sessionID : String) :
    SessionCache :=
  match c.index.get now userID with
  | none => c
  | some members =>
    { c with index :=
        if (members.erase sessionID).isEmpty then c.index.del userID
        else c.index.alter now userID fun _ => members.erase sessionID }

def save (c : SessionCache) (now : Int) (e : SessionCacheEntry) (ttl : Int) : SessionCache :=
  let mask := normalizeSessionStateMask e.stateMask e.status
  let h := { e.toSessionHash with
    authenticatedAt := wholeSeconds e.authenticatedAt
    expiresAt := wholeSeconds e.expiresAt
    status := sessionStatusFromMask mask e.status }
  c.saveSession now e.sessionID h (durationSeconds ttl) mask
    (if e.stateVersion = 0 then 1 else e.stateVersion)

/-- `HMGET` of a session's hash. -/
def hmget (c : SessionCache) (now : Int) (sessionID : String) : Option SessionHash :=
  c.hash.get now sessionID

/-- `BITFIELD GET` of a session's state key. -/
def bitfield (c : SessionCache) (now : Int) (sessionID : String) : PackedState :=
  (c.state.get now sessionID).getD .zero

/-- `SMEMBERS` of a user's index. -/
def members (c : SessionCache) (now : Int) (userID : String) : List String :=
  (c.index.get now userID).getD []

/-! ### Reading after writing -/

theorem hmget_save_self (c : SessionCache) (now : Int) (e : SessionCacheEntry) (ttl : Int) :
    ∃ h, (c.save now e ttl).hmget now e.sessionID = some h ∧ h.userID = e.userID := by
  simp [save, saveSession, hmget]

theorem hmget_save_of_ne (c : SessionCache) (now : Int) (e : SessionCacheEntry) (ttl : Int)
    {s : String} (hs : s ≠ e.sessionID) : (c.save now e ttl).hmget now s = c.hmget now s := by
  simp [save, saveSession, hmget, hs]

end SessionCache

def sessionCacheEntry (sessionID : String) (h : SessionHash) (p : PackedState) :
    SessionCacheEntry :=
  let mask := normalizeSessionStateMask p.mask h.status
  { h with
    sessionID := sessionID
    status := sessionStatusFromMask mask h.status
    stateMask := mask
    stateVersion := p.version }

end IdpServer.Cache
