import IdpServer.Go.Text
import IdpServer.Go.Time

/-!
# Cache.Token — tokens in Redis

Tokens under their digest. The hash of a refresh token carries its place in a rotation, on which three Lua
scripts work; to them a missing field and an empty one are the same.
-/

namespace IdpServer.Cache

open Go Store

inductive RefreshStatus where
  | active
  | rotated
  | revoked
  | compromised
  deriving DecidableEq, Repr

structure RefreshTokenHash where
  clientID : String := ""
  userID : String := ""
  subject : String := ""
  scopesJSON : String := ""
  issuedAt : Int := zeroTime
  expiresAt : Int := zeroTime
  status : Option RefreshStatus := none
  revoked : Bool := false
  familyID : String := ""
  rotatedFrom : String := ""
  rotatedTo : String := ""
  rotatedAt : Int := 0
  graceUntil : Int := 0
  bindFP : String := ""
  deriving DecidableEq, Repr

/-- The status, or what the older fields say when there is none. -/
def RefreshTokenHash.effectiveStatus (h : RefreshTokenHash) : RefreshStatus :=
  match h.status with
  | some s => s
  | none => if h.revoked then .revoked else if h.rotatedTo ≠ "" then .rotated else .active

/-- The family of a token: the one its hash names, or the token itself. -/
def RefreshTokenHash.family (h : RefreshTokenHash) (tokenSHA256 : String) : String :=
  if h.familyID = "" then tokenSHA256 else h.familyID

def RefreshTokenHash.inGrace (h : RefreshTokenHash) (nowTS : Int) (fp : String) : Bool :=
  nowTS ≤ h.graceUntil && (h.bindFP = "" || h.bindFP = fp)

structure RefreshTokenCacheEntry where
  tokenSHA256 : String
  clientID : String
  userID : String
  subject : String
  scopesJSON : String
  familyID : String
  issuedAt : Int
  expiresAt : Int
  deriving DecidableEq, Repr

structure AccessTokenHash where
  clientID : String := ""
  userID : String := ""
  subject : String := ""
  scopesJSON : String := ""
  audienceJSON : String := ""
  tokenType : String := ""
  tokenFormat : String := ""
  issuedAt : Int := zeroTime
  expiresAt : Int := zeroTime
  revoked : Bool := false
  deriving DecidableEq, Repr

structure TokenResponse where
  accessToken : String
  tokenType : String
  expiresIn : Int
  refreshToken : String
  scope : String
  idToken : String
  deriving DecidableEq, Repr

/-- The keys of the token cache, each by the digest of a token; `familyRevoked` by the family. -/
structure TokenCache where
  access : Keyspace String AccessTokenHash
  refresh : Keyspace String RefreshTokenHash
  grace : Keyspace String TokenResponse
  familyRevoked : Keyspace String Unit
  revokedAccess : Keyspace String Unit
  revokedRefresh : Keyspace String Unit

namespace TokenCache

def empty : TokenCache := ⟨.empty, .empty, .empty, .empty, .empty, .empty⟩

/-! ## Saving -/

def saveAccessToken (c : TokenCache) (now : Int) (sha : String) (e : AccessTokenHash) (ttl : Int) :
    TokenCache :=
  let e := { e with
    issuedAt := wholeSeconds e.issuedAt, expiresAt := wholeSeconds e.expiresAt, revoked := false }
  { c with access := (c.access.alter now sha fun _ => e).expireCommand now sha (durationSeconds ttl) }

/-- `SaveRefreshToken`: the fields of a token that has not been rotated; a token without a family
starts its own. -/
def saveRefreshToken (c : TokenCache) (now : Int) (e : RefreshTokenCacheEntry) (ttl : Int) :
    TokenCache :=
  let fields (old : Option RefreshTokenHash) : RefreshTokenHash :=
    { old.getD {} with
      clientID := e.clientID, userID := e.userID, subject := e.subject, scopesJSON := e.scopesJSON
      issuedAt := wholeSeconds e.issuedAt, expiresAt := wholeSeconds e.expiresAt
      status := some .active, revoked := false
      familyID := if e.familyID = "" then e.tokenSHA256 else e.familyID
      rotatedTo := "" }
  { c with
    refresh := (c.refresh.alter now e.tokenSHA256 fields).expireCommand now e.tokenSHA256
      (durationSeconds ttl) }

/-! ## The replay check -/

inductive ReplayResult where
  | none
  | grace (response : TokenResponse)
  | rejected
  deriving DecidableEq, Repr

/-- The time to live the family key gets: what is left of the presented token's hash. -/
def familyTTL (c : TokenCache) (now : Int) (sha : String) : Int :=
  if c.refresh.ttl now sha ≤ 0 then 60 else c.refresh.ttl now sha

/-- `check_refresh_replay.lua`. The clock `now` is Redis's, `nowTS` the caller's reading. -/
def checkRefreshReplay (c : TokenCache) (now : Int) (sha : String) (nowTS : Int) (fp : String) :
    ReplayResult × TokenCache :=
  match c.refresh.get now sha with
  | Option.none => (.none, c)
  | some h =>
    let family := h.family sha
    if c.familyRevoked.has now family then (.rejected, c)
    else
      match h.effectiveStatus with
      | .active => (.none, c)
      | .rotated =>
        if h.inGrace nowTS fp then
          match c.grace.get now sha with
          | some response => (.grace response, c)
          | Option.none => (.rejected, c)
        else
          -- reuse of a rotated token: the family is revoked
          (.rejected, { c with
            familyRevoked := c.familyRevoked.put family () (some (now + c.familyTTL now sha * second))
            refresh := c.refresh.alter now sha fun old =>
              { old.getD {} with status := some .compromised } })
      | .revoked => (.rejected, c)
      | .compromised => (.rejected, c)

/-! ## Rotation -/

inductive RotateReply where
  | rotated
  | notFound
  | alreadyRotated
  | familyRevoked
  deriving DecidableEq, Repr

/-- `rotate_token.lua`, with times to live in seconds. -/
def rotateToken (c : TokenCache) (now : Int) (oldSHA : String) (new : RefreshTokenCacheEntry)
    (response : TokenResponse) (fp : String) (newTTL graceTTL nowTS : Int) :
    RotateReply × TokenCache :=
  match c.refresh.get now oldSHA with
  | Option.none => (.notFound, c)
  | some h =>
    if h.effectiveStatus ≠ .active then (.alreadyRotated, c)
    else
      let family := h.family oldSHA
      if c.familyRevoked.has now family then (.familyRevoked, c)
      else
        let old : RefreshTokenHash :=
          { h with status := some .rotated, rotatedTo := new.tokenSHA256, rotatedAt := nowTS
                   graceUntil := nowTS + graceTTL, bindFP := fp, familyID := family }
        let fresh : RefreshTokenHash :=
          { clientID := new.clientID, userID := new.userID, subject := new.subject
            scopesJSON := new.scopesJSON, issuedAt := wholeSeconds new.issuedAt
            expiresAt := wholeSeconds new.expiresAt, status := some .active, revoked := false
            familyID := family, rotatedFrom := oldSHA, rotatedTo := "", rotatedAt := 0
            graceUntil := 0, bindFP := "" }
        (.rotated, { c with
          refresh := ((c.refresh.alter now oldSHA fun _ => old).alter now new.tokenSHA256
            fun _ => fresh).expireIn now new.tokenSHA256 newTTL
          grace := c.grace.put oldSHA response
            (if graceTTL > 0 then some (now + graceTTL * second) else Option.none) })

/-- **What the replay check does.** It changes nothing, or it finds a rotated token presented by
somebody else or too late, and revokes the family. -/
theorem checkRefreshReplay_cases (c : TokenCache) (now : Int) (sha : String) (nowTS : Int)
    (fp : String) :
    (c.checkRefreshReplay now sha nowTS fp).2 = c ∨
    ∃ h, c.refresh.get now sha = some h ∧ c.familyRevoked.has now (h.family sha) = false ∧
      h.effectiveStatus = .rotated ∧ h.inGrace nowTS fp = false ∧
      c.checkRefreshReplay now sha nowTS fp = (.rejected, { c with
        familyRevoked := c.familyRevoked.put (h.family sha) ()
          (some (now + c.familyTTL now sha * second))
        refresh := c.refresh.alter now sha fun old =>
          { old.getD {} with status := some .compromised } }) := by
  unfold checkRefreshReplay
  split
  next => exact .inl rfl
  next h hh =>
    dsimp only
    split
    next => exact .inl rfl
    next hfamily =>
      split
      next => exact .inl rfl
      next hstatus =>
        split
        next =>
          refine .inl ?_
          split <;> rfl
        next hgrace =>
          refine .inr ⟨h, hh, ?_, hstatus, ?_, rfl⟩
          · simpa using hfamily
          · simpa using hgrace
      next => exact .inl rfl
      next => exact .inl rfl

/-- **What a rotation does.** It is refused and changes nothing, or it finds an active token. -/
theorem rotateToken_cases (c : TokenCache) (now : Int) (oldSHA : String)
    (new : RefreshTokenCacheEntry) (response : TokenResponse) (fp : String)
    (newTTL graceTTL nowTS : Int) :
    ((c.rotateToken now oldSHA new response fp newTTL graceTTL nowTS).1 ≠ .rotated ∧
      (c.rotateToken now oldSHA new response fp newTTL graceTTL nowTS).2 = c) ∨
    ∃ h, c.refresh.get now oldSHA = some h ∧ h.effectiveStatus = .active ∧
      c.familyRevoked.has now (h.family oldSHA) = false ∧
      c.rotateToken now oldSHA new response fp newTTL graceTTL nowTS = (.rotated, { c with
        refresh := ((c.refresh.alter now oldSHA fun _ =>
            { h with status := some .rotated, rotatedTo := new.tokenSHA256, rotatedAt := nowTS
                     graceUntil := nowTS + graceTTL, bindFP := fp
                     familyID := h.family oldSHA }).alter now new.tokenSHA256 fun _ =>
            { clientID := new.clientID, userID := new.userID, subject := new.subject
              scopesJSON := new.scopesJSON, issuedAt := wholeSeconds new.issuedAt
              expiresAt := wholeSeconds new.expiresAt, status := some .active, revoked := false
              familyID := h.family oldSHA, rotatedFrom := oldSHA, rotatedTo := "", rotatedAt := 0
              graceUntil := 0, bindFP := "" }).expireIn now new.tokenSHA256 newTTL
        grace := c.grace.put oldSHA response
          (if graceTTL > 0 then some (now + graceTTL * second) else Option.none) }) := by
  unfold rotateToken
  split
  next => exact .inl ⟨by simp, rfl⟩
  next h hh =>
    split
    next => exact .inl ⟨by simp, rfl⟩
    next hstatus =>
      dsimp only
      split
      next => exact .inl ⟨by simp, rfl⟩
      next hfamily =>
        refine .inr ⟨h, hh, ?_, ?_, rfl⟩
        · simpa using hstatus
        · simpa using hfamily

@[simp] theorem checkRefreshReplay_revokedAccess (c : TokenCache) (now : Int) (sha : String)
    (nowTS : Int) (fp : String) :
    (c.checkRefreshReplay now sha nowTS fp).2.revokedAccess = c.revokedAccess := by
  simp only [checkRefreshReplay]
  repeat' split
  all_goals rfl

@[simp] theorem rotateToken_revokedAccess (c : TokenCache) (now : Int) (oldSHA : String)
    (new : RefreshTokenCacheEntry) (response : TokenResponse) (fp : String)
    (newTTL graceTTL nowTS : Int) :
    (c.rotateToken now oldSHA new response fp newTTL graceTTL nowTS).2.revokedAccess =
      c.revokedAccess := by
  simp only [rotateToken]
  repeat' split
  all_goals rfl

variable {c : TokenCache} {now : Int} {sha : String} {nowTS : Int} {fp : String}
variable {response : TokenResponse}

theorem checkRefreshReplay_eq_grace
    (h : (c.checkRefreshReplay now sha nowTS fp).1 = .grace response) :
    c.grace.get now sha = some response ∧ ∃ hash, c.refresh.get now sha = some hash ∧
      c.familyRevoked.has now (hash.family sha) = false ∧ hash.effectiveStatus = .rotated ∧
      hash.inGrace nowTS fp = true := by
  unfold checkRefreshReplay at h
  split at h
  next => cases h
  next hash hhash =>
    dsimp only at h
    split at h
    next => cases h
    next hfamily =>
      cases hstatus : hash.effectiveStatus <;> rw [hstatus] at h
      case rotated =>
        dsimp only at h
        split at h
        next hgrace =>
          split at h
          next response' hresponse =>
            cases h
            exact ⟨hresponse, hash, hhash, by simpa using hfamily, hstatus, hgrace⟩
          next => cases h
        next => cases h
      all_goals cases h

theorem grace_of_checkRefreshReplay
    (h : (c.checkRefreshReplay now sha nowTS fp).1 = .grace response) :
    c.grace.get now sha = some response :=
  (checkRefreshReplay_eq_grace h).1

@[simp] theorem checkRefreshReplay_grace (c : TokenCache) (now : Int) (sha : String) (nowTS : Int)
    (fp : String) : (c.checkRefreshReplay now sha nowTS fp).2.grace = c.grace := by
  simp only [checkRefreshReplay]
  repeat' split
  all_goals rfl

theorem grace_of_rotateToken {oldSHA : String} {new : RefreshTokenCacheEntry}
    {newTTL graceTTL : Int} {k : String} {e : Entry TokenResponse}
    (h : (c.rotateToken now oldSHA new response fp newTTL graceTTL nowTS).2.grace k = some e) :
    e.value = response ∨ c.grace k = some e := by
  unfold rotateToken at h
  split at h
  · exact .inr h
  · dsimp only at h
    split at h
    · exact .inr h
    · split at h
      · exact .inr h
      · exact Keyspace.put_eq_some h

/-! ## Revocation -/

def marker (now ttl : Int) : Option Int := if ttl > 0 then some (now + ttl * second) else Option.none

def revokeAccessToken (c : TokenCache) (now : Int) (sha : String) (ttl : Int) : TokenCache :=
  { c with
    access := if c.access.has now sha then
        c.access.alter now sha fun old => { old.getD {} with revoked := true }
      else c.access
    revokedAccess := c.revokedAccess.put sha () (marker now (durationSeconds ttl)) }

/-- `RevokeRefreshToken`: `revoke_token.lua` on the refresh token keys. It leaves `status` as it
is. -/
def revokeRefreshToken (c : TokenCache) (now : Int) (sha : String) (ttl : Int) : TokenCache :=
  { c with
    refresh := if c.refresh.has now sha then
        c.refresh.alter now sha fun old => { old.getD {} with revoked := true }
      else c.refresh
    revokedRefresh := c.revokedRefresh.put sha () (marker now (durationSeconds ttl)) }

def isAccessTokenRevoked (c : TokenCache) (now : Int) (sha : String) : Bool :=
  c.revokedAccess.has now sha

end TokenCache

end IdpServer.Cache
