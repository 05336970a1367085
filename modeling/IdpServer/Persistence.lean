import Mathlib.Data.List.Nodup
import IdpServer.Cache.StateMask

/-!
# Persistence — the database tables

The rows and the SQL statements over them. Tables are lists in insertion order; ids count up. Text columns are
compared under the collation of the schema, an argument of those statements.
-/

namespace IdpServer

open Go IdpServer.Cache

/-- A registered client (`client.Model`), with the lists joined to it. -/
structure Client where
  id : Int
  clientID : String
  clientName : String
  clientSecretHash : String
  requirePKCE : Bool
  requireConsent : Bool
  accessTokenTTLSeconds : Int
  refreshTokenTTLSeconds : Int
  idTokenTTLSeconds : Int
  status : String
  redirectURIs : List String
  grantTypes : List String
  scopes : List String
  deriving DecidableEq, Repr

structure User where
  id : Int
  userUUID : String
  username : String
  email : String
  emailVerified : Bool
  displayName : String
  passwordHash : String
  roleCode : String
  privilegeMask : Mask
  tenantScope : String
  status : String
  deriving DecidableEq, Repr

structure OperatorRole where
  roleCode : String
  displayName : String
  description : String
  privilegeMask : Mask
  isSystem : Bool
  deriving DecidableEq, Repr

structure TOTPCredential where
  userID : Int
  secret : String
  deriving DecidableEq, Repr

structure PasskeyCredential where
  userID : Int
  credentialID : String
  credentialJSON : String
  lastUsedAt : Option Int
  deriving DecidableEq, Repr

/-- `session.Model`, a row of `login_sessions`. -/
structure Session where
  id : Int
  sessionID : String
  userID : Int
  subject : String
  acr : String
  amrJSON : String
  ipAddress : String
  userAgent : String
  authenticatedAt : Int
  expiresAt : Int
  loggedOutAt : Option Int
  deriving DecidableEq, Repr

structure AccessToken where
  id : Int
  tokenValue : String
  tokenSHA256 : String
  clientID : Int
  userID : Option Int
  subject : String
  audienceJSON : String
  scopesJSON : String
  tokenType : String
  tokenFormat : String
  issuedAt : Int
  expiresAt : Int
  revokedAt : Option Int
  deriving DecidableEq, Repr

structure RefreshToken where
  id : Int
  tokenValue : String
  tokenSHA256 : String
  clientID : Int
  userID : Option Int
  subject : String
  scopesJSON : String
  issuedAt : Int
  expiresAt : Int
  revokedAt : Option Int
  replacedByTokenID : Option Int
  deriving DecidableEq, Repr

def AccessToken.Usable (r : AccessToken) (now : Int) : Prop :=
  r.revokedAt = none ∧ now < r.expiresAt

instance (r : AccessToken) (now : Int) : Decidable (r.Usable now) := by
  unfold AccessToken.Usable; infer_instance

def RefreshToken.Usable (r : RefreshToken) (now : Int) : Prop :=
  r.revokedAt = none ∧ r.replacedByTokenID = none ∧ now < r.expiresAt

instance (r : RefreshToken) (now : Int) : Decidable (r.Usable now) := by
  unfold RefreshToken.Usable; infer_instance

structure AuthorizationCode where
  id : Int
  code : String
  clientDBID : Int
  userID : Int
  sessionDBID : Option Int
  redirectURI : String
  scopesJSON : String
  stateValue : String
  nonceValue : String
  codeChallenge : String
  codeChallengeMethod : String
  expiresAt : Int
  consumedAt : Option Int
  deriving DecidableEq, Repr

/-- A row of `oauth_consents`. -/
structure Consent where
  userID : Int
  clientID : Int
  scopesJSON : String
  revokedAt : Option Int
  deriving DecidableEq, Repr

structure Database where
  users : List User
  roles : List OperatorRole
  totps : List TOTPCredential
  passkeys : List PasskeyCredential
  sessions : List Session
  accessTokens : List AccessToken
  refreshTokens : List RefreshToken
  authCodes : List AuthorizationCode
  consents : List Consent

def nextID (ids : List Int) : Int := ids.foldr max 0 + 1

theorem nextID_pos (ids : List Int) : 0 < nextID ids := by
  have hle : 0 ≤ ids.foldr max 0 := by
    induction ids with
    | nil => exact Int.le_refl 0
    | cons id ids ih => exact Int.le_trans ih (Int.le_max_right ..)
  unfold nextID
  omega

theorem lt_nextID {ids : List Int} {id : Int} (h : id ∈ ids) : id < nextID ids := by
  have hle : id ≤ ids.foldr max 0 := by
    induction ids with
    | nil => cases h
    | cons head rest ih =>
      rcases List.mem_cons.mp h with rfl | h
      · exact Int.le_max_left _ _
      · exact Int.le_trans (ih h) (Int.le_max_right _ _)
  rw [nextID]
  omega

theorem find?_upserted {α : Type} {P : α → Prop} [DecidablePred P] {Q : α → Bool} {a : α}
    {rows : List α} (ha : Q a = true) (hkey : ∀ r ∈ rows, Q r = true → P r) :
    (if rows.any fun r => P r then rows.map fun r => if P r then a else r
      else rows ++ [a]).find? Q = some a := by
  split
  next hany =>
    induction rows with
    | nil => simp at hany
    | cons r rest ih =>
      rw [List.map_cons, List.find?_cons]
      by_cases hr : P r
      · rw [if_pos hr, ha]
      · have hQ : Q r = false := by
          by_contra hQ
          exact hr (hkey r List.mem_cons_self (by simpa using hQ))
        rw [if_neg hr, hQ]
        refine ih (fun r' hr' => hkey r' (List.mem_cons_of_mem r hr')) ?_
        simpa [hr] using hany
  next hany =>
    have hnone : rows.find? Q = none := by
      rw [List.find?_eq_none]
      intro r hr hQ
      exact hany (List.any_eq_true.mpr ⟨r, hr, decide_eq_true (hkey r hr hQ)⟩)
    rw [List.find?_append, hnone, List.find?_singleton, if_pos ha]
    rfl

namespace Database

def empty : Database := ⟨[], [], [], [], [], [], [], [], []⟩

/-! ## Accounts -/

def findUser (db : Database) (id : Int) : Option User := db.users.find? fun u => u.id = id

variable {db : Database} {t : AccessToken} {sqlEq : String → String → Bool} {new : User}
variable {row : AuthorizationCode} {r : RefreshToken} {oldSHA : String} {revokedAt : Int}
variable {code : String} {consumedAt : Int}

theorem findUser_id {id : Int} {user : User} (h : db.findUser id = some user) : user.id = id := by
  simpa using List.find?_some h

def findTOTP (db : Database) (userID : Int) : Option TOTPCredential :=
  db.totps.find? fun t => t.userID = userID

def listPasskeys (db : Database) (userID : Int) : List PasskeyCredential :=
  db.passkeys.filter fun p => p.userID = userID

/-- `Upsert` of the passkey repository. The credential id is unique under the collation, over all users; a
row that has it is given to the user of the new one, and keeps its spelling of the id. -/
def upsertPasskey (db : Database) (sqlEq : String → String → Bool) (p : PasskeyCredential) :
    Database :=
  { db with passkeys :=
      if db.passkeys.any fun q => sqlEq q.credentialID p.credentialID then
        db.passkeys.map fun q =>
          if sqlEq q.credentialID p.credentialID then { p with credentialID := q.credentialID } else q
      else db.passkeys ++ [p] }

def upsertTOTP (db : Database) (t : TOTPCredential) : Database :=
  { db with totps :=
      if db.totps.any fun r => r.userID = t.userID then
        db.totps.map fun r => if r.userID = t.userID then t else r
      else db.totps ++ [t] }

theorem mem_upsertTOTP {t r : TOTPCredential} (h : r ∈ (db.upsertTOTP t).totps) :
    r ∈ db.totps ∨ r = t := by
  unfold upsertTOTP at h
  split at h
  · obtain ⟨r₀, hr₀, rfl⟩ := List.mem_map.mp h
    split
    · exact .inr rfl
    · exact .inl hr₀
  · simpa using h

theorem findTOTP_upsertTOTP_self (db : Database) (t : TOTPCredential) :
    (db.upsertTOTP t).findTOTP t.userID = some t :=
  find?_upserted (by simp) fun _ _ h => of_decide_eq_true h

theorem findTOTP_upsertTOTP_of_ne {t : TOTPCredential} {userID : Int} (h : t.userID ≠ userID) :
    (db.upsertTOTP t).findTOTP userID = db.findTOTP userID := by
  unfold upsertTOTP findTOTP
  split
  · induction db.totps with
    | nil => rfl
    | cons r rest ih =>
      rw [List.map_cons, List.find?_cons, List.find?_cons, ih]
      by_cases hid : r.userID = t.userID
      · have hne : r.userID ≠ userID := fun h' => h (hid.symm.trans h')
        rw [if_pos hid]
        simp [h, hne]
      · rw [if_neg hid]
  · rw [List.find?_append]
    simp [h]

/-! ## Operators -/

def findRole (db : Database) (sqlEq : String → String → Bool) (roleCode : String) :
    Option OperatorRole :=
  db.roles.find? fun r => sqlEq r.roleCode roleCode

def createRole (db : Database) (sqlEq : String → String → Bool) (role : OperatorRole) :
    Bool × Database :=
  if db.roles.any fun r => sqlEq r.roleCode role.roleCode then (false, db)
  else (true, { db with roles := db.roles ++ [role] })

def updateRole (db : Database) (sqlEq : String → String → Bool) (role : OperatorRole) : Database :=
  { db with roles := db.roles.map fun r =>
      if sqlEq r.roleCode role.roleCode then
        { r with
          displayName := role.displayName
          description := role.description
          privilegeMask := role.privilegeMask }
      else r }

/-- `Upsert` of the role repository. A row that has the code already keeps its own spelling of it. -/
def upsertRole (db : Database) (sqlEq : String → String → Bool) (role : OperatorRole) : Database :=
  { db with roles :=
      if db.roles.any fun r => sqlEq r.roleCode role.roleCode then
        db.roles.map fun r =>
          if sqlEq r.roleCode role.roleCode then { role with roleCode := r.roleCode } else r
      else db.roles ++ [role] }

def deleteRole (db : Database) (sqlEq : String → String → Bool) (roleCode : String) : Database :=
  { db with roles := db.roles.filter fun r => !sqlEq r.roleCode roleCode }

def countByRoleCode (db : Database) (sqlEq : String → String → Bool) (roleCode : String) : Nat :=
  db.users.countP fun u => sqlEq u.roleCode roleCode

def updateRoleAndPrivilege (db : Database) (userID : Int) (roleCode : String) (mask : Mask)
    (tenantScope : String) : Database :=
  { db with users := db.users.map fun u =>
      if u.id = userID then
        { u with roleCode := roleCode, privilegeMask := mask, tenantScope := tenantScope }
      else u }

/-! ## New accounts -/

/-- `Create` of the user repository: the stored row, or nothing for a duplicate key. The three texts
of an account are unique under the collation. -/
def createUser (db : Database) (sqlEq : String → String → Bool) (u : User) :
    Option User × Database :=
  if db.users.any fun r => sqlEq r.userUUID u.userUUID || sqlEq r.username u.username ||
      sqlEq r.email u.email then (none, db)
  else
    let row := { u with
      id := nextID (db.users.map (·.id))
      roleCode := if u.roleCode = "" then "end_user" else u.roleCode }
    (some row, { db with users := db.users ++ [row] })

theorem createUser_cases (db : Database) (sqlEq : String → String → Bool) (new : User) :
    db.createUser sqlEq new = (none, db) ∨ ∃ user, (∀ old ∈ db.users, old.id < user.id) ∧
      db.createUser sqlEq new = (some user, { db with users := db.users ++ [user] }) := by
  unfold createUser
  split
  · exact .inl rfl
  · exact .inr ⟨_, fun old hold => lt_nextID (List.mem_map_of_mem hold), rfl⟩

theorem createUser_eq_some {row : User} (h : (db.createUser sqlEq new).1 = some row) :
    (∀ old ∈ db.users, old.id < row.id ∧ sqlEq old.userUUID new.userUUID = false) ∧
    (row.userUUID = new.userUUID ∧ row.username = new.username ∧ row.email = new.email) ∧
    (db.createUser sqlEq new).2 = { db with users := db.users ++ [row] } := by
  unfold createUser at h ⊢
  split at h
  next => cases h
  next hfree =>
    cases h
    rw [if_neg hfree]
    refine ⟨fun old hold => ⟨lt_nextID (List.mem_map_of_mem hold), ?_⟩, ⟨rfl, rfl, rfl⟩, rfl⟩
    simp only [List.any_eq_true, Bool.or_eq_true, not_exists, not_and, not_or,
      Bool.not_eq_true] at hfree
    exact (hfree old hold).1.1

theorem createUser_eq_none (h : (db.createUser sqlEq new).1 = none) :
    (db.createUser sqlEq new).2 = db := by
  unfold createUser at h ⊢
  split at h
  next hdup => rw [if_pos hdup]
  next => cases h

def lockAccount (db : Database) (userID : Int) : Database :=
  { db with users := db.users.map fun u =>
      if u.id = userID ∧ u.status = "active" then { u with status := "locked" } else u }

def unlockAccount (db : Database) (userID : Int) : Database :=
  { db with users := db.users.map fun u =>
      if u.id = userID ∧ u.status = "locked" then { u with status := "active" } else u }

/-! ## Sessions -/

/-- `Create` of the session repository. The id is unique under the collation. -/
def createSession (db : Database) (sqlEq : String → String → Bool) (s : Session) :
    Bool × Database :=
  if db.sessions.any fun r => sqlEq r.sessionID s.sessionID then (false, db)
  else
    let row := { s with
      id := nextID (db.sessions.map (·.id))
      authenticatedAt := dateTime s.authenticatedAt
      expiresAt := dateTime s.expiresAt }
    (true, { db with sessions := db.sessions ++ [row] })

def findSession (db : Database) (sqlEq : String → String → Bool) (sessionID : String) :
    Option Session :=
  db.sessions.find? fun r => sqlEq r.sessionID sessionID

theorem findSession_createSession {s : Session} (hrefl : sqlEq s.sessionID s.sessionID = true)
    (h : (db.createSession sqlEq s).1 = true) :
    (db.createSession sqlEq s).2.findSession sqlEq s.sessionID = some { s with
      id := nextID (db.sessions.map (·.id))
      authenticatedAt := dateTime s.authenticatedAt
      expiresAt := dateTime s.expiresAt } := by
  unfold createSession at h ⊢
  split at h
  next => cases h
  next hfree =>
    have hnone : db.sessions.find? (fun r => sqlEq r.sessionID s.sessionID) = none :=
      List.find?_eq_none.mpr fun r hr hmatch => hfree (List.any_eq_true.mpr ⟨r, hr, hmatch⟩)
    rw [if_neg hfree, findSession, List.find?_append, hnone]
    simp [hrefl]

def listActiveSessions (db : Database) (now userID : Int) : List Session :=
  db.sessions.filter fun r => r.userID = userID ∧ r.loggedOutAt = none ∧ now < r.expiresAt

def logoutBySessionID (db : Database) (sqlEq : String → String → Bool) (sessionID : String)
    (loggedOutAt : Int) : Database :=
  { db with sessions := db.sessions.map fun r =>
      if sqlEq r.sessionID sessionID ∧ r.loggedOutAt = none then
        { r with loggedOutAt := some (dateTime loggedOutAt) }
      else r }

def logoutAllByUserID (db : Database) (userID loggedOutAt : Int) : Database :=
  { db with sessions := db.sessions.map fun r =>
      if r.userID = userID ∧ r.loggedOutAt = none then
        { r with loggedOutAt := some (dateTime loggedOutAt) }
      else r }

/-! ## Tokens -/

def createAccessToken (db : Database) (t : AccessToken) : Bool × Database :=
  if db.accessTokens.any fun r => r.tokenSHA256 = t.tokenSHA256 then (false, db)
  else
    let row := { t with
      id := nextID (db.accessTokens.map (·.id))
      issuedAt := dateTime t.issuedAt
      expiresAt := dateTime t.expiresAt }
    (true, { db with accessTokens := db.accessTokens ++ [row] })

def refreshRow (db : Database) (t : RefreshToken) : RefreshToken :=
  { t with
    id := nextID (db.refreshTokens.map (·.id))
    issuedAt := dateTime t.issuedAt
    expiresAt := dateTime t.expiresAt }

def createRefreshToken (db : Database) (t : RefreshToken) : Bool × Database :=
  if db.refreshTokens.any fun r => r.tokenSHA256 = t.tokenSHA256 then (false, db)
  else (true, { db with refreshTokens := db.refreshTokens ++ [db.refreshRow t] })

def findActiveAccessToken (db : Database) (now : Int) (sha : String) : Option AccessToken :=
  db.accessTokens.find? fun r => r.tokenSHA256 = sha ∧ r.Usable now

def findActiveRefreshToken (db : Database) (now : Int) (sha : String) : Option RefreshToken :=
  db.refreshTokens.find? fun r => r.tokenSHA256 = sha ∧ r.Usable now

theorem findActiveRefreshToken_eq_some {now : Int} {sha : String}
    (h : db.findActiveRefreshToken now sha = some r) :
    r ∈ db.refreshTokens ∧ r.tokenSHA256 = sha ∧ r.Usable now := by
  have hfound := List.find?_some h
  exact ⟨List.mem_of_find?_eq_some h, of_decide_eq_true hfound⟩

def listActiveAccessTokens (db : Database) (now userID : Int) : List AccessToken :=
  db.accessTokens.filter fun r => r.userID = some userID ∧ r.Usable now

def listActiveRefreshTokens (db : Database) (now userID : Int) : List RefreshToken :=
  db.refreshTokens.filter fun r => r.userID = some userID ∧ r.Usable now

def revokeAccessTokens (db : Database) (now userID revokedAt : Int) : Database :=
  { db with accessTokens := db.accessTokens.map fun r =>
      if r.userID = some userID ∧ r.Usable now then
        { r with revokedAt := some (dateTime revokedAt) }
      else r }

def revokeRefreshTokens (db : Database) (now userID revokedAt : Int) : Database :=
  { db with refreshTokens := db.refreshTokens.map fun r =>
      if r.userID = some userID ∧ r.Usable now then
        { r with revokedAt := some (dateTime revokedAt) }
      else r }

inductive RotateOutcome where
  | rotated
  | noRows
  | duplicate
  deriving DecidableEq, Repr

/-- `RotateRefreshToken`: one transaction that locks the old row, checks that it may be used at `revokedAt`,
inserts the new one and marks the old one as replaced. -/
def rotateRefreshToken (db : Database) (oldSHA : String) (revokedAt : Int) (new : RefreshToken) :
    RotateOutcome × Database :=
  match db.refreshTokens.find? fun r => r.tokenSHA256 = oldSHA with
  | none => (.noRows, db)
  | some old =>
    if ¬ old.Usable revokedAt then (.noRows, db)
    else if db.refreshTokens.any fun r => r.tokenSHA256 = new.tokenSHA256 then (.duplicate, db)
    else
      let row := db.refreshRow new
      let marked := db.refreshTokens.map fun r =>
        if r.id = old.id then
          { r with revokedAt := some (dateTime revokedAt), replacedByTokenID := some row.id }
        else r
      (.rotated, { db with refreshTokens := marked ++ [row] })

/-! Each of these statements touches one table. -/

theorem createAccessToken_frame (db : Database) (t : AccessToken) :
    ∃ rows, (db.createAccessToken t).2 = { db with accessTokens := rows } := by
  unfold createAccessToken
  split <;> exact ⟨_, rfl⟩

theorem createRefreshToken_frame (db : Database) (t : RefreshToken) :
    ∃ rows, (db.createRefreshToken t).2 = { db with refreshTokens := rows } := by
  unfold createRefreshToken
  split <;> exact ⟨_, rfl⟩

theorem rotateRefreshToken_frame (db : Database) (oldSHA : String) (revokedAt : Int)
    (new : RefreshToken) :
    ∃ rows, (db.rotateRefreshToken oldSHA revokedAt new).2 = { db with refreshTokens := rows } := by
  simp only [rotateRefreshToken]
  repeat' split
  all_goals exact ⟨_, rfl⟩

/-- **What a rotation does.** It is refused and changes nothing, or it finds a usable row. -/
theorem rotateRefreshToken_cases (db : Database) (oldSHA : String) (revokedAt : Int)
    (new : RefreshToken) :
    ((db.rotateRefreshToken oldSHA revokedAt new).1 ≠ .rotated ∧
      (db.rotateRefreshToken oldSHA revokedAt new).2 = db) ∨
    ∃ old, db.refreshTokens.find? (fun r => r.tokenSHA256 = oldSHA) = some old ∧
      old.Usable revokedAt ∧ (∀ r ∈ db.refreshTokens, r.tokenSHA256 ≠ new.tokenSHA256) ∧
      db.rotateRefreshToken oldSHA revokedAt new = (.rotated, { db with
        refreshTokens := (db.refreshTokens.map fun r =>
          if r.id = old.id then
            { r with revokedAt := some (dateTime revokedAt)
                     replacedByTokenID := some (db.refreshRow new).id }
          else r) ++ [db.refreshRow new] }) := by
  unfold rotateRefreshToken
  split
  next => exact .inl ⟨by simp, rfl⟩
  next old hold =>
    split
    next => exact .inl ⟨by simp, rfl⟩
    next husable =>
      split
      next => exact .inl ⟨by simp, rfl⟩
      next hnew => exact .inr ⟨old, hold, not_not.mp husable, by simpa using hnew, rfl⟩

theorem mem_createAccessToken {r : AccessToken} (h : r ∈ (db.createAccessToken t).2.accessTokens) :
    r ∈ db.accessTokens ∨ ∃ id issuedAt expiresAt,
      r = { t with id := id, issuedAt := issuedAt, expiresAt := expiresAt } := by
  unfold createAccessToken at h
  split at h
  · exact .inl h
  · rcases List.mem_append.mp h with h | h
    · exact .inl h
    · exact .inr ⟨_, _, _, List.mem_singleton.mp h⟩

theorem createAccessToken_new (h : (db.createAccessToken t).1 = true) :
    ∀ r ∈ db.accessTokens, r.tokenSHA256 ≠ t.tokenSHA256 := by
  unfold createAccessToken at h
  split at h
  next => cases h
  next hnew => simpa using hnew

theorem createRefreshToken_new {t : RefreshToken} (h : (db.createRefreshToken t).1 = true) :
    ∀ r ∈ db.refreshTokens, r.tokenSHA256 ≠ t.tokenSHA256 := by
  unfold createRefreshToken at h
  split at h
  next => cases h
  next hnew => simpa using hnew

theorem rotateRefreshToken_new {new : RefreshToken}
    (h : (db.rotateRefreshToken oldSHA revokedAt new).1 = .rotated) :
    ∀ r ∈ db.refreshTokens, r.tokenSHA256 ≠ new.tokenSHA256 := by
  obtain ⟨hrefused, -⟩ | ⟨_, -, -, hnew, -⟩ := db.rotateRefreshToken_cases oldSHA revokedAt new
  · exact absurd h hrefused
  · exact hnew

theorem mem_createRefreshToken {t : RefreshToken}
    (h : r ∈ (db.createRefreshToken t).2.refreshTokens) :
    r ∈ db.refreshTokens ∨ r = db.refreshRow t := by
  unfold createRefreshToken at h
  split at h
  · exact .inl h
  · simpa using h

theorem mem_rotateRefreshToken {new : RefreshToken}
    (h : r ∈ (db.rotateRefreshToken oldSHA revokedAt new).2.refreshTokens) :
    r ∈ db.refreshTokens ∨ r = db.refreshRow new ∨ ∃ r₀ ∈ db.refreshTokens, ∃ at' id,
      r = { r₀ with revokedAt := some at', replacedByTokenID := some id } := by
  obtain ⟨-, hsame⟩ | ⟨old, -, -, -, heq⟩ := db.rotateRefreshToken_cases oldSHA revokedAt new
  · rw [hsame] at h
    exact .inl h
  rw [heq] at h
  rcases List.mem_append.mp h with h | h
  · obtain ⟨r₀, hr₀, rfl⟩ := List.mem_map.mp h
    split
    · exact .inr (.inr ⟨r₀, hr₀, _, _, rfl⟩)
    · exact .inl hr₀
  · exact .inr (.inl (List.mem_singleton.mp h))

/-- The keys of the refresh token table: ids and digests are unique. -/
structure RefreshKeyed (db : Database) : Prop where
  ids : (db.refreshTokens.map (·.id)).Nodup
  digests : (db.refreshTokens.map (·.tokenSHA256)).Nodup

section RefreshKeyed

variable {db : Database}

theorem RefreshKeyed.eq_of_id (h : db.RefreshKeyed) {r r' : RefreshToken}
    (hr : r ∈ db.refreshTokens) (hr' : r' ∈ db.refreshTokens) (hid : r.id = r'.id) : r = r' :=
  List.inj_on_of_nodup_map h.ids hr hr' hid

theorem RefreshKeyed.eq_of_digest (h : db.RefreshKeyed) {r r' : RefreshToken}
    (hr : r ∈ db.refreshTokens) (hr' : r' ∈ db.refreshTokens)
    (hsha : r.tokenSHA256 = r'.tokenSHA256) : r = r' :=
  List.inj_on_of_nodup_map h.digests hr hr' hsha

theorem RefreshKeyed.append (h : db.RefreshKeyed) {new : RefreshToken} (f : RefreshToken → RefreshToken)
    (hid : ∀ r, (f r).id = r.id) (hsha : ∀ r, (f r).tokenSHA256 = r.tokenSHA256)
    (hnew : ∀ r ∈ db.refreshTokens, r.tokenSHA256 ≠ new.tokenSHA256) :
    RefreshKeyed { db with refreshTokens := db.refreshTokens.map f ++ [db.refreshRow new] } := by
  have hids : (db.refreshTokens.map f).map (·.id) = db.refreshTokens.map (·.id) := by
    simp only [List.map_map, Function.comp_def, hid]
  have hshas : (db.refreshTokens.map f).map (·.tokenSHA256) =
      db.refreshTokens.map (·.tokenSHA256) := by
    simp only [List.map_map, Function.comp_def, hsha]
  constructor
  · simp only [List.map_append, hids, List.map_singleton]
    refine h.ids.append (List.nodup_singleton _) (List.disjoint_singleton.mpr fun hmem => ?_)
    exact absurd (lt_nextID hmem) (Int.lt_irrefl _)
  · simp only [List.map_append, hshas, List.map_singleton]
    refine h.digests.append (List.nodup_singleton _) (List.disjoint_singleton.mpr fun hmem => ?_)
    obtain ⟨r, hr, heq⟩ := List.mem_map.mp hmem
    exact hnew r hr heq

theorem RefreshKeyed.rotateRefreshToken (h : db.RefreshKeyed) (oldSHA : String) (revokedAt : Int)
    (new : RefreshToken) : RefreshKeyed (db.rotateRefreshToken oldSHA revokedAt new).2 := by
  obtain ⟨-, hsame⟩ | ⟨old, -, -, hnew, heq⟩ := db.rotateRefreshToken_cases oldSHA revokedAt new
  · rw [hsame]
    exact h
  · rw [heq]
    refine h.append _ (fun r => ?_) (fun r => ?_) hnew <;> split <;> rfl

end RefreshKeyed

@[simp] theorem createRefreshToken_accessTokens (db : Database) (t : RefreshToken) :
    (db.createRefreshToken t).2.accessTokens = db.accessTokens := by
  obtain ⟨rows, h⟩ := db.createRefreshToken_frame t
  rw [h]

@[simp] theorem rotateRefreshToken_accessTokens (db : Database) (oldSHA : String) (revokedAt : Int)
    (new : RefreshToken) :
    (db.rotateRefreshToken oldSHA revokedAt new).2.accessTokens = db.accessTokens := by
  obtain ⟨rows, h⟩ := db.rotateRefreshToken_frame oldSHA revokedAt new
  rw [h]

/-! ## Authorization codes and consents -/

def createAuthorizationCode (db : Database) (sqlEq : String → String → Bool)
    (c : AuthorizationCode) : Bool × Database :=
  if db.authCodes.any fun r => sqlEq r.code c.code then (false, db)
  else
    let row := { c with
      id := nextID (db.authCodes.map (·.id))
      expiresAt := dateTime c.expiresAt }
    (true, { db with authCodes := db.authCodes ++ [row] })

def codeStored (db : Database) (c : AuthorizationCode) : AuthorizationCode :=
  { c with id := nextID (db.authCodes.map (·.id)), expiresAt := dateTime c.expiresAt }

theorem createAuthorizationCode_cases (db : Database) (sqlEq : String → String → Bool)
    (c : AuthorizationCode) :
    db.createAuthorizationCode sqlEq c = (false, db) ∨
      (∀ r ∈ db.authCodes, sqlEq r.code c.code = false) ∧
      db.createAuthorizationCode sqlEq c =
        (true, { db with authCodes := db.authCodes ++ [db.codeStored c] }) := by
  unfold createAuthorizationCode
  split
  next => exact .inl rfl
  next hfree =>
    refine .inr ⟨fun r hr => ?_, rfl⟩
    simpa using List.any_eq_false.mp (Bool.eq_false_iff.mpr hfree) r hr

/-- `ConsumeByCode`: one transaction that locks the row, checks it and marks it consumed. The row
is returned as it was read. -/
def consumeByCode (db : Database) (sqlEq : String → String → Bool) (code : String)
    (consumedAt : Int) : Option AuthorizationCode × Database :=
  match db.authCodes.find? fun r => sqlEq r.code code with
  | none => (none, db)
  | some row =>
    if row.consumedAt ≠ none ∨ ¬ consumedAt < row.expiresAt then (none, db)
    else
      (some row, { db with authCodes := db.authCodes.map fun r =>
        if r.id = row.id ∧ r.consumedAt = none then
          { r with consumedAt := some (dateTime consumedAt) }
        else r })

theorem consumeByCode_cases (db : Database) (sqlEq : String → String → Bool) (code : String)
    (consumedAt : Int) :
    db.consumeByCode sqlEq code consumedAt = (none, db) ∨
      ∃ row ∈ db.authCodes, (sqlEq row.code code = true ∧ row.consumedAt = none ∧
        consumedAt < row.expiresAt) ∧
      db.consumeByCode sqlEq code consumedAt = (some row, { db with authCodes := db.authCodes.map fun r =>
        if r.id = row.id ∧ r.consumedAt = none then { r with consumedAt := some (dateTime consumedAt) }
        else r }) := by
  unfold consumeByCode
  split
  next => exact .inl rfl
  next row hrow =>
    split
    next => exact .inl rfl
    next hfresh =>
      rw [not_or, Decidable.not_not, Decidable.not_not] at hfresh
      have hmatch : sqlEq row.code code = true := by simpa using List.find?_some hrow
      exact .inr ⟨row, List.mem_of_find?_eq_some hrow, ⟨hmatch, hfresh⟩, rfl⟩

theorem consumeByCode_frame (db : Database) (sqlEq : String → String → Bool) (code : String)
    (consumedAt : Int) :
    ∃ rows, (db.consumeByCode sqlEq code consumedAt).2 = { db with authCodes := rows } := by
  obtain h | ⟨row, -, -, h⟩ := db.consumeByCode_cases sqlEq code consumedAt
  · exact ⟨db.authCodes, by rw [h]⟩
  · exact ⟨_, by rw [h]⟩

@[simp] theorem consumeByCode_accessTokens (db : Database) (sqlEq : String → String → Bool)
    (code : String) (consumedAt : Int) :
    (db.consumeByCode sqlEq code consumedAt).2.accessTokens = db.accessTokens := by
  obtain ⟨rows, h⟩ := db.consumeByCode_frame sqlEq code consumedAt
  rw [h]

theorem consumeByCode_find (h : (db.consumeByCode sqlEq code consumedAt).1 = some row) :
    db.authCodes.find? (fun r => sqlEq r.code code) = some row := by
  unfold consumeByCode at h
  split at h
  next => cases h
  next found hfound =>
    split at h
    next => cases h
    next => exact hfound.trans h

theorem consumeByCode_eq_some (h : (db.consumeByCode sqlEq code consumedAt).1 = some row) :
    row ∈ db.authCodes ∧ sqlEq row.code code = true ∧ row.consumedAt = none := by
  obtain hnone | ⟨r, hr, hmatch, hsome⟩ := db.consumeByCode_cases sqlEq code consumedAt
  · rw [hnone] at h
    cases h
  · rw [hsome] at h
    obtain rfl := Option.some.inj h
    exact ⟨hr, hmatch.1, hmatch.2.1⟩

theorem mem_consumeByCode {r : AuthorizationCode}
    (h : r ∈ (db.consumeByCode sqlEq code consumedAt).2.authCodes) :
    r ∈ db.authCodes ∨ ∃ r₀ ∈ db.authCodes, ∃ at', r = { r₀ with consumedAt := some at' } := by
  obtain hnone | ⟨row, -, -, hsome⟩ := db.consumeByCode_cases sqlEq code consumedAt
  · rw [hnone] at h
    exact .inl h
  · rw [hsome] at h
    obtain ⟨r₀, hr₀, rfl⟩ := List.mem_map.mp h
    split
    · exact .inr ⟨r₀, hr₀, _, rfl⟩
    · exact .inl hr₀

def findActiveConsent (db : Database) (userID clientID : Int) : Option Consent :=
  db.consents.find? fun c => c.userID = userID ∧ c.clientID = clientID ∧ c.revokedAt = none

/-- The row `UpsertActiveConsent` selects, revoked or not. -/
def findConsent (db : Database) (userID clientID : Int) : Option Consent :=
  db.consents.find? fun c => c.userID = userID ∧ c.clientID = clientID

def upsertConsent (db : Database) (c : Consent) : Database :=
  { db with consents :=
      if db.consents.any fun r => r.userID = c.userID ∧ r.clientID = c.clientID then
        db.consents.map fun r => if r.userID = c.userID ∧ r.clientID = c.clientID then c else r
      else db.consents ++ [c] }

theorem findActiveConsent_upsertConsent {c : Consent} (hactive : c.revokedAt = none) :
    (db.upsertConsent c).findActiveConsent c.userID c.clientID = some c := by
  refine find?_upserted (by simp [hactive]) fun r _ h => ?_
  have hmatch := of_decide_eq_true h
  exact ⟨hmatch.1, hmatch.2.1⟩

end Database

end IdpServer
