import IdpServer.Laws.Consent.Accepting
import IdpServer.Laws.Session.Lookups

/-!
# Laws.Session.Agreement — the seven lookups and one session

The lookups read the cache first and the row second, each in its own words. They agree exactly where cache and
table are `Settled` (`lookups_agree`, `lockedStillAccepted`).
-/

namespace IdpServer.Laws.Session

open Conc Conc.Prog IdpServer.Cache Store Go
open Laws.Consent (cachedEntry)

/-! ## What a lookup answers -/

/-- The user id a lookup resolves the presented session id to, `none` when it rejects it. -/
def Lookup.resolves (env : Env) (w : World) (presented : String) : Lookup → Option Int
  | .authorize => (nonblank presented).bind fun s =>
      (outcome (Authz.findActiveSession env s) w).join.map (·.userID)
  | .consent returnTo => (outcome (Consent.loadContext env returnTo presented) w).map (·.2.1)
  | .device => (nonblank presented).bind fun s =>
      (outcome (Device.sessionUser env s) w).map (·.1)
  | .mfaSetup => (outcome (Enrolment.loadMFAUser env presented) w).map (·.userID)
  | .passkeySetup => (outcome (Enrolment.loadPasskeyUser env presented) w).map (·.id)
  | .pushApproval => outcome (Authn.resolveActiveSessionUserID env presented) w
  | .admin required =>
    (outcome (Http.requireSessionPermissions env required presented) w).map (·.1.id)

/-- The administration lets the session in, as far as its second factor and its user go. -/
structure LetIn (w : World) (required : List Mask) (session : Session) : Prop where
  otp : Http.sessionHasOTP session = true
  user : ∀ user ∈ w.db.findUser session.userID,
    user.status = "active" ∧ Http.hasAll user.privilegeMask required = true

instance (w : World) (required : List Mask) (session : Session) : Decidable (LetIn w required session) :=
  decidable_of_iff (Http.sessionHasOTP session = true ∧ ∀ user ∈ w.db.findUser session.userID,
    user.status = "active" ∧ Http.hasAll user.privilegeMask required = true)
    ⟨fun h => ⟨h.1, h.2⟩, fun h => ⟨h.otp, h.user⟩⟩

/-- What a lookup asks for besides a session: the consent page a request it can serve, the
administration a second factor and permissions. -/
def Lookup.Otherwise (env : Env) (w : World) (s : String) : Lookup → Prop
  | .consent returnTo => ∃ parsed client, Consent.parseAuthorizeReturnTo env returnTo = some parsed ∧
      outcome (Consent.findClient env parsed) w = some client
  | .admin required => (∀ e ∈ cachedEntry w s, LetIn w required (Http.adminSession e)) ∧
      ∀ r ∈ w.db.findSession env.sqlEq s, LetIn w required r
  | _ => True

/-! ## What the stores say -/

def openRow (env : Env) (w : World) (s : String) : Option Session :=
  (w.db.findSession env.sqlEq s).filter fun r => r.loggedOutAt = none ∧ w.now < r.expiresAt

/-- The user id of an active entry names one user in every reading: as it stands, trimmed, and as the
administration reads it. To the first two a text that is no positive number says nothing, and the row is
asked; to the last any text is a number. -/
def ReadAlike (env : Env) (w : World) (s : String) (e : SessionCacheEntry) : Prop :=
  let row := (openRow env w s).map (·.userID)
  (parseUserID (trimSpace e.userID)).or row = (parseUserID e.userID).or row ∧
    (w.db.findUser (Http.mustParseInt64 e.userID)).map (·.id) = (parseUserID e.userID).or row

/-- An active entry is read alike, and an entry that is not active goes with a row that is not active
either. -/
def Settled (env : Env) (w : World) (s : String) : Prop :=
  ∀ e ∈ cachedEntry w s,
    if isSessionEntryActive e w.now then ReadAlike env w s e else openRow env w s = none

structure UsersExist (env : Env) (w : World) (s : String) : Prop where
  cached : ∀ e ∈ cachedEntry w s, ∀ text ∈ [e.userID, trimSpace e.userID], ∀ id ∈ parseUserID text,
    (w.db.findUser id).isSome = true
  row : ∀ r ∈ w.db.findSession env.sqlEq s, (w.db.findUser r.userID).isSome = true

/-- The cached state says that the session is locked or logged out. -/
def Stopped (e : SessionCacheEntry) : Prop :=
  (normalizeSessionStateMask e.stateMask e.status).Any sessionStateLocked ∨
    (normalizeSessionStateMask e.stateMask e.status).Any sessionStateLoggedOut

/-- **The lookups agree**: they all give one answer, and reject a session that the cache has locked or
logged out. -/
structure Agree (env : Env) (w : World) (presented : String) : Prop where
  alike : ∃ user : Option Int, ∀ lookup : Lookup, lookup.Otherwise env w (trimSpace presented) →
    lookup.resolves env w presented = user
  stopped : ∀ e, cachedEntry w (trimSpace presented) = some e → Stopped e →
    ∀ lookup : Lookup, lookup.resolves env w presented = none

variable {e : SessionCacheEntry} {id : Int} {w : World}

theorem inactive_of_stopped (h : Stopped e) (now : Int) : isSessionEntryActive e now = false := by
  unfold isSessionEntryActive isSessionStateActive
  rcases h with h | h <;> simp [h]

/-! ## Plain user ids -/

theorem foldl_bmod_toDigits (m : Nat) (k : Nat) :
    (Nat.toDigits 10 k).foldl (fun n c => (n * 10 + (c.toNat - 48 : Int)).bmod m) 0 = (k : Int).bmod m := by
  induction k using Nat.strongRecOn with
  | ind k ih =>
    have hdigit : ∀ d < 10, ((Nat.digitChar d).toNat - 48 : Int) = d := by decide
    have hlast := hdigit (k % 10) (Nat.mod_lt _ (by decide))
    by_cases hk : k < 10
    · rw [Nat.mod_eq_of_lt hk] at hlast
      rw [Nat.toDigits_of_lt_base hk]
      simp [hlast]
    · have hdiv : k / 10 < k := Nat.div_lt_self (by omega) (by decide)
      rw [Nat.toDigits_of_base_le (by decide) (by omega), List.foldl_append, ih _ hdiv, List.foldl_cons,
        List.foldl_nil, hlast, ← Int.bmod_add_bmod, Int.bmod_mul_bmod, Int.bmod_add_bmod]
      congr 1
      omega

theorem mustParseInt64_formatInt (hpos : 0 < id) (hlt : id < 2 ^ 63) :
    Http.mustParseInt64 (formatInt id) = id := by
  obtain ⟨k, rfl⟩ := Int.eq_ofNat_of_zero_le (Int.le_of_lt hpos)
  have htext : (formatInt k).toList = Nat.toDigits 10 k := Nat.toList_repr
  have hdigits : (Nat.toDigits 10 k).all Char.isDigit = true :=
    List.all_eq_true.mpr fun c hc => Nat.isDigit_of_mem_toDigits (by decide) (by decide) hc
  unfold Http.mustParseInt64
  simp only [trimSpace_formatInt, htext, hdigits, if_true]
  rw [foldl_bmod_toDigits]
  exact Int.bmod_eq_of_le (by omega) (by omega)

theorem parseUserID_formatInt (hpos : 0 < id) (hlt : id < 2 ^ 63) :
    parseUserID (formatInt id) = some id := by
  have hrange : -2 ^ 63 ≤ id ∧ id < 2 ^ 63 := ⟨by omega, hlt⟩
  rw [parseUserID, parseInt_formatInt, checkInt64, if_pos hrange]
  simp [hpos]

theorem map_findUser_id (h : (w.db.findUser id).isSome = true) :
    (w.db.findUser id).map (·.id) = some id := by
  obtain ⟨user, hfound⟩ := Option.isSome_iff_exists.mp h
  rw [hfound, Option.map_some, Database.findUser_id hfound]

theorem readAlike_of_plain {env : Env} {s : String} (hpos : 0 < id) (hlt : id < 2 ^ 63)
    (hid : e.userID = formatInt id) (huser : (w.db.findUser id).isSome = true) :
    ReadAlike env w s e := by
  unfold ReadAlike
  rw [hid, trimSpace_formatInt, mustParseInt64_formatInt hpos hlt, parseUserID_formatInt hpos hlt]
  exact ⟨rfl, map_findUser_id huser⟩

/-! ## The lookups as functions of the stores -/

section Forms

variable {env : Env} {w : World} {presented : String}

def openEntry (w : World) (s : String) : Option SessionCacheEntry :=
  (cachedEntry w s).filter (isSessionEntryActive · w.now)

def cacheThenRow (env : Env) (w : World) (userID : SessionCacheEntry → Option Int) (s : String) :
    Option Int :=
  ((openEntry w s).bind userID).or ((openRow env w s).map (·.userID))

def cacheThenRowUser (env : Env) (w : World) (userID : SessionCacheEntry → Option Int) (s : String) :
    Option Int :=
  (((openEntry w s).bind userID).bind fun id => (w.db.findUser id).map (·.id)).or
    ((openRow env w s).bind fun r => (w.db.findUser r.userID).map (·.id))

variable {ε α : Type} {e : ε} {s : String}

theorem outcome_cached {k : Option SessionCacheEntry → Service ε α} :
    outcome (call e (Repository.getSession s) >>= k) w = outcome (k (cachedEntry w s)) w := rfl

theorem outcome_row {k : Option Session → Service ε α} :
    outcome (call e (Repository.findBySessionID env s) >>= k) w =
      outcome (k (w.db.findSession env.sqlEq s)) w := rfl

theorem outcome_clock {k : Int → Service ε α} :
    outcome ((liftM Repository.now : Service ε Int) >>= k) w = outcome (k w.now) w := rfl

theorem outcome_user {id : Int} {k : Option User → Service ε α} :
    outcome (call e (Repository.findUserByID id) >>= k) w = outcome (k (w.db.findUser id)) w := rfl

theorem bind_open (f : Session → Option α) (s : String) :
    ((w.db.findSession env.sqlEq s).bind fun r =>
      if r.loggedOutAt = none ∧ w.now < r.expiresAt then f r else none) = (openRow env w s).bind f := by
  unfold openRow
  cases w.db.findSession env.sqlEq s with
  | none => rfl
  | some r =>
    rw [Option.filter_some]
    by_cases h : r.loggedOutAt = none ∧ w.now < r.expiresAt <;> simp [h]

theorem resolves_authorize (hs : nonblank presented = some s) :
    Lookup.authorize.resolves env w presented =
      cacheThenRow env w (fun e => parseUserID (trimSpace e.userID)) s := by
  have heval : outcome (Authz.findActiveSession env s) w = some (Consent.activeSession env w s) :=
    outcome_eq_some.mpr ⟨w, Consent.findActiveSession_eval s⟩
  simp only [Lookup.resolves, hs, Option.bind_some, heval, Option.join_some, Consent.activeSession,
    Option.map_or]
  unfold cacheThenRow openEntry
  congr 1
  cases (cachedEntry w s).filter (isSessionEntryActive · w.now) with
  | none => rfl
  | some e => cases hid : parseUserID (trimSpace e.userID) <;> simp [hid, Authz.cachedSession]

theorem outcome_open {e' e'' : ε} {g : Session → α} : outcome (do
      let row ← found (← call e (Repository.findBySessionID env s)) e'
      let later ← (liftM Repository.now : Service ε Int)
      require (row.loggedOutAt = none ∧ later < row.expiresAt) e''
      return g row) w = (openRow env w s).map g := by
  simp only [outcome_row, outcome_found, outcome_clock, outcome_require, outcome_pure, bind_open]
  exact Option.map_eq_bind.symm

theorem resolves_device (hs : nonblank presented = some s) :
    Lookup.device.resolves env w presented = cacheThenRow env w (fun e => parseUserID e.userID) s := by
  simp only [Lookup.resolves, hs, Option.bind_some, Device.sessionUser, outcome_cached, outcome_clock]
  unfold cacheThenRow openEntry
  cases (cachedEntry w s).filter (isSessionEntryActive · w.now) with
  | none => simp [outcome_open, Function.comp_def]
  | some e =>
    cases hid : parseUserID e.userID with
    | none => simp [hid, outcome_open, Function.comp_def]
    | some id => simp [hid, outcome_pure]

theorem resolves_push (hs : nonblank presented = some s) :
    Lookup.pushApproval.resolves env w presented =
      cacheThenRow env w (fun e => parseUserID (trimSpace e.userID)) s := by
  obtain ⟨htrim, hne⟩ := nonblank_eq_some.mp hs
  simp only [Lookup.resolves, Authn.resolveActiveSessionUserID, outcome_require, outcome_clock, outcome_cached,
    htrim, ne_eq, hne, not_false_eq_true, if_true]
  unfold cacheThenRow openEntry
  cases ((cachedEntry w s).filter (isSessionEntryActive · w.now)).bind
      fun e => parseUserID (trimSpace e.userID) with
  | some id => rfl
  | none =>
    simp only [outcome_row, outcome_found, outcome_require, outcome_pure, bind_open, Option.none_or]
    exact Option.map_eq_bind.symm

variable (userID : SessionCacheEntry → Option Int)

theorem cachedUser_eval (s : String) :
    (Enrolment.cachedUser userID (cachedEntry w s) w.now).run.eval w =
      (.ok ((openEntry w s).bind fun e => (userID e).bind fun id => (w.db.findUser id).map (e, ·)), w) := by
  unfold Enrolment.cachedUser openEntry
  cases (cachedEntry w s).filter (isSessionEntryActive · w.now) with
  | none => rfl
  | some e =>
    simp only [Option.bind_some]
    cases userID e <;> rfl

theorem outcome_rowUser (s : String) : outcome (Enrolment.rowUser env s w.now) w =
    (openRow env w s).bind fun r => (w.db.findUser r.userID).map (r, ·) := by
  simp only [Enrolment.rowUser, outcome_row, outcome_found, outcome_require, outcome_user, outcome_pure,
    bind_open]
  congr 1
  funext r
  exact Option.map_eq_bind.symm

theorem outcome_enrolling (s : String) (ofEntry : SessionCacheEntry → User → α)
    (ofRow : Session × User → α) (id : α → Int) (hentry : ∀ e user, id (ofEntry e user) = user.id)
    (hrow : ∀ p, id (ofRow p) = p.2.id) :
    (outcome (match (openEntry w s).bind fun e => (userID e).bind fun id => (w.db.findUser id).map (e, ·) with
      | some (e, user) => pure (ofEntry e user)
      | none => do return ofRow (← Enrolment.rowUser env s w.now)) w).map id =
    cacheThenRowUser env w userID s := by
  have hlast : (outcome (do return ofRow (← Enrolment.rowUser env s w.now)) w).map id =
      (openRow env w s).bind fun r => (w.db.findUser r.userID).map (·.id) := by
    rw [outcome_bind, outcome_rowUser]
    cases openRow env w s with
    | none => rfl
    | some r => cases h : w.db.findUser r.userID <;> simp [h, outcome_pure, hrow]
  unfold cacheThenRowUser
  cases openEntry w s with
  | none => exact hlast
  | some e =>
    simp only [Option.bind_some]
    cases userID e with
    | none => exact hlast
    | some id =>
      simp only [Option.bind_some]
      cases w.db.findUser id with
      | none => exact hlast
      | some user => exact congrArg some (hentry e user)

theorem resolves_mfaSetup (hs : nonblank presented = some s) :
    Lookup.mfaSetup.resolves env w presented = cacheThenRowUser env w (fun e => parseUserID e.userID) s := by
  simp only [Lookup.resolves, Enrolment.loadMFAUser, outcome_found, hs, Option.bind_some, outcome_clock,
    outcome_cached, outcome_of_eval (cachedUser_eval _ s)]
  exact outcome_enrolling (fun e => parseUserID e.userID) s
    (fun e user => ⟨s, user.id, user.userUUID, user.username, user.email, e.ipAddress, e.userAgent⟩)
    (fun p => ⟨s, p.2.id, (nonblank p.2.userUUID).getD (trimSpace p.1.subject), p.2.username, p.2.email,
      p.1.ipAddress, p.1.userAgent⟩) Enrolment.MFAAuthContext.userID (fun _ _ => rfl) (fun _ => rfl)

theorem resolves_passkeySetup (hs : nonblank presented = some s) :
    Lookup.passkeySetup.resolves env w presented =
      cacheThenRowUser env w (fun e => parseUserID (trimSpace e.userID)) s := by
  simp only [Lookup.resolves, Enrolment.loadPasskeyUser, outcome_found, hs, Option.bind_some, outcome_clock,
    outcome_cached, outcome_of_eval (cachedUser_eval _ s)]
  exact outcome_enrolling (fun e => parseUserID (trimSpace e.userID)) s (fun _ user => user) Prod.snd
    User.id (fun _ _ => rfl) (fun _ => rfl)

theorem resolves_consent {returnTo : String} (hs : nonblank presented = some s) :
    (Lookup.consent returnTo).resolves env w presented =
      (Consent.parseAuthorizeReturnTo env returnTo).bind fun parsed =>
        if ∀ e ∈ cachedEntry w s, isSessionEntryActive e w.now = true then
          (((cachedEntry w s).bind fun e => parseUserID e.userID).or
            ((openRow env w s).map (·.userID))).bind fun id =>
              (outcome (Consent.findClient env parsed) w).map fun _ => id
        else none := by
  simp only [Lookup.resolves, Consent.loadContext, outcome_found, hs, Option.bind_some, outcome_clock,
    outcome_cached, outcome_require]
  cases Consent.parseAuthorizeReturnTo env returnTo with
  | none => rfl
  | some parsed =>
    simp only [Option.bind_some]
    split
    next =>
      cases (cachedEntry w s).bind fun e => parseUserID e.userID with
      | some id => 
        simp only [outcome_bind, outcome_pure]
        cases outcome (Consent.findClient env parsed) w <;> rfl
      | none =>
        simp only [outcome_row, outcome_found, outcome_clock, outcome_require, bind_open]
        cases openRow env w s with
        | none => rfl
        | some r =>
          simp only [outcome_bind, outcome_pure, Option.bind_some]
          cases outcome (Consent.findClient env parsed) w <;> rfl
    next => rfl

theorem findSession_eval (s : String) : (Http.findSession env s).run.eval w =
    (.ok (((openEntry w s).map Http.adminSession).or (w.db.findSession env.sqlEq s)), w) := by
  unfold openEntry
  have hcached : (Http.findSession env s).run.eval w = _ :=
    (eval_bind_of_ok (a := cachedEntry w s) rfl).trans (eval_bind_of_ok rfl)
  rw [hcached]
  cases (cachedEntry w s).filter (isSessionEntryActive · w.now) <;> rfl

def enteringUser (w : World) (required : List Mask) (session : Session) : Option Int :=
  if Http.sessionHasOTP session = true then
    (w.db.findUser session.userID).bind fun user =>
      if user.status = "active" then
        if Http.hasAll user.privilegeMask required = true then some user.id else none
      else none
  else none

theorem openEntry_expires {e : SessionCacheEntry} (h : openEntry w s = some e) :
    w.now < e.expiresAt := by
  have hactive := (Option.filter_eq_some_iff.mp h).2
  simp only [isSessionEntryActive, Bool.and_eq_true, decide_eq_true_eq] at hactive
  exact hactive.1

theorem resolves_admin {required : List Mask} (hs : nonblank presented = some s) :
    (Lookup.admin required).resolves env w presented =
      (((openEntry w s).map Http.adminSession).or (openRow env w s)).bind (enteringUser w required) := by
  have hrest (session : Session) : (outcome (do
      require (Http.sessionHasOTP session = true) "mfa required"
      let user ← call "permission lookup failed" (Repository.findUserByID session.userID)
      let user ← found user "user unavailable"
      require (user.status = "active") "user unavailable"
      require (Http.hasAll user.privilegeMask required = true) "insufficient privilege"
      return (user, session) : Service String (User × Session)) w).map (·.1.id) =
      enteringUser w required session := by
    simp only [outcome_require, outcome_user, outcome_found, outcome_pure, enteringUser]
    split
    next =>
      cases w.db.findUser session.userID with
      | none => rfl
      | some user =>
        simp only [Option.bind_some]
        repeat' split
        all_goals rfl
    next => rfl
  simp only [Lookup.resolves, Http.requireSessionPermissions, outcome_found, hs, Option.bind_some,
    outcome_of_eval (findSession_eval s), outcome_clock]
  simp only [outcome_require (c := _ ∧ _)]
  cases hentry : openEntry w s with
  | some e =>
    have hopen : (Http.adminSession e).loggedOutAt = none ∧ w.now < (Http.adminSession e).expiresAt :=
      ⟨rfl, openEntry_expires hentry⟩
    simp only [Option.map_some, Option.some_or, Option.bind_some, if_pos hopen]
    exact hrest (Http.adminSession e)
  | none =>
    simp only [Option.map_none, Option.none_or, bind_open]
    cases openRow env w s with
    | none => rfl
    | some r =>
      simp only [Option.bind_some]
      exact hrest r

end Forms

/-! ## The law -/

section Law

variable {env : Env} {w : World} {presented s : String}

variable {e : SessionCacheEntry} {required : List Mask} {lookup : Lookup}

theorem openEntry_of_active (he : cachedEntry w s = some e)
    (h : isSessionEntryActive e w.now = true) : openEntry w s = some e := by
  rw [openEntry, he, Option.filter_some, if_pos h]

theorem openEntry_of_inactive (he : cachedEntry w s = some e)
    (h : isSessionEntryActive e w.now = false) : openEntry w s = none := by
  simp [openEntry, he, h]

theorem resolves_none (hentry : openEntry w s = none) (hrow : openRow env w s = none)
    (hs : nonblank presented = some s) (lookup : Lookup) : lookup.resolves env w presented = none := by
  cases lookup with
  | authorize => simp [resolves_authorize hs, cacheThenRow, hentry, hrow]
  | consent returnTo =>
    rw [resolves_consent hs, hrow]
    cases he : cachedEntry w s with
    | none => simp
    | some e =>
      have hinactive : isSessionEntryActive e w.now = false := by simpa [openEntry, he] using hentry
      simp [hinactive]
  | device => simp [resolves_device hs, cacheThenRow, hentry, hrow]
  | mfaSetup => simp [resolves_mfaSetup hs, cacheThenRowUser, hentry, hrow]
  | passkeySetup => simp [resolves_passkeySetup hs, cacheThenRowUser, hentry, hrow]
  | pushApproval => simp [resolves_push hs, cacheThenRow, hentry, hrow]
  | admin required => simp [resolves_admin hs, hentry, hrow]

theorem resolves_blank (hs : nonblank presented = none) (lookup : Lookup) :
    lookup.resolves env w presented = none := by
  have hblank := nonblank_eq_none.mp hs
  cases lookup with
  | authorize => simp [Lookup.resolves, hs]
  | consent returnTo =>
    simp only [Lookup.resolves, Consent.loadContext, outcome_found, hs, Option.bind_none]
    cases Consent.parseAuthorizeReturnTo env returnTo <;> rfl
  | device => simp [Lookup.resolves, hs]
  | mfaSetup => simp [Lookup.resolves, Enrolment.loadMFAUser, outcome_found, hs]
  | passkeySetup => simp [Lookup.resolves, Enrolment.loadPasskeyUser, outcome_found, hs]
  | pushApproval => simp [Lookup.resolves, Authn.resolveActiveSessionUserID, outcome_require, hblank]
  | admin required => simp [Lookup.resolves, Http.requireSessionPermissions, outcome_found, hs]

theorem adminSession_userID (e : SessionCacheEntry) :
    (Http.adminSession e).userID = Http.mustParseInt64 e.userID := by
  rw [Http.adminSession]

theorem enteringUser_of_letIn {session : Session} (h : LetIn w required session) :
    enteringUser w required session = (w.db.findUser session.userID).map (·.id) := by
  rw [enteringUser, if_pos h.otp]
  cases hfound : w.db.findUser session.userID with
  | none => rfl
  | some user =>
    obtain ⟨hstatus, hmask⟩ := h.user user hfound
    simp [hstatus, hmask]

theorem cacheThenRowUser_eq {userID : SessionCacheEntry → Option Int}
    (hcached : ∀ e ∈ openEntry w s, ∀ id ∈ userID e, (w.db.findUser id).isSome = true)
    (hrow : ∀ r ∈ w.db.findSession env.sqlEq s, (w.db.findUser r.userID).isSome = true) :
    cacheThenRowUser env w userID s = cacheThenRow env w userID s := by
  have hlast : ((openRow env w s).bind fun r => (w.db.findUser r.userID).map (·.id)) =
      (openRow env w s).map (·.userID) := by
    cases hopen : openRow env w s with
    | none => rfl
    | some r => exact map_findUser_id (hrow r (Option.filter_eq_some_iff.mp hopen).1)
  unfold cacheThenRowUser cacheThenRow
  rw [hlast]
  cases hid : (openEntry w s).bind userID with
  | none => rfl
  | some id =>
    obtain ⟨e, he, hid⟩ := Option.bind_eq_some_iff.mp hid
    rw [Option.bind_some, map_findUser_id (hcached e he id hid)]

theorem resolves_cacheThenRow (husers : UsersExist env w s) (hs : nonblank presented = some s) :
    (∀ lookup ∈ [Lookup.authorize, .pushApproval, .passkeySetup], lookup.resolves env w presented =
      cacheThenRow env w (fun e => parseUserID (trimSpace e.userID)) s) ∧
    ∀ lookup ∈ [Lookup.device, .mfaSetup], lookup.resolves env w presented =
      cacheThenRow env w (fun e => parseUserID e.userID) s := by
  have hentry : ∀ e ∈ openEntry w s, e ∈ cachedEntry w s := fun e he => (Option.filter_eq_some_iff.mp he).1
  have htrimmed := cacheThenRowUser_eq (fun e he => husers.cached e (hentry e he) (trimSpace e.userID) (by simp))
    husers.row
  have hplain := cacheThenRowUser_eq (fun e he => husers.cached e (hentry e he) e.userID (by simp)) husers.row
  simp only [List.forall_mem_cons, List.not_mem_nil, false_imp_iff, implies_true, and_true]
  exact ⟨⟨resolves_authorize hs, resolves_push hs, (resolves_passkeySetup hs).trans htrimmed⟩,
    resolves_device hs, (resolves_mfaSetup hs).trans hplain⟩

theorem resolves_of_entry (he : cachedEntry w s = some e)
    (hactive : isSessionEntryActive e w.now = true) (halike : ReadAlike env w s e)
    (husers : UsersExist env w s) (hs : nonblank presented = some s)
    (hother : lookup.Otherwise env w s) :
    lookup.resolves env w presented =
      (parseUserID e.userID).or ((openRow env w s).map (·.userID)) := by
  have hentry := openEntry_of_active he hactive
  obtain ⟨htrimmed, hplain⟩ := resolves_cacheThenRow husers hs
  simp only [cacheThenRow, hentry, Option.bind_some, halike.1] at htrimmed hplain
  cases lookup with
  | authorize => exact htrimmed _ (by simp)
  | consent returnTo =>
    obtain ⟨parsed, client, hparsed, hclient⟩ := hother
    simp [resolves_consent hs, he, hactive, hparsed, hclient]
  | device => exact hplain _ (by simp)
  | mfaSetup => exact hplain _ (by simp)
  | passkeySetup => exact htrimmed _ (by simp)
  | pushApproval => exact htrimmed _ (by simp)
  | admin required =>
    rw [resolves_admin hs, hentry, Option.map_some, Option.some_or, Option.bind_some,
      enteringUser_of_letIn (hother.1 e he), adminSession_userID]
    exact halike.2

theorem resolves_of_row (he : cachedEntry w s = none) (husers : UsersExist env w s)
    (hs : nonblank presented = some s) (hother : lookup.Otherwise env w s) :
    lookup.resolves env w presented = (openRow env w s).map (·.userID) := by
  have hentry : openEntry w s = none := by simp [openEntry, he]
  obtain ⟨htrimmed, hplain⟩ := resolves_cacheThenRow husers hs
  simp only [cacheThenRow, hentry, Option.bind_none, Option.none_or] at htrimmed hplain
  cases lookup with
  | authorize => exact htrimmed _ (by simp)
  | consent returnTo =>
    obtain ⟨parsed, client, hparsed, hclient⟩ := hother
    simp [resolves_consent hs, he, hparsed, hclient]
  | device => exact hplain _ (by simp)
  | mfaSetup => exact hplain _ (by simp)
  | passkeySetup => exact htrimmed _ (by simp)
  | pushApproval => exact htrimmed _ (by simp)
  | admin required =>
    rw [resolves_admin hs, hentry, Option.map_none, Option.none_or]
    cases hrow : openRow env w s with
    | none => rfl
    | some r =>
      have hmem := (Option.filter_eq_some_iff.mp hrow).1
      rw [Option.bind_some, enteringUser_of_letIn (hother.2 r hmem), map_findUser_id (husers.row r hmem)]
      rfl

theorem agree_of_settled (husers : UsersExist env w s) (hs : nonblank presented = some s)
    (hsettled : Settled env w s) : Agree env w presented := by
  obtain ⟨rfl, -⟩ := nonblank_eq_some.mp hs
  constructor
  · cases he : cachedEntry w (trimSpace presented) with
    | none => exact ⟨_, fun lookup hother => resolves_of_row he husers hs hother⟩
    | some e =>
      have hentry := hsettled e he
      cases hactive : isSessionEntryActive e w.now with
      | true =>
        rw [if_pos hactive] at hentry
        exact ⟨_, fun lookup hother => resolves_of_entry he hactive hentry husers hs hother⟩
      | false =>
        rw [if_neg (by simp [hactive])] at hentry
        exact ⟨none, fun lookup _ => resolves_none (openEntry_of_inactive he hactive) hentry hs lookup⟩
  · intro e he hstopped
    have hinactive := inactive_of_stopped hstopped w.now
    have hrow := hsettled e he
    rw [if_neg (by simp [hinactive])] at hrow
    exact resolves_none (openEntry_of_inactive he hinactive) hrow hs

theorem settled_of_agree (husers : UsersExist env w s) (hs : nonblank presented = some s)
    {returnTo : String} (hconsent : (Lookup.consent returnTo).Otherwise env w s)
    (hadmin : (Lookup.admin required).Otherwise env w s) (hagree : Agree env w presented) :
    Settled env w s := by
  obtain ⟨rfl, -⟩ := nonblank_eq_some.mp hs
  obtain ⟨user, halike⟩ := hagree.alike
  intro e he
  split
  next hactive =>
    have hentry := openEntry_of_active he hactive
    have htrimmed := halike .authorize trivial
    have hplain := halike .device trivial
    have hparsed := halike (.admin required) hadmin
    rw [resolves_authorize hs, cacheThenRow, hentry, Option.bind_some] at htrimmed
    rw [resolves_device hs, cacheThenRow, hentry, Option.bind_some] at hplain
    rw [resolves_admin hs, hentry, Option.map_some, Option.some_or, Option.bind_some,
      enteringUser_of_letIn (hadmin.1 e he), adminSession_userID] at hparsed
    exact ⟨htrimmed.trans hplain.symm, hparsed.trans hplain.symm⟩
  next hactive =>
    have hinactive := Bool.eq_false_iff.mpr hactive
    have hrow := halike .authorize trivial
    have hnone := halike (.consent returnTo) hconsent
    rw [resolves_authorize hs, cacheThenRow, openEntry_of_inactive he hinactive, Option.bind_none,
      Option.none_or] at hrow
    obtain ⟨parsed, client, hparsed, -⟩ := hconsent
    rw [resolves_consent hs, he, hparsed, Option.bind_some, if_neg (by simp [hinactive])] at hnone
    exact Option.map_eq_none_iff.mp (hrow.trans hnone.symm)

/-- **When the lookups agree.** Whatever the cache and the table have of the session: the users the stores
name exist, and the consent page and the administration have a request that they would serve for an active
session. Then all lookups give one answer, and reject a session that the cache has locked or logged out, if
and only if the stores are settled. -/
theorem lookups_agree (env : Env) (w : World) (presented : String)
    (husers : UsersExist env w (trimSpace presented))
    (hconsent : ∃ returnTo, (Lookup.consent returnTo).Otherwise env w (trimSpace presented))
    (hadmin : ∃ required, (Lookup.admin required).Otherwise env w (trimSpace presented)) :
    Agree env w presented ↔ (trimSpace presented ≠ "" → Settled env w (trimSpace presented)) := by
  obtain ⟨returnTo, hconsent⟩ := hconsent
  obtain ⟨required, hadmin⟩ := hadmin
  constructor
  · intro hagree hne
    exact settled_of_agree husers (nonblank_eq_some.mpr ⟨rfl, hne⟩) hconsent hadmin hagree
  · intro hsettled
    cases hs : nonblank presented with
    | none => exact ⟨⟨none, fun lookup _ => resolves_blank hs lookup⟩, fun _ _ _ => resolves_blank hs⟩
    | some s =>
      obtain ⟨rfl, hne⟩ := nonblank_eq_some.mp hs
      exact agree_of_settled husers hs (hsettled hne)

/-! ## One session in two stores -/

def strongSession : Session :=
  ⟨1, "s1", 7, "sub-7", "urn:idp:acr:mfa", "", "", "", 0, 3600 * second, none⟩

def inBoth (status : String) : World :=
  let entry := { Authn.sessionEntry strongSession with status := status, stateMask := 0#32 }
  { oneSession with
    db := { oneSession.db with sessions := [strongSession] }
    sessions := SessionCache.empty.save 0 entry (3600 * second) }

def rowLoggedOut (status : String) : World :=
  let w := inBoth status
  { w with db := { w.db with sessions := [{ strongSession with loggedOutAt := some 0 }] } }

def phoneEnv : Env := Consent.phoneServer.toEnv

theorem phone_consents (hclient :
    (outcome (Consent.findClient phoneEnv (Consent.readBack Consent.phoneRequest)) w).isSome = true) :
    (Lookup.consent Consent.phoneURL).Otherwise phoneEnv w s := by
  obtain ⟨client, hclient⟩ := Option.isSome_iff_exists.mp hclient
  exact ⟨_, client, Consent.parseAuthorizeReturnTo_eq Consent.phoneURL_request (by decide +kernel)
    (by decide +kernel), hclient⟩

theorem users_exist (status : String) (h : status = "active" ∨ status = "locked") :
    UsersExist phoneEnv (inBoth status) "s1" := by
  rcases h with rfl | rfl <;> exact ⟨by decide +kernel, by decide +kernel⟩

/-- The lookups agree on a session that is active in both stores. On one that is locked in the cache
they agree when its row is logged out too. -/
theorem lookups_agree_stores : Agree phoneEnv (inBoth "active") "s1" ∧
    Agree phoneEnv (rowLoggedOut "locked") "s1" := by
  have htrim : trimSpace "s1" = "s1" := by decide
  constructor
  · have hactive : ∀ e ∈ cachedEntry (inBoth "active") "s1",
        isSessionEntryActive e (inBoth "active").now = true ∧ e.userID = formatInt 7 := by decide +kernel
    refine (lookups_agree phoneEnv (inBoth "active") "s1" (htrim.symm ▸ users_exist _ (.inl rfl))
      ⟨Consent.phoneURL, phone_consents (by decide +kernel)⟩
      ⟨[], by decide +kernel, by decide +kernel⟩).mpr fun _ => ?_
    rw [htrim]
    intro e he
    rw [if_pos (hactive e he).1]
    exact readAlike_of_plain (by decide) (by decide) (hactive e he).2 (by decide +kernel)
  · have hinactive : ∀ e ∈ cachedEntry (rowLoggedOut "locked") "s1",
        isSessionEntryActive e (rowLoggedOut "locked").now = false := by decide +kernel
    refine (lookups_agree phoneEnv (rowLoggedOut "locked") "s1"
      (htrim.symm ▸ ⟨by decide +kernel, by decide +kernel⟩)
      ⟨Consent.phoneURL, phone_consents (by decide +kernel)⟩
      ⟨[], by decide +kernel, by decide +kernel⟩).mpr fun _ => ?_
    rw [htrim]
    intro e he
    rw [if_neg (by simp [hinactive e he])]
    decide +kernel

/-- **The lookups do not agree.** A session is locked in the cache and active in the table. The consent page
rejects it; every lookup that goes on to the row accepts it. -/
theorem lockedStillAccepted : UsersExist phoneEnv (inBoth "locked") "s1" ∧
    (∃ e, cachedEntry (inBoth "locked") "s1" = some e ∧ Stopped e) ∧
    (∀ lookup ∈ [Lookup.authorize, .device, .mfaSetup, .passkeySetup, .pushApproval],
      lookup.resolves phoneEnv (inBoth "locked") "s1" = some 7) ∧
    (Lookup.admin []).resolves phoneEnv (inBoth "locked") "s1" = some 7 ∧
    (Lookup.consent Consent.phoneURL).Otherwise phoneEnv (inBoth "locked") "s1" ∧
    (Lookup.consent Consent.phoneURL).resolves phoneEnv (inBoth "locked") "s1" = none ∧
    ¬ Agree phoneEnv (inBoth "locked") "s1" := by
  have hlocked : ∀ e ∈ cachedEntry (inBoth "locked") "s1",
      (normalizeSessionStateMask e.stateMask e.status).Any sessionStateLocked := by decide +kernel
  have hs : nonblank "s1" = some "s1" := by decide +kernel
  obtain ⟨e, he⟩ : ∃ e, cachedEntry (inBoth "locked") "s1" = some e :=
    Option.isSome_iff_exists.mp (by decide +kernel)
  have hstopped : Stopped e := .inl (hlocked e he)
  have hauthorize : Lookup.authorize.resolves phoneEnv (inBoth "locked") "s1" = some 7 := by decide +kernel
  refine ⟨users_exist _ (.inr rfl), ⟨e, he, hstopped⟩, ?_, by decide +kernel,
    phone_consents (by decide +kernel), ?_, fun hagree => ?_⟩
  · simp only [List.forall_mem_cons, List.not_mem_nil, false_imp_iff, implies_true, and_true]
    exact ⟨hauthorize, by decide +kernel, by decide +kernel, by decide +kernel, by decide +kernel⟩
  · rw [resolves_consent hs, he]
    simp [inactive_of_stopped hstopped]
  · have htrim : trimSpace "s1" = "s1" := by decide
    rw [hagree.stopped e (htrim.symm ▸ he) hstopped .authorize] at hauthorize
    cases hauthorize

end Law

end IdpServer.Laws.Session
