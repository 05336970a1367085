import IdpServer.Laws.Authz.Codes
import IdpServer.Laws.Session.Agreement

/-!
# Laws.Authz.Linking — the session a code is recorded for

The session is taken from the cache if it is there, else from its row. The code is recorded alike
(`recorded_alike`), but **only one issued from the row is linked to it** (`unlinked`).
-/

namespace IdpServer.Laws.Authz

open Conc Conc.Prog IdpServer.Cache Go IdpServer.Authz
open Laws.Consent (Serves activeSession cachedEntry findClient_eq_ok findActiveSession_eval
  hasActiveConsent_silent issueCode_eval)
open Laws.Session (Collation parseUserID_formatInt)

/-- The row `authorize` adds to the table of codes, if it adds one. -/
def recorded (env : Env) (code : String) (cmd : AuthorizationCommand) (w : World) : Option AuthorizationCode :=
  (((authorize env code cmd).run.eval w).2.db.authCodes.drop w.db.authCodes.length).head?

/-! ## What is recorded -/

section Recorded

variable {env : Env} {w : World} {cmd : AuthorizationCommand} {client : Client} {session : Session}
  {code sessionID : String}

theorem recorded_of_eval {r : Except AuthzError AuthorizationResult} {w' : World}
    {rows : List AuthorizationCode} (h : (authorize env code cmd).run.eval w = (r, w'))
    (hrows : w'.db.authCodes = w.db.authCodes ++ rows) : recorded env code cmd w = rows.head? := by
  rw [recorded, h, hrows, List.drop_left]

theorem recorded_of_refused (h : ∀ client, ¬ Serves env cmd client) : recorded env code cmd w = none := by
  have hsilent : (Authz.findClient env cmd).run.Silent :=
    .require_then <| .require_then <| .ask fun _ => .found_then fun _ => .require_then <| .require_then <|
      .require_then <| .require_then <| .require_then trivial
  cases hclient : (Authz.findClient env cmd).run.eval w with
  | mk r t =>
    obtain rfl : t = w := (congrArg Prod.snd hclient).symm.trans hsilent.eval
    cases r with
    | ok client => exact absurd (findClient_eq_ok.mp hclient).1 (h client)
    | error e => exact recorded_of_eval (eval_bind_of_error hclient) (List.append_nil _).symm

theorem recorded_of_session (hserves : Serves env cmd client) (hid : nonblank cmd.sessionID = some sessionID)
    (hactive : activeSession env w sessionID = some session)
    (hfresh : ∀ r ∈ w.db.authCodes, env.sqlEq r.code code = false) :
    recorded env code cmd w = if client.requireConsent = true →
          outcome (hasActiveConsent session.userID client.id (requestedScopes cmd.scope)) w = some true then
        some (w.db.codeStored (codeRow env code cmd client session w.now))
      else none := by
  have hsession : (requestSession env cmd).run.eval w = (.ok (some session), w) := by
    rw [requestSession, hid, ← hactive]
    exact findActiveSession_eval sessionID
  have hstart : (authorize env code cmd).run.eval w = _ :=
    (eval_bind_of_ok (findClient_eq_ok.mpr ⟨hserves, rfl⟩)).trans (eval_bind_of_ok hsession)
  have hissue := issueCode_eval cmd client session hfresh
  cases hconsent : client.requireConsent with
  | false =>
    rw [hconsent] at hstart
    exact recorded_of_eval (hstart.trans hissue) rfl
  | true =>
    rw [hconsent] at hstart
    have hsilent := hasActiveConsent_silent session.userID client.id (requestedScopes cmd.scope)
    cases hcovered : (hasActiveConsent session.userID client.id (requestedScopes cmd.scope)).run.eval w with
    | mk r t =>
      obtain rfl : t = w := (congrArg Prod.snd hcovered).symm.trans hsilent.eval
      unfold outcome
      rw [hcovered]
      cases r with
      | error e =>
        exact recorded_of_eval (hstart.trans (eval_bind_of_error hcovered)) (List.append_nil _).symm
      | ok covered =>
        have hrest := hstart.trans (eval_bind_of_ok hcovered)
        cases covered with
        | false =>
          exact recorded_of_eval hrest (List.append_nil _).symm
        | true =>
          exact recorded_of_eval (hrest.trans hissue) rfl

theorem recorded_of_sessions {w' : World} (hdb : w'.db = w.db) (hnow : w'.now = w.now)
    (hid : nonblank cmd.sessionID = some sessionID) {session' : Session}
    (hactive : activeSession env w sessionID = some session)
    (hactive' : activeSession env w' sessionID = some session') (huser : session'.userID = session.userID)
    {code' : String} (hfresh : ∀ r ∈ w.db.authCodes, env.sqlEq r.code code = false)
    (hfresh' : ∀ r ∈ w.db.authCodes, env.sqlEq r.code code' = false) :
    recorded env code' cmd w' = (recorded env code cmd w).map fun row =>
      { row with code := code', sessionDBID := if session'.id > 0 then some session'.id else none } := by
  by_cases hserves : ∃ client, Serves env cmd client
  · obtain ⟨client, hserves⟩ := hserves
    have hcovered : outcome (hasActiveConsent session'.userID client.id (requestedScopes cmd.scope)) w' =
        outcome (hasActiveConsent session.userID client.id (requestedScopes cmd.scope)) w := by
      rw [huser, hasActiveConsent, Repository.findActiveConsent, outcome_ask, outcome_ask, hdb]
      split
      next => rfl
      next => rw [outcome_found, outcome_found]; rfl
    rw [recorded_of_session hserves hid hactive hfresh,
      recorded_of_session hserves hid hactive' (by rw [hdb]; exact hfresh'), hcovered]
    split
    next =>
      simp only [Option.map_some, Database.codeStored, codeRow, codeModel, hdb, hnow, huser]
    next => rfl
  · have hnone : ∀ client, ¬ Serves env cmd client := fun client h => hserves ⟨client, h⟩
    rw [recorded_of_refused hnone, recorded_of_refused hnone]
    rfl

end Recorded

/-! ## A session from login to code -/

section Login

variable {env : Env} {w₀ w₁ : World} {sessionID : String} {user : User} {method : Authn.AuthnMethodType}
  {ipAddress userAgent redirectURI returnTo : String} {now : Int} {result : Authn.AuthenticateResult}

theorem createSession_leaves (hE : Collation env.sqlEq)
    (hlogin : (Authn.createSession env sessionID user method ipAddress userAgent redirectURI returnTo
      now).run.eval w₀ = (.ok result, w₁)) :
    (∃ e, cachedEntry w₁ sessionID = some e ∧ e.userID = formatInt user.id) ∧
    ∃ row, w₁.db.findSession env.sqlEq sessionID = some row ∧ row.userID = user.id ∧ 0 < row.id := by
  obtain ⟨context, t, -, hlogin⟩ := eval_bind_eq_ok.mp hlogin
  obtain ⟨created, t₁, hcreate, hlogin⟩ := eval_bind_eq_ok.mp hlogin
  obtain ⟨_, _, hcreated, hlogin⟩ := eval_bind_eq_ok.mp hlogin
  obtain ⟨rfl, rfl⟩ := eval_require_eq_ok.mp hcreated
  obtain ⟨_, t₂, hsave, hlogin⟩ := eval_bind_eq_ok.mp hlogin
  obtain ⟨-, rfl⟩ := eval_pure_eq_ok.mp hlogin
  have hsaved := eval_call_eq_ok.mp hsave
  have hrow := eval_call_eq_ok.mp hcreate
  obtain ⟨-, rfl⟩ := Prod.mk.inj hsaved
  obtain ⟨htrue, rfl⟩ := Prod.mk.inj hrow
  constructor
  · obtain ⟨h, hget, hh⟩ := SessionCache.hmget_save_self t.sessions t.now
      (Authn.sessionEntry (Authn.sessionModel env sessionID user context ipAddress userAgent now)) env.sessionTTL
    exact ⟨_, Option.map_eq_some_iff.mpr ⟨h, hget, rfl⟩, hh⟩
  · exact ⟨_, Database.findSession_createSession (hE.refl sessionID) htrue, rfl, nextID_pos _⟩

/-- **A code is recorded alike from the cache and from the row, but for the link.** A login has created a
session, which is active in both stores of `w`; `w'` is the same without the entry in the cache. Then
whatever is asked for, a code is recorded in both or in neither, and the rows agree in every column but the
code itself and the link: the row of the session is linked to where it was read, and not where the cache had
the session. -/
theorem recorded_alike (env : Env) (hE : Collation env.sqlEq)
    (hlogin : (Authn.createSession env sessionID user method ipAddress userAgent redirectURI returnTo
      now).run.eval w₀ = (.ok result, w₁)) (w w' : World)
    (hcached : cachedEntry w sessionID = cachedEntry w₁ sessionID)
    (hrow : w.db.findSession env.sqlEq sessionID = w₁.db.findSession env.sqlEq sessionID)
    (hactive : ∀ e ∈ cachedEntry w sessionID, isSessionEntryActive e w.now = true)
    (hopen : ∀ row ∈ w.db.findSession env.sqlEq sessionID, row.loggedOutAt = none ∧ w.now < row.expiresAt)
    (hmissing : cachedEntry w' sessionID = none) (hdb : w'.db = w.db) (hnow : w'.now = w.now)
    {cmd : AuthorizationCommand} (hid : nonblank cmd.sessionID = some sessionID) (code code' : String)
    (hfresh : ∀ r ∈ w.db.authCodes, env.sqlEq r.code code = false)
    (hfresh' : ∀ r ∈ w.db.authCodes, env.sqlEq r.code code' = false) :
    ∃ row, w.db.findSession env.sqlEq sessionID = some row ∧ 0 < row.id ∧
      recorded env code' cmd w' = (recorded env code cmd w).map
        (fun r => { r with code := code', sessionDBID := some row.id }) ∧
      (0 < user.id → user.id < 2 ^ 63 → ∀ r ∈ recorded env code cmd w, r.sessionDBID = none) := by
  obtain ⟨⟨e, he, huser⟩, row, hfound, hrowUser, hpos⟩ := createSession_leaves hE hlogin
  rw [← hcached] at he
  rw [← hrow] at hfound
  have hactive' : activeSession env w' sessionID = some row := by
    rw [activeSession, hmissing, hdb, hfound]
    simp [hopen row hfound, hnow]
  have hlink : (if row.id > 0 then some row.id else none) = some row.id := if_pos hpos
  refine ⟨row, hfound, hpos, ?_, fun hpositive hrange r hr => ?_⟩
  · obtain ⟨session, hsession, huser'⟩ : ∃ session, activeSession env w sessionID = some session ∧
        session.userID = user.id := by
      rw [activeSession, he, Option.filter_some, if_pos (hactive e he), Option.bind_some, huser,
        trimSpace_formatInt]
      cases hparse : parseUserID (formatInt user.id) with
      | some id =>
        have hvalue := (Option.filter_eq_some_iff.mp hparse).1
        exact ⟨cachedSession e id, rfl, eq_of_parseInt_formatInt hvalue⟩
      | none =>
        refine ⟨row, ?_, hrowUser⟩
        simp [hfound, hopen row hfound]
    have h := recorded_of_sessions hdb hnow hid hsession hactive' (hrowUser.trans huser'.symm) hfresh hfresh'
    rwa [hlink] at h
  · have hsession : activeSession env w sessionID = some (cachedSession e user.id) := by
      rw [activeSession, he, Option.filter_some, if_pos (hactive e he), Option.bind_some, huser,
        trimSpace_formatInt, parseUserID_formatInt hpositive hrange]
      rfl
    have h := recorded_of_sessions rfl rfl hid hsession hsession rfl hfresh hfresh
    rw [hr] at h
    have heq := congrArg AuthorizationCode.sessionDBID (Option.some.inj h)
    simpa [cachedSession] using heq

end Login

/-! ## A login at the application -/

def webEnv : Env := .plain [webApp]

def ada : User := ⟨7, "sub-7", "ada", "ada@example", true, "Ada", "pw", "user", 0#32, "", "active"⟩

def afterLogin : Except Authn.AuthnError Authn.AuthenticateResult × World :=
  (Authn.createSession webEnv "s" ada .password "" "" "" "" 0).run.eval (World.empty 0)

def cacheEmptied : World := { afterLogin.2 with sessions := SessionCache.empty }

theorem loginCommand_session : nonblank loginCommand.sessionID = some "s" := by decide +kernel

theorem recorded_alike_login : ∃ row, afterLogin.2.db.findSession webEnv.sqlEq "s" = some row ∧ 0 < row.id ∧
    recorded webEnv "d" loginCommand cacheEmptied = (recorded webEnv "c" loginCommand afterLogin.2).map
      (fun r => { r with code := "d", sessionDBID := some row.id }) ∧
    (0 < ada.id → ada.id < 2 ^ 63 →
      ∀ r ∈ recorded webEnv "c" loginCommand afterLogin.2, r.sessionDBID = none) := by
  obtain ⟨result, hresult⟩ : ∃ result, afterLogin.1 = .ok result := by
    have h : afterLogin.1.toOption.isSome = true := by decide +kernel
    cases hr : afterLogin.1 with
    | ok result => exact ⟨result, rfl⟩
    | error e => rw [hr] at h; cases h
  have hlogin : (Authn.createSession webEnv "s" ada .password "" "" "" "" 0).run.eval (World.empty 0) =
      (.ok result, afterLogin.2) := Prod.ext hresult rfl
  exact recorded_alike webEnv (Session.collation_plain _) hlogin afterLogin.2 cacheEmptied rfl rfl
    (by decide +kernel) (by decide +kernel) rfl rfl rfl loginCommand_session "c" "d" (by decide +kernel)
    (by decide +kernel)

/-- **The codes are not linked alike.** The session is active in both stores. The code is linked to its row
if the entry is missing from the cache, and to no session if it is there. -/
theorem unlinked : afterLogin.1.toOption.isSome = true ∧
    (∀ e ∈ cachedEntry afterLogin.2 "s", isSessionEntryActive e afterLogin.2.now = true) ∧
    (∀ row ∈ afterLogin.2.db.findSession webEnv.sqlEq "s",
      row.loggedOutAt = none ∧ afterLogin.2.now < row.expiresAt) ∧
    (recorded webEnv "c" loginCommand afterLogin.2).map (·.sessionDBID) = some none ∧
    (recorded webEnv "d" loginCommand cacheEmptied).map (·.sessionDBID) = some (some 1) := by
  decide +kernel

end IdpServer.Laws.Authz
