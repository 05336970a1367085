import IdpServer.Laws.Authz.Linking

/-!
# Laws.Token.AuthTime — when the user logged in, as an ID token tells it

`auth_time` is **the time of the exchange** (`exchange_idToken`), and tells the login only when both fall
into the same second (`auth_time_tells`, `toldTooLate`).
-/

namespace IdpServer.Laws.Token

open Conc Conc.Prog IdpServer.Cache Go IdpServer.Token
open Laws.Authz (recorded)
open Laws.Consent (activeSession cachedEntry)

structure Login where
  sessionID : String
  user : User
  method : Authn.AuthnMethodType
  ipAddress : String
  userAgent : String
  redirectURI : String
  returnTo : String
  now : Int

/-- **A code from the login to the tokens.** The stores may change between the three calls; the session is
found at the request as the login left it, and the code at the exchange as the request left it. -/
structure CodeFlow (env : Env) (login : Login) (session : Session) (cmd : Authz.AuthorizationCommand)
    (draws : Draws) (input : ExchangeInput) (w : World) (result : ExchangeResult) where
  /-- The stores before and after the login. -/
  start : World
  left : World
  loggedIn : ∃ answer, (Authn.createSession env login.sessionID login.user login.method login.ipAddress
    login.userAgent login.redirectURI login.returnTo login.now).run.eval start = (.ok answer, left)
  /-- The stores at the request. -/
  asked : World
  requested : nonblank cmd.sessionID = some login.sessionID
  cached : cachedEntry asked login.sessionID = none ∨
    cachedEntry asked login.sessionID = cachedEntry left login.sessionID
  stored : asked.db.findSession env.sqlEq login.sessionID = left.db.findSession env.sqlEq login.sessionID
  active : activeSession env asked login.sessionID = some session
  /-- The code of the request, which asks for an ID token. -/
  row : AuthorizationCode
  issued : recorded env input.code cmd asked = some row
  openid : "openid" ∈ mustDecodeScopeJSON row.scopesJSON
  kept : w.db.authCodes.find? (fun r => env.sqlEq r.code input.code) = some row
  redeemed : outcome (exchangeAuthorizationCode env draws input) w = some result

section Claims

variable {env : Env} {draws : Draws} {input : ExchangeInput} {w w' : World} {result : ExchangeResult}

theorem exchange_idToken {row : AuthorizationCode}
    (hrow : w.db.authCodes.find? (fun r => env.sqlEq r.code input.code) = some row)
    (hopenid : "openid" ∈ mustDecodeScopeJSON row.scopesJSON)
    (hexchange : (exchangeAuthorizationCode env draws input).run.eval w = (.ok result, w')) :
    ∃ client user, env.mintIDToken (idClaims env client user row w.now draws.idJTI) = some result.idToken := by
  obtain ⟨client, t, hclient, h⟩ := eval_bind_eq_ok.mp hexchange
  obtain rfl : t = w := (congrArg Prod.snd hclient).symm.trans (findClient_silent _ _ _).eval
  obtain ⟨_, _, hredirect, h⟩ := eval_bind_eq_ok.mp h
  obtain ⟨-, rfl⟩ := eval_require_eq_ok.mp hredirect
  obtain ⟨_, _, hsecret, h⟩ := eval_bind_eq_ok.mp h
  obtain ⟨-, rfl⟩ := eval_require_eq_ok.mp hsecret
  obtain ⟨consumedAt, _, hclock, h⟩ := eval_bind_eq_ok.mp h
  obtain ⟨-, rfl⟩ := Prod.mk.inj (eval_lift_eq_ok.mp hclock)
  obtain ⟨found, _, hconsume, h⟩ := eval_bind_eq_ok.mp h
  obtain ⟨hfound, rfl⟩ := Prod.mk.inj (eval_call_eq_ok.mp hconsume)
  obtain ⟨code, _, hcode, h⟩ := eval_bind_eq_ok.mp h
  obtain ⟨rfl, rfl⟩ := eval_found_eq_ok.mp hcode
  obtain rfl : code = row :=
    Option.some.inj ((Database.consumeByCode_find hfound).symm.trans hrow)
  obtain ⟨_, _, hsame, h⟩ := eval_bind_eq_ok.mp h
  obtain ⟨-, rfl⟩ := eval_require_eq_ok.mp hsame
  obtain ⟨_, _, hsame, h⟩ := eval_bind_eq_ok.mp h
  obtain ⟨-, rfl⟩ := eval_require_eq_ok.mp hsame
  obtain ⟨_, _, hverifier, h⟩ := eval_bind_eq_ok.mp h
  obtain ⟨-, rfl⟩ := eval_require_eq_ok.mp hverifier
  obtain ⟨_, _, hread, h⟩ := eval_bind_eq_ok.mp h
  obtain ⟨-, rfl⟩ := Prod.mk.inj (eval_call_eq_ok.mp hread)
  obtain ⟨user, _, huser, h⟩ := eval_bind_eq_ok.mp h
  obtain ⟨-, rfl⟩ := eval_found_eq_ok.mp huser
  obtain ⟨now, _, hnow, h⟩ := eval_bind_eq_ok.mp h
  obtain ⟨rfl, rfl⟩ := Prod.mk.inj (eval_lift_eq_ok.mp hnow)
  obtain ⟨tokens, _, -, h⟩ := eval_bind_eq_ok.mp h
  rw [if_pos hopenid] at h
  obtain ⟨idToken, _, hmint, h⟩ := eval_bind_eq_ok.mp h
  obtain ⟨rfl, -⟩ := eval_pure_eq_ok.mp h
  exact ⟨client, user, (eval_found_eq_ok.mp hmint).1⟩

/-- **When the ID token tells the login.** However long it takes: the `auth_time` of the ID token is the
second in which the session of the code was authenticated if and only if the exchange is made in that
second. Tokens of the signer carry the claims they were signed for. -/
theorem auth_time_tells (env : Env) (readAuthTime : String → Option Int)
    (hcarries : ∀ claims token, env.mintIDToken claims = some token →
      readAuthTime token = some claims.authTime)
    {login : Login} {session : Session} {cmd : Authz.AuthorizationCommand}
    (flow : CodeFlow env login session cmd draws input w result) :
    readAuthTime result.idToken = some (unix session.authenticatedAt) ↔
      unix w.now = unix session.authenticatedAt := by
  obtain ⟨_, hexchange⟩ := outcome_eq_some.mp flow.redeemed
  obtain ⟨client, user, hmint⟩ := exchange_idToken flow.kept flow.openid hexchange
  rw [hcarries _ _ hmint, Option.some.injEq]
  exact Iff.rfl

end Claims

/-! ## Ten seconds -/

def showingEnv : Env :=
  { Env.plain [Authz.webApp] with mintIDToken := fun claims => (checkInt64 claims.authTime).map formatInt }

theorem showingEnv_carries (claims : IDClaims) (token : String)
    (h : showingEnv.mintIDToken claims = some token) : parseInt token = some claims.authTime := by
  obtain ⟨t, ht, rfl⟩ := Option.map_eq_some_iff.mp h
  obtain rfl : claims.authTime = t := by
    unfold checkInt64 at ht
    split at ht
    · exact Option.some.inj ht
    · cases ht
  rw [parseInt_formatInt, ht]

def adasLogin : Login := ⟨"s", Authz.ada, .password, "", "", "", "", 0⟩

def beforeLogin : World := { World.empty 0 with db := { Database.empty with users := [Authz.ada] } }

def afterLogin : World :=
  ((Authn.createSession showingEnv "s" Authz.ada .password "" "" "" "" 0).run.eval beforeLogin).2

def afterRequest (delay : Int) : World :=
  let w := ((Authz.authorize showingEnv "c" Authz.loginCommand).run.eval afterLogin).2
  { w with now := w.now + delay * Store.second }

def redeem (delay : Int) : Option ExchangeResult :=
  outcome (exchangeAuthorizationCode showingEnv ⟨"a", "i", "r"⟩ Authz.loginExchange) (afterRequest delay)

theorem flow_of_redeem {delay : Int} (hok : (redeem delay).isSome = true)
    (hkept : (afterRequest delay).db.authCodes.find? (fun r => showingEnv.sqlEq r.code "c") =
      recorded showingEnv "c" Authz.loginCommand afterLogin) :
    ∃ session result, session.authenticatedAt = 0 ∧ redeem delay = some result ∧
      Nonempty (CodeFlow showingEnv adasLogin session Authz.loginCommand ⟨"a", "i", "r"⟩ Authz.loginExchange
        (afterRequest delay) result) := by
  obtain ⟨session, hsession⟩ : ∃ session, activeSession showingEnv afterLogin "s" = some session :=
    Option.isSome_iff_exists.mp (by decide +kernel)
  obtain ⟨row, hrow⟩ : ∃ row, recorded showingEnv "c" Authz.loginCommand afterLogin = some row :=
    Option.isSome_iff_exists.mp (by decide +kernel)
  obtain ⟨answer, hanswer⟩ : ∃ answer, outcome (Authn.createSession showingEnv "s" Authz.ada .password
      "" "" "" "" 0) beforeLogin = some answer := Option.isSome_iff_exists.mp (by decide +kernel)
  obtain ⟨result, hresult⟩ := Option.isSome_iff_exists.mp hok
  have hzero : ∀ session ∈ activeSession showingEnv afterLogin "s", session.authenticatedAt = 0 := by
    decide +kernel
  have hopenid : ∀ row ∈ recorded showingEnv "c" Authz.loginCommand afterLogin,
      "openid" ∈ mustDecodeScopeJSON row.scopesJSON := by decide +kernel
  refine ⟨session, result, hzero session hsession, hresult, ⟨?_⟩⟩
  exact {
    start := beforeLogin
    left := afterLogin
    loggedIn := by
      obtain ⟨t, hlogin⟩ := outcome_eq_some.mp hanswer
      have hleft : afterLogin = t := congrArg Prod.snd hlogin
      exact ⟨answer, hleft ▸ hlogin⟩
    asked := afterLogin
    requested := Authz.loginCommand_session
    cached := .inr rfl
    stored := rfl
    active := hsession
    row := row
    issued := hrow
    openid := hopenid row hrow
    kept := hkept.trans hrow
    redeemed := hresult }

theorem auth_time_tells_atOnce : ∃ session result, Nonempty (CodeFlow showingEnv adasLogin session
      Authz.loginCommand ⟨"a", "i", "r"⟩ Authz.loginExchange (afterRequest 0) result) ∧
    parseInt result.idToken = some (unix session.authenticatedAt) := by
  obtain ⟨session, result, hzero, -, ⟨flow⟩⟩ := @flow_of_redeem 0 (by decide +kernel) (by decide +kernel)
  refine ⟨session, result, ⟨flow⟩, (auth_time_tells showingEnv parseInt showingEnv_carries flow).mpr ?_⟩
  rw [hzero]
  decide +kernel

/-- **The ID token tells the exchange.** A user logs in at second 0, and the code is redeemed ten seconds
later; the ID token has it that the user logged in at second 10. -/
theorem toldTooLate : ∃ session result, Nonempty (CodeFlow showingEnv adasLogin session
      Authz.loginCommand ⟨"a", "i", "r"⟩ Authz.loginExchange (afterRequest 10) result) ∧
    unix session.authenticatedAt = 0 ∧ parseInt result.idToken = some 10 := by
  obtain ⟨session, result, hzero, hresult, hflow⟩ :=
    @flow_of_redeem 10 (by decide +kernel) (by decide +kernel)
  have htold : (redeem 10).bind (parseInt ·.idToken) = some 10 := by decide +kernel
  rw [hresult] at htold
  exact ⟨session, result, hflow, by rw [hzero]; rfl, htold⟩

end IdpServer.Laws.Token
