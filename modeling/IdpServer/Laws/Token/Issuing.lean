import IdpServer.Conc.Wp
import IdpServer.Token.Service

/-!
# Laws.Token.Issuing — what the token endpoint does to the stores

Which commands the token endpoint ever sends (`exchange_acts`), which refresh token is stored and presented
(`exchange_granting`, `exchange_sends`), and for whom (`exchange_account`).
-/

namespace IdpServer.Laws.Token

open Conc IdpServer.Cache IdpServer.Token

/-- The command stores a token, in the database or in the cache. -/
def stores : Label → Bool
  | .createAccessToken _ | .saveAccessToken .. | .createRefreshToken _ | .saveRefreshToken ..
  | .rotateRefreshToken .. | .rotateToken .. => true
  | _ => false

inductive Issuing : Label → (World → World) → Prop
  | createAccessToken (t : AccessToken) (h : t.revokedAt = none) :
      Issuing (.createAccessToken t) fun w => { w with db := (w.db.createAccessToken t).2 }
  | saveAccessToken (sha : String) (e : AccessTokenHash) (ttl : Int) :
      Issuing (.saveAccessToken sha e ttl)
        fun w => { w with tokens := w.tokens.saveAccessToken w.now sha e ttl }
  | createRefreshToken (t : RefreshToken) (h : t.revokedAt = none ∧ t.replacedByTokenID = none) :
      Issuing (.createRefreshToken t) fun w => { w with db := (w.db.createRefreshToken t).2 }
  | saveRefreshToken (e : RefreshTokenCacheEntry) (ttl : Int) :
      Issuing (.saveRefreshToken e ttl)
        fun w => { w with tokens := w.tokens.saveRefreshToken w.now e ttl }

def firstRow (env : Env) (token : String) (client : Client) (user : User) (scopes : List String)
    (now : Int) : RefreshToken :=
  let model := refreshModel env client token (some user.id) user.userUUID scopes now
  { model with scopesJSON := env.jsonColumn model.scopesJSON }

inductive Issued (env : Env) (token : String) : Label → (World → World) → Prop
  | createAccessToken (t : AccessToken) (h : t.revokedAt = none) :
      Issued env token (.createAccessToken t)
        fun w => { w with db := (w.db.createAccessToken t).2 }
  | saveAccessToken (sha : String) (e : AccessTokenHash) (ttl : Int) :
      Issued env token (.saveAccessToken sha e ttl)
        fun w => { w with tokens := w.tokens.saveAccessToken w.now sha e ttl }
  | createRefreshToken (client : Client) (user : User) (scopes : List String) (now : Int) :
      Issued env token (.createRefreshToken (firstRow env token client user scopes now))
        fun w => { w with db :=
          (w.db.createRefreshToken (firstRow env token client user scopes now)).2 }
  | saveRefreshToken (e : RefreshTokenCacheEntry) (ttl : Int)
      (h : e.tokenSHA256 = env.sha256Hex token) :
      Issued env token (.saveRefreshToken e ttl)
        fun w => { w with tokens := w.tokens.saveRefreshToken w.now e ttl }

variable {env : Env} {token : String} {l : Label} {f : World → World} {input : ExchangeInput}
variable {P : Label → (World → World) → Prop} {sha fp : String} {draws : Draws}

theorem Issued.issuing (h : Issued env token l f) : Issuing l f := by
  cases h with
  | createAccessToken t h => exact .createAccessToken t h
  | saveAccessToken sha e ttl => exact .saveAccessToken sha e ttl
  | createRefreshToken client user scopes now => exact .createRefreshToken _ ⟨rfl, rfl⟩
  | saveRefreshToken e ttl h => exact .saveRefreshToken e ttl

theorem findClient_silent (env : Env) (clientID : String) (grantType : GrantType) :
    (findClient env clientID grantType).run.Silent := by
  refine .bind_except (.call fun _ => trivial) fun _ => ?_
  refine .bind_except .found fun _ => ?_
  refine .bind_except .require fun _ => ?_
  exact .bind_except .require fun _ => trivial

theorem findClient_gives {ι : Type} [DecidableEq ι] {D : Discipline ι World Label}
    {A : Moment ι World Label → ι → Label → Prop} {i : ι} {m : Moment ι World Label} (env : Env)
    (clientID : String) (grantType : GrantType) :
    Wp D A i (findClient env clientID grantType).run
      (Gives fun client _ => env.findByClientID (Go.trimSpace clientID) = some client) m := by
  refine .read fun m₁ _ => ?_
  refine .found fun client hclient => ?_
  refine .require fun _ => .require fun _ => ?_
  exact .ok hclient

theorem validateClientSecret_silent (env : Env) (client : Client) (secret : String) :
    (validateClientSecret env client secret).run.Silent :=
  .require

theorem issueAccessToken_issued (env : Env) (token : String) (client : Client) (sub : String)
    (userID : Option Int) (subject : String) (scopes : List String) (now : Int) (jti : String) :
    (issueAccessToken env client sub userID subject scopes now jti).run.Acts (Issued env token) := by
  refine .bind_except .found fun token => ?_
  refine .bind_except (.call ⟨.createAccessToken _ rfl, fun _ => trivial⟩) fun _ => ?_
  refine .bind_except .require fun _ => ?_
  refine .bind_except (.attempt ?_) fun _ => ?_
  · exact fun _ => ⟨.saveAccessToken _ _ _, fun _ => trivial⟩
  · exact .bind_except (.lift fun _ => trivial) fun _ => trivial

theorem issueRefreshToken_issued (env : Env) (client : Client) (user : User) (scopes : List String)
    (now : Int) (token : String) :
    (issueRefreshToken env client user scopes now token).run.Acts (Issued env token) := by
  refine .bind_except (.call
    ⟨.createRefreshToken client user scopes now, fun _ => trivial⟩) fun _ => ?_
  refine .bind_except .require fun _ => .attempt ?_
  exact fun _ => ⟨.saveRefreshToken _ _ rfl, fun _ => trivial⟩

theorem issueUserGrantTokens_issued (env : Env) (draws : Draws) (client : Client) (user : User)
    (scopes : List String) (now : Int) :
    (issueUserGrantTokens env draws client user scopes now).run.Acts
      (Issued env draws.refreshToken) := by
  refine .bind_except (issueAccessToken_issued _ _ _ _ _ _ _ _ _) fun result => ?_
  split
  · exact .bind_except (issueRefreshToken_issued _ _ _ _ _ _) fun _ => trivial
  · trivial

theorem issueUserGrantTokens_acts (env : Env) (draws : Draws) (client : Client) (user : User)
    (scopes : List String) (now : Int) :
    (issueUserGrantTokens env draws client user scopes now).run.Acts Issuing :=
  (issueUserGrantTokens_issued env draws client user scopes now).imp fun _ _ h => h.issuing

/-! ## The grants -/

inductive Exchanging : Label → (World → World) → Prop
  | issuing {l : Label} {f : World → World} (h : Issuing l f) : Exchanging l f
  | consumeByCode (env : Env) (code : String) (consumedAt : Int) :
      Exchanging (.consumeByCode code consumedAt)
        fun w => { w with db := (w.db.consumeByCode env.sqlEq code consumedAt).2 }
  | checkRefreshReplay (sha : String) (nowTS : Int) (fp : String) :
      Exchanging (.checkRefreshReplay sha nowTS fp)
        fun w => { w with tokens := (w.tokens.checkRefreshReplay w.now sha nowTS fp).2 }
  | rotateRefreshToken (oldSHA : String) (revokedAt : Int) (row : RefreshToken) :
      Exchanging (.rotateRefreshToken oldSHA revokedAt row)
        fun w => { w with db := (w.db.rotateRefreshToken oldSHA revokedAt row).2 }
  | rotateToken (oldSHA : String) (new : RefreshTokenCacheEntry) (response : TokenResponse)
      (fp : String) (newTTL graceTTL nowTS : Int) :
      Exchanging (.rotateToken oldSHA new response fp newTTL nowTS) fun w =>
        { w with tokens := (w.tokens.rotateToken w.now oldSHA new response fp
            (Go.durationSeconds newTTL) (Go.durationSeconds graceTTL) nowTS).2 }
  | touchPoll (deviceCode : String) (polledAt minInterval : Int) :
      Exchanging (.touchPoll deviceCode polledAt minInterval) fun w =>
        { w with devices := (w.devices.touchPoll w.now deviceCode polledAt minInterval).2 }
  | consumeDevice (deviceCode : String) (consumedAt : Int) :
      Exchanging (.consumeDevice deviceCode consumedAt) fun w =>
        { w with devices := w.devices.markConsumed w.now deviceCode consumedAt }
  | verifyPassword (userID : Int) : Exchanging (.verifyPassword userID) fun w => w

inductive Granting (env : Env) (token : String) : Label → (World → World) → Prop
  | issued {l : Label} {f : World → World} (h : Issued env token l f) : Granting env token l f
  | consumeByCode (code : String) (consumedAt : Int) :
      Granting env token (.consumeByCode code consumedAt)
        fun w => { w with db := (w.db.consumeByCode env.sqlEq code consumedAt).2 }
  | touchPoll (deviceCode : String) (polledAt minInterval : Int) :
      Granting env token (.touchPoll deviceCode polledAt minInterval) fun w =>
        { w with devices := (w.devices.touchPoll w.now deviceCode polledAt minInterval).2 }
  | consumeDevice (deviceCode : String) (consumedAt : Int) :
      Granting env token (.consumeDevice deviceCode consumedAt) fun w =>
        { w with devices := w.devices.markConsumed w.now deviceCode consumedAt }
  | verifyPassword (userID : Int) : Granting env token (.verifyPassword userID) fun w => w

theorem Granting.exchanging (h : Granting env token l f) : Exchanging l f := by
  cases h with
  | issued h => exact .issuing h.issuing
  | consumeByCode code consumedAt => exact .consumeByCode env code consumedAt
  | touchPoll deviceCode polledAt minInterval => exact .touchPoll deviceCode polledAt minInterval
  | consumeDevice deviceCode consumedAt => exact .consumeDevice deviceCode consumedAt
  | verifyPassword userID => exact .verifyPassword userID

theorem mintIDToken_silent (env : Env) (client : Client) (user : User) (code : AuthorizationCode)
    (now : Int) (jti : String) : (mintIDToken env client user code now jti).run.Silent :=
  .found

theorem exchangeAuthorizationCode_granting (env : Env) (draws : Draws) (input : ExchangeInput) :
    (exchangeAuthorizationCode env draws input).run.Acts (Granting env draws.refreshToken) := by
  refine .bind_except (findClient_silent _ _ _).acts fun client => ?_
  refine .require_then ?_
  refine .bind_except (validateClientSecret_silent _ _ _).acts fun _ => ?_
  refine .clock fun consumedAt => ?_
  refine .send (.consumeByCode input.code consumedAt) fun row => ?_
  refine .found_then fun code => ?_
  refine .require_then (.require_then (.require_then ?_))
  refine .ask fun row => ?_
  refine .found_then fun user => ?_
  refine .clock fun now => ?_
  refine .bind_except
    ((issueUserGrantTokens_issued _ _ _ _ _ _).imp fun _ _ h => .issued h) fun result => ?_
  split
  · exact .bind_except (mintIDToken_silent _ _ _ _ _ _).acts fun _ => trivial
  · trivial

theorem exchangeClientCredentials_granting (env : Env) (draws : Draws) (input : ExchangeInput) :
    (exchangeClientCredentials env draws input).run.Acts (Granting env draws.refreshToken) := by
  refine .bind_except (findClient_silent _ _ _).acts fun client => ?_
  refine .bind_except (validateClientSecret_silent _ _ _).acts fun _ => ?_
  refine .require_then (.clock fun now => ?_)
  exact (issueAccessToken_issued _ _ _ _ _ _ _ _ _).imp fun _ _ h => .issued h

theorem exchangePassword_granting (env : Env) (draws : Draws) (input : ExchangeInput) :
    (exchangePassword env draws input).run.Acts (Granting env draws.refreshToken) := by
  refine .bind_except (findClient_silent _ _ _).acts fun client => ?_
  refine .bind_except (validateClientSecret_silent _ _ _).acts fun _ => ?_
  refine .ask fun row => ?_
  refine .found_then fun user => ?_
  refine .require_then ?_
  refine .bind_except (.lift ⟨.verifyPassword _, fun _ => trivial⟩) fun valid => ?_
  refine .require_then (.require_then (.clock fun now => ?_))
  exact (issueUserGrantTokens_issued _ _ _ _ _ _).imp fun _ _ h => .issued h

theorem exchangeDeviceCode_granting (env : Env) (draws : Draws) (input : ExchangeInput) :
    (exchangeDeviceCode env draws input).run.Acts (Granting env draws.refreshToken) := by
  refine .bind_except (findClient_silent _ _ _).acts fun client => ?_
  refine .bind_except (validateClientSecret_silent _ _ _).acts fun _ => ?_
  refine .ask fun record => ?_
  refine .found_then fun entry => ?_
  refine .clock fun checkedAt => ?_
  refine .require_then (.clock fun polledAt => ?_)
  refine .send (.touchPoll _ _ _) fun allowed => ?_
  refine .require_then ?_
  cases deviceRefusal entry.status with
  | some e => trivial
  | none =>
    refine .found_then fun userID => ?_
    refine .ask fun row => ?_
    refine .found_then fun user => ?_
    refine .require_then (.clock fun now => ?_)
    refine .bind_except
      ((issueUserGrantTokens_issued _ _ _ _ _ _).imp fun _ _ h => .issued h) fun result => ?_
    refine .clock fun consumedAt => ?_
    exact .send (.consumeDevice _ _) fun _ => trivial

theorem exchange_granting (env : Env) (draws : Draws) (hgrant : input.grantType ≠ .refreshToken) :
    (exchange env draws input).run.Acts (Granting env draws.refreshToken) := by
  unfold exchange
  cases hinput : input.grantType with
  | authorizationCode => exact exchangeAuthorizationCode_granting _ _ _
  | refreshToken => exact absurd hinput hgrant
  | clientCredentials => exact exchangeClientCredentials_granting _ _ _
  | password => exact exchangePassword_granting _ _ _
  | deviceCode => exact exchangeDeviceCode_granting _ _ _
  | other text => trivial

/-! ## The refresh grant -/

theorem checkReplay_all (h : ∀ nowTS, P (.checkRefreshReplay sha nowTS fp)
      fun w => { w with tokens := (w.tokens.checkRefreshReplay w.now sha nowTS fp).2 }) :
    (checkReplay sha fp).run.Acts P := by
  have hcheck : (Repository.checkRefreshTokenReplay sha fp).Acts P := fun _ => ⟨h _, fun _ => trivial⟩
  refine .bind_except (.call hcheck) fun result => ?_
  cases result <;> trivial

theorem tryRefreshTokenGraceReplay_all (h : ∀ nowTS, P (.checkRefreshReplay sha nowTS fp)
      fun w => { w with tokens := (w.tokens.checkRefreshReplay w.now sha nowTS fp).2 })
    (err : TokenError) : (tryRefreshTokenGraceReplay sha fp err).run.Acts P := by
  refine .bind_except (.lift (checkReplay_all h)) fun result => ?_
  split <;> trivial

inductive Sends (env : Env) (draws : Draws) (input : ExchangeInput) : Label → (World → World) → Prop
  | granting {l : Label} {f : World → World} (h : Granting env draws.refreshToken l f) : Sends env draws input l f
  | check (h : input.grantType = .refreshToken) (nowTS : Int) (fp : String) :
      Sends env draws input (.checkRefreshReplay (env.sha256Hex input.refreshToken) nowTS fp) fun w =>
        { w with tokens :=
          (w.tokens.checkRefreshReplay w.now (env.sha256Hex input.refreshToken) nowTS fp).2 }
  | rotateRefreshToken (h : input.grantType = .refreshToken) (revokedAt : Int) (row : RefreshToken)
      (hsha : row.tokenSHA256 = env.sha256Hex draws.refreshToken) (hnew : row.replacedByTokenID = none) :
      Sends env draws input (.rotateRefreshToken (env.sha256Hex input.refreshToken) revokedAt row) fun w =>
        { w with db := (w.db.rotateRefreshToken (env.sha256Hex input.refreshToken) revokedAt row).2 }
  | rotateToken (h : input.grantType = .refreshToken) (new : RefreshTokenCacheEntry) (response : TokenResponse)
      (fp : String) (newTTL graceTTL nowTS : Int) (hsha : new.tokenSHA256 = env.sha256Hex draws.refreshToken) :
      Sends env draws input (.rotateToken (env.sha256Hex input.refreshToken) new response fp newTTL nowTS) fun w =>
        { w with tokens := (w.tokens.rotateToken w.now (env.sha256Hex input.refreshToken) new response fp
            (Go.durationSeconds newTTL) (Go.durationSeconds graceTTL) nowTS).2 }

theorem Sends.exchanging (h : Sends env draws input l f) : Exchanging l f := by
  cases h with
  | granting h => exact h.exchanging
  | check h nowTS fp => exact .checkRefreshReplay _ nowTS fp
  | rotateRefreshToken h revokedAt row => exact .rotateRefreshToken _ revokedAt row
  | rotateToken h new response fp newTTL graceTTL nowTS =>
    exact .rotateToken _ new response fp newTTL graceTTL nowTS

theorem rotate_sends (hgrant : input.grantType = .refreshToken) (client : Client) (fp : String)
    (old : RefreshToken) (scopes : List String) (now : Int) (result : ExchangeResult) :
    (rotate env client (env.sha256Hex input.refreshToken) fp old scopes now result
      draws.refreshToken).run.Acts (Sends env draws input) := by
  have hagain (err : TokenError) : (tryRefreshTokenGraceReplay (env.sha256Hex input.refreshToken) fp
      err).run.Acts (Sends env draws input) :=
    tryRefreshTokenGraceReplay_all (fun nowTS => .check hgrant nowTS fp) err
  refine .bind_except (.lift (.call
    ⟨.rotateRefreshToken hgrant now _ rfl rfl, fun _ => trivial⟩)) fun outcome => ?_
  match outcome with
  | .ok .rotated =>
    refine .bind_except (.attempt ?_) fun _ => trivial
    exact fun _ _ => ⟨.rotateToken hgrant _ _ _ _ _ _ rfl, fun _ => trivial⟩
  | .ok .noRows => exact hagain _
  | .ok .duplicate => exact hagain _
  | .error e => exact hagain _

theorem exchangeRefreshToken_sends (env : Env) (draws : Draws)
    (hgrant : input.grantType = .refreshToken) :
    (exchangeRefreshToken env draws input).run.Acts (Sends env draws input) := by
  refine .bind_except (findClient_silent _ _ _).acts fun client => ?_
  refine .bind_except (validateClientSecret_silent _ _ _).acts fun _ => ?_
  refine .bind_except (checkReplay_all fun nowTS => .check hgrant nowTS _) fun replay => ?_
  cases replay with
  | some result => trivial
  | none =>
    refine .ask fun row => .found_then fun old => .require_then ?_
    refine .ask fun row => .found_then fun user => .clock fun now => ?_
    refine .bind_except ((issueAccessToken_issued env draws.refreshToken _ _ _ _ _ _ _).imp
      fun _ _ h => .granting (.issued h)) fun result => ?_
    split
    · trivial
    · exact rotate_sends hgrant _ _ _ _ _ _

theorem exchange_sends (env : Env) (draws : Draws) (input : ExchangeInput) :
    (exchange env draws input).run.Acts (Sends env draws input) := by
  by_cases hgrant : input.grantType = .refreshToken
  · simp only [exchange, hgrant]
    exact exchangeRefreshToken_sends env draws hgrant
  · exact (exchange_granting env draws hgrant).imp fun _ _ h => .granting h

/-- **All the token endpoint ever sends.** -/
theorem exchange_acts (env : Env) (draws : Draws) (input : ExchangeInput) :
    (exchange env draws input).run.Acts Exchanging :=
  (exchange_sends env draws input).imp fun _ _ h => h.exchanging

/-! ## Tokens without a user -/

def UserGrant : GrantType → Prop
  | .authorizationCode | .refreshToken | .password | .deviceCode => True
  | .clientCredentials | .other _ => False

theorem issueAccessToken_account (env : Env) (client : Client) (sub : String) (userID : Option Int)
    (subject : String) (scopes : List String) (now : Int) (jti : String) :
    (issueAccessToken env client sub userID subject scopes now jti).run.Acts fun l _ =>
      ∀ row, l = .createAccessToken row → row.userID = userID := by
  refine .found_then fun token => ?_
  refine .send ?_ fun _ => ?_
  · rintro _ ⟨⟩
    rfl
  refine .require_then (.bind_except (.attempt ?_) fun _ => ?_)
  · exact fun _ => ⟨nofun, fun _ => trivial⟩
  · exact .clock fun _ => trivial

/-- **Only the grants of users store tokens for an account.** -/
theorem exchange_account (env : Env) (draws : Draws) (input : ExchangeInput) :
    (exchange env draws input).run.Acts fun l _ =>
      ∀ row, l = .createAccessToken row → row.userID = none ∨ UserGrant input.grantType := by
  have hany : UserGrant input.grantType → (exchange env draws input).run.Acts fun l _ =>
      ∀ row, l = .createAccessToken row → row.userID = none ∨ UserGrant input.grantType :=
    fun h => (exchange_acts env draws input).imp fun _ _ _ _ _ => .inr h
  unfold exchange at hany ⊢
  cases hgrant : input.grantType with
  | clientCredentials =>
    refine .bind_except (findClient_silent _ _ _).acts fun client => ?_
    refine .bind_except (validateClientSecret_silent _ _ _).acts fun _ => ?_
    refine .require_then (.clock fun now => ?_)
    exact (issueAccessToken_account _ _ _ _ _ _ _ _).imp fun _ _ h row hl => .inl (h row hl)
  | other text => trivial
  | _ =>
    rw [hgrant] at hany
    exact hany trivial

end IdpServer.Laws.Token
