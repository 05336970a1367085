import IdpServer.Laws.Token.Regime

/-!
# Laws.Token.ClosedAccounts — tokens for an account that is not active

Only the password grant looks at the status of the account (`closedAccountServed`).
`closedAccountGetsNothing` is the law when nothing it granted before is presented.
-/

namespace IdpServer.Laws.Token

open Conc IdpServer.Cache Store Go IdpServer.Token

variable {ι : Type}

/-! ## What an account has -/

def Inactive (u : Int) (w : World) : Prop :=
  ∀ user ∈ w.db.users, user.id = u → ¬ (user.status = "" ∨ user.status = "active")

/-- The text is an access token of the account. -/
def OwnsAccess (u : Int) (w : World) (token : String) : Prop :=
  ∃ r ∈ w.db.accessTokens, r.tokenValue = token ∧ r.userID = some u

/-- The text is a refresh token of the account. -/
def OwnsRefresh (u : Int) (w : World) (token : String) : Prop :=
  ∃ r ∈ w.db.refreshTokens, r.tokenValue = token ∧ r.userID = some u

structure NothingNew (u : Int) (w w' : World) : Prop where
  access : ∀ token, OwnsAccess u w' token → OwnsAccess u w token
  refresh : ∀ token, OwnsRefresh u w' token → OwnsRefresh u w token

structure Digested (env : Env) (w : World) : Prop where
  access : ∀ r ∈ w.db.accessTokens, r.tokenSHA256 = env.sha256Hex r.tokenValue
  refresh : ∀ r ∈ w.db.refreshTokens, r.tokenSHA256 = env.sha256Hex r.tokenValue

/-- **The condition**: the credential was not granted by the account. -/
def Foreign (env : Env) (u : Int) (w : World) : Credential → Prop
  | .code code => ∀ row ∈ w.db.authCodes, env.sqlEq row.code code = true →
      row.consumedAt = none → row.userID ≠ u
  | .refreshToken sha =>
      (∀ r ∈ w.db.refreshTokens, r.tokenSHA256 = sha → r.revokedAt = none →
        ∃ id ∈ r.userID, id ≠ u) ∧
      ∀ response ∈ w.tokens.grace.get w.now sha,
        ¬ OwnsAccess u w response.accessToken ∧ ¬ OwnsRefresh u w response.refreshToken
  | .deviceCode deviceCode => ∀ entry ∈ w.devices.getByDeviceCode w.now deviceCode,
      entry.status = .approved → parseInt entry.userID ≠ some u

instance (u : Int) (w : World) : Decidable (Inactive u w) := by
  unfold Inactive; infer_instance

instance (u : Int) (w : World) (token : String) : Decidable (OwnsAccess u w token) := by
  unfold OwnsAccess; infer_instance

instance (u : Int) (w : World) (token : String) : Decidable (OwnsRefresh u w token) := by
  unfold OwnsRefresh; infer_instance

instance (env : Env) (u : Int) (w : World) (p : Credential) : Decidable (Foreign env u w p) := by
  cases p <;> unfold Foreign <;> infer_instance

/-- Whatever happened, the account was given nothing. -/
structure Withheld (env : Env) (u : Int) (w w' : World) : Prop where
  inactive : Inactive u w → Inactive u w'
  digested : Digested env w → Digested env w'
  nothing : NothingNew u w w'
  foreign : ∀ p, Foreign env u w p → Foreign env u w' p

theorem NothingNew.refl (u : Int) (w : World) : NothingNew u w w := ⟨fun _ h => h, fun _ h => h⟩

theorem NothingNew.trans {u : Int} {w w' w'' : World} (h : NothingNew u w w')
    (h' : NothingNew u w' w'') : NothingNew u w w'' :=
  ⟨fun t ht => h.access t (h'.access t ht), fun t ht => h.refresh t (h'.refresh t ht)⟩

theorem NothingNew.of_same {u : Int} {w w' : World} (haccess : w'.db.accessTokens = w.db.accessTokens)
    (hrefresh : w'.db.refreshTokens = w.db.refreshTokens) : NothingNew u w w' := by
  constructor
  · rintro token ⟨r, hr, h⟩
    exact ⟨r, haccess ▸ hr, h⟩
  · rintro token ⟨r, hr, h⟩
    exact ⟨r, hrefresh ▸ hr, h⟩

/-! ## The commands of the endpoint -/

section Commands

variable {env : Env} {u : Int} {w : World}

variable {w' : World} {row : RefreshToken} {id : Int} {oldSHA : String}

theorem Withheld.of_same (husers : w'.db.users = w.db.users)
    (haccess : w'.db.accessTokens = w.db.accessTokens)
    (hrefresh : w'.db.refreshTokens = w.db.refreshTokens)
    (hforeign : NothingNew u w w' → ∀ p, Foreign env u w p → Foreign env u w' p) :
    Withheld env u w w' := by
  have hnothing := NothingNew.of_same (u := u) haccess hrefresh
  refine ⟨fun h => ?_, fun h => ⟨?_, ?_⟩, hnothing, hforeign hnothing⟩
  · rw [Inactive, husers]
    exact h
  · rw [haccess]
    exact h.access
  · rw [hrefresh]
    exact h.refresh

theorem Foreign.of_same {p : Credential} (h : Foreign env u w p) (hnothing : NothingNew u w w')
    (hnow : w'.now = w.now) (hcodes : w'.db.authCodes = w.db.authCodes)
    (hrows : w'.db.refreshTokens = w.db.refreshTokens) (hgrace : w'.tokens.grace = w.tokens.grace)
    (hdevices : w'.devices = w.devices) : Foreign env u w' p := by
  cases p with
  | code code =>
    rw [Foreign, hcodes]
    exact h
  | refreshToken sha =>
    rw [Foreign, hrows, hgrace, hnow]
    refine ⟨h.1, fun response hresponse => ?_⟩
    obtain ⟨haccess, hrefresh⟩ := h.2 response hresponse
    exact ⟨fun ho => haccess (hnothing.access _ ho), fun ho => hrefresh (hnothing.refresh _ ho)⟩
  | deviceCode deviceCode =>
    rw [Foreign, hdevices, hnow]
    exact h

theorem withheld_aside {l : Label} {f : World → World} (h : Aside l f) : Withheld env u w (f w) := by
  cases h with
  | consumeByCode env' code consumedAt =>
    obtain ⟨rows, hframe⟩ := w.db.consumeByCode_frame env'.sqlEq code consumedAt
    refine .of_same (by simp only [hframe]) (by simp only [hframe]) (by simp only [hframe])
      fun hnothing p hp => ?_
    cases p with
    | code code' =>
      intro row hrow hcode hfresh
      rcases Database.mem_consumeByCode hrow with hrow | ⟨r₀, _, _, rfl⟩
      · exact hp row hrow hcode hfresh
      · cases hfresh
    | refreshToken sha => simpa only [Foreign, hframe, OwnsAccess, OwnsRefresh] using hp
    | deviceCode deviceCode => exact hp
  | touchPoll deviceCode polledAt minInterval =>
    refine .of_same rfl rfl rfl fun hnothing p hp => ?_
    cases p with
    | deviceCode deviceCode' =>
      intro entry hentry happroved
      obtain ⟨e₀, he₀, _, rfl⟩ := DeviceCache.getByDeviceCode_touchPoll hentry
      exact hp e₀ he₀ happroved
    | _ => exact hp
  | consumeDevice deviceCode consumedAt =>
    refine .of_same rfl rfl rfl fun hnothing p hp => ?_
    cases p with
    | deviceCode deviceCode' =>
      intro entry hentry happroved
      rcases DeviceCache.getByDeviceCode_set hentry with ⟨_, rfl⟩ | hentry
      · cases happroved
      · exact hp entry hentry happroved
    | _ => exact hp
  | _ =>
    refine .of_same rfl rfl rfl fun hnothing p hp => hp.of_same hnothing rfl rfl rfl ?_ rfl
    simp [TokenCache.saveAccessToken, TokenCache.saveRefreshToken]

theorem withheld_createAccessToken {row : AccessToken} (huser : row.userID ≠ some u)
    (hsha : row.tokenSHA256 = env.sha256Hex row.tokenValue) :
    Withheld env u w { w with db := (w.db.createAccessToken row).2 } := by
  obtain ⟨rows, hframe⟩ := w.db.createAccessToken_frame row
  have hnothing : NothingNew u w { w with db := (w.db.createAccessToken row).2 } := by
    constructor
    · rintro token ⟨r, hr, htoken, howner⟩
      rcases Database.mem_createAccessToken hr with hr | ⟨_, _, _, rfl⟩
      · exact ⟨r, hr, htoken, howner⟩
      · exact absurd howner huser
    · simp only [OwnsRefresh, hframe]
      exact fun _ h => h
  refine ⟨?_, fun h => ⟨fun r hr => ?_, ?_⟩, hnothing, fun p hp => ?_⟩
  · simp only [Inactive, hframe]
    exact id
  · rcases Database.mem_createAccessToken hr with hr | ⟨_, _, _, rfl⟩
    · exact h.access r hr
    · exact hsha
  · simp only [hframe]
    exact h.refresh
  · exact hp.of_same hnothing rfl (by simp only [hframe]) (by simp only [hframe]) rfl rfl

theorem withheld_refreshRows {rows : List RefreshToken} (hrows : ∀ r ∈ rows,
      (r.tokenSHA256 = env.sha256Hex r.tokenValue ∧ ∃ id, r.userID = some id ∧ id ≠ u) ∨
      ∃ r₀ ∈ w.db.refreshTokens, r.tokenValue = r₀.tokenValue ∧ r.tokenSHA256 = r₀.tokenSHA256 ∧
        r.userID = r₀.userID ∧ (r.revokedAt = none → r₀.revokedAt = none)) :
    Withheld env u w { w with db := { w.db with refreshTokens := rows } } := by
  have hnothing : NothingNew u w { w with db := { w.db with refreshTokens := rows } } := by
    refine ⟨fun _ h => h, ?_⟩
    rintro token ⟨r, hr, htoken, howner⟩
    rcases hrows r hr with ⟨_, id, hid, hne⟩ | ⟨r₀, hr₀, hvalue, _, huser, _⟩
    · rw [hid] at howner
      exact absurd (Option.some.inj howner) hne
    · exact ⟨r₀, hr₀, hvalue ▸ htoken, huser ▸ howner⟩
  refine ⟨id, fun h => ⟨h.access, fun r hr => ?_⟩, hnothing, fun p hp => ?_⟩
  · rcases hrows r hr with ⟨hsha, _⟩ | ⟨r₀, hr₀, hvalue, hsha, _⟩
    · exact hsha
    · rw [hvalue, hsha]
      exact h.refresh r₀ hr₀
  · cases p with
    | refreshToken sha =>
      refine ⟨fun r hr hsha hlive => ?_, fun response hresponse => ?_⟩
      · rcases hrows r hr with ⟨_, hother⟩ | ⟨r₀, hr₀, _, hsha₀, huser, hrevoked⟩
        · exact hother
        · rw [huser]
          exact hp.1 r₀ hr₀ (hsha₀ ▸ hsha) (hrevoked hlive)
      · obtain ⟨haccess, hrefresh⟩ := hp.2 response hresponse
        exact ⟨haccess, fun ho => hrefresh (hnothing.refresh _ ho)⟩
    | _ => exact hp

theorem withheld_createRefreshToken (hid : row.userID = some id) (hne : id ≠ u)
    (hsha : row.tokenSHA256 = env.sha256Hex row.tokenValue) :
    Withheld env u w { w with db := (w.db.createRefreshToken row).2 } := by
  obtain ⟨rows, hframe⟩ := w.db.createRefreshToken_frame row
  rw [hframe]
  refine withheld_refreshRows fun r hr => ?_
  have hr : r ∈ (w.db.createRefreshToken row).2.refreshTokens := by rw [hframe]; exact hr
  rcases Database.mem_createRefreshToken hr with hr | rfl
  · exact .inr ⟨r, hr, rfl, rfl, rfl, fun h => h⟩
  · exact .inl ⟨hsha, id, hid, hne⟩

theorem withheld_rotateRefreshToken {revokedAt : Int} (hid : row.userID = some id) (hne : id ≠ u)
    (hsha : row.tokenSHA256 = env.sha256Hex row.tokenValue) :
    Withheld env u w { w with db := (w.db.rotateRefreshToken oldSHA revokedAt row).2 } := by
  obtain ⟨rows, hframe⟩ := w.db.rotateRefreshToken_frame oldSHA revokedAt row
  rw [hframe]
  refine withheld_refreshRows fun r hr => ?_
  have hr : r ∈ (w.db.rotateRefreshToken oldSHA revokedAt row).2.refreshTokens := by
    rw [hframe]; exact hr
  rcases Database.mem_rotateRefreshToken hr with hr | rfl | ⟨r₀, hr₀, _, _, rfl⟩
  · exact .inr ⟨r, hr, rfl, rfl, rfl, fun h => h⟩
  · exact .inl ⟨hsha, id, hid, hne⟩
  · exact .inr ⟨r₀, hr₀, rfl, rfl, rfl, nofun⟩

theorem withheld_rotateToken {new : RefreshTokenCacheEntry} {response : TokenResponse} {fp : String}
    {newTTL graceTTL nowTS : Int} (haccess : ¬ OwnsAccess u w response.accessToken)
    (hrefresh : ¬ OwnsRefresh u w response.refreshToken) :
    Withheld env u w { w with tokens :=
      (w.tokens.rotateToken w.now oldSHA new response fp newTTL graceTTL nowTS).2 } := by
  refine .of_same rfl rfl rfl fun _ p hp => ?_
  cases p with
  | refreshToken sha =>
    refine ⟨hp.1, fun response' hget => ?_⟩
    obtain ⟨t, ht, halive⟩ := Keyspace.get_eq_some.mp hget
    rcases TokenCache.grace_of_rotateToken ht with rfl | hold
    · exact ⟨haccess, hrefresh⟩
    · exact hp.2 response' (Keyspace.get_eq_some.mpr ⟨t, hold, halive⟩)
  | _ => exact hp

end Commands

/-! ## The regime -/

structure Closed (env : Env) (u : Int) (S : Credential → Prop) (w : World) : Prop where
  inactive : Inactive u w
  digested : Digested env w
  foreign : ∀ p, S p → Foreign env u w p

def closing (env : Env) (u : Int) (S : Credential → Prop) : Regime ι where
  inv m := Closed env u S m.shared
  mono m m' := NothingNew u m.shared m'.shared
  mono_refl m := .refl u m.shared
  mono_trans := NothingNew.trans
  presented := S
  holder id := id ≠ u
  account _ userID _ := userID ≠ some u
  access m token := ¬ OwnsAccess u m.shared token
  refresh m token := ¬ OwnsRefresh u m.shared token
  openid := True

section Regime

variable {env : Env} {u : Int} {S : Credential → Prop}

theorem Closed.withheld {w w' : World} (h : Closed env u S w) (hw : Withheld env u w w') :
    Closed env u S w' :=
  ⟨hw.inactive h.inactive, hw.digested h.digested, fun p hp => hw.foreign p (h.foreign p hp)⟩

theorem closing_kept {m : Moment ι World Label} {i : ι} {l : Label} {f : World → World}
    (h : Closed env u S m.shared) (hw : Withheld env u m.shared (f m.shared)) :
    (closing env u S).Kept m (m.after i l f) :=
  ⟨h.withheld hw, hw.nothing⟩

theorem not_ownsRefresh {w : World} {rows : List RefreshToken} {row : RefreshToken} {id : Int}
    (hdigested : Digested env w) (hid : row.userID = some id) (hne : id ≠ u)
    (hsha : row.tokenSHA256 = env.sha256Hex row.tokenValue)
    (hnew : ∀ r ∈ w.db.refreshTokens, r.tokenSHA256 ≠ row.tokenSHA256)
    (hrows : ∀ r ∈ rows, r.userID = row.userID ∨
      ∃ r₀ ∈ w.db.refreshTokens, r.tokenValue = r₀.tokenValue) :
    ∀ r ∈ rows, r.tokenValue = row.tokenValue → r.userID ≠ some u := by
  intro r hr hvalue howner
  rcases hrows r hr with huser | ⟨r₀, hr₀, hvalue₀⟩
  · rw [huser, hid] at howner
    exact hne (Option.some.inj howner)
  · refine hnew r₀ hr₀ ?_
    rw [hdigested.refresh r₀ hr₀, hsha, ← hvalue, hvalue₀]

theorem closing_lawful : (closing (ι := ι) env u S).Lawful env Unrestricted where
  account_later _ h := h
  access_later h ho hown := ho (h.mono.access _ hown)
  refresh_later h ho hown := ho (h.mono.refresh _ hown)
  code := by
    intro m i code consumedAt row hinv hp _ hrow
    obtain ⟨hmem, hcode, hfresh⟩ := Database.consumeByCode_eq_some hrow
    exact ⟨hinv.foreign _ hp row hmem hcode hfresh, fun _ => trivial⟩
  row := by
    intro m sha old hinv hp hold
    have hmatch := List.find?_some hold
    simp only [decide_eq_true_eq] at hmatch
    exact (hinv.foreign _ hp).1 old (List.mem_of_find?_eq_some hold) hmatch.1 hmatch.2.1
  device := by
    rintro m deviceCode entry id hinv hp hentry happroved hid rfl
    exact hinv.foreign _ hp entry hentry happroved hid
  grace := by
    intro m sha nowTS fp response hinv hp hgrace
    obtain ⟨haccess, hrefresh⟩ :=
      (hinv.foreign _ hp).2 response (TokenCache.grace_of_checkRefreshReplay hgrace)
    exact ⟨haccess, hrefresh, .inr trivial⟩
  user := by
    intro m id user _ hholder huser howner
    rw [← Database.findUser_id huser] at hholder
    exact hholder (Option.some.inj howner)
  login := by
    intro m username user hinv huser hstatus howner
    exact hinv.inactive user (List.mem_of_find?_eq_some huser) (Option.some.inj howner) hstatus
  client _ _ := nofun
  aside hl hinv _ := closing_kept hinv (withheld_aside hl)
  createAccess := by
    intro m i claims row hinv _ huser hsha
    refine ⟨closing_kept hinv (withheld_createAccessToken huser hsha), fun hcreated => ?_⟩
    rintro ⟨r, hr, hvalue, howner⟩
    rcases Database.mem_createAccessToken hr with hr | ⟨_, _, _, rfl⟩
    · refine Database.createAccessToken_new hcreated r hr ?_
      rw [hinv.digested.access r hr, hsha, hvalue]
    · exact huser howner
  createRefresh := by
    intro m i id sub row hinv hid huser hsha
    have hne : id ≠ u := fun h => huser (by rw [h])
    refine ⟨closing_kept hinv (withheld_createRefreshToken hid hne hsha), fun hcreated => ?_⟩
    rintro ⟨r, hr, hvalue, howner⟩
    refine not_ownsRefresh hinv.digested hid hne hsha (Database.createRefreshToken_new hcreated)
      (fun r hr => ?_) r hr hvalue howner
    rcases Database.mem_createRefreshToken hr with hr | rfl
    · exact .inr ⟨r, hr, rfl⟩
    · exact .inl rfl
  rotateRefresh := by
    intro m i oldSHA revokedAt id sub row hinv hid huser hsha
    have hne : id ≠ u := fun h => huser (by rw [h])
    refine ⟨closing_kept hinv (withheld_rotateRefreshToken hid hne hsha), fun hrotated => ?_⟩
    rintro ⟨r, hr, hvalue, howner⟩
    refine not_ownsRefresh hinv.digested hid hne hsha (Database.rotateRefreshToken_new hrotated)
      (fun r hr => ?_) r hr hvalue howner
    rcases Database.mem_rotateRefreshToken hr with hr | rfl | ⟨r₀, hr₀, _, _, rfl⟩
    · exact .inr ⟨r, hr, rfl⟩
    · exact .inl rfl
    · exact .inr ⟨r₀, hr₀, rfl⟩
  rotateToken hinv hresponse :=
    closing_kept hinv (withheld_rotateToken hresponse.access hresponse.refresh)

end Regime

/-! ## The law -/

/-- **A closed account gets nothing.** Any number of token requests run while the account is not active. If
none presents a code, a refresh token or a device code of the account, no token is stored for it, and no
answer has one. -/
theorem closedAccountGetsNothing [DecidableEq ι] (env : Env) (u : Int)
    (calls : ι → Draws × ExchangeInput) {w : World} (hinactive : Inactive u w)
    (hdigested : Digested env w)
    (hforeign : ∀ i, ∀ p ∈ credential env (calls i).2, Foreign env u w p) {E : World → World → Prop}
    (hE : ∀ w w', E w w' → Withheld env u w w')
    {c : Config ι World Label (Except TokenError ExchangeResult)}
    (hrun : Reach E Unrestricted
      (Config.start w fun i => (exchange env (calls i).1 (calls i).2).run) c) :
    NothingNew u w c.shared ∧ ∀ i result, c.procs i = .ret (.ok result) →
      ¬ OwnsAccess u c.shared result.accessToken ∧
      (result.refreshToken ≠ "" → ¬ OwnsRefresh u c.shared result.refreshToken) := by
  let R : Regime ι := closing env u fun p => ∃ i, p ∈ credential env (calls i).2
  have hadmits : R.Admits E := fun m s hinv hs =>
    ⟨Closed.withheld hinv (hE _ _ hs), (hE _ _ hs).nothing⟩
  have hkeeps : R.Keeps fun _ (result : Except TokenError ExchangeResult) m =>
      ∀ a, result = .ok a → R.HandsOut m a :=
    fun i result m m' hr _ hm a ha =>
      closing_lawful.handsOut_lasting a _ _ ⟨hr.mono, hr.suffix⟩ (hm a ha)
  have hstart : (Config.start w fun i => (exchange env (calls i).1 (calls i).2).run).Safe
      R.toDiscipline Unrestricted fun _ result m => ∀ a, result = .ok a → R.HandsOut m a := by
    refine ⟨⟨hinactive, hdigested, ?_⟩, fun i => ?_⟩
    · rintro p ⟨i, hp⟩
      exact hforeign i p hp
    · exact Regime.exchange_handsOut closing_lawful fun p hp => ⟨i, hp⟩
  refine ⟨hstart.mono hadmits hkeeps hrun, fun i result hret => ?_⟩
  have hout := (sound hadmits hkeeps hstart hrun).returned hret result rfl
  exact ⟨hout.access, fun hne => hout.refresh.resolve_left hne⟩

/-! ## A locked account -/

def portal : Client where
  id := 1
  clientID := "app"
  clientName := "App"
  clientSecretHash := ""
  requirePKCE := false
  requireConsent := false
  accessTokenTTLSeconds := 3600
  refreshTokenTTLSeconds := 86400
  idTokenTTLSeconds := 0
  status := "active"
  redirectURIs := ["https://app"]
  grantTypes := [GrantType.authorizationCode.text, GrantType.refreshToken.text,
    GrantType.password.text, GrantType.deviceCode.text]
  scopes := ["email"]

def lockedOut (granter : Int) : World :=
  let user (id : Int) (uuid name status : String) : User :=
    ⟨id, uuid, name, name, true, name, "pw", "user", 0#32, "", status⟩
  let code : AuthorizationCode :=
    ⟨1, "c1", 1, granter, none, "https://app", "[\"email\"]", "", "", "", "", 600 * second, none⟩
  let token : RefreshToken :=
    ⟨1, "r0", "r0", 1, some granter, "sub", "[\"email\"]", 0, 86400 * second, none, none⟩
  let hash : RefreshTokenHash := { status := some .active, familyID := "r0" }
  let device : DeviceCodeEntry :=
    { deviceCode := "d1", clientID := "app", scopesJSON := "[\"email\"]", status := .approved
      userID := if granter = 7 then "7" else "8", subject := if granter = 7 then "sub-7" else "sub-8"
      expiresAt := 600 * second }
  { World.empty 0 with
    db := { Database.empty with
      users := [user 7 "sub-7" "ada" "locked", user 8 "sub-8" "ben" "active"]
      authCodes := [code], refreshTokens := [token] }
    tokens := { TokenCache.empty with refresh := Keyspace.empty.put "r0" hash none }
    devices := { DeviceCache.empty with device := Keyspace.empty.put "d1" device none } }

inductive Way where
  | code
  | refresh
  | retry
  | device
  | password
  deriving DecidableEq

/-- What each way presents. The retry has the fingerprint of the first attempt. -/
def Way.call : Way → Draws × ExchangeInput
  | .code => (⟨"a1", "i1", "r1"⟩,
      { grantType := .authorizationCode, clientID := "app", code := "c1", redirectURI := "https://app" })
  | .refresh => (⟨"a2", "i2", "r2"⟩,
      { grantType := .refreshToken, clientID := "app", refreshToken := "r0", replayFingerprint := "fp" })
  | .retry => (⟨"a3", "i3", "r3"⟩,
      { grantType := .refreshToken, clientID := "app", refreshToken := "r0", replayFingerprint := "fp" })
  | .device => (⟨"a4", "i4", "r4"⟩,
      { grantType := .deviceCode, clientID := "app", deviceCode := "d1" })
  | .password => (⟨"a5", "i5", "r5"⟩,
      { grantType := .password, clientID := "app", username := "ada", password := "pw" })

def allWays (granter : Int) : Config Way World Label (Except TokenError ExchangeResult) :=
  Config.start (lockedOut granter) fun way =>
    (exchange (.plain [portal]) way.call.1 way.call.2).run

def inTurn : List (Move Way World) :=
  [.run .code, .run .code, .run .code, .run .code, .run .refresh, .run .refresh, .run .refresh,
    .run .refresh, .run .refresh, .run .refresh, .run .retry, .run .retry, .run .device, .run .device,
    .run .device, .run .device, .run .device, .run .password]

/-- The other user has granted the credentials: the locked one gets nothing by their tokens, and
its password is refused. -/
theorem closedAccountGetsNothing_other :
    ∃ c, Reach (Withheld (.plain [portal]) 7) Unrestricted (allWays 8) c ∧
      c.procs .password = .ret (.error .invalidUserCredentials) ∧
      c.procs .code = .ret (.ok ⟨"a1", "Bearer", 3600, "", "email", ""⟩) ∧
      NothingNew 7 (lockedOut 8) c.shared ∧ ¬ OwnsAccess 7 c.shared "a1" := by
  let c := (allWays 8).played Unrestricted inTurn
  have hrun : Reach (Withheld (.plain [portal]) 7) Unrestricted (allWays 8) c :=
    played_reach _ (by simp [inTurn, Move.Allowed]) (by decide +kernel)
  have hcode : c.procs .code = .ret (.ok ⟨"a1", "Bearer", 3600, "", "email", ""⟩) :=
    by decide +kernel
  have hpassword : c.procs .password = .ret (.error .invalidUserCredentials) :=
    by decide +kernel
  obtain ⟨hnothing, hout⟩ := closedAccountGetsNothing (.plain [portal]) 7 Way.call
    (w := lockedOut 8) (by decide +kernel) ⟨by decide +kernel, by decide +kernel⟩
    (by intro way; cases way <;> decide +kernel) (fun _ _ h => h) hrun
  exact ⟨c, hrun, hpassword, hcode, hnothing, (hout .code _ hcode).1⟩

/-- **The law fails without the condition.** Each of the four credentials that the locked account has
granted is honoured with a token of it. -/
theorem closedAccountServed :
    ∃ c, Reach (Withheld (.plain [portal]) 7) Unrestricted (allWays 7) c ∧ Inactive 7 (lockedOut 7) ∧
      ∀ way ∈ [Way.code, .refresh, .retry, .device], ∃ result,
        c.procs way = .ret (.ok result) ∧ OwnsAccess 7 c.shared result.accessToken := by
  let c := (allWays 7).played Unrestricted inTurn
  have hrun : Reach (Withheld (.plain [portal]) 7) Unrestricted (allWays 7) c :=
    played_reach _ (by simp [inTurn, Move.Allowed]) (by decide +kernel)
  have hanswer : ∀ way ∈ [Way.code, .refresh, .retry, .device],
      ∃ token ∈ [("a1", ""), ("a2", "r2"), ("a4", "")], c.procs way =
        .ret (.ok ⟨token.1, "Bearer", 3600, token.2, "email", ""⟩) ∧
      OwnsAccess 7 c.shared token.1 := by decide +kernel
  refine ⟨c, hrun, by decide +kernel, fun way hway => ?_⟩
  obtain ⟨token, _, hret, howns⟩ := hanswer way hway
  exact ⟨_, hret, howns⟩

end IdpServer.Laws.Token
