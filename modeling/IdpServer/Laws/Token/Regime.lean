import IdpServer.Conc.Lasting
import IdpServer.Laws.Token.Issuing

/-!
# Laws.Token.Regime — whom the token endpoint gives tokens to

A `Regime` names the credentials presented, the accounts a grant may be honoured for (`holder`) or tokens made
out to (`account`), and the tokens that may be handed out (`exchange_handsOut`).
-/

namespace IdpServer.Laws.Token

open Conc IdpServer.Cache IdpServer.Token Go

variable {ι : Type}

inductive Credential where
  | code (code : String)
  /-- A refresh token, by its digest. -/
  | refreshToken (sha : String)
  | deviceCode (deviceCode : String)

/-- The credential of a request. The password grant has none: it checks the account itself. -/
def credential (env : Env) (input : ExchangeInput) : Option Credential :=
  match input.grantType with
  | .authorizationCode => some (.code input.code)
  | .refreshToken => some (.refreshToken (env.sha256Hex input.refreshToken))
  | .deviceCode => some (.deviceCode (trimSpace input.deviceCode))
  | .clientCredentials | .password | .other _ => none

structure Regime (ι : Type) extends Discipline ι World Label where
  /-- The credentials that are presented. -/
  presented : Credential → Prop
  /-- A grant for this account may be honoured. -/
  holder : Int → Prop
  /-- A token may be made out to this account, with this subject. -/
  account : World → Option Int → String → Prop
  /-- This access token may be handed out. -/
  access : Moment ι World Label → String → Prop
  /-- This refresh token may be handed out. -/
  refresh : Moment ι World Label → String → Prop
  /-- ID tokens may be handed out. -/
  openid : Prop

inductive Aside : Label → (World → World) → Prop
  | saveAccessToken (sha : String) (e : AccessTokenHash) (ttl : Int) :
      Aside (.saveAccessToken sha e ttl)
        fun w => { w with tokens := w.tokens.saveAccessToken w.now sha e ttl }
  | saveRefreshToken (e : RefreshTokenCacheEntry) (ttl : Int) :
      Aside (.saveRefreshToken e ttl)
        fun w => { w with tokens := w.tokens.saveRefreshToken w.now e ttl }
  | consumeByCode (env : Env) (code : String) (consumedAt : Int) :
      Aside (.consumeByCode code consumedAt)
        fun w => { w with db := (w.db.consumeByCode env.sqlEq code consumedAt).2 }
  | checkRefreshReplay (sha : String) (nowTS : Int) (fp : String) :
      Aside (.checkRefreshReplay sha nowTS fp)
        fun w => { w with tokens := (w.tokens.checkRefreshReplay w.now sha nowTS fp).2 }
  | touchPoll (deviceCode : String) (polledAt minInterval : Int) :
      Aside (.touchPoll deviceCode polledAt minInterval) fun w =>
        { w with devices := (w.devices.touchPoll w.now deviceCode polledAt minInterval).2 }
  | consumeDevice (deviceCode : String) (consumedAt : Int) :
      Aside (.consumeDevice deviceCode consumedAt) fun w =>
        { w with devices := w.devices.markConsumed w.now deviceCode consumedAt }
  | verifyPassword (userID : Int) : Aside (.verifyPassword userID) fun w => w

namespace Regime

variable (R : Regime ι)

structure Repeatable (m : Moment ι World Label) (response : TokenResponse) : Prop where
  access : R.access m response.accessToken
  refresh : R.refresh m response.refreshToken
  idToken : response.idToken = "" ∨ R.openid

structure Lawful (env : Env) (A : Moment ι World Label → ι → Label → Prop) : Prop where
  account_later : ∀ {m m' userID sub}, R.Later m m' → R.account m.shared userID sub →
    R.account m'.shared userID sub
  access_later : ∀ {m m' token}, R.Later m m' → R.access m token → R.access m' token
  refresh_later : ∀ {m m' token}, R.Later m m' → R.refresh m token → R.refresh m' token
  /-- What a redeemed code is for. -/
  code : ∀ {m i code consumedAt row}, R.inv m → R.presented (.code code) →
    A m i (.consumeByCode code consumedAt) →
    (m.shared.db.consumeByCode env.sqlEq code consumedAt).1 = some row →
    R.holder row.userID ∧ ("openid" ∈ mustDecodeScopeJSON row.scopesJSON → R.openid)
  /-- Whose a usable refresh token is. -/
  row : ∀ {m sha old}, R.inv m → R.presented (.refreshToken sha) →
    m.shared.db.findActiveRefreshToken m.shared.now sha = some old →
    ∃ id, old.userID = some id ∧ R.holder id
  /-- Who approved a device. -/
  device : ∀ {m deviceCode entry id}, R.inv m → R.presented (.deviceCode deviceCode) →
    m.shared.devices.getByDeviceCode m.shared.now deviceCode = some entry →
    entry.status = .approved → parseInt entry.userID = some id → R.holder id
  /-- What a response in the cache consists of. -/
  grace : ∀ {m sha nowTS fp response}, R.inv m → R.presented (.refreshToken sha) →
    (m.shared.tokens.checkRefreshReplay m.shared.now sha nowTS fp).1 = .grace response →
    R.Repeatable m response
  user : ∀ {m id user}, R.inv m → R.holder id → m.shared.db.findUser id = some user →
    R.account m.shared (some user.id) user.userUUID
  login : ∀ {m username user}, R.inv m →
    m.shared.db.users.find? (fun u => env.sqlEq u.username username) = some user →
    user.status = "" ∨ user.status = "active" → R.account m.shared (some user.id) user.userUUID
  client : ∀ {w clientID client}, env.findByClientID clientID = some client →
    GrantType.clientCredentials.text ∈ client.grantTypes → R.account w none client.clientID
  aside : ∀ {m i l f}, Aside l f → R.inv m → A m i l → R.Kept m (m.after i l f)
  createAccess : ∀ {m i claims} (row : AccessToken), R.inv m →
    env.mintAccessToken claims = some row.tokenValue → R.account m.shared row.userID claims.sub →
    row.tokenSHA256 = env.sha256Hex row.tokenValue →
    let m' := m.after i (.createAccessToken row)
      fun w => { w with db := (w.db.createAccessToken row).2 }
    R.Kept m m' ∧ ((m.shared.db.createAccessToken row).1 = true → R.access m' row.tokenValue)
  createRefresh : ∀ {m i id sub} (row : RefreshToken), R.inv m → row.userID = some id →
    R.account m.shared (some id) sub → row.tokenSHA256 = env.sha256Hex row.tokenValue →
    let m' := m.after i (.createRefreshToken row)
      fun w => { w with db := (w.db.createRefreshToken row).2 }
    R.Kept m m' ∧ ((m.shared.db.createRefreshToken row).1 = true → R.refresh m' row.tokenValue)
  rotateRefresh : ∀ {m i oldSHA revokedAt id sub} (row : RefreshToken), R.inv m →
    row.userID = some id → R.account m.shared (some id) sub →
    row.tokenSHA256 = env.sha256Hex row.tokenValue →
    let m' := m.after i (.rotateRefreshToken oldSHA revokedAt row)
      fun w => { w with db := (w.db.rotateRefreshToken oldSHA revokedAt row).2 }
    R.Kept m m' ∧ ((m.shared.db.rotateRefreshToken oldSHA revokedAt row).1 = .rotated →
      R.refresh m' row.tokenValue)
  rotateToken : ∀ {m i oldSHA new response fp newTTL graceTTL nowTS}, R.inv m →
    R.Repeatable m response →
    R.Kept m (m.after i (.rotateToken oldSHA new response fp newTTL nowTS) fun w =>
      { w with tokens := (w.tokens.rotateToken w.now oldSHA new response fp
          (durationSeconds newTTL) (durationSeconds graceTTL) nowTS).2 })

structure HandsOut (m : Moment ι World Label) (result : ExchangeResult) : Prop where
  access : R.access m result.accessToken
  refresh : result.refreshToken = "" ∨ R.refresh m result.refreshToken
  idToken : result.idToken = "" ∨ R.openid

variable {R}

variable {env : Env} {A : Moment ι World Label → ι → Label → Prop}

theorem Lawful.account_lasting (laws : R.Lawful env A) (userID : Option Int) (sub : String) :
    R.Lasting fun m => R.account m.shared userID sub :=
  fun _ _ h hm => laws.account_later h hm

theorem Lawful.access_lasting (laws : R.Lawful env A) (token : String) :
    R.Lasting fun m => R.access m token :=
  fun _ _ h hm => laws.access_later h hm

theorem Lawful.refresh_lasting (laws : R.Lawful env A) (token : String) :
    R.Lasting fun m => R.refresh m token :=
  fun _ _ h hm => laws.refresh_later h hm

theorem Lawful.handsOut_lasting (laws : R.Lawful env A) (result : ExchangeResult) :
    R.Lasting fun m => R.HandsOut m result :=
  fun _ _ h hm =>
    ⟨laws.access_later h hm.access, hm.refresh.imp_right (laws.refresh_later h), hm.idToken⟩

theorem Repeatable.handsOut {m : Moment ι World Label} {response : TokenResponse}
    (h : R.Repeatable m response) : R.HandsOut m (replayedResult response) :=
  ⟨h.access, .inr h.refresh, h.idToken⟩

/-! ## Issuing -/

section Programs

variable [DecidableEq ι] {i : ι} {m : Moment ι World Label}

variable {P : Moment ι World Label → Prop} {client : Client} {sub : String} {scopes : List String}
variable {now : Int} {user : User} {draws : Draws} {input : ExchangeInput} {sha fp : String}

theorem Lawful.wp_aside {α β : Type} (laws : R.Lawful env A) {p : Service TokenError α}
    {k : α → Service TokenError β} {Q : β → Moment ι World Label → Prop} (hp : p.run.Acts Aside)
    (hP : R.Lasting P) (hm : P m) (hk : ∀ a m', P m' → Wp R.toDiscipline A i (k a).run (Gives Q) m') :
    Wp R.toDiscipline A i (p >>= k).run (Gives Q) m :=
  .last hp (fun _ _ _ => laws.aside) hP hm hk

/-- **An access token** is made out to an account, and may be handed out. -/
theorem issueAccessToken_wp (laws : R.Lawful env A) {subject jti : String} {userID : Option Int}
    (hm : R.account m.shared userID sub) :
    Wp R.toDiscipline A i (issueAccessToken env client sub userID subject scopes now jti).run
      (Gives fun result m' => R.account m'.shared userID sub ∧ R.access m' result.accessToken ∧
        result.refreshToken = "" ∧ result.idToken = "") m := by
  have haccount := laws.account_lasting userID sub
  refine .found fun token htoken => ?_
  refine .send (haccount.stable i) hm fun m₁ hinv₁ hm₁ _ => ?_
  let row := accessModel env client token userID subject scopes now
  obtain ⟨hkept, haccess⟩ := laws.createAccess { row with
    audienceJSON := env.jsonColumn row.audienceJSON, scopesJSON := env.jsonColumn row.scopesJSON }
    hinv₁ htoken hm₁ rfl
  refine ⟨hkept.1, hkept.2, .require fun hcreated => ?_⟩
  have hlasting := haccount.and (laws.access_lasting token)
  refine laws.wp_aside (.attempt fun _ => ⟨.saveAccessToken _ _ _, fun _ => trivial⟩) hlasting
    ⟨hkept.lasting haccount hm₁, haccess hcreated⟩ fun _ m₂ hm₂ => ?_
  refine wp_clock (hlasting.stable i) hm₂ fun m₃ _ hm₃ => ?_
  exact .ok ⟨hm₃.1, hm₃.2, rfl, rfl⟩

/-- **The refresh token of a first grant** may be handed out beside the access token. -/
theorem issueRefreshToken_wp (laws : R.Lawful env A) {token access : String}
    (hm : R.account m.shared (some user.id) user.userUUID ∧ R.access m access) :
    Wp R.toDiscipline A i (issueRefreshToken env client user scopes now token).run
      (Gives fun _ m' => R.access m' access ∧ R.refresh m' token) m := by
  have hlasting := (laws.account_lasting (some user.id) user.userUUID).and (laws.access_lasting access)
  refine .send (hlasting.stable i) hm fun m₁ hinv₁ hm₁ _ => ?_
  let row := refreshModel env client token (some user.id) user.userUUID scopes now
  obtain ⟨hkept, hrefresh⟩ := laws.createRefresh
    { row with scopesJSON := env.jsonColumn row.scopesJSON } hinv₁ rfl hm₁.1 rfl
  refine ⟨hkept.1, hkept.2, .require fun hcreated => ?_⟩
  have hm₂ := And.intro (hkept.lasting (laws.access_lasting access) hm₁.2) (hrefresh hcreated)
  have hlasting := (laws.access_lasting access).and (laws.refresh_lasting token)
  have hsave : (Prog.attempt (cacheUntil row.expiresAt (Repository.saveRefreshToken
      (refreshEntry client row row.tokenSHA256))) : Service TokenError Unit).run.Acts Aside :=
    .attempt fun _ => ⟨.saveRefreshToken _ _, fun _ => trivial⟩
  exact (wp_last hsave (fun _ _ _ => laws.aside) hlasting hm₂).imp fun _ _ hm₃ _ _ => hm₃

theorem issueUserGrantTokens_wp (laws : R.Lawful env A)
    (hm : R.account m.shared (some user.id) user.userUUID) :
    Wp R.toDiscipline A i (issueUserGrantTokens env draws client user scopes now).run
      (Gives fun result m' => R.HandsOut m' result ∧ result.idToken = "") m := by
  refine .bind (issueAccessToken_wp laws hm) fun result m₁ hr => ?_
  obtain ⟨haccount, haccess, hrefresh, hid⟩ := hr
  split
  · refine .bind (issueRefreshToken_wp laws ⟨haccount, haccess⟩) fun u m₂ hr => ?_
    exact .ok ⟨⟨hr.1, .inr hr.2, .inl hid⟩, hid⟩
  · exact .ok ⟨⟨haccess, .inl hrefresh, .inl hid⟩, hid⟩

/-! ## The grants -/

theorem approved_of_deviceRefusal {status : DeviceStatus} (h : deviceRefusal status = none) :
    status = .approved := by
  cases status <;> simp_all [deviceRefusal]

theorem findClient_wp {clientID : String} {grantType : GrantType} :
    Wp R.toDiscipline A i (findClient env clientID grantType).run
      (Gives fun client _ => env.findByClientID (trimSpace clientID) = some client ∧
        grantType.text ∈ client.grantTypes) m := by
  refine .read fun m₁ _ => ?_
  refine .found fun client hclient => ?_
  refine .require fun _ => .require fun hgrant => ?_
  exact .ok ⟨hclient, hgrant⟩

theorem exchangeAuthorizationCode_wp (laws : R.Lawful env A) (hp : R.presented (.code input.code)) :
    Wp R.toDiscipline A i (exchangeAuthorizationCode env draws input).run
      (Gives fun result m' => R.HandsOut m' result) m := by
  refine .skip (findClient_silent _ _ _) fun client m₁ => ?_
  refine .require fun _ => ?_
  refine .skip (validateClientSecret_silent _ _ _) fun _ m₂ => ?_
  refine .clock fun m₃ _ => ?_
  refine .send stable_true trivial fun m₄ hinv₄ _ ha => ?_
  have hkept := laws.aside (.consumeByCode env input.code m₃.shared.now) hinv₄ ha
  refine ⟨hkept.1, hkept.2, .found fun code hcode => ?_⟩
  obtain ⟨hholder, hopenid⟩ := laws.code hinv₄ hp ha hcode
  refine .require fun _ => ?_
  refine .require fun _ => .require fun _ => ?_
  refine .read fun m₅ hinv₅ => ?_
  refine .found fun user huser => ?_
  have haccount := laws.user hinv₅ hholder huser
  refine wp_clock ((laws.account_lasting _ _).stable i) haccount fun m₆ _ hm₆ => ?_
  refine .bind (issueUserGrantTokens_wp laws hm₆) fun result m₇ hr => ?_
  obtain ⟨hout, hid⟩ := hr
  split
  next hscope =>
    refine .found fun idToken _ => ?_
    exact .ok ⟨hout.access, hout.refresh, .inr (hopenid hscope)⟩
  next =>
    exact .ok hout

theorem checkReplay_wp (laws : R.Lawful env A) (hp : R.presented (.refreshToken sha))
    (hP : R.Lasting P) (hm : P m) :
    Wp R.toDiscipline A i (checkReplay sha fp).run
      (fun r m' => P m' ∧ ∀ result, r = .ok (some result) → R.HandsOut m' result) m := by
  refine wp_bind_except.mpr (wp_call ⟨hm, fun _ h => by cases h⟩ ?_)
  intro m₁ hr₁ hinv₁ m₂ hr₂ hinv₂ ha
  have hm₂ : P m₂ := hP.stable i _ _ hr₂ hinv₂ (hP.stable i _ _ hr₁ hinv₁ hm)
  have hkept := laws.aside (.checkRefreshReplay sha _ fp) hinv₂ ha
  have hm₃ := hkept.lasting hP hm₂
  refine ⟨hkept.1, hkept.2, ?_, hm₃, fun _ h => by cases h⟩
  dsimp only
  split
  next response hresponse =>
    refine ⟨hm₃, ?_⟩
    rintro result ⟨⟩
    have hout := (laws.grace hinv₂ hp hresponse).handsOut
    exact hkept.lasting (laws.handsOut_lasting _) hout
  next => exact ⟨hm₃, fun _ h => by cases h⟩
  next => exact ⟨hm₃, fun _ h => by cases h⟩

theorem tryRefreshTokenGraceReplay_wp (laws : R.Lawful env A) {err : TokenError}
    (hp : R.presented (.refreshToken sha)) :
    Wp R.toDiscipline A i (tryRefreshTokenGraceReplay sha fp err).run
      (Gives fun result m' => R.HandsOut m' result) m := by
  refine .caught (checkReplay_wp laws (P := fun _ => True) hp
    (fun _ _ _ h => h) trivial) fun r m₁ hr => ?_
  split
  next result =>
    exact .ok (hr.2 result rfl)
  next => rintro _ ⟨⟩

/-- **The rotation.** The answer goes into the cache as it is handed out. -/
theorem rotate_wp (laws : R.Lawful env A) {oldSHA newToken : String} {old : RefreshToken} {id : Int}
    {result : ExchangeResult} (hp : R.presented (.refreshToken oldSHA))
    (hm : R.account m.shared (some id) sub ∧ R.access m result.accessToken)
    (hid : old.userID = some id) (hidToken : result.idToken = "") :
    Wp R.toDiscipline A i (rotate env client oldSHA fp old scopes now result newToken).run
      (Gives fun result m' => R.HandsOut m' result) m := by
  have hlasting := (laws.account_lasting (some id) sub).and (laws.access_lasting result.accessToken)
  refine wp_bind_except.mpr (wp_lift.mpr (wp_call ?_ ?_))
  · exact tryRefreshTokenGraceReplay_wp laws hp
  intro m₁ hr hinv₁ _
  have hm₁ := hlasting.stable i _ _ hr hinv₁ hm
  let row := refreshModel env client newToken old.userID old.subject scopes now
  obtain ⟨hkept, hrefresh⟩ := laws.rotateRefresh
    { row with scopesJSON := env.jsonColumn row.scopesJSON } hinv₁ hid hm₁.1 rfl
  refine ⟨hkept.1, hkept.2, ?_, tryRefreshTokenGraceReplay_wp laws hp⟩
  dsimp only
  split
  next hrotated =>
    have hm₂ := And.intro (hkept.lasting (laws.access_lasting _) hm₁.2)
      (hrefresh (Except.ok.inj hrotated))
    have hlasting := (laws.access_lasting result.accessToken).and (laws.refresh_lasting newToken)
    have hout : ∀ m', R.access m' result.accessToken ∧ R.refresh m' newToken →
        R.HandsOut m' { result with refreshToken := newToken } :=
      fun m' h => ⟨h.1, .inr h.2, .inl hidToken⟩
    refine wp_bind_except.mpr (wp_attempt ?_ ?_)
    · exact .ok (hout _ hm₂)
    · intro m₃ hr₃ hinv₃ m₄ hr₄ hinv₄ m₅ hr₅ hinv₅ _
      have hm₃ := hlasting.stable i _ _ hr₃ hinv₃ hm₂
      have hm₅ := hlasting.stable i _ _ (hr₄.trans hr₅) hinv₅ hm₃
      have hrepeatable : R.Repeatable m₅ ⟨result.accessToken, result.tokenType, result.expiresIn,
          newToken, result.scope, result.idToken⟩ :=
        ⟨hm₅.1, hm₅.2, .inl hidToken⟩
      refine (laws.rotateToken hinv₅ hrepeatable).done hlasting hm₅ fun m₆ hm₆ => ?_
      rintro _ ⟨⟩
      exact hout _ hm₆
  next => exact tryRefreshTokenGraceReplay_wp laws hp
  next => exact tryRefreshTokenGraceReplay_wp laws hp
  next => exact tryRefreshTokenGraceReplay_wp laws hp

theorem exchangeRefreshToken_wp (laws : R.Lawful env A)
    (hp : R.presented (.refreshToken (env.sha256Hex input.refreshToken))) :
    Wp R.toDiscipline A i (exchangeRefreshToken env draws input).run
      (Gives fun result m' => R.HandsOut m' result) m := by
  refine .skip (findClient_silent _ _ _) fun client m₁ => ?_
  refine .skip (validateClientSecret_silent _ _ _) fun _ m₂ => ?_
  refine wp_bind_except.mpr ((checkReplay_wp laws (P := fun _ => True) hp
    (fun _ _ _ h => h) trivial).imp fun r m₃ hr => ?_)
  match r with
  | .error e => exact gives_error
  | .ok (some result) =>
    exact .ok (hr.2 result rfl)
  | .ok none =>
    refine .read fun m₄ hinv₄ => ?_
    refine .found fun old hold => ?_
    obtain ⟨id, hid, hholder⟩ := laws.row hinv₄ hp hold
    refine .require fun _ => ?_
    refine .read fun m₅ hinv₅ => ?_
    refine .found fun user huser => ?_
    rw [hid, Option.getD_some] at huser
    have haccount : R.account m₅.shared (some id) user.userUUID := by
      rw [← Database.findUser_id huser]
      exact laws.user hinv₅ hholder huser
    refine wp_clock ((laws.account_lasting _ _).stable i) haccount fun m₆ _ hm₆ => ?_
    have hm₆ : R.account m₆.shared old.userID user.userUUID := hid ▸ hm₆
    refine wp_bind_except.mpr ((issueAccessToken_wp laws hm₆).imp fun r m₇ hr => ?_)
    cases r with
    | error e => exact gives_error
    | ok result =>
      obtain ⟨hm₇, haccess, hrefresh, hidToken⟩ := hr result rfl
      dsimp only
      split
      · exact .ok ⟨haccess, .inl hrefresh, .inl hidToken⟩
      · exact rotate_wp laws hp ⟨hid ▸ hm₇, haccess⟩ hid hidToken

theorem exchangeClientCredentials_wp (laws : R.Lawful env A) :
    Wp R.toDiscipline A i (exchangeClientCredentials env draws input).run
      (Gives fun result m' => R.HandsOut m' result) m := by
  refine .bind findClient_wp fun client m₁ hr => ?_
  obtain ⟨hfound, hgrant⟩ := hr
  refine .skip (validateClientSecret_silent _ _ _) fun _ m₂ => ?_
  refine .require fun _ => ?_
  refine .clock fun m₃ _ => ?_
  refine (issueAccessToken_wp laws (laws.client hfound hgrant)).imp fun r m₄ hr result h => ?_
  obtain ⟨_, haccess, hrefresh, hidToken⟩ := hr result h
  exact ⟨haccess, .inl hrefresh, .inl hidToken⟩

theorem exchangePassword_wp (laws : R.Lawful env A) :
    Wp R.toDiscipline A i (exchangePassword env draws input).run
      (Gives fun result m' => R.HandsOut m' result) m := by
  refine .skip (findClient_silent _ _ _) fun client m₁ => ?_
  refine .skip (validateClientSecret_silent _ _ _) fun _ m₂ => ?_
  refine .read fun m₃ hinv₃ => ?_
  refine .found fun user huser => ?_
  refine .require fun hstatus => ?_
  have haccount := laws.login hinv₃ huser hstatus
  have hlasting := laws.account_lasting (some user.id) user.userUUID
  refine laws.wp_aside (.lift ⟨.verifyPassword _, fun _ => trivial⟩) hlasting haccount
    fun valid m₄ hm₄ => ?_
  refine .require fun _ => .require fun _ => ?_
  refine wp_clock (hlasting.stable i) hm₄ fun m₅ _ hm₅ => ?_
  exact (issueUserGrantTokens_wp laws hm₅).imp fun r m₆ hr result h => (hr result h).1

theorem exchangeDeviceCode_wp (laws : R.Lawful env A)
    (hp : R.presented (.deviceCode (trimSpace input.deviceCode))) :
    Wp R.toDiscipline A i (exchangeDeviceCode env draws input).run
      (Gives fun result m' => R.HandsOut m' result) m := by
  refine .skip (findClient_silent _ _ _) fun client m₁ => ?_
  refine .skip (validateClientSecret_silent _ _ _) fun _ m₂ => ?_
  refine .read fun m₃ hinv₃ => ?_
  refine .found fun entry hentry => ?_
  refine .clock fun m₄ _ => ?_
  refine .require fun _ => ?_
  refine .clock fun m₅ _ => ?_
  refine laws.wp_aside (P := fun _ => True) (.call ⟨.touchPoll _ _ _, fun _ => trivial⟩)
    (fun _ _ _ h => h) trivial fun allowed m₆ _ => ?_
  refine .require fun _ => ?_
  split
  next => rintro _ ⟨⟩
  next hstatus =>
    refine .found fun userID huserID => ?_
    obtain ⟨hparse, _⟩ := Option.filter_eq_some_iff.mp huserID
    have hholder := laws.device hinv₃ hp hentry (approved_of_deviceRefusal hstatus) hparse
    refine .read fun m₇ hinv₇ => ?_
    refine .found fun user huser => ?_
    have haccount := laws.user hinv₇ hholder huser
    refine .require fun _ => ?_
    refine wp_clock ((laws.account_lasting _ _).stable i) haccount fun m₈ _ hm₈ => ?_
    refine .bind (issueUserGrantTokens_wp laws hm₈) fun result m₉ hr => ?_
    have hlasting := laws.handsOut_lasting result
    refine wp_clock (hlasting.stable i) hr.1 fun m₁₀ _ hm₁₀ => ?_
    refine laws.wp_aside (.call ⟨.consumeDevice _ _, fun _ => trivial⟩) hlasting hm₁₀
      fun _ m₁₁ hm₁₁ => ?_
    exact .ok hm₁₁

/-- **Under a regime every result consists of tokens that may be handed out.** -/
theorem exchange_handsOut (laws : R.Lawful env A) (hp : ∀ p ∈ credential env input, R.presented p) :
    Wp R.toDiscipline A i (exchange env draws input).run
      (Gives fun result m' => R.HandsOut m' result) m := by
  unfold exchange
  unfold credential at hp
  cases hgrant : input.grantType with
  | authorizationCode => exact exchangeAuthorizationCode_wp laws (hp _ (by rw [hgrant]; rfl))
  | refreshToken => exact exchangeRefreshToken_wp laws (hp _ (by rw [hgrant]; rfl))
  | clientCredentials => exact exchangeClientCredentials_wp laws
  | password => exact exchangePassword_wp laws
  | deviceCode => exact exchangeDeviceCode_wp laws (hp _ (by rw [hgrant]; rfl))
  | other text => rintro _ ⟨⟩

end Programs

end Regime

end IdpServer.Laws.Token
