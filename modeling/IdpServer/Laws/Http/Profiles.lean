import IdpServer.Http.Middleware
import IdpServer.Laws.Token.Regime

/-!
# Laws.Http.Profiles — which tokens open a profile

An ID token opens the profile of its subject, and so does the token of a client whose id is the UUID of a user
(`foreignTokensOpenProfile`). `ownTokenOpensProfile` is the law without these two.
-/

namespace IdpServer.Laws.Http

open Conc IdpServer.Cache Store Go IdpServer.Token
open IdpServer.Http Laws.Token

variable {ι : Type}

/-! ## Accounts and tokens -/

/-- The account and the subject of a token belong together: they are those of a user, or of a client
that asks for tokens in its own name. -/
def Names (env : Env) (w : World) (userID : Option Int) (sub : String) : Prop :=
  (∃ u ∈ w.db.users, userID = some u.id ∧ u.userUUID = sub) ∨
  (userID = none ∧ ∃ clientID client, env.findByClientID clientID = some client ∧
    GrantType.clientCredentials.text ∈ client.grantTypes ∧ client.clientID = sub)

def IssuedFor (userID : Option Int) (m : Moment ι World Label) (token : String) : Prop :=
  ∃ x ∈ m.trace, ∃ row, x.label = .createAccessToken row ∧ row.tokenValue = token ∧
    row.userID = userID

def Signed (env : Env) (m : Moment ι World Label) (token : String) : Prop :=
  ∃ userID claims, IssuedFor userID m token ∧ env.mintAccessToken claims = some token ∧
    Names env m.shared userID claims.sub

def UsersStay (w w' : World) : Prop :=
  ∀ u ∈ w.db.users, ∃ u' ∈ w'.db.users, u'.id = u.id ∧ u'.userUUID = u.userUUID

/-- What else goes on: accounts stay, and nothing is added to the refresh tokens or to the responses
that may be repeated. -/
structure Elsewhere (w w' : World) : Prop where
  users : UsersStay w w'
  rows : ∀ r' ∈ w'.db.refreshTokens, ∃ r ∈ w.db.refreshTokens, r.userID = r'.userID
  grace : ∀ sha e, w'.tokens.grace sha = some e → w.tokens.grace sha = some e

/-- The condition: a code that is redeemed does not ask for an ID token. -/
def NoIDToken (env : Env) (m : Moment ι World Label) (_ : ι) : Label → Prop
  | .consumeByCode code _ => ∀ row ∈ m.shared.db.authCodes, env.sqlEq row.code code = true →
      "openid" ∉ mustDecodeScopeJSON row.scopesJSON
  | _ => True

instance (env : Env) (m : Moment ι World Label) (i : ι) (l : Label) :
    Decidable (NoIDToken env m i l) := by
  induction l using Label.casesOn <;> dsimp only [NoIDToken] <;> infer_instance

theorem UsersStay.refl (w : World) : UsersStay w w := fun u hu => ⟨u, hu, rfl, rfl⟩

variable {w w' : World} {env : Env} {userID : Option Int} {m m' : Moment ι World Label}
variable {token : String} {E : World → World → Prop}

theorem UsersStay.of_eq (h : w'.db.users = w.db.users) : UsersStay w w' := by
  intro u hu
  exact ⟨u, h ▸ hu, rfl, rfl⟩

theorem UsersStay.trans {w'' : World} (h : UsersStay w w') (h' : UsersStay w' w'') :
    UsersStay w w'' := by
  intro u hu
  obtain ⟨u', hu', hid, huuid⟩ := h u hu
  obtain ⟨u'', hu'', hid', huuid'⟩ := h' u' hu'
  exact ⟨u'', hu'', hid'.trans hid, huuid'.trans huuid⟩

theorem Names.stay {sub : String} (h : Names env w userID sub) (hw : UsersStay w w') :
    Names env w' userID sub := by
  rcases h with ⟨u, hu, rfl, rfl⟩ | h
  · obtain ⟨u', hu', hid, huuid⟩ := hw u hu
    exact .inl ⟨u', hu', by rw [hid], huuid⟩
  · exact .inr h

theorem IssuedFor.suffix (h : IssuedFor userID m token) (hm : m.trace <:+ m'.trace) :
    IssuedFor userID m' token := by
  obtain ⟨x, hx, hrow⟩ := h
  exact ⟨x, hm.subset hx, hrow⟩

theorem Signed.later (h : Signed env m token) (hm : m.trace <:+ m'.trace)
    (hw : UsersStay m.shared m'.shared) : Signed env m' token := by
  obtain ⟨userID, claims, hissued, hmint, hnames⟩ := h
  exact ⟨userID, claims, hissued.suffix hm, hmint, hnames.stay hw⟩

/-! ## The regime -/

/-- Every response in the cache has a signed access token and no ID token, and every refresh token
has a user. -/
structure Accounted (env : Env) (m : Moment ι World Label) : Prop where
  grace : ∀ sha e, m.shared.tokens.grace sha = some e →
    Signed env m e.value.accessToken ∧ e.value.idToken = ""
  rows : ∀ r ∈ m.shared.db.refreshTokens, ∃ id, r.userID = some id

/-- Only signed access tokens are handed out, and no ID token. -/
def signing (env : Env) : Regime ι where
  inv := Accounted env
  mono m m' := UsersStay m.shared m'.shared
  mono_refl m := .refl m.shared
  mono_trans := UsersStay.trans
  presented _ := True
  holder _ := True
  account := Names env
  access := Signed env
  refresh _ _ := True
  openid := False

section Regime

variable {env : Env} {m : Moment ι World Label} {i : ι}

theorem Accounted.elsewhere {m' : Moment ι World Label} (h : Accounted env m)
    (hm : m.trace <:+ m'.trace) (hw : Elsewhere m.shared m'.shared) : Accounted env m' := by
  constructor
  · intro sha e he
    obtain ⟨hsigned, hid⟩ := h.grace sha e (hw.grace sha e he)
    exact ⟨hsigned.later hm hw.users, hid⟩
  · intro r' hr'
    obtain ⟨r, hr, huser⟩ := hw.rows r' hr'
    rw [← huser]
    exact h.rows r hr

variable {l : Label} {f : World → World}

theorem kept_elsewhere (h : Accounted env m) (hw : Elsewhere m.shared (f m.shared)) :
    (signing env).Kept m (m.after i l f) :=
  ⟨h.elsewhere (List.suffix_cons _ _) hw, hw.users⟩

theorem kept_rows (h : Accounted env m) (husers : (f m.shared).db.users = m.shared.db.users)
    (hgrace : (f m.shared).tokens.grace = m.shared.tokens.grace)
    (hrows : ∀ r ∈ (f m.shared).db.refreshTokens, ∃ id, r.userID = some id) :
    (signing env).Kept m (m.after i l f) := by
  refine ⟨⟨fun sha e he => ?_, hrows⟩, .of_eq husers⟩
  rw [Moment.after_shared, hgrace] at he
  obtain ⟨hsigned, hid⟩ := h.grace sha e he
  exact ⟨hsigned.later (List.suffix_cons _ _) (.of_eq husers), hid⟩

theorem Elsewhere.of_same {w w' : World} (husers : w'.db.users = w.db.users)
    (hrows : w'.db.refreshTokens = w.db.refreshTokens) (hgrace : w'.tokens.grace = w.tokens.grace) :
    Elsewhere w w' := by
  refine ⟨.of_eq husers, fun r hr => ⟨r, hrows ▸ hr, rfl⟩, fun sha e he => ?_⟩
  rw [← hgrace]
  exact he

theorem aside_elsewhere (h : Aside l f) (w : World) : Elsewhere w (f w) := by
  cases h with
  | consumeByCode env code consumedAt =>
    obtain ⟨rows, h⟩ := w.db.consumeByCode_frame env.sqlEq code consumedAt
    exact .of_same (by simp only [h]) (by simp only [h]) rfl
  | _ => exact .of_same rfl rfl (by simp [TokenCache.saveAccessToken, TokenCache.saveRefreshToken])

theorem signing_lawful : (signing (ι := ι) env).Lawful env (NoIDToken env) where
  account_later h hm := hm.stay h.mono
  access_later h hm := hm.later h.suffix h.mono
  refresh_later _ _ := trivial
  code := by
    intro m i code consumedAt row _ _ ha hrow
    obtain ⟨hmem, hcode, _⟩ := Database.consumeByCode_eq_some hrow
    exact ⟨trivial, fun hopenid => ha row hmem hcode hopenid⟩
  row := by
    intro m sha old hinv _ hold
    obtain ⟨id, hid⟩ := hinv.rows old (List.mem_of_find?_eq_some hold)
    exact ⟨id, hid, trivial⟩
  device _ _ _ _ _ := trivial
  grace := by
    intro m sha nowTS fp response hinv _ hgrace
    obtain ⟨t, ht, _⟩ := Keyspace.get_eq_some.mp (TokenCache.grace_of_checkRefreshReplay hgrace)
    obtain ⟨hsigned, hid⟩ := hinv.grace sha _ ht
    exact ⟨hsigned, trivial, .inl hid⟩
  user _ _ huser := .inl ⟨_, List.mem_of_find?_eq_some huser, rfl, rfl⟩
  login _ huser _ := .inl ⟨_, List.mem_of_find?_eq_some huser, rfl, rfl⟩
  client hclient hgrant := .inr ⟨rfl, _, _, hclient, hgrant, rfl⟩
  aside hl hinv _ := kept_elsewhere hinv (aside_elsewhere hl _)
  createAccess := by
    intro m i claims row hinv hmint hnames _
    obtain ⟨rows, h⟩ := m.shared.db.createAccessToken_frame row
    have hw : Elsewhere m.shared { m.shared with db := (m.shared.db.createAccessToken row).2 } :=
      .of_same (by rw [h]) (by rw [h]) rfl
    refine ⟨kept_elsewhere hinv hw, fun _ => ?_⟩
    exact ⟨row.userID, claims, ⟨_, .head _, row, rfl, rfl, rfl⟩, hmint, hnames.stay hw.users⟩
  createRefresh := by
    intro m i id sub row hinv hid _ _
    obtain ⟨rows, h⟩ := m.shared.db.createRefreshToken_frame row
    refine ⟨kept_rows hinv (by simp only [h]) rfl fun r hr => ?_, fun _ => trivial⟩
    rcases Database.mem_createRefreshToken hr with hr | rfl
    · exact hinv.rows r hr
    · exact ⟨id, hid⟩
  rotateRefresh := by
    intro m i oldSHA revokedAt id sub row hinv hid _ _
    obtain ⟨rows, h⟩ := m.shared.db.rotateRefreshToken_frame oldSHA revokedAt row
    refine ⟨kept_rows hinv (by simp only [h]) rfl fun r hr => ?_, fun _ => trivial⟩
    rcases Database.mem_rotateRefreshToken hr with hr | rfl | ⟨r₀, hr₀, _, _, rfl⟩
    · exact hinv.rows r hr
    · exact ⟨id, hid⟩
    · exact hinv.rows r₀ hr₀
  rotateToken := by
    intro m i oldSHA new response fp newTTL graceTTL nowTS hinv hresponse
    refine ⟨⟨fun sha e he => ?_, hinv.rows⟩, .refl _⟩
    have hvalue : Signed env m e.value.accessToken ∧ e.value.idToken = "" := by
      rcases TokenCache.grace_of_rotateToken he with hnew | hold
      · rw [hnew]
        exact ⟨hresponse.access, hresponse.idToken.resolve_right id⟩
      · exact hinv.grace sha e hold
    exact ⟨hvalue.1.later (List.suffix_cons _ _) (.refl _), hvalue.2⟩

end Regime

/-! ## The endpoint -/

def staying : Discipline ι World Label where
  inv _ := True
  mono m m' := UsersStay m.shared m'.shared
  mono_refl m := .refl m.shared
  mono_trans := UsersStay.trans

/-- The profile is that of a user with the subject of the token, when the token was verified. -/
def Opened (env : Env) (token : String) (output : UserInfoOutput) (w : World) : Prop :=
  ∃ now claims, env.parseAndValidate token now = some claims ∧ token ≠ "" ∧
    ∃ u ∈ w.db.users, env.sqlEq u.userUUID claims.sub = true ∧ u.userUUID = output.subject

theorem Opened.stay {output : UserInfoOutput} (h : Opened env token output w) (hw : UsersStay w w') :
    Opened env token output w' := by
  obtain ⟨now, claims, hparse, hne, u, hu, hsub, hout⟩ := h
  obtain ⟨u', hu', _, huuid⟩ := hw u hu
  exact ⟨now, claims, hparse, hne, u', hu', huuid ▸ hsub, huuid ▸ hout⟩

theorem userInfo_wp [DecidableEq ι] {A : Moment ι World Label → ι → Label → Prop} {i : ι}
    (env : Env) (header : String) :
    Wp staying A i (userInfo env header).run (fun result m' => ∀ output, result = .ok output →
      Opened env (extractBearerToken header) output m'.shared) m := by
  have hany : (staying).Stable i fun _ => True := fun _ _ _ _ h => h
  refine wp_bind_except.mpr ?_
  refine wp_require (fun _ => nofun) fun hne => ?_
  refine wp_ask hany trivial (fun _ _ => nofun) fun m₁ _ _ => ?_
  refine wp_require (fun _ => nofun) fun _ => ?_
  refine .clock fun m₂ _ => ?_
  refine wp_found (fun _ => nofun) fun _ _ => ?_
  refine wp_require (fun _ => nofun) fun _ => ?_
  refine .clock fun m₃ _ => ?_
  refine wp_found (fun _ => nofun) fun claims hclaims => ?_
  refine wp_require (fun _ => nofun) fun _ => ?_
  refine wp_ask hany trivial (fun _ _ => nofun) fun m₄ _ _ => ?_
  refine wp_found (fun _ => nofun) fun user huser => ?_
  have hmatch := List.find?_some huser
  rintro output ⟨⟩
  exact ⟨_, claims, hclaims, hne, user, List.mem_of_find?_eq_some huser, hmatch, rfl⟩

/-! ## The law -/

/-- The run has given this text away as a token. -/
def HandedOut (c : Config ι World Label (Except TokenError ExchangeResult)) (token : String) : Prop :=
  ∃ i result, c.procs i = .ret (.ok result) ∧
    (token = result.accessToken ∨ token = result.idToken)

theorem signing_admits (hE : ∀ w w', E w w' → Elsewhere w w') : (signing (ι := ι) env).Admits E :=
  fun _ _ hinv hs => ⟨hinv.elsewhere (List.suffix_refl _) (hE _ _ hs), (hE _ _ hs).users⟩

/-- **What is handed out is signed.** -/
theorem signed_of_handedOut [DecidableEq ι] {calls : ι → Draws × ExchangeInput}
    (hgrace : w.tokens.grace = .empty) (hrows : ∀ r ∈ w.db.refreshTokens, ∃ id, r.userID = some id)
    (hE : ∀ w w', E w w' → Elsewhere w w')
    {c : Config ι World Label (Except TokenError ExchangeResult)}
    (hrun : Reach E (NoIDToken env)
      (Config.start w fun i => (exchange env (calls i).1 (calls i).2).run) c) (hne : token ≠ "")
    (h : HandedOut c token) : Signed env c.toMoment token := by
  have hsafe : c.Safe (signing env).toDiscipline (NoIDToken env) fun _ result m =>
      ∀ a, result = .ok a → (signing env).HandsOut m a := by
    refine sound (signing_admits hE) ?_ ?_ hrun
    · intro i result m m' hr _ hm a ha
      exact signing_lawful.handsOut_lasting a _ _ ⟨hr.mono, hr.suffix⟩ (hm a ha)
    · refine ⟨⟨fun sha e he => ?_, hrows⟩, fun i => ?_⟩
      · have he : w.tokens.grace sha = some e := he
        rw [hgrace] at he
        cases he
      · exact Regime.exchange_handsOut signing_lawful fun _ _ => trivial
  obtain ⟨i, result, hret, htoken⟩ := h
  have hout := hsafe.returned hret result rfl
  rcases htoken with rfl | rfl
  · exact hout.access
  · exact absurd (hout.idToken.resolve_right id) hne

/-- **Only a user's own access token opens the profile.** Any number of token requests have been made, and
no code with the scope `openid` was redeemed. The text presented to the userinfo endpoint verifies only if
it was handed out. If the profile of a user comes back, and no client of the client credentials grant has
the UUID of a user as its id, then the text is an access token that a grant of a user has stored for that
user. -/
theorem ownTokenOpensProfile [DecidableEq ι] (env : Env)
    (hsub : ∀ claims token now verified, env.mintAccessToken claims = some token →
      env.parseAndValidate token now = some verified → verified.sub = claims.sub)
    (hrefl : ∀ s, env.sqlEq s s = true) (calls : ι → Draws × ExchangeInput) {w : World}
    (hgrace : w.tokens.grace = .empty)
    (hrows : ∀ r ∈ w.db.refreshTokens, ∃ id, r.userID = some id) {E : World → World → Prop}
    (hE : ∀ w w', E w w' → Elsewhere w w')
    {c : Config ι World Label (Except TokenError ExchangeResult)}
    (hrun : Reach E (NoIDToken env)
      (Config.start w fun i => (exchange env (calls i).1 (calls i).2).run) c) {header : String}
    (hunforged : ∀ now claims, env.parseAndValidate (extractBearerToken header) now = some claims →
      HandedOut c (extractBearerToken header)) {E' : World → World → Prop}
    (hE' : ∀ w w', E' w w' → UsersStay w w')
    {c' : Config Unit World Label (Except String UserInfoOutput)}
    (hlook : Reach E' Unrestricted (Config.start c.shared fun _ => (userInfo env header).run) c')
    (hunique : ∀ u ∈ c'.shared.db.users, ∀ v ∈ c'.shared.db.users,
      env.sqlEq u.userUUID v.userUUID = true → u.id = v.id)
    (hclients : ∀ clientID client, env.findByClientID clientID = some client →
      GrantType.clientCredentials.text ∈ client.grantTypes →
      ∀ u ∈ c'.shared.db.users, env.sqlEq u.userUUID client.clientID = false)
    {output : UserInfoOutput} (hret : c'.procs () = .ret (.ok output)) {u : User}
    (hu : u ∈ c'.shared.db.users) (huuid : u.userUUID = output.subject) :
    ∃ x ∈ c.trace, ∃ row, x.label = .createAccessToken row ∧
      row.tokenValue = extractBearerToken header ∧ row.userID = some u.id ∧
      UserGrant (calls x.pid).2.grantType := by
  have hstay : (staying (ι := Unit)).Admits E' := fun _ _ _ hs => ⟨trivial, hE' _ _ hs⟩
  have hkeeps : (staying (ι := Unit)).Keeps fun _ (result : Except String UserInfoOutput) m' =>
      ∀ output, result = .ok output → Opened env (extractBearerToken header) output m'.shared :=
    fun _ _ _ _ hr _ h output ho => (h output ho).stay hr.mono
  have hstart : (Config.start c.shared fun _ : Unit => (userInfo env header).run).Safe staying
      Unrestricted fun _ result m' => ∀ output, result = .ok output →
        Opened env (extractBearerToken header) output m'.shared :=
    ⟨trivial, fun _ => userInfo_wp env header⟩
  have husers : UsersStay c.shared c'.shared := hstart.mono hstay hkeeps hlook
  obtain ⟨now, claims, hparse, hne, v, hv, hvsub, hvout⟩ :=
    (sound hstay hkeeps hstart hlook).returned hret output rfl
  obtain ⟨userID, signedClaims, ⟨x, hx, row, hlabel, hvalue, huserID⟩, hmint, hnames⟩ :=
    signed_of_handedOut hgrace hrows hE hrun hne (hunforged now claims hparse)
  rw [hsub _ _ _ _ hmint hparse] at hvsub
  refine ⟨x, hx, row, hlabel, hvalue, ?_⟩
  -- the token was signed for a user, since no client has the subject of one
  rcases hnames.stay husers with ⟨u₀, hu₀, rfl, hu₀sub⟩ | ⟨_, clientID, client, hfind, hgrant, hid⟩
  · rw [← hu₀sub] at hvsub
    have hid : u.id = u₀.id := by
      rw [← hunique v hv u₀ hu₀ hvsub]
      exact hunique u hu v hv (by rw [huuid, hvout]; exact hrefl _)
    refine ⟨huserID.trans (by rw [hid]), ?_⟩
    obtain ⟨f, hgrants⟩ := (Reach.acts (fun i => exchange_account env (calls i).1 (calls i).2)
      hrun).2 x hx
    refine (hgrants row hlabel).resolve_left ?_
    rw [huserID]
    exact nofun
  · rw [← hid, hclients clientID client hfind hgrant v hv] at hvsub
    cases hvsub

/-! ## Texts with a readable subject -/

def grantee (id : Int) (clientID : String) (grantType : GrantType) : Client where
  id := id
  clientID := clientID
  clientName := clientID
  clientSecretHash := ""
  requirePKCE := false
  requireConsent := false
  accessTokenTTLSeconds := 3600
  refreshTokenTTLSeconds := 0
  idTokenTTLSeconds := 0
  status := "active"
  redirectURIs := ["https://app"]
  grantTypes := [grantType.text]
  scopes := ["openid"]

def readableEnv (clients : List Client) : Env :=
  { Env.plain clients with
    mintAccessToken := fun claims =>
      if claims.jti.length = 2 then some (claims.jti ++ claims.sub) else none
    mintIDToken := fun claims =>
      if claims.jti.length = 2 then some (claims.jti ++ claims.sub) else none
    parseAndValidate := fun token now =>
      ((Env.plain clients).parseAndValidate token now).map fun claims =>
        { claims with sub := String.ofList (token.toList.drop 2) } }

theorem readableEnv_sub (clients : List Client) (claims : AccessClaims) (token : String) (now : Int)
    (verified : AccessClaims) (hmint : (readableEnv clients).mintAccessToken claims = some token)
    (hparse : (readableEnv clients).parseAndValidate token now = some verified) :
    verified.sub = claims.sub := by
  obtain ⟨hlength, rfl⟩ : claims.jti.length = 2 ∧ claims.jti ++ claims.sub = token := by
    simpa [readableEnv] using hmint
  have hdrop : (claims.jti.toList ++ claims.sub.toList).drop 2 = claims.sub.toList := by
    rw [← hlength, ← String.length_toList, List.drop_left]
  simp [readableEnv, Env.plain, String.toList_append, hdrop] at hparse
  rw [← hparse]

def ada : User :=
  ⟨7, "sub-7", "ada", "ada@example", true, "Ada", "pw", "user", 0#32, "", "active"⟩

def invited : World :=
  let code : AuthorizationCode :=
    ⟨1, "c1", 1, 7, none, "https://app", "[\"openid\"]", "", "", "", "", 600 * second, none⟩
  { World.empty 0 with db := { Database.empty with users := [ada], authCodes := [code] } }

def loginAtTerminal (_ : Unit) : Draws × ExchangeInput :=
  (⟨"a1", "i1", "r1"⟩,
    { grantType := .password, clientID := "cli", username := "ada", password := "pw" })

theorem ownTokenOpensProfile_password :
    let env := readableEnv [grantee 1 "cli" .password]
    ∃ c, Reach Elsewhere (NoIDToken env) (Config.start invited fun i =>
        (exchange env (loginAtTerminal i).1 (loginAtTerminal i).2).run) c ∧
    ∃ c', Reach UsersStay Unrestricted
        (Config.start c.shared fun _ : Unit => (userInfo env "Bearer a1sub-7").run) c' ∧
      c'.procs () = .ret (.ok (profile ada)) ∧
      ∃ x ∈ c.trace, ∃ row, x.label = .createAccessToken row ∧ row.tokenValue = "a1sub-7" ∧
        row.userID = some 7 := by
  intro env
  let c := (Config.start invited fun i => (exchange env (loginAtTerminal i).1
    (loginAtTerminal i).2).run).played (NoIDToken env) [.run (), .run (), .run (), .run ()]
  have hrun : Reach Elsewhere (NoIDToken env) _ c :=
    played_reach _ (by simp [Move.Allowed]) (by decide +kernel)
  let c' := (Config.start c.shared fun _ : Unit =>
    (userInfo env "Bearer a1sub-7").run).played Unrestricted [.run ()]
  have hlook : Reach UsersStay Unrestricted _ c' :=
    played_reach _ (by simp [Move.Allowed]) (by decide +kernel)
  have hret : c'.procs () = .ret (.ok (profile ada)) := by decide +kernel
  have hout : c.procs () = .ret (.ok ⟨"a1sub-7", "Bearer", 3600, "", "openid", ""⟩) :=
    by decide +kernel
  have hheader : extractBearerToken "Bearer a1sub-7" = "a1sub-7" := by decide +kernel
  have husers : c'.shared.db.users = [ada] := by decide +kernel
  refine ⟨c, hrun, c', hlook, hret, ?_⟩
  have hclients : ∀ clientID client, env.findByClientID clientID = some client →
      GrantType.clientCredentials.text ∉ client.grantTypes := by
    intro clientID client hfind
    rw [List.mem_singleton.mp (List.mem_of_find?_eq_some
      (p := fun c : Client => c.clientID = clientID) (l := [grantee 1 "cli" .password]) hfind)]
    decide +kernel
  obtain ⟨x, hx, row, hlabel, hvalue, huserID, _⟩ := ownTokenOpensProfile env (readableEnv_sub _)
    (by simp [env, readableEnv, Env.plain]) loginAtTerminal rfl
    (by simp [invited, Database.empty, World.empty]) (fun _ _ h => h) hrun
    (fun _ _ _ => ⟨(), _, hout, .inl hheader⟩) (fun _ _ h => h) hlook (by simp [husers])
    (fun clientID client hfind hgrant => absurd hgrant (hclients clientID client hfind)) hret
    (u := ada) (by simp [husers]) rfl
  exact ⟨x, hx, row, hlabel, hvalue.trans hheader, huserID⟩

def foreignCalls : Bool → Draws × ExchangeInput
  | true => (⟨"a1", "i1", "r1"⟩, { grantType := .authorizationCode, clientID := "app", code := "c1"
                                   redirectURI := "https://app" })
  | false => (⟨"a2", "i2", "r2"⟩, { grantType := .clientCredentials, clientID := "sub-7" })

/-- **The law fails without the conditions.** The profile is shown for an ID token, and for the token of a
client with the UUID of the user. Neither was stored for the user. -/
theorem foreignTokensOpenProfile :
    let env := readableEnv [grantee 1 "app" .authorizationCode, grantee 2 "sub-7" .clientCredentials]
    ∃ c, Reach Elsewhere Unrestricted (Config.start invited fun i =>
        (exchange env (foreignCalls i).1 (foreignCalls i).2).run) c ∧
    ∀ token ∈ ["i1sub-7", "a2sub-7"], HandedOut c token ∧
      (∀ r ∈ c.shared.db.accessTokens, r.tokenValue = token → r.userID = none) ∧
      ∃ c', Reach UsersStay Unrestricted
          (Config.start c.shared fun _ : Unit => (userInfo env ("Bearer " ++ token)).run) c' ∧
        c'.procs () = .ret (.ok (profile ada)) := by
  intro env
  let c := (Config.start invited fun i => (exchange env (foreignCalls i).1
    (foreignCalls i).2).run).played Unrestricted
      [.run true, .run true, .run true, .run true, .run false, .run false, .run false]
  have hrun : Reach Elsewhere Unrestricted _ c :=
    played_reach _ (by simp [Move.Allowed]) (by decide +kernel)
  have hcode : c.procs true = .ret (.ok ⟨"a1sub-7", "Bearer", 3600, "", "openid", "i1sub-7"⟩) :=
    by decide +kernel
  have hclient : c.procs false = .ret (.ok ⟨"a2sub-7", "Bearer", 3600, "", "openid", ""⟩) :=
    by decide +kernel
  refine ⟨c, hrun, fun token htoken => ?_⟩
  simp only [List.mem_cons, List.not_mem_nil, or_false] at htoken
  rcases htoken with rfl | rfl
  · exact ⟨⟨true, _, hcode, .inr rfl⟩, by decide +kernel, _,
      played_reach (A := Unrestricted) [.run ()] (by simp [Move.Allowed]) (by decide +kernel),
      by decide +kernel⟩
  · exact ⟨⟨false, _, hclient, .inl rfl⟩, by decide +kernel, _,
      played_reach (A := Unrestricted) [.run ()] (by simp [Move.Allowed]) (by decide +kernel),
      by decide +kernel⟩

end IdpServer.Laws.Http
