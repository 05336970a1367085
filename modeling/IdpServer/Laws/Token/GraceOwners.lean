import IdpServer.Laws.Token.Refreshing
import IdpServer.Token.Endpoint

/-!
# Laws.Token.GraceOwners — a refresh token is answered to the client it was issued to

A response from the cache is given out before the client is checked. What stands in for the check is the
fingerprint, whose text begins with the id of the client (`refreshed_own`).
-/

namespace IdpServer.Laws.Token

open Conc IdpServer.Cache Store IdpServer.Token Go
open IdpServer.Clients

variable {ι : Type}

/-! ## Fingerprints -/

variable {clientID : String} {A : Moment ι World Label → ι → Label → Prop} {i : ι}
variable {m : Moment ι World Label}

theorem clientIDPattern_separator (h : clientIDPattern clientID = true) :
    '|' ∉ clientID.toList := by
  simp only [clientIDPattern, Bool.and_eq_true, List.all_eq_true] at h
  exact fun hmem => absurd (h.2 _ hmem) (by decide)

theorem clientIDPattern_trim (h : clientIDPattern clientID = true) :
    trimSpace clientID = clientID := by
  simp only [clientIDPattern, Bool.and_eq_true, List.all_eq_true] at h
  refine trimSpace_eq_self fun c hc => ?_
  have hc := h.2 c hc
  simp only [Bool.or_eq_true, Bool.and_eq_true, decide_eq_true_eq, Char.le_def,
    UInt32.le_iff_toNat_le] at hc
  -- the characters of an id lie between the hyphen and the small z
  have hrange : 45 ≤ c.toNat ∧ c.toNat ≤ 122 := by
    have hval : c.val.toNat = c.toNat := rfl
    rcases hc with (((((⟨h₁, h₂⟩ | ⟨h₁, h₂⟩) | ⟨h₁, h₂⟩) | rfl) | rfl) | rfl) | rfl
    · simp only [hval] at h₁ h₂
      exact ⟨Nat.le_trans (by decide) h₁, Nat.le_trans h₂ (by decide)⟩
    · simp only [hval] at h₁ h₂
      exact ⟨Nat.le_trans (by decide) h₁, Nat.le_trans h₂ (by decide)⟩
    · simp only [hval] at h₁ h₂
      exact ⟨Nat.le_trans (by decide) h₁, Nat.le_trans h₂ (by decide)⟩
    all_goals decide
  simp only [isSpace, Bool.or_eq_false_iff, Bool.and_eq_false_iff, decide_eq_false_iff_not]
  omega

theorem takeWhile_separator {xs ys : List Char} (h : '|' ∉ xs) :
    (xs ++ '|' :: ys).takeWhile (· ≠ '|') = xs := by
  rw [List.takeWhile_append_of_pos fun c hc => ?_]
  · simp
  · have hne : c ≠ '|' := fun heq => h (heq ▸ hc)
    simpa using hne

/-- **The text under a fingerprint says which client it is of.** -/
theorem clientID_of_fingerprintText {a b : String} (ha : '|' ∉ a.toList) (hb : '|' ∉ b.toList)
    {method method' ip ip' agent agent' : String}
    (h : fingerprintText a method ip agent = fingerprintText b method' ip' agent') : a = b := by
  have hlist : ∀ clientID method ip agent, (fingerprintText clientID method ip agent).toList =
      clientID.toList ++ '|' :: (method ++ "|" ++ ip ++ "|" ++ agent).toList := by
    intro clientID method ip agent
    simp [fingerprintText, String.toList_append]
  have htake := congrArg (fun s => s.toList.takeWhile (· ≠ '|')) h
  simp only [hlist, takeWhile_separator ha, takeWhile_separator hb] at htake
  exact String.toList_inj.mp htake

/-! ## Owners -/

/-- The refresh token was issued to the client with this id. -/
def OwnedBy (clientID : Int) (token : String) (w : World) : Prop :=
  ∃ r ∈ w.db.refreshTokens, r.tokenValue = token ∧ r.clientID = clientID

def SameToken (r r' : RefreshToken) : Prop :=
  r'.tokenValue = r.tokenValue ∧ r'.tokenSHA256 = r.tokenSHA256 ∧ r'.clientID = r.clientID

def RowsKept (w w' : World) : Prop :=
  ∀ r ∈ w.db.refreshTokens, ∃ r' ∈ w'.db.refreshTokens, SameToken r r'

/-- What else may go on: time, revocations, and everything that neither issues nor rotates refresh
tokens. -/
structure NoIssuing (w w' : World) : Prop where
  kept : RowsKept w w'
  old : ∀ r' ∈ w'.db.refreshTokens, ∃ r ∈ w.db.refreshTokens, SameToken r r'
  hashes : ∀ sha e', w'.tokens.refresh sha = some e' → e'.value.effectiveStatus = .rotated →
    ∃ e, w.tokens.refresh sha = some e ∧ e.value.effectiveStatus = .rotated ∧
      e'.value.bindFP = e.value.bindFP

/-- What is assumed of the digest, on the texts that are hashed. -/
structure DigestsOn (sha256Hex : String → String) (hashed : String → Prop) : Prop where
  injective : ∀ s t, hashed s → hashed t → sha256Hex s = sha256Hex t → s = t
  text : ∀ s, hashed s → trimSpace (sha256Hex s) = sha256Hex s ∧ sha256Hex s ≠ ""

section Law

variable (env : Env) (clients : List ClientModel) (hashed : String → Prop)

def FingerprintOf (client : ClientModel) (fp : String) : Prop :=
  ∃ method ip agent, hashed (fingerprintText client.clientID method ip agent) ∧
    fp = buildRefreshReplayFingerprint env client.clientID method ip agent

/-- **Rotated tokens are bound to the client they were issued to.** -/
structure Bound (w : World) : Prop where
  rows : ∀ r ∈ w.db.refreshTokens, hashed r.tokenValue ∧ r.tokenSHA256 = env.sha256Hex r.tokenValue
  hashes : ∀ sha e, w.tokens.refresh sha = some e → e.value.effectiveStatus = .rotated →
    ∃ r ∈ w.db.refreshTokens, r.tokenSHA256 = sha ∧ ∃ client ∈ clients, client.id = r.clientID ∧
      FingerprintOf env hashed client e.value.bindFP

def bound (ι : Type) : Discipline ι World Label where
  inv m := Bound env clients hashed m.shared
  mono m m' := RowsKept m.shared m'.shared
  mono_refl _ r hr := ⟨r, hr, rfl, rfl, rfl⟩
  mono_trans h h' r hr := by
    obtain ⟨r', hr', hvalue, hsha, hclient⟩ := h r hr
    obtain ⟨r'', hr'', hvalue', hsha', hclient'⟩ := h' r' hr'
    exact ⟨r'', hr'', hvalue'.trans hvalue, hsha'.trans hsha, hclient'.trans hclient⟩

variable {env clients hashed} {m : Moment ι World Label} {i : ι}

variable {token : String} {l : Label} {f : World → World} {sha fp : String} {nowTS : Int}
variable {response : TokenResponse} {client : ClientModel} {cenv : ClientEnv}

theorem RowsKept.ownedBy {w w' : World} (h : RowsKept w w') {clientID : Int}
    (ho : OwnedBy clientID token w) : OwnedBy clientID token w' := by
  obtain ⟨r, hr, hvalue, hclient⟩ := ho
  obtain ⟨r', hr', hvalue', -, hclient'⟩ := h r hr
  exact ⟨r', hr', hvalue'.trans hvalue, hclient'.trans hclient⟩

theorem bound_admits : (bound env clients hashed ι).Admits NoIssuing := by
  intro m s hinv hE
  refine ⟨⟨fun r' hr' => ?_, fun sha e' he' hrotated => ?_⟩, hE.kept⟩
  · obtain ⟨r, hr, hvalue, hsha, -⟩ := hE.old r' hr'
    rw [hvalue, hsha]
    exact hinv.rows r hr
  · obtain ⟨e, he, hrotated, hfp⟩ := hE.hashes sha e' he' hrotated
    obtain ⟨r, hr, hsha, client, hclient, hid, hfingerprint⟩ := hinv.hashes sha e he hrotated
    obtain ⟨r', hr', -, hsha', hid'⟩ := hE.kept r hr
    exact ⟨r', hr', hsha'.trans hsha, client, hclient, hid.trans hid'.symm, hfp ▸ hfingerprint⟩

/-! ### Commands -/

theorem kept_of_same (hinv : Bound env clients hashed m.shared)
    (hrows : (f m.shared).db.refreshTokens = m.shared.db.refreshTokens)
    (hhashes : (f m.shared).tokens.refresh = m.shared.tokens.refresh) :
    (bound env clients hashed ι).Kept m (m.after i l f) := by
  refine ⟨⟨?_, ?_⟩, fun r hr => ⟨r, ?_, rfl, rfl, rfl⟩⟩
  · rw [Moment.after_shared, hrows]
    exact hinv.rows
  · rw [Moment.after_shared, hrows, hhashes]
    exact hinv.hashes
  · rw [Moment.after_shared, hrows]
    exact hr

theorem kept_of_tokens {g : TokenCache → Int → TokenCache}
    (hinv : Bound env clients hashed m.shared)
    (hhashes : ∀ sha e', (g m.shared.tokens m.shared.now).refresh sha = some e' →
      e'.value.effectiveStatus = .rotated →
      ∃ e, m.shared.tokens.refresh sha = some e ∧ e.value = e'.value) :
    (bound env clients hashed ι).Kept m
      (m.after i l fun w => { w with tokens := g w.tokens w.now }) := by
  refine ⟨⟨hinv.rows, fun sha e' he' hrotated => ?_⟩, fun r hr => ⟨r, hr, rfl, rfl, rfl⟩⟩
  obtain ⟨e, he, hvalue⟩ := hhashes sha e' he' hrotated
  rw [← hvalue] at hrotated ⊢
  exact hinv.hashes sha e he hrotated

theorem kept_of_rows {g : Database → Database} (hinv : Bound env clients hashed m.shared)
    (hkept : RowsKept m.shared { m.shared with db := g m.shared.db })
    (hnew : ∀ r' ∈ (g m.shared.db).refreshTokens,
      (∃ r ∈ m.shared.db.refreshTokens, SameToken r r') ∨
      hashed r'.tokenValue ∧ r'.tokenSHA256 = env.sha256Hex r'.tokenValue) :
    (bound env clients hashed ι).Kept m (m.after i l fun w => { w with db := g w.db }) := by
  refine ⟨⟨fun r' hr' => ?_, fun sha e he hrotated => ?_⟩, hkept⟩
  · obtain ⟨r, hr, hvalue, hsha, -⟩ | hnew := hnew r' hr'
    · rw [hvalue, hsha]
      exact hinv.rows r hr
    · exact hnew
  · obtain ⟨r, hr, hsha, client, hclient, hid, hfingerprint⟩ := hinv.hashes sha e he hrotated
    obtain ⟨r', hr', -, hsha', hid'⟩ := hkept r hr
    exact ⟨r', hr', hsha'.trans hsha, client, hclient, hid.trans hid'.symm, hfingerprint⟩

theorem saveRefreshToken_status {c : TokenCache} {now ttl : Int} {e : RefreshTokenCacheEntry}
    {e' : Entry RefreshTokenHash} (h : (c.saveRefreshToken now e ttl).refresh sha = some e') :
    e'.value.effectiveStatus = .active ∨
    ∃ e₀, c.refresh sha = some e₀ ∧ e₀.value = e'.value := by
  obtain ⟨e₀, he₀, hvalue⟩ := Keyspace.expireCommand_eq_some h
  by_cases hsha : sha = e.tokenSHA256
  · subst hsha
    rw [← hvalue, Keyspace.alter_eq_some he₀]
    exact .inl rfl
  · rw [Keyspace.alter_of_ne hsha] at he₀
    exact .inr ⟨e₀, he₀, hvalue⟩

theorem check_bound (hinv : Bound env clients hashed m.shared) :
    (bound env clients hashed ι).Kept m (m.after i (.checkRefreshReplay sha nowTS fp)
      fun w => { w with tokens := (w.tokens.checkRefreshReplay w.now sha nowTS fp).2 }) := by
  refine kept_of_tokens (g := fun c now => (c.checkRefreshReplay now sha nowTS fp).2) hinv
    fun s e' he' hrotated => ?_
  obtain hsame | ⟨h, -, -, -, -, heq⟩ :=
    m.shared.tokens.checkRefreshReplay_cases m.shared.now sha nowTS fp
  · rw [hsame] at he'
    exact ⟨e', he', rfl⟩
  · rw [heq] at he'
    dsimp only at he'
    by_cases hs : s = sha
    · -- a token that was reused is no longer a rotated one
      subst hs
      rw [Keyspace.alter_eq_some he'] at hrotated
      cases hrotated
    · exact ⟨e', (Keyspace.alter_of_ne hs).symm.trans he', rfl⟩

theorem rotate_bound {revokedAt : Int} {new : RefreshToken}
    (hinv : Bound env clients hashed m.shared) (hvalue : hashed new.tokenValue)
    (hdigest : new.tokenSHA256 = env.sha256Hex new.tokenValue) :
    (bound env clients hashed ι).Kept m (m.after i (.rotateRefreshToken sha revokedAt new)
      fun w => { w with db := (w.db.rotateRefreshToken sha revokedAt new).2 }) := by
  refine kept_of_rows (g := fun db => (db.rotateRefreshToken sha revokedAt new).2) hinv
    (fun r hr => ?_) fun r' hr' => ?_
  · obtain ⟨-, hsame⟩ | ⟨old, -, -, -, heq⟩ :=
      m.shared.db.rotateRefreshToken_cases sha revokedAt new
    · dsimp only
      rw [hsame]
      exact ⟨r, hr, rfl, rfl, rfl⟩
    · dsimp only
      rw [heq]
      refine ⟨_, List.mem_append_left _ (List.mem_map_of_mem hr), ?_⟩
      split <;> exact ⟨rfl, rfl, rfl⟩
  · obtain hold | rfl | ⟨r, hr, _, _, rfl⟩ := Database.mem_rotateRefreshToken hr'
    · exact .inl ⟨r', hold, rfl, rfl, rfl⟩
    · exact .inr ⟨hvalue, hdigest⟩
    · exact .inl ⟨r, hr, rfl, rfl, rfl⟩

theorem rotateCached_bound {new : RefreshTokenCacheEntry} {newTTL graceTTL : Int}
    (hinv : Bound env clients hashed m.shared) (hclient : client ∈ clients)
    (hrow : ∃ r ∈ m.shared.db.refreshTokens, r.tokenSHA256 = sha ∧ client.id = r.clientID)
    (hfp : FingerprintOf env hashed client fp) :
    (bound env clients hashed ι).Kept m (m.after i (.rotateToken sha new response fp newTTL nowTS)
      fun w => { w with tokens := (w.tokens.rotateToken w.now sha new response fp
        (durationSeconds newTTL) (durationSeconds graceTTL) nowTS).2 }) := by
  refine ⟨⟨hinv.rows, fun s e' he' hrotated => ?_⟩, fun r hr => ⟨r, hr, rfl, rfl, rfl⟩⟩
  obtain ⟨-, hsame⟩ | ⟨h, -, -, -, heq⟩ := m.shared.tokens.rotateToken_cases m.shared.now sha new
    response fp (durationSeconds newTTL) (durationSeconds graceTTL) nowTS
  · rw [Moment.after_shared, hsame] at he'
    exact hinv.hashes s e' he' hrotated
  · rw [Moment.after_shared, heq] at he'
    obtain ⟨e, he, hvalue⟩ := Keyspace.expireIn_eq_some he'
    rw [← hvalue] at hrotated ⊢
    by_cases hnew : s = new.tokenSHA256
    · -- the new token is active
      subst hnew
      rw [Keyspace.alter_eq_some he] at hrotated
      cases hrotated
    · rw [Keyspace.alter_of_ne hnew] at he
      by_cases hs : s = sha
      · subst hs
        obtain ⟨r, hr, hsha, hid⟩ := hrow
        rw [Keyspace.alter_eq_some he]
        exact ⟨r, hr, hsha, client, hclient, hid, hfp⟩
      · rw [Keyspace.alter_of_ne hs] at he
        exact hinv.hashes s e he hrotated

theorem Granting.bound (hl : Granting env token l f) (htoken : hashed token)
    (hinv : Bound env clients hashed m.shared) :
    (Token.bound env clients hashed ι).Kept m (m.after i l f) := by
  cases hl with
  | issued hl =>
    cases hl with
    | createAccessToken t _ =>
      obtain ⟨rows, h⟩ := m.shared.db.createAccessToken_frame t
      exact kept_of_same hinv (by dsimp only; rw [h]) rfl
    | saveAccessToken sha e ttl => exact kept_of_same hinv rfl rfl
    | createRefreshToken client user scopes now =>
      refine kept_of_rows (g := fun db =>
        (db.createRefreshToken (firstRow env token client user scopes now)).2) hinv
        (fun r hr => ⟨r, ?_, rfl, rfl, rfl⟩) fun r' hr' => ?_
      · simp only [Database.createRefreshToken]
        split
        · exact hr
        · exact List.mem_append_left _ hr
      · obtain hold | rfl := Database.mem_createRefreshToken hr'
        · exact .inl ⟨r', hold, rfl, rfl, rfl⟩
        · exact .inr ⟨htoken, rfl⟩
    | saveRefreshToken e ttl _ =>
      refine kept_of_tokens (g := fun c now => c.saveRefreshToken now e ttl) hinv
        fun s e' he' hrotated => ?_
      obtain hactive | hold := saveRefreshToken_status he'
      · rw [hactive] at hrotated
        cases hrotated
      · exact hold
  | consumeByCode code consumedAt =>
    refine kept_of_same hinv ?_ rfl
    simp only [Database.consumeByCode]
    repeat' split
    all_goals rfl
  | touchPoll deviceCode polledAt minInterval => exact kept_of_same hinv rfl rfl
  | consumeDevice deviceCode consumedAt => exact kept_of_same hinv rfl rfl
  | verifyPassword userID => exact kept_of_same hinv rfl rfl

/-! ### The exchange -/

def RowOf (clientID : Int) (token sha : String) (m : Moment ι World Label) : Prop :=
  ∃ r ∈ m.shared.db.refreshTokens, r.tokenValue = token ∧ r.tokenSHA256 = sha ∧ r.clientID = clientID

theorem rowOf_lasting (clientID : Int) (token sha : String) :
    (bound env clients hashed ι).Lasting (RowOf clientID token sha) := by
  rintro m m' h ⟨r, hr, hvalue, hsha, hclient⟩
  obtain ⟨r', hr', hvalue', hsha', hclient'⟩ := h.mono r hr
  exact ⟨r', hr', hvalue'.trans hvalue, hsha'.trans hsha, hclient'.trans hclient⟩

variable (env clients hashed) in
def boundSpec (ι : Type) (client : ClientModel) (token : String) : RefreshSpec ι where
  toDiscipline := bound env clients hashed ι
  found _ _ := RowOf client.id token (env.sha256Hex token)
  rotated _ _ _ := RowOf client.id token (env.sha256Hex token)
  answers _ := RowOf client.id token (env.sha256Hex token)

/-- **A retry is one of the client that rotated.** -/
theorem rowOf_of_grace (hdigests : DigestsOn env.sha256Hex hashed)
    (hregistered : Registered cenv clients) (hrefl : ∀ s, cenv.sqlEq s s = true)
    (hinv : Bound env clients hashed m.shared) (hclient : client ∈ clients) (htoken : hashed token)
    (hfp : FingerprintOf env hashed client fp)
    (hgrace : (m.shared.tokens.checkRefreshReplay m.shared.now (env.sha256Hex token) nowTS fp).1 =
      .grace response) : RowOf client.id token (env.sha256Hex token) m := by
  obtain ⟨-, hash, hhash, -, hrotated, hin⟩ := TokenCache.checkRefreshReplay_eq_grace hgrace
  obtain ⟨expireAt, hentry, -⟩ := Keyspace.get_eq_some.mp hhash
  obtain ⟨r, hr, hsha, owner, howner, hid, method, ip, agent, htext, hbound⟩ :=
    hinv.hashes _ _ hentry hrotated
  obtain ⟨method', ip', agent', htext', rfl⟩ := hfp
  -- the fingerprint is not empty, so it is the one of the request
  have hsame : hash.bindFP = buildRefreshReplayFingerprint env client.clientID method' ip' agent' := by
    simp only [RefreshTokenHash.inGrace, Bool.and_eq_true, Bool.or_eq_true, decide_eq_true_eq] at hin
    exact hin.2.resolve_left fun hempty => (hdigests.text _ htext).2 (hbound.symm.trans hempty)
  have heq : fingerprintText owner.clientID method ip agent =
      fingerprintText client.clientID method' ip' agent' :=
    hdigests.injective _ _ htext htext' (hbound.symm.trans hsame)
  have hpattern := hregistered.forall fun _ _ _ h => h.clientID
  have hclientID := clientID_of_fingerprintText (clientIDPattern_separator (hpattern _ howner))
    (clientIDPattern_separator (hpattern _ hclient)) heq
  obtain rfl := hregistered.eq_of_clientID hrefl howner hclient hclientID
  obtain ⟨hvalue, hdigest⟩ := hinv.rows r hr
  exact ⟨r, hr, hdigests.injective _ _ hvalue htoken (hdigest.symm.trans hsha), hsha, hid.symm⟩

theorem boundSpec_lawful (hdigests : DigestsOn env.sha256Hex hashed)
    (hregistered : Registered cenv clients) (hrefl : ∀ s, cenv.sqlEq s s = true)
    {A : Moment ι World Label → ι → Label → Prop} {draws : Draws} {input : ExchangeInput}
    (hclient : client ∈ clients)
    (hfind : env.findByClientID (trimSpace input.clientID) = some client.toClient)
    (hdrawn : hashed draws.refreshToken) (hpresented : hashed input.refreshToken)
    (hfp : FingerprintOf env hashed client (trimSpace input.replayFingerprint)) :
    (boundSpec env clients hashed ι client input.refreshToken).Lawful env A i draws input where
  found_lasting _ _ := rowOf_lasting _ _ _
  rotated_lasting _ _ _ := rowOf_lasting _ _ _
  answers_lasting _ := rowOf_lasting _ _ _
  check hinv _ _ := by
    refine ⟨check_bound hinv, fun response hresponse => ?_⟩
    exact Discipline.Kept.lasting (check_bound hinv) (rowOf_lasting _ _ _)
      (rowOf_of_grace hdigests hregistered hrefl hinv hclient hpresented hfp hresponse)
  row {m client' old} hinv hfound hold howner := by
    obtain rfl := Option.some.inj (hfound.symm.trans hfind)
    obtain ⟨hmem, hsha, -⟩ := Database.findActiveRefreshToken_eq_some hold
    obtain ⟨hvalue, hdigest⟩ := hinv.rows old hmem
    exact ⟨old, hmem, hdigests.injective _ _ hvalue hpresented (hdigest.symm.trans hsha), hsha, howner⟩
  createAccess {m} row hinv _ := by
    obtain ⟨rows, h⟩ := m.shared.db.createAccessToken_frame row
    exact kept_of_same hinv (by dsimp only; rw [h]) rfl
  saveAccess _ _ _ hinv _ := kept_of_same hinv rfl rfl
  plain _ h _ _ := h
  rotate hinv hfound _ _ := by
    refine ⟨rotate_bound hinv hdrawn rfl, fun _ => ?_⟩
    exact Discipline.Kept.lasting (rotate_bound hinv hdrawn rfl) (rowOf_lasting _ _ _) hfound
  rotateCached hinv hrotated _ _ _ _ := by
    obtain ⟨r, hr, -, hsha, hid⟩ := hrotated
    exact rotateCached_bound hinv hclient ⟨r, hr, hsha, hid.symm⟩ hfp
  answer _ h _ := h

end Law

/-! ## The endpoint -/

inductive HashedBy (e : EndpointEnv) (draws : Draws) (r : TokenRequest) : String → Prop
  | presented : HashedBy e draws r r.refreshToken
  | drawn : HashedBy e draws r draws.refreshToken
  | fingerprint (client : ClientModel) (method : ClientAuthMethod)
      (h : e.findClientModel (extractClientID e.decodeString r.authorizationHeader r.clientID) =
        some client) :
      HashedBy e draws r (fingerprintText client.clientID method.text r.clientIP r.userAgent)

def AuthenticatesAs (e : EndpointEnv) (r : TokenRequest) (client : ClientModel) : Prop :=
  e.findClientModel (extractClientID e.decodeString r.authorizationHeader r.clientID) = some client

theorem authenticate_wp [DecidableEq ι] {D : Discipline ι World Label} (e : EndpointEnv)
    (r : TokenRequest) :
    Wp D A i (authenticate e ⟨r.authorizationHeader, r.clientID, r.clientSecret⟩).run
      (Gives fun auth _ => ∃ client, AuthenticatesAs e r client ∧
        auth.clientID = client.clientID) m := by
  refine .require fun _ => ?_
  refine wp_ask (R := fun _ => True) (fun _ _ _ _ h => h) trivial (fun _ _ => gives_error)
    fun m₁ _ _ => ?_
  refine .found fun client hclient => ?_
  refine .require fun _ => .found fun method _ => ?_
  refine .found fun result _ => .require fun _ => ?_
  refine .require fun hid => ?_
  exact .ok ⟨client, hclient, hid⟩

def AnsweredOwn (e : EndpointEnv) (r : TokenRequest) (_ : ExchangeResult)
    (m : Moment ι World Label) : Prop :=
  GrantType.ofText r.grantType = .refreshToken →
    ∃ client, AuthenticatesAs e r client ∧ OwnedBy client.id r.refreshToken m.shared

theorem handle_wp [DecidableEq ι] {e : EndpointEnv} {cenv : ClientEnv} {clients : List ClientModel}
    {hashed : String → Prop} (hregistered : Registered cenv clients)
    (hlookup : ∀ clientID, e.findClientModel clientID = Clients.findClient cenv clients clientID)
    (hrefl : ∀ s, cenv.sqlEq s s = true) (hdigests : DigestsOn e.sha256Hex hashed) {draws : Draws}
    {r : TokenRequest} (hhashed : ∀ s, HashedBy e draws r s → hashed s) :
    Wp (bound e.toEnv clients hashed ι) A i (handle e draws r).run (Gives (AnsweredOwn e r)) m := by
  refine .require fun _ => ?_
  refine wp_bind_except.mpr (wp_adapt.mpr ((authenticate_wp e r).imp fun result m₁ hr => ?_))
  cases result with
  | error err => exact gives_error
  | ok auth =>
    obtain ⟨client, hauth, hid⟩ := hr auth rfl
    refine wp_adapt.mpr ?_
    by_cases hgrant : GrantType.ofText r.grantType = .refreshToken
    · have hclient : client ∈ clients := by
        rw [AuthenticatesAs, hlookup] at hauth
        exact List.mem_of_find?_eq_some hauth
      have hpattern := hregistered.forall fun _ _ _ h => h.clientID
      have hfind : e.findByClientID (trimSpace (r.exchangeInput e.toEnv auth).clientID) =
          some client.toClient := by
        show e.findByClientID (trimSpace auth.clientID) = _
        rw [hid, clientIDPattern_trim (hpattern _ hclient), e.findByClientID_eq, hlookup,
          hregistered.findClient_self hrefl hclient]
        rfl
      have hfp : FingerprintOf e.toEnv hashed client
          (trimSpace (r.exchangeInput e.toEnv auth).replayFingerprint) := by
        have htext := hhashed _ (.fingerprint client auth.method hauth)
        refine ⟨_, _, _, htext, ?_⟩
        show trimSpace (buildRefreshReplayFingerprint _ auth.clientID _ _ _) = _
        rw [hid]
        exact (hdigests.text _ htext).1
      have hexchange : exchange e.toEnv draws (r.exchangeInput e.toEnv auth) =
          exchangeRefreshToken e.toEnv draws (r.exchangeInput e.toEnv auth) := by
        unfold exchange
        rw [show (r.exchangeInput e.toEnv auth).grantType = .refreshToken from hgrant]
      rw [hexchange]
      refine (RefreshSpec.exchangeRefreshToken_wp (boundSpec_lawful hdigests hregistered hrefl
        hclient hfind (hhashed _ .drawn) (hhashed _ .presented) hfp)).imp fun result m₂ hr => ?_
      cases result with
      | error err => exact gives_error
      | ok answer =>
        rintro _ ⟨⟩ -
        obtain ⟨row, hrow, hvalue, -, howner⟩ := hr answer rfl
        exact ⟨client, hauth, row, hrow, hvalue, howner⟩
    · have hacts := @exchange_granting (r.exchangeInput e.toEnv auth) e.toEnv draws hgrant
      refine (wp_last hacts (fun m l f hl hinv _ => hl.bound (hhashed _ .drawn) hinv)
        (P := fun _ => True) (fun _ _ _ h => h) trivial).imp fun _ _ _ _ _ hrefresh => ?_
      exact absurd hrefresh hgrant

/-- **A refresh exchange that succeeds, by rotation or from the cache, was for a token of the client
it authenticated as.** -/
theorem refreshed_own [DecidableEq ι] (e : EndpointEnv) (cenv : ClientEnv)
    (clients : List ClientModel) (hregistered : Registered cenv clients)
    (hlookup : ∀ clientID, e.findClientModel clientID = Clients.findClient cenv clients clientID)
    (hrefl : ∀ s, cenv.sqlEq s s = true) (requests : ι → Draws × TokenRequest)
    {hashed : String → Prop} (hdigests : DigestsOn e.sha256Hex hashed)
    (hhashed : ∀ i s, HashedBy e (requests i).1 (requests i).2 s → hashed s) {w : World}
    (hstart : Bound e.toEnv clients hashed w)
    {c : Config ι World Label (Except EndpointError ExchangeResult)}
    (hrun : Reach NoIssuing Unrestricted
      (Config.start w fun i => (handle e (requests i).1 (requests i).2).run) c)
    {i : ι} {result : ExchangeResult} (hresult : c.procs i = .ret (.ok result))
    (hgrant : GrantType.ofText (requests i).2.grantType = .refreshToken) :
    ∃ client, AuthenticatesAs e (requests i).2 client ∧
      OwnedBy client.id (requests i).2.refreshToken c.shared := by
  have hsafe : c.Safe (bound e.toEnv clients hashed ι) Unrestricted
      fun i => Gives (AnsweredOwn e (requests i).2) := by
    refine sound bound_admits (fun i a m m' hr _ h => ?_) ?_ hrun
    · intro result ha hgrant
      obtain ⟨client, hauth, howned⟩ := h result ha hgrant
      exact ⟨client, hauth, hr.mono.ownedBy howned⟩
    · exact ⟨hstart, fun i => handle_wp hregistered hlookup hrefl hdigests (hhashed i)⟩
  exact hsafe.returned hresult result rfl hgrant

/-! ## A retry -/

def phone : CreateClientInput where
  clientID := "phone"
  clientName := "Phone"
  clientType := "public"
  grantTypes := ["authorization_code", "refresh_token"]
  scopes := ["email"]
  redirectURIs := ["https://phone/done"]

def phoneModel : ClientModel where
  id := 1
  clientID := "phone"
  clientName := "Phone"
  clientSecretHash := ""
  requirePKCE := true
  requireConsent := true
  accessTokenTTLSeconds := 3600
  refreshTokenTTLSeconds := 2592000
  idTokenTTLSeconds := 3600
  status := "active"
  redirectURIs := ["https://phone/done"]
  grantTypes := ["authorization_code", "refresh_token"]
  scopes := ["email"]
  clientType := "public"
  tokenEndpointAuthMethod := "none"
  authMethods := ["none"]
  postLogoutRedirectURIs := []

theorem phone_registered : Registered .plain [phoneModel] := by
  have hcreate : createClient .plain [] phone = .ok (phoneModel, [phoneModel]) := by decide +kernel
  exact .create .none hcreate

def phoneEndpoint : EndpointEnv where
  toEnv := { Env.plain [] with
    findByClientID := fun clientID =>
      (Clients.findClient .plain [phoneModel] clientID).map (·.toClient) }
  findClientModel := Clients.findClient .plain [phoneModel]
  decodeString _ := none
  findByClientID_eq _ := rfl

def phoneRetry : TokenRequest where
  grantType := "refresh_token"
  clientID := "phone"
  refreshToken := "r0"
  clientIP := "ip"
  userAgent := "app"

def phoneDraws : Draws := ⟨"a2", "", "r2"⟩

def phoneWorld : World :=
  { World.empty 0 with
    db := { Database.empty with
      refreshTokens :=
        [⟨1, "r0", "r0", 1, some 7, "sub-7", "[]", 0, 86400 * second, some 0, some 2⟩,
          ⟨2, "r1", "r1", 1, some 7, "sub-7", "[]", 0, 86400 * second, none, none⟩] }
    tokens := { TokenCache.empty with
      refresh := Keyspace.empty.put "r0" { clientID := "phone", status := some .rotated,
                                           graceUntil := 10, bindFP := "phone|none|ip|app" } none
      grace := Keyspace.empty.put "r0" ⟨"a1", "Bearer", 3600, "r1", "", ""⟩ none } }

def phoneTexts : List String :=
  ["r0", "r1", "r2", "phone|client_secret_basic|ip|app", "phone|client_secret_post|ip|app",
    "phone|none|ip|app"]

theorem phone_hashed (s : String) (h : HashedBy phoneEndpoint phoneDraws phoneRetry s) :
    s ∈ phoneTexts := by
  cases h with
  | presented => decide
  | drawn => decide
  | fingerprint client method h =>
    have hfind : Clients.findClient .plain [phoneModel] (extractClientID phoneEndpoint.decodeString
      phoneRetry.authorizationHeader phoneRetry.clientID) = some client := h
    rw [List.mem_singleton.mp (List.mem_of_find?_eq_some hfind)]
    cases method <;> decide

theorem phone_bound : Bound phoneEndpoint.toEnv [phoneModel] (· ∈ phoneTexts) phoneWorld := by
  constructor
  · decide +kernel
  · intro sha e he _
    obtain hvalue | hnone := Keyspace.put_eq_some he
    · rw [hvalue]
      by_cases hsha : sha = "r0"
      · subst hsha
        exact ⟨_, List.mem_cons_self, rfl, phoneModel, List.mem_cons_self, rfl, "none", "ip", "app",
          by decide, by decide +kernel⟩
      · have hnone := (Keyspace.put_of_ne hsha).symm.trans he
        cases hnone
    · cases hnone

theorem refreshed_own_retry :
    ∃ c, Reach NoIssuing Unrestricted (Config.start phoneWorld fun _ : Unit =>
        (handle phoneEndpoint phoneDraws phoneRetry).run) c ∧
      c.procs () = .ret (.ok ⟨"a1", "Bearer", 3600, "r1", "", ""⟩) ∧
      ∃ client, AuthenticatesAs phoneEndpoint phoneRetry client ∧ OwnedBy client.id "r0" c.shared := by
  obtain ⟨c, hrun, hretry⟩ := exists_played (E := NoIssuing) (A := Unrestricted)
    (c := Config.start phoneWorld fun _ : Unit => (handle phoneEndpoint phoneDraws phoneRetry).run)
    (P := fun c => c.procs () = .ret (.ok ⟨"a1", "Bearer", 3600, "r1", "", ""⟩))
    [.run (), .run ()] (by simp [Move.Allowed]) (by decide +kernel)
  have hdigests : DigestsOn phoneEndpoint.sha256Hex (· ∈ phoneTexts) :=
    ⟨fun _ _ _ _ h => h, by decide +kernel⟩
  refine ⟨c, hrun, hretry, ?_⟩
  exact refreshed_own phoneEndpoint .plain [phoneModel] phone_registered (fun _ => rfl)
    (fun s => decide_eq_true rfl) (fun _ => (phoneDraws, phoneRetry)) hdigests
    (fun _ => phone_hashed) phone_bound hrun hretry (by decide +kernel)

end IdpServer.Laws.Token
