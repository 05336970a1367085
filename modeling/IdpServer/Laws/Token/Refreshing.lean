import IdpServer.Conc.Lasting
import IdpServer.Laws.Token.Issuing

/-!
# Laws.Token.Refreshing — the refresh grant, command by command

A `RefreshSpec` names what the grant knows after it found the row and after it rotated it, and what is to be
shown of an answer. `exchangeRefreshToken_wp` is the grant under its laws.
-/

namespace IdpServer.Laws.Token

open Conc IdpServer.Cache IdpServer.Token Go

variable {ι : Type}

structure RefreshSpec (ι : Type) extends Discipline ι World Label where
  /-- This row was found for the presented token, and belongs to this client. -/
  found : Client → RefreshToken → Moment ι World Label → Prop
  /-- The row was replaced by the new one, of this instant. -/
  rotated : Client → RefreshToken → Int → Moment ι World Label → Prop
  /-- This may be answered. -/
  answers : ExchangeResult → Moment ι World Label → Prop

namespace RefreshSpec

variable (S : RefreshSpec ι)

abbrev newRow (env : Env) (draws : Draws) (client : Client) (old : RefreshToken) (now : Int) :
    RefreshToken :=
  refreshModel env client draws.refreshToken old.userID old.subject
    (mustDecodeScopeJSON old.scopesJSON) now

def Clocked (nowTS : Int) : Moment ι World Label → Prop :=
  S.Past fun m => nowTS = unix m.shared.now

structure Lawful (env : Env) (A : Moment ι World Label → ι → Label → Prop) (i : ι) (draws : Draws)
    (input : ExchangeInput) : Prop where
  found_lasting : ∀ client old, S.Lasting (S.found client old)
  rotated_lasting : ∀ client old now, S.Lasting (S.rotated client old now)
  answers_lasting : ∀ result, S.Lasting (S.answers result)
  /-- The replay check, and what it answers from the cache. -/
  check : ∀ {m nowTS}, S.inv m → S.Clocked nowTS m →
    let sha := env.sha256Hex input.refreshToken
    let fp := trimSpace input.replayFingerprint
    A m i (.checkRefreshReplay sha nowTS fp) →
    let m' := m.after i (.checkRefreshReplay sha nowTS fp)
      fun w => { w with tokens := (w.tokens.checkRefreshReplay w.now sha nowTS fp).2 }
    S.Kept m m' ∧ ∀ response,
      (m.shared.tokens.checkRefreshReplay m.shared.now sha nowTS fp).1 = .grace response →
      S.answers (replayedResult response) m'
  row : ∀ {m client old}, S.inv m → env.findByClientID (trimSpace input.clientID) = some client →
    m.shared.db.findActiveRefreshToken m.shared.now (env.sha256Hex input.refreshToken) = some old →
    old.clientID = client.id → S.found client old m
  createAccess : ∀ {m} (row : AccessToken), S.inv m → A m i (.createAccessToken row) →
    S.Kept m (m.after i (.createAccessToken row)
      fun w => { w with db := (w.db.createAccessToken row).2 })
  saveAccess : ∀ {m} (sha : String) (e : AccessTokenHash) (ttl : Int), S.inv m →
    A m i (.saveAccessToken sha e ttl) →
    S.Kept m (m.after i (.saveAccessToken sha e ttl)
      fun w => { w with tokens := w.tokens.saveAccessToken w.now sha e ttl })
  /-- A client that gets no new refresh token. -/
  plain : ∀ {m client old} (result : ExchangeResult), S.found client old m →
    client.refreshTokenTTLSeconds ≤ 0 → result.refreshToken = "" → S.answers result m
  rotate : ∀ {m client old now}, S.inv m → S.found client old m →
    env.findByClientID (trimSpace input.clientID) = some client →
    let sha := env.sha256Hex input.refreshToken
    let new := newRow env draws client old now
    let row := { new with scopesJSON := env.jsonColumn new.scopesJSON }
    A m i (.rotateRefreshToken sha now row) →
    let m' := m.after i (.rotateRefreshToken sha now row)
      fun w => { w with db := (w.db.rotateRefreshToken sha now row).2 }
    S.Kept m m' ∧ ((m.shared.db.rotateRefreshToken sha now row).1 = .rotated →
      S.rotated client old now m')
  rotateCached : ∀ {m client old now response newTTL nowTS}, S.inv m → S.rotated client old now m →
    env.findByClientID (trimSpace input.clientID) = some client →
    response.refreshToken = draws.refreshToken → S.Clocked nowTS m →
    let sha := env.sha256Hex input.refreshToken
    let fp := trimSpace input.replayFingerprint
    let new := refreshEntry client (newRow env draws client old now) sha
    A m i (.rotateToken sha new response fp newTTL nowTS) →
    S.Kept m (m.after i (.rotateToken sha new response fp newTTL nowTS) fun w =>
      { w with tokens := (w.tokens.rotateToken w.now sha new response fp (durationSeconds newTTL)
          (durationSeconds refreshTokenGracePeriod) nowTS).2 })
  answer : ∀ {m client old now} (result : ExchangeResult), S.rotated client old now m →
    result.refreshToken = draws.refreshToken → S.answers result m

variable {S} {env : Env} {A : Moment ι World Label → ι → Label → Prop} {i : ι} {draws : Draws}
variable {input : ExchangeInput} [DecidableEq ι] {m : Moment ι World Label}

abbrev Answers (S : RefreshSpec ι) : Except TokenError ExchangeResult → Moment ι World Label → Prop :=
  Gives S.answers

theorem checkReplay_wp (laws : S.Lawful env A i draws input) :
    Wp S.toDiscipline A i (checkReplay (env.sha256Hex input.refreshToken)
      (trimSpace input.replayFingerprint)).run
      (Gives fun r m' => ∀ result, r = some result → S.answers result m') m := by
  refine wp_bind_except.mpr (wp_call gives_error ?_)
  intro m₁ _ hinv₁ m₂ hr₂ hinv₂ ha
  have hclock : S.Clocked (unix m₁.shared.now) m₂ := ⟨m₁, hinv₁, rfl, hr₂.mono, hr₂.suffix⟩
  obtain ⟨hkept, hgrace⟩ := laws.check hinv₂ hclock ha
  refine ⟨hkept.1, hkept.2, ?_, gives_error⟩
  dsimp only
  split
  next response hresponse =>
    rintro _ ⟨⟩ result ⟨⟩
    exact hgrace response hresponse
  next => rintro _ ⟨⟩
  next =>
    rintro _ ⟨⟩ result h
    cases h

theorem tryRefreshTokenGraceReplay_wp (laws : S.Lawful env A i draws input) (err : TokenError) :
    Wp S.toDiscipline A i (tryRefreshTokenGraceReplay (env.sha256Hex input.refreshToken)
      (trimSpace input.replayFingerprint) err).run S.Answers m := by
  refine .caught (checkReplay_wp laws) fun r m₁ hr => ?_
  split
  next result =>
    exact .ok (hr _ rfl result rfl)
  next => exact gives_error

variable {client : Client} {now : Int}

theorem issueAccessToken_wp (laws : S.Lawful env A i draws input) {sub subject jti : String}
    {userID : Option Int} {scopes : List String} {P : Moment ι World Label → Prop}
    (hP : S.Lasting P) (hm : P m) :
    Wp S.toDiscipline A i (issueAccessToken env client sub userID subject scopes now jti).run
      (Gives fun result m' => P m' ∧ result.refreshToken = "") m := by
  refine .found fun token _ => ?_
  refine .send (hP.stable i) hm fun m₁ hinv₁ hm₁ ha => ?_
  have hkept := laws.createAccess _ hinv₁ ha
  refine ⟨hkept.1, hkept.2, .require fun _ => ?_⟩
  have hm₂ := hkept.lasting hP hm₁
  refine wp_bind_except.mpr (wp_attempt ?_ ?_)
  · refine wp_clock (hP.stable i) hm₂ fun m₃ _ hm₃ => ?_
    exact .ok ⟨hm₃, rfl⟩
  · intro m₃ hr₃ hinv₃ m₄ hr₄ hinv₄ ha₄
    have hm₄ := hP.stable i _ _ (hr₃.trans hr₄) hinv₄ hm₂
    have hkept := laws.saveAccess _ _ _ hinv₄ ha₄
    refine ⟨hkept.1, hkept.2, wp_clock (hP.stable i) (hkept.lasting hP hm₄) fun m₅ _ hm₅ => ?_⟩
    exact .ok ⟨hm₅, rfl⟩

theorem rotate_wp (laws : S.Lawful env A i draws input) {old : RefreshToken}
    {result : ExchangeResult}
    (hclient : env.findByClientID (trimSpace input.clientID) = some client)
    (hm : S.found client old m) :
    Wp S.toDiscipline A i (rotate env client (env.sha256Hex input.refreshToken)
      (trimSpace input.replayFingerprint) old (mustDecodeScopeJSON old.scopesJSON) now result
      draws.refreshToken).run S.Answers m := by
  refine wp_bind_except.mpr (wp_lift.mpr (wp_call ?_ ?_))
  · exact tryRefreshTokenGraceReplay_wp laws _
  intro m₁ hr₁ hinv₁ ha₁
  have hm₁ := (laws.found_lasting client old).stable i _ _ hr₁ hinv₁ hm
  obtain ⟨hkept, hrotated⟩ := laws.rotate hinv₁ hm₁ hclient ha₁
  refine ⟨hkept.1, hkept.2, ?_, tryRefreshTokenGraceReplay_wp laws _⟩
  dsimp only
  split
  next houtcome =>
    have hm₂ := hrotated (Except.ok.inj houtcome)
    have hlasting := laws.rotated_lasting client old now
    refine wp_bind_except.mpr (wp_attempt ?_ ?_)
    · exact .ok (laws.answer _ hm₂ rfl)
    · intro m₃ hr₃ hinv₃ m₄ hr₄ hinv₄ m₅ hr₅ hinv₅ ha₅
      have hm₅ := hlasting.stable i _ _ (hr₃.trans (hr₄.trans hr₅)) hinv₅ hm₂
      have hclock : S.Clocked (unix m₄.shared.now) m₅ := ⟨m₄, hinv₄, rfl, hr₅.mono, hr₅.suffix⟩
      have hkept := laws.rotateCached hinv₅ hm₅ hclient rfl hclock ha₅
      refine hkept.done hlasting hm₅ fun m₆ hm₆ => ?_
      exact Gives.ok (laws.answer _ hm₆ rfl)
  next => exact tryRefreshTokenGraceReplay_wp laws _
  next => exact tryRefreshTokenGraceReplay_wp laws _
  next => exact tryRefreshTokenGraceReplay_wp laws _

/-- **The refresh grant under the laws of a specification**: what it answers may be answered. -/
theorem exchangeRefreshToken_wp (laws : S.Lawful env A i draws input) :
    Wp S.toDiscipline A i (exchangeRefreshToken env draws input).run S.Answers m := by
  refine .bind (findClient_gives _ _ _) fun client m₁ hclient => ?_
  refine .skip (validateClientSecret_silent _ _ _) fun _ m₂ => ?_
  refine wp_bind_except.mpr ((checkReplay_wp laws).imp fun r m₃ hr => ?_)
  match r with
  | .error e => exact gives_error
  | .ok (some result) =>
    exact .ok (hr _ rfl result rfl)
  | .ok none =>
    refine .read fun m₄ hinv₄ => ?_
    refine .found fun old hold => .require fun howner => ?_
    have hm₄ := laws.row hinv₄ hclient hold howner
    have hlasting := laws.found_lasting client old
    refine .ask (hlasting.stable i) hm₄ fun m₅ hinv₅ hm₅ => ?_
    refine .found fun user _ => ?_
    refine wp_clock (hlasting.stable i) hm₅ fun m₆ _ hm₆ => ?_
    refine wp_bind_except.mpr ((issueAccessToken_wp laws hlasting hm₆).imp fun r m₇ hr => ?_)
    cases r with
    | error e => exact gives_error
    | ok result =>
      obtain ⟨hm₇, hresult⟩ := hr result rfl
      dsimp only
      split
      next httl =>
        exact .ok (laws.plain result hm₇ httl hresult)
      next => exact rotate_wp laws hclient hm₇

end RefreshSpec

end IdpServer.Laws.Token
