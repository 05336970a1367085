import IdpServer.Laws.Authz.Authorizing
import IdpServer.Laws.Token.Bearing

/-!
# Laws.Authz.Codes — the authorization code grant, end to end

One service stores a code and another redeems it, with nothing between them but the row. `codes_redeemed`
joins what the two check.
-/

namespace IdpServer.Laws.Authz

open Conc IdpServer.Cache Go IdpServer.Authz IdpServer.Token
open Laws.Token

/-! ## Requests -/

inductive CodeCall where
  | authorize (code : String) (cmd : AuthorizationCommand)
  | redeem (draws : Draws) (input : ExchangeInput)

def CodeCall.code (env : Env) : CodeCall → Action (Option ExchangeResult)
  | .authorize code cmd => do
    let _ ← (Authz.authorize env code cmd).run
    return none
  | .redeem draws input => do return (← (exchangeAuthorizationCode env draws input).run).toOption

section Codes

variable {ι : Type}

def StoredCode (env : Env) (y : Event ι World Label) (row : AuthorizationCode) : Prop :=
  y.label = .createAuthorizationCode row ∧
    (y.before.db.createAuthorizationCode env.sqlEq row).1 = true

def codeOf : Label → Option AuthorizationCode
  | .createAuthorizationCode row => some row
  | _ => none

def redeemedRow (env : Env) (x : Event ι World Label) : Option AuthorizationCode :=
  match x.label with
  | .consumeByCode code consumedAt => (x.before.db.consumeByCode env.sqlEq code consumedAt).1
  | _ => none

/-- The verifier matches the challenge that was stored, under the method that was stored. -/
def VerifierMatches (env : Env) (row : AuthorizationCode) (verifier : String) : Prop :=
  verifier ≠ "" ∧ (row.codeChallengeMethod = "plain" ∧ row.codeChallenge = verifier ∨
    row.codeChallengeMethod = "S256" ∧ row.codeChallenge = env.sha256Base64URL verifier)

/-- **The event is the redemption of the row by a request**: before the expiry, as the clock was read, by
the client, with the redirect URI and the verifier. -/
structure RedeemedBy (env : Env) (table : String → Option Client) (input : ExchangeInput)
    (row : AuthorizationCode) (x : Event ι World Label) : Prop where
  consumed : ∃ t found, x.label = .consumeByCode input.code t ∧ redeemedRow env x = some found ∧
    found.code = row.code ∧ t ≤ x.before.now ∧ t < dateTime row.expiresAt
  client : ∃ client, table (trimSpace input.clientID) = some client ∧ client.id = row.clientDBID ∧
    (row.codeChallenge ≠ "" ∨ client.requirePKCE = true → VerifierMatches env row input.codeVerifier)
  redirect : input.redirectURI = row.redirectURI

/-- The row is that of an authorized request, which asked for these scopes. -/
def IssuedProperly (env : Env) (clients : ι → String → Option Client) (calls : ι → CodeCall)
    (V : World → Prop) (i : ι) (row : AuthorizationCode) (scopes : List String) : Prop :=
  ∃ code cmd client session now, calls i = .authorize code cmd ∧
    row = codeRow (withClients env (clients i)) code cmd client session now ∧
    Authorized (withClients env (clients i)) V cmd client session ∧
    scopes = Authz.requestedScopes cmd.scope

/-- **The request has earned tokens with these scopes**: it has redeemed a code that was properly issued. -/
def Earned (env : Env) (clients : ι → String → Option Client) (calls : ι → CodeCall)
    (V : World → Prop) (i : ι) (scopes : List String) (trace : List (Event ι World Label)) : Prop :=
  ∃ draws input, calls i = .redeem draws input ∧ ∃ y ∈ trace, ∃ row, StoredCode env y row ∧
    IssuedProperly env clients calls V y.pid row scopes ∧
    ∃ x ∈ trace, x.pid = i ∧ RedeemedBy env (clients i) input row x

variable {env : Env} {clients : ι → String → Option Client} {calls : ι → CodeCall} {V : World → Prop}

variable {scopes : List String} {row : AuthorizationCode} {code : String} {draws : Draws}
variable {input : ExchangeInput}

theorem Earned.mono {i : ι} {trace trace' : List (Event ι World Label)}
    (h : Earned env clients calls V i scopes trace) (hsub : trace ⊆ trace') :
    Earned env clients calls V i scopes trace' := by
  obtain ⟨draws, input, hcall, y, hy, row, hstored, hissued, x, hx, hi, hredeemed⟩ := h
  exact ⟨draws, input, hcall, y, hsub hy, row, hstored, hissued, x, hsub hx, hi, hredeemed⟩

/-! ## What every moment of a run satisfies -/

def KeptAs (row r : AuthorizationCode) : Prop :=
  r = { row with id := r.id, expiresAt := dateTime row.expiresAt, consumedAt := r.consumedAt }

structure Ledger (env : Env) (clients : ι → String → Option Client) (calls : ι → CodeCall)
    (V : World → Prop) (m : Moment ι World Label) : Prop where
  issued : ∀ y ∈ m.trace, ∀ row, codeOf y.label = some row →
    ∃ scopes, IssuedProperly env clients calls V y.pid row scopes
  rows : ∀ r ∈ m.shared.db.authCodes, ∃ y ∈ m.trace, ∃ row, StoredCode env y row ∧ KeptAs row r
  distinct : (m.shared.db.authCodes.map (·.code)).Nodup
  spent : ∀ x ∈ m.trace, ∀ found, redeemedRow env x = some found →
    ∃ r ∈ m.shared.db.authCodes, r.code = found.code ∧ r.consumedAt ≠ none
  single : ∀ x ∈ m.trace, ∀ x' ∈ m.trace, ∀ found found', redeemedRow env x = some found →
    redeemedRow env x' = some found' → found.code = found'.code → x.pid = x'.pid
  tokens : ∀ x ∈ m.trace, stores x.label = true → ∃ draws input scopes,
    calls x.pid = .redeem draws input ∧ Earned env clients calls V x.pid scopes m.trace ∧
    Bears env scopes draws.refreshToken x.label
  view : V m.shared

/-- Whatever else goes on leaves the codes alone, and leads to states that `V` holds of. -/
structure SparesCodes (V : World → Prop) (w w' : World) : Prop where
  codes : w'.db.authCodes = w.db.authCodes
  now : w.now ≤ w'.now
  view : V w'

def ledger (env : Env) (clients : ι → String → Option Client) (calls : ι → CodeCall)
    (V : World → Prop) : Discipline ι World Label where
  inv := Ledger env clients calls V
  mono m m' := m.shared.now ≤ m'.shared.now
  mono_refl := Moment.clock_refl World.now
  mono_trans := @Moment.clock_trans ι World Label World.now

theorem ledger_admits : (ledger env clients calls V).Admits (SparesCodes V) := by
  intro m w hinv hspares
  refine ⟨⟨hinv.issued, ?_, ?_, ?_, hinv.single, hinv.tokens, hspares.view⟩, hspares.now⟩
  · rw [hspares.codes]
    exact hinv.rows
  · rw [hspares.codes]
    exact hinv.distinct
  · rw [hspares.codes]
    exact hinv.spent

/-- The property says nothing but of the clock, the sessions and the consents. -/
def OfStanding (V : World → Prop) : Prop :=
  ∀ w w', w'.now = w.now → w'.sessions = w.sessions → w'.db.sessions = w.db.sessions →
    w'.db.consents = w.db.consents → V w → V w'

theorem OfStanding.withDB {w : World} {db : Database} (hV : OfStanding V) (hw : V w)
    (hsessions : db.sessions = w.db.sessions) (hconsents : db.consents = w.db.consents) :
    V { w with db := db } :=
  hV w _ rfl rfl hsessions hconsents hw

variable {m : Moment ι World Label} {i : ι} {l : Label} {f : World → World}

theorem issues_none {P : AuthorizationCode → Prop} (h : codeOf l = none) : ∀ row, codeOf l = some row → P row :=
  fun _ hrow => nomatch h.symm.trans hrow

theorem stores_none {P : Prop} (h : stores l = false) : stores l = true → P :=
  fun hstores => nomatch h.symm.trans hstores

/-- **One command.** What is new in the trace and in the table has to be accounted for, and what was marked
has to stay so. -/
theorem Ledger.after (h : Ledger env clients calls V m) (hissued : ∀ row, codeOf l = some row →
      ∃ scopes, IssuedProperly env clients calls V i row scopes)
    (hrows : ∀ r ∈ (f m.shared).db.authCodes,
      (∃ r₀ ∈ m.shared.db.authCodes, r = { r₀ with consumedAt := r.consumedAt }) ∨
      ∃ row, StoredCode env (⟨i, l, m.shared⟩ : Event ι World Label) row ∧ KeptAs row r)
    (hdistinct : ((f m.shared).db.authCodes.map (·.code)).Nodup)
    (hmarked : ∀ r₀ ∈ m.shared.db.authCodes, r₀.consumedAt ≠ none →
      ∃ r ∈ (f m.shared).db.authCodes, r.code = r₀.code ∧ r.consumedAt ≠ none)
    (hredeemed : ∀ found, redeemedRow env (⟨i, l, m.shared⟩ : Event ι World Label) = some found →
      (∃ r ∈ (f m.shared).db.authCodes, r.code = found.code ∧ r.consumedAt ≠ none) ∧
      ∀ r₀ ∈ m.shared.db.authCodes, r₀.code = found.code → r₀.consumedAt = none)
    (htokens : stores l = true → ∃ draws input scopes, calls i = .redeem draws input ∧
      Earned env clients calls V i scopes m.trace ∧ Bears env scopes draws.refreshToken l)
    (hview : V (f m.shared)) : Ledger env clients calls V (m.after i l f) where
  issued y hy row hlabel := by
    rcases List.mem_cons.mp hy with rfl | hy
    · exact hissued row hlabel
    · exact h.issued y hy row hlabel
  rows r hr := by
    rcases hrows r hr with ⟨r₀, hr₀, hsame⟩ | ⟨row, hstored, hkept⟩
    · obtain ⟨y, hy, row, hstored, hkept⟩ := h.rows r₀ hr₀
      refine ⟨y, List.mem_cons_of_mem _ hy, row, hstored, ?_⟩
      rw [KeptAs] at hkept ⊢
      rw [hsame, hkept]
    · exact ⟨_, List.mem_cons_self, row, hstored, hkept⟩
  distinct := hdistinct
  spent x hx found hfound := by
    rcases List.mem_cons.mp hx with rfl | hx
    · exact (hredeemed found hfound).1
    · obtain ⟨r₀, hr₀, hcode, hmark⟩ := h.spent x hx found hfound
      obtain ⟨r, hr, hsame, hmark⟩ := hmarked r₀ hr₀ hmark
      exact ⟨r, hr, hsame.trans hcode, hmark⟩
  single x hx x' hx' found found' hfound hfound' hcode := by
    -- a row that was redeemed before is marked, and cannot be redeemed now
    have hold : ∀ x ∈ m.trace, ∀ found found', redeemedRow env x = some found →
        redeemedRow env (⟨i, l, m.shared⟩ : Event ι World Label) = some found' →
        found.code ≠ found'.code := by
      intro x hx found found' hfound hfound' hcode
      obtain ⟨r, hr, hsame, hmark⟩ := h.spent x hx found hfound
      exact hmark ((hredeemed found' hfound').2 r hr (hsame.trans hcode))
    rcases List.mem_cons.mp hx with rfl | hx <;> rcases List.mem_cons.mp hx' with rfl | hx'
    · rfl
    · exact absurd hcode.symm (hold x' hx' found' found hfound' hfound)
    · exact absurd hcode (hold x hx found found' hfound hfound')
    · exact h.single x hx x' hx' found found' hfound hfound' hcode
  tokens x hx hstores := by
    have hsub : m.trace ⊆ (m.after i l f).trace := List.subset_cons_self _ _
    rcases List.mem_cons.mp hx with rfl | hx
    · obtain ⟨draws, input, scopes, hcall, hearned, hbears⟩ := htokens hstores
      exact ⟨draws, input, scopes, hcall, hearned.mono hsub, hbears⟩
    · obtain ⟨draws, input, scopes, hcall, hearned, hbears⟩ := h.tokens x hx hstores
      exact ⟨draws, input, scopes, hcall, hearned.mono hsub, hbears⟩
  view := hview

theorem Ledger.aside (h : Ledger env clients calls V m)
    (hcodes : (f m.shared).db.authCodes = m.shared.db.authCodes)
    (hissued : ∀ row, codeOf l = some row →
      ∃ scopes, IssuedProperly env clients calls V i row scopes)
    (hredeemed : redeemedRow env (⟨i, l, m.shared⟩ : Event ι World Label) = none)
    (htokens : stores l = true → ∃ draws input scopes, calls i = .redeem draws input ∧
      Earned env clients calls V i scopes m.trace ∧ Bears env scopes draws.refreshToken l)
    (hview : V (f m.shared)) : Ledger env clients calls V (m.after i l f) := by
  refine h.after hissued ?_ ?_ ?_ ?_ htokens hview
  · rw [hcodes]
    exact fun r hr => .inl ⟨r, hr, rfl⟩
  · rw [hcodes]
    exact h.distinct
  · rw [hcodes]
    exact fun r hr hmark => ⟨r, hr, rfl, hmark⟩
  · intro found hfound
    exact nomatch hredeemed.symm.trans hfound

theorem Ledger.create (hrefl : ∀ text, env.sqlEq text text = true) (hV : OfStanding V)
    (h : Ledger env clients calls V m) (hissued : IssuedProperly env clients calls V i row scopes) :
    Ledger env clients calls V (m.after i (.createAuthorizationCode row) fun w =>
      { w with db := (w.db.createAuthorizationCode env.sqlEq row).2 }) := by
  have hnew : ∀ row', codeOf (.createAuthorizationCode row) = some row' →
      ∃ scopes, IssuedProperly env clients calls V i row' scopes := by
    intro row' hrow'
    obtain rfl := Option.some.inj hrow'
    exact ⟨scopes, hissued⟩
  obtain hsame | ⟨hfree, hstored⟩ := m.shared.db.createAuthorizationCode_cases env.sqlEq row
  · refine h.aside ?_ hnew rfl (stores_none rfl) (hV.withDB h.view ?_ ?_) <;>
      rw [hsame]
  · have hcodes : (m.shared.db.createAuthorizationCode env.sqlEq row).2.authCodes =
        m.shared.db.authCodes ++ [m.shared.db.codeStored row] := by rw [hstored]
    refine h.after hnew ?_ ?_ ?_ (fun _ h => nomatch h) (stores_none rfl)
      (hV.withDB h.view (by rw [hstored]) (by rw [hstored])) <;> dsimp only
    · rw [hcodes]
      intro r hr
      rcases List.mem_append.mp hr with hr | hr
      · exact .inl ⟨r, hr, rfl⟩
      · rw [List.mem_singleton.mp hr]
        exact .inr ⟨row, ⟨rfl, by rw [hstored]⟩, rfl⟩
    · rw [hcodes, List.map_append, List.map_singleton]
      refine h.distinct.append (List.nodup_singleton _) (List.disjoint_singleton.mpr fun hmem => ?_)
      obtain ⟨r, hr, heq⟩ := List.mem_map.mp hmem
      have heq : r.code = row.code := heq
      have hne := hfree r hr
      rw [heq, hrefl] at hne
      cases hne
    · rw [hcodes]
      exact fun r hr hmark => ⟨r, List.mem_append_left _ hr, rfl, hmark⟩

theorem Ledger.consume (hV : OfStanding V) (h : Ledger env clients calls V m) {consumedAt : Int} :
    Ledger env clients calls V (m.after i (.consumeByCode code consumedAt) fun w =>
      { w with db := (w.db.consumeByCode env.sqlEq code consumedAt).2 }) := by
  obtain hnone | ⟨row, hrow, ⟨-, hfresh, -⟩, hsome⟩ :=
    m.shared.db.consumeByCode_cases env.sqlEq code consumedAt
  · have hredeemed : redeemedRow env
        (⟨i, .consumeByCode code consumedAt, m.shared⟩ : Event ι World Label) = none := by
      show (m.shared.db.consumeByCode env.sqlEq code consumedAt).1 = none
      rw [hnone]
    refine h.aside ?_ (issues_none rfl) hredeemed (stores_none rfl) (hV.withDB h.view ?_ ?_) <;>
      rw [hnone]
  · let mark (r : AuthorizationCode) : AuthorizationCode :=
      if r.id = row.id ∧ r.consumedAt = none then { r with consumedAt := some (dateTime consumedAt) } else r
    have hcodes : (m.shared.db.consumeByCode env.sqlEq code consumedAt).2.authCodes =
        m.shared.db.authCodes.map mark := by rw [hsome]
    have hcode : ∀ r, (mark r).code = r.code := by
      intro r
      dsimp only [mark]
      split <;> rfl
    refine h.after (issues_none rfl) ?_ ?_ ?_ ?_ (stores_none rfl)
      (hV.withDB h.view (by rw [hsome]) (by rw [hsome])) <;> dsimp only
    · rw [hcodes]
      intro r hr
      obtain ⟨r₀, hr₀, rfl⟩ := List.mem_map.mp hr
      refine .inl ⟨r₀, hr₀, ?_⟩
      dsimp only [mark]
      split <;> rfl
    · rw [hcodes, List.map_map]
      have hsame : (fun r : AuthorizationCode => r.code) ∘ mark = (·.code) := funext hcode
      rw [hsame]
      exact h.distinct
    · rw [hcodes]
      intro r₀ hr₀ hmark
      refine ⟨mark r₀, List.mem_map_of_mem hr₀, hcode r₀, ?_⟩
      dsimp only [mark]
      rw [if_neg fun hnot => hmark hnot.2]
      exact hmark
    · intro found hfound
      have hfound : (m.shared.db.consumeByCode env.sqlEq code consumedAt).1 = some found := hfound
      rw [hsome] at hfound
      obtain rfl := Option.some.inj hfound
      refine ⟨?_, fun r₀ hr₀ hsame => ?_⟩
      · rw [hcodes]
        refine ⟨mark row, List.mem_map_of_mem hrow, hcode row, ?_⟩
        dsimp only [mark]
        rw [if_pos ⟨rfl, hfresh⟩]
        nofun
      · obtain rfl := List.inj_on_of_nodup_map h.distinct hr₀ hrow hsame
        exact hfresh

theorem Ledger.issuing (hV : OfStanding V) (h : Ledger env clients calls V m) (hl : Issuing l f)
    (hcall : calls i = .redeem draws input) (hearned : Earned env clients calls V i scopes m.trace)
    (hbears : Bears env scopes draws.refreshToken l) :
    Ledger env clients calls V (m.after i l f) ∧ m.shared.now ≤ (f m.shared).now := by
  have htokens : stores l = true → ∃ draws input scopes, calls i = .redeem draws input ∧
      Earned env clients calls V i scopes m.trace ∧ Bears env scopes draws.refreshToken l :=
    fun _ => ⟨draws, input, scopes, hcall, hearned, hbears⟩
  cases hl with
  | createAccessToken t _ =>
    obtain ⟨rows, hframe⟩ := m.shared.db.createAccessToken_frame t
    refine ⟨h.aside ?_ (issues_none rfl) rfl htokens
      (hV.withDB h.view (by rw [hframe]) (by rw [hframe])), Int.le_refl _⟩
    rw [hframe]
  | saveAccessToken sha e ttl =>
    exact ⟨h.aside rfl (issues_none rfl) rfl htokens (hV m.shared _ rfl rfl rfl rfl h.view), Int.le_refl _⟩
  | createRefreshToken t _ =>
    obtain ⟨rows, hframe⟩ := m.shared.db.createRefreshToken_frame t
    refine ⟨h.aside ?_ (issues_none rfl) rfl htokens
      (hV.withDB h.view (by rw [hframe]) (by rw [hframe])), Int.le_refl _⟩
    rw [hframe]
  | saveRefreshToken e ttl =>
    exact ⟨h.aside rfl (issues_none rfl) rfl htokens (hV m.shared _ rfl rfl rfl rfl h.view), Int.le_refl _⟩

/-! ## The verifier -/

theorem normalizeCodeChallengeMethod_trim (method : String) :
    normalizeCodeChallengeMethod (trimSpace method) = normalizeCodeChallengeMethod method := by
  simp only [normalizeCodeChallengeMethod, trimSpace_trimSpace]

theorem verifierMatches_of_valid {verifier : String} {requirePKCE : Bool}
    (hmethod : row.codeChallenge ≠ "" →
      row.codeChallengeMethod = "plain" ∨ row.codeChallengeMethod = "S256")
    (hvalid : CodeVerifierValid env row verifier requirePKCE)
    (hneeded : row.codeChallenge ≠ "" ∨ requirePKCE = true) : VerifierMatches env row verifier := by
  have hplain : toUpper "plain" = "PLAIN" := by decide +kernel
  have hs256 : toUpper "S256" = "S256" := by decide +kernel
  unfold CodeVerifierValid at hvalid
  split at hvalid
  next hnone =>
    rcases hneeded with hsome | hrequired
    · exact absurd hnone hsome
    · exact nomatch hvalid.symm.trans hrequired
  next hsome =>
    obtain ⟨hverifier, hmatch⟩ := hvalid
    refine ⟨hverifier, ?_⟩
    rcases hmethod hsome with hmethod | hmethod
    · rw [hmethod, hplain, if_pos (.inr rfl)] at hmatch
      exact .inl ⟨hmethod, hmatch⟩
    · rw [hmethod, hs256, if_neg (by decide), if_pos rfl] at hmatch
      exact .inr ⟨hmethod, hmatch⟩

theorem IssuedProperly.method (h : IssuedProperly env clients calls V i row scopes)
    (hsome : row.codeChallenge ≠ "") :
    row.codeChallengeMethod = "plain" ∨ row.codeChallengeMethod = "S256" := by
  obtain ⟨code, cmd, client, session, now, -, hrow, hauthorized, -⟩ := h
  have hchallenge : row.codeChallenge = trimSpace cmd.codeChallenge := by
    simp only [hrow, codeRow, codeModel]
  have hmethod : row.codeChallengeMethod = normalizeCodeChallengeMethod cmd.codeChallengeMethod := by
    simp only [hrow, codeRow, codeModel]
  have hpkce := hauthorized.serves.pkce
  rw [hchallenge] at hsome
  rw [PKCEValid, if_neg hsome, normalizeCodeChallengeMethod_trim] at hpkce
  rwa [hmethod]

/-! ## The programs -/

variable [DecidableEq ι] {A : Moment ι World Label → ι → Label → Prop}

theorem authorize_ledger (hrefl : ∀ text, env.sqlEq text text = true) (hV : OfStanding V)
    {cmd : AuthorizationCommand} (hcall : calls i = .authorize code cmd) :
    Wp (ledger env clients calls V) A i (Authz.authorize (withClients env (clients i)) code cmd).run
      (fun _ _ => True) m := by
  refine authorize_wp (fun m hinv => Ledger.view hinv) ?_
  intro m client session now hauthorized hinv _
  have hissued : IssuedProperly env clients calls V i
      (codeRow (withClients env (clients i)) code cmd client session now) (Authz.requestedScopes cmd.scope) :=
    ⟨code, cmd, client, session, now, hcall, rfl, hauthorized, rfl⟩
  exact ⟨Ledger.create hrefl hV hinv hissued, Int.le_refl _⟩

omit [DecidableEq ι] in
theorem earned_of_checks {client : Client} {t : Int} {found : AuthorizationCode}
    (hcall : calls i = .redeem draws input) (hinv : Ledger env clients calls V m)
    (ht : t ≤ m.shared.now)
    (hfound : (m.shared.db.consumeByCode env.sqlEq input.code t).1 = some found)
    (hclient : clients i (trimSpace input.clientID) = some client)
    (howner : found.clientDBID = client.id) (hredirect : found.redirectURI = input.redirectURI)
    (hvalid : CodeVerifierValid env found input.codeVerifier client.requirePKCE) :
    ∃ scopes, found.scopesJSON = env.jsonColumn (marshalStrings scopes) ∧
      Earned env clients calls V i scopes (m.after i (.consumeByCode input.code t) f).trace := by
  obtain hnone | ⟨row, hrow, ⟨-, -, htime⟩, hsome⟩ :=
    m.shared.db.consumeByCode_cases env.sqlEq input.code t
  · rw [hnone] at hfound
    cases hfound
  rw [hsome] at hfound
  obtain rfl := Option.some.inj hfound
  obtain ⟨y, hy, stored, hstored, hkept⟩ := hinv.rows row hrow
  obtain ⟨scopes, hissued⟩ := hinv.issued y hy stored (by rw [hstored.1]; rfl)
  obtain ⟨code, cmd, client', session, now, -, hrow', -, hscopes⟩ := id hissued
  -- the row that was found is the one that was stored, but for the id and the mark
  have hvalid' : CodeVerifierValid env stored input.codeVerifier client.requirePKCE := by
    rw [hkept] at hvalid
    exact hvalid
  have hredeemed : redeemedRow env
      (⟨i, .consumeByCode input.code t, m.shared⟩ : Event ι World Label) = some row := by
    show (m.shared.db.consumeByCode env.sqlEq input.code t).1 = some row
    rw [hsome]
  refine ⟨scopes, ?_, draws, input, hcall, y, List.mem_cons_of_mem _ hy, stored, hstored, hissued, _,
    List.mem_cons_self, rfl, ?_, ?_, ?_⟩
  · rw [hkept, hrow', hscopes]
    rfl
  · refine ⟨t, row, rfl, hredeemed, ?_, ht, ?_⟩
    · rw [hkept]
    · rw [hkept] at htime
      exact htime
  · refine ⟨client, hclient, ?_, fun hneeded => ?_⟩
    · rw [← howner, hkept]
    · exact verifierMatches_of_valid hissued.method hvalid' hneeded
  · rw [← hredirect, hkept]

/-- **Who gets tokens for a code has earned them.** -/
theorem redeem_wp (hjson : Consent.KeepsJSON env) (hV : OfStanding V)
    (hcall : calls i = .redeem draws input) :
    Wp (ledger env clients calls V) A i
      (exchangeAuthorizationCode (withClients env (clients i)) draws input).run
      (Gives fun _ m' => ∃ scopes, Earned env clients calls V i scopes m'.trace) m := by
  refine .bind (findClient_gives _ _ _) fun client m₁ hclient => ?_
  refine .require fun _ => ?_
  refine .skip (validateClientSecret_silent _ _ _) fun _ m₂ => ?_
  refine .clock fun m₃ _ => ?_
  have hclock : (ledger env clients calls V).Stable i fun m => m₃.shared.now ≤ m.shared.now :=
    fun _ _ hr _ h => Int.le_trans h hr.mono
  refine .send hclock (Int.le_refl _) fun m₄ hinv₄ ht _ => ?_
  refine ⟨Ledger.consume hV hinv₄, Int.le_refl _, ?_⟩
  refine .found fun row hrow => ?_
  refine .require fun howner => ?_
  refine .require fun hredirect => ?_
  refine .require fun hvalid => ?_
  obtain ⟨scopes, htext, hearned⟩ :=
    earned_of_checks hcall hinv₄ ht hrow hclient howner hredirect hvalid
  have hscopes : mustDecodeScopeJSON row.scopesJSON = scopes := by
    rw [mustDecodeScopeJSON, htext, hjson scopes]
    rfl
  have hlasting : (ledger env clients calls V).Lasting fun m => Earned env clients calls V i scopes m.trace :=
    fun _ _ hlater h => h.mono hlater.suffix.subset
  refine .ask (hlasting.stable i) hearned fun m₅ _ hm₅ => ?_
  refine .found fun user _ => ?_
  refine wp_clock (hlasting.stable i) hm₅ fun m₆ _ hm₆ => ?_
  rw [hscopes]
  refine wp_acts ((issueUserGrantTokens_acts _ _ _ _ _ _).and
    (issueUserGrantTokens_bears (hjson scopes) _ _ _ _)) (hlasting.stable i) ?_ hm₆ (fun _ _ _ => gives_error)
    fun result m₇ hm₇ => ?_
  · intro m l f hl hinv hm _
    obtain ⟨hnext, hnow⟩ := Ledger.issuing hV hinv hl.1 hcall hm hl.2
    exact ⟨hnext, hnow, hm.mono (List.subset_cons_self _ _)⟩
  split
  · refine .silent (mintIDToken_silent _ _ _ _ _ _) (hlasting.stable i) hm₇ fun _ m₈ hm₈ => ?_
    exact .ok ⟨scopes, hm₈⟩
  · exact .ok ⟨scopes, hm₇⟩

def Deserves (env : Env) (clients : ι → String → Option Client) (calls : ι → CodeCall) (V : World → Prop)
    (i : ι) (r : Option ExchangeResult) (m : Moment ι World Label) : Prop :=
  r.isSome → ∃ scopes, Earned env clients calls V i scopes m.trace

theorem call_wp (hrefl : ∀ text, env.sqlEq text text = true) (hjson : Consent.KeepsJSON env)
    (hV : OfStanding V) :
    Wp (ledger env clients calls V) A i ((calls i).code (withClients env (clients i)))
      (Deserves env clients calls V i) m := by
  cases hcall : calls i with
  | authorize code cmd =>
    refine wp_bind.mpr ((authorize_ledger hrefl hV hcall).imp fun _ _ _ h => ?_)
    cases h
  | redeem draws input =>
    refine wp_bind.mpr ((redeem_wp hjson hV hcall).imp fun r m' hr h => ?_)
    cases r with
    | error e => cases h
    | ok result => exact hr result rfl

/-! ## The law -/

end Codes

/-! ## A login at an application -/

def webApp : Client where
  id := 1
  clientID := "web"
  clientName := "Web"
  clientSecretHash := ""
  requirePKCE := true
  requireConsent := false
  accessTokenTTLSeconds := 3600
  refreshTokenTTLSeconds := 0
  idTokenTTLSeconds := 0
  status := "active"
  redirectURIs := ["https://app"]
  grantTypes := [GrantType.authorizationCode.text]
  scopes := ["openid"]

def loggedIn : World :=
  let user : User := ⟨7, "sub-7", "ada", "ada@example", true, "Ada", "pw", "user", 0#32, "", "active"⟩
  let session : Session := ⟨1, "s", 7, "sub-7", "", "[]", "", "", 0, 3600 * Store.second, none⟩
  { World.empty 0 with db := { Database.empty with users := [user], sessions := [session] } }

def loginCommand : AuthorizationCommand where
  responseType := "code"
  clientID := "web"
  redirectURI := "https://app"
  scope := ["openid"]
  codeChallenge := "v"
  sessionID := "s"

def loginExchange : ExchangeInput where
  grantType := .authorizationCode
  clientID := "web"
  code := "c"
  redirectURI := "https://app"
  codeVerifier := "v"

def loginAtApp (b : Bool) : CodeCall :=
  bif b then .authorize "c" loginCommand else .redeem ⟨"a", "i", "r"⟩ loginExchange

end IdpServer.Laws.Authz
