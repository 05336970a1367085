import IdpServer.Laws.Authz.Authorizing
import IdpServer.Laws.Device.Life
import IdpServer.Laws.Token.Bearing
import IdpServer.Laws.Token.Refusals

/-!
# Laws.Token.Descent — scopes never grow along a grant

Scopes are accepted once. Later requests present something that an earlier one drew, and take the scopes from the
record under it (`scopes_of_root`). The client table may change while the server runs.
-/

namespace IdpServer.Laws.Token

open Conc IdpServer.Cache Store IdpServer.Token Go
open Laws.Device (Deciding decide_acts)

/-! ## Requests -/

inductive Request where
  | authorize (code : String) (cmd : Authz.AuthorizationCommand)
  | start (deviceCode userCode clientID : String) (scopes : List String)
  | decide (sessionID userCode action : String)
  | exchange (draws : Draws) (input : ExchangeInput)

def Request.code (env : Env) : Request → Action Unit
  | .authorize code cmd => do let _ ← (Authz.authorize env code cmd).run
  | .start deviceCode userCode clientID scopes => do
    let _ ← (Device.start env deviceCode userCode clientID scopes).run
  | .decide sessionID userCode action => do let _ ← (Device.decide env sessionID userCode action).run
  | .exchange draws input => do let _ ← (Token.exchange env draws input).run

def Request.refreshToken : Request → String
  | .exchange draws _ => draws.refreshToken
  | _ => ""

def Request.asks (clients : String → Option Client) : Request → Option (Client × List String)
  | .authorize _ cmd => (clients (trimSpace cmd.clientID)).map fun client =>
      (client, Authz.requestedScopes cmd.scope)
  | .start _ _ clientID scopes => (clients (trimSpace clientID)).map fun client =>
      (client, requestedScopes client scopes)
  | .decide _ _ _ => none
  | .exchange _ input =>
    match input.grantType with
    | .password | .clientCredentials => (clients (trimSpace input.clientID)).map fun client =>
        (client, requestedScopes client input.scopes)
    | _ => none

/-- These scopes are accepted by the request, for this client. -/
def Request.Accepts (clients : String → Option Client) (r : Request) (client : Client)
    (scopes : List String) : Prop :=
  r.asks clients = some (client, scopes) ∧ allContained scopes client.scopes = true

inductive Ticket where
  | code (text : String)
  | device (text : String)
  | refresh (sha : String)

def Request.ticket (env : Env) : Request → Option Ticket
  | .authorize code _ => some (.code code)
  | .start deviceCode _ _ _ => some (.device deviceCode)
  | .decide _ _ _ => none
  | .exchange draws _ => some (.refresh (env.sha256Hex draws.refreshToken))

def Request.Presents (env : Env) : Request → Ticket → Prop
  | .exchange _ input, .code text =>
      input.grantType = .authorizationCode ∧ env.sqlEq text input.code = true
  | .exchange _ input, .device text =>
      input.grantType = .deviceCode ∧ trimSpace input.deviceCode = text
  | .exchange _ input, .refresh sha =>
      input.grantType = .refreshToken ∧ env.sha256Hex input.refreshToken = sha
  | _, _ => False

def Redeems (env : Env) (r r' : Request) : Prop := ∃ ticket ∈ r.ticket env, r'.Presents env ticket

section Descent

variable {ι : Type}

/-- A request descends from another: it redeems what was drawn by one that does. -/
inductive Descends (env : Env) (calls : ι → Request) (root : ι) : ι → Prop
  | root : Descends env calls root root
  | redeems {k i : ι} (h : Descends env calls root k) (hk : Redeems env (calls k) (calls i)) :
      Descends env calls root i

def Entitled (env : Env) (clients : ι → String → Option Client) (calls : ι → Request) (i : ι)
    (scopes : List String) : Prop :=
  ∃ root client, Descends env calls root i ∧ (calls root).Accepts (clients root) client scopes

def DrawnOnce (env : Env) (calls : ι → Request) : Prop :=
  ∀ i k k', Redeems env (calls k) (calls i) → Redeems env (calls k') (calls i) → k = k'

variable {env : Env} {clients : ι → String → Option Client} {calls : ι → Request} {i : ι}

variable {r : Request} {table : String → Option Client} {client : Client} {scopes : List String}

theorem not_redeems_of_accepts {r' : Request} (h : r'.Accepts table client scopes) :
    ¬ Redeems env r r' := by
  rintro ⟨ticket, -, hpresents⟩
  cases r' with
  | exchange draws input =>
    have hasks := h.1
    have hgrant : input.grantType = .authorizationCode ∨ input.grantType = .deviceCode ∨
        input.grantType = .refreshToken := by
      cases ticket with
      | code text => exact .inl hpresents.1
      | device text => exact .inr (.inl hpresents.1)
      | refresh sha => exact .inr (.inr hpresents.1)
    rcases hgrant with hgrant | hgrant | hgrant <;>
    · rw [Request.asks, hgrant] at hasks
      cases hasks
  | _ => exact hpresents

/-- **A request belongs to one grant**, if nothing was drawn twice. -/
theorem Descends.unique {a b : ι} {client' : Client} {scopes' : List String}
    (hdrawn : DrawnOnce env calls) (ha : Descends env calls a i) (hb : Descends env calls b i)
    (hacc : (calls a).Accepts (clients a) client scopes)
    (hacc' : (calls b).Accepts (clients b) client' scopes') : a = b := by
  induction ha with
  | root =>
    cases hb with
    | root => rfl
    | redeems _ hk => exact absurd hk (not_redeems_of_accepts hacc)
  | redeems _ hk ih =>
    cases hb with
    | root => exact absurd hk (not_redeems_of_accepts hacc')
    | redeems hb hk' =>
      obtain rfl := hdrawn _ _ _ hk hk'
      exact ih hb

/-! ## Registered scopes -/

/-- As the scopes of a client are registered: trimmed, not blank, and each once. -/
structure Registered (scopes : List String) : Prop where
  nodup : scopes.Nodup
  trimmed : ∀ s ∈ scopes, trimSpace s = s
  nonblank : ∀ s ∈ scopes, s ≠ ""

theorem nodup_eraseDups (xs : List String) : xs.eraseDups.Nodup := by
  -- by length: the rest is filtered before it is treated
  match xs with
  | [] => exact List.nodup_nil
  | x :: xs =>
    rw [List.eraseDups_cons, List.nodup_cons]
    refine ⟨fun hx => ?_, nodup_eraseDups _⟩
    simpa using (List.mem_filter.mp (List.mem_eraseDups.mp hx)).2
termination_by xs.length
decreasing_by
  simp only [List.length_cons]
  exact Nat.lt_succ_of_le (List.length_filter_le _ _)

theorem registered_normalizeScopes (scopes : List String) : Registered (normalizeScopes scopes) := by
  have hmem : ∀ s ∈ normalizeScopes scopes, s ∈ scopes.map trimSpace ∧ s ≠ "" := by
    intro s hs
    simpa using List.mem_filter.mp (List.mem_eraseDups.mp hs)
  refine ⟨nodup_eraseDups _, fun s hs => ?_, fun s hs => (hmem s hs).2⟩
  obtain ⟨t, -, rfl⟩ := List.mem_map.mp (hmem s hs).1
  exact trimSpace_trimSpace t

theorem registered_requestedScopes (h : Registered client.scopes) (scopes : List String) :
    Registered (requestedScopes client scopes) := by
  unfold requestedScopes
  split
  · exact h
  · exact registered_normalizeScopes scopes

theorem registered_authzScopes (scopes : List String) : Registered (Authz.requestedScopes scopes) := by
  unfold Authz.requestedScopes
  split
  · exact ⟨List.nodup_singleton _, by simp [show trimSpace "openid" = "openid" by decide], by simp⟩
  · exact registered_normalizeScopes scopes

theorem Request.Accepts.registered (hclients : ∀ id c, table id = some c → Registered c.scopes)
    (h : r.Accepts table client scopes) : Registered scopes ∧ ∀ s ∈ scopes, s ∈ client.scopes := by
  obtain ⟨hasks, hcontained⟩ := h
  have hfound : ∃ id, table id = some client ∧ (Registered client.scopes → Registered scopes) := by
    cases r with
    | authorize code cmd =>
      obtain ⟨c, hc, heq⟩ := Option.map_eq_some_iff.mp hasks
      cases heq
      exact ⟨_, hc, fun _ => registered_authzScopes _⟩
    | start deviceCode userCode clientID asked =>
      obtain ⟨c, hc, heq⟩ := Option.map_eq_some_iff.mp hasks
      cases heq
      exact ⟨_, hc, fun h => registered_requestedScopes h _⟩
    | decide sessionID userCode action => cases hasks
    | exchange draws input =>
      rw [Request.asks] at hasks
      split at hasks
      next =>
        obtain ⟨c, hc, heq⟩ := Option.map_eq_some_iff.mp hasks
        cases heq
        exact ⟨_, hc, fun h => registered_requestedScopes h _⟩
      next =>
        obtain ⟨c, hc, heq⟩ := Option.map_eq_some_iff.mp hasks
        cases heq
        exact ⟨_, hc, fun h => registered_requestedScopes h _⟩
      next => cases hasks
  obtain ⟨id, hid, hscopes⟩ := hfound
  have hclient := hclients id client hid
  refine ⟨hscopes hclient, fun s hs => ?_⟩
  have hallowed : s ∈ allowedScopes client.scopes := by
    simpa using List.all_eq_true.mp hcontained s hs
  obtain ⟨t, ht, rfl⟩ := List.mem_map.mp (List.mem_filter.mp hallowed).1
  rwa [hclient.trimmed t ht]

end Descent

/-! ## What is kept under a ticket -/

/-- Between two states: every record under a ticket was there before with the same scopes, or is one of `B`.
A device authorization brought back by a late write has no expiry. -/
structure Adds (B : Ticket → String → Prop) (w w' : World) : Prop where
  codes : ∀ r' ∈ w'.db.authCodes, B (.code r'.code) r'.scopesJSON ∨
    ∃ r ∈ w.db.authCodes, r'.code = r.code ∧ r'.scopesJSON = r.scopesJSON
  refresh : ∀ r' ∈ w'.db.refreshTokens, B (.refresh r'.tokenSHA256) r'.scopesJSON ∨
    ∃ r ∈ w.db.refreshTokens, r'.tokenSHA256 = r.tokenSHA256 ∧ r'.scopesJSON = r.scopesJSON
  devices : ∀ d, ∀ e' ∈ w'.devices.device d, e'.value.expiresAt = zeroTime ∨
    B (.device d) e'.value.scopesJSON ∨ ∃ e ∈ w.devices.device d,
      e'.value.expiresAt = e.value.expiresAt ∧ e'.value.scopesJSON = e.value.scopesJSON
  now : w.now ≤ w'.now

/-- Whatever else goes on adds no record under a ticket, and changes the scopes of none. -/
abbrev AddsNone : World → World → Prop := Adds fun _ _ => False

section Adds

variable {B : Ticket → String → Prop} {w w' : World}

theorem Adds.of_codes (hrefresh : w'.db.refreshTokens = w.db.refreshTokens)
    (hdevices : w'.devices.device = w.devices.device) (hnow : w'.now = w.now)
    (hcodes : ∀ r' ∈ w'.db.authCodes, B (.code r'.code) r'.scopesJSON ∨
      ∃ r ∈ w.db.authCodes, r'.code = r.code ∧ r'.scopesJSON = r.scopesJSON) : Adds B w w' where
  codes := hcodes
  refresh r' hr' := .inr ⟨r', hrefresh ▸ hr', rfl, rfl⟩
  devices _ e' he' := .inr (.inr ⟨e', hdevices ▸ he', rfl, rfl⟩)
  now := hnow ▸ Int.le_refl _

theorem Adds.of_refresh (hcodes : w'.db.authCodes = w.db.authCodes)
    (hdevices : w'.devices.device = w.devices.device) (hnow : w'.now = w.now)
    (hrefresh : ∀ r' ∈ w'.db.refreshTokens, B (.refresh r'.tokenSHA256) r'.scopesJSON ∨
      ∃ r ∈ w.db.refreshTokens, r'.tokenSHA256 = r.tokenSHA256 ∧ r'.scopesJSON = r.scopesJSON) :
    Adds B w w' where
  codes r' hr' := .inr ⟨r', hcodes ▸ hr', rfl, rfl⟩
  refresh := hrefresh
  devices _ e' he' := .inr (.inr ⟨e', hdevices ▸ he', rfl, rfl⟩)
  now := hnow ▸ Int.le_refl _

theorem Adds.of_same (hcodes : w'.db.authCodes = w.db.authCodes)
    (hrefresh : w'.db.refreshTokens = w.db.refreshTokens)
    (hdevices : w'.devices.device = w.devices.device) (hnow : w'.now = w.now) : Adds B w w' :=
  .of_codes hrefresh hdevices hnow fun r' hr' => .inr ⟨r', hcodes ▸ hr', rfl, rfl⟩

theorem Adds.refl (w : World) : Adds B w w := .of_same rfl rfl rfl rfl

variable {d : String} {l : Label} {f : World → World}

theorem Adds.set {g : DeviceCodeEntry → DeviceCodeEntry}
    (hg : ∀ e, (g e).expiresAt = e.expiresAt ∧ (g e).scopesJSON = e.scopesJSON) :
    Adds B w { w with devices := w.devices.set w.now d g } where
  codes r' hr' := .inr ⟨r', hr', rfl, rfl⟩
  refresh r' hr' := .inr ⟨r', hr', rfl, rfl⟩
  devices d' e' he' := by
    by_cases hd : d' = d
    · subst hd
      have halter : w.devices.device.alter w.now d' (fun old => g (old.getD {})) d' = some e' := he'
      have hvalue := Keyspace.alter_eq_some halter
      cases hold : w.devices.device.get w.now d' with
      | none =>
        rw [hold] at hvalue
        left
        rw [hvalue]
        exact (hg _).1
      | some e =>
        rw [hold] at hvalue
        obtain ⟨t, ht, -⟩ := Keyspace.get_eq_some.mp hold
        refine .inr (.inr ⟨_, ht, ?_, ?_⟩) <;> rw [hvalue]
        · exact (hg e).1
        · exact (hg e).2
    · have halter : w.devices.device.alter w.now d (fun old => g (old.getD {})) d' = some e' := he'
      exact .inr (.inr ⟨e', (Keyspace.alter_of_ne hd).symm.trans halter, rfl, rfl⟩)
  now := Int.le_refl _

theorem Adds.touchPoll {polledAt minInterval : Int} :
    Adds B w { w with devices := (w.devices.touchPoll w.now d polledAt minInterval).2 } := by
  unfold DeviceCache.touchPoll
  split
  next => exact .refl w
  next =>
    split
    next => exact .refl w
    next => exact .set (g := fun e => { e with lastPolledAt := wholeSeconds polledAt }) fun _ => ⟨rfl, rfl⟩

theorem Adds.createAuthorizationCode {sqlEq : String → String → Bool} {row : AuthorizationCode}
    (hB : B (.code row.code) row.scopesJSON) :
    Adds B w { w with db := (w.db.createAuthorizationCode sqlEq row).2 } := by
  obtain hsame | ⟨-, hnew⟩ := w.db.createAuthorizationCode_cases sqlEq row
  · rw [hsame]
    exact .refl w
  · rw [hnew]
    refine .of_codes rfl rfl rfl fun r hr => ?_
    rcases List.mem_append.mp hr with hr | hr
    · exact .inr ⟨r, hr, rfl, rfl⟩
    · rw [List.mem_singleton.mp hr]
      exact .inl hB

theorem Adds.saveDevice {entry : DeviceCodeEntry} {ttl : Int}
    (hB : B (.device entry.deviceCode) entry.scopesJSON) :
    Adds B w { w with devices := w.devices.save w.now entry ttl } where
  codes r' hr' := .inr ⟨r', hr', rfl, rfl⟩
  refresh r' hr' := .inr ⟨r', hr', rfl, rfl⟩
  devices d e he := by
    let stored := { entry with expiresAt := wholeSeconds entry.expiresAt }
    obtain ⟨e₁, he₁, hvalue⟩ := Keyspace.expireCommand_eq_some he
    by_cases hd : d = entry.deviceCode
    · subst hd
      rw [← hvalue, Keyspace.alter_eq_some he₁]
      exact .inr (.inl hB)
    · rw [← hvalue]
      exact .inr (.inr ⟨e₁, (Keyspace.alter_of_ne hd).symm.trans he₁, rfl, rfl⟩)
  now := Int.le_refl _

theorem adds_of_deciding (hl : Deciding l f) : Adds B w (f w) := by
  cases hl with
  | approve d userID subject t => exact .set fun _ => ⟨rfl, rfl⟩
  | deny d t => exact .set fun _ => ⟨rfl, rfl⟩

def AddsRefresh (B : Ticket → String → Prop) : Label → Prop
  | .createRefreshToken row => B (.refresh row.tokenSHA256) row.scopesJSON
  | .rotateRefreshToken _ _ row => B (.refresh row.tokenSHA256) row.scopesJSON
  | _ => True

theorem Exchanging.adds (hl : Exchanging l f) (hB : AddsRefresh B l) : Adds B w (f w) := by
  cases hl with
  | issuing h =>
    cases h with
    | createAccessToken t _ =>
      obtain ⟨rows, h⟩ := w.db.createAccessToken_frame t
      have hcodes : (w.db.createAccessToken t).2.authCodes = w.db.authCodes := by rw [h]
      have hrefresh : (w.db.createAccessToken t).2.refreshTokens = w.db.refreshTokens := by rw [h]
      exact .of_same hcodes hrefresh rfl rfl
    | saveAccessToken sha e ttl => exact .of_same rfl rfl rfl rfl
    | createRefreshToken t _ =>
      obtain ⟨rows, h⟩ := w.db.createRefreshToken_frame t
      have hcodes : (w.db.createRefreshToken t).2.authCodes = w.db.authCodes := by rw [h]
      refine .of_refresh hcodes rfl rfl fun r hr => ?_
      rcases Database.mem_createRefreshToken hr with hr | rfl
      · exact .inr ⟨r, hr, rfl, rfl⟩
      · exact .inl hB
    | saveRefreshToken e ttl => exact .of_same rfl rfl rfl rfl
  | consumeByCode env code consumedAt =>
    obtain ⟨rows, h⟩ := w.db.consumeByCode_frame env.sqlEq code consumedAt
    have hrefresh : (w.db.consumeByCode env.sqlEq code consumedAt).2.refreshTokens = w.db.refreshTokens := by
      rw [h]
    refine .of_codes hrefresh rfl rfl fun r hr => ?_
    rcases Database.mem_consumeByCode hr with hr | ⟨r₀, hr₀, t, rfl⟩
    · exact .inr ⟨r, hr, rfl, rfl⟩
    · exact .inr ⟨r₀, hr₀, rfl, rfl⟩
  | checkRefreshReplay sha nowTS fp => exact .of_same rfl rfl rfl rfl
  | rotateRefreshToken oldSHA revokedAt row =>
    obtain ⟨rows, h⟩ := w.db.rotateRefreshToken_frame oldSHA revokedAt row
    have hcodes : (w.db.rotateRefreshToken oldSHA revokedAt row).2.authCodes = w.db.authCodes := by
      rw [h]
    refine .of_refresh hcodes rfl rfl fun r hr => ?_
    rcases Database.mem_rotateRefreshToken hr with hr | rfl | ⟨r₀, hr₀, t, id, rfl⟩
    · exact .inr ⟨r, hr, rfl, rfl⟩
    · exact .inl hB
    · exact .inr ⟨r₀, hr₀, rfl, rfl⟩
  | rotateToken oldSHA new response fp newTTL graceTTL nowTS => exact .of_same rfl rfl rfl rfl
  | touchPoll d polledAt minInterval => exact .touchPoll
  | consumeDevice d consumedAt => exact .set fun _ => ⟨rfl, rfl⟩
  | verifyPassword userID => exact .refl w

end Adds

/-! ## Runs -/

section Runs

variable {ι : Type} {env : Env} {clients : ι → String → Option Client} {calls : ι → Request} {i : ι}

/-- The scopes kept under a ticket are those of a grant to which the request belongs that drew it. -/
def Backed (env : Env) (clients : ι → String → Option Client) (calls : ι → Request) (ticket : Ticket)
    (text : String) : Prop :=
  ∃ k scopes, (calls k).ticket env = some ticket ∧ Entitled env clients calls k scopes ∧
    unmarshalStrings text = some scopes

/-- A command of the request stores no token but with the scopes of a grant it belongs to. -/
def Licensed (env : Env) (clients : ι → String → Option Client) (calls : ι → Request) (i : ι)
    (l : Label) : Prop :=
  stores l = true → ∃ scopes, Entitled env clients calls i scopes ∧
    Bears env scopes (calls i).refreshToken l

/-- **Every token bears the scopes of a grant**, and so does all that a token can be had for. -/
structure Rooted (env : Env) (clients : ι → String → Option Client) (calls : ι → Request)
    (m : Moment ι World Label) : Prop where
  codes : ∀ r ∈ m.shared.db.authCodes, Backed env clients calls (.code r.code) r.scopesJSON
  refresh : ∀ r ∈ m.shared.db.refreshTokens, Backed env clients calls (.refresh r.tokenSHA256) r.scopesJSON
  devices : ∀ d, ∀ e ∈ m.shared.devices.device d, e.value.expiresAt = zeroTime ∨
    Backed env clients calls (.device d) e.value.scopesJSON
  stored : ∀ x ∈ m.trace, Licensed env clients calls x.pid x.label
  clock : zeroTime ≤ m.shared.now

def descent (env : Env) (clients : ι → String → Option Client) (calls : ι → Request) :
    Discipline ι World Label where
  inv := Rooted env clients calls
  mono _ _ := True
  mono_refl _ := trivial
  mono_trans _ _ := trivial

theorem Backed.entitled {ticket : Ticket} {text : String} (h : Backed env clients calls ticket text)
    (hpresents : (calls i).Presents env ticket) :
    Entitled env clients calls i (mustDecodeScopeJSON text) := by
  obtain ⟨k, scopes, hticket, ⟨root, client, hdescends, haccepts⟩, htext⟩ := h
  rw [mustDecodeScopeJSON, htext]
  exact ⟨root, client, .redeems hdescends ⟨ticket, hticket, hpresents⟩, haccepts⟩

variable {m : Moment ι World Label}

theorem Rooted.adds {trace : List (Event ι World Label)} {w : World} (h : Rooted env clients calls m)
    (hadds : Adds (Backed env clients calls) m.shared w)
    (hstored : ∀ x ∈ trace, Licensed env clients calls x.pid x.label) :
    Rooted env clients calls ⟨trace, w⟩ where
  codes r hr := by
    rcases hadds.codes r hr with hr | ⟨r₀, hr₀, hcode, hscopes⟩
    · exact hr
    · rw [hcode, hscopes]
      exact h.codes r₀ hr₀
  refresh r hr := by
    rcases hadds.refresh r hr with hr | ⟨r₀, hr₀, hsha, hscopes⟩
    · exact hr
    · rw [hsha, hscopes]
      exact h.refresh r₀ hr₀
  devices d e he := by
    rcases hadds.devices d e he with he | he | ⟨e₀, he₀, hexpiry, hscopes⟩
    · exact .inl he
    · exact .inr he
    · rw [hexpiry, hscopes]
      exact h.devices d e₀ he₀
  stored := hstored
  clock := Int.le_trans h.clock hadds.now

theorem descent_admits : (descent env clients calls).Admits AddsNone := by
  intro m w hinv hadds
  refine ⟨Rooted.adds hinv ⟨fun r hr => ?_, fun r hr => ?_, fun d e he => ?_, hadds.now⟩ hinv.stored, trivial⟩
  · exact (hadds.codes r hr).imp_left False.elim
  · exact (hadds.refresh r hr).imp_left False.elim
  · exact (hadds.devices d e he).imp_right fun h => h.imp_left False.elim

variable {l : Label} {f : World → World} {α : Type} {p : Action α} {scopes : List String}

theorem Rooted.after (h : Rooted env clients calls m)
    (hadds : Adds (Backed env clients calls) m.shared (f m.shared))
    (hl : Licensed env clients calls i l) : (descent env clients calls).Kept m (m.after i l f) := by
  refine ⟨h.adds hadds fun x hx => ?_, trivial⟩
  rcases List.mem_cons.mp hx with rfl | hx
  · exact hl
  · exact h.stored x hx

theorem Rooted.exchanging {draws : Draws} {input : ExchangeInput}
    (hcall : calls i = .exchange draws input) (h : Rooted env clients calls m) (hl : Exchanging l f)
    (hlicensed : Licensed env clients calls i l) :
    (descent env clients calls).Kept m (m.after i l f) := by
  refine h.after (hl.adds ?_) hlicensed
  have hticket : (calls i).ticket env = some (.refresh (env.sha256Hex (calls i).refreshToken)) := by
    rw [hcall]
    rfl
  have hbacked : ∀ {sha text : String} {scopes : List String}, Entitled env clients calls i scopes →
      unmarshalStrings text = some scopes ∧ sha = env.sha256Hex (calls i).refreshToken →
      Backed env clients calls (.refresh sha) text := by
    rintro _ text scopes hentitled ⟨htext, rfl⟩
    exact ⟨i, scopes, hticket, hentitled, htext⟩
  unfold AddsRefresh
  split
  next row =>
    obtain ⟨scopes, hentitled, hbears⟩ := hlicensed rfl
    exact hbacked hentitled hbears
  next row =>
    obtain ⟨scopes, hentitled, hbears⟩ := hlicensed rfl
    exact hbacked hentitled hbears
  next => trivial

/-! ### The token endpoint -/

variable {draws : Draws} {input : ExchangeInput}

theorem licensed_of_bears (hcall : calls i = .exchange draws input)
    (hentitled : Entitled env clients calls i scopes) (hacts : p.Acts Exchanging)
    (hbears : p.Acts fun l _ => Bears env scopes draws.refreshToken l) :
    p.Acts fun l f => Exchanging l f ∧ Licensed env clients calls i l := by
  refine (hacts.and hbears).imp fun l f hl => ⟨hl.1, fun _ => ⟨scopes, hentitled, ?_⟩⟩
  rw [hcall]
  exact hl.2

theorem licensed_of_not_stores (h : stores l = false) : Licensed env clients calls i l := by
  intro hstores
  rw [h] at hstores
  cases hstores

theorem Entitled.keeps (hjson : ∀ scopes, Registered scopes → KeepsScopes env scopes)
    (hclients : ∀ i id client, clients i id = some client → Registered client.scopes)
    (h : Entitled env clients calls i scopes) : KeepsScopes env scopes := by
  obtain ⟨root, client, -, haccepts⟩ := h
  exact hjson scopes (haccepts.registered (hclients root)).1

variable [DecidableEq ι] {A : Moment ι World Label → ι → Label → Prop}

theorem licensed_wp (hcall : calls i = .exchange draws input)
    (hp : p.Acts fun l f => Exchanging l f ∧ Licensed env clients calls i l) :
    Wp (descent env clients calls) A i p (fun _ _ => True) m := by
  refine Wp.of_acts hp stable_true (fun m l f hl hinv _ _ => ?_) trivial
  have hkept := Rooted.exchanging hcall hinv hl.1 hl.2
  exact ⟨hkept.1, hkept.2, trivial⟩

theorem client_wp {clientID : String} {grantType : GrantType} {k : Client → Service TokenError α}
    (hk : ∀ client m', clients i (trimSpace clientID) = some client →
      Wp (descent env clients calls) A i (k client).run (fun _ _ => True) m') :
    Wp (descent env clients calls) A i
      (findClient (withClients env (clients i)) clientID grantType >>= k).run (fun _ _ => True) m := by
  refine wp_bind_except.mpr ((findClient_gives _ _ _).imp fun r m' hr => ?_)
  cases r with
  | error e => trivial
  | ok client => exact hk client m' (hr client rfl)

section Grants

variable (hjson : ∀ scopes, Registered scopes → KeepsScopes env scopes)
  (hclients : ∀ i id client, clients i id = some client → Registered client.scopes)
  (hcall : calls i = .exchange draws input)

include hjson hclients hcall

theorem issue_wp {client : Client} {user : User} {scopes : List String} {now : Int} {α : Type}
    {k : ExchangeResult → Service TokenError α} (hentitled : Entitled env clients calls i scopes)
    (hk : ∀ result, (k result).run.Acts fun l f => Exchanging l f ∧ stores l = false) :
    Wp (descent env clients calls) A i
      (issueUserGrantTokens (withClients env (clients i)) draws client user scopes now >>= k).run
      (fun _ _ => True) m := by
  refine licensed_wp hcall (.bind_except ?_ fun result => ?_)
  · refine licensed_of_bears hcall hentitled ?_ ?_
    · exact (issueUserGrantTokens_acts _ _ _ _ _ _).imp fun _ _ h => .issuing h
    · exact issueUserGrantTokens_bears (hentitled.keeps hjson hclients) _ _ _ _
  · exact (hk result).imp fun l f h => ⟨h.1, licensed_of_not_stores h.2⟩

theorem exchangeAuthorizationCode_rooted (hgrant : input.grantType = .authorizationCode) :
    Wp (descent env clients calls) A i
      (exchangeAuthorizationCode (withClients env (clients i)) draws input).run (fun _ _ => True) m := by
  refine client_wp fun client m₁ hclient => ?_
  refine .require fun _ => ?_
  refine .skip (validateClientSecret_silent _ _ _) fun _ m₂ => ?_
  refine .clock fun m₃ _ => ?_
  refine .send stable_true trivial fun m₄ hinv₄ _ _ => ?_
  have hkept := Rooted.exchanging hcall hinv₄
    (.consumeByCode (withClients env (clients i)) input.code m₃.shared.now) (licensed_of_not_stores rfl)
  refine ⟨hkept.1, hkept.2, .found fun row hrow => ?_⟩
  obtain ⟨hmem, hcode, -⟩ := Database.consumeByCode_eq_some hrow
  have hentitled : Entitled env clients calls i (mustDecodeScopeJSON row.scopesJSON) := by
    refine (hinv₄.codes row hmem).entitled ?_
    rw [hcall]
    exact ⟨hgrant, hcode⟩
  refine .require fun _ => ?_
  refine .require fun _ => ?_
  refine .require fun _ => ?_
  refine .read fun m₅ _ => ?_
  refine .found fun user _ => ?_
  refine .clock fun m₆ _ => ?_
  refine issue_wp hjson hclients hcall hentitled fun result => ?_
  split
  · exact .bind_except (mintIDToken_silent _ _ _ _ _ _).acts fun _ => trivial
  · trivial

theorem exchangeDeviceCode_rooted (hgrant : input.grantType = .deviceCode) :
    Wp (descent env clients calls) A i
      (exchangeDeviceCode (withClients env (clients i)) draws input).run (fun _ _ => True) m := by
  refine client_wp fun client m₁ hclient => ?_
  refine .skip (validateClientSecret_silent _ _ _) fun _ m₂ => ?_
  refine .read fun m₃ hinv₃ => ?_
  refine .found fun entry hentry => ?_
  refine .clock fun m₄ hinv₄ => ?_
  refine .require fun hopen => ?_
  -- a record without an expiry has expired
  have hentitled : Entitled env clients calls i (mustDecodeScopeJSON entry.scopesJSON) := by
    obtain ⟨t, ht, -⟩ := Keyspace.get_eq_some.mp hentry
    rcases hinv₃.devices _ _ ht with hzero | hbacked
    · have hlt : m₄.shared.now < entry.expiresAt := hopen.2
      have hzero : entry.expiresAt = zeroTime := hzero
      have hclock := hinv₄.clock
      omega
    · refine hbacked.entitled ?_
      rw [hcall]
      exact ⟨hgrant, rfl⟩
  refine .clock fun m₅ _ => ?_
  refine .send stable_true trivial fun m₆ hinv₆ _ _ => ?_
  have hkept := Rooted.exchanging hcall hinv₆
    (.touchPoll entry.deviceCode m₅.shared.now (entry.interval * second)) (licensed_of_not_stores rfl)
  refine ⟨hkept.1, hkept.2, .require fun _ => ?_⟩
  cases deviceRefusal entry.status with
  | some e => trivial
  | none =>
    refine .found fun userID _ => ?_
    refine .read fun m₇ _ => ?_
    refine .found fun user _ => ?_
    refine .require fun _ => ?_
    refine .clock fun m₈ _ => ?_
    refine issue_wp hjson hclients hcall hentitled fun result => ?_
    refine .clock fun consumedAt => ?_
    exact .send ⟨.consumeDevice _ _, rfl⟩ fun _ => trivial

theorem exchangeRefreshToken_rooted (hgrant : input.grantType = .refreshToken) :
    Wp (descent env clients calls) A i
      (exchangeRefreshToken (withClients env (clients i)) draws input).run (fun _ _ => True) m := by
  refine client_wp fun client m₁ hclient => ?_
  refine .skip (validateClientSecret_silent _ _ _) fun _ m₂ => ?_
  refine wp_bind_except.mpr ((licensed_wp hcall ?_).imp fun r m₃ _ => ?_)
  · exact checkReplay_all fun nowTS => ⟨.checkRefreshReplay _ nowTS _, licensed_of_not_stores rfl⟩
  match r with
  | .error e => trivial
  | .ok (some result) => trivial
  | .ok none =>
    refine .read fun m₄ hinv₄ => ?_
    refine .found fun old hold => ?_
    obtain ⟨hmem, hsha, -⟩ := Database.findActiveRefreshToken_eq_some hold
    have hentitled : Entitled env clients calls i (mustDecodeScopeJSON old.scopesJSON) := by
      refine (hinv₄.refresh old hmem).entitled ?_
      rw [hcall]
      exact ⟨hgrant, hsha.symm⟩
    have hkeeps := hentitled.keeps hjson hclients
    refine .require fun _ => ?_
    refine .read fun m₅ _ => ?_
    refine .found fun user _ => ?_
    refine .clock fun m₆ _ => ?_
    refine licensed_wp hcall (.bind_except ?_ fun result => ?_)
    · refine licensed_of_bears hcall hentitled ?_ (issueAccessToken_bears hkeeps _ _ _ _ _ _ _)
      exact (issueAccessToken_issued _ "" _ _ _ _ _ _ _).imp fun _ _ h => .issuing h.issuing
    · split
      · trivial
      · refine licensed_of_bears hcall hentitled ?_ (rotate_bears hkeeps _ _ _ _ _ _ _)
        exact (rotate_sends hgrant _ _ _ _ _ _).imp fun _ _ h => h.exchanging

theorem exchangeClientCredentials_rooted (hgrant : input.grantType = .clientCredentials) :
    Wp (descent env clients calls) A i
      (exchangeClientCredentials (withClients env (clients i)) draws input).run (fun _ _ => True) m := by
  refine client_wp fun client m₁ hclient => ?_
  refine .skip (validateClientSecret_silent _ _ _) fun _ m₂ => ?_
  refine .require fun hcontained => ?_
  have hentitled : Entitled env clients calls i (requestedScopes client input.scopes) := by
    refine ⟨i, client, .root, ?_, hcontained⟩
    rw [hcall, Request.asks, hgrant]
    exact Option.map_eq_some_iff.mpr ⟨client, hclient, rfl⟩
  refine .clock fun m₃ _ => ?_
  refine licensed_wp hcall (licensed_of_bears hcall hentitled ?_ ?_)
  · exact (issueAccessToken_issued _ "" _ _ _ _ _ _ _).imp fun _ _ h => .issuing h.issuing
  · exact issueAccessToken_bears (hentitled.keeps hjson hclients) _ _ _ _ _ _ _

theorem exchangePassword_rooted (hgrant : input.grantType = .password) :
    Wp (descent env clients calls) A i
      (exchangePassword (withClients env (clients i)) draws input).run (fun _ _ => True) m := by
  refine client_wp fun client m₁ hclient => ?_
  refine .skip (validateClientSecret_silent _ _ _) fun _ m₂ => ?_
  refine .read fun m₃ _ => ?_
  refine .found fun user _ => ?_
  refine .require fun _ => ?_
  refine wp_bind_except.mpr (wp_lift.mpr fun m₄ _ hinv₄ _ => ?_)
  have hkept := Rooted.exchanging hcall hinv₄ (.verifyPassword user.id) (licensed_of_not_stores rfl)
  refine ⟨hkept.1, hkept.2, .require fun _ => ?_⟩
  refine .require fun hcontained => ?_
  have hentitled : Entitled env clients calls i (requestedScopes client input.scopes) := by
    refine ⟨i, client, .root, ?_, hcontained⟩
    rw [hcall, Request.asks, hgrant]
    exact Option.map_eq_some_iff.mpr ⟨client, hclient, rfl⟩
  refine .clock fun m₅ _ => ?_
  refine licensed_wp hcall (licensed_of_bears hcall hentitled ?_ ?_)
  · exact (issueUserGrantTokens_acts _ _ _ _ _ _).imp fun _ _ h => .issuing h
  · exact issueUserGrantTokens_bears (hentitled.keeps hjson hclients) _ _ _ _

theorem exchange_rooted :
    Wp (descent env clients calls) A i (exchange (withClients env (clients i)) draws input).run
      (fun _ _ => True) m := by
  unfold exchange
  cases hgrant : input.grantType with
  | authorizationCode => exact exchangeAuthorizationCode_rooted hjson hclients hcall hgrant
  | refreshToken => exact exchangeRefreshToken_rooted hjson hclients hcall hgrant
  | clientCredentials => exact exchangeClientCredentials_rooted hjson hclients hcall hgrant
  | password => exact exchangePassword_rooted hjson hclients hcall hgrant
  | deviceCode => exact exchangeDeviceCode_rooted hjson hclients hcall hgrant
  | other text => trivial

end Grants

/-! ### The requests a grant begins with -/

section Beginnings

variable (hjson : ∀ scopes, Registered scopes → KeepsScopes env scopes)
  (hclients : ∀ i id client, clients i id = some client → Registered client.scopes)

include hjson hclients

theorem authorize_rooted {code : String} {cmd : Authz.AuthorizationCommand}
    (hcall : calls i = .authorize code cmd) :
    Wp (descent env clients calls) A i (Authz.authorize (withClients env (clients i)) code cmd).run
      (fun _ _ => True) m := by
  refine Authz.authorize_wp (V := fun _ => True) (fun _ _ => trivial) ?_
  intro m client session now hauthorized hinv _
  have hentitled : Entitled env clients calls i (Authz.requestedScopes cmd.scope) := by
    refine ⟨i, client, .root, ?_, hauthorized.serves.scopes⟩
    rw [hcall]
    exact Option.map_eq_some_iff.mpr ⟨client, hauthorized.serves.found, rfl⟩
  refine Rooted.after hinv (.createAuthorizationCode ?_) (licensed_of_not_stores rfl)
  refine ⟨i, _, ?_, hentitled, hentitled.keeps hjson hclients⟩
  rw [hcall]
  rfl

omit hjson hclients in
theorem start_rooted {deviceCode userCode clientID : String} {asked : List String}
    (hcall : calls i = .start deviceCode userCode clientID asked) :
    Wp (descent env clients calls) A i
      (Device.start (withClients env (clients i)) deviceCode userCode clientID asked).run
      (fun _ _ => True) m := by
  refine .read fun m₁ _ => ?_
  refine .found fun client hclient => ?_
  refine .require fun _ => .require fun hcontained => ?_
  have hentitled : Entitled env clients calls i (requestedScopes client asked) := by
    refine ⟨i, client, .root, ?_, hcontained⟩
    rw [hcall]
    exact Option.map_eq_some_iff.mpr ⟨client, hclient, rfl⟩
  refine .clock fun m₂ _ => ?_
  refine wp_bind_except.mpr (wp_call trivial fun m₃ _ hinv₃ _ => ?_)
  have hbacked : Backed env clients calls (.device deviceCode)
      (marshalStrings (requestedScopes client asked)) := by
    refine ⟨i, _, ?_, hentitled, unmarshalStrings_marshalStrings _⟩
    rw [hcall]
    rfl
  exact and_assoc.mp ⟨Rooted.after hinv₃ (.saveDevice hbacked) (licensed_of_not_stores rfl), trivial, trivial⟩

theorem request_rooted :
    Wp (descent env clients calls) A i ((calls i).code (withClients env (clients i)))
      (fun _ _ => True) m := by
  cases hcall : calls i with
  | authorize code cmd => exact wp_bind.mpr ((authorize_rooted hjson hclients hcall).imp fun _ _ _ => trivial)
  | start deviceCode userCode clientID asked =>
    exact wp_bind.mpr ((start_rooted hcall).imp fun _ _ _ => trivial)
  | decide sessionID userCode action =>
    refine wp_bind.mpr ((Wp.of_acts (decide_acts _ _ _ _) stable_true ?_ trivial).imp fun _ _ _ => trivial)
    intro m l f hl hinv _ _
    have hunstored : stores l = false := by cases hl <;> rfl
    have hkept := Rooted.after (i := i) hinv (adds_of_deciding hl) (licensed_of_not_stores hunstored)
    exact ⟨hkept.1, hkept.2, trivial⟩
  | exchange draws input => exact wp_bind.mpr ((exchange_rooted hjson hclients hcall).imp fun _ _ _ => trivial)

end Beginnings

end Runs

structure Ungranted (w : World) : Prop where
  codes : w.db.authCodes = []
  refresh : w.db.refreshTokens = []
  devices : ∀ d, w.devices.device d = none
  clock : zeroTime ≤ w.now

/-- **Scopes never grow along a grant.** Every stored token belongs to a grant, and bears exactly the scopes
that were accepted when it began: within those of the client at that time, each once, and none blank. If
nothing was drawn twice it belongs to no other grant. -/
theorem scopes_of_root {ι : Type} [DecidableEq ι] {env : Env} {clients : ι → String → Option Client}
    (hjson : ∀ scopes, Registered scopes → KeepsScopes env scopes)
    (hclients : ∀ i id client, clients i id = some client → Registered client.scopes)
    (calls : ι → Request) {w : World} (hw : Ungranted w) {c : Config ι World Label Unit}
    (hrun : Reach AddsNone Unrestricted
      (Config.start w fun i => (calls i).code (withClients env (clients i))) c) :
    ∀ x ∈ c.trace, stores x.label = true → ∃ root client scopes,
      Descends env calls root x.pid ∧ (calls root).Accepts (clients root) client scopes ∧
      Bears env scopes (calls x.pid).refreshToken x.label ∧
      Registered scopes ∧ (∀ s ∈ scopes, s ∈ client.scopes) ∧
      (DrawnOnce env calls → ∀ root' client' scopes', Descends env calls root' x.pid →
        (calls root').Accepts (clients root') client' scopes' → root' = root) := by
  have hstart : (Config.start w fun i => (calls i).code (withClients env (clients i))).Safe
      (descent env clients calls) Unrestricted fun _ _ _ => True := by
    refine ⟨⟨fun r hr => ?_, fun r hr => ?_, fun d e he => ?_,
      fun x hx => absurd hx List.not_mem_nil, hw.clock⟩, fun i => ?_⟩
    · exact absurd (hw.codes ▸ hr) List.not_mem_nil
    · exact absurd (hw.refresh ▸ hr) List.not_mem_nil
    · exact nomatch (hw.devices d).symm.trans he
    · exact request_rooted hjson hclients
  have hsafe := sound descent_admits (fun _ _ _ _ _ _ _ => trivial) hstart hrun
  intro x hx hstores
  obtain ⟨scopes, ⟨root, client, hdescends, haccepts⟩, hbears⟩ := hsafe.1.stored x hx hstores
  obtain ⟨hregistered, hwithin⟩ := haccepts.registered (hclients root)
  refine ⟨root, client, scopes, hdescends, haccepts, hbears, hregistered, hwithin, ?_⟩
  intro hdrawn root' client' scopes' hdescends' haccepts'
  exact Descends.unique hdrawn hdescends' hdescends haccepts' haccepts

/-! ## A login and a refresh -/

def loginAndRefresh (b : Bool) : Request :=
  bif b then .exchange withPassword.1 withPassword.2
  else .exchange ⟨"a2", "i2", "r2"⟩ { grantType := .refreshToken, clientID := "m", refreshToken := "r" }

theorem scopes_of_root_refreshed :
    ∃ c, Reach AddsNone Unrestricted (Config.start (mailbox []) fun b =>
        (loginAndRefresh b).code (withClients (.plain [mailer]) (Env.plain [mailer]).findByClientID)) c ∧
      ∃ x ∈ c.trace, x.pid = false ∧ stores x.label = true ∧ ∃ root client scopes,
        Descends (.plain [mailer]) loginAndRefresh root x.pid ∧
        (loginAndRefresh root).Accepts (Env.plain [mailer]).findByClientID client scopes ∧
        Bears (.plain [mailer]) scopes (loginAndRefresh x.pid).refreshToken x.label := by
  obtain ⟨c, hrun, hstored⟩ := exists_played (E := AddsNone) (A := Unrestricted)
    (c := Config.start (mailbox []) fun b =>
      (loginAndRefresh b).code (withClients (.plain [mailer]) (Env.plain [mailer]).findByClientID))
    (P := fun c => c.trace.any (fun x => !x.pid && stores x.label) = true)
    [.run true, .run true, .run true, .run true, .run true, .run false, .run false]
    (by simp [Move.Allowed]) (by decide +kernel)
  obtain ⟨x, hx, hstores⟩ := List.any_eq_true.mp hstored
  simp only [Bool.and_eq_true, Bool.not_eq_true'] at hstores
  have hjson : ∀ scopes, Registered scopes → KeepsScopes (.plain [mailer]) scopes :=
    fun scopes _ => unmarshalStrings_marshalStrings scopes
  have hclients : ∀ (b : Bool) id client, (Env.plain [mailer]).findByClientID id = some client →
      Registered client.scopes := by
    intro b id client hclient
    have hclient : [mailer].find? (fun c => c.clientID = id) = some client := hclient
    obtain rfl := List.mem_singleton.mp (List.mem_of_find?_eq_some hclient)
    exact ⟨by decide, by decide +kernel, by decide⟩
  have hempty : Ungranted (mailbox []) := ⟨rfl, rfl, fun _ => rfl, by decide⟩
  obtain ⟨root, client, scopes, hdescends, haccepts, hbears, -⟩ :=
    scopes_of_root hjson hclients loginAndRefresh hempty hrun x hx hstores.2
  exact ⟨c, hrun, x, hx, hstores.1, hstores.2, root, client, scopes, hdescends, haccepts, hbears⟩

end IdpServer.Laws.Token
