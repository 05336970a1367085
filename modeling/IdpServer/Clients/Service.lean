import IdpServer.Go.Url
import IdpServer.Persistence

/-!
# Clients.Service — the registration of clients

`CreateClient` with its checks and defaults. A positive lifetime is taken as it is, **without an upper
bound**. Texts and ids are unique under the collation.
-/

namespace IdpServer.Clients

open Go

inductive ClientError where
  | invalidClientID
  | clientIDAlreadyExists
  | invalidClientName
  | invalidClientType
  | invalidClientSecret
  | invalidAuthMethod
  | invalidGrantType
  | invalidScope
  | redirectURIRequired
  | invalidRedirectURI
  | invalidClientConfig
  | store
  deriving DecidableEq, Repr

structure CreateClientInput where
  clientID : String
  clientName : String
  clientSecret : String := ""
  clientType : String := ""
  tokenEndpointAuthMethod : String := ""
  requirePKCE : Option Bool := none
  requireConsent : Option Bool := none
  accessTokenTTLSeconds : Int := 0
  refreshTokenTTLSeconds : Int := 0
  idTokenTTLSeconds : Int := 0
  grantTypes : List String
  scopes : List String
  redirectURIs : List String := []
  postLogoutRedirectURIs : List String := []
  status : String := ""
  deriving DecidableEq, Repr

/-- `client.Model`: what the grants read of a client, and the rest of the registration. -/
structure ClientModel extends IdpServer.Client where
  clientType : String
  tokenEndpointAuthMethod : String
  authMethods : List String
  postLogoutRedirectURIs : List String
  deriving DecidableEq, Repr

/-- What the service uses. -/
structure ClientEnv where
  sqlEq : String → String → Bool
  hashPassword : String → Option String
  url : URLLibrary

/-- Text is compared as it is, and passwords are their own hashes. -/
def ClientEnv.plain : ClientEnv := ⟨fun a b => a = b, some, .plain⟩

def clientIDPattern (clientID : String) : Bool :=
  3 ≤ clientID.length && clientID.length ≤ 128 && clientID.toList.all fun c =>
    'a' ≤ c && c ≤ 'z' || 'A' ≤ c && c ≤ 'Z' || '0' ≤ c && c ≤ '9' ||
      c = '.' || c = '_' || c = ':' || c = '-'

def supportedGrantTypes : List String := ["authorization_code", "refresh_token", "client_credentials"]

def ensure (p : Prop) [Decidable p] (e : ClientError) : Except ClientError Unit :=
  if p then .ok () else .error e

theorem ensure_eq_ok {p : Prop} [Decidable p] {e : ClientError} {u : Unit} :
    ensure p e = .ok u ↔ p := by
  unfold ensure
  split <;> simp [*]

theorem bind_eq_ok {α β : Type} {x : Except ClientError α} {f : α → Except ClientError β} {b : β} :
    (x >>= f) = .ok b ↔ ∃ a, x = .ok a ∧ f a = .ok b := by
  cases x <;> simp [bind, Except.bind]

def orElse (text fallback : String) : String := if text = "" then fallback else text

def normalizeClientSettings (input : CreateClientInput) :
    Except ClientError (String × String × Bool × Bool) := do
  let clientType := orElse (toLower (trimSpace input.clientType)) "confidential"
  ensure (clientType = "confidential" ∨ clientType = "public") .invalidClientType
  let authMethod := orElse (toLower (trimSpace input.tokenEndpointAuthMethod))
    (if clientType = "public" then "none" else "client_secret_basic")
  ensure (authMethod ∈ ["client_secret_basic", "client_secret_post", "none"]) .invalidAuthMethod
  ensure (¬ (clientType = "public" ∧ authMethod ≠ "none")) .invalidClientConfig
  ensure (¬ (clientType = "confidential" ∧ authMethod = "none")) .invalidClientConfig
  let requirePKCE := input.requirePKCE.getD true
  ensure (¬ (clientType = "public" ∧ requirePKCE = false)) .invalidClientConfig
  return (clientType, authMethod, requirePKCE, input.requireConsent.getD true)

variable {input : CreateClientInput} {values : List String} {env : ClientEnv}
variable {clients clients' : List ClientModel} {client : ClientModel}

theorem normalizeClientSettings_eq_ok {clientType authMethod : String}
    {requirePKCE requireConsent : Bool}
    (h : normalizeClientSettings input = .ok (clientType, authMethod, requirePKCE, requireConsent)) :
    clientType = "public" ∧ authMethod = "none" ∨ clientType = "confidential" ∧
      (authMethod = "client_secret_basic" ∨ authMethod = "client_secret_post") := by
  simp only [normalizeClientSettings, bind_eq_ok, ensure_eq_ok] at h
  obtain ⟨_, htype, _, hmethod, _, hpublic, _, hconfidential, _, -, h⟩ := h
  obtain ⟨rfl, hrest⟩ := Prod.mk.inj (Except.ok.inj h)
  obtain ⟨rfl, -⟩ := Prod.mk.inj hrest
  simp only [List.mem_cons, List.not_mem_nil, or_false] at hmethod
  rcases htype with htype | htype
  · refine .inr ⟨htype, ?_⟩
    rcases hmethod with hbasic | hpost | hnone
    · exact .inl hbasic
    · exact .inr hpost
    · exact absurd ⟨htype, hnone⟩ hconfidential
  · exact .inl ⟨htype, Decidable.not_not.mp fun hne => hpublic ⟨htype, hne⟩⟩

def normalizeClientSecret (env : ClientEnv) (clientType authMethod secret : String) :
    Except ClientError String :=
  if clientType = "public" ∨ authMethod = "none" then
    if secret ≠ "" then .error .invalidClientSecret else .ok ""
  else if secret.utf8ByteSize < 8 ∨ 128 < secret.utf8ByteSize then .error .invalidClientSecret
  else match env.hashPassword secret with
    | none => .error .store
    | some hash => .ok hash

/-- The loop of the three checks of lists: a value is cleaned, passed over if nothing is left of it,
refused if it fails the check, and kept once. -/
def collect (clean : String → String) (accepts : String → Bool) (refused : ClientError) :
    List String → List String → Except ClientError (List String)
  | [], kept => .ok kept
  | value :: rest, kept =>
    if clean value = "" then collect clean accepts refused rest kept
    else if accepts (clean value) then
      collect clean accepts refused rest (if clean value ∈ kept then kept else kept ++ [clean value])
    else .error refused

theorem mem_of_collect {clean : String → String} {accepts : String → Bool} {refused : ClientError}
    {kept out : List String} (h : collect clean accepts refused values kept = .ok out)
    {x : String} (hx : x ∈ out) : x ∈ kept ∨ ∃ v, x = clean v := by
  induction values generalizing kept with
  | nil =>
    obtain rfl := Except.ok.inj h
    exact .inl hx
  | cons value rest ih =>
    rw [collect] at h
    split at h
    next => exact ih h
    next =>
      split at h
      next =>
        refine (ih h).elim (fun hkept => ?_) .inr
        split at hkept
        next => exact .inl hkept
        next =>
          rcases List.mem_append.mp hkept with hold | hnew
          · exact .inl hold
          · exact .inr ⟨value, List.mem_singleton.mp hnew⟩
      next => cases h

def collectSome (clean : String → String) (accepts : String → Bool) (refused missing : ClientError)
    (values : List String) : Except ClientError (List String) := do
  let kept ← collect clean accepts refused values []
  ensure (kept ≠ []) missing
  return kept

def normalizeGrantTypes (values : List String) : Except ClientError (List String) := do
  let grantTypes ← collectSome (fun v => toLower (trimSpace v)) (· ∈ supportedGrantTypes)
    .invalidGrantType .invalidGrantType values
  ensure ("refresh_token" ∈ grantTypes → "authorization_code" ∈ grantTypes) .invalidClientConfig
  return grantTypes

def normalizeScopes (values : List String) : Except ClientError (List String) :=
  collectSome trimSpace (fun v => v.utf8ByteSize ≤ 128) .invalidScope .invalidScope values

def normalizeRedirectURIs (env : ClientEnv) (values : List String) :
    Except ClientError (List String) :=
  let accepts v := v.utf8ByteSize ≤ 1024 && !contains v "#" && match env.url.parseRequestURI v with
    | none => false
    | some u => u.scheme ≠ "" && u.fragment = ""
  collectSome trimSpace accepts .invalidRedirectURI .redirectURIRequired values

theorem trimmed_of_normalizeRedirectURIs {uris : List String}
    (h : normalizeRedirectURIs env values = .ok uris) {uri : String} (huri : uri ∈ uris) :
    trimSpace uri = uri := by
  simp only [normalizeRedirectURIs, collectSome, bind_eq_ok, ensure_eq_ok] at h
  obtain ⟨kept, hkept, _, -, hall⟩ := h
  obtain rfl := Except.ok.inj hall
  obtain hnone | ⟨v, rfl⟩ := mem_of_collect hkept huri
  · cases hnone
  · exact trimSpace_trimSpace v

def normalizeClientRedirectURIs (env : ClientEnv) (values grantTypes : List String) :
    Except ClientError (List String) :=
  if "authorization_code" ∈ grantTypes then normalizeRedirectURIs env values else .ok []

def normalizeOptionalRedirectURIs (env : ClientEnv) (values : List String) :
    Except ClientError (List String) :=
  if values = [] then .ok [] else normalizeRedirectURIs env values

def normalizeTTL (value fallback : Int) : Int := if value ≤ 0 then fallback else value

def normalizeRefreshTTL (value : Int) (grantTypes : List String) : Int :=
  if "refresh_token" ∈ grantTypes then normalizeTTL value 2592000 else 0

def normalizeIDTokenTTL (value : Int) (grantTypes : List String) : Int :=
  if "authorization_code" ∈ grantTypes then normalizeTTL value 3600 else 0

def normalizeStatus (value : String) : String := orElse (toLower (trimSpace value)) "active"

/-- `CreateClient` of the repository: the stored row, or nothing where a key is taken or a number does
not fit its column. -/
def insertClient (env : ClientEnv) (clients : List ClientModel) (model : ClientModel) :
    Option (ClientModel × List ClientModel) :=
  let taken := clients.any fun c => env.sqlEq c.clientID model.clientID
  let distinct (texts : List String) := decide (texts.Pairwise fun a b => env.sqlEq a b = false)
  let fits (n : Int) := decide (n < 2 ^ 31)
  if !taken && distinct model.grantTypes && distinct model.scopes && fits model.accessTokenTTLSeconds &&
      fits model.refreshTokenTTLSeconds && fits model.idTokenTTLSeconds then
    let row := { model with id := nextID (clients.map (·.id)) }
    some (row, clients ++ [row])
  else none

def createClient (env : ClientEnv) (clients : List ClientModel) (input : CreateClientInput) :
    Except ClientError (ClientModel × List ClientModel) := do
  let clientID := trimSpace input.clientID
  let clientName := trimSpace input.clientName
  ensure (clientIDPattern clientID = true) .invalidClientID
  ensure (2 ≤ clientName.utf8ByteSize ∧ clientName.utf8ByteSize ≤ 128) .invalidClientName
  ensure (∀ c ∈ clients, env.sqlEq c.clientID clientID = false) .clientIDAlreadyExists
  let (clientType, authMethod, requirePKCE, requireConsent) ← normalizeClientSettings input
  let grantTypes ← normalizeGrantTypes input.grantTypes
  ensure (¬ (clientType ≠ "confidential" ∧ "client_credentials" ∈ grantTypes)) .invalidClientConfig
  let scopes ← normalizeScopes input.scopes
  let redirectURIs ← normalizeClientRedirectURIs env input.redirectURIs grantTypes
  let postLogoutRedirectURIs ← normalizeOptionalRedirectURIs env input.postLogoutRedirectURIs
  let secretHash ← normalizeClientSecret env clientType authMethod (trimSpace input.clientSecret)
  let model : ClientModel := {
    id := 0
    clientID := clientID
    clientName := clientName
    clientSecretHash := secretHash
    clientType := clientType
    tokenEndpointAuthMethod := authMethod
    requirePKCE := requirePKCE
    requireConsent := requireConsent
    accessTokenTTLSeconds := normalizeTTL input.accessTokenTTLSeconds 3600
    refreshTokenTTLSeconds := normalizeRefreshTTL input.refreshTokenTTLSeconds grantTypes
    idTokenTTLSeconds := normalizeIDTokenTTL input.idTokenTTLSeconds grantTypes
    status := normalizeStatus input.status
    redirectURIs := redirectURIs
    postLogoutRedirectURIs := postLogoutRedirectURIs
    grantTypes := grantTypes
    authMethods := [authMethod]
    scopes := scopes }
  match insertClient env clients model with
  | none => throw .store
  | some created => return created

structure Accepted (env : ClientEnv) (clients : List ClientModel) (input : CreateClientInput)
    (client : ClientModel) : Prop where
  id : client.id = nextID (clients.map (·.id))
  clientID : clientIDPattern client.clientID = true
  free : ∀ c ∈ clients, env.sqlEq c.clientID client.clientID = false
  grantTypes : normalizeGrantTypes input.grantTypes = .ok client.grantTypes
  scopes : normalizeScopes input.scopes = .ok client.scopes
  redirectURIs :
    normalizeClientRedirectURIs env input.redirectURIs client.grantTypes = .ok client.redirectURIs
  accessTTL : client.accessTokenTTLSeconds = normalizeTTL input.accessTokenTTLSeconds 3600
  idTTL : client.idTokenTTLSeconds = normalizeIDTokenTTL input.idTokenTTLSeconds client.grantTypes

structure Secured (env : ClientEnv) (input : CreateClientInput) (client : ClientModel) : Prop where
  clientID : client.clientID = trimSpace input.clientID
  settings : normalizeClientSettings input =
    .ok (client.clientType, client.tokenEndpointAuthMethod, client.requirePKCE, client.requireConsent)
  authMethods : client.authMethods = [client.tokenEndpointAuthMethod]
  secret : normalizeClientSecret env client.clientType client.tokenEndpointAuthMethod
    (trimSpace input.clientSecret) = .ok client.clientSecretHash
  status : client.status = normalizeStatus input.status

/-- **An accepted client** is added after the others. -/
theorem createClient_cases (h : createClient env clients input = .ok (client, clients')) :
    clients' = clients ++ [client] ∧ Accepted env clients input client ∧ Secured env input client := by
  simp only [createClient, bind_eq_ok, ensure_eq_ok] at h
  obtain ⟨_, hid, _, _, _, hfree, ⟨clientType, authMethod, requirePKCE, requireConsent⟩, hsettings, grantTypes,
    hgrants, _, _, scopes, hscopes, redirectURIs, hredirects, postLogout, _, secretHash, hsecret, hinsert⟩ := h
  split at hinsert
  next => cases hinsert
  next created hcreated =>
    obtain rfl := Except.ok.inj hinsert
    unfold insertClient at hcreated
    dsimp only at hcreated
    split at hcreated
    next =>
      obtain ⟨rfl, rfl⟩ := Prod.mk.inj (Option.some.inj hcreated)
      exact ⟨rfl, ⟨rfl, hid, hfree, hgrants, hscopes, hredirects, rfl, rfl⟩,
        ⟨by dsimp only, hsettings, by dsimp only, hsecret, by dsimp only⟩⟩
    next => cases hcreated

theorem createClient_eq_ok (h : createClient env clients input = .ok (client, clients')) :
    clients' = clients ++ [client] ∧ Accepted env clients input client :=
  ⟨(createClient_cases h).1, (createClient_cases h).2.1⟩

/-! ## Registered clients -/

/-- The clients there are, all of them made by `CreateClient`. -/
inductive Registered (env : ClientEnv) : List ClientModel → Prop
  | none : Registered env []
  | create {clients clients' : List ClientModel} {input : CreateClientInput} {client : ClientModel}
      (h : Registered env clients)
      (hcreate : createClient env clients input = .ok (client, clients')) : Registered env clients'

/-- `FindByClientID`: the first client under the collation. -/
def findClient (env : ClientEnv) (clients : List ClientModel) (clientID : String) :
    Option ClientModel :=
  clients.find? fun c => env.sqlEq c.clientID clientID

section Registered

variable {env : ClientEnv} {clients : List ClientModel}

theorem Registered.forall_created (h : Registered env clients) {P : ClientModel → Prop}
    (hP : ∀ clients clients' input client, createClient env clients input = .ok (client, clients') →
      P client) : ∀ client ∈ clients, P client := by
  induction h with
  | none => simp
  | create _ hcreate ih =>
    obtain ⟨rfl, -⟩ := createClient_eq_ok hcreate
    intro client hclient
    rcases List.mem_append.mp hclient with hclient | hclient
    · exact ih client hclient
    · rw [List.mem_singleton.mp hclient]
      exact hP _ _ _ _ hcreate

theorem Registered.forall (h : Registered env clients) {P : ClientModel → Prop}
    (hP : ∀ clients input client, Accepted env clients input client → P client) :
    ∀ client ∈ clients, P client :=
  h.forall_created fun _ _ _ _ hcreate => hP _ _ _ (createClient_eq_ok hcreate).2

theorem Registered.secured (h : Registered env clients) :
    ∀ client ∈ clients, ∃ input, Secured env input client :=
  h.forall_created fun _ _ input _ hcreate => ⟨input, (createClient_cases hcreate).2.2⟩

theorem Registered.trimmed (h : Registered env clients) :
    ∀ client ∈ clients, ∀ uri ∈ client.redirectURIs, trimSpace uri = uri := by
  refine h.forall fun _ _ client haccepted uri huri => ?_
  have huris := haccepted.redirectURIs
  rw [normalizeClientRedirectURIs] at huris
  split at huris
  next => exact trimmed_of_normalizeRedirectURIs huris huri
  next =>
    rw [← Except.ok.inj huris] at huri
    cases huri

theorem Registered.pairwise (h : Registered env clients) :
    clients.Pairwise fun a b => env.sqlEq a.clientID b.clientID = false := by
  induction h with
  | none => exact .nil
  | create _ hcreate ih =>
    obtain ⟨rfl, haccepted⟩ := createClient_eq_ok hcreate
    refine List.pairwise_append.mpr ⟨ih, List.pairwise_singleton _ _, fun a ha b hb => ?_⟩
    rw [List.mem_singleton.mp hb]
    exact haccepted.free a ha

theorem Registered.findClient_self (h : Registered env clients) (hrefl : ∀ s, env.sqlEq s s = true)
    {client : ClientModel} (hclient : client ∈ clients) :
    findClient env clients client.clientID = some client := by
  have hpairwise := h.pairwise
  clear h
  induction clients with
  | nil => cases hclient
  | cons c rest ih =>
    rw [findClient, List.find?_cons]
    rcases List.mem_cons.mp hclient with rfl | hclient
    · simp [hrefl]
    · rw [List.rel_of_pairwise_cons hpairwise hclient]
      exact ih hclient (List.Pairwise.of_cons hpairwise)

theorem Registered.eq_of_clientID (h : Registered env clients) (hrefl : ∀ s, env.sqlEq s s = true)
    {a b : ClientModel} (ha : a ∈ clients) (hb : b ∈ clients) (hid : a.clientID = b.clientID) :
    a = b := by
  have ha' := h.findClient_self hrefl ha
  rw [hid, h.findClient_self hrefl hb] at ha'
  exact (Option.some.inj ha').symm

end Registered

end IdpServer.Clients
