import IdpServer.Conc.Eval
import IdpServer.Token.Endpoint
import Mathlib.Logic.Equiv.Basic

/-!
# Laws.Clients.Authentication — clients and their secrets

A client gets through by its registered method only (`authenticated_as_registered`). The way back is narrower
(`presented_iff`): a `Basic` header is cut at the first colon, and ids may have one.
-/

namespace IdpServer.Laws.Clients

open Conc Conc.Prog Go IdpServer.Clients IdpServer.Token

/-! ## The service -/

section Service

variable {e : EndpointEnv} {client : ClientModel} {input : AuthenticateInput}
  {result : AuthenticateResult} {w : World}

structure Authenticates (e : EndpointEnv) (input : AuthenticateInput) (client : ClientModel)
    (result : AuthenticateResult) : Prop where
  named : extractClientID e.decodeString input.authorizationHeader input.clientID ≠ ""
  found : e.findClientModel (extractClientID e.decodeString input.authorizationHeader input.clientID) =
    some client
  active : client.status = "active"
  method : ∃ method, ClientAuthMethod.get
      (normalizeClientAuthMethod client.tokenEndpointAuthMethod client.authMethods) = some method ∧
    authenticateBy e.toEnv e.decodeString client input method = some result
  present : trimSpace result.clientID ≠ ""
  same : result.clientID = client.clientID

theorem authenticate_eq_some :
    outcome (authenticate e input) w = some result ↔ ∃ client, Authenticates e input client result := by
  simp only [authenticate, outcome_require, outcome_ask, outcome_found, outcome_pure,
    Option.ite_none_right_eq_some, Option.bind_eq_some_iff, Option.some.injEq]
  constructor
  · rintro ⟨hnamed, client, hfound, hactive, method, hmethod, _, hby, hpresent, hsame, rfl⟩
    exact ⟨client, hnamed, hfound, hactive, ⟨method, hmethod, hby⟩, hpresent, hsame⟩
  · rintro ⟨client, hnamed, hfound, hactive, ⟨method, hmethod, hby⟩, hpresent, hsame⟩
    exact ⟨hnamed, client, hfound, hactive, method, hmethod, result, hby, hpresent, hsame, rfl⟩

/-- The id and the secret that stand where the method reads them are the client's own. -/
def Verified (e : EndpointEnv) (input : AuthenticateInput) (client : ClientModel) :
    ClientAuthMethod → Prop
  | .clientSecretBasic => ∃ user password,
    basicCredentials e.decodeString input.authorizationHeader = some (user, password) ∧
      trimSpace user = client.clientID ∧ e.verifyPassword password client.clientSecretHash = true
  | .clientSecretPost => trimSpace input.clientID = client.clientID ∧
    e.verifyPassword input.clientSecret client.clientSecretHash = true
  | .none => False

theorem authenticateBy_cases {method : ClientAuthMethod}
    (h : authenticateBy e.toEnv e.decodeString client input method = some result) :
    result.method = method ∧ (method ≠ .none → Verified e input client method) := by
  cases method with
  | clientSecretBasic =>
    simp only [authenticateBy, Option.ite_none_left_eq_some, Option.bind_eq_some_iff, Prod.exists,
      Option.ite_none_right_eq_some] at h
    obtain ⟨-, user, password, hbasic, huser, hverify, hresult⟩ := h
    obtain rfl := Option.some.inj hresult
    rw [not_or, Decidable.not_not] at huser
    exact ⟨rfl, fun _ => ⟨user, password, hbasic, huser.2, hverify⟩⟩
  | clientSecretPost =>
    simp only [authenticateBy, Option.ite_none_left_eq_some, Option.ite_none_right_eq_some] at h
    obtain ⟨-, hform, hverify, hresult⟩ := h
    obtain rfl := Option.some.inj hresult
    rw [not_or, not_or, Decidable.not_not] at hform
    exact ⟨rfl, fun _ => ⟨hform.2.2, hverify⟩⟩
  | none =>
    simp only [authenticateBy, Option.ite_none_left_eq_some] at h
    obtain rfl := Option.some.inj h.2.2
    exact ⟨rfl, fun hne => absurd rfl hne⟩

end Service

/-! ## Registered clients -/

section Registered

variable {e : EndpointEnv} {cenv : ClientEnv} {clients : List ClientModel} {client : ClientModel}
  {given : CreateClientInput}

theorem get_text (method : ClientAuthMethod) :
    ClientAuthMethod.get (normalizeClientAuthMethod method.text [method.text]) = some method := by
  cases method <;> decide +kernel

theorem method_of_secured (h : Secured cenv given client) :
    ∃ method : ClientAuthMethod, client.tokenEndpointAuthMethod = method.text ∧
      ClientAuthMethod.get (normalizeClientAuthMethod client.tokenEndpointAuthMethod client.authMethods) =
        some method ∧
      (client.clientType = "confidential" → method ≠ .none) := by
  have hget : ∀ method : ClientAuthMethod, client.tokenEndpointAuthMethod = method.text →
      ClientAuthMethod.get
        (normalizeClientAuthMethod client.tokenEndpointAuthMethod client.authMethods) = some method := by
    intro method hmethod
    rw [h.authMethods, hmethod]
    exact get_text method
  rcases normalizeClientSettings_eq_ok h.settings with ⟨htype, hnone⟩ | ⟨-, hbasic | hpost⟩
  · refine ⟨.none, hnone, hget .none hnone, fun hconfidential => ?_⟩
    rw [htype] at hconfidential
    exact absurd hconfidential (by decide)
  · exact ⟨.clientSecretBasic, hbasic, hget .clientSecretBasic hbasic, fun _ => nofun⟩
  · exact ⟨.clientSecretPost, hpost, hget .clientSecretPost hpost, fun _ => nofun⟩

/-- **Authentication cannot be downgraded or confused.** It succeeds for one registered client, by its
registered method, and for a confidential client with its own secret in the place that the method reads. -/
theorem authenticated_as_registered (e : EndpointEnv) (cenv : ClientEnv)
    (hregistered : Registered cenv clients)
    (hlookup : ∀ clientID, e.findClientModel clientID = Clients.findClient cenv clients clientID)
    (hrefl : ∀ s, cenv.sqlEq s s = true) (input : AuthenticateInput) (w : World)
    {result : AuthenticateResult} (h : outcome (authenticate e input) w = some result) :
    ∃ client ∈ clients, client.clientID = result.clientID ∧
      (∀ other ∈ clients, other.clientID = result.clientID → other = client) ∧
      result.method.text = client.tokenEndpointAuthMethod ∧
      (client.clientType = "confidential" → Verified e input client result.method) := by
  obtain ⟨client, hclient⟩ := authenticate_eq_some.mp h
  obtain ⟨method, hmethod, hby⟩ := hclient.method
  have hfound := hclient.found
  rw [hlookup, Clients.findClient] at hfound
  have hmem := List.mem_of_find?_eq_some hfound
  obtain ⟨given, hsecured⟩ := hregistered.secured client hmem
  obtain ⟨registered, htext, hget, hsecret⟩ := method_of_secured hsecured
  obtain rfl := Option.some.inj (hmethod.symm.trans hget)
  obtain ⟨hused, hverified⟩ := authenticateBy_cases hby
  refine ⟨client, hmem, hclient.same.symm, fun other hother hid => ?_, ?_, fun hconfidential => ?_⟩
  · exact hregistered.eq_of_clientID hrefl hother hmem (hid.trans hclient.same)
  · rw [hused, htext]
  · rw [hused]
    exact hverified (hsecret hconfidential)

end Registered

/-! ## The way back -/

section Presenting

variable {decode : String → Option String} {encode : String → String}

theorem mem_of_mem_trimSpace {c : Char} {s : String} (h : c ∈ (trimSpace s).toList) : c ∈ s.toList := by
  rw [trimSpace, String.toList_ofList] at h
  exact (List.dropWhile_sublist _).subset ((List.rdropWhile_prefix _ _).subset h)

theorem splitColon_append {user : String} (h : ':' ∉ user.toList) (password : String) :
    splitColon (user ++ ":" ++ password) = some (user, password) := by
  have hlist : (user ++ ":" ++ password).toList = user.toList ++ ':' :: password.toList := by
    simp [String.toList_append]
  rw [splitColon, hlist, if_pos (by simp), cut_append h, String.ofList_toList, String.ofList_toList]

theorem notMem_splitColon {text user password : String} (h : splitColon text = some (user, password)) :
    ':' ∉ user.toList := by
  unfold splitColon at h
  split at h
  next =>
    obtain ⟨rfl, -⟩ := Prod.mk.inj (Option.some.inj h)
    rw [String.toList_ofList]
    exact notMem_cut _ _
  next => cases h

theorem basicCredentials_encoded (hencode : ∀ text, decode (encode text) = some text) (text : String) :
    basicCredentials decode ("Basic " ++ encode text) = splitColon text := by
  have hlist : ("Basic " ++ encode text).toList = "Basic ".toList ++ (encode text).toList :=
    String.toList_append
  have hdrop : ("Basic ".toList ++ (encode text).toList).drop "Basic ".length = (encode text).toList :=
    List.drop_left
  rw [basicCredentials, hlist, if_pos (List.prefix_append _ _), hdrop, String.ofList_toList, hencode]
  rfl

/-- The id and a secret, where the method reads them. -/
def presented (encode : String → String) (method clientID secret : String) : AuthenticateInput :=
  if method = "client_secret_post" then { clientID := clientID, clientSecret := secret }
  else { authorizationHeader := "Basic " ++ encode (clientID ++ ":" ++ secret) }

/-- Authentication succeeds for exactly this client. -/
def SucceedsFor (e : EndpointEnv) (input : AuthenticateInput) (client : ClientModel) (w : World) : Prop :=
  ∃ result, outcome (authenticate e input) w = some result ∧ result.clientID = client.clientID

end Presenting

section Presenting

variable {e : EndpointEnv} {cenv : ClientEnv} {clients : List ClientModel} {client : ClientModel}
  {given : CreateClientInput} {encode : String → String}

theorem verifyPassword_iff (hpasswords : ∀ text hash, cenv.hashPassword text = some hash →
      ∀ s, e.verifyPassword s hash = true ↔ s = text)
    (hsecured : Secured cenv given client) (hconfidential : client.clientType = "confidential") :
    trimSpace given.clientSecret ≠ "" ∧ ∀ secret,
      (e.verifyPassword secret client.clientSecretHash = true ↔ secret = trimSpace given.clientSecret) := by
  obtain ⟨method, htext, -, hmethod⟩ := method_of_secured hsecured
  have hsecret := hsecured.secret
  have hnone : ¬ (client.clientType = "public" ∨ client.tokenEndpointAuthMethod = "none") := by
    rw [hconfidential, htext]
    have hmethod := hmethod hconfidential
    revert hmethod
    cases method <;> decide
  rw [normalizeClientSecret, if_neg hnone] at hsecret
  split at hsecret
  next => cases hsecret
  next hsize =>
    split at hsecret
    next => cases hsecret
    next hash hhash =>
      rw [← Except.ok.inj hsecret]
      refine ⟨fun hempty => hsize (.inl ?_), hpasswords _ _ hhash⟩
      rw [hempty]
      decide

theorem clientID_of_created {before after : List ClientModel}
    (hcreate : createClient cenv before given = .ok (client, after)) :
    trimSpace client.clientID = client.clientID ∧ client.clientID ≠ "" := by
  obtain ⟨-, haccepted, hsecured⟩ := createClient_cases hcreate
  constructor
  · rw [hsecured.clientID, trimSpace_trimSpace]
  · intro hempty
    have hpattern := haccepted.clientID
    rw [hempty] at hpattern
    revert hpattern
    decide

theorem presented_cases (hsecured : Secured cenv given client)
    (hconfidential : client.clientType = "confidential") (encode : String → String) (secret : String) :
    client.tokenEndpointAuthMethod = "client_secret_basic" ∧
        presented encode client.tokenEndpointAuthMethod client.clientID secret =
          { authorizationHeader := "Basic " ++ encode (client.clientID ++ ":" ++ secret) } ∨
      client.tokenEndpointAuthMethod = "client_secret_post" ∧
        presented encode client.tokenEndpointAuthMethod client.clientID secret =
          { clientID := client.clientID, clientSecret := secret } := by
  rcases normalizeClientSettings_eq_ok hsecured.settings with ⟨htype, -⟩ | ⟨-, hbasic | hpost⟩
  · rw [hconfidential] at htype
    exact absurd htype (by decide)
  · exact .inl ⟨hbasic, by rw [presented, hbasic, if_neg (by decide)]⟩
  · exact .inr ⟨hpost, by rw [presented, hpost, if_pos rfl]⟩

variable {before after : List ClientModel} {secret : String} {w : World}
  (hencode : ∀ text, e.decodeString (encode text) = some text)
  (hpasswords : ∀ text hash, cenv.hashPassword text = some hash →
    ∀ s, e.verifyPassword s hash = true ↔ s = text)
  (hrefl : ∀ s, cenv.sqlEq s s = true) (hregistered : Registered cenv clients)
  (hlookup : ∀ clientID, e.findClientModel clientID = Clients.findClient cenv clients clientID)
  (hcreate : createClient cenv before given = .ok (client, after)) (hmem : client ∈ clients)
  (hconfidential : client.clientType = "confidential")

include hencode hpasswords hrefl hregistered hlookup hcreate hmem hconfidential

theorem succeedsFor_presented (hactive : client.status = "active")
    (hcolon : client.tokenEndpointAuthMethod = "client_secret_basic" → ':' ∉ client.clientID.toList) :
    SucceedsFor e (presented encode client.tokenEndpointAuthMethod client.clientID
      (trimSpace given.clientSecret)) client w := by
  obtain ⟨-, -, hsecured⟩ := createClient_cases hcreate
  obtain ⟨htrim, hblank⟩ := clientID_of_created hcreate
  obtain ⟨hsecret, hverify⟩ := verifyPassword_iff hpasswords hsecured hconfidential
  have hfound := (hlookup _).trans (hregistered.findClient_self hrefl hmem)
  have hget (method : ClientAuthMethod) (htext : client.tokenEndpointAuthMethod = method.text) :
      ClientAuthMethod.get
        (normalizeClientAuthMethod client.tokenEndpointAuthMethod client.authMethods) = some method := by
    rw [hsecured.authMethods, htext]
    exact get_text method
  rcases presented_cases hsecured hconfidential encode (trimSpace given.clientSecret) with
    ⟨hbasic, heq⟩ | ⟨hpost, heq⟩ <;> rw [heq]
  · have hheader : basicCredentials e.decodeString ("Basic " ++ encode (client.clientID ++ ":" ++
        trimSpace given.clientSecret)) = some (client.clientID, trimSpace given.clientSecret) := by
      rw [basicCredentials_encoded hencode, splitColon_append (hcolon hbasic)]
    have hid : ∀ body, extractClientID e.decodeString ("Basic " ++ encode (client.clientID ++ ":" ++
        trimSpace given.clientSecret)) body = client.clientID := by
      intro body
      simp only [extractClientID, hheader, htrim]
    refine ⟨⟨client.clientID, trimSpace given.clientSecret, .clientSecretBasic⟩,
      authenticate_eq_some.mpr ⟨client, ?_⟩, rfl⟩
    refine ⟨(hid _).trans_ne hblank, (congrArg _ (hid _)).trans hfound, hactive,
      ⟨.clientSecretBasic, hget _ hbasic, ?_⟩, htrim.trans_ne hblank, rfl⟩
    simp [authenticateBy, hheader, htrim, hblank, hverify, show trimSpace "" = "" by decide]
  · have hid : extractClientID e.decodeString "" client.clientID = client.clientID := by
      have hnone : basicCredentials e.decodeString "" = none := if_neg (by decide)
      simp only [extractClientID, hnone, htrim]
    refine ⟨⟨client.clientID, trimSpace given.clientSecret, .clientSecretPost⟩,
      authenticate_eq_some.mpr ⟨client, ?_⟩, rfl⟩
    refine ⟨hid.trans_ne hblank, (congrArg _ hid).trans hfound, hactive,
      ⟨.clientSecretPost, hget _ hpost, ?_⟩, htrim.trans_ne hblank, rfl⟩
    simp [authenticateBy, htrim, hblank, hsecret, hverify, show trimSpace "" = "" by decide]

theorem registered_of_succeedsFor
    (h : SucceedsFor e (presented encode client.tokenEndpointAuthMethod client.clientID secret) client w) :
    client.status = "active" ∧ secret = trimSpace given.clientSecret ∧
      (client.tokenEndpointAuthMethod = "client_secret_basic" → ':' ∉ client.clientID.toList) := by
  obtain ⟨-, -, hsecured⟩ := createClient_cases hcreate
  obtain ⟨result, houtcome, hid⟩ := h
  obtain ⟨found, hfound⟩ := authenticate_eq_some.mp houtcome
  have hmem' : found ∈ clients := by
    have hfind := hfound.found
    rw [hlookup, Clients.findClient] at hfind
    exact List.mem_of_find?_eq_some hfind
  obtain rfl := hregistered.eq_of_clientID hrefl hmem' hmem (hfound.same.symm.trans hid)
  obtain ⟨method, hmethod, hby⟩ := hfound.method
  obtain ⟨registered, htext, hget, hsecret⟩ := method_of_secured hsecured
  obtain rfl := Option.some.inj (hmethod.symm.trans hget)
  have hverified := (authenticateBy_cases hby).2 (hsecret hconfidential)
  refine ⟨hfound.active, ?_⟩
  rcases presented_cases hsecured hconfidential encode secret with ⟨hbasic, heq⟩ | ⟨hpost, heq⟩ <;>
    rw [heq] at hverified
  · obtain rfl : method = .clientSecretBasic := by
      revert htext
      rw [hbasic]
      cases method <;> decide
    obtain ⟨user, password, hheader, huser, hverify⟩ := hverified
    rw [basicCredentials_encoded hencode] at hheader
    -- The id that was verified stands before the first colon.
    have hcolon : ':' ∉ found.clientID.toList := fun hc =>
      notMem_splitColon hheader (mem_of_mem_trimSpace (huser ▸ hc))
    rw [splitColon_append hcolon] at hheader
    obtain ⟨rfl, rfl⟩ := Prod.mk.inj (Option.some.inj hheader)
    exact ⟨((verifyPassword_iff hpasswords hsecured hconfidential).2 _).mp hverify, fun _ => hcolon⟩
  · obtain rfl : method = .clientSecretPost := by
      revert htext
      rw [hpost]
      cases method <;> decide
    refine ⟨((verifyPassword_iff hpasswords hsecured hconfidential).2 _).mp hverified.2, fun hbasic => ?_⟩
    rw [hpost] at hbasic
    exact absurd hbasic (by decide)

/-- **Who gets in with a secret**: an active client, with the trimmed secret of its registration, and
without a colon in an id in the header. -/
theorem presented_iff :
    SucceedsFor e (presented encode client.tokenEndpointAuthMethod client.clientID secret) client w ↔
      client.status = "active" ∧ secret = trimSpace given.clientSecret ∧
        (client.tokenEndpointAuthMethod = "client_secret_basic" → ':' ∉ client.clientID.toList) := by
  constructor
  · exact registered_of_succeedsFor hencode hpasswords hrefl hregistered hlookup hcreate hmem hconfidential
  · rintro ⟨hactive, rfl, hcolon⟩
    exact succeedsFor_presented hencode hpasswords hrefl hregistered hlookup hcreate hmem hconfidential
      hactive hcolon

/-- **A registered confidential client can authenticate** with its id and secret, if it is active and its id
can stand in a header. -/
theorem registered_authenticates (w : World) (hactive : normalizeStatus given.status = "active")
    (hcolon : client.tokenEndpointAuthMethod = "client_secret_basic" →
      ':' ∉ (trimSpace given.clientID).toList) :
    SucceedsFor e (presented encode client.tokenEndpointAuthMethod (trimSpace given.clientID)
      (trimSpace given.clientSecret)) client w := by
  obtain ⟨-, -, hsecured⟩ := createClient_cases hcreate
  rw [← hsecured.clientID] at hcolon ⊢
  rw [← hsecured.status] at hactive
  exact (presented_iff hencode hpasswords hrefl hregistered hlookup hcreate hmem hconfidential).mpr
    ⟨hactive, rfl, hcolon⟩

end Presenting

/-! ## Servers that present their secret -/

def server : CreateClientInput where
  clientID := "server"
  clientName := "Server"
  clientSecret := "secret-one"
  grantTypes := ["client_credentials"]
  scopes := ["email"]

def serverModel : ClientModel where
  id := 1
  clientID := "server"
  clientName := "Server"
  clientSecretHash := "secret-one"
  requirePKCE := true
  requireConsent := true
  accessTokenTTLSeconds := 3600
  refreshTokenTTLSeconds := 0
  idTokenTTLSeconds := 0
  status := "active"
  redirectURIs := []
  grantTypes := ["client_credentials"]
  scopes := ["email"]
  clientType := "confidential"
  tokenEndpointAuthMethod := "client_secret_basic"
  authMethods := ["client_secret_basic"]
  postLogoutRedirectURIs := []

theorem server_created : createClient .plain [] server = .ok (serverModel, [serverModel]) := by
  decide +kernel

def encoded : String ≃ String := Equiv.swap "server:secret-one" "c2VydmVyOnNlY3JldC1vbmU="

def endpointOf (client : ClientModel) : EndpointEnv where
  toEnv := { Env.plain [] with
    findByClientID := fun clientID => (Clients.findClient .plain [client] clientID).map (·.toClient) }
  findClientModel := Clients.findClient .plain [client]
  decodeString text := some (encoded.symm text)
  findByClientID_eq _ := rfl

theorem decode_encoded (client : ClientModel) (text : String) :
    (endpointOf client).decodeString (encoded text) = some text :=
  congrArg some (encoded.symm_apply_apply text)

theorem plain_passwords (client : ClientModel) (text hash : String)
    (h : ClientEnv.plain.hashPassword text = some hash) (s : String) :
    (endpointOf client).verifyPassword s hash = true ↔ s = text := by
  obtain rfl := Option.some.inj h
  exact decide_eq_true_iff

theorem plain_refl (s : String) : ClientEnv.plain.sqlEq s s = true := decide_eq_true rfl

theorem server_authenticates :
    presented encoded serverModel.tokenEndpointAuthMethod (trimSpace server.clientID)
        (trimSpace server.clientSecret) =
      { authorizationHeader := "Basic c2VydmVyOnNlY3JldC1vbmU=" } ∧
    SucceedsFor (endpointOf serverModel) (presented encoded serverModel.tokenEndpointAuthMethod
      (trimSpace server.clientID) (trimSpace server.clientSecret)) serverModel (.empty 0) := by
  refine ⟨by decide +kernel, ?_⟩
  exact registered_authenticates (decode_encoded serverModel) (plain_passwords serverModel) plain_refl
    (.create .none server_created) (fun _ => rfl) server_created List.mem_cons_self rfl _
    (by decide +kernel) (fun _ => by decide +kernel)

theorem server_by_header :
    ∃ client ∈ [serverModel], client.clientID = "server" ∧
      (∀ other ∈ [serverModel], other.clientID = "server" → other = client) ∧
      ClientAuthMethod.clientSecretBasic.text = client.tokenEndpointAuthMethod ∧
      (client.clientType = "confidential" → Verified (endpointOf serverModel)
        { authorizationHeader := "Basic c2VydmVyOnNlY3JldC1vbmU=" } client .clientSecretBasic) := by
  have h : outcome (authenticate (endpointOf serverModel)
      { authorizationHeader := "Basic c2VydmVyOnNlY3JldC1vbmU=" }) (.empty 0) =
    some ⟨"server", "secret-one", .clientSecretBasic⟩ := by decide +kernel
  exact authenticated_as_registered (endpointOf serverModel) .plain (.create .none server_created)
    (fun _ => rfl) plain_refl _ _ h

def Unusable (given : CreateClientInput) (client : ClientModel) : Prop :=
  createClient .plain [] given = .ok (client, [client]) ∧ client.clientType = "confidential" ∧
    ¬ SucceedsFor (endpointOf client) (presented encoded client.tokenEndpointAuthMethod
      (trimSpace given.clientID) given.clientSecret) client (.empty 0)

theorem unusable {given : CreateClientInput} {client : ClientModel}
    (hcreate : createClient .plain [] given = .ok (client, [client]))
    (hconfidential : client.clientType = "confidential")
    (hrefused : ¬ (client.status = "active" ∧ given.clientSecret = trimSpace given.clientSecret ∧
      (client.tokenEndpointAuthMethod = "client_secret_basic" → ':' ∉ client.clientID.toList))) :
    Unusable given client := by
  refine ⟨hcreate, hconfidential, fun h => hrefused ?_⟩
  rw [← (createClient_cases hcreate).2.2.clientID] at h
  exact (presented_iff (decode_encoded client) (plain_passwords client) plain_refl (.create .none hcreate)
    (fun _ => rfl) hcreate List.mem_cons_self hconfidential).mp h

/-- A server that is registered as disabled, one whose secret ends with a blank, and one with a colon in
its id. -/
theorem servers_refused :
    Unusable { server with status := "disabled" } { serverModel with status := "disabled" } ∧
      Unusable { server with clientSecret := "secret-one " } serverModel ∧
      Unusable { server with clientID := "server:one" } { serverModel with clientID := "server:one" } := by
  refine ⟨unusable (by decide +kernel) rfl ?_, unusable (by decide +kernel) rfl ?_,
    unusable (by decide +kernel) rfl ?_⟩ <;> decide +kernel

end IdpServer.Laws.Clients
