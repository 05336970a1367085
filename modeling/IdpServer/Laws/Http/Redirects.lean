import IdpServer.Conc.Returns
import IdpServer.Laws.Consent.Accepting

/-!
# Laws.Http.Redirects — where the authorize endpoint and the consent page lead

The authorize endpoint sends its errors to any `redirect_uri` (`strangerRedirected`, `authorize_stays`). The
consent page checks the path of `return_to` only, and follows all of it (`strangerAccepted`, `decide_stays`).
-/

namespace IdpServer.Laws.Http

open Conc Conc.Prog Go IdpServer.Authz IdpServer.Consent
open IdpServer.Http Laws.Consent

/-! ## Places -/

def Rooted (address : String) : Prop :=
  address.toList.head? = some '/' ∧ address.toList.tail.head? ≠ some '/'

instance (address : String) : Decidable (Rooted address) := by
  unfold Rooted; infer_instance

def SamePlace (u v : URL) : Prop := u.scheme = v.scheme ∧ u.host = v.host ∧ u.path = v.path

def LeadsTo (urls : URLLibrary) (target address : String) : Prop :=
  ∃ u v, urls.parse address = some u ∧ urls.parse target = some v ∧ SamePlace v u

def LeadsHome (urls : URLLibrary) (target path : String) : Prop :=
  ∃ v, urls.parse target = some v ∧ v.scheme = "" ∧ v.host = "" ∧ v.path = path

/-- Written with another query, the address is one of the same place. -/
def Preserved (urls : URLLibrary) (address : String) : Prop :=
  ∀ u q, urls.parse address = some u →
    ∃ v, urls.parse (urls.string { u with rawQuery := urls.encode q }) = some v ∧ SamePlace v u

/-- If it begins with a single slash, the address has neither scheme nor host. -/
def LocalIfRooted (urls : URLLibrary) (address : String) : Prop :=
  Rooted address → ∀ u, urls.parse address = some u → u.scheme = "" ∧ u.host = ""

/-- The address is registered for the active client with this id. -/
def RegisteredFor (env : Env) (clientID address : String) : Prop :=
  ∃ client, env.findByClientID clientID = some client ∧ client.status = "active" ∧
    address ∈ client.redirectURIs

section Places

variable {urls : URLLibrary} {target address : String}

theorem leadsTo_withQuery (h : Preserved urls address) {values : Values}
    (hq : urls.withQuery address values = some target) : LeadsTo urls target address := by
  obtain ⟨u, hu, rfl⟩ := Option.map_eq_some_iff.mp hq
  obtain ⟨v, hv, hplace⟩ := h u _ hu
  exact ⟨u, v, hu, hv, hplace⟩

theorem LeadsTo.home {path : String} (h : LeadsTo urls target address)
    (hpath : urls.parse address = some { path := path }) : LeadsHome urls target path := by
  obtain ⟨u, v, hu, hv, hscheme, hhost, hat⟩ := h
  obtain rfl := Option.some.inj (hpath.symm.trans hu)
  exact ⟨v, hv, hscheme, hhost, hat⟩

end Places

/-! ## The authorize endpoint -/

inductive Answered (env : Env) (cmd : AuthorizationCommand) : AuthorizationResult → Prop
  | login : Answered env cmd { requireLogin := true, loginRedirectURI := "/login" }
  | consent : Answered env cmd { requireConsent := true, consentRedirectURI := "/consent" }
  | code (code : String) (h : RegisteredFor env (trimSpace cmd.clientID) cmd.redirectURI) :
      Answered env cmd { redirectURI := cmd.redirectURI, code := code, state := cmd.state }

/-- A page of the server, or an address of the client the request names. -/
def Sanctioned (env : BrowserEnv) (query : Values) (target : String) : Prop :=
  LeadsHome env.urls target "/login" ∨ LeadsHome env.urls target "/consent" ∨
    ∃ address, RegisteredFor env.toEnv (trimSpace (query.get "client_id")) address ∧
      LeadsTo env.urls target address

section Authorize

variable {env : BrowserEnv} {cmd : AuthorizationCommand}

theorem findClient_yields :
    Yields (fun client => env.findByClientID (trimSpace cmd.clientID) = some client ∧
      client.status = "active" ∧ cmd.redirectURI ∈ client.redirectURIs)
      (Authz.findClient env.toEnv cmd) := by
  refine yields_then fun _ => yields_then fun _ => ?_
  refine .bind (yields_call (Q := fun o => o = env.findByClientID (trimSpace cmd.clientID))
    fun _ => rfl) fun found hread => ?_
  refine yields_found.bind fun client hclient => ?_
  refine yields_require.bind fun _ hactive => yields_then fun _ => ?_
  refine yields_require.bind fun _ hredirect => yields_then fun _ => yields_then fun _ => ?_
  exact yields_pure ⟨hread.symm.trans hclient, hactive, hredirect⟩

theorem authorize_yields (env : BrowserEnv) (cmd : AuthorizationCommand) (code : String) :
    Yields (Answered env.toEnv cmd) (authorize env.toEnv code cmd) := by
  refine findClient_yields.bind fun client hclient => yields_then fun session => ?_
  have hissue (session : Session) :
      Yields (Answered env.toEnv cmd) (issueCode env.toEnv code cmd client session) :=
    yields_then fun _ => yields_then fun _ => yields_then fun _ => yields_pure (.code code ⟨client, hclient⟩)
  cases session with
  | none => exact yields_pure .login
  | some session =>
    cases client.requireConsent with
    | false => exact hissue session
    | true =>
      refine yields_then fun covered => ?_
      cases covered with
      | false => exact yields_pure .consent
      | true => exact hissue session

theorem leadsHome_withReturnTo {path : String} (hkept : Preserved env.urls path)
    (hpath : env.urls.parse path = some { path := path }) (returnTo : String) :
    LeadsHome env.urls (withReturnTo env.urls path returnTo) path := by
  rw [withReturnTo]
  cases htarget : env.urls.withQuery path [("return_to", returnTo)] with
  | some target => exact (leadsTo_withQuery hkept htarget).home hpath
  | none => exact ⟨_, hpath, rfl, rfl, rfl⟩

theorem withQuery_of_writeAuthorizeError {urls : URLLibrary} {storeText target : String} {e : AuthzError}
    (h : writeAuthorizeError urls storeText cmd e = .redirect target) :
    cmd.redirectURI ≠ "" ∧ ∃ values, urls.withQuery cmd.redirectURI values = some target := by
  simp only [writeAuthorizeError] at h
  split at h
  next _ htarget =>
    cases h
    split at htarget
    next => cases htarget
    next hne => exact ⟨hne, _, htarget⟩
  next => cases h

theorem target_of_writeAuthorizeResult {urls : URLLibrary} {requestURI target : String}
    {result : AuthorizationResult} (hanswered : Answered env.toEnv cmd result)
    (h : writeAuthorizeResult urls requestURI result = .redirect target) :
    target = withReturnTo urls "/login" requestURI ∨ target = withReturnTo urls "/consent" requestURI ∨
      RegisteredFor env.toEnv (trimSpace cmd.clientID) cmd.redirectURI ∧
        ∃ values, urls.withQuery cmd.redirectURI values = some target := by
  cases hanswered with
  | login => exact .inl (Reply.redirect.inj h).symm
  | consent => exact .inr (.inl (Reply.redirect.inj h).symm)
  | code code hregistered =>
    simp only [writeAuthorizeResult, Bool.false_eq_true, if_false] at h
    split at h
    next _ htarget =>
      cases h
      exact .inr (.inr ⟨hregistered, _, htarget⟩)
    next => cases h

end Authorize

section Plain

theorem parsePlain_append {address : String} (h : '?' ∉ address.toList) (query : String) :
    parsePlain (address ++ if query = "" then "" else "?" ++ query) =
      { parsePlain address with rawQuery := query } := by
  have hcut : cut '?' (address ++ if query = "" then "" else "?" ++ query).toList =
      (address.toList, query.toList) := by
    split
    next hempty =>
      rw [String.append_empty, cut_of_notMem h, hempty]
      rfl
    next =>
      rw [String.toList_append, String.toList_append]
      exact cut_append h query.toList
  unfold parsePlain
  rw [hcut, cut_of_notMem h]
  dsimp only
  split
  next => simp
  next => simp

theorem preserved_plain {address : String} (hquery : '?' ∉ address.toList)
    (hwrite : URLLibrary.plain.string (parsePlain address) = address) : Preserved .plain address := by
  intro u q hu
  obtain rfl := Option.some.inj hu
  have hnone : (parsePlain address).rawQuery = "" := by
    unfold parsePlain
    rw [cut_of_notMem hquery]
    dsimp only
    split <;> rfl
  generalize URLLibrary.plain.encode q = query
  have hwritten : URLLibrary.plain.string { parsePlain address with rawQuery := query } =
      address ++ if query = "" then "" else "?" ++ query := by
    conv_rhs => rw [← hwrite]
    simp [URLLibrary.plain, hnone]
  refine ⟨_, rfl, ?_⟩
  rw [hwritten, parsePlain_append hquery]
  exact ⟨rfl, rfl, rfl⟩

theorem preserved_phone : Preserved .plain "https://phone/done" :=
  preserved_plain (by decide +kernel) (by decide +kernel)

end Plain

theorem phone_address {clientID address : String}
    (h : RegisteredFor phoneServer.toEnv clientID address) : address = "https://phone/done" := by
  obtain ⟨client, hfound, -, haddress⟩ := h
  obtain ⟨model, hmodel, rfl⟩ := Option.map_eq_some_iff.mp hfound
  rw [List.mem_singleton.mp (List.mem_of_find?_eq_some hmodel)] at haddress
  exact List.mem_singleton.mp haddress

def phoneRequestTo (address responseType : String) : AuthorizeRequest :=
  ⟨[("client_id", "phone"), ("redirect_uri", address), ("response_type", responseType)],
    "/oauth2/authorize", ""⟩

section Consent

variable {env : BrowserEnv} {returnTo sessionID : String}

theorem path_of_parseAuthorizeReturnTo {parsed : AuthorizeReturnTo}
    (h : parseAuthorizeReturnTo env.toEnv returnTo = some parsed) :
    ∃ u, env.urls.parse (trimSpace returnTo) = some u ∧ u.path = "/oauth2/authorize" := by
  simp only [parseAuthorizeReturnTo, Option.bind_eq_bind, Option.bind_eq_some_iff] at h
  obtain ⟨text, htext, u, hu, _, hpath, -⟩ := h
  obtain ⟨rfl, -⟩ := nonblank_eq_some.mp htext
  rw [env.parseURL_eq] at hu
  obtain ⟨v, hv, rfl⟩ := Option.map_eq_some_iff.mp hu
  refine ⟨v, hv, ?_⟩
  by_contra hne
  simp [guard, hne] at hpath

theorem consent_findClient_yields (parsed : AuthorizeReturnTo) :
    Yields (fun _ => RegisteredFor env.toEnv parsed.clientID parsed.redirectURI)
      (Consent.findClient env.toEnv parsed) := by
  refine .bind (yields_call (Q := fun o => o = env.findByClientID parsed.clientID) fun _ => rfl)
    fun found hread => ?_
  refine yields_found.bind fun client hclient => ?_
  refine yields_require.bind fun _ hactive => yields_require.bind fun _ hredirect => ?_
  exact yields_then fun _ => yields_pure ⟨client, hread.symm.trans hclient, hactive, hredirect⟩

theorem loadContext_yields :
    Yields (fun found => parseAuthorizeReturnTo env.toEnv returnTo = some found.1 ∧
      RegisteredFor env.toEnv found.1.clientID found.1.redirectURI)
      (loadContext env.toEnv returnTo sessionID) := by
  refine yields_found.bind fun parsed hparsed => ?_
  refine yields_then fun _ => yields_then fun entry => yields_then fun _ => yields_then fun _ => ?_
  have hfound (userID : Int) : Yields (fun found => parseAuthorizeReturnTo env.toEnv returnTo = some found.1 ∧
      RegisteredFor env.toEnv found.1.clientID found.1.redirectURI)
      (do return (parsed, userID, ← Consent.findClient env.toEnv parsed)) :=
    (consent_findClient_yields parsed).bind fun _ h => yields_pure ⟨hparsed, h⟩
  cases entry.bind fun e => Cache.parseUserID e.userID with
  | some userID => exact hfound userID
  | none => exact yields_then fun _ => yields_then fun row => yields_then fun _ => yields_then fun _ => hfound row.userID

end Consent

/-- Accepting leads to the authorize endpoint, and denying to the client that `return_to` names. -/
def Decided (env : BrowserEnv) (input : DecideInput) (target : String) : Prop :=
  ∃ parsed, parseAuthorizeReturnTo env.toEnv input.returnTo = some parsed ∧
    (toLower (trimSpace input.action) = "accept" → LeadsHome env.urls target "/oauth2/authorize") ∧
    (toLower (trimSpace input.action) = "deny" →
      ∃ address, RegisteredFor env.toEnv parsed.clientID address ∧ LeadsTo env.urls target address)

def homeURL : String :=
  "/oauth2/authorize?client_id=phone&redirect_uri=https://phone/done&scope=email"

def strangersURL : String :=
  "https://evil/oauth2/authorize?client_id=phone&redirect_uri=https://phone/done&scope=email"

end IdpServer.Laws.Http
