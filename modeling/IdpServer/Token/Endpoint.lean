import IdpServer.Clients.Service
import IdpServer.Token.Service

/-!
# Token.Endpoint — who is asking for a token

The handler in front of `Exchange`: the client authenticates by the method it was registered with, and the
exchange is told the fingerprint by which a retry of a rotation is recognised.
-/

namespace IdpServer.Token

open Conc Conc.Prog IdpServer.Cache Go IdpServer.Clients

/-- What the endpoint uses. The service looks up the same clients. -/
structure EndpointEnv extends Env where
  findClientModel : String → Option ClientModel
  decodeString : String → Option String
  findByClientID_eq : ∀ clientID, findByClientID clientID = (findClientModel clientID).map (·.toClient)

/-! ## Client authentication -/

/-- The registered `ClientAuthMethodType`s. -/
inductive ClientAuthMethod where
  | clientSecretBasic
  | clientSecretPost
  | none
  deriving DecidableEq, Repr

def ClientAuthMethod.text : ClientAuthMethod → String
  | .clientSecretBasic => "client_secret_basic"
  | .clientSecretPost => "client_secret_post"
  | .none => "none"

/-- The authenticator the registry has for a method. -/
def ClientAuthMethod.get (methodType : String) : Option ClientAuthMethod :=
  [ClientAuthMethod.clientSecretBasic, .clientSecretPost, .none].find? fun m => m.text = methodType

structure AuthenticateInput where
  authorizationHeader : String := ""
  clientID : String := ""
  clientSecret : String := ""
  deriving DecidableEq, Repr

structure AuthenticateResult where
  clientID : String
  clientSecret : String
  method : ClientAuthMethod
  deriving DecidableEq, Repr

def splitColon (text : String) : Option (String × String) :=
  if ':' ∈ text.toList then
    some (.ofList (cut ':' text.toList).1, .ofList (cut ':' text.toList).2)
  else none

def basicCredentials (decode : String → Option String) (header : String) :
    Option (String × String) :=
  if "Basic ".toList <+: header.toList then
    (decode (.ofList (header.toList.drop "Basic ".length))).bind splitColon
  else none

def extractClientID (decode : String → Option String) (header bodyClientID : String) : String :=
  match basicCredentials decode header with
  | some (clientID, _) => trimSpace clientID
  | none => trimSpace bodyClientID

def normalizeClientAuthMethod (primary : String) (fallbacks : List String) : String :=
  (((primary :: fallbacks).map fun text => toLower (trimSpace text)).find? (· ≠ "")).getD "none"

def authenticateBy (env : Env) (decode : String → Option String) (client : ClientModel)
    (input : AuthenticateInput) : ClientAuthMethod → Option AuthenticateResult
  | .clientSecretBasic =>
    if trimSpace input.clientID ≠ "" ∨ trimSpace input.clientSecret ≠ "" then none
    else (basicCredentials decode input.authorizationHeader).bind fun (user, password) =>
      if trimSpace user = "" ∨ trimSpace user ≠ client.clientID then none
      else if env.verifyPassword password client.clientSecretHash then
        some ⟨trimSpace user, password, .clientSecretBasic⟩
      else none
  | .clientSecretPost =>
    if trimSpace input.authorizationHeader ≠ "" then none
    else if trimSpace input.clientID = "" ∨ input.clientSecret = "" ∨
        trimSpace input.clientID ≠ client.clientID then none
    else if env.verifyPassword input.clientSecret client.clientSecretHash then
      some ⟨trimSpace input.clientID, input.clientSecret, .clientSecretPost⟩
    else none
  | .none =>
    if trimSpace input.authorizationHeader ≠ "" ∨ trimSpace input.clientSecret ≠ "" then none
    else if trimSpace input.clientID = "" ∨ trimSpace input.clientID ≠ client.clientID then none
    else some ⟨trimSpace input.clientID, "", .none⟩

def authenticate (e : EndpointEnv) (input : AuthenticateInput) :
    Service TokenError AuthenticateResult := do
  let clientID := extractClientID e.decodeString input.authorizationHeader input.clientID
  require (clientID ≠ "") .invalidClient
  let client ← call .store (Prog.read fun _ => e.findClientModel clientID)
  let client ← found client .invalidClient
  require (client.status = "active") .invalidClient
  let method ← found (ClientAuthMethod.get
    (normalizeClientAuthMethod client.tokenEndpointAuthMethod client.authMethods)) .invalidClient
  let result ← found (authenticateBy e.toEnv e.decodeString client input method) .invalidClient
  require (trimSpace result.clientID ≠ "") .invalidClient
  require (result.clientID = client.clientID) .invalidClient
  return result

/-! ## The handler -/

/-- `TokenRequest`, with what the handler reads of the connection. -/
structure TokenRequest where
  grantType : String
  code : String := ""
  redirectURI : String := ""
  refreshToken : String := ""
  deviceCode : String := ""
  clientID : String := ""
  clientSecret : String := ""
  codeVerifier : String := ""
  username : String := ""
  password : String := ""
  scope : String := ""
  authorizationHeader : String := ""
  clientIP : String := ""
  userAgent : String := ""

/-- The grant a text names. -/
def GrantType.ofText (text : String) : GrantType :=
  ([GrantType.authorizationCode, .refreshToken, .clientCredentials, .password, .deviceCode].find?
    fun g => g.text = text).getD (.other text)

def TokenRequest.Valid (r : TokenRequest) : Prop :=
  match GrantType.ofText r.grantType with
  | .authorizationCode => trimSpace r.code ≠ "" ∧ trimSpace r.redirectURI ≠ ""
  | .refreshToken => trimSpace r.refreshToken ≠ ""
  | .clientCredentials => True
  | .password => trimSpace r.username ≠ "" ∧ r.password ≠ ""
  | .deviceCode => trimSpace r.deviceCode ≠ ""
  | .other _ => False

instance (r : TokenRequest) : Decidable r.Valid := by
  unfold TokenRequest.Valid; split <;> infer_instance

def TokenRequest.scopeList (r : TokenRequest) : List String :=
  if trimSpace r.scope = "" then [] else fields r.scope

def fingerprintText (clientID authMethod clientIP userAgent : String) : String :=
  clientID ++ "|" ++ authMethod ++ "|" ++ clientIP ++ "|" ++ userAgent

def buildRefreshReplayFingerprint (env : Env) (clientID authMethod clientIP userAgent : String) :
    String :=
  env.sha256Hex (fingerprintText clientID authMethod clientIP userAgent)

def TokenRequest.exchangeInput (env : Env) (r : TokenRequest) (auth : AuthenticateResult) :
    ExchangeInput where
  grantType := GrantType.ofText r.grantType
  clientID := auth.clientID
  clientSecret := auth.clientSecret
  replayFingerprint :=
    buildRefreshReplayFingerprint env auth.clientID auth.method.text r.clientIP r.userAgent
  code := r.code
  redirectURI := r.redirectURI
  codeVerifier := r.codeVerifier
  refreshToken := r.refreshToken
  deviceCode := r.deviceCode
  username := r.username
  password := r.password
  scopes := r.scopeList

/-- The errors of the endpoint. -/
inductive EndpointError where
  | invalidRequest
  | token (e : TokenError)
  deriving DecidableEq, Repr

def handle (e : EndpointEnv) (draws : Draws) (r : TokenRequest) :
    Service EndpointError ExchangeResult := do
  require r.Valid .invalidRequest
  let auth ← adapt .token
    (authenticate e ⟨r.authorizationHeader, r.clientID, r.clientSecret⟩)
  adapt .token (exchange e.toEnv draws (r.exchangeInput e.toEnv auth))

end IdpServer.Token
