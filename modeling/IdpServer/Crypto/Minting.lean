import IdpServer.Crypto.Rotation
import IdpServer.Token.Service

/-!
# Crypto.Minting — tokens out of the registry

The claims of both kinds of token, and the signing of a token by a process, which uses **the registry of its
last reload**.
-/

namespace IdpServer.Crypto

open Conc Conc.Prog Go Store

def Claims.ofList (members : List (String × Value)) : Claims := fun name => members.lookup name

/-- A list of texts. -/
def Value.texts (items : List String) : Value := .list (items.map some)

def accessObject (c : AccessClaims) : Claims :=
  .ofList [("iss", .text c.iss), ("sub", .text c.sub), ("aud", .texts c.aud), ("exp", .number c.exp),
    ("iat", .number c.iat), ("nbf", .number c.nbf), ("jti", .text c.jti), ("cid", .text c.cid),
    ("scp", .texts c.scp)]

def idObject (c : IDClaims) : Claims :=
  .ofList <| [("iss", .text c.iss), ("sub", .text c.sub), ("aud", .text c.aud), ("exp", .number c.exp),
    ("iat", .number c.iat), ("auth_time", .number c.authTime), ("jti", .text c.jti),
    ("azp", .text c.azp), ("name", .text c.name), ("preferred_username", .text c.preferredUsername),
    ("email", .text c.email), ("email_verified", .other)] ++
    (c.nonce.map fun nonce => ("nonce", .text nonce)).toList

/-- The functions of the libraries that sign and verify. -/
structure JWTLibrary (σ : Type) where
  sum256 : String → List UInt8
  signPKCS1v15 : σ → List UInt8 → Option (List UInt8)
  verifyPKCS1v15 : PublicKey → List UInt8 → List UInt8 → Bool
  marshal : Claims → Option (List UInt8)
  unmarshal : List UInt8 → Option Claims

/-- `NewSigner` of a registry. -/
def KeyManager.signer {σ : Type} (lib : JWTLibrary σ) (m : KeyManager σ) : Signer PublicKey σ where
  publicKeyByKID kid := (m.publicKeyByKID kid).map fun (k, key) => (k.alg, key)
  activeSigningKey := m.activeSigningKey.map fun (k, key) => ⟨k.kid, k.alg, key⟩
  sum256 := lib.sum256
  signPKCS1v15 := lib.signPKCS1v15
  verifyPKCS1v15 := lib.verifyPKCS1v15
  marshal := lib.marshal
  unmarshal := lib.unmarshal

/-- A token to be made for a client. -/
inductive TokenRequest where
  | access (sub jti : String) (scopes : List String)
  | id (user : User) (code : AuthorizationCode) (jti : String)

namespace TokenRequest

/-- How long the token is valid, in seconds. -/
def ttl (client : Client) : TokenRequest → Int
  | .access .. => client.accessTokenTTLSeconds
  | .id .. => Token.idTokenTTLSeconds client

/-- Its expiry in Unix time. -/
def exp (client : Client) (now : Int) (r : TokenRequest) : Int := unix (now + r.ttl client * second)

/-- Its claims. -/
def claims (env : Env) (client : Client) (now : Int) : TokenRequest → Claims
  | .access sub jti scopes => accessObject (Token.accessClaims env client sub jti scopes now)
  | .id user code jti => idObject (Token.idClaims env client user code now jti)

end TokenRequest

/-- A token, with its expiry. -/
structure Minted where
  token : String
  exp : Int
  deriving DecidableEq, Repr

section Minting

variable {σ : Type} (keys : KeyEnv σ) (workingDir : String)

/-- `LoadKeyManagerFromRepository` at this moment. -/
def KeyWorld.load (w : KeyWorld) : Option (KeyManager σ) :=
  loadKeyManager keys.toKeyLibrary w.files workingDir (listCurrent w.records w.now)

def mintToken (lib : JWTLibrary σ) (env : Env) (client : Client) (request : TokenRequest) :
    KeyService Minted := do
  let load : KeyService (Option (KeyManager σ)) :=
    liftM (Prog.read fun w : KeyWorld => w.load keys workingDir : Prog KeyWorld KeyLabel _)
  let loaded ← load
  let now ← (liftM (Prog.read (·.now) : Prog KeyWorld KeyLabel Int) : KeyService Int)
  -- a reload that fails leaves the registry as it is
  let reloaded ← load
  let between ← (liftM (flip : Prog KeyWorld KeyLabel Bool) : KeyService Bool)
  let manager ← found (if between then reloaded <|> loaded else loaded) .store
  let token ← found ((manager.signer lib).signJWT (request.claims env client now)) .sign
  let _ ← (liftM (Prog.update (.signJWT manager.activeKID) id : Prog KeyWorld KeyLabel Unit) :
    KeyService Unit)
  return ⟨token, request.exp client now⟩

end Minting

end IdpServer.Crypto
