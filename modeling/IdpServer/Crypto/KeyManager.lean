import Mathlib.Data.List.AList
import Mathlib.Data.List.Sort
import IdpServer.Crypto.Jwk
import IdpServer.Crypto.Jwt

/-!
# Crypto.KeyManager — the signing keys

The table of key records, one of them active, and the registry that a process loads from it. A private key is
a file. Any failure of the loader is `none`.
-/

namespace IdpServer.Crypto

open Go

/-! ## Records -/

/-- `persistence.JWKKeyRecord`. An empty reference is that of a record without one. -/
structure JWKKeyRecord where
  id : Int := 0
  kid : String
  kty : String
  alg : String
  useType : String
  publicJWKJSON : String
  privateKeyRef : String
  isActive : Bool
  createdAt : Int
  rotatesAt : Option Int
  deactivatedAt : Option Int := none
  deriving DecidableEq, Repr

namespace JWKKeyRecord

def current (now : Int) (r : JWKKeyRecord) : Bool :=
  match r.deactivatedAt with
  | none => true
  | some t => wholeSeconds now < t

def Precedes (a b : JWKKeyRecord) : Prop :=
  if a.isActive ≠ b.isActive then a.isActive = true
  else if a.createdAt ≠ b.createdAt then b.createdAt < a.createdAt
  else b.id ≤ a.id

instance : DecidableRel Precedes := fun a b => by unfold Precedes; infer_instance

def deactivate (retiresExistingAt : Int) (r : JWKKeyRecord) : JWKKeyRecord :=
  if r.isActive then
    { r with
      isActive := false
      deactivatedAt := match r.deactivatedAt with
        | none => some (dateTime retiresExistingAt)
        | some t => if retiresExistingAt < t then some (dateTime retiresExistingAt) else some t }
  else r

end JWKKeyRecord

def listCurrent (records : List JWKKeyRecord) (now : Int) : List JWKKeyRecord :=
  (records.filter (·.current now)).insertionSort JWKKeyRecord.Precedes

/-- `CreateActiveKey`: the replaced record and the new one are one transaction, and a kid that is
taken undoes both. -/
def createActiveKey (sqlEq : String → String → Bool) (jsonColumn : String → String)
    (records : List JWKKeyRecord) (record : JWKKeyRecord) (retiresExistingAt : Int) :
    Bool × List JWKKeyRecord :=
  if records.any fun r => sqlEq r.kid record.kid then (false, records)
  else
    let row := { record with
      id := nextID (records.map (·.id))
      publicJWKJSON := jsonColumn record.publicJWKJSON
      isActive := true
      createdAt := dateTime record.createdAt
      rotatesAt := record.rotatesAt.map dateTime
      deactivatedAt := none }
    (true, records.map (·.deactivate retiresExistingAt) ++ [row])

def findActiveKey (records : List JWKKeyRecord) : Option JWKKeyRecord := records.find? (·.isActive)

/-! ## The registry -/

structure ManagedKey (σ : Type) where
  kid : String
  alg : String
  useType : String
  privateKey : Option σ
  publicKey : Option PublicKey

structure KeyManager (σ : Type) where
  activeKID : String
  keys : AList fun _ : String => ManagedKey σ

def defaultKeyUse : String := "sig"

namespace KeyManager

variable {σ : Type} (m : KeyManager σ)

def new : KeyManager σ := ⟨"", ∅⟩

def orDefault (text fallback : String) : String := if text = "" then fallback else text

/-- `AddRSAKey`. The first key becomes the active one. -/
def addRSAKey (publicKey : σ → PublicKey) (kid : String) (privateKey : σ) (alg useType : String)
    (makeActive : Bool) : Option (KeyManager σ) :=
  if kid = "" then none
  else some {
    activeKID := if makeActive = true ∨ m.activeKID = "" then kid else m.activeKID
    keys := m.keys.insert kid {
      kid := kid
      alg := orDefault alg defaultJWTAlg
      useType := orDefault useType defaultKeyUse
      privateKey := some privateKey
      publicKey := some (publicKey privateKey) } }

/-- `AddRSAPublicKey`. A private key that is there already stays. -/
def addRSAPublicKey (kid : String) (publicKey : PublicKey) (alg useType : String) :
    Option (KeyManager σ) :=
  if kid = "" then none
  else some { m with
    keys := m.keys.insert kid {
      kid := kid
      alg := orDefault alg defaultJWTAlg
      useType := orDefault useType defaultKeyUse
      privateKey := (m.keys.lookup kid).bind (·.privateKey)
      publicKey := some publicKey } }

def replaceWith (_m other : KeyManager σ) : KeyManager σ := ⟨other.activeKID, other.keys⟩

def activeSigningKey : Option (ManagedKey σ × σ) :=
  if m.activeKID = "" then none
  else (m.keys.lookup m.activeKID).bind fun k => k.privateKey.map fun s => (k, s)

def publicKeyByKID (kid : String) : Option (ManagedKey σ × PublicKey) :=
  (m.keys.lookup kid).bind fun k => k.publicKey.map fun p => (k, p)

def publicJWKS : List JSONWebKey :=
  (m.keys.keys.insertionSort (· ≤ ·)).filterMap fun kid =>
    (m.publicKeyByKID kid).map fun (k, p) => publicJWK k.kid p k.alg k.useType

end KeyManager

/-! ## Loading -/

section Loading

variable {σ : Type} (lib : KeyLibrary σ)

abbrev Files := String → Option String

def refToEnvName (scheme ref : String) : String :=
  toUpper scheme ++ "_" ++ String.ofList ((toUpper (trimSpace ref)).toList.map fun c =>
    if c = '/' ∨ c = '-' ∨ c = '.' ∨ c = ':' then '_' else c)

def resolvePath (path workingDir : String) : String :=
  if lib.isAbs path then path else lib.join workingDir path

def envContent (name : String) : Option String :=
  if trimSpace (lib.getenv name) = "" then none else some (lib.getenv name)

def afterScheme (scheme ref : String) : Option String :=
  if scheme.toList <+: ref.toList then some (String.ofList (ref.toList.drop scheme.length)) else none

theorem afterScheme_append (scheme rest : String) : afterScheme scheme (scheme ++ rest) = some rest := by
  have hdrop : (scheme ++ rest).toList.drop scheme.length = rest.toList := by
    rw [String.toList_append, ← String.length_toList, List.drop_left]
  rw [afterScheme, if_pos (by simp), hdrop, String.ofList_toList]

def resolvePrivateKeyRef (files : Files) (ref workingDir : String) : Option String :=
  let ref := trimSpace ref
  match afterScheme "file://" ref, afterScheme "env://" ref, afterScheme "vault://" ref,
    afterScheme "kms://" ref with
  | some path, _, _, _ => files (resolvePath lib path workingDir)
  | _, some name, _, _ => envContent lib name
  | _, _, some name, _ => envContent lib (refToEnvName "vault" name)
  | _, _, _, some name => envContent lib (refToEnvName "kms" name)
  | _, _, _, _ => files (resolvePath lib ref workingDir)

def loadRSAPrivateKey (files : Files) (ref workingDir : String) : Option σ :=
  (resolvePrivateKeyRef lib files ref workingDir).bind lib.decodePEM

/-- One turn of the loop of `LoadKeyManagerFromRepository`. The flag is that an active private key was
loaded. -/
def loadRecord (files : Files) (workingDir : String) (state : KeyManager σ × Bool)
    (record : JWKKeyRecord) : Option (KeyManager σ × Bool) := do
  let publicKey ← parseRSAPublicJWK lib record.publicJWKJSON
  let manager ← state.1.addRSAPublicKey record.kid publicKey record.alg record.useType
  if trimSpace record.privateKeyRef = "" then
    return (manager, state.2)
  else
    match loadRSAPrivateKey lib files record.privateKeyRef workingDir with
    | none => if record.isActive then none else some (manager, state.2)
    | some privateKey =>
      let manager ← manager.addRSAKey lib.publicKey record.kid privateKey record.alg record.useType
        record.isActive
      return (manager, state.2 || record.isActive)

/-- `LoadKeyManagerFromRepository`, of the records and the files. -/
def loadKeyManager (files : Files) (workingDir : String) (records : List JWKKeyRecord) :
    Option (KeyManager σ) := do
  let (manager, activePrivateLoaded) ← records.foldlM (loadRecord lib files workingDir) (.new, false)
  guard (activePrivateLoaded = true)
  return manager

end Loading

end IdpServer.Crypto
