import IdpServer.Go.Base64
import IdpServer.Persistence

/-!
# Security.SecretCodec — TOTP secrets as they are stored

Without a codec the repository stores secrets as they are. With one it stores a marked text of nonce and
sealed secret, and takes a text without the mark for a secret of old times. The cipher is a parameter.
-/

namespace IdpServer.Security

open Go

/-- An authenticated cipher under one key. -/
structure AEAD where
  nonceSize : Nat
  sealWith : List UInt8 → String → List UInt8
  openWith : List UInt8 → List UInt8 → Option String

inductive SecretError where
  | generateNonce
  | decodePayload
  | payloadLength
  | decryptPayload
  deriving DecidableEq, Repr

def secretEncPrefix : String := "enc:v1:"

/-- `Encrypt`, with the nonce that the generator gives. -/
def encrypt (c : AEAD) (nonce : Option (List UInt8)) (plaintext : String) : Except SecretError String :=
  match nonblank plaintext, nonce with
  | none, _ => .ok ""
  | some _, none => .error .generateNonce
  | some text, some nonce =>
    .ok (secretEncPrefix ++ Base64.encodeToString (nonce ++ c.sealWith nonce text))

def decrypt (c : AEAD) (value : String) : Except SecretError String :=
  match nonblank value with
  | none => .ok ""
  | some value =>
    if hasPrefix value secretEncPrefix = false then .ok value
    else
      match Base64.decodeString (.ofList (value.toList.drop secretEncPrefix.length)) with
      | none => .error .decodePayload
      | some payload =>
        if payload.length ≤ c.nonceSize then .error .payloadLength
        else
          match c.openWith (payload.take c.nonceSize) (payload.drop c.nonceSize) with
          | none => .error .decryptPayload
          | some text => .ok text

/-! ## The repository -/

def findByUserID (codec : Option AEAD) (db : Database) (userID : Int) :
    Except SecretError (Option TOTPCredential) :=
  match db.findTOTP userID, codec with
  | none, _ => .ok none
  | some row, none => .ok (some row)
  | some row, some c => (decrypt c row.secret).map fun secret => some { row with secret := secret }

def upsert (codec : Option AEAD) (nonce : Option (List UInt8)) (db : Database) (t : TOTPCredential) :
    Except SecretError Database :=
  match codec with
  | none => .ok (db.upsertTOTP t)
  | some c => (encrypt c nonce t.secret).map fun secret => db.upsertTOTP { t with secret := secret }

def deleteByUserID (db : Database) (userID : Int) : Database :=
  { db with totps := db.totps.filter (·.userID ≠ userID) }

end IdpServer.Security
