import IdpServer.Go.Base64
import IdpServer.World

/-!
# Crypto.Jwt — signed tokens

`Signer` writes and verifies the compact form of a token, `JWTService` checks the claims. Key store, digest,
signature scheme and JSON codec are fields. Any failure is `none`.
-/

namespace IdpServer.Crypto

open Go

/-- A JSON value as far as the checks of claims tell values apart. A number is its `int64`, and a list holds
its texts, `none` for another element. -/
inductive Value where
  | text (s : String)
  | number (n : Int)
  | list (items : List (Option String))
  | other
  deriving DecidableEq, Repr

/-- A decoded JSON object. -/
abbrev Claims := String → Option Value

/-- The type assertion to a string, which leaves an empty one where it fails. -/
def Claims.text (claims : Claims) (key : String) : String :=
  match claims key with
  | some (.text s) => s
  | _ => ""

/-- A key pair of the key store: the public data, and the private key of the active one. -/
structure SigningKey (σ : Type) where
  kid : String
  alg : String
  privateKey : σ

/-- The keys, and the functions of the libraries. -/
structure Signer (κ σ : Type) where
  publicKeyByKID : String → Option (String × κ)
  activeSigningKey : Option (SigningKey σ)
  sum256 : String → List UInt8
  signPKCS1v15 : σ → List UInt8 → Option (List UInt8)
  verifyPKCS1v15 : κ → List UInt8 → List UInt8 → Bool
  marshal : Claims → Option (List UInt8)
  unmarshal : List UInt8 → Option Claims

def defaultJWTAlg : String := "RS256"

structure VerifiedToken where
  header : Claims
  claims : Claims
  signature : List UInt8
  signing : String

def segments (token : String) : List String := (token.toList.splitOn '.').map String.ofList

def signatureSegment (token : String) : String :=
  match segments token with
  | [_, _, p₂] => p₂
  | _ => ""

namespace Signer

variable {κ σ : Type} (s : Signer κ σ)

/-- The header `SignJWT` writes. -/
def header (key : SigningKey σ) : Claims := fun name =>
  if name = "alg" then some (.text key.alg)
  else if name = "typ" then some (.text "JWT")
  else if name = "kid" then some (.text key.kid)
  else none

def signJWT (claims : Claims) : Option String := do
  let key ← s.activeSigningKey
  guard (key.alg = defaultJWTAlg)
  let headerJSON ← s.marshal (header key)
  let claimsJSON ← s.marshal claims
  let signingInput := Base64.encodeToString headerJSON ++ "." ++ Base64.encodeToString claimsJSON
  let signature ← s.signPKCS1v15 key.privateKey (s.sum256 signingInput)
  return signingInput ++ "." ++ Base64.encodeToString signature

def verifyJWT (token : String) : Option VerifiedToken :=
  match segments token with
  | [p₀, p₁, p₂] => do
    let headerBytes ← Base64.decodeString p₀
    let claimsBytes ← Base64.decodeString p₁
    let signature ← Base64.decodeString p₂
    let header ← s.unmarshal headerBytes
    guard (header.text "alg" = defaultJWTAlg)
    guard (header.text "kid" ≠ "")
    let (alg, publicKey) ← s.publicKeyByKID (header.text "kid")
    guard (alg = header.text "alg")
    let signingInput := p₀ ++ "." ++ p₁
    guard (s.verifyPKCS1v15 publicKey (s.sum256 signingInput) signature = true)
    let claims ← s.unmarshal claimsBytes
    return ⟨header, claims, signature, signingInput⟩
  | _ => none

end Signer

/-! ## The checks of claims -/

structure ValidateOptions where
  issuer : String
  audience : String
  subject : String

def validateStringClaim (claims : Claims) (key expected : String) : Bool :=
  expected = "" || claims.text key ≠ "" && claims.text key = expected

def validateAudienceClaim (claims : Claims) (expected : String) : Bool :=
  expected = "" ||
    match claims "aud" with
    | some (.text aud) => aud = expected
    | some (.list items) => items.any (· = some expected)
    | _ => false

def claimNumberToInt64 : Value → Option Int
  | .number n => some n
  | _ => none

inductive TimeClaimMode where
  | claimMustBeFuture
  | claimMustNotBeFuture
  deriving DecidableEq

def validateUnixTimeClaim (claims : Claims) (key : String) (now : Int) (mode : TimeClaimMode) :
    Bool :=
  match claims key with
  | none => key = "nbf" || key = "iat"
  | some value =>
    match claimNumberToInt64 value, mode with
    | none, _ => false
    | some n, .claimMustBeFuture => now < n * Store.second
    | some n, .claimMustNotBeFuture => n * Store.second ≤ now

def Signer.parseAndValidate {κ σ : Type} (s : Signer κ σ) (opts : ValidateOptions) (token : String)
    (now : Int) : Option Claims := do
  let verified ← s.verifyJWT token
  guard (validateStringClaim verified.claims "iss" opts.issuer = true)
  guard (validateAudienceClaim verified.claims opts.audience = true)
  guard (validateStringClaim verified.claims "sub" opts.subject = true)
  guard (validateUnixTimeClaim verified.claims "exp" now .claimMustBeFuture = true)
  guard (validateUnixTimeClaim verified.claims "nbf" now .claimMustNotBeFuture = true)
  guard (validateUnixTimeClaim verified.claims "iat" now .claimMustNotBeFuture = true)
  return verified.claims

def int64Claim (claims : Claims) (key : String) : Int :=
  ((claims key).bind claimNumberToInt64).getD 0

def claimStringSlice (claims : Claims) (key : String) : List String :=
  match claims key with
  | some (.text v) => (nonblank v).toList
  | some (.list items) => items.filterMap fun item => item.bind nonblank
  | _ => []

/-- The claims the endpoints read. -/
def accessClaims (claims : Claims) : AccessClaims where
  iss := claims.text "iss"
  sub := claims.text "sub"
  aud := claimStringSlice claims "aud"
  exp := int64Claim claims "exp"
  iat := int64Claim claims "iat"
  nbf := int64Claim claims "nbf"
  jti := claims.text "jti"
  cid := claims.text "cid"
  scp := claimStringSlice claims "scp"

/-- The server with this signer. Both adapters of `bootstrap` pass on the issuer alone. -/
def Signer.wire {κ σ : Type} (s : Signer κ σ) (env : Env) : Env where
  __ := env
  parseAndValidate token now :=
    (s.parseAndValidate ⟨env.issuer, "", ""⟩ token now).map accessClaims

/-! ## The text of a verified token -/

/-- The signature segment is written the way the encoder writes it. -/
def Canonical (token : String) : Prop := Base64.Strict (signatureSegment token)

instance (token : String) : Decidable (Canonical token) :=
  inferInstanceAs (Decidable (Base64.Strict _))

theorem eq_of_segments {token p₀ p₁ p₂ : String} (h : segments token = [p₀, p₁, p₂]) :
    token = p₀ ++ "." ++ p₁ ++ "." ++ p₂ := by
  have hjoin : ['.'].intercalate (token.toList.splitOn '.') = token.toList :=
    List.intercalate_splitOn '.'
  have hsplit : token.toList.splitOn '.' = [p₀.toList, p₁.toList, p₂.toList] := by
    have h := congrArg (List.map String.toList) h
    simpa [segments, Function.comp_def] using h
  rw [hsplit] at hjoin
  rw [← String.toList_inj, ← hjoin]
  simp [List.intercalate, List.intersperse]

variable {κ σ : Type}

theorem verifyJWT_spec {s : Signer κ σ} {token : String} {v : VerifiedToken}
    (h : s.verifyJWT token = some v) :
    token = v.signing ++ "." ++ signatureSegment token ∧
    Base64.decodeString (signatureSegment token) = some v.signature ∧
    ∃ alg publicKey, s.publicKeyByKID (v.header.text "kid") = some (alg, publicKey) ∧
      s.verifyPKCS1v15 publicKey (s.sum256 v.signing) v.signature = true := by
  unfold Signer.verifyJWT at h
  unfold signatureSegment
  split at h
  next p₀ p₁ p₂ hsegments =>
    simp only [Option.bind_eq_bind, Option.bind_eq_some_iff, Option.guard_eq_some', Prod.exists] at h
    obtain ⟨_, _, _, _, signature, hsignature, header, _, _, _, _, _, alg, publicKey, hkey, _, _, _,
      hverify, claims, _, hv⟩ := h
    obtain rfl := Option.some.inj hv
    exact ⟨eq_of_segments hsegments, hsignature, alg, publicKey, hkey, hverify⟩
  next => cases h

theorem segments_of_dotless {p₀ p₁ p₂ : String} (h₀ : '.' ∉ p₀.toList) (h₁ : '.' ∉ p₁.toList)
    (h₂ : '.' ∉ p₂.toList) : segments (p₀ ++ "." ++ p₁ ++ "." ++ p₂) = [p₀, p₁, p₂] := by
  have hdotless : ∀ l ∈ [p₀.toList, p₁.toList, p₂.toList], '.' ∉ l := by
    simp [h₀, h₁, h₂]
  have hsplit := List.splitOn_intercalate '.' hdotless (List.cons_ne_nil _ _)
  have htext : (p₀ ++ "." ++ p₁ ++ "." ++ p₂).toList =
      ['.'].intercalate [p₀.toList, p₁.toList, p₂.toList] := by
    simp [List.intercalate, List.intersperse]
  rw [segments, htext, hsplit]
  simp

theorem dot_notMem_encodeToString (bytes : List UInt8) :
    '.' ∉ (Base64.encodeToString bytes).toList := by
  intro hdot
  have halphabet : '.' ∉ Base64.alphabet := by decide
  exact halphabet (Base64.mem_alphabet_of_mem_encodeToString hdot)

/-! ## What was signed is verified -/

/-- **A token is verified by a signer that knows its key**, with what is read of its claims: the library
reads the header it has written and verifies what it has signed. -/
theorem verifyJWT_signJWT {s s' : Signer κ σ} {claims : Claims} {token : String} {key : SigningKey σ}
    (publicKey : κ) (hkey : s.activeSigningKey = some key) (hkid : key.kid ≠ "")
    (hknown : s'.publicKeyByKID key.kid = some (key.alg, publicKey)) (hsum : s'.sum256 = s.sum256)
    (hheader : ∀ bytes, s.marshal (Signer.header key) = some bytes →
      s'.unmarshal bytes = some (Signer.header key))
    (hclaims : ∀ bytes, s.marshal claims = some bytes → (s'.unmarshal bytes).isSome = true)
    (hverify : ∀ digest signature, s.signPKCS1v15 key.privateKey digest = some signature →
      s'.verifyPKCS1v15 publicKey digest signature = true)
    (h : s.signJWT claims = some token) :
    ∃ v bytes, s'.verifyJWT token = some v ∧ s.marshal claims = some bytes ∧
      s'.unmarshal bytes = some v.claims := by
  simp only [Signer.signJWT, hkey, Option.bind_eq_bind, Option.bind_some, Option.bind_eq_some_iff,
    Option.guard_eq_some'] at h
  obtain ⟨_, halg, headerJSON, hheaderJSON, claimsJSON, hclaimsJSON, signature, hsignature, htoken⟩ := h
  obtain rfl := Option.some.inj htoken
  obtain ⟨read, hread⟩ := Option.isSome_iff_exists.mp (hclaims claimsJSON hclaimsJSON)
  have hheaderAlg : (Signer.header key).text "alg" = key.alg := rfl
  have hheaderKID : (Signer.header key).text "kid" = key.kid := rfl
  have hsigned := hverify _ _ hsignature
  rw [← hsum] at hsigned
  refine ⟨⟨Signer.header key, read, signature,
    Base64.encodeToString headerJSON ++ "." ++ Base64.encodeToString claimsJSON⟩, claimsJSON, ?_,
    hclaimsJSON, hread⟩
  simp [Signer.verifyJWT, segments_of_dotless (dot_notMem_encodeToString _)
    (dot_notMem_encodeToString _) (dot_notMem_encodeToString _), Base64.decodeString_encodeToString,
    hheader headerJSON hheaderJSON, hheaderAlg, hheaderKID, halg, hkid, hknown, hread, hsigned]

/-! ## One text for one token -/

theorem verifyJWT_reencode {s : Signer κ σ} {token token' : String} (p₀ p₁ p₂ p₃ : String)
    (h : segments token = [p₀, p₁, p₂]) (h' : segments token' = [p₀, p₁, p₃])
    (hdecode : Base64.decodeString p₃ = Base64.decodeString p₂) :
    s.verifyJWT token' = s.verifyJWT token := by
  simp only [Signer.verifyJWT, h, h', hdecode]

/-- A signature is over one digest only. The scheme compares the digest with the one that the key
recovers from the signature. -/
def Signer.Binding (s : Signer κ σ) : Prop :=
  ∀ key signature digest digest', s.verifyPKCS1v15 key digest signature = true →
    s.verifyPKCS1v15 key digest' signature = true → digest = digest'

/-- The same header, the same claims and the same signature. -/
def VerifiedToken.Same (v v' : VerifiedToken) : Prop :=
  v'.header = v.header ∧ v'.claims = v.claims ∧ v'.signature = v.signature

/-- **Two canonical texts of one token are equal.** The first two segments are signed, and only the third
can be written in more than one way. -/
theorem eq_of_verifyJWT {s : Signer κ σ} {token token' : String} {v v' : VerifiedToken}
    (hbinding : s.Binding) (hsum : s.sum256 v'.signing = s.sum256 v.signing → v'.signing = v.signing)
    (hv : s.verifyJWT token = some v) (hv' : s.verifyJWT token' = some v') (hsame : v.Same v')
    (hc : Canonical token) (hc' : Canonical token') : token' = token := by
  obtain ⟨htoken, hdecode, alg, key, hkey, hverify⟩ := verifyJWT_spec hv
  obtain ⟨htoken', hdecode', alg', key', hkey', hverify'⟩ := verifyJWT_spec hv'
  obtain ⟨hheader, _, hsignature⟩ := hsame
  rw [hheader, hkey] at hkey'
  obtain ⟨rfl, rfl⟩ := Prod.mk.inj (Option.some.inj hkey')
  rw [hsignature] at hdecode' hverify'
  have hsigning : v'.signing = v.signing := hsum (hbinding _ _ _ _ hverify' hverify)
  have hsegment : signatureSegment token' = signatureSegment token :=
    Base64.decodeString_injective hc' hc hdecode' hdecode
  rw [htoken', htoken, hsigning, hsegment, ← htoken]

end IdpServer.Crypto
