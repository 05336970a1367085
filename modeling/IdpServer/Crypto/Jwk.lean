import Mathlib.Data.Nat.Digits.Lemmas
import IdpServer.Go.Base64
import IdpServer.Go.Text

/-!
# Crypto.Jwk — public keys as JSON

`buildPublicJWKJSON` writes a public key and `parseRSAPublicJWK` reads it back. The JSON and PEM codecs and
`path/filepath` are fields of `KeyLibrary`.
-/

namespace IdpServer.Crypto

open Go

structure PublicKey where
  n : Nat
  e : Int
  deriving DecidableEq, Repr

/-- `JSONWebKey`, which is `jwkDocument` with other tags. -/
structure JSONWebKey where
  kty : String
  kid : String
  useType : String
  alg : String
  n : String
  e : String
  deriving DecidableEq, Repr

/-- What the keys need of the libraries; `σ` are the private keys. -/
structure KeyLibrary (σ : Type) where
  marshal : JSONWebKey → String
  unmarshal : String → Option JSONWebKey
  jsonColumn : String → String
  publicKey : σ → PublicKey
  encodePEM : σ → Option String
  decodePEM : String → Option σ
  getenv : String → String
  isAbs : String → Bool
  join : String → String → String
  rel : String → String → Option String

/-! ## Numbers -/

/-- `Bytes` of a `big.Int`. -/
def bytes (n : Nat) : List UInt8 := (Nat.digits 256 n).reverse.map UInt8.ofNat

/-- `SetBytes` of a `big.Int`. -/
def setBytes (bs : List UInt8) : Nat := bs.foldl (fun n b => 256 * n + b.toNat) 0

def bigEndianExponentBytes (value : Int) : List UInt8 :=
  if value = 0 then [0] else bytes value.toNat

def exponent (bs : List UInt8) : Int :=
  (bs.foldl (fun (e : BitVec 64) b => e <<< 8 ||| BitVec.ofNat 64 b.toNat) 0#64).toInt

theorem setBytes_bytes (n : Nat) : setBytes (bytes n) = n := by
  have hdigit : ∀ d ∈ Nat.digits 256 n, (UInt8.ofNat d).toNat = d := fun d hd =>
    Nat.mod_eq_of_lt (Nat.digits_lt_base (by decide) hd)
  have hfold : ∀ ds : List Nat, (∀ d ∈ ds, (UInt8.ofNat d).toNat = d) →
      setBytes (ds.reverse.map UInt8.ofNat) = Nat.ofDigits 256 ds := by
    intro ds hds
    induction ds with
    | nil => rfl
    | cons d ds ih =>
      obtain ⟨hd, hds⟩ := List.forall_mem_cons.mp hds
      have ih := ih hds
      simp only [setBytes, List.reverse_cons, List.map_append, List.foldl_append, List.map_cons,
        List.map_nil, List.foldl_cons, List.foldl_nil, hd, Nat.ofDigits_cons] at ih ⊢
      omega
  rw [bytes, hfold _ hdigit, Nat.ofDigits_digits]

theorem shiftLeft_or_byte (n : Nat) (b : UInt8) :
    BitVec.ofNat 64 n <<< 8 ||| BitVec.ofNat 64 b.toNat = BitVec.ofNat 64 (256 * n + b.toNat) := by
  have hor : 256 * n + b.toNat = n <<< 8 ||| b.toNat := by
    rw [← Nat.shiftLeft_add_eq_or_of_lt (UInt8.toNat_lt b), Nat.shiftLeft_eq]
    omega
  apply BitVec.eq_of_toNat_eq
  simp only [BitVec.toNat_or, BitVec.toNat_shiftLeft, BitVec.toNat_ofNat, hor, Nat.or_mod_two_pow,
    Nat.shiftLeft_eq, Nat.mod_mul_mod]

theorem exponent_eq (bs : List UInt8) : exponent bs = (BitVec.ofNat 64 (setBytes bs)).toInt := by
  have hfold : ∀ n : Nat, bs.foldl (fun (e : BitVec 64) b => e <<< 8 ||| BitVec.ofNat 64 b.toNat)
      (BitVec.ofNat 64 n) = BitVec.ofNat 64 (bs.foldl (fun n b => 256 * n + b.toNat) n) := by
    induction bs with
    | nil => exact fun _ => rfl
    | cons b bs ih =>
      intro n
      rw [List.foldl_cons, List.foldl_cons, shiftLeft_or_byte, ih]
  exact congrArg BitVec.toInt (hfold 0)

theorem exponent_bigEndianExponentBytes {e : Int} (hpos : 0 < e) (hmax : e < 2 ^ 63) :
    exponent (bigEndianExponentBytes e) = e := by
  obtain ⟨n, rfl⟩ := Int.eq_ofNat_of_zero_le (Int.le_of_lt hpos)
  rw [bigEndianExponentBytes, if_neg (by omega), exponent_eq, setBytes_bytes, Int.toNat_natCast,
    BitVec.toInt_eq_toNat_of_lt]
  · rw [BitVec.toNat_ofNat, Nat.mod_eq_of_lt (by omega)]
  · rw [BitVec.toNat_ofNat, Nat.mod_eq_of_lt (by omega)]
    omega

theorem bigEndianExponentBytes_ne_nil {e : Int} (hpos : 0 < e) (hmax : e < 2 ^ 63) :
    bigEndianExponentBytes e ≠ [] := by
  intro h
  have := exponent_bigEndianExponentBytes hpos hmax
  rw [h] at this
  exact absurd this.symm (Int.ne_of_gt hpos)

/-! ## Keys -/

section Keys

variable {σ : Type} (lib : KeyLibrary σ)

def publicJWK (kid : String) (key : PublicKey) (alg useType : String) : JSONWebKey where
  kty := "RSA"
  kid := kid
  useType := useType
  alg := alg
  n := Base64.encodeToString (bytes key.n)
  e := Base64.encodeToString (bigEndianExponentBytes key.e)

def buildPublicJWKJSON (kid : String) (key : PublicKey) (alg useType : String) : String :=
  lib.marshal (publicJWK kid key alg useType)

def parseRSAPublicJWK (raw : String) : Option PublicKey := do
  let jwk ← lib.unmarshal raw
  guard (toUpper (trimSpace jwk.kty) = "RSA")
  let modulusBytes ← Base64.decodeString jwk.n
  let exponentBytes ← Base64.decodeString jwk.e
  guard (exponentBytes ≠ [])
  guard (exponent exponentBytes ≠ 0)
  return ⟨setBytes modulusBytes, exponent exponentBytes⟩

/-- **A published key is read back** from any text that the codec reads as its published form. -/
theorem parseRSAPublicJWK_publicJWK {raw kid alg useType : String} {key : PublicKey}
    (hcodec : lib.unmarshal raw = some (publicJWK kid key alg useType))
    (hpos : 0 < key.e) (hmax : key.e < 2 ^ 63) : parseRSAPublicJWK lib raw = some key := by
  have hkty : toUpper (trimSpace "RSA") = "RSA" := by decide +kernel
  have hexponent := exponent_bigEndianExponentBytes hpos hmax
  simp only [parseRSAPublicJWK, hcodec, publicJWK, Option.bind_eq_bind,
    Option.bind_some, hkty, Base64.decodeString_encodeToString, setBytes_bytes, hexponent]
  simp [bigEndianExponentBytes_ne_nil hpos hmax, Int.ne_of_gt hpos]

end Keys

end IdpServer.Crypto
