import IdpServer.Crypto.Rotation

/-!
# Laws.Crypto.Exponents — the exponent of a published key

The exponent is written byte by byte (`exponentLoop_eq`), and read into 64 bits by a loop over any number of
bytes (`overflownExponent`). It is exact if the number fits (`jwk_exact`).
-/

namespace IdpServer.Laws.Crypto

open IdpServer.Crypto Go

def exponentLoop (value : Nat) (out : List UInt8) : List UInt8 :=
  if value > 0 then exponentLoop (value >>> 8) (UInt8.ofNat (value &&& 0xff) :: out) else out
termination_by value
decreasing_by
  rw [Nat.shiftRight_eq_div_pow]
  exact Nat.div_lt_self (by omega) (by decide)

theorem exponentLoop_digits (value : Nat) (out : List UInt8) :
    exponentLoop value out = bytes value ++ out := by
  induction value using Nat.strong_induction_on generalizing out with
  | _ value ih =>
    rw [exponentLoop]
    split
    next hpos =>
      have hless : value / 256 < value := Nat.div_lt_self hpos (by decide)
      have hmask : value &&& 0xff = value % 256 := Nat.and_two_pow_sub_one_eq_mod value 8
      have hdigits : Nat.digits 256 value = value % 256 :: Nat.digits 256 (value / 256) :=
        Nat.digits_def' (by decide) hpos
      have hbytes : bytes value = bytes (value / 256) ++ [UInt8.ofNat (value % 256)] := by
        rw [bytes, bytes, hdigits, List.reverse_cons, List.map_append]
        rfl
      rw [hmask, Nat.shiftRight_eq_div_pow, ih _ hless, hbytes, List.append_assoc]
      rfl
    next hzero =>
      obtain rfl : value = 0 := by omega
      simp [bytes]

theorem exponentLoop_eq (value : Int) :
    bigEndianExponentBytes value = if value = 0 then [0] else exponentLoop value.toNat [] := by
  rw [exponentLoop_digits, List.append_nil]
  rfl

theorem exponent_eq_setBytes_iff (bs : List UInt8) :
    exponent bs = setBytes bs ↔ setBytes bs < 2 ^ 63 := by
  rw [exponent_eq]
  constructor
  · intro h
    have hlt := BitVec.toInt_lt (x := BitVec.ofNat 64 (setBytes bs))
    rw [h] at hlt
    exact_mod_cast hlt
  · intro h
    have hnat : (BitVec.ofNat 64 (setBytes bs)).toNat = setBytes bs := by
      rw [BitVec.toNat_ofNat, Nat.mod_eq_of_lt (by omega)]
    rw [BitVec.toInt_eq_toNat_of_lt (by omega), hnat]

theorem parseRSAPublicJWK_eq_some {σ : Type} {lib : KeyLibrary σ} {raw : String} {key : PublicKey}
    (h : parseRSAPublicJWK lib raw = some key) :
    ∃ jwk bs, lib.unmarshal raw = some jwk ∧ Base64.decodeString jwk.e = some bs ∧
      key.e = exponent bs := by
  simp only [parseRSAPublicJWK, Option.bind_eq_bind, Option.bind_eq_some_iff] at h
  obtain ⟨jwk, hjwk, -, -, modulus, -, bs, hbs, -, -, -, -, hkey⟩ := h
  obtain rfl := Option.some.inj hkey
  exact ⟨jwk, bs, hjwk, hbs, rfl⟩

/-- **A key is read back from its published form**, for every modulus and every positive `int` as exponent.
The exponent of an accepted text is the number in its bytes exactly if that is below `2 ^ 63`. -/
theorem jwk_exact {σ : Type} {lib : KeyLibrary σ}
    (hcodec : ∀ jwk, lib.unmarshal (lib.marshal jwk) = some jwk) :
    (∀ (kid alg useType : String) (key : PublicKey), 0 < key.n → 0 < key.e → key.e < 2 ^ 63 →
      parseRSAPublicJWK lib (buildPublicJWKJSON lib kid key alg useType) = some key) ∧
    ∀ (raw : String) (key : PublicKey), parseRSAPublicJWK lib raw = some key →
      ∃ jwk bs, lib.unmarshal raw = some jwk ∧ Base64.decodeString jwk.e = some bs ∧
        (key.e = setBytes bs ↔ setBytes bs < 2 ^ 63) := by
  constructor
  · intro kid alg useType key _ hpos hmax
    exact parseRSAPublicJWK_publicJWK lib (hcodec _) hpos hmax
  · intro raw key h
    obtain ⟨jwk, bs, hjwk, hbs, hkey⟩ := parseRSAPublicJWK_eq_some h
    refine ⟨jwk, bs, hjwk, hbs, ?_⟩
    rw [hkey, exponent_eq_setBytes_iff]

theorem plain_unmarshal (jwk : JSONWebKey) :
    KeyEnv.plain.unmarshal (KeyEnv.plain.marshal jwk) = some jwk := by
  have hcolumn : ∀ text, KeyEnv.plain.jsonColumn text = text := fun _ => rfl
  have hcodec := KeyEnv.plain_codec jwk
  rwa [hcolumn] at hcodec

theorem jwk_exact_plain :
    (∀ jwk, KeyEnv.plain.unmarshal (KeyEnv.plain.marshal jwk) = some jwk) ∧
      parseRSAPublicJWK KeyEnv.plain.toKeyLibrary
        (buildPublicJWKJSON KeyEnv.plain.toKeyLibrary "k1" ⟨3233, 65537⟩ "RS256" "sig") =
          some ⟨3233, 65537⟩ := by
  obtain ⟨hround, -⟩ := @jwk_exact String KeyEnv.plain.toKeyLibrary plain_unmarshal
  exact ⟨plain_unmarshal, hround _ _ _ _ (by decide) (by decide) (by decide)⟩

/-- **The law fails without the condition.** The text holds nine bytes, the number `2 ^ 64 + 3`; it is
accepted, and the exponent is 3. -/
theorem overflownExponent :
    ∃ (raw : String) (key : PublicKey) (jwk : JSONWebKey) (bs : List UInt8),
      parseRSAPublicJWK KeyEnv.plain.toKeyLibrary raw = some key ∧
      KeyEnv.plain.unmarshal raw = some jwk ∧ Base64.decodeString jwk.e = some bs ∧
      setBytes bs = 2 ^ 64 + 3 ∧ key.e = 3 := by
  have hread := plain_unmarshal ⟨"RSA", "k1", "sig", "RS256", "AQ", "AQAAAAAAAAAD"⟩
  have hkty : toUpper (trimSpace "RSA") = "RSA" := by decide +kernel
  have hn : Base64.decodeString "AQ" = some [1] := by decide
  have he : Base64.decodeString "AQAAAAAAAAAD" = some [1, 0, 0, 0, 0, 0, 0, 0, 3] := by decide
  refine ⟨_, ⟨1, 3⟩, _, _, ?_, hread, he, by decide, rfl⟩
  simp only [parseRSAPublicJWK, hread, Option.bind_eq_bind, Option.bind_some, hkty, hn, he]
  decide

end IdpServer.Laws.Crypto
