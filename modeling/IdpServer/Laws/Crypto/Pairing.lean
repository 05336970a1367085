import IdpServer.Laws.Crypto.Lifetimes

/-!
# Laws.Crypto.Pairing — the two halves of a key

`AddRSAPublicKey` writes the public half alone, **beside a private key that may be another's**
(`mismatchedHalves`). `signed_verifies` is the law if that does not happen.
-/

namespace IdpServer.Laws.Crypto

open IdpServer.Crypto

/-- A call that changes a registry; the registries have names. A `nil` is refused like an empty id, and
leaves the registry as it is. -/
inductive Registration (ι σ : Type) where
  | addRSAKey (kid : String) (privateKey : σ) (alg useType : String) (makeActive : Bool)
  | addRSAPublicKey (kid : String) (publicKey : PublicKey) (alg useType : String)
  | replaceWith (other : ι)

section Registries

variable {ι σ : Type} (publicKey : σ → PublicKey)

def Registration.apply (managers : ι → KeyManager σ) (m : KeyManager σ) : Registration ι σ → KeyManager σ
  | .addRSAKey kid privateKey alg useType makeActive =>
    (m.addRSAKey publicKey kid privateKey alg useType makeActive).getD m
  | .addRSAPublicKey kid key alg useType => (m.addRSAPublicKey kid key alg useType).getD m
  | .replaceWith other => m.replaceWith (managers other)

def Registration.Matching (m : KeyManager σ) : Registration ι σ → Prop
  | .addRSAPublicKey kid key _ _ =>
    ∀ record privateKey, m.keys.lookup kid = some record → record.privateKey = some privateKey →
      key = publicKey privateKey
  | _ => True

/-- The registries that any sequence of such calls can lead to, all of them new at first. -/
inductive Registries [DecidableEq ι] : (ι → KeyManager σ) → Prop where
  | new : Registries fun _ => .new
  | call {managers : ι → KeyManager σ} (i : ι) (call : Registration ι σ) : Registries managers →
      call.Matching publicKey (managers i) →
      Registries (Function.update managers i (call.apply publicKey managers (managers i)))

def Paired (m : KeyManager σ) : Prop :=
  ∀ kid record, m.keys.lookup kid = some record → kid ≠ "" ∧ record.kid = kid ∧
    ∀ privateKey, record.privateKey = some privateKey → record.publicKey = some (publicKey privateKey)

variable {publicKey}

variable {m : KeyManager σ} {record : ManagedKey σ} {managers : ι → KeyManager σ}

theorem Paired.entry {m' : KeyManager σ} {kid : String} (h : Paired publicKey m) (hkid : kid ≠ "")
    (hother : ∀ other ≠ kid, m'.keys.lookup other = m.keys.lookup other)
    (hself : m'.keys.lookup kid = some record) (hname : record.kid = kid)
    (hhalves : ∀ privateKey, record.privateKey = some privateKey →
      record.publicKey = some (publicKey privateKey)) : Paired publicKey m' := by
  intro other record' hrecord'
  by_cases heq : other = kid
  · subst heq
    obtain rfl : record = record' := Option.some.inj (hself.symm.trans hrecord')
    exact ⟨hkid, hname, hhalves⟩
  · exact h other record' (hother other heq ▸ hrecord')

theorem Paired.apply {call : Registration ι σ} (h : Paired publicKey m)
    (hall : ∀ i, Paired publicKey (managers i)) (hmatching : call.Matching publicKey m) :
    Paired publicKey (call.apply publicKey managers m) := by
  cases call with
  | addRSAKey kid privateKey alg useType makeActive =>
    rw [Registration.apply]
    cases hadd : m.addRSAKey publicKey kid privateKey alg useType makeActive with
    | none => exact h
    | some m' =>
      obtain ⟨hkid, -, hother, record, hself, hname, hpublic, hprivate⟩ := addRSAKey_spec hadd
      refine h.entry hkid hother hself hname fun key hkey => ?_
      obtain rfl := Option.some.inj (hprivate.symm.trans hkey)
      exact hpublic
  | addRSAPublicKey kid key alg useType =>
    rw [Registration.apply]
    cases hadd : m.addRSAPublicKey kid key alg useType with
    | none => exact h
    | some m' =>
      obtain ⟨hkid, -, hother, record, hself, hname, hpublic, hprivate⟩ := addRSAPublicKey_spec hadd
      refine h.entry hkid hother hself hname fun privateKey hkey => ?_
      -- the private key is that of the record before
      rw [hprivate] at hkey
      obtain ⟨before, hbefore, hkey⟩ := Option.bind_eq_some_iff.mp hkey
      rw [hpublic, hmatching before privateKey hbefore hkey]
  | replaceWith other => exact hall other

theorem Registries.paired [DecidableEq ι] (h : Registries publicKey managers) (i : ι) :
    Paired publicKey (managers i) := by
  induction h generalizing i with
  | new =>
    intro kid record hrecord
    cases hrecord
  | call j call _ hmatching ih =>
    by_cases hij : i = j
    · subst hij
      rw [Function.update_self]
      exact (ih i).apply ih hmatching
    · rw [Function.update_of_ne hij]
      exact ih i

theorem activeSigningKey_spec {privateKey : σ} (h : m.activeSigningKey = some (record, privateKey)) :
    m.keys.lookup m.activeKID = some record ∧ record.privateKey = some privateKey := by
  unfold KeyManager.activeSigningKey at h
  split at h
  next => cases h
  next =>
    obtain ⟨record', hrecord, hhalf⟩ := Option.bind_eq_some_iff.mp h
    obtain ⟨privateKey', hprivate, heq⟩ := Option.map_eq_some_iff.mp hhalf
    cases heq
    exact ⟨hrecord, hprivate⟩

/-- **What a registry signs, it verifies**, with the same claims, after any calls that leave the halves
of the keys together. -/
theorem signed_verifies [DecidableEq ι] {lib : JWTLibrary σ} (hlib : JWTLaws lib publicKey)
    {claims : Claims} (hclaims : ∀ bytes, lib.marshal claims = some bytes → lib.unmarshal bytes = some claims)
    {managers : ι → KeyManager σ} (hrun : Registries publicKey managers) {i : ι} {token : String}
    (hsign : ((managers i).signer lib).signJWT claims = some token) :
    ∃ v, ((managers i).signer lib).verifyJWT token = some v ∧ v.claims = claims := by
  obtain ⟨key, hkey, -⟩ := Option.bind_eq_some_iff.mp hsign
  obtain ⟨⟨record, privateKey⟩, hactive, rfl⟩ := Option.map_eq_some_iff.mp hkey
  obtain ⟨hrecord, hprivate⟩ := activeSigningKey_spec hactive
  obtain ⟨hne, hname, hpaired⟩ := hrun.paired i _ _ hrecord
  have hkid : record.kid ≠ "" := hname ▸ hne
  have hknown : ((managers i).signer lib).publicKeyByKID record.kid =
      some (record.alg, publicKey privateKey) := by
    simp [KeyManager.signer, KeyManager.publicKeyByKID, hname, hrecord, hpaired _ hprivate]
  obtain ⟨v, bytes, hv, hbytes, hread⟩ := verifyJWT_signJWT _ hkey hkid hknown rfl
    (hlib.header _) (hlib.claims claims) (hlib.verify _) hsign
  exact ⟨v, hv, (Option.some.inj ((hclaims bytes hbytes).symm.trans hread)).symm⟩

end Registries

def oneKey : Unit → KeyManager String :=
  Function.update (fun _ => .new) () (Registration.apply KeyEnv.plain.publicKey (fun _ : Unit => .new) .new
    (.addRSAKey "k1" "secret" "" "" true))

theorem signed_verifies_oneKey :
    Registries KeyEnv.plain.publicKey oneKey ∧
      ∃ token v, ((oneKey ()).signer plainJWT).signJWT (Signer.header ⟨"k1", "RS256", ""⟩) = some token ∧
        ((oneKey ()).signer plainJWT).verifyJWT token = some v ∧
        v.claims = Signer.header ⟨"k1", "RS256", ""⟩ := by
  have hrun : Registries KeyEnv.plain.publicKey oneKey := .call () _ .new trivial
  have hsigned : (((oneKey ()).signer plainJWT).signJWT (Signer.header ⟨"k1", "RS256", ""⟩)).isSome =
      true := by
    decide +kernel
  obtain ⟨token, htoken⟩ := Option.isSome_iff_exists.mp hsigned
  obtain ⟨v, hv, hclaims⟩ := signed_verifies plainJWT_laws (plainJWT_laws.header _) hrun htoken
  exact ⟨hrun, token, v, htoken, hv, hclaims⟩

/-- **The law fails without the condition.** The public key of another pair is put beside the private
key, and what is signed is not verified. -/
theorem mismatchedHalves :
    ∃ m m' : KeyManager String,
      KeyManager.new.addRSAKey KeyEnv.plain.publicKey "k1" "secret" "" "" true = some m ∧
      m.addRSAPublicKey "k1" (KeyEnv.plain.publicKey "another") "" "" = some m' ∧
      ∃ token, (m'.signer plainJWT).signJWT (Signer.header ⟨"k1", "RS256", ""⟩) = some token ∧
        ((m'.signer plainJWT).verifyJWT token).isNone = true := by
  refine ⟨_, _, rfl, rfl, ?_⟩
  refine (Option.isSome_iff_exists.mp ?_).imp fun token htoken => ⟨htoken, ?_⟩
  · decide +kernel
  · obtain rfl := Option.some.inj (htoken.symm.trans rfl)
    decide +kernel

end IdpServer.Laws.Crypto
