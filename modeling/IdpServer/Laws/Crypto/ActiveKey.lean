import IdpServer.Conc.Wp
import IdpServer.Crypto.Rotation

/-!
# Laws.Crypto.ActiveKey — the signing key is the active record

`CreateActiveKey` works in one transaction, so the table never has two active records. `Loaded` is what is
known after each turn of the loader (`signingKey_active`).
-/

namespace IdpServer.Laws.Crypto

open Conc IdpServer.Crypto Go

/-! ## The table -/

def AtMostOneActive (records : List JWKKeyRecord) : Prop := records.countP (·.isActive) ≤ 1

theorem deactivate_isActive (t : Int) (r : JWKKeyRecord) : (r.deactivate t).isActive = false := by
  unfold JWKKeyRecord.deactivate
  split
  next => rfl
  next h => simpa using h

variable {records : List JWKKeyRecord}

/-- **The transaction leaves one active record at most.** -/
theorem atMostOneActive_create (h : AtMostOneActive records) (sqlEq : String → String → Bool)
    (jsonColumn : String → String) (record : JWKKeyRecord) (t : Int) :
    AtMostOneActive (createActiveKey sqlEq jsonColumn records record t).2 := by
  unfold createActiveKey
  split
  next => exact h
  next =>
    have hnone : (records.map (·.deactivate t)).countP (·.isActive) = 0 := by
      refine List.countP_eq_zero.mpr fun r hr => ?_
      obtain ⟨old, -, rfl⟩ := List.mem_map.mp hr
      simp [deactivate_isActive]
    simp [AtMostOneActive, List.countP_append, hnone]

theorem atMostOneActive_listCurrent (h : AtMostOneActive records) (now : Int) :
    AtMostOneActive (listCurrent records now) := by
  unfold AtMostOneActive listCurrent
  rw [(List.perm_insertionSort _ _).countP_eq, List.countP_filter]
  refine Nat.le_trans (List.countP_mono_left fun r _ hr => ?_) h
  simpa using (Bool.and_eq_true_iff.mp hr).1

/-! ## The registry -/

section Registry

variable {σ : Type} {lib : KeyLibrary σ}

variable {m m' : KeyManager σ} {kid alg useType : String} {key : PublicKey}
variable {records : List JWKKeyRecord}

theorem addRSAPublicKey_spec (h : m.addRSAPublicKey kid key alg useType = some m') :
    kid ≠ "" ∧ m'.activeKID = m.activeKID ∧
    (∀ other ≠ kid, m'.keys.lookup other = m.keys.lookup other) ∧
    ∃ k, m'.keys.lookup kid = some k ∧ k.kid = kid ∧ k.publicKey = some key ∧
      k.privateKey = (m.keys.lookup kid).bind (·.privateKey) := by
  unfold KeyManager.addRSAPublicKey at h
  split at h
  next => cases h
  next hkid =>
    cases h
    exact ⟨hkid, rfl, fun other hother => AList.lookup_insert_ne hother, _, AList.lookup_insert _, rfl,
      rfl, rfl⟩

theorem addRSAKey_spec {publicKey : σ → PublicKey} {key : σ} {makeActive : Bool}
    (h : m.addRSAKey publicKey kid key alg useType makeActive = some m') :
    kid ≠ "" ∧ m'.activeKID = (if makeActive = true ∨ m.activeKID = "" then kid else m.activeKID) ∧
    (∀ other ≠ kid, m'.keys.lookup other = m.keys.lookup other) ∧
    ∃ k, m'.keys.lookup kid = some k ∧ k.kid = kid ∧ k.publicKey = some (publicKey key) ∧
      k.privateKey = some key := by
  unfold KeyManager.addRSAKey at h
  split at h
  next => cases h
  next hkid =>
    cases h
    exact ⟨hkid, rfl, fun other hother => AList.lookup_insert_ne hother, _, AList.lookup_insert _, rfl,
      rfl, rfl⟩

structure Loaded (done : List JWKKeyRecord) (state : KeyManager σ × Bool) : Prop where
  entries : ∀ kid k, state.1.keys.lookup kid = some k → k.kid = kid ∧ k.publicKey.isSome = true
  listed : ∀ r ∈ done, (state.1.keys.lookup r.kid).isSome = true
  active : state.2 = true → ∃ r ∈ done, r.isActive = true ∧ r.kid ≠ "" ∧ state.1.activeKID = r.kid ∧
    ∃ k, state.1.keys.lookup r.kid = some k ∧ k.privateKey.isSome = true

variable {files : Files} {workingDir : String} {done : List JWKKeyRecord} {r : JWKKeyRecord}
variable {state next : KeyManager σ × Bool}

theorem loadRecord_cases (h : loadRecord lib files workingDir state r = some next) :
    ∃ key m, parseRSAPublicJWK lib r.publicJWKJSON = some key ∧
      state.1.addRSAPublicKey r.kid key r.alg r.useType = some m ∧
      (next = (m, state.2) ∨ ∃ s m', loadRSAPrivateKey lib files r.privateKeyRef workingDir = some s ∧
        m.addRSAKey lib.publicKey r.kid s r.alg r.useType r.isActive = some m' ∧
        next = (m', state.2 || r.isActive)) := by
  simp only [loadRecord, Option.bind_eq_bind, Option.bind_eq_some_iff] at h
  obtain ⟨key, hkey, m, hm, hnext⟩ := h
  refine ⟨key, m, hkey, hm, ?_⟩
  split at hnext
  next => exact .inl (Option.some.inj hnext).symm
  next =>
    cases hs : loadRSAPrivateKey lib files r.privateKeyRef workingDir with
    | none =>
      rw [hs] at hnext
      dsimp only at hnext
      split at hnext
      next => cases hnext
      next => exact .inl (Option.some.inj hnext).symm
    | some s =>
      rw [hs] at hnext
      obtain ⟨m', hm', hnext⟩ := Option.bind_eq_some_iff.mp hnext
      exact .inr ⟨s, m', rfl, hm', (Option.some.inj hnext).symm⟩

theorem Loaded.entry (h : Loaded done state) {k : ManagedKey σ}
    (hother : ∀ kid ≠ r.kid, m.keys.lookup kid = state.1.keys.lookup kid)
    (hself : m.keys.lookup r.kid = some k) (hkid : k.kid = r.kid)
    (hpublic : k.publicKey.isSome = true) :
    (∀ kid k, m.keys.lookup kid = some k → k.kid = kid ∧ k.publicKey.isSome = true) ∧
    ∀ r' ∈ done ++ [r], (m.keys.lookup r'.kid).isSome = true := by
  constructor
  · intro kid k' hk'
    by_cases heq : kid = r.kid
    · subst heq
      obtain rfl : k = k' := Option.some.inj (hself.symm.trans hk')
      exact ⟨hkid, hpublic⟩
    · exact h.entries kid k' (hother kid heq ▸ hk')
  · intro r' hr'
    by_cases heq : r'.kid = r.kid
    · rw [heq, hself]
      rfl
    · rw [hother _ heq]
      rcases List.mem_append.mp hr' with hr' | hr'
      · exact h.listed r' hr'
      · exact absurd (congrArg (·.kid) (List.mem_singleton.mp hr')) heq

theorem Loaded.public (h : Loaded done state)
    (hm : state.1.addRSAPublicKey r.kid key r.alg r.useType = some m) :
    Loaded (done ++ [r]) (m, state.2) := by
  obtain ⟨-, hactive, hother, k, hself, hkid, hpublic, hprivate⟩ := addRSAPublicKey_spec hm
  obtain ⟨hentries, hlisted⟩ := h.entry hother hself hkid (by rw [hpublic]; rfl)
  refine ⟨hentries, hlisted, fun hloaded => ?_⟩
  obtain ⟨a, ha, hisActive, hne, hkid', k', hk', hs⟩ := h.active hloaded
  refine ⟨a, List.mem_append_left _ ha, hisActive, hne, hactive.trans hkid', ?_⟩
  by_cases heq : a.kid = r.kid
  · rw [heq] at hk' ⊢
    exact ⟨k, hself, by rw [hprivate, hk', Option.bind_some]; exact hs⟩
  · exact ⟨k', (hother _ heq).trans hk', hs⟩

theorem Loaded.pair (h : Loaded (done ++ [r]) state) {s : σ}
    (hm : state.1.addRSAKey lib.publicKey r.kid s r.alg r.useType r.isActive = some m) :
    Loaded (done ++ [r]) (m, state.2 || r.isActive) := by
  obtain ⟨hrne, hactive, hother, k, hself, hkid, hpublic, hprivate⟩ := addRSAKey_spec hm
  obtain ⟨hentries, hlisted⟩ := h.entry hother hself hkid (by rw [hpublic]; rfl)
  have hkey : ∃ k, m.keys.lookup r.kid = some k ∧ k.privateKey.isSome = true :=
    ⟨k, hself, by rw [hprivate]; rfl⟩
  refine ⟨hentries, fun r' hr' => hlisted r' (List.mem_append_left _ hr'), fun hloaded => ?_⟩
  cases hr : r.isActive with
  | true =>
    refine ⟨r, by simp, hr, hrne, ?_, hkey⟩
    rw [hactive, if_pos (.inl hr)]
  | false =>
    rw [hr, Bool.or_false] at hloaded
    obtain ⟨a, ha, hisActive, hne, hkid', k', hk', hs⟩ := h.active hloaded
    refine ⟨a, ha, hisActive, hne, ?_, ?_⟩
    · rw [hactive, if_neg (by simp [hr, hkid', hne]), hkid']
    · by_cases heq : a.kid = r.kid
      · rwa [heq]
      · exact ⟨k', (hother _ heq).trans hk', hs⟩

/-- **One turn of the loader.** -/
theorem Loaded.step (h : Loaded done state) (hnext : loadRecord lib files workingDir state r = some next) :
    Loaded (done ++ [r]) next := by
  obtain ⟨key, m, -, hm, rfl | ⟨s, m', -, hm', rfl⟩⟩ := loadRecord_cases hnext
  · exact h.public hm
  · exact (h.public hm).pair hm'

theorem Loaded.run (h : Loaded done state)
    (hnext : records.foldlM (loadRecord lib files workingDir) state = some next) :
    Loaded (done ++ records) next := by
  induction records generalizing done state with
  | nil =>
    cases hnext
    simpa using h
  | cons r rest ih =>
    obtain ⟨mid, hmid, hrest⟩ := Option.bind_eq_some_iff.mp hnext
    simpa using ih (h.step hmid) hrest

theorem loaded_new : Loaded [] ((.new, false) : KeyManager σ × Bool) :=
  ⟨fun kid k hk => (by cases hk), fun _ h => (by cases h), fun h => (by cases h)⟩

/-- **The registry of a successful load**: its active key is that of an active record, and it knows
every record. -/
theorem loadKeyManager_spec (h : loadKeyManager lib files workingDir records = some m) :
    Loaded records (m, true) := by
  simp only [loadKeyManager, Option.bind_eq_bind, Option.bind_eq_some_iff, Option.guard_eq_some'] at h
  obtain ⟨⟨m', loaded⟩, hrun, -, hloaded, hm⟩ := h
  obtain rfl := Option.some.inj hm
  cases hloaded
  simpa using loaded_new.run hrun

theorem mem_publicJWKS
    (hentries : ∀ kid k, m.keys.lookup kid = some k → k.kid = kid ∧ k.publicKey.isSome = true)
    (hkid : (m.keys.lookup kid).isSome = true) : kid ∈ m.publicJWKS.map (·.kid) := by
  obtain ⟨k, hk⟩ := Option.isSome_iff_exists.mp hkid
  obtain ⟨hname, hpublic⟩ := hentries kid k hk
  obtain ⟨key, hkey⟩ := Option.isSome_iff_exists.mp hpublic
  refine List.mem_map.mpr ⟨publicJWK k.kid key k.alg k.useType, ?_, hname⟩
  refine List.mem_filterMap.mpr ⟨kid, ?_, ?_⟩
  · rw [(List.perm_insertionSort _ _).mem_iff]
    exact AList.lookup_isSome.mp hkid
  · simp [KeyManager.publicKeyByKID, hk, hkey]

end Registry

/-! ## The law -/

/-- The registry signs with the active record, and publishes all of them. -/
structure SignsWithActive {σ : Type} (m : KeyManager σ) (records : List JWKKeyRecord) : Prop where
  signing : ∃ r k s, findActiveKey records = some r ∧ m.activeSigningKey = some (k, s) ∧ k.kid = r.kid
  published : ∀ r ∈ records, r.kid ∈ m.publicJWKS.map (·.kid)

theorem signsWithActive_of_load {σ : Type} {lib : KeyLibrary σ} {files : Files}
    {workingDir : String} {m : KeyManager σ} (hone : AtMostOneActive records)
    (h : loadKeyManager lib files workingDir records = some m) : SignsWithActive m records := by
  obtain ⟨hentries, hlisted, hactive⟩ := loadKeyManager_spec h
  obtain ⟨a, ha, hisActive, hne, hkid, k, hk, hs⟩ := hactive rfl
  obtain ⟨s, hs⟩ := Option.isSome_iff_exists.mp hs
  refine ⟨⟨a, k, s, ?_, ?_, (hentries _ k hk).1⟩, fun r hr => mem_publicJWKS hentries (hlisted r hr)⟩
  · cases hfind : findActiveKey records with
    | none => exact absurd hisActive (List.find?_eq_none.mp hfind a ha)
    | some r =>
      have hr := List.find?_some hfind
      rw [eq_of_countP_le_one hone (List.mem_of_find?_eq_some hfind) ha hr hisActive]
  · rw [KeyManager.activeSigningKey, hkid, if_neg hne, hk, Option.bind_some, hs, Option.map_some]

variable {ι σ : Type}

/-- A call of `CreateActiveKey`, which may fail. -/
def createCall (env : KeyEnv σ) (input : JWKKeyRecord × Int) :
    Prog KeyWorld KeyLabel (Except KeyError Bool) :=
  (Prog.call KeyError.store (createActiveKeyAction env input.1 input.2)).run

def oneActive : Discipline ι KeyWorld KeyLabel where
  inv m := AtMostOneActive m.shared.records
  mono _ _ := True
  mono_refl _ := trivial
  mono_trans _ _ := trivial

/-- **The signing key is the one active record.** However calls of `CreateActiveKey` interleave, the table
has one active record at most, and the registry that is loaded signs with it and publishes every current
one. -/
theorem signingKey_active [DecidableEq ι] {env : KeyEnv σ} {calls : ι → JWKKeyRecord × Int}
    {w : KeyWorld} {E : KeyWorld → KeyWorld → Prop} (hstart : AtMostOneActive w.records)
    (hE : ∀ s s', E s s' → s'.records = s.records) {c : Config ι KeyWorld KeyLabel (Except KeyError Bool)}
    (hrun : Reach E Unrestricted (Config.start w fun i => createCall env (calls i)) c) :
    AtMostOneActive c.shared.records ∧
    ∀ records, AtMostOneActive records → ∀ (lib : KeyLibrary σ) files workingDir now m,
      loadKeyManager lib files workingDir (listCurrent records now) = some m →
      SignsWithActive m (listCurrent records now) := by
  have hsafe : c.Safe oneActive Unrestricted fun _ _ _ => True := by
    refine sound (fun m s hinv hmove => ⟨?_, trivial⟩) (fun _ _ _ _ _ _ _ => trivial) ?_ hrun
    · show AtMostOneActive s.records
      rw [hE _ _ hmove]
      exact hinv
    · refine ⟨hstart, fun i => wp_call trivial fun m _ hinv _ => ?_⟩
      exact ⟨atMostOneActive_create hinv _ _ _ _, trivial, trivial, trivial⟩
  exact ⟨hsafe.1, fun records hone lib files workingDir now m h =>
    signsWithActive_of_load (atMostOneActive_listCurrent hone now) h⟩

def twoKeys : KeyWorld where
  now := 0
  records := []
  files path := if path = "/keys/1.pem" then some "a" else if path = "/keys/2.pem" then some "bb" else none

def insertion (kid path key : String) : JWKKeyRecord × Int :=
  (newRecord .plain kid ("file://" ++ path) (KeyEnv.plain.publicKey key) 0, day)

theorem signingKey_active_two :
    ∃ c m, Reach (fun _ _ => False) Unrestricted (Config.start twoKeys fun b : Bool =>
        createCall .plain (bif b then insertion "k2" "/keys/2.pem" "bb"
          else insertion "k1" "/keys/1.pem" "a")) c ∧
      c.shared.records.length = 2 ∧ AtMostOneActive c.shared.records ∧
      loadKeyManager KeyEnv.plain.toKeyLibrary twoKeys.files "/" (listCurrent c.shared.records 0) =
        some m ∧
      SignsWithActive m (listCurrent c.shared.records 0) := by
  let c := (Config.start twoKeys fun b : Bool =>
    createCall .plain (bif b then insertion "k2" "/keys/2.pem" "bb"
      else insertion "k1" "/keys/1.pem" "a")).played Unrestricted [.run false, .run true]
  have hrun : Reach (fun _ _ => False) Unrestricted _ c :=
    played_reach [.run false, .run true] (by simp [Move.Allowed]) (by decide +kernel)
  have hload : (loadKeyManager KeyEnv.plain.toKeyLibrary twoKeys.files "/"
      (listCurrent c.shared.records 0)).isSome = true := by decide +kernel
  obtain ⟨m, hm⟩ := Option.isSome_iff_exists.mp hload
  have hstart : AtMostOneActive twoKeys.records := Nat.zero_le 1
  obtain ⟨hone, hsigns⟩ := signingKey_active hstart (fun _ _ h => h.elim) hrun
  exact ⟨c, m, hrun, by decide +kernel, hone, hm, hsigns _ hone _ _ _ _ m hm⟩

end IdpServer.Laws.Crypto
