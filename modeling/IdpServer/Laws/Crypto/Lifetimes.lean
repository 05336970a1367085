import IdpServer.Clients.Service
import IdpServer.Crypto.Minting
import IdpServer.Laws.Crypto.ActiveKey
import IdpServer.Laws.Crypto.KeyFiles

/-!
# Laws.Crypto.Lifetimes — a token is verified until it expires

A key that is replaced is listed for a day more, and a token valid for longer **outlives it**
(`token_outlives_key`). `tokens_verifiable` is the law for shorter ones, signed with the active key.
-/

namespace IdpServer.Laws.Crypto

open Conc IdpServer.Clients IdpServer.Crypto Go Store

/-! ## A load of intact records -/

section Load

variable {σ : Type} {keys : KeyEnv σ} {workingDir : String} {files : Files} {r : JWKKeyRecord}

def Holds (keys : KeyEnv σ) (m : KeyManager σ) (r : JWKKeyRecord) : Prop :=
  ∃ k key, m.keys.lookup r.kid = some k ∧ k.kid = r.kid ∧
    k.alg = KeyManager.orDefault r.alg defaultJWTAlg ∧ k.privateKey = some key ∧
    k.publicKey = some (keys.publicKey key) ∧
    parseRSAPublicJWK keys.toKeyLibrary r.publicJWKJSON = some (keys.publicKey key)

theorem loadRecord_intact (h : Intact keys workingDir files r) (hkid : r.kid ≠ "")
    (state : KeyManager σ × Bool) :
    ∃ next, loadRecord keys.toKeyLibrary files workingDir state r = some next ∧
      next.2 = (state.2 || r.isActive) ∧ Holds keys next.1 r ∧
      ∀ other ≠ r.kid, next.1.keys.lookup other = state.1.keys.lookup other := by
  obtain ⟨href, key, hload, hpublic⟩ := h
  simp only [loadRecord, hpublic, hload, href, KeyManager.addRSAPublicKey, KeyManager.addRSAKey, hkid,
    if_false, Option.bind_eq_bind, Option.bind_some]
  refine ⟨_, rfl, rfl, ⟨_, key, AList.lookup_insert _, rfl, rfl, rfl, rfl, hpublic⟩, ?_⟩
  intro other hother
  rw [AList.lookup_insert_ne hother, AList.lookup_insert_ne hother]

variable {records : List JWKKeyRecord}

theorem foldlM_loadRecord (hintact : ∀ r ∈ records, Intact keys workingDir files r)
    (hnamed : ∀ r ∈ records, r.kid ≠ "") (hkids : (records.map (·.kid)).Nodup)
    (state : KeyManager σ × Bool) :
    ∃ next, records.foldlM (loadRecord keys.toKeyLibrary files workingDir) state = some next ∧
      next.2 = (state.2 || records.any (·.isActive)) ∧ (∀ r ∈ records, Holds keys next.1 r) ∧
      ∀ other ∉ records.map (·.kid), next.1.keys.lookup other = state.1.keys.lookup other := by
  induction records generalizing state with
  | nil => exact ⟨state, rfl, by simp, fun _ h => (by cases h), fun _ _ => rfl⟩
  | cons r rest ih =>
    rw [List.map_cons, List.nodup_cons] at hkids
    obtain ⟨mid, hmid, hflag, hholds, hothers⟩ := loadRecord_intact
      (hintact r List.mem_cons_self) (hnamed r List.mem_cons_self) state
    obtain ⟨next, hnext, hflag', hrest, hothers'⟩ := ih
      (fun r' h => hintact r' (List.mem_cons_of_mem _ h))
      (fun r' h => hnamed r' (List.mem_cons_of_mem _ h)) hkids.2 mid
    refine ⟨next, ?_, ?_, ?_, ?_⟩
    · rw [List.foldlM_cons, hmid]
      exact hnext
    · rw [hflag', hflag, List.any_cons, Bool.or_assoc]
    · intro r' hr'
      rcases List.mem_cons.mp hr' with rfl | hr'
      · obtain ⟨k, key, hk, hentry⟩ := hholds
        exact ⟨k, key, (hothers' _ hkids.1).trans hk, hentry⟩
      · exact hrest r' hr'
    · intro other hother
      rw [List.map_cons, List.mem_cons, not_or] at hother
      rw [hothers' _ hother.2, hothers _ hother.1]

/-- What the server keeps of the table of keys: every record is intact, kids are unique, and an active
key has no end yet. -/
structure KeyTable (keys : KeyEnv σ) (workingDir : String) (w : KeyWorld) : Prop where
  intact : AllIntact keys workingDir w
  kids : (w.records.map (·.kid)).Nodup
  named : ∀ r ∈ w.records, r.kid ≠ ""
  unended : ∀ r ∈ w.records, r.isActive = true → r.deactivatedAt = none

variable {w : KeyWorld}

theorem mem_listCurrent {now : Int} :
    r ∈ listCurrent records now ↔ r ∈ records ∧ r.current now = true := by
  rw [listCurrent, (List.perm_insertionSort _ _).mem_iff, List.mem_filter]

theorem KeyTable.mem_current (h : KeyTable keys workingDir w) (hr : r ∈ w.records)
    (hactive : r.isActive = true) : r ∈ listCurrent w.records w.now := by
  refine mem_listCurrent.mpr ⟨hr, ?_⟩
  rw [JWKKeyRecord.current, h.unended r hr hactive]

/-- **A table with an active key is loaded**, and the registry has every current key. -/
theorem KeyTable.load (h : KeyTable keys workingDir w) (hactive : ∃ r ∈ w.records, r.isActive = true) :
    ∃ m, w.load keys workingDir = some m ∧ ∀ r ∈ listCurrent w.records w.now, Holds keys m r := by
  have hmem : ∀ r ∈ listCurrent w.records w.now, r ∈ w.records := fun r hr => (mem_listCurrent.mp hr).1
  have hkids : ((listCurrent w.records w.now).map (·.kid)).Nodup := by
    rw [listCurrent, ((List.perm_insertionSort _ _).map _).nodup_iff]
    exact h.kids.sublist (List.filter_sublist.map _)
  obtain ⟨⟨m, flag⟩, hload, hflag, hholds, -⟩ := foldlM_loadRecord
    (fun r hr => h.intact r (hmem r hr)) (fun r hr => h.named r (hmem r hr)) hkids (.new, false)
  obtain ⟨a, ha, hisActive⟩ := hactive
  have hany : (listCurrent w.records w.now).any (·.isActive) = true :=
    List.any_eq_true.mpr ⟨a, h.mem_current ha hisActive, hisActive⟩
  rw [hany, Bool.or_true] at hflag
  refine ⟨m, ?_, hholds⟩
  cases hflag
  rw [KeyWorld.load, loadKeyManager, hload]
  rfl

end Load

/-! ## Tokens and their keys -/

/-- What the libraries are documented to do: they verify what was signed with the other half of a key,
and read the objects they have written. -/
structure JWTLaws {σ : Type} (lib : JWTLibrary σ) (publicKey : σ → PublicKey) : Prop where
  verify : ∀ key digest signature, lib.signPKCS1v15 key digest = some signature →
    lib.verifyPKCS1v15 (publicKey key) digest signature = true
  header : ∀ (key : SigningKey σ) bytes, lib.marshal (Signer.header key) = some bytes →
    lib.unmarshal bytes = some (Signer.header key)
  claims : ∀ claims bytes, lib.marshal claims = some bytes → (lib.unmarshal bytes).isSome = true

section Tokens

variable {σ : Type} (keys : KeyEnv σ) (workingDir : String) (lib : JWTLibrary σ)

def SignedUnder (r : JWKKeyRecord) (token : String) : Prop :=
  ∃ (m : KeyManager σ) (key : SigningKey σ) (claims : Claims),
    (m.signer lib).activeSigningKey = some key ∧ (m.signer lib).signJWT claims = some token ∧
    key.kid = r.kid ∧ key.alg = KeyManager.orDefault r.alg defaultJWTAlg ∧
    parseRSAPublicJWK keys.toKeyLibrary r.publicJWKJSON = some (keys.publicKey key.privateKey)

variable {keys workingDir lib} {r : JWKKeyRecord} {token : String} {w : KeyWorld}

/-- **A registry with the key of the record verifies the token.** -/
theorem SignedUnder.verified (h : SignedUnder keys lib r token) (hlib : JWTLaws lib keys.publicKey)
    (hkid : r.kid ≠ "") {m : KeyManager σ} (hm : Holds keys m r) :
    ((m.signer lib).verifyJWT token).isSome = true := by
  obtain ⟨signing, key, claims, hkey, hsign, hname, halg, hpublic⟩ := h
  obtain ⟨k, key', hk, -, hkalg, -, hkpublic, hparsed⟩ := hm
  obtain hsame : keys.publicKey key.privateKey = keys.publicKey key' :=
    Option.some.inj (hpublic.symm.trans hparsed)
  have hknown : (m.signer lib).publicKeyByKID key.kid = some (key.alg, keys.publicKey key.privateKey) := by
    simp [KeyManager.signer, KeyManager.publicKeyByKID, hname, hk, hkpublic, hsame, hkalg, halg]
  obtain ⟨v, -, hv, -⟩ := verifyJWT_signJWT _ hkey (hname ▸ hkid) hknown rfl (hlib.header key)
    (hlib.claims claims) (hlib.verify key.privateKey) hsign
  rw [hv]
  rfl

theorem signedUnder_of_load (htable : KeyTable keys workingDir w) {m : KeyManager σ}
    (hload : w.load keys workingDir = some m) {claims : Claims}
    (hsign : (m.signer lib).signJWT claims = some token) :
    ∃ r ∈ w.records, r.isActive = true ∧ m.activeKID = r.kid ∧ SignedUnder keys lib r token := by
  obtain ⟨-, -, hactive⟩ := loadKeyManager_spec hload
  obtain ⟨r, hr, hisActive, hne, hkid, -⟩ := hactive rfl
  replace hkid : m.activeKID = r.kid := hkid
  have hmem : r ∈ w.records := (mem_listCurrent.mp hr).1
  obtain ⟨m', hload', hholds⟩ := htable.load ⟨r, hmem, hisActive⟩
  obtain rfl := Option.some.inj (hload.symm.trans hload')
  obtain ⟨k, key, hk, hname, halg, hprivate, -, hparsed⟩ := hholds r hr
  refine ⟨r, hmem, hisActive, hkid, m, ⟨k.kid, k.alg, key⟩, claims, ?_, hsign, hname, halg, hparsed⟩
  rw [← hkid] at hk hne
  simp [KeyManager.signer, KeyManager.activeSigningKey, hne, hk, hprivate]

end Tokens

/-! ## Keys that are replaced -/

section Law

variable {ι σ : Type} (keys : KeyEnv σ) (workingDir : String) (lib : JWTLibrary σ) (lag : Int)

/-- **The condition**: a file is written under a new name, a record is inserted no later than `lag` after
its rotation read the clock, and tokens are signed with the active key. -/
def Timely (m : Moment ι KeyWorld KeyLabel) (_ : ι) : KeyLabel → Prop
  | .writeFile path => m.shared.files path = none
  | .createActiveKey record _ => m.shared.now ≤ record.createdAt + lag
  | .signJWT kid => ∃ r ∈ m.shared.records, r.isActive = true ∧ r.kid = kid

instance (m : Moment ι KeyWorld KeyLabel) (i : ι) (l : KeyLabel) : Decidable (Timely lag m i l) := by
  induction l using KeyLabel.casesOn <;> dsimp only [Timely] <;> infer_instance

/-- What becomes of a record: it stays, or it was active and ends a day later, but for the lag. -/
def Succeeds (now : Int) (r r' : JWKKeyRecord) : Prop :=
  r' = r ∨ r.isActive = true ∧ ∃ d, wholeSeconds (now + day - lag) ≤ d ∧
    r' = { r with isActive := false, deactivatedAt := some d }

structure Progress (w w' : KeyWorld) : Prop where
  clock : w.now ≤ w'.now
  files : FilesKept w.files w'.files
  records : ∀ r ∈ w.records, ∃ r' ∈ w'.records, Succeeds lag w.now r r'
  active : (∃ r ∈ w.records, r.isActive = true) → ∃ r ∈ w'.records, r.isActive = true

variable {lag} {now now' : Int} {r r' r'' : JWKKeyRecord} {w w' w'' : KeyWorld}

theorem Succeeds.trans (h : Succeeds lag now r r') (h' : Succeeds lag now' r' r'') (hle : now ≤ now') :
    Succeeds lag now r r'' := by
  rcases h with rfl | ⟨hactive, d, hd, rfl⟩
  · rcases h' with rfl | ⟨hactive, d, hd, rfl⟩
    · exact .inl rfl
    · refine .inr ⟨hactive, d, Int.le_trans ?_ hd, rfl⟩
      simp only [wholeSeconds, second]
      omega
  · rcases h' with rfl | ⟨hactive', -⟩
    · exact .inr ⟨hactive, d, hd, rfl⟩
    · cases hactive'

theorem Progress.refl (w : KeyWorld) : Progress lag w w :=
  ⟨Int.le_refl _, fun _ _ h => h, fun r hr => ⟨r, hr, .inl rfl⟩, id⟩

theorem Progress.trans (h : Progress lag w w') (h' : Progress lag w' w'') : Progress lag w w'' := by
  refine ⟨Int.le_trans h.clock h'.clock, fun p t ht => h'.files p t (h.files p t ht), ?_,
    fun ha => h'.active (h.active ha)⟩
  intro r hr
  obtain ⟨r', hr', hs⟩ := h.records r hr
  obtain ⟨r'', hr'', hs'⟩ := h'.records r' hr'
  exact ⟨r'', hr'', hs.trans hs' h.clock⟩

variable (lag)

def lastingKeys : Discipline ι KeyWorld KeyLabel where
  inv m := KeyTable keys workingDir m.shared
  mono m m' := Progress lag m.shared m'.shared
  mono_refl _ := .refl _
  mono_trans := .trans

/-- The token is honoured until its expiry: its key is active and the expiry is not a day off, or the key
has been replaced and ends later. -/
structure Honoured (w : KeyWorld) (minted : Minted) : Prop where
  active : ∃ r ∈ w.records, r.isActive = true
  key : ∃ r ∈ w.records, SignedUnder keys lib r minted.token ∧
    (r.isActive = true ∧ minted.exp * second ≤ w.now + day - lag ∨
      r.isActive = false ∧ ∃ d, r.deactivatedAt = some d ∧ minted.exp * second ≤ d)

variable {keys workingDir lib lag} {minted : Minted}

variable {token : String} {loaded : Option (KeyManager σ)}

theorem Succeeds.signedUnder (h : Succeeds lag now r r') (hr : SignedUnder keys lib r token) :
    SignedUnder keys lib r' token := by
  rcases h with rfl | ⟨-, d, -, rfl⟩ <;> exact hr

/-- **An honoured token stays honoured.** -/
theorem Honoured.progress (h : Honoured keys lib lag w minted) (hw : Progress lag w w') :
    Honoured keys lib lag w' minted := by
  obtain ⟨hactive, r, hr, hsigned, huntil⟩ := h
  obtain ⟨r', hr', hs⟩ := hw.records r hr
  refine ⟨hw.active hactive, r', hr', hs.signedUnder hsigned, ?_⟩
  have hclock := hw.clock
  rcases hs with rfl | ⟨hisActive, d, hd, rfl⟩
  · rcases huntil with ⟨hisActive, hexp⟩ | hended
    · exact .inl ⟨hisActive, by omega⟩
    · exact .inr hended
  · rcases huntil with ⟨-, hexp⟩ | ⟨hended, -⟩
    · refine .inr ⟨rfl, d, rfl, Int.le_trans ?_ hd⟩
      simp only [wholeSeconds, second] at hexp ⊢
      omega
    · rw [hisActive] at hended
      cases hended

/-- **An honoured token is verified** with the keys that are loaded before it expires. -/
theorem Honoured.verified (h : Honoured keys lib lag w minted) (htable : KeyTable keys workingDir w)
    (hlib : JWTLaws lib keys.publicKey) (hlive : w.now < minted.exp * second) :
    ∃ m, w.load keys workingDir = some m ∧ ((m.signer lib).verifyJWT minted.token).isSome = true := by
  obtain ⟨hactive, r, hr, hsigned, huntil⟩ := h
  obtain ⟨m, hload, hholds⟩ := htable.load hactive
  refine ⟨m, hload, hsigned.verified hlib (htable.named r hr) (hholds r ?_)⟩
  rcases huntil with ⟨hisActive, -⟩ | ⟨-, d, hd, hexp⟩
  · exact htable.mem_current hr hisActive
  · refine mem_listCurrent.mpr ⟨hr, ?_⟩
    have hle := wholeSeconds_le w.now
    simp only [JWKKeyRecord.current, hd, decide_eq_true_eq]
    omega

/-! ## The steps -/

theorem KeyTable.write (h : KeyTable keys workingDir w) {path : String} (text : String)
    (hfresh : w.files path = none) :
    KeyTable keys workingDir { w with files := Function.update w.files path (some text) } ∧
    Progress lag w { w with files := Function.update w.files path (some text) } := by
  obtain ⟨hkept, hintact⟩ := h.intact.write text hfresh
  exact ⟨⟨hintact, h.kids, h.named, h.unended⟩, Int.le_refl _, hkept, fun r hr => ⟨r, hr, .inl rfl⟩, id⟩

theorem deactivate_kid (t : Int) (r : JWKKeyRecord) : (r.deactivate t).kid = r.kid := by
  unfold JWKKeyRecord.deactivate
  split <;> rfl

theorem KeyTable.create (h : KeyTable keys workingDir w) (hsql : ∀ s, keys.sqlEq s s = true)
    {record : JWKKeyRecord} (hkid : record.kid ≠ "") (hintime : w.now ≤ record.createdAt + lag)
    (hrecord : Intact keys workingDir w.files
      { record with publicJWKJSON := keys.jsonColumn record.publicJWKJSON }) :
    let w' := { w with records := (createActiveKey keys.sqlEq keys.jsonColumn w.records record
      (record.createdAt + day)).2 }
    KeyTable keys workingDir w' ∧ Progress lag w w' := by
  have hintact := h.intact.create (record.createdAt + day) hrecord
  unfold createActiveKey at hintact ⊢
  split at hintact
  next htaken =>
    rw [if_pos htaken]
    exact ⟨h, .refl w⟩
  next hfree =>
    rw [if_neg hfree]
    refine ⟨⟨hintact, ?_, ?_, ?_⟩, Int.le_refl _, fun _ _ h => h, ?_, fun _ => ?_⟩
    · -- the kid is new under the collation, so it is new
      have hnew : record.kid ∉ w.records.map (·.kid) := by
        intro hmem
        obtain ⟨old, hold, hname⟩ := List.mem_map.mp hmem
        exact hfree (List.any_eq_true.mpr ⟨old, hold, hname ▸ hsql _⟩)
      simp only [List.map_append, List.map_map, Function.comp_def, deactivate_kid, List.map_cons,
        List.map_nil]
      exact List.nodup_append.mpr ⟨h.kids, List.nodup_singleton _, fun a ha b hb hab =>
        hnew (List.mem_singleton.mp hb ▸ hab ▸ ha)⟩
    · intro r hr
      rcases List.mem_append.mp hr with hr | hr
      · obtain ⟨old, hold, rfl⟩ := List.mem_map.mp hr
        exact deactivate_kid _ old ▸ h.named old hold
      · exact List.mem_singleton.mp hr ▸ hkid
    · intro r hr hactive
      rcases List.mem_append.mp hr with hr | hr
      · obtain ⟨old, -, rfl⟩ := List.mem_map.mp hr
        rw [deactivate_isActive] at hactive
        cases hactive
      · rw [List.mem_singleton.mp hr]
    · intro r hr
      refine ⟨_, List.mem_append_left _ (List.mem_map_of_mem hr), ?_⟩
      unfold JWKKeyRecord.deactivate
      split
      next hactive =>
        refine .inr ⟨hactive, dateTime (record.createdAt + day), ?_, ?_⟩
        · simp only [wholeSeconds, dateTime, second]
          omega
        · rw [h.unended r hr hactive]
      next => exact .inl rfl
    · exact ⟨_, List.mem_append_right _ (List.mem_singleton_self _), rfl⟩

def Backed (keys : KeyEnv σ) (lib : JWTLibrary σ) (loaded : Option (KeyManager σ)) (w : KeyWorld) :
    Prop :=
  ∀ m ∈ loaded, ∀ claims token, (m.signer lib).signJWT claims = some token →
    ∃ r ∈ w.records, m.activeKID = r.kid ∧ SignedUnder keys lib r token

theorem KeyTable.backed (h : KeyTable keys workingDir w) : Backed keys lib (w.load keys workingDir) w := by
  intro m hm claims token hsign
  obtain ⟨r, hr, -, hkid, hsigned⟩ := signedUnder_of_load h hm hsign
  exact ⟨r, hr, hkid, hsigned⟩

theorem Backed.progress (h : Backed keys lib loaded w) (hw : Progress lag w w') :
    Backed keys lib loaded w' := by
  intro m hm claims token hsign
  obtain ⟨r, hr, hkid, hsigned⟩ := h m hm claims token hsign
  obtain ⟨r', hr', hs⟩ := hw.records r hr
  refine ⟨r', hr', ?_, hs.signedUnder hsigned⟩
  rcases hs with rfl | ⟨-, d, -, rfl⟩ <;> exact hkid

theorem Backed.honoured (h : Backed keys lib loaded w) (htable : KeyTable keys workingDir w)
    {m : KeyManager σ} (hm : m ∈ loaded) {claims : Claims}
    (hsign : (m.signer lib).signJWT claims = some token)
    (hactive : ∃ r ∈ w.records, r.isActive = true ∧ r.kid = m.activeKID) {exp : Int}
    (hexp : exp * second ≤ w.now + day - lag) : Honoured keys lib lag w ⟨token, exp⟩ := by
  obtain ⟨r, hr, hkid, hsigned⟩ := h m hm claims token hsign
  obtain ⟨a, ha, hisActive, haKID⟩ := hactive
  obtain rfl : r = a := List.inj_on_of_nodup_map htable.kids hr ha (hkid ▸ haKID.symm)
  exact ⟨⟨r, hr, hisActive⟩, r, hr, hsigned, .inl ⟨hisActive, hexp⟩⟩

theorem Backed.orElse {reloaded : Option (KeyManager σ)} (h : Backed keys lib loaded w)
    (h' : Backed keys lib reloaded w) (between : Bool) :
    Backed keys lib (if between then reloaded <|> loaded else loaded) w := by
  cases between with
  | false => exact h
  | true =>
    cases reloaded with
    | none => exact h
    | some m => exact h'

theorem lastingKeys_rotates {i : ι} (hsql : ∀ s, keys.sqlEq s s = true) :
    Rotates keys workingDir day (lastingKeys keys workingDir lag) (Timely lag) i where
  kept _ _ h := h.files
  write _ _ text hinv hfresh := KeyTable.write hinv text hfresh
  create _ _ hinv hkid hintime hrecord := KeyTable.create hinv hsql hkid hintime hrecord

variable [DecidableEq ι] {i : ι} {m : Moment ι KeyWorld KeyLabel}

/-- **One token among the rotations.** -/
theorem mintToken_wp {env : Env} {client : Client} {request : TokenRequest}
    (httl : request.ttl client * second + lag ≤ day) :
    Wp (lastingKeys keys workingDir lag) (Timely lag) i
      (mintToken keys workingDir lib env client request).run
      (fun result m => ∀ minted, result = .ok minted → Honoured keys lib lag m.shared minted) m := by
  have hstable : ∀ loaded now, (lastingKeys keys workingDir lag).Stable i fun m =>
      Backed keys lib loaded m.shared ∧ now ≤ m.shared.now :=
    fun _ _ _ _ hrely _ h => ⟨h.1.progress hrely.mono, Int.le_trans h.2 hrely.mono.clock⟩
  refine .clock fun m₁ hinv₁ => ?_
  refine wp_clock (hstable _ m₁.shared.now) ⟨KeyTable.backed hinv₁, Int.le_refl _⟩ fun m₂ _ h₂ => ?_
  refine wp_clock (hstable _ m₂.shared.now) ⟨h₂.1, Int.le_refl _⟩ fun m₃ hinv₃ h₃ => ?_
  refine wp_bind_except.mpr (wp_lift.mpr fun between => ?_)
  have hbacked := h₃.1.orElse (KeyTable.backed hinv₃) between
  refine wp_found (fun _ _ h => by cases h) fun manager hmanager => ?_
  refine wp_found (fun _ _ h => by cases h) fun token htoken => ?_
  -- the signature, at a moment when the key is active
  refine wp_bind_except.mpr (wp_lift.mpr fun m₄ hrely hinv₄ hactive => ?_)
  obtain ⟨hbacked₄, hclock⟩ := hstable _ _ m₃ m₄ hrely hinv₄ ⟨hbacked, h₃.2⟩
  refine ⟨hinv₄, Progress.refl _, fun minted hminted => ?_⟩
  obtain rfl := Except.ok.inj hminted
  refine hbacked₄.honoured hinv₄ hmanager htoken hactive ?_
  show unix (m₂.shared.now + request.ttl client * second) * second ≤ m₄.shared.now + day - lag
  simp only [unix, second] at httl ⊢
  omega

end Law

/-! ## The server -/

/-- What a process does with the keys: it replaces the active one, or it makes a token for a client
that was registered with this request. -/
inductive KeyWork (σ : Type) where
  | rotate (r : Rotation σ)
  | mint (clients : List ClientModel) (input : CreateClientInput) (request : TokenRequest)

section Server

variable {ι σ : Type} (keys : KeyEnv σ) (workingDir : String) (lib : JWTLibrary σ) (env : Env)
variable (registration : ClientEnv)

def mintFor (request : TokenRequest) :
    Except ClientError (ClientModel × List ClientModel) → Prog KeyWorld KeyLabel (Option Minted)
  | .error _ => .ret none
  | .ok (client, _) =>
    (mintToken keys workingDir lib env client.toClient request).run.bind fun result =>
      .ret result.toOption

def KeyWork.code : KeyWork σ → Prog KeyWorld KeyLabel (Option Minted)
  | .rotate r => (r.code keys).bind fun _ => .ret none
  | .mint clients input request =>
    mintFor keys workingDir lib env request (createClient registration clients input)

/-- **The condition on the requests**: a rotation has the default delay, and no client asks for tokens
that are valid for longer than `limit` seconds. -/
def KeyWork.Within (limit : Int) : KeyWork σ → Prop
  | .rotate r => r.cfg.workingDir = workingDir ∧ r.cfg.retireAfter ≤ 0 ∧
    ∀ kid, KeyPath keys workingDir (keyPath keys r.cfg.normalized kid)
  | .mint _ input _ => input.accessTokenTTLSeconds ≤ limit ∧ input.idTokenTTLSeconds ≤ limit

variable {keys workingDir lib env registration}

variable {limit lag : Int} {i : ι} {m : Moment ι KeyWorld KeyLabel}

theorem normalizeTTL_le {value fallback : Int} (h : value ≤ limit) (hfallback : fallback ≤ limit) :
    normalizeTTL value fallback ≤ limit := by
  unfold normalizeTTL
  split <;> omega

theorem ttl_le {clients clients' : List ClientModel} {input : CreateClientInput}
    {client : ClientModel} (h : createClient registration clients input = .ok (client, clients'))
    (hdefault : 3600 ≤ limit) (haccess : input.accessTokenTTLSeconds ≤ limit)
    (hid : input.idTokenTTLSeconds ≤ limit) (request : TokenRequest) :
    request.ttl client.toClient ≤ limit := by
  obtain ⟨-, haccepted⟩ := createClient_eq_ok h
  have haccessTTL := haccepted.accessTTL
  have hidTTL := haccepted.idTTL
  have haccess' : client.accessTokenTTLSeconds ≤ limit :=
    haccessTTL ▸ normalizeTTL_le haccess hdefault
  have hid' : client.idTokenTTLSeconds ≤ limit := by
    rw [hidTTL, normalizeIDTokenTTL]
    split
    · exact normalizeTTL_le hid hdefault
    · omega
  cases request with
  | access => exact haccess'
  | id =>
    show Token.idTokenTTLSeconds client.toClient ≤ limit
    unfold Token.idTokenTTLSeconds
    split
    · exact hid'
    · split <;> omega

def Outcome (keys : KeyEnv σ) (lib : JWTLibrary σ) (lag : Int) (result : Option Minted)
    (m : Moment ι KeyWorld KeyLabel) : Prop :=
  ∀ minted ∈ result, Honoured keys lib lag m.shared minted

theorem outcome_none (m : Moment ι KeyWorld KeyLabel) : Outcome keys lib lag none m := by
  intro minted hminted
  cases hminted

theorem mintFor_wp [DecidableEq ι] {request : TokenRequest}
    {created : Except ClientError (ClientModel × List ClientModel)}
    (httl : ∀ client rest, created = .ok (client, rest) →
      request.ttl client.toClient * second + lag ≤ day) :
    Wp (lastingKeys keys workingDir lag) (Timely lag) i (mintFor keys workingDir lib env request created)
      (Outcome keys lib lag) m := by
  cases created with
  | error e => exact outcome_none m
  | ok created =>
    refine wp_bind.mpr ((mintToken_wp (httl _ _ rfl)).imp fun result m h => ?_)
    cases result with
    | error e => exact outcome_none m
    | ok a =>
      intro minted hminted
      exact h minted (congrArg Except.ok (Option.some.inj hminted))

theorem KeyWork.code_mint (clients : List ClientModel) (input : CreateClientInput)
    (request : TokenRequest) :
    (KeyWork.mint clients input request).code keys workingDir lib env registration =
      mintFor keys workingDir lib env request (createClient registration clients input) := rfl

/-- **One process among the others.** -/
theorem KeyWork.wp [DecidableEq ι] {work : KeyWork σ} (hcodecs : KeyCodecs keys)
    (hsql : ∀ s, keys.sqlEq s s = true) (hdefault : 3600 ≤ limit)
    (hlimit : limit * second + lag ≤ day) (hwork : work.Within keys workingDir limit) :
    Wp (lastingKeys keys workingDir lag) (Timely lag) i
      (work.code keys workingDir lib env registration) (Outcome keys lib lag) m := by
  cases work with
  | rotate r =>
    obtain ⟨hdir, hretire, hpaths⟩ := hwork
    have hday : r.cfg.normalized.retireAfter = day := if_pos hretire
    have hrotates : Rotates keys workingDir r.cfg.normalized.retireAfter
        (lastingKeys keys workingDir lag) (Timely lag) i := by
      rw [hday]
      exact lastingKeys_rotates hsql
    exact wp_bind.mpr ((rotateKey_wp hrotates hcodecs hdir hpaths r.newKey r.force).imp
      fun _ m _ => outcome_none m)
  | mint clients input request =>
    rw [KeyWork.code_mint]
    -- what the registration answers is not computed here
    generalize hcreated : createClient registration clients input = created
    refine mintFor_wp fun client rest hclient => ?_
    have httl := ttl_le (hcreated.trans hclient) hdefault hwork.1 hwork.2 request
    simp only [second] at hlimit ⊢
    omega

/-- **A token is verified at every moment until it expires**, with the keys that are loaded then. -/
theorem tokens_verifiable [DecidableEq ι] {lag limit : Int} {work : ι → KeyWork σ} {w : KeyWorld}
    {E : KeyWorld → KeyWorld → Prop} (hcodecs : KeyCodecs keys) (hlib : JWTLaws lib keys.publicKey)
    (hsql : ∀ s, keys.sqlEq s s = true) (hdefault : 3600 ≤ limit) (hlimit : limit * second + lag ≤ day)
    (hwork : ∀ i, (work i).Within keys workingDir limit) (hstart : KeyTable keys workingDir w)
    (hE : ∀ s s', E s s' → Ticks s s') {c : Config ι KeyWorld KeyLabel (Option Minted)}
    (hrun : Reach E (Timely lag)
      (Config.start w fun i => (work i).code keys workingDir lib env registration) c)
    {i : ι} {minted : Minted} (hret : c.procs i = .ret (some minted))
    (hlive : c.shared.now < minted.exp * second) :
    ∃ m, c.shared.load keys workingDir = some m ∧
      ((m.signer lib).verifyJWT minted.token).isSome = true := by
  have hsafe : c.Safe (lastingKeys keys workingDir lag) (Timely lag) fun _ => Outcome keys lib lag := by
    refine sound (fun m s hinv hmove => ?_) (fun _ _ m m' hrely _ h minted hminted =>
      (h minted hminted).progress hrely.mono) ?_ hrun
    · obtain ⟨hclock, hrecords, hfiles⟩ := hE _ _ hmove
      obtain ⟨now, records, files⟩ := s
      obtain rfl : records = m.shared.records := hrecords
      obtain rfl : files = m.shared.files := hfiles
      exact ⟨⟨hinv.intact, hinv.kids, hinv.named, hinv.unended⟩, hclock, fun _ _ h => h,
        fun r hr => ⟨r, hr, .inl rfl⟩, id⟩
    · exact ⟨hstart, fun i => KeyWork.wp hcodecs hsql hdefault hlimit (hwork i)⟩
  exact (hsafe.returned hret minted rfl).verified hsafe.1 hlib hlive

end Server

/-! ## Two days -/

def plainJWT : JWTLibrary String where
  sum256 text := text.toList.map fun c => .ofNat c.toNat
  signPKCS1v15 key digest := some (.ofNat key.length :: digest)
  verifyPKCS1v15 key digest signature := signature = .ofNat key.n :: digest
  marshal claims :=
    let text := escape (claims.text "alg") ++ escape (claims.text "kid")
    if text.all (·.toNat < 256) then some (text.map fun c => .ofNat c.toNat) else none
  unmarshal bytes :=
    let (alg, rest) := unescape (bytes.map fun b => Char.ofNat b.toNat)
    some (Signer.header ⟨.ofList (unescape rest).1, .ofList alg, ""⟩)

theorem plainJWT_unmarshal {alg kid : String}
    (h : (escape alg ++ escape kid).all (·.toNat < 256) = true) :
    plainJWT.unmarshal ((escape alg ++ escape kid).map fun c => .ofNat c.toNat) =
      some (Signer.header ⟨kid, alg, ""⟩) := by
  have hchars : ((escape alg ++ escape kid).map fun c => UInt8.ofNat c.toNat).map
      (fun b => Char.ofNat b.toNat) = escape alg ++ escape kid := by
    rw [List.map_map]
    refine (List.map_congr_left fun c hc => ?_).trans (List.map_id _)
    have hc := of_decide_eq_true (List.all_eq_true.mp h c hc)
    simp [Nat.mod_eq_of_lt hc]
  have hkid := unescape_escape kid []
  rw [List.append_nil] at hkid
  show some (Signer.header _) = _
  simp only [hchars, unescape_escape, hkid, String.ofList_toList]

theorem plainJWT_laws : JWTLaws plainJWT KeyEnv.plain.publicKey where
  verify key digest signature h := by
    obtain rfl := Option.some.inj h
    exact decide_eq_true rfl
  header key bytes h := by
    have hmarshal : (if (escape key.alg ++ escape key.kid).all (·.toNat < 256) then
        some ((escape key.alg ++ escape key.kid).map fun c => UInt8.ofNat c.toNat) else none) =
      some bytes := h
    split at hmarshal
    next hall =>
      obtain rfl := Option.some.inj hmarshal
      exact plainJWT_unmarshal hall
    next => cases hmarshal
  claims _ _ _ := rfl

def application (ttl : Int) : CreateClientInput where
  clientID := "application"
  clientName := "Application"
  clientSecret := "password"
  grantTypes := ["client_credentials"]
  scopes := ["email"]
  accessTokenTTLSeconds := ttl

def plainRegistration : ClientEnv := ⟨fun a b => a = b, some, .plain⟩

def keyWork (ttl : Int) : Fin 3 → KeyWork String
  | 0 => .rotate (twoRotations false)
  | 1 => .mint [] (application ttl) (.access "application" "t1" ["email"])
  | 2 => .rotate (twoRotations true)

def keyServer (ttl : Int) : Config (Fin 3) KeyWorld KeyLabel (Option Minted) :=
  Config.start noKeys fun i => (keyWork ttl i).code .plain "/srv" plainJWT (.plain []) plainRegistration

def replaced (pause : Int) : List (Move (Fin 3) KeyWorld) :=
  [.run 0, .run 0, .run 0, .run 1, .run 1, .env fun w => { w with now := w.now + second },
    .run 2, .run 2, .run 2, .env fun w => { w with now := w.now + pause }]

theorem replaced_allowed {pause : Int} (h : 0 ≤ pause) : ∀ mv ∈ replaced pause, mv.Allowed Ticks := by
  have htick (ns : Int) (hns : 0 ≤ ns) (w : KeyWorld) : Ticks w { w with now := w.now + ns } :=
    ⟨by dsimp only; omega, rfl, rfl⟩
  simpa [replaced, Move.Allowed] using ⟨htick second (by decide), htick pause h⟩

def applicationToken : String :=
  "UlMyNTYsa2lkLTE5NzAwMTAxVDAwMDAwMFos.LCw.AVVsTXlOVFlzYTJsa0xURTVOekF3TVRBeFZEQXdNREF3TUZvcy5MQ3c"

theorem keyWork_within {ttl limit : Int} (h : ttl ≤ limit) (hlimit : 0 ≤ limit) (i : Fin 3) :
    (keyWork ttl i).Within .plain "/srv" limit := by
  match i with
  | 0 => exact ⟨rfl, by decide, twoRotations_path false⟩
  | 1 => exact ⟨h, hlimit⟩
  | 2 => exact ⟨rfl, by decide, twoRotations_path true⟩

theorem noKeys_table : KeyTable KeyEnv.plain "/srv" noKeys :=
  ⟨fun _ h => (by cases h), List.nodup_nil, fun _ h => (by cases h), fun _ h => (by cases h)⟩

theorem tokens_verifiable_day :
    ∃ c, Reach Ticks (Timely 0) (keyServer 86398) c ∧
      c.procs 1 = .ret (some ⟨applicationToken, 86398⟩) ∧ c.shared.now = 86397 * second ∧
      c.shared.records.length = 2 ∧
      ∃ m, c.shared.load .plain "/srv" = some m ∧
        ((m.signer plainJWT).verifyJWT applicationToken).isSome = true := by
  obtain ⟨c, hrun, hanswer, hnow, hlength⟩ : ∃ c, Reach Ticks (Timely 0) (keyServer 86398) c ∧
      c.procs 1 = .ret (some ⟨applicationToken, 86398⟩) ∧ c.shared.now = 86397 * second ∧
      c.shared.records.length = 2 :=
    exists_played (replaced (86396 * second)) (replaced_allowed (by decide)) (by decide +kernel)
  have hlive : c.shared.now < (Minted.mk applicationToken 86398).exp * second := by
    rw [hnow]
    decide
  have hlimit : (86398 : Int) * second + 0 ≤ day := by decide
  have hverified := tokens_verifiable plain_codecs plainJWT_laws (fun _ => decide_eq_true rfl) (by omega)
    hlimit (keyWork_within (Int.le_refl _) (by omega)) noKeys_table (fun _ _ h => h) hrun hanswer hlive
  exact ⟨c, hrun, hanswer, hnow, hlength, hverified⟩

/-- **The law fails without the condition.** `CreateClient` accepts a lifetime of two days; a day after the
key was replaced, the token is not verified. -/
theorem token_outlives_key :
    ∃ c m, Reach Ticks (Timely 0) (keyServer 172800) c ∧
      c.procs 1 = .ret (some ⟨applicationToken, 172800⟩) ∧ c.shared.now = 86401 * second ∧
      c.shared.load .plain "/srv" = some m ∧ (m.signer plainJWT).verifyJWT applicationToken = none := by
  obtain ⟨c, hrun, hanswer, hnow, hload, hrefused⟩ : ∃ c, Reach Ticks (Timely 0) (keyServer 172800) c ∧
      c.procs 1 = .ret (some ⟨applicationToken, 172800⟩) ∧ c.shared.now = 86401 * second ∧
      (c.shared.load KeyEnv.plain "/srv").isSome = true ∧
      ((c.shared.load KeyEnv.plain "/srv").bind fun m =>
        (m.signer plainJWT).verifyJWT applicationToken).isNone = true :=
    exists_played (replaced (86400 * second)) (replaced_allowed (by decide)) (by decide +kernel)
  obtain ⟨m, hm⟩ := Option.isSome_iff_exists.mp hload
  rw [hm, Option.bind_some, Option.isNone_iff_eq_none] at hrefused
  exact ⟨c, m, hrun, hanswer, hnow, hm, hrefused⟩

end IdpServer.Laws.Crypto
