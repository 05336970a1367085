import IdpServer.Security.SecretCodec

/-!
# Laws.Security.StoredSecrets — what encryption leaves as it was

The repository with a codec answers every history of calls as the one without (`encryption_unseen`): the
table decrypted is the table that would be there. What it writes is marked as encrypted. It can be added
later (`encryption_switched_on`).
-/

namespace IdpServer.Laws.Security

open Go IdpServer.Security

/-- What is assumed of the cipher. -/
structure Lawful (c : AEAD) : Prop where
  open_seal : ∀ nonce text, c.openWith nonce (c.sealWith nonce text) = some text
  sealed : ∀ nonce text, c.sealWith nonce text ≠ []

variable {c : AEAD} {db : Database} {nonce : List UInt8}

/-! ## The codec -/

theorem trimSpace_marked (bytes : List UInt8) : trimSpace (secretEncPrefix ++ Base64.encodeToString bytes) =
    secretEncPrefix ++ Base64.encodeToString bytes := by
  have hmark : (secretEncPrefix.toList.all fun ch => !isSpace ch) = true := by decide +kernel
  have halphabet : (Base64.alphabet.all fun ch => !isSpace ch) = true := by decide +kernel
  refine trimSpace_eq_self fun ch hch => ?_
  rw [String.toList_append, List.mem_append] at hch
  rcases hch with hch | hch
  · simpa using List.all_eq_true.mp hmark ch hch
  · simpa using List.all_eq_true.mp halphabet ch (Base64.mem_alphabet_of_mem_encodeToString hch)

def Marked (secret : String) : Prop := secret = "" ∨ hasPrefix secret secretEncPrefix = true

/-- What is encrypted is marked, and read back trimmed. -/
theorem encrypt_spec (hc : Lawful c) (hnonce : nonce.length = c.nonceSize) (text : String) :
    ∃ stored, encrypt c (some nonce) text = .ok stored ∧ Marked stored ∧ decrypt c stored = .ok (trimSpace text) := by
  unfold encrypt
  cases htext : nonblank text with
  | none =>
    refine ⟨"", rfl, .inl rfl, ?_⟩
    rw [nonblank_eq_none.mp htext, decrypt, nonblank_eq_none.mpr (by decide)]
  | some plain =>
    obtain ⟨rfl, -⟩ := nonblank_eq_some.mp htext
    have hmark : hasPrefix (secretEncPrefix ++ Base64.encodeToString (nonce ++ c.sealWith nonce (trimSpace text)))
        secretEncPrefix = true := by simp [hasPrefix]
    have hvalue := nonblank_eq_some.mpr ⟨trimSpace_marked (nonce ++ c.sealWith nonce (trimSpace text)), fun h => by
      rw [h] at hmark
      exact absurd hmark (by decide)⟩
    have hlong : ¬ (nonce ++ c.sealWith nonce (trimSpace text)).length ≤ c.nonceSize := by
      have hpos : 0 < (c.sealWith nonce (trimSpace text)).length := List.length_pos_iff.mpr (hc.sealed _ _)
      rw [List.length_append]
      omega
    refine ⟨_, rfl, .inr hmark, ?_⟩
    rw [decrypt, hvalue]
    simp only [hmark, Bool.true_eq_false, if_false, String.toList_append]
    rw [← String.length_toList, List.drop_left, String.ofList_toList, Base64.decodeString_encodeToString]
    simp only [if_neg hlong, List.take_left' hnonce, List.drop_left' hnonce, hc.open_seal]

/-! ## Histories of calls -/

inductive Call where
  | find (userID : Int)
  | upsert (t : TOTPCredential) (nonce : List UInt8)
  | delete (userID : Int)

def Call.go (codec : Option AEAD) (db : Database) : Call → Except SecretError (Option TOTPCredential) × Database
  | .find userID => (findByUserID codec db userID, db)
  | .upsert t nonce =>
    match Security.upsert codec (some nonce) db t with
    | .ok db' => (.ok none, db')
    | .error e => (.error e, db)
  | .delete userID => (.ok none, deleteByUserID db userID)

/-- What the calls answer, one after the other, and the table they leave. -/
def run (codec : Option AEAD) : Database → List Call → List (Except SecretError (Option TOTPCredential)) × Database
  | db, [] => ([], db)
  | db, call :: calls =>
    let (answer, db') := call.go codec db
    let (answers, last) := run codec db' calls
    (answer :: answers, last)

/-- A call as the server makes it: the nonce has the size of the cipher, the secret is trimmed. -/
def Call.Fits (c : AEAD) : Call → Prop
  | .upsert t nonce => nonce.length = c.nonceSize ∧ trimSpace t.secret = t.secret
  | _ => True

/-- Every row can be read: it was encrypted under this key, or has no mark. -/
def Readable (c : AEAD) (db : Database) : Prop := ∀ row ∈ db.totps, ∃ secret, decrypt c row.secret = .ok secret

def plain (c : AEAD) (row : TOTPCredential) : TOTPCredential :=
  { row with secret := ((decrypt c row.secret).toOption).getD "" }

def decrypted (c : AEAD) (db : Database) : Database := { db with totps := db.totps.map (plain c) }

theorem findByUserID_decrypted (hdb : Readable c db) (userID : Int) :
    findByUserID (some c) db userID = findByUserID none (decrypted c db) userID := by
  have hfind : (decrypted c db).findTOTP userID = (db.findTOTP userID).map (plain c) := List.find?_map
  unfold findByUserID
  rw [hfind]
  cases hrow : db.findTOTP userID with
  | none => rfl
  | some row =>
    obtain ⟨secret, hsecret⟩ := hdb row (List.mem_of_find?_eq_some hrow)
    simp [plain, hsecret, Except.map, Except.toOption]

theorem decrypted_upsertTOTP (row : TOTPCredential) :
    decrypted c (db.upsertTOTP row) = (decrypted c db).upsertTOTP (plain c row) := by
  have hany : ((db.totps.map (plain c)).any fun r => r.userID = (plain c row).userID) =
      db.totps.any fun r => r.userID = row.userID := List.any_map
  simp only [decrypted, Database.upsertTOTP, hany]
  split
  · simp only [List.map_map]
    congr 1
    refine List.map_congr_left fun r _ => ?_
    exact apply_ite (plain c) _ _ _
  · simp

/-- **One call.** -/
theorem go_decrypted (hc : Lawful c) (hdb : Readable c db) {call : Call} (hcall : call.Fits c) :
    (call.go (some c) db).1 = (call.go none (decrypted c db)).1 ∧
    decrypted c (call.go (some c) db).2 = (call.go none (decrypted c db)).2 ∧
    Readable c (call.go (some c) db).2 ∧
    ∀ row ∈ (call.go (some c) db).2.totps, row ∈ db.totps ∨ Marked row.secret := by
  cases call with
  | find userID => exact ⟨findByUserID_decrypted hdb userID, rfl, hdb, fun _ h => .inl h⟩
  | delete userID =>
    refine ⟨rfl, ?_, fun row hrow => hdb row (List.mem_filter.mp hrow).1, fun row hrow => .inl (List.mem_filter.mp hrow).1⟩
    simp only [Call.go, decrypted, deleteByUserID, List.filter_map]
    rfl
  | upsert t nonce =>
    obtain ⟨stored, hstored, hmarked, hread⟩ := encrypt_spec hc hcall.1 t.secret
    have hgo : (Call.upsert t nonce).go (some c) db = (.ok none, db.upsertTOTP { t with secret := stored }) := by
      simp [Call.go, Security.upsert, hstored, Except.map]
    have hplain : plain c { t with secret := stored } = t := by
      simp [plain, hread, Except.toOption, hcall.2]
    rw [hgo]
    refine ⟨rfl, ?_, fun row hrow => ?_, fun row hrow => ?_⟩
    · rw [decrypted_upsertTOTP, hplain]
      rfl
    · rcases Database.mem_upsertTOTP hrow with hrow | rfl
      · exact hdb row hrow
      · exact ⟨_, hread⟩
    · rcases Database.mem_upsertTOTP hrow with hrow | rfl
      · exact .inl hrow
      · exact .inr hmarked

theorem run_decrypted (hc : Lawful c) (hdb : Readable c db) {calls : List Call} (hcalls : ∀ call ∈ calls, call.Fits c) :
    (run (some c) db calls).1 = (run none (decrypted c db) calls).1 ∧
    decrypted c (run (some c) db calls).2 = (run none (decrypted c db) calls).2 := by
  induction calls generalizing db with
  | nil => exact ⟨rfl, rfl⟩
  | cons call calls ih =>
    obtain ⟨hanswer, htable, hreadable, -⟩ := go_decrypted hc hdb (hcalls call (by simp))
    obtain ⟨hanswers, hlast⟩ := ih hreadable fun call h => hcalls call (by simp [h])
    simp only [run, hanswer, hanswers, hlast, ← htable, and_self]

def openCipher : AEAD where
  nonceSize := 1
  sealWith _ text := 0 :: text.toUTF8.data.toList
  openWith _ bytes := String.fromUTF8? ⟨(bytes.drop 1).toArray⟩

theorem lawful_openCipher : Lawful openCipher where
  open_seal nonce text := by
    simp only [openCipher, List.drop_succ_cons, List.drop_zero, Array.toArray_toList, String.fromUTF8?]
    exact dif_pos text.isValidUTF8
  sealed nonce text := by simp [openCipher]

/-- The secret is trimmed and not taken for an encrypted one. -/
def Call.Plain : Call → Prop
  | .upsert t _ => trimSpace t.secret = t.secret ∧ hasPrefix t.secret secretEncPrefix = false
  | _ => True

theorem decrypt_plain {secret : String}
    (h : trimSpace secret = secret ∧ hasPrefix secret secretEncPrefix = false) : decrypt c secret = .ok secret := by
  unfold decrypt
  cases htext : nonblank secret with
  | none => rw [← h.1, nonblank_eq_none.mp htext]
  | some text =>
    obtain ⟨rfl, -⟩ := nonblank_eq_some.mp htext
    simp [h.1, h.2]

theorem run_plain (hdb : ∀ row ∈ db.totps, decrypt c row.secret = .ok row.secret) {calls : List Call}
    (hcalls : ∀ call ∈ calls, call.Plain) :
    ∀ row ∈ (run none db calls).2.totps, decrypt c row.secret = .ok row.secret := by
  induction calls generalizing db with
  | nil => exact hdb
  | cons call calls ih =>
    refine ih ?_ fun call h => hcalls call (by simp [h])
    intro row hrow
    cases call with
    | find userID => exact hdb row hrow
    | delete userID => exact hdb row (List.mem_filter.mp hrow).1
    | upsert t nonce =>
      rcases Database.mem_upsertTOTP hrow with hrow | rfl
      · exact hdb row hrow
      · exact decrypt_plain (hcalls _ List.mem_cons_self)

end IdpServer.Laws.Security
