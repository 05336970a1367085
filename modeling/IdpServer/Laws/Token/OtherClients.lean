import IdpServer.Laws.Token.Refreshing

/-!
# Laws.Token.OtherClients — what a refresh exchange does to the tokens of other clients

The replay check runs before the client is looked at, and revokes the family of any rotated token that is
presented too late (`familyRevokedByStranger`). `refresh_untouched` is the law for other tokens.
-/

namespace IdpServer.Laws.Token

open Conc IdpServer.Cache Store IdpServer.Token Go

variable {ι : Type}

/-- The token was issued to the client with this id, as its row says. -/
def IssuedTo (a : Int) (w : World) (sha : String) : Prop :=
  ∃ r ∈ w.db.refreshTokens, r.tokenSHA256 = sha ∧ r.clientID = a

/-- A family that a token of the client belongs to, as its hash says. -/
def FamilyOf (a : Int) (w : World) (family : String) : Prop :=
  ∃ r ∈ w.db.refreshTokens, r.clientID = a ∧
    ∃ e ∈ w.tokens.refresh r.tokenSHA256, e.value.family r.tokenSHA256 = family

instance (a : Int) (w : World) (sha : String) : Decidable (IssuedTo a w sha) := by
  unfold IssuedTo; infer_instance

instance (a : Int) (w : World) (family : String) : Decidable (FamilyOf a w family) := by
  unfold FamilyOf; infer_instance

/-- **The refresh tokens of the client are as they were**, with all that belongs to them. -/
structure Untouched (a : Int) (w w' : World) : Prop where
  rows : w'.db.refreshTokens.filter (·.clientID = a) = w.db.refreshTokens.filter (·.clientID = a)
  hash : ∀ sha, IssuedTo a w sha → w'.tokens.refresh sha = w.tokens.refresh sha
  grace : ∀ sha, IssuedTo a w sha → w'.tokens.grace sha = w.tokens.grace sha
  family : ∀ f, FamilyOf a w f → w'.tokens.familyRevoked f = w.tokens.familyRevoked f

/-- What may go on besides: nothing that touches the client, within the keys of the table. -/
def Elsewhere (a : Int) (w w' : World) : Prop :=
  Untouched a w w' ∧ (w.db.RefreshKeyed → w'.db.RefreshKeyed)

/-- **The condition**: a token that is found rotated, and not by a retry, was not issued to the client and
is of no family of the client's tokens. -/
def NotTheirs (a : Int) (m : Moment ι World Label) (_ : ι) : Label → Prop
  | .checkRefreshReplay sha nowTS fp => ∀ h ∈ m.shared.tokens.refresh.get m.shared.now sha,
      h.effectiveStatus = .rotated → h.inGrace nowTS fp = false →
      ¬ IssuedTo a m.shared sha ∧ ¬ FamilyOf a m.shared (h.family sha)
  | _ => True

instance (a : Int) (m : Moment ι World Label) (i : ι) (l : Label) : Decidable (NotTheirs a m i l) := by
  induction l using Label.casesOn <;> dsimp only [NotTheirs] <;> infer_instance

section Untouched

variable {a : Int} {w w' : World}

theorem mem_rows_iff (h : Untouched a w w') {r : RefreshToken} (hr : r.clientID = a) :
    r ∈ w'.db.refreshTokens ↔ r ∈ w.db.refreshTokens := by
  have hmem : r ∈ w'.db.refreshTokens.filter (·.clientID = a) ↔
      r ∈ w.db.refreshTokens.filter (·.clientID = a) := by rw [h.rows]
  simpa [hr] using hmem

theorem Untouched.issuedTo (h : Untouched a w w') (sha : String) :
    IssuedTo a w' sha ↔ IssuedTo a w sha := by
  constructor
  · rintro ⟨r, hr, hsha, ha⟩
    exact ⟨r, (mem_rows_iff h ha).mp hr, hsha, ha⟩
  · rintro ⟨r, hr, hsha, ha⟩
    exact ⟨r, (mem_rows_iff h ha).mpr hr, hsha, ha⟩

theorem Untouched.familyOf (h : Untouched a w w') {f : String} (hf : FamilyOf a w f) :
    FamilyOf a w' f := by
  obtain ⟨r, hr, ha, e, he, hfamily⟩ := hf
  have hhash := h.hash r.tokenSHA256 ⟨r, hr, rfl, ha⟩
  exact ⟨r, (mem_rows_iff h ha).mpr hr, ha, e, hhash ▸ he, hfamily⟩

theorem Untouched.refl (a : Int) (w : World) : Untouched a w w :=
  ⟨rfl, fun _ _ => rfl, fun _ _ => rfl, fun _ _ => rfl⟩

theorem Untouched.trans {w'' : World} (h : Untouched a w w') (h' : Untouched a w' w'') :
    Untouched a w w'' where
  rows := h'.rows.trans h.rows
  hash sha hsha := (h'.hash sha ((h.issuedTo sha).mpr hsha)).trans (h.hash sha hsha)
  grace sha hsha := (h'.grace sha ((h.issuedTo sha).mpr hsha)).trans (h.grace sha hsha)
  family f hf := (h'.family f (h.familyOf hf)).trans (h.family f hf)

theorem Untouched.of_same (hrows : w'.db.refreshTokens = w.db.refreshTokens)
    (hhash : w'.tokens.refresh = w.tokens.refresh) (hgrace : w'.tokens.grace = w.tokens.grace)
    (hfamily : w'.tokens.familyRevoked = w.tokens.familyRevoked) : Untouched a w w' where
  rows := by rw [hrows]
  hash _ _ := by rw [hhash]
  grace _ _ := by rw [hgrace]
  family _ _ := by rw [hfamily]

end Untouched

/-! ## The commands -/

def untouched (ι : Type) (a : Int) : Discipline ι World Label where
  inv m := m.shared.db.RefreshKeyed
  mono m m' := Untouched a m.shared m'.shared
  mono_refl m := .refl a m.shared
  mono_trans := .trans

section Commands

variable {a : Int} {m : Moment ι World Label} {i : ι}

theorem check_untouched {sha fp : String} {nowTS : Int} (hinv : m.shared.db.RefreshKeyed)
    (hA : NotTheirs a m i (.checkRefreshReplay sha nowTS fp)) :
    (untouched ι a).Kept m (m.after i (.checkRefreshReplay sha nowTS fp)
      fun w => { w with tokens := (w.tokens.checkRefreshReplay w.now sha nowTS fp).2 }) := by
  obtain hsame | ⟨h, hh, -, hrotated, hlate, heq⟩ :=
    m.shared.tokens.checkRefreshReplay_cases m.shared.now sha nowTS fp
  · refine ⟨hinv, .of_same rfl ?_ ?_ ?_⟩ <;> simp only [Moment.after_shared, hsame]
  · obtain ⟨hsha, hfamily⟩ := hA h hh hrotated hlate
    refine ⟨hinv, ?_⟩
    show Untouched a m.shared { m.shared with
      tokens := (m.shared.tokens.checkRefreshReplay m.shared.now sha nowTS fp).2 }
    rw [heq]
    constructor
    · rfl
    · intro s hs
      have hne : s ≠ sha := fun h => hsha (h ▸ hs)
      dsimp only
      exact Keyspace.alter_of_ne hne
    · exact fun s hs => rfl
    · intro f hf
      have hne : f ≠ h.family sha := fun h => hfamily (h ▸ hf)
      exact Keyspace.put_of_ne hne

theorem rotate_untouched {sha : String} (revokedAt : Int) (new : RefreshToken)
    (hinv : m.shared.db.RefreshKeyed) (hsha : ¬ IssuedTo a m.shared sha) (hnew : new.clientID ≠ a) :
    let m' := m.after i (.rotateRefreshToken sha revokedAt new)
      fun w => { w with db := (w.db.rotateRefreshToken sha revokedAt new).2 }
    (untouched ι a).Kept m m' ∧
    ((m.shared.db.rotateRefreshToken sha revokedAt new).1 = .rotated →
      ¬ IssuedTo a m'.shared new.tokenSHA256) := by
  have hkeyed := hinv.rotateRefreshToken sha revokedAt new
  have hunchanged : Untouched a m.shared { m.shared with
      db := (m.shared.db.rotateRefreshToken sha revokedAt new).2 } := by
    obtain ⟨-, hsame⟩ | ⟨old, hold, -, -, heq⟩ :=
      m.shared.db.rotateRefreshToken_cases sha revokedAt new
    · rw [hsame]
      exact .refl a _
    · rw [heq]
      refine ⟨?_, fun _ _ => rfl, fun _ _ => rfl, fun _ _ => rfl⟩
      have hother : ∀ r ∈ m.shared.db.refreshTokens, r.id = old.id → r.clientID ≠ a := by
        intro r hr hid ha
        obtain rfl := hinv.eq_of_id hr (List.mem_of_find?_eq_some hold) hid
        exact hsha ⟨r, hr, by simpa using List.find?_some hold, ha⟩
      have hrow : ¬ (m.shared.db.refreshRow new).clientID = a := hnew
      simp only [List.filter_append, List.filter_cons, hrow, decide_false, List.filter_nil,
        Bool.false_eq_true, if_false, List.append_nil]
      -- the marked rows are not the client's, before and after
      rw [List.filter_map, List.filter_congr]
      · refine (List.map_congr_left fun r hr => ?_).trans (List.map_id _)
        obtain ⟨hr, ha⟩ := List.mem_filter.mp hr
        exact if_neg fun hid => hother r hr hid (by simpa using ha)
      · intro r _
        simp only [Function.comp_apply]
        split <;> rfl
  refine ⟨⟨hkeyed, hunchanged⟩, fun hrotated hissued => ?_⟩
  obtain ⟨r, hr, heq, -⟩ := (hunchanged.issuedTo _).mp hissued
  exact Database.rotateRefreshToken_new hrotated r hr heq

theorem rotateCached_untouched {sha fp : String} {new : RefreshTokenCacheEntry}
    {response : TokenResponse} {newTTL graceTTL nowTS : Int} (hinv : m.shared.db.RefreshKeyed)
    (hsha : ¬ IssuedTo a m.shared sha) (hnew : ¬ IssuedTo a m.shared new.tokenSHA256) :
    (untouched ι a).Kept m (m.after i (.rotateToken sha new response fp newTTL nowTS) fun w =>
      { w with tokens := (w.tokens.rotateToken w.now sha new response fp (durationSeconds newTTL)
          (durationSeconds graceTTL) nowTS).2 }) := by
  refine ⟨hinv, ?_⟩
  show Untouched a m.shared { m.shared with
    tokens := (m.shared.tokens.rotateToken m.shared.now sha new response fp
      (durationSeconds newTTL) (durationSeconds graceTTL) nowTS).2 }
  obtain ⟨-, hsame⟩ | ⟨h, -, -, -, heq⟩ := m.shared.tokens.rotateToken_cases m.shared.now sha new
    response fp (durationSeconds newTTL) (durationSeconds graceTTL) nowTS
  · rw [hsame]
    exact .refl a _
  · rw [heq]
    constructor
    · rfl
    · intro s hs
      have hs₁ : s ≠ sha := fun h => hsha (h ▸ hs)
      have hs₂ : s ≠ new.tokenSHA256 := fun h => hnew (h ▸ hs)
      show Keyspace.expireIn _ _ _ _ s = _
      rw [Keyspace.expireIn_of_ne hs₂, Keyspace.alter_of_ne hs₂, Keyspace.alter_of_ne hs₁]
    · intro s hs
      have hne : s ≠ sha := fun h => hsha (h ▸ hs)
      exact Keyspace.put_of_ne hne
    · exact fun f _ => rfl

end Commands

/-! ## The exchange -/

/-- The presented token, once found, is not the client's, nor is the one that replaces it. -/
def untouchedSpec (env : Env) (ι : Type) (a : Int) (draws : Draws) (input : ExchangeInput) :
    RefreshSpec ι where
  toDiscipline := untouched ι a
  found _ _ m := ¬ IssuedTo a m.shared (env.sha256Hex input.refreshToken)
  rotated _ _ _ m := ¬ IssuedTo a m.shared (env.sha256Hex input.refreshToken) ∧
    ¬ IssuedTo a m.shared (env.sha256Hex draws.refreshToken)
  answers _ _ := True

theorem notIssued_lasting (a : Int) (sha : String) :
    (untouched ι a).Lasting fun m => ¬ IssuedTo a m.shared sha :=
  fun _ _ h hm hissued => hm ((h.mono.issuedTo sha).mp hissued)

theorem untouchedSpec_lawful (env : Env) {a : Int} {i : ι} {draws : Draws} {input : ExchangeInput}
    (hother : ∀ client, env.findByClientID (trimSpace input.clientID) = some client → client.id ≠ a) :
    (untouchedSpec env ι a draws input).Lawful env (NotTheirs a) i draws input where
  found_lasting _ _ := notIssued_lasting a _
  rotated_lasting _ _ _ := (notIssued_lasting a _).and (notIssued_lasting a _)
  answers_lasting _ _ _ _ h := h
  check hinv _ hA := ⟨check_untouched hinv hA, fun _ _ => trivial⟩
  row {m client old} hinv hclient hold howner := by
    rintro ⟨r, hr, hsha, ha⟩
    obtain ⟨hmem, hsha', -⟩ := Database.findActiveRefreshToken_eq_some hold
    obtain rfl := Database.RefreshKeyed.eq_of_digest hinv hr hmem (hsha.trans hsha'.symm)
    exact hother client hclient (howner.symm.trans ha)
  createAccess {m} row hinv _ := by
    obtain ⟨rows, h⟩ := m.shared.db.createAccessToken_frame row
    refine ⟨?_, .of_same ?_ rfl rfl rfl⟩
    · show ((m.shared.db.createAccessToken row).2).RefreshKeyed
      rw [h]
      exact ⟨hinv.ids, hinv.digests⟩
    · show ((m.shared.db.createAccessToken row).2).refreshTokens = _
      rw [h]
  saveAccess _ _ _ hinv _ := ⟨hinv, .of_same rfl rfl rfl rfl⟩
  plain _ _ _ _ := trivial
  rotate {m client old now} hinv hfound hclient _ := by
    obtain ⟨hkept, hnew⟩ := rotate_untouched now { RefreshSpec.newRow env draws client old now with
        scopesJSON := env.jsonColumn (RefreshSpec.newRow env draws client old now).scopesJSON }
      hinv hfound (hother client hclient)
    exact ⟨hkept, fun h => ⟨hkept.lasting (notIssued_lasting a _) hfound, hnew h⟩⟩
  rotateCached hinv hrotated _ _ _ _ := rotateCached_untouched hinv hrotated.1 hrotated.2
  answer _ _ _ := trivial

def refreshClient (id : Int) (clientID : String) : Client where
  id := id
  clientID := clientID
  clientName := clientID
  clientSecretHash := ""
  requirePKCE := false
  requireConsent := false
  accessTokenTTLSeconds := 3600
  refreshTokenTTLSeconds := 86400
  idTokenTTLSeconds := 0
  status := "active"
  redirectURIs := []
  grantTypes := [GrantType.refreshToken.text]
  scopes := ["email"]

def twoClients : Env := .plain [refreshClient 1 "acme", refreshClient 2 "bolt"]

def issuedToBoth : World :=
  let token (id : Int) (text : String) (client : Int) : RefreshToken :=
    ⟨id, text, text, client, some 7, "sub-7", "[\"email\"]", 0, 86400 * second, none, none⟩
  let hash (text clientID : String) : RefreshTokenHash :=
    { clientID := clientID, status := some .active, familyID := text }
  { World.empty 0 with
    db := { Database.empty with
      users := [⟨7, "sub-7", "ada", "ada", true, "ada", "", "user", 0#32, "", "active"⟩]
      refreshTokens := [token 1 "a0" 1, token 2 "b0" 2] }
    tokens := { TokenCache.empty with
      refresh := (Keyspace.empty.put "a0" (hash "a0" "acme") none).put "b0" (hash "b0" "bolt") none } }

def refreshInput (clientID token : String) : ExchangeInput where
  grantType := .refreshToken
  clientID := clientID
  refreshToken := token
  replayFingerprint := clientID

def refreshed : World :=
  ((exchange twoClients ⟨"x1", "", "a1"⟩ (refreshInput "acme" "a0")).run.eval issuedToBoth).2

def boltDraws : Draws := ⟨"x2", "", "b1"⟩

def boltPresents (b : Bool) : Draws × ExchangeInput :=
  (boltDraws, refreshInput "bolt" (bif b then "a1" else "b0"))

end IdpServer.Laws.Token
