import IdpServer.Conc.Midway
import IdpServer.Laws.Token.OtherClients

/-!
# Laws.Token.Families — a family that was revoked

A rotated refresh token that turns up again leaves a key that later checks of its family find. The key may go
before the tokens (`outlivedFamily`), a token may have no hash, a check may have been made already;
`family_stays_revoked` says that these are all the gaps.
-/

namespace IdpServer.Laws.Token

open Conc IdpServer.Cache Store IdpServer.Token Go

/-! ## Families -/

section Kin

variable {α : Type} {R R' : α → α → Prop} {a b : α}

def Kin (R : α → α → Prop) (a b : α) : Prop :=
  ∃ root, Relation.ReflTransGen R root a ∧ Relation.ReflTransGen R root b

theorem Kin.step {b' : α} (h : Kin R a b) (hR : R b b') : Kin R a b' := by
  obtain ⟨root, ha, hb⟩ := h
  exact ⟨root, ha, hb.tail hR⟩

theorem Kin.mem {S : α → Prop} (ha : S a) (hclosed : ∀ x y, R x y → S x ∧ S y) (h : Kin R a b) : S b := by
  obtain ⟨root, ha', hb⟩ := h
  cases hb with
  | tail _ hstep => exact (hclosed _ _ hstep).2
  | refl =>
    cases ha' using Relation.ReflTransGen.head_induction_on with
    | refl => exact ha
    | head hstep => exact (hclosed _ _ hstep).1

theorem Kin.of_change (hfrom : ∀ x y, Kin R a x → R' x y → R x y) (hto : ∀ x y, Kin R a y → R' x y → R x y)
    (h : Kin R' a b) : Kin R a b := by
  obtain ⟨root, ha, hb⟩ := h
  -- up from `a` to the common ancestor, and down again to `b`
  have hup : Relation.ReflTransGen R root a := by
    clear hb
    induction ha using Relation.ReflTransGen.head_induction_on with
    | refl => exact .refl
    | head hstep _ ih => exact .head (hto _ _ ⟨_, ih, .refl⟩ hstep) ih
  induction hb with
  | refl => exact ⟨root, hup, .refl⟩
  | tail _ hstep ih => exact ih.step (hfrom _ _ ih hstep)

end Kin

def ReplacedBy (db : Database) (a b : String) : Prop :=
  ∃ r ∈ db.refreshTokens, ∃ r' ∈ db.refreshTokens, r.tokenSHA256 = a ∧ r'.tokenSHA256 = b ∧
    r.replacedByTokenID = some r'.id

/-- The tokens descend from one that was issued first. -/
abbrev SameFamily (db : Database) : String → String → Prop := Kin (ReplacedBy db)

/-! ## The table -/

/-- The keys of the refresh token table, the foreign key included. -/
structure Tidy (db : Database) : Prop where
  keyed : db.RefreshKeyed
  linked : ∀ r ∈ db.refreshTokens, ∀ id ∈ r.replacedByTokenID, ∃ r' ∈ db.refreshTokens, r'.id = id

/-- The rows of a family are as they were, and no other token came to be replaced by one of them. -/
structure RowsSpared (fam : String → Prop) (db db' : Database) : Prop where
  rows : ∀ r, fam r.tokenSHA256 → (r ∈ db'.refreshTokens ↔ r ∈ db.refreshTokens)
  links : ∀ r ∈ db'.refreshTokens, ∀ r' ∈ db'.refreshTokens, r.replacedByTokenID = some r'.id →
    fam r'.tokenSHA256 → r ∈ db.refreshTokens

/-- How old rows are written when a new one is inserted: they stay, or are replaced by it. -/
structure Marks (db : Database) (new : RefreshToken) (replaced : RefreshToken → Prop)
    (mark : RefreshToken → RefreshToken) : Prop where
  id : ∀ r, (mark r).id = r.id
  digest : ∀ r, (mark r).tokenSHA256 = r.tokenSHA256
  kept : ∀ r ∈ db.refreshTokens,
    mark r = r ∨ replaced r ∧ (mark r).replacedByTokenID = some (db.refreshRow new).id

section Rows

variable {db : Database} {new : RefreshToken} {replaced : RefreshToken → Prop}
variable {mark : RefreshToken → RefreshToken}

variable {db' : Database} {fam : String → Prop} {db₀ : Database}

theorem Tidy.congr (h : Tidy db) (hrows : db'.refreshTokens = db.refreshTokens) : Tidy db' := by
  refine ⟨⟨?_, ?_⟩, ?_⟩
  · rw [hrows]
    exact h.keyed.ids
  · rw [hrows]
    exact h.keyed.digests
  · rw [hrows]
    exact h.linked

theorem RowsSpared.congr (h : RowsSpared fam db₀ db) (hrows : db'.refreshTokens = db.refreshTokens) :
    RowsSpared fam db₀ db' := by
  refine ⟨?_, ?_⟩
  · rw [hrows]
    exact h.rows
  · rw [hrows]
    exact h.links

theorem Tidy.insert (h : Tidy db) (hmark : Marks db new replaced mark) (hnew : new.replacedByTokenID = none)
    (hfresh : ∀ r ∈ db.refreshTokens, r.tokenSHA256 ≠ new.tokenSHA256) :
    Tidy { db with refreshTokens := db.refreshTokens.map mark ++ [db.refreshRow new] } := by
  refine ⟨h.keyed.append mark hmark.id hmark.digest hfresh, fun r hr id hid => ?_⟩
  rcases List.mem_append.mp hr with hr | hr
  · obtain ⟨r₀, hr₀, rfl⟩ := List.mem_map.mp hr
    rcases hmark.kept r₀ hr₀ with hsame | ⟨-, hreplaced⟩
    · rw [hsame] at hid
      obtain ⟨r', hr', rfl⟩ := h.linked r₀ hr₀ id hid
      exact ⟨mark r', List.mem_append_left _ (List.mem_map_of_mem hr'), hmark.id r'⟩
    · cases hreplaced.symm.trans hid
      exact ⟨_, List.mem_append_right _ (List.mem_singleton_self _), rfl⟩
  · rw [List.mem_singleton.mp hr, show (db.refreshRow new).replacedByTokenID = none from hnew] at hid
    cases hid

theorem RowsSpared.insert (h : RowsSpared fam db₀ db)
    (hmark : Marks db new (fun r => ¬ fam r.tokenSHA256) mark) (hnew : new.replacedByTokenID = none)
    (hother : ¬ fam new.tokenSHA256) :
    RowsSpared fam db₀ { db with refreshTokens := db.refreshTokens.map mark ++ [db.refreshRow new] } := by
  have hrows : ∀ r, fam r.tokenSHA256 →
      (r ∈ db.refreshTokens.map mark ++ [db.refreshRow new] ↔ r ∈ db.refreshTokens) := by
    intro r hfam
    constructor
    · intro hr
      rcases List.mem_append.mp hr with hr | hr
      · obtain ⟨r₀, hr₀, rfl⟩ := List.mem_map.mp hr
        rw [hmark.digest] at hfam
        rcases hmark.kept r₀ hr₀ with hsame | ⟨hreplaced, -⟩
        · rwa [hsame]
        · exact absurd hfam hreplaced
      · rw [List.mem_singleton.mp hr] at hfam
        exact absurd hfam hother
    · intro hr
      rcases hmark.kept r hr with hsame | ⟨hreplaced, -⟩
      · exact List.mem_append_left _ (List.mem_map.mpr ⟨r, hr, hsame⟩)
      · exact absurd hfam hreplaced
  refine ⟨fun r hfam => (hrows r hfam).trans (h.rows r hfam), fun r hr r' hr' hlink hfam => ?_⟩
  have hr' := (hrows r' hfam).mp hr'
  rcases List.mem_append.mp hr with hr | hr
  · obtain ⟨r₀, hr₀, rfl⟩ := List.mem_map.mp hr
    rcases hmark.kept r₀ hr₀ with hsame | ⟨-, hreplaced⟩
    · rw [hsame] at hlink ⊢
      exact h.links r₀ hr₀ r' hr' hlink hfam
    · -- the id of the new row is larger than those there are
      have hid : (db.refreshRow new).id = r'.id := Option.some.inj (hreplaced.symm.trans hlink)
      have hlt : r'.id < (db.refreshRow new).id := lt_nextID (List.mem_map_of_mem hr')
      omega
  · rw [List.mem_singleton.mp hr, show (db.refreshRow new).replacedByTokenID = none from hnew] at hlink
    cases hlink

theorem RowsSpared.family {sha : String} (hfirst : Tidy db)
    (h : RowsSpared (SameFamily db sha) db db') (htidy : Tidy db') {s : String}
    (hkin : SameFamily db' sha s) : SameFamily db sha s := by
  refine Kin.of_change (fun x y hx => ?_) (fun x y hy => ?_) hkin
  · rintro ⟨r, hr, r', hr', rfl, rfl, hlink⟩
    have hr := (h.rows r hx).mp hr
    obtain ⟨r₂, hr₂, hid⟩ := hfirst.linked r hr r'.id hlink
    have hstep : ReplacedBy db r.tokenSHA256 r₂.tokenSHA256 := ⟨r, hr, r₂, hr₂, rfl, rfl, by rw [hlink, hid]⟩
    have hsame : r' = r₂ := htidy.keyed.eq_of_id hr' ((h.rows r₂ (hx.step hstep)).mpr hr₂) hid.symm
    rwa [hsame]
  · rintro ⟨r, hr, r', hr', rfl, rfl, hlink⟩
    exact ⟨r, h.links r hr r' hr' hlink hy, r', (h.rows r' hy).mp hr', rfl, rfl, hlink⟩

end Rows

/-! ## The commands of a request -/

section Sends

variable {env : Env} {draws : Draws} {input : ExchangeInput}

/-- The digest of the refresh token a request presents. -/
def presents (env : Env) (input : ExchangeInput) : Option String :=
  if input.grantType = .refreshToken then some (env.sha256Hex input.refreshToken) else none

variable {l : Label} {f : World → World}

theorem Sends.now (h : Sends env draws input l f) (w : World) : (f w).now = w.now := by
  cases h with
  | granting h =>
    cases h with
    | issued h => cases h <;> rfl
    | _ => rfl
  | _ => rfl

/-- **What a command does to refresh tokens**, by the token that is presented and the one that is drawn. -/
inductive Changes (presented : Option String) (drawn : String) (w w' : World) : Prop
  | aside (hrows : w'.db.refreshTokens = w.db.refreshTokens) (hrefresh : w'.tokens.refresh = w.tokens.refresh)
      (hfamilies : w'.tokens.familyRevoked = w.tokens.familyRevoked)
  | insert (new : RefreshToken) (mark : RefreshToken → RefreshToken) (hsha : new.tokenSHA256 = drawn)
      (hnew : new.replacedByTokenID = none) (hfresh : ∀ r ∈ w.db.refreshTokens, r.tokenSHA256 ≠ new.tokenSHA256)
      (hmark : Marks w.db new (fun r => presented = some r.tokenSHA256) mark)
      (hrows : w'.db.refreshTokens = w.db.refreshTokens.map mark ++ [w.db.refreshRow new])
      (htokens : w'.tokens = w.tokens)
  | hash (hrows : w'.db.refreshTokens = w.db.refreshTokens)
      (hrefresh : ∀ sha, presented ≠ some sha → sha ≠ drawn → w'.tokens.refresh sha = w.tokens.refresh sha)
      (hfamilies : w'.tokens.familyRevoked = w.tokens.familyRevoked)
  | check (sha : String) (nowTS : Int) (fp : String) (hpresented : presented = some sha)
      (hrows : w'.db.refreshTokens = w.db.refreshTokens)
      (htokens : w'.tokens = (w.tokens.checkRefreshReplay w.now sha nowTS fp).2)

theorem marks_id (db : Database) (new : RefreshToken) (replaced : RefreshToken → Prop) :
    Marks db new replaced id :=
  ⟨fun _ => rfl, fun _ => rfl, fun _ _ => .inl rfl⟩

theorem Granting.changes {token : String} (h : Granting env token l f) (presented : Option String)
    (w : World) : Changes presented (env.sha256Hex token) w (f w) := by
  cases h with
  | issued h =>
    cases h with
    | createAccessToken t _ =>
      obtain ⟨rows, h⟩ := w.db.createAccessToken_frame t
      exact .aside (by dsimp only; rw [h]) rfl rfl
    | saveAccessToken sha e ttl => exact .aside rfl rfl rfl
    | createRefreshToken client user scopes now =>
      by_cases htaken : (w.db.createRefreshToken (firstRow env token client user scopes now)).1 = true
      · have hfresh := Database.createRefreshToken_new htaken
        refine .insert (firstRow env token client user scopes now) id rfl rfl hfresh (marks_id _ _ _) ?_ rfl
        have hany : (w.db.refreshTokens.any fun r =>
            r.tokenSHA256 = (firstRow env token client user scopes now).tokenSHA256) = false := by
          simpa using hfresh
        simp only [Database.createRefreshToken, hany, Bool.false_eq_true, if_false, List.map_id]
      · refine .aside ?_ rfl rfl
        simp only [Database.createRefreshToken] at htaken ⊢
        split at htaken
        next hany => rw [if_pos hany]
        next => exact absurd rfl htaken
    | saveRefreshToken e ttl hsha =>
      refine .hash rfl (fun s _ hs => ?_) rfl
      rw [← hsha] at hs
      show Keyspace.expireCommand _ _ _ _ s = _
      rw [Keyspace.expireCommand_of_ne hs, Keyspace.alter_of_ne hs]
  | consumeByCode code consumedAt =>
    refine .aside ?_ rfl rfl
    simp only [Database.consumeByCode]
    repeat' split
    all_goals rfl
  | touchPoll deviceCode polledAt minInterval => exact .aside rfl rfl rfl
  | consumeDevice deviceCode consumedAt => exact .aside rfl rfl rfl
  | verifyPassword userID => exact .aside rfl rfl rfl

theorem Sends.changes {w : World} (h : Sends env draws input l f) (htidy : Tidy w.db) :
    Changes (presents env input) (env.sha256Hex draws.refreshToken) w (f w) := by
  cases h with
  | granting h => exact h.changes _ w
  | check hgrant nowTS fp => exact .check _ nowTS fp (if_pos hgrant) rfl rfl
  | rotateRefreshToken hgrant revokedAt row hsha hnew =>
    obtain ⟨-, hsame⟩ | ⟨old, hold, -, hfresh, heq⟩ :=
      w.db.rotateRefreshToken_cases (env.sha256Hex input.refreshToken) revokedAt row
    · exact .aside (by dsimp only; rw [hsame]) rfl rfl
    · refine .insert row _ hsha hnew hfresh ?_ (by dsimp only; rw [heq]) rfl
      have hdigest : old.tokenSHA256 = env.sha256Hex input.refreshToken := by simpa using List.find?_some hold
      refine ⟨fun r => ?_, fun r => ?_, fun r hr => ?_⟩
      · split <;> rfl
      · split <;> rfl
      · split
        next hid =>
          obtain rfl := htidy.keyed.eq_of_id hr (List.mem_of_find?_eq_some hold) hid
          exact .inr ⟨by rw [hdigest]; exact if_pos hgrant, rfl⟩
        next => exact .inl rfl
  | rotateToken hgrant new response fp newTTL graceTTL nowTS hsha =>
    obtain ⟨-, hsame⟩ | ⟨h, -, -, -, heq⟩ := w.tokens.rotateToken_cases w.now (env.sha256Hex input.refreshToken) new
      response fp (durationSeconds newTTL) (durationSeconds graceTTL) nowTS
    · exact .aside rfl (by dsimp only; rw [hsame]) (by dsimp only; rw [hsame])
    · refine .hash rfl (fun s hs hs' => ?_) (by dsimp only; rw [heq])
      have hne : s ≠ env.sha256Hex input.refreshToken := by
        rintro rfl
        exact hs (if_pos hgrant)
      rw [← hsha] at hs'
      dsimp only
      rw [heq]
      show Keyspace.expireIn _ _ _ _ s = _
      rw [Keyspace.expireIn_of_ne hs', Keyspace.alter_of_ne hs', Keyspace.alter_of_ne hne]

end Sends

/-! ## What a revoked family is spared -/

structure CacheSpared (fam : String → Prop) (family : String) (c c' : TokenCache) : Prop where
  hash : ∀ sha, fam sha → c'.refresh sha = c.refresh sha
  key : c'.familyRevoked family = c.familyRevoked family

section Changes

variable {presented : Option String} {drawn : String} {w w' : World} {fam : String → Prop} {family : String}

theorem Changes.tidy (h : Changes presented drawn w w') (htidy : Tidy w.db) : Tidy w'.db := by
  cases h with
  | aside hrows => exact htidy.congr hrows
  | insert new mark hsha hnew hfresh hmark hrows => exact (htidy.insert hmark hnew hfresh).congr hrows
  | hash hrows => exact htidy.congr hrows
  | check sha nowTS fp hpresented hrows => exact htidy.congr hrows

theorem Changes.rowsSpared (h : Changes presented drawn w w') {db : Database} (hspared : RowsSpared fam db w.db)
    (hpresented : ∀ sha ∈ presented, ¬ fam sha) (hdrawn : ¬ fam drawn) : RowsSpared fam db w'.db := by
  cases h with
  | aside hrows => exact hspared.congr hrows
  | insert new mark hsha hnew hfresh hmark hrows =>
    refine (hspared.insert ⟨hmark.id, hmark.digest, fun r hr => ?_⟩ hnew (hsha ▸ hdrawn)).congr hrows
    exact (hmark.kept r hr).imp_right fun ⟨hreplaced, hid⟩ => ⟨hpresented _ hreplaced, hid⟩
  | hash hrows => exact hspared.congr hrows
  | check sha nowTS fp hpresented hrows => exact hspared.congr hrows

theorem Changes.cacheSpared (h : Changes presented drawn w w') {c : TokenCache}
    (hspared : CacheSpared fam family c w.tokens) (hpresented : ∀ sha ∈ presented, ¬ fam sha)
    (hdrawn : ¬ fam drawn) (hkey : w.tokens.familyRevoked.has w.now family = true) :
    CacheSpared fam family c w'.tokens := by
  cases h with
  | aside hrows hrefresh hfamilies =>
    exact ⟨fun sha hsha => by rw [hrefresh, hspared.hash sha hsha], by rw [hfamilies, hspared.key]⟩
  | insert new mark hsha hnew hfresh hmark hrows htokens =>
    rwa [htokens]
  | hash hrows hrefresh hfamilies =>
    refine ⟨fun sha hsha => ?_, by rw [hfamilies, hspared.key]⟩
    rw [hrefresh sha (fun h => hpresented sha h hsha) (fun h => hdrawn (h ▸ hsha)), hspared.hash sha hsha]
  | check sha nowTS fp hsha hrows htokens =>
    rw [htokens]
    obtain hsame | ⟨h, -, hrevoked, -, -, heq⟩ := w.tokens.checkRefreshReplay_cases w.now sha nowTS fp
    · rwa [hsame]
    · have hother : family ≠ h.family sha := by
        intro heq
        rw [← heq, hkey] at hrevoked
        cases hrevoked
      rw [heq]
      refine ⟨fun s hs => ?_, ?_⟩
      · have hne : s ≠ sha := fun h => hpresented sha hsha (h ▸ hs)
        rw [← hspared.hash s hs]
        dsimp only
        exact Keyspace.alter_of_ne hne
      · rw [← hspared.key]
        exact Keyspace.put_of_ne hother

end Changes

/-! ## After the reuse was detected -/

abbrev afterCheck (w : World) (sha : String) (nowTS : Int) (fp : String) : World :=
  { w with tokens := (w.tokens.checkRefreshReplay w.now sha nowTS fp).2 }

/-- When the key of the family will be gone: it gets what is left of the hash of the token that was reused. -/
abbrev keyDeadline (w : World) (sha : String) : Int := w.now + w.tokens.familyTTL w.now sha * second

/-- A rotated token is presented again, by somebody else or too late, and its family is not revoked yet. -/
structure Detects (w : World) (sha : String) (nowTS : Int) (fp : String) (h : RefreshTokenHash) : Prop where
  hash : w.tokens.refresh.get w.now sha = some h
  unrevoked : w.tokens.familyRevoked.has w.now (h.family sha) = false
  rotated : h.effectiveStatus = .rotated
  late : h.inGrace nowTS fp = false

variable {w : World} {sha fp : String} {nowTS : Int} {h : RefreshTokenHash}

theorem Detects.check (hd : Detects w sha nowTS fp h) :
    w.tokens.checkRefreshReplay w.now sha nowTS fp = (.rejected, { w.tokens with
      familyRevoked := w.tokens.familyRevoked.put (h.family sha) () (some (keyDeadline w sha))
      refresh := w.tokens.refresh.alter w.now sha fun old =>
        { old.getD {} with status := some .compromised } }) := by
  simp only [keyDeadline, TokenCache.checkRefreshReplay, hd.hash, hd.unrevoked, hd.rotated, hd.late,
    Bool.false_eq_true, if_false]

/-- What is to be known of a revoked family: its tokens lead to the key, which outlives them. -/
structure Revoked (fam : String → Prop) (family : String) (deadline : Int) (w : World) : Prop where
  key : w.tokens.familyRevoked family = some ⟨(), some deadline⟩
  named : ∀ sha, fam sha → ∀ h, w.tokens.refresh.get w.now sha = some h → h.family sha = family
  cached : ∀ r ∈ w.db.refreshTokens, fam r.tokenSHA256 → w.now < r.expiresAt →
    ∃ e, w.tokens.refresh r.tokenSHA256 = some e ∧ ∀ t ∈ e.expireAt, r.expiresAt ≤ t
  outlived : ∀ r ∈ w.db.refreshTokens, fam r.tokenSHA256 → r.expiresAt ≤ deadline

structure Held (fam : String → Prop) (family : String) (deadline : Int) (w w' : World) : Prop where
  now : w.now ≤ w'.now
  rows : RowsSpared fam w.db w'.db
  cache : w'.now < deadline → CacheSpared fam family w.tokens w'.tokens

section Held

variable {fam : String → Prop} {family : String} {deadline : Int} {w w' : World}

theorem Held.key (h : Held fam family deadline w w') (hrevoked : Revoked fam family deadline w)
    (hlive : w'.now < deadline) : w'.tokens.familyRevoked.has w'.now family = true := by
  have hkey := (h.cache hlive).key.trans hrevoked.key
  have hget : w'.tokens.familyRevoked.get w'.now family = some () :=
    Keyspace.get_eq_some.mpr ⟨some deadline, hkey, fun x hx => by rwa [← Option.mem_some_iff.mp hx]⟩
  rw [Keyspace.has, hget]
  rfl

/-- **A token of the family is rejected**, unless it has expired and its hash is gone. -/
theorem Held.check (h : Held fam family deadline w w') (hrevoked : Revoked fam family deadline w)
    (hlive : w'.now < deadline) {sha : String} (hsha : fam sha) (nowTS : Int) (fp : String) :
    w'.tokens.checkRefreshReplay w'.now sha nowTS fp = (.rejected, w'.tokens) ∨
    w'.tokens.checkRefreshReplay w'.now sha nowTS fp = (.none, w'.tokens) ∧
      ∀ r ∈ w.db.refreshTokens, r.tokenSHA256 = sha → r.expiresAt ≤ w'.now := by
  have hsame : ∀ now, w'.tokens.refresh.get now sha = w.tokens.refresh.get now sha :=
    fun now => Keyspace.get_congr ((h.cache hlive).hash sha hsha)
  unfold TokenCache.checkRefreshReplay
  cases hget : w'.tokens.refresh.get w'.now sha with
  | none =>
    refine .inr ⟨rfl, ?_⟩
    rintro r hr rfl
    by_contra hunexpired
    have hunexpired := Int.not_le.mp hunexpired
    obtain ⟨⟨value, expireAt⟩, he, hlasts⟩ := hrevoked.cached r hr hsha (Int.lt_of_le_of_lt h.now hunexpired)
    have hthere : w.tokens.refresh.get w'.now r.tokenSHA256 = some value :=
      Keyspace.get_eq_some.mpr ⟨expireAt, he, fun x hx => Int.lt_of_lt_of_le hunexpired (hlasts x hx)⟩
    rw [hsame, hthere] at hget
    cases hget
  | some hash =>
    refine .inl ?_
    have hfamily : hash.family sha = family := by
      rw [hsame] at hget
      exact hrevoked.named sha hsha hash (Keyspace.get_of_le h.now hget)
    dsimp only
    rw [hfamily, h.key hrevoked hlive, if_pos rfl]

end Held

/-! ## The law -/

variable {ι : Type}

/-- What else may go on: time passes, and what has nothing to do with refresh tokens may change. -/
structure Undisturbed (w w' : World) : Prop where
  now : w.now ≤ w'.now
  rows : w'.db.refreshTokens = w.db.refreshTokens
  hashes : w'.tokens.refresh = w.tokens.refresh
  families : w'.tokens.familyRevoked = w.tokens.familyRevoked

def isCheck : Label → Bool
  | .checkRefreshReplay .. => true
  | _ => false

abbrev requests (env : Env) (calls : ι → Draws × ExchangeInput) (w : World) :
    Config ι World Label (Except TokenError ExchangeResult) :=
  Config.start w fun i => (exchange env (calls i).1 (calls i).2).run

/-- **The condition**, before the reuse of a token is detected: the family is its own, by the rows of the
database, and goes by this name in the cache. -/
structure Contained (env : Env) (calls : ι → Draws × ExchangeInput) (sha family : String)
    (c : Config ι World Label (Except TokenError ExchangeResult)) : Prop where
  /-- The hashes of its tokens name it. -/
  named : ∀ s, SameFamily c.shared.db sha s → ∀ h, c.shared.tokens.refresh.get c.shared.now s = some h →
    h.family s = family
  /-- Every token that has not expired has a hash, which stays until it does. -/
  cached : ∀ r ∈ c.shared.db.refreshTokens, SameFamily c.shared.db sha r.tokenSHA256 →
    c.shared.now < r.expiresAt →
    ∃ e, c.shared.tokens.refresh r.tokenSHA256 = some e ∧ ∀ t ∈ e.expireAt, r.expiresAt ≤ t
  /-- No token expires later than the key of the family. -/
  outlived : ∀ r ∈ c.shared.db.refreshTokens, SameFamily c.shared.db sha r.tokenSHA256 →
    r.expiresAt ≤ keyDeadline c.shared sha
  /-- Nobody who presents a token of the family is past the replay check. -/
  unchecked : ∀ k, (∀ a, c.procs k ≠ .ret a) → ∀ s ∈ presents env (calls k).2, SameFamily c.shared.db sha s →
    ∀ x ∈ c.trace, x.pid = k → isCheck x.label = false
  /-- The requests that drew the tokens of the family have been answered. -/
  handed : ∀ k, (∀ a, c.procs k ≠ .ret a) → ¬ SameFamily c.shared.db sha (env.sha256Hex (calls k).1.refreshToken)

theorem Contained.revoked {env : Env} {calls : ι → Draws × ExchangeInput}
    {c : Config ι World Label (Except TokenError ExchangeResult)}
    (hc : Contained env calls sha (h.family sha) c) (hd : Detects c.shared sha nowTS fp h) :
    Revoked (SameFamily c.shared.db sha) (h.family sha) (keyDeadline c.shared sha)
      (afterCheck c.shared sha nowTS fp) := by
  rw [afterCheck, hd.check]
  obtain ⟨expireAt, he, halive⟩ := Keyspace.get_eq_some.mp hd.hash
  have hentry : c.shared.tokens.refresh.entry c.shared.now sha = some ⟨h, expireAt⟩ :=
    Keyspace.entry_eq_some.mpr ⟨he, halive⟩
  -- the hash of the reused token is marked, and keeps its family and its time to live
  have hmarked := Keyspace.entry_alter_self (f := fun old : Option RefreshTokenHash =>
    { old.getD {} with status := some .compromised }) hentry
  constructor
  · exact Keyspace.put_self
  · intro s hs hash hget
    by_cases hsame : s = sha
    · subst hsame
      rw [Keyspace.get] at hget
      rw [hmarked] at hget
      cases hget
      rfl
    · dsimp only at hget
      rw [Keyspace.get_alter_of_ne hsame] at hget
      exact hc.named s hs hash hget
  · intro r hr hkin hunexpired
    obtain ⟨e, he', hlasts⟩ := hc.cached r hr hkin hunexpired
    by_cases hsame : r.tokenSHA256 = sha
    · rw [hsame] at he' ⊢
      cases he.symm.trans he'
      exact ⟨_, (Keyspace.entry_eq_some.mp hmarked).1, hlasts⟩
    · refine ⟨e, ?_, hlasts⟩
      dsimp only
      rw [Keyspace.alter_of_ne hsame, he']
  · exact hc.outlived

section Run

variable {fam : String → Prop} {family : String} {deadline : Int} {w : World}
variable {env : Env} {calls : ι → Draws × ExchangeInput}
variable {c : Config ι World Label (Except TokenError ExchangeResult)} {x : Event ι World Label}

/-- The table keeps its keys, and from this moment of the trace on the family is held. -/
def holding (fam : String → Prop) (family : String) (deadline : Int) (w : World)
    (since : List (Event ι World Label)) : Discipline ι World Label where
  inv m := Tidy m.shared.db ∧ (since <:+ m.trace → Held fam family deadline w m.shared)
  mono m m' := m.shared.now ≤ m'.shared.now
  mono_refl := Moment.clock_refl World.now
  mono_trans := @Moment.clock_trans ι World Label World.now

variable {draws : Draws} {input : ExchangeInput} {l : Label} {f : World → World} {w' : World}
variable {sha : String}

theorem holding_kept {m : Moment ι World Label} {k : ι} (hsends : Sends env draws input l f)
    (hinv : (holding fam family deadline w (x :: c.trace)).inv m) (hA : Through c x m k l)
    (hstep : l = x.label → f c.shared = w)
    (hlater : (∀ a, c.procs k ≠ .ret a) → Held fam family deadline w m.shared →
      Held fam family deadline w (f m.shared)) :
    (holding fam family deadline w (x :: c.trace)).Kept m (m.after k l f) := by
  refine ⟨⟨(hsends.changes hinv.1).tidy hinv.1, fun hsince => ?_⟩, Int.le_of_eq (hsends.now _).symm⟩
  rcases hA with hpast | ⟨rfl, rfl⟩ | ⟨hsince', hlate⟩
  · exact absurd (hsince.trans hpast).length_le (Nat.not_succ_le_self _)
  · have hw : f c.shared = w := hstep rfl
    rw [Moment.after_shared, hw]
    exact ⟨Int.le_refl _, ⟨fun _ _ => Iff.rfl, fun r hr _ _ _ _ => hr⟩, fun _ => ⟨fun _ _ => rfl, rfl⟩⟩
  · exact hlater hlate (hinv.2 hsince')

variable (since : List (Event ι World Label))

theorem holding_admits : (holding fam family deadline w since).Admits Undisturbed := by
  intro m s hinv hE
  refine ⟨⟨hinv.1.congr hE.rows, fun hsince => ?_⟩, hE.now⟩
  have hheld := hinv.2 hsince
  refine ⟨Int.le_trans hheld.now hE.now, hheld.rows.congr hE.rows, fun hlive => ?_⟩
  have hcache := hheld.cache (Int.lt_of_le_of_lt hE.now hlive)
  exact ⟨fun sha hsha => by rw [hE.hashes, hcache.hash sha hsha], by rw [hE.families, hcache.key]⟩

theorem Held.aside (h : Held fam family deadline w w') (hrevoked : Revoked fam family deadline w)
    (htidy : Tidy w'.db) (hsends : Sends env draws input l f)
    (hpresented : ∀ s ∈ presents env input, ¬ fam s)
    (hdrawn : ¬ fam (env.sha256Hex draws.refreshToken)) : Held fam family deadline w (f w') := by
  have hchanges := hsends.changes htidy
  refine ⟨?_, hchanges.rowsSpared h.rows hpresented hdrawn, fun hlive => ?_⟩
  · rw [hsends.now]
    exact h.now
  · rw [hsends.now] at hlive
    exact hchanges.cacheSpared (h.cache hlive) hpresented hdrawn (h.key hrevoked hlive)

theorem Held.rejected (h : Held fam family deadline w w') (hrevoked : Revoked fam family deadline w)
    (hsha : fam sha) (nowTS : Int) (fp : String) :
    Held fam family deadline w
      { w' with tokens := (w'.tokens.checkRefreshReplay w'.now sha nowTS fp).2 } := by
  refine ⟨h.now, h.rows, fun hlive => ?_⟩
  rcases h.check hrevoked hlive hsha nowTS fp with heq | ⟨heq, -⟩ <;>
  · rw [heq]
    exact h.cache hlive

theorem Sends.check_eq {fp : String} {nowTS : Int}
    (h : Sends env draws input (.checkRefreshReplay sha nowTS fp) f) :
    f = fun w => { w with tokens := (w.tokens.checkRefreshReplay w.now sha nowTS fp).2 } := by
  cases h with
  | granting h =>
    cases h with
    | issued h => cases h
  | check => rfl

variable [DecidableEq ι]

/-- What a request with a token of the family knows after its check: all of them have expired, or the cache
gave no answer and its token has. -/
def Passed (deadline : Int) (w : World) (since : List (Event ι World Label)) (sha : String)
    (m : Moment ι World Label) : Prop :=
  since <:+ m.trace ∧ (deadline ≤ m.shared.now ∨
    ∀ r ∈ w.db.refreshTokens, r.tokenSHA256 = sha → r.expiresAt ≤ m.shared.now)

theorem passed_stable (sha : String) (k : ι) :
    (holding fam family deadline w since).Stable k (Passed deadline w since sha) := by
  rintro m m' hr - ⟨hsince, hexpired⟩
  refine ⟨hsince.trans hr.suffix, hexpired.imp ?_ ?_⟩
  · exact fun h => Int.le_trans h hr.mono
  · exact fun h r hmem hsha => Int.le_trans (h r hmem hsha) hr.mono

variable {i k : ι} {sha fp : String} {nowTS : Int} {h : RefreshTokenHash} {m : Moment ι World Label}

abbrev detecting (c : Config ι World Label (Except TokenError ExchangeResult)) (i : ι) (sha : String) (nowTS : Int)
    (fp family : String) : Discipline ι World Label :=
  holding (SameFamily c.shared.db sha) family
    (keyDeadline c.shared sha)
    (afterCheck c.shared sha nowTS fp)
    (⟨i, .checkRefreshReplay sha nowTS fp, c.shared⟩ :: c.trace)

theorem checkReplay_held (hc : Contained env calls sha (h.family sha) c) (hd : Detects c.shared sha nowTS fp h)
    (hgrant : (calls k).2.grantType = .refreshToken) (hlate : ∀ a, c.procs k ≠ .ret a)
    (hkin : SameFamily c.shared.db sha (env.sha256Hex (calls k).2.refreshToken)) (fp' : String) :
    Wp (detecting c i sha nowTS fp (h.family sha)) (Through c ⟨i, .checkRefreshReplay sha nowTS fp, c.shared⟩) k
      (checkReplay (env.sha256Hex (calls k).2.refreshToken) fp').run
      (Gives fun r m' =>
        Passed (keyDeadline c.shared sha) (afterCheck c.shared sha nowTS fp)
          (⟨i, .checkRefreshReplay sha nowTS fp, c.shared⟩ :: c.trace)
          (env.sha256Hex (calls k).2.refreshToken) m' ∧
        (r ≠ none → keyDeadline c.shared sha ≤ m'.shared.now)) m := by
  have hrevoked := hc.revoked hd
  have hpresents : env.sha256Hex (calls k).2.refreshToken ∈ presents env (calls k).2 := if_pos hgrant
  refine wp_bind_except.mpr (wp_call gives_error ?_)
  intro m₁ _ _ m₂ _ hinv₂ hA
  have hsends : Sends env (calls k).1 (calls k).2
      (.checkRefreshReplay (env.sha256Hex (calls k).2.refreshToken) (unix m₁.shared.now) fp') _ := .check hgrant _ _
  have hkept := holding_kept hsends hinv₂ hA (fun hl => by cases hl; rfl)
    fun _ hheld => hheld.rejected hrevoked hkin _ _
  refine ⟨hkept.1, hkept.2, ?_, gives_error⟩
  rcases hA with hpast | ⟨rfl, hevent⟩ | ⟨hsince, -⟩
  · -- it was not made before
    have hmem := hpast.subset List.mem_cons_self
    cases hc.unchecked k hlate _ hpresents hkin _ hmem rfl
  · -- it detects the reuse, and is rejected
    cases hevent
    dsimp only
    rw [hd.check]
    rintro _ ⟨⟩
  · have hheld := hinv₂.2 hsince
    dsimp only
    by_cases hlive : m₂.shared.now < keyDeadline c.shared sha
    · rcases hheld.check hrevoked hlive hkin (unix m₁.shared.now) fp' with heq | ⟨heq, hexpired⟩
      · rw [heq]
        rintro _ ⟨⟩
      · rw [heq]
        exact .ok ⟨⟨hsince.trans (List.suffix_cons _ _), .inr hexpired⟩, fun hne => absurd rfl hne⟩
    · have hover := Int.not_lt.mp hlive
      split
      next response _ =>
        exact .ok ⟨⟨hsince.trans (List.suffix_cons _ _), .inl hover⟩, fun _ => hover⟩
      next => rintro _ ⟨⟩
      next =>
        exact .ok ⟨⟨hsince.trans (List.suffix_cons _ _), .inl hover⟩, fun _ => hover⟩

theorem exchange_held (hc : Contained env calls sha (h.family sha) c) (hd : Detects c.shared sha nowTS fp h)
    (hgrant : (calls k).2.grantType = .refreshToken) (hlate : ∀ a, c.procs k ≠ .ret a)
    (hkin : SameFamily c.shared.db sha (env.sha256Hex (calls k).2.refreshToken)) :
    Wp (detecting c i sha nowTS fp (h.family sha)) (Through c ⟨i, .checkRefreshReplay sha nowTS fp, c.shared⟩) k
      (exchange env (calls k).1 (calls k).2).run
      (Gives fun _ m' => keyDeadline c.shared sha ≤ m'.shared.now) m := by
  have hrevoked := hc.revoked hd
  simp only [exchange, hgrant]
  refine .bind (findClient_gives _ _ _) fun client m₁ _ => ?_
  refine .skip (validateClientSecret_silent _ _ _) fun _ m₂ => ?_
  refine .bind (checkReplay_held hc hd hgrant hlate hkin _) fun r m₃ hm₃ => ?_
  cases r with
  | some result =>
    exact .ok (hm₃.2 (fun h => by cases h))
  | none =>
    refine .ask (passed_stable _ _ k) hm₃.1 fun m₄ hinv₄ hm₄ => ?_
    refine .found fun old hold => ?_
    -- the row is still the one it was, and has expired
    obtain ⟨hmem, hsha, -, -, hunexpired⟩ := Database.findActiveRefreshToken_eq_some hold
    obtain ⟨hsince, hexpired⟩ := hm₄
    have hkin' : SameFamily c.shared.db sha old.tokenSHA256 := hsha ▸ hkin
    have hrow := ((hinv₄.2 hsince).rows.rows old hkin').mp hmem
    rcases hexpired with hover | hexpired
    · have houtlived := hrevoked.outlived old hrow hkin'
      omega
    · have hgone := hexpired old hrow hsha
      omega

/-- What is to be shown of a request: with a token of the family, and if it was not answered before, it is
answered only when all of them have expired. -/
def Owed (env : Env) (calls : ι → Draws × ExchangeInput)
    (c : Config ι World Label (Except TokenError ExchangeResult)) (sha : String) (k : ι)
    (r : Except TokenError ExchangeResult) (m : Moment ι World Label) : Prop :=
  (∀ a, c.procs k ≠ .ret a) → (∃ s ∈ presents env (calls k).2, SameFamily c.shared.db sha s) →
    ∀ result, r = .ok result → keyDeadline c.shared sha ≤ m.shared.now

theorem owed_keeps : (holding fam family deadline w (x :: c.trace)).Keeps (Owed env calls c sha) :=
  fun _ _ _ _ hr _ howed hlate hkin result hok => Int.le_trans (howed hlate hkin result hok) hr.mono

theorem request_wp (hc : Contained env calls sha (h.family sha) c) (hd : Detects c.shared sha nowTS fp h) :
    Wp (detecting c i sha nowTS fp (h.family sha)) (Through c ⟨i, .checkRefreshReplay sha nowTS fp, c.shared⟩) k
      (exchange env (calls k).1 (calls k).2).run (Owed env calls c sha k) m := by
  by_cases hwaits : (∀ a, c.procs k ≠ .ret a) ∧ ∃ s ∈ presents env (calls k).2, SameFamily c.shared.db sha s
  · obtain ⟨hlate, s, hs, hkin⟩ := hwaits
    obtain ⟨hgrant, hsha⟩ := Option.ite_none_right_eq_some.mp hs
    obtain rfl := Option.some.inj hsha
    exact (exchange_held hc hd hgrant hlate hkin).imp fun r m' hr _ _ => hr
  · have hkept : ∀ m l f, Sends env (calls k).1 (calls k).2 l f →
        (detecting c i sha nowTS fp (h.family sha)).inv m → True →
        Through c ⟨i, .checkRefreshReplay sha nowTS fp, c.shared⟩ m k l →
        (detecting c i sha nowTS fp (h.family sha)).inv (m.after k l f) ∧
        (detecting c i sha nowTS fp (h.family sha)).mono m (m.after k l f) ∧ True := by
      intro m l f hsends hinv _ hA
      refine and_assoc.mp ⟨holding_kept hsends hinv hA ?_ fun hlate hheld => ?_, trivial⟩
      · rintro rfl
        rw [hsends.check_eq]
      · exact hheld.aside (hc.revoked hd) hinv.1 hsends (fun s hs hkin => hwaits ⟨hlate, s, hs, hkin⟩)
          (hc.handed k hlate)
    exact (Wp.of_acts (exchange_sends env (calls k).1 (calls k).2) stable_true hkept trivial).imp
      fun r m' _ hlate hkin => absurd ⟨hlate, hkin⟩ hwaits

/-- **A revoked family stays revoked.** In a run of any number of exchanges, the reuse of a rotated refresh
token is detected under the condition. Then no exchange that presents a token of the family and was not
answered before is given tokens, as long as any token of the family is unexpired. -/
theorem family_stays_revoked {w : World} (htidy : Tidy w.db)
    {c' c'' : Config ι World Label (Except TokenError ExchangeResult)}
    (hbefore : Reach Undisturbed Unrestricted (requests env calls w) c) (hstep : Step Undisturbed Unrestricted c c')
    (hcheck : c'.trace = ⟨i, .checkRefreshReplay sha nowTS fp, c.shared⟩ :: c.trace)
    (hd : Detects c.shared sha nowTS fp h) (hc : Contained env calls sha (h.family sha) c)
    (hafter : Reach Undisturbed Unrestricted c' c'') (hlate : ∀ a, c.procs k ≠ .ret a) {s : String}
    (hpresents : presents env (calls k).2 = some s) (hkin : SameFamily c''.shared.db sha s)
    (hunexpired : ∃ r ∈ c''.shared.db.refreshTokens, SameFamily c''.shared.db sha r.tokenSHA256 ∧
      c''.shared.now < r.expiresAt) (result : ExchangeResult) :
    c''.procs k ≠ .ret (.ok result) := by
  have hrevoked := hc.revoked hd
  have hsafe : ∀ {d}, Reach Undisturbed (Through c ⟨i, .checkRefreshReplay sha nowTS fp, c.shared⟩)
      (requests env calls w) d → d.Safe (detecting c i sha nowTS fp (h.family sha))
      (Through c ⟨i, .checkRefreshReplay sha nowTS fp, c.shared⟩) (Owed env calls c sha) := by
    refine sound (holding_admits _) owed_keeps ⟨⟨htidy, ?_⟩, fun j => request_wp hc hd⟩
    exact fun hsince => absurd hsince.length_le (Nat.not_succ_le_zero _)
  have hfirst : Tidy c.shared.db := (hsafe (hbefore.until _)).1.1
  have hsafe := hsafe (hbefore.through hstep hcheck hafter)
  have hsince : ⟨i, .checkRefreshReplay sha nowTS fp, c.shared⟩ :: c.trace <:+ c''.trace :=
    hcheck ▸ hafter.trace_suffix
  have hheld := hsafe.1.2 hsince
  have hfamily : ∀ t, SameFamily c''.shared.db sha t → SameFamily c.shared.db sha t :=
    fun t => hheld.rows.family hfirst hsafe.1.1
  intro hret
  have hover := hsafe.returned hret hlate ⟨s, hpresents, hfamily s hkin⟩ result rfl
  obtain ⟨r, hr, hr_kin, hlive⟩ := hunexpired
  have hr_kin := hfamily _ hr_kin
  have hgone := hrevoked.outlived r ((hheld.rows.rows r hr_kin).mp hr) hr_kin
  omega

end Run

/-! ## A token that is reused -/

def issuedForADay : World :=
  { issuedToBoth with tokens := { TokenCache.empty with
      refresh := Keyspace.empty.put "a0" { clientID := "acme", status := some .active, familyID := "a0" }
        (some (86400 * second)) } }

def replacedAtOnce : World :=
  ((exchange twoClients ⟨"x0", "", "a1"⟩ (refreshInput "acme" "a0")).run.eval issuedForADay).2

def reuse (b : Bool) : Draws × ExchangeInput :=
  bif b then (⟨"x2", "", "a2"⟩, refreshInput "acme" "a1")
  else (⟨"x1", "", "s1"⟩, { refreshInput "acme" "a0" with replayFingerprint := "stranger" })

theorem undisturbed_later (ns : Nat) (w : World) : Undisturbed w (w.later ns) :=
  ⟨by simp only [World.later]; omega, rfl, rfl, rfl⟩

theorem family_of_replacedAtOnce {s : String} (h : SameFamily replacedAtOnce.db "a0" s) : s = "a0" ∨ s = "a1" := by
  refine h.mem (S := fun s => s = "a0" ∨ s = "a1") (.inl rfl) ?_
  rintro x y ⟨r, hr, r', hr', rfl, rfl, hlink⟩
  have hall : ∀ r ∈ replacedAtOnce.db.refreshTokens, ∀ r' ∈ replacedAtOnce.db.refreshTokens,
      r.replacedByTokenID = some r'.id → (r.tokenSHA256 = "a0" ∨ r.tokenSHA256 = "a1") ∧
        (r'.tokenSHA256 = "a0" ∨ r'.tokenSHA256 = "a1") := by decide +kernel
  exact hall r hr r' hr' hlink

theorem replacedAtOnce_contained {c : Config Bool World Label (Except TokenError ExchangeResult)}
    (hshared : c.shared = replacedAtOnce) (htrace : c.trace = []) : Contained twoClients reuse "a0" "a0" c := by
  constructor
  · rw [hshared]
    have hnamed : ∀ s ∈ ["a0", "a1"], (replacedAtOnce.tokens.refresh.get replacedAtOnce.now s).all
        (fun h => h.family s = "a0") = true := by decide +kernel
    intro s hs hash hget
    have hmem : s ∈ ["a0", "a1"] := by simpa using family_of_replacedAtOnce hs
    have hfamily := hnamed s hmem
    rw [hget] at hfamily
    exact of_decide_eq_true hfamily
  · rw [hshared]
    have hcached : ∀ r ∈ replacedAtOnce.db.refreshTokens, r.tokenSHA256 = "a0" ∨ r.tokenSHA256 = "a1" →
        (replacedAtOnce.tokens.refresh r.tokenSHA256).any
          (fun e => e.expireAt.all fun t => r.expiresAt ≤ t) = true := by decide +kernel
    intro r hr hkin _
    have hlasts := hcached r hr (family_of_replacedAtOnce hkin)
    cases he : replacedAtOnce.tokens.refresh r.tokenSHA256 with
    | none =>
      rw [he] at hlasts
      cases hlasts
    | some e =>
      refine ⟨e, rfl, fun t ht => ?_⟩
      rw [he, Option.any_some, Option.mem_def.mp ht] at hlasts
      exact of_decide_eq_true hlasts
  · rw [hshared]
    have houtlived : ∀ r ∈ replacedAtOnce.db.refreshTokens, r.expiresAt ≤ keyDeadline replacedAtOnce "a0" := by
      decide +kernel
    exact fun r hr _ => houtlived r hr
  · rw [htrace]
    exact fun _ _ _ _ _ x hx => absurd hx List.not_mem_nil
  · rw [hshared]
    intro b _ hkin
    have hdrawn : ∀ b, (reuse b).1.refreshToken ≠ "a0" ∧ (reuse b).1.refreshToken ≠ "a1" := by decide +kernel
    rcases family_of_replacedAtOnce hkin with h | h
    · exact (hdrawn b).1 h
    · exact (hdrawn b).2 h

theorem exists_detects {family : String} (sha : String) (nowTS : Int) (fp : String)
    (h : (w.tokens.refresh.get w.now sha).any (fun h => decide (h.family sha = family ∧
      w.tokens.familyRevoked.has w.now (h.family sha) = false ∧ h.effectiveStatus = .rotated ∧
      h.inGrace nowTS fp = false)) = true) :
    ∃ hash, hash.family sha = family ∧ Detects w sha nowTS fp hash := by
  cases hget : w.tokens.refresh.get w.now sha with
  | none =>
    rw [hget] at h
    cases h
  | some hash =>
    rw [hget] at h
    obtain ⟨hname, hfamily, hrotated, hlate⟩ := of_decide_eq_true h
    exact ⟨hash, hname, hget, hfamily, hrotated, hlate⟩

abbrev Unexpired (a b : String) (w : World) : Prop :=
  ∃ r ∈ w.db.refreshTokens, ∃ r' ∈ w.db.refreshTokens, r.tokenSHA256 = a ∧ r'.tokenSHA256 = b ∧
    r.replacedByTokenID = some r'.id ∧ w.now < r'.expiresAt

theorem Unexpired.family {a b : String} (h : Unexpired a b w) : SameFamily w.db a b ∧
    ∃ r ∈ w.db.refreshTokens, SameFamily w.db a r.tokenSHA256 ∧ w.now < r.expiresAt := by
  obtain ⟨r, hr, r', hr', ha, rfl, hlink, hlive⟩ := h
  have hkin : SameFamily w.db a r'.tokenSHA256 := ⟨a, .refl, .single ⟨r, hr, r', hr', ha, rfl, hlink⟩⟩
  exact ⟨hkin, r', hr', hkin, hlive⟩

theorem not_ret_of_answer {p : Action (Except TokenError ExchangeResult)} (h : p.answer = none)
    (a : Except TokenError ExchangeResult) : p ≠ .ret a := by
  rintro rfl
  cases h

theorem family_stays_revoked_atOnce : ∃ c c' c'' h,
    Reach Undisturbed Unrestricted (requests twoClients reuse replacedAtOnce) c ∧
    Step Undisturbed Unrestricted c c' ∧
    c'.trace = ⟨false, .checkRefreshReplay "a0" 0 "stranger", c.shared⟩ :: c.trace ∧
    Detects c.shared "a0" 0 "stranger" h ∧ Contained twoClients reuse "a0" (h.family "a0") c ∧
    Reach Undisturbed Unrestricted c' c'' ∧ c''.procs true = .ret (.error .invalidRefreshToken) ∧
    ∀ result, c''.procs true ≠ .ret (.ok result) := by
  obtain ⟨c, l, c', hbefore, hstep, htrace, hmoment, hprocs, hlabel, hplay⟩ :=
    exists_step_played (E := Undisturbed) (A := Unrestricted) (i := false)
      (c := requests twoClients reuse replacedAtOnce)
      (P := fun c' => c'.trace.map (·.label) = [.checkRefreshReplay "a0" 0 "stranger"] ∧
        (c'.play Unrestricted [.run true, .run true]).any (fun c'' => decide (
          c''.procs true = .ret (.error .invalidRefreshToken) ∧ Unexpired "a0" "a1" c''.shared)) = true)
      (by decide +kernel)
  obtain ⟨c'', hafter, hanswer, hlive⟩ := exists_played (E := Undisturbed) _ (by simp [Move.Allowed]) hplay
  have hshared : c.shared = replacedAtOnce := congrArg Moment.shared hmoment
  have hnone : c.trace = [] := congrArg Moment.trace hmoment
  rw [htrace, hnone] at hlabel
  obtain rfl : l = .checkRefreshReplay "a0" 0 "stranger" := List.singleton_injective hlabel
  obtain ⟨h, hname, hd⟩ : ∃ h, h.family "a0" = "a0" ∧ Detects c.shared "a0" 0 "stranger" h := by
    rw [hshared]
    exact exists_detects "a0" 0 "stranger" (by decide +kernel)
  have hc : Contained twoClients reuse "a0" (h.family "a0") c := by
    rw [hname]
    exact replacedAtOnce_contained hshared hnone
  have htidy : Tidy replacedAtOnce.db := ⟨⟨by decide +kernel, by decide +kernel⟩, by decide +kernel⟩
  obtain ⟨hkin, hunexpired⟩ := hlive.family
  have hlate : ∀ a, c.procs true ≠ .ret a := by
    rw [hprocs true (fun h => by cases h)]
    exact not_ret_of_answer (by decide +kernel)
  exact ⟨c, c', c'', h, hbefore, hstep, htrace, hd, hc, hafter, hanswer,
    family_stays_revoked htidy hbefore hstep htrace hd hc hafter hlate (by decide +kernel) hkin hunexpired⟩

def reuseLater : Fin 3 → Draws × ExchangeInput
  | 0 => (⟨"x0", "", "a1"⟩, refreshInput "acme" "a0")
  | 1 => (⟨"x1", "", "s1"⟩, refreshInput "acme" "a0")
  | 2 => (⟨"x2", "", "a2"⟩, refreshInput "acme" "a1")

/-- **The law fails without the condition.** The token is reused ten thousand seconds after it was replaced,
and the family is revoked for what is left of the day. When the day is over, the token that replaced it is
still good for ten hours, and is exchanged for new ones. -/
theorem outlivedFamily : Tidy issuedForADay.db ∧ ∃ c c' c'' h,
    Reach Undisturbed Unrestricted (requests twoClients reuseLater issuedForADay) c ∧
    Step Undisturbed Unrestricted c c' ∧
    c'.trace = ⟨1, .checkRefreshReplay "a0" 60000 "acme", c.shared⟩ :: c.trace ∧
    Detects c.shared "a0" 60000 "acme" h ∧ Reach Undisturbed Unrestricted c' c'' ∧
    (∀ a, c.procs 2 ≠ .ret a) ∧ presents twoClients (reuseLater 2).2 = some "a1" ∧
    SameFamily c''.shared.db "a0" "a1" ∧
    (∃ r ∈ c''.shared.db.refreshTokens, SameFamily c''.shared.db "a0" r.tokenSHA256 ∧
      c''.shared.now < r.expiresAt) ∧
    c''.procs 2 = .ret (.ok ⟨"x2", "Bearer", 3600, "a2", "email", ""⟩) := by
  refine ⟨⟨⟨by decide +kernel, by decide +kernel⟩, by decide +kernel⟩, ?_⟩
  obtain ⟨c₀, hrun, hpending, hdetects, hmove⟩ := exists_played (E := Undisturbed) (A := Unrestricted)
    (c := requests twoClients reuseLater issuedForADay)
    (P := fun c => (c.procs 2).answer = none ∧
      (c.shared.tokens.refresh.get c.shared.now "a0").any (fun h => decide (h.family "a0" = "a0" ∧
        c.shared.tokens.familyRevoked.has c.shared.now (h.family "a0") = false ∧ h.effectiveStatus = .rotated ∧
        h.inGrace 60000 "acme" = false)) = true ∧
      (c.move Unrestricted (.run 1)).any (fun c' => decide (c'.trace.length ≠ c.trace.length ∧
        (c'.trace.head?.map (·.label) = some (.checkRefreshReplay "a0" 60000 "acme") ∧
        (c'.play Unrestricted [.env (World.later 40000000000000), .run 2, .run 2, .run 2, .run 2, .run 2,
          .run 2]).any (fun c'' => decide (
            c''.procs 2 = .ret (.ok ⟨"x2", "Bearer", 3600, "a2", "email", ""⟩) ∧
            Unexpired "a0" "a1" c''.shared)) = true))) = true)
    [.env (World.later 50000000000000), .run 0, .run 0, .run 0, .run 0, .run 0, .run 0,
      .env (World.later 10000000000000)]
    (by simp [Move.Allowed, undisturbed_later]) (by decide +kernel)
  obtain ⟨c, l, c', hbefore, hstep, htrace, hmoment, hprocs, hlabel, hplay⟩ :=
    exists_step_played (E := Undisturbed) hmove
  obtain ⟨c'', hafter, hanswer, hlive⟩ := exists_played (E := Undisturbed) _
    (by simp [Move.Allowed, undisturbed_later]) hplay
  rw [htrace] at hlabel
  obtain rfl : l = .checkRefreshReplay "a0" 60000 "acme" := Option.some.inj hlabel
  obtain ⟨h, -, hd⟩ := exists_detects _ _ _ hdetects
  rw [← show c.shared = c₀.shared from congrArg Moment.shared hmoment] at hd
  obtain ⟨hkin, hunexpired⟩ := hlive.family
  refine ⟨c, c', c'', h, hrun.trans hbefore, hstep, htrace, hd, hafter, ?_, by decide +kernel, hkin, hunexpired,
    hanswer⟩
  rw [hprocs 2 (by decide)]
  exact not_ret_of_answer hpending

end IdpServer.Laws.Token
