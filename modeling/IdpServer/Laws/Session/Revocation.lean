import IdpServer.Laws.Http.Guards
import IdpServer.Laws.Token.Issuing

/-!
# Laws.Session.Revocation — logging out everywhere revokes the tokens it marks

Logging out everywhere lists the access tokens, revokes them, and marks those of the list; one stored in between
**gets no marker** (`revokedWithoutMarker`; `revokedTokensRefused`, under `Complete`).
-/

namespace IdpServer.Laws.Session

open Conc IdpServer.Cache Store Go IdpServer.Session
open Laws.Token (Issuing Exchanging exchange_acts)
open Laws.Http (Check MarkedUntil)

variable {ι : Type}

/-! ## Callers -/

/-- A logout everywhere, or a request to the token endpoint. -/
inductive TokenCaller where
  | logoutAll (sessionID : String)
  | adminLogoutUser (userID : Int)
  | exchange (draws : Token.Draws) (input : Token.ExchangeInput)

/-- What the caller runs; the answer is `false` for a logout that met an error of a store. -/
def TokenCaller.code (env : Env) : TokenCaller → Action Bool
  | .logoutAll sessionID => succeeds (Session.logoutAll env sessionID)
  | .adminLogoutUser userID => succeeds (Session.adminLogoutUser userID)
  | .exchange draws input => do
    let _ ← (Token.exchange env draws input).run
    return true

/-- The access tokens of a user that are neither revoked nor expired. -/
def active (w : World) (userID : Int) : List AccessToken :=
  w.db.listActiveAccessTokens w.now userID

/-- The condition: the update finds only tokens its own call has listed, and a marker lives until
the token's row expires. -/
def Complete [DecidableEq ι] (m : Moment ι World Label) (i : ι) : Label → Prop
  | .revokeAccessTokens userID _ =>
    ∀ r ∈ active m.shared userID, ∃ x ∈ m.own i,
      x.label = .listActiveAccessTokens userID ∧ r ∈ active x.before userID
  | .revokeAccessToken sha ttl =>
    ∀ r ∈ m.shared.db.accessTokens, r.tokenSHA256 = sha →
      ∀ t ∈ TokenCache.marker m.shared.now (durationSeconds ttl), r.expiresAt ≤ t
  | _ => True

instance [DecidableEq ι] (m : Moment ι World Label) (i : ι) (l : Label) :
    Decidable (Complete m i l) := by
  induction l using Label.casesOn <;> dsimp only [Complete] <;> infer_instance

/-- As far as access tokens go only time has passed. -/
structure SameTokens (w w' : World) : Prop where
  now : w.now ≤ w'.now
  rows : w'.db.accessTokens = w.db.accessTokens
  markers : w'.tokens.revokedAccess = w.tokens.revokedAccess

/-! ## Rows and markers -/

def StoredToken (w : World) (sha : String) : Prop := ∃ r ∈ w.db.accessTokens, r.tokenSHA256 = sha

/-- The token has a row that is revoked and has not expired. -/
def RevokedToken (w : World) (sha : String) : Prop :=
  ∃ r ∈ w.db.accessTokens, r.tokenSHA256 = sha ∧ r.revokedAt ≠ none ∧ w.now < r.expiresAt

instance (w : World) (sha : String) : Decidable (RevokedToken w sha) := by
  unfold RevokedToken
  infer_instance

/-- The token has a marker that outlives its row. -/
def Barred (w : World) (sha : String) : Prop :=
  ∃ e, w.tokens.revokedAccess sha = some e ∧
    ∀ t ∈ e.expireAt, ∀ r ∈ w.db.accessTokens, r.tokenSHA256 = sha → r.expiresAt ≤ t

def BarredForGood (w : World) (sha : String) : Prop := StoredToken w sha ∧ Barred w sha

theorem Barred.marked {w : World} {r : AccessToken} (h : Barred w r.tokenSHA256)
    (hr : r ∈ w.db.accessTokens) : MarkedUntil r.tokenSHA256 r.expiresAt w := by
  obtain ⟨e, he, hlong⟩ := h
  exact fun _ => ⟨e, he, fun t ht => hlong t ht r hr rfl⟩

def Takes (x : Event ι World Label) (sha : String) : Prop :=
  match x.label with
  | .revokeAccessTokens userID _ => ∃ r ∈ active x.before userID, r.tokenSHA256 = sha
  | _ => False

/-- The duty of a logout everywhere: a revoked token that has not expired must be barred. -/
def revocations : Duty ι World Label String where
  owed w sha := RevokedToken w sha ∧ ¬ Barred w sha
  settled := BarredForGood
  takes := Takes
  not_owed hs ho := ho.2 hs.2

structure TokensStay (w w' : World) : Prop where
  now : w.now ≤ w'.now
  stored : ∀ sha, StoredToken w sha → StoredToken w' sha
  barred : ∀ sha, BarredForGood w sha → BarredForGood w' sha

def tokens : Discipline ι World Label where
  inv := revocations.Accounted
  mono m m' := TokensStay m.shared m'.shared
  mono_refl _ := ⟨Int.le_refl _, fun _ h => h, fun _ h => h⟩
  mono_trans hab hbc := ⟨Int.le_trans hab.now hbc.now, fun _ h => hbc.stored _ (hab.stored _ h),
    fun _ h => hbc.barred _ (hab.barred _ h)⟩

theorem revocations_lasting : revocations.Lasting (tokens (ι := ι)) := fun _ _ h => h.barred

theorem SameTokens.stay {w w' : World} (h : SameTokens w w') : TokensStay w w' := by
  refine ⟨h.now, ?_, ?_⟩ <;>
  · intro sha
    simp only [BarredForGood, StoredToken, Barred, h.rows, h.markers]
    exact fun h => h

theorem SameTokens.owed {w w' : World} (h : SameTokens w w') {sha : String}
    (ho : RevokedToken w' sha ∧ ¬ Barred w' sha) : RevokedToken w sha ∧ ¬ Barred w sha := by
  obtain ⟨⟨r, hr, hsha, hrevoked, hlive⟩, hbar⟩ := ho
  rw [h.rows] at hr
  refine ⟨⟨r, hr, hsha, hrevoked, Int.lt_of_le_of_lt h.now hlive⟩, ?_⟩
  simpa only [Barred, h.rows, h.markers] using hbar

theorem tokens_admits : (tokens (ι := ι)).Admits SameTokens := by
  intro m w hinv hw
  exact ⟨hinv.env fun sha => hw.owed, hw.stay⟩

/-! ## Commands -/

section Commands

variable {m : Moment ι World Label} {i : ι} {l : Label}

def Keeps (m : Moment ι World Label) (i : ι) (l : Label) (f : World → World) : Prop :=
  revocations.Accounted (m.after i l f) ∧ TokensStay m.shared (f m.shared)

theorem keeps_same {f : World → World} (h : revocations.Accounted m)
    (hf : SameTokens m.shared (f m.shared)) : Keeps m i l f :=
  ⟨h.after fun _ ho => .inl (hf.owed ho), hf.stay⟩

theorem keeps_create {t : AccessToken} (h : revocations.Accounted m) (ht : t.revokedAt = none) :
    Keeps m i l fun w => { w with db := (w.db.createAccessToken t).2 } := by
  by_cases hdup : m.shared.db.accessTokens.any fun r => r.tokenSHA256 = t.tokenSHA256
  · apply keeps_same h
    refine ⟨Int.le_refl _, ?_, rfl⟩
    simp only [Database.createAccessToken, hdup, if_true]
  obtain ⟨new, hnew, hrows⟩ : ∃ new : AccessToken,
      (new.tokenSHA256 = t.tokenSHA256 ∧ new.revokedAt = none) ∧
        (m.shared.db.createAccessToken t).2.accessTokens = m.shared.db.accessTokens ++ [new] := by
    simp only [Database.createAccessToken, hdup, Bool.false_eq_true, if_false]
    refine ⟨_, ?_, rfl⟩
    exact ⟨rfl, ht⟩
  have hother : ∀ r ∈ m.shared.db.accessTokens, r.tokenSHA256 ≠ new.tokenSHA256 := by
    intro r hr heq
    exact hdup (List.any_eq_true.mpr ⟨r, hr, by simpa using heq.trans hnew.1⟩)
  have hstored : ∀ sha, StoredToken m.shared sha →
      StoredToken { m.shared with db := (m.shared.db.createAccessToken t).2 } sha := by
    rintro sha ⟨r, hr, hsha⟩
    exact ⟨r, by rw [hrows]; exact List.mem_append_left _ hr, hsha⟩
  have hbarred : ∀ sha, StoredToken m.shared sha → Barred m.shared sha →
      Barred { m.shared with db := (m.shared.db.createAccessToken t).2 } sha := by
    rintro sha ⟨r₀, hr₀, rfl⟩ ⟨e, he, hlong⟩
    refine ⟨e, he, fun x hx r hr hsha => ?_⟩
    rw [hrows] at hr
    rcases List.mem_append.mp hr with hr | hr
    · exact hlong x hx r hr hsha
    · rw [List.mem_singleton.mp hr] at hsha
      exact absurd hsha.symm (hother r₀ hr₀)
  refine ⟨h.after fun sha ho => .inl ?_, Int.le_refl _, hstored, ?_⟩
  · obtain ⟨⟨r, hr, hsha, hrevoked, hlive⟩, hbar⟩ := ho
    rw [hrows] at hr
    rcases List.mem_append.mp hr with hr | hr
    · exact ⟨⟨r, hr, hsha, hrevoked, hlive⟩, fun hb => hbar (hbarred sha ⟨r, hr, hsha⟩ hb)⟩
    · rw [List.mem_singleton.mp hr] at hrevoked
      exact absurd hnew.2 hrevoked
  · rintro sha ⟨hs, hb⟩
    exact ⟨hstored sha hs, hbarred sha hs hb⟩

theorem keeps_bulk (userID revokedAt : Int) (h : revocations.Accounted m) :
    Keeps m i (.revokeAccessTokens userID revokedAt)
      fun w => { w with db := w.db.revokeAccessTokens w.now userID revokedAt } := by
  let g (r : AccessToken) : AccessToken :=
    if r.userID = some userID ∧ r.Usable m.shared.now then
      { r with revokedAt := some (dateTime revokedAt) }
    else r
  have hsha : ∀ r, (g r).tokenSHA256 = r.tokenSHA256 := by
    intro r; simp only [g]; split <;> rfl
  have hexp : ∀ r, (g r).expiresAt = r.expiresAt := by
    intro r; simp only [g]; split <;> rfl
  let w' : World :=
    { m.shared with db := m.shared.db.revokeAccessTokens m.shared.now userID revokedAt }
  have hrows : w'.db.accessTokens = m.shared.db.accessTokens.map g := rfl
  have hstored : ∀ sha, StoredToken m.shared sha → StoredToken w' sha := by
    rintro sha ⟨r, hr, rfl⟩
    exact ⟨g r, List.mem_map_of_mem hr, hsha r⟩
  have hbarred : ∀ sha, Barred m.shared sha → Barred w' sha := by
    rintro sha ⟨e, he, hlong⟩
    refine ⟨e, he, fun x hx r' hr' hr'sha => ?_⟩
    obtain ⟨r, hr, rfl⟩ := List.mem_map.mp hr'
    rw [hexp]
    exact hlong x hx r hr ((hsha r).symm.trans hr'sha)
  refine ⟨h.after ?_, Int.le_refl _, hstored, fun sha hs => ⟨hstored sha hs.1, hbarred sha hs.2⟩⟩
  rintro sha ⟨⟨r', hr', hr'sha, hrevoked, hlive⟩, hbar⟩
  obtain ⟨r, hr, rfl⟩ := List.mem_map.mp hr'
  rw [hsha] at hr'sha
  rw [hexp] at hlive
  by_cases hc : r.userID = some userID ∧ r.Usable m.shared.now
  · refine .inr ⟨r, ?_, hr'sha⟩
    exact List.mem_filter.mpr ⟨hr, by simpa using hc⟩
  · refine .inl ⟨⟨r, hr, hr'sha, ?_, hlive⟩, fun hb => hbar (hbarred sha hb)⟩
    simpa only [g, hc, if_false] using hrevoked

theorem keeps_mark {sha : String} {ttl : Int} (h : revocations.Accounted m)
    (hlong : ∀ r ∈ m.shared.db.accessTokens, r.tokenSHA256 = sha →
      ∀ t ∈ TokenCache.marker m.shared.now (durationSeconds ttl), r.expiresAt ≤ t) :
    Keeps m i l (fun w => { w with tokens := w.tokens.revokeAccessToken w.now sha ttl }) ∧
      Barred { m.shared with
        tokens := m.shared.tokens.revokeAccessToken m.shared.now sha ttl } sha := by
  let w' : World :=
    { m.shared with tokens := m.shared.tokens.revokeAccessToken m.shared.now sha ttl }
  have hself : Barred w' sha :=
    ⟨_, Keyspace.put_self, fun t ht r hr hr' => hlong r hr hr' t ht⟩
  have hbarred : ∀ s, Barred m.shared s → Barred w' s := by
    rintro s ⟨e, he, hs⟩
    by_cases heq : s = sha
    · rw [heq]
      exact hself
    · exact ⟨e, (Keyspace.put_of_ne heq).trans he, hs⟩
  refine ⟨⟨h.after fun s ho => .inl ⟨ho.1, fun hb => ho.2 (hbarred s hb)⟩, Int.le_refl _,
    fun _ hs => hs, fun s hs => ⟨hs.1, hbarred s hs.2⟩⟩, hself⟩

def Apart : Label → Prop
  | .listActiveAccessTokens _ => False
  | .revokeAccessTokens _ _ => False
  | _ => True

theorem not_takes {x : Event ι World Label} (h : Apart x.label) (sha : String) : ¬ Takes x sha := by
  intro hx
  unfold Takes at hx
  split at hx
  next hl => rw [hl] at h; exact h
  next => exact hx

def Aside (l : Label) (f : World → World) : Prop := Apart l ∧ ∀ w, SameTokens w (f w)

theorem Aside.of_same {f : World → World} (hl : Apart l)
    (hf : ∀ w, (f w).now = w.now ∧ (f w).db.accessTokens = w.db.accessTokens ∧
      (f w).tokens.revokedAccess = w.tokens.revokedAccess) : Aside l f :=
  ⟨hl, fun w => ⟨Int.le_of_eq (hf w).1.symm, (hf w).2.1, (hf w).2.2⟩⟩

end Commands

/-! ## The programs -/

section Programs

variable [DecidableEq ι] {i : ι} {m : Moment ι World Label}

def Listed (i : ι) (ts : List AccessToken) (m : Moment ι World Label) : Prop :=
  ∀ x ∈ m.own i, ∀ userID, x.label = .listActiveAccessTokens userID → active x.before userID ⊆ ts

/-- The program has discharged what it took on, and has not listed anything but these tokens. -/
def Ready (i : ι) (ts : List AccessToken) (m : Moment ι World Label) : Prop :=
  revocations.Discharged i m ∧ Listed i ts m

abbrev Unmarked (i : ι) (shas : List String) : Moment ι World Label → Prop :=
  revocations.Pending i fun w sha => StoredToken w sha ∧ sha ∈ shas

theorem ready_stable (i : ι) (ts : List AccessToken) : tokens.Stable i (Ready i ts) := by
  intro m m' hr hi h
  refine ⟨Duty.Discharged.stable revocations_lasting i m m' hr hi h.1, ?_⟩
  rw [Listed, hr.own]
  exact h.2

theorem unmarked_stable (i : ι) (shas : List String) : tokens.Stable i (Unmarked i shas) :=
  Duty.Pending.stable revocations_lasting i fun _ _ hmono _ h => ⟨hmono.stored _ h.1, h.2⟩

variable {w : World} {ts : List AccessToken} {l : Label} {f : World → World}
variable {revokedAt userID : Int}

theorem ready_start : Ready i [] (⟨[], w⟩ : Moment ι World Label) := by
  refine ⟨.start, ?_⟩
  intro x hx
  cases hx

theorem Ready.after (h : Ready i ts m) (hl : Apart l) (hstay : TokensStay m.shared (f m.shared)) :
    Ready i ts (m.after i l f) := by
  refine ⟨h.1.after revocations_lasting hstay (fun _ h => h.elim) ?_, ?_⟩
  · intro sha hsha
    exact absurd hsha (not_takes hl sha)
  · intro x hx userID hlabel
    rw [Moment.own_after_self] at hx
    rcases List.mem_cons.mp hx with rfl | hx
    · change l = _ at hlabel
      rw [hlabel] at hl
      exact hl.elim
    · exact h.2 x hx userID hlabel

theorem Aside.ready (hl : Aside l f) (hinv : revocations.Accounted m) (h : Ready i ts m) :
    revocations.Accounted (m.after i l f) ∧ TokensStay m.shared (f m.shared) ∧
      Ready i ts (m.after i l f) := by
  obtain ⟨hacc, hstay⟩ := keeps_same hinv (hl.2 m.shared)
  exact ⟨hacc, hstay, h.after hl.1 hstay⟩

/-! ### Issuing -/

theorem aside_or_create (hl : Exchanging l f) :
    Aside l f ∨ ∃ t : AccessToken, t.revokedAt = none ∧ Apart l ∧
      f = fun w => { w with db := (w.db.createAccessToken t).2 } := by
  cases hl with
  | issuing hl =>
    cases hl with
    | createAccessToken t ht => exact .inr ⟨t, ht, trivial, rfl⟩
    | _ => exact .inl (.of_same trivial fun w => ⟨rfl, by simp, rfl⟩)
  | _ => exact .inl (.of_same trivial fun w => ⟨rfl, by simp, by simp⟩)

theorem exchanging_ready (hl : Exchanging l f) (hinv : revocations.Accounted m) (h : Ready i ts m) :
    revocations.Accounted (m.after i l f) ∧ TokensStay m.shared (f m.shared) ∧
      Ready i ts (m.after i l f) := by
  rcases aside_or_create hl with haside | ⟨t, ht, hapart, rfl⟩
  · exact haside.ready hinv h
  · obtain ⟨hacc, hstay⟩ := keeps_create hinv ht
    exact ⟨hacc, hstay, h.after hapart hstay⟩

/-! ### Marking -/

theorem markRevoked_wp (pairs : List (String × Int)) (hlive : ∀ p ∈ pairs, revokedAt < p.2)
    (hm : Unmarked i (pairs.map (·.1)) m) :
    Wp tokens Complete i (markRevoked Repository.revokeAccessToken revokedAt pairs).run
      (OnOk (revocations.Discharged i)) m := by
  induction pairs generalizing m with
  | nil =>
    intro _ x hx sha hsha
    exact (hm x hx sha hsha).imp_right fun h => nomatch h.2
  | cons p rest ih =>
    obtain ⟨sha, expiresAt⟩ := p
    have hp : revokedAt < expiresAt := hlive (sha, expiresAt) (by simp)
    refine wp_bind_except.mpr (wp_whenever (fun hno => ?_) fun _ => ?_)
    · exact absurd (by omega) hno
    refine wp_call (onOk_error _ _) fun m' hr hinv hok => ?_
    have hm' := unmarked_stable i _ m m' hr hinv hm
    obtain ⟨⟨hacc, hstay⟩, hbar⟩ := keeps_mark hinv hok
    refine ⟨hacc, hstay, ih (fun p hp => hlive p (by simp [hp])) ?_, onOk_error _ _⟩
    refine hm'.after revocations_lasting hstay ?_ fun s hs => hs.elim
    rintro s ⟨hs, hmem⟩
    rcases List.mem_cons.mp hmem with rfl | hmem
    · exact .inl ⟨hs, hbar⟩
    · exact .inr ⟨hs, hmem⟩

theorem markRefresh_acts (revokedAt : Int) (pairs : List (String × Int)) :
    (markRevoked Repository.revokeRefreshToken revokedAt pairs).run.Acts Aside := by
  induction pairs with
  | nil => trivial
  | cons p rest ih =>
    refine .bind_except (.whenever (.call ?_)) fun _ => ih
    exact ⟨.of_same trivial fun _ => ⟨rfl, rfl, rfl⟩, fun _ => trivial⟩

theorem lt_expiresAt_of_active (hnow : revokedAt ≤ w.now) {r : AccessToken}
    (hr : r ∈ active w userID) : revokedAt < r.expiresAt := by
  have husable : r.Usable w.now := by
    have h := (List.mem_filter.mp hr).2
    simp only [decide_eq_true_eq] at h
    exact h.2
  exact Int.lt_of_le_of_lt hnow husable.2

theorem revokeUserTokens_wp (hm : Ready i [] m) (hnow : revokedAt ≤ m.shared.now) :
    Wp tokens Complete i (revokeUserTokens userID revokedAt).run
      (OnOk (revocations.Discharged i)) m := by
  have hstable : tokens.Stable i fun m' : Moment ι World Label =>
      Ready i [] m' ∧ revokedAt ≤ m'.shared.now :=
    fun m m' hr hi h => ⟨ready_stable i [] m m' hr hi h.1, Int.le_trans h.2 hr.mono.now⟩
  have herr : ∀ {α : Type} (m' : Moment ι World Label),
      OnOk (revocations.Discharged i) (.error .store : Except SessionError α) m' :=
    fun m' => onOk_error _ m'
  refine wp_send hstable ⟨hm, hnow⟩ (fun m' _ => herr m') fun m₁ hinv₁ hm₁ _ => ?_
  obtain ⟨hacc₁, hstay₁⟩ := keeps_same (f := fun w => w) hinv₁ ⟨Int.le_refl _, rfl, rfl⟩
  refine ⟨hacc₁, hstay₁, herr _, ?_⟩
  have hlisted : Ready i (active m₁.shared userID)
      (m₁.after i (.listActiveAccessTokens userID) fun w => w) := by
    refine ⟨hm₁.1.1.after revocations_lasting hstay₁ (fun _ h => h.elim) fun _ h => h.elim, ?_⟩
    intro x hx userID' hlabel
    rw [Moment.own_after_self] at hx
    rcases List.mem_cons.mp hx with rfl | hx
    · obtain rfl : userID = userID' := Label.listActiveAccessTokens.inj hlabel
      exact fun r hr => hr
    · intro r hr
      cases hm₁.1.2 x hx userID' hlabel hr
  have hR := ready_stable i (active m₁.shared userID)
  refine wp_ask hR hlisted (fun m' _ => herr m') fun m₂ _ hm₂ => ?_
  refine wp_send hR hm₂ (fun m' _ => herr m') fun m₃ hinv₃ hm₃ hok => ?_
  obtain ⟨hacc₃, hstay₃⟩ := keeps_bulk userID revokedAt hinv₃
  refine ⟨hacc₃, hstay₃, herr _, ?_⟩
  -- what the update has revoked was listed, and is still stored
  have hunmarked : Unmarked i ((active m₁.shared userID).map (·.tokenSHA256))
      (m₃.after i (.revokeAccessTokens userID revokedAt) fun w =>
        { w with db := w.db.revokeAccessTokens w.now userID revokedAt }) := by
    refine hm₃.1.after revocations_lasting hstay₃ (fun _ h => h.elim) ?_
    rintro sha ⟨r, hr, rfl⟩
    obtain ⟨x, hx, hlabel, hrx⟩ := hok r hr
    refine .inr ⟨hstay₃.stored _ ⟨r, (List.mem_filter.mp hr).1, rfl⟩, ?_⟩
    exact List.mem_map_of_mem (hm₃.2 x hx userID hlabel hrx)
  refine wp_send (unmarked_stable i _) hunmarked (fun m' _ => herr m') fun m₄ hinv₄ hm₄ _ => ?_
  obtain ⟨hacc₄, hstay₄⟩ := keeps_same
    (f := fun w => { w with db := w.db.revokeRefreshTokens w.now userID revokedAt }) hinv₄
    ⟨Int.le_refl _, rfl, rfl⟩
  refine ⟨hacc₄, hstay₄, herr _, wp_bind_except.mpr ((markRevoked_wp _ ?_ ?_).imp ?_)⟩
  · intro p hp
    obtain ⟨r, hr, rfl⟩ := List.mem_map.mp hp
    exact lt_expiresAt_of_active hm₁.2 hr
  · rw [List.map_map]
    exact hm₄.after revocations_lasting hstay₄ (fun _ h => .inr h) fun _ h => h.elim
  intro r m₅ hm₅
  cases r with
  | error e => exact onOk_error e m₅
  | ok _ =>
    refine wp_acts (markRefresh_acts revokedAt _) (Duty.Discharged.stable revocations_lasting i) ?_
      (hm₅ rfl) (fun e m' _ => onOk_error e m') fun _ m₆ hm₆ => fun _ => hm₆
    intro m l f hl hinv hm _
    obtain ⟨hacc, hstay⟩ := keeps_same hinv (hl.2 m.shared)
    refine ⟨hacc, hstay, hm.after revocations_lasting hstay (fun _ h => h.elim) ?_⟩
    exact fun sha hsha => absurd hsha (not_takes hl.1 sha)

/-! ### Every caller -/

theorem deleteSession_acts (s : String) :
    (Prog.call SessionError.store (Repository.deleteSession s)).run.Acts Aside := by
  refine .call (.bind (getSession_silent s).acts fun entry => ?_)
  cases entry with
  | none => exact ⟨.of_same trivial fun _ => ⟨rfl, rfl, rfl⟩, fun _ => trivial⟩
  | some e => exact ⟨.of_same trivial fun _ => ⟨rfl, rfl, rfl⟩, fun _ => trivial⟩

theorem clearSessions_acts (ids : List String) : (clearSessions ids).run.Acts Aside := by
  induction ids with
  | nil => trivial
  | cons s rest ih => exact .bind_except (deleteSession_acts s) fun _ => ih

theorem logoutUser_bars {sessionID : String} (hm : Ready i [] m) :
    Wp tokens Complete i (logoutUser userID sessionID).run (OnOk (revocations.Discharged i)) m := by
  have herr : ∀ {α : Type} (e : SessionError) (m' : Moment ι World Label),
      OnOk (revocations.Discharged i) (.error e : Except SessionError α) m' :=
    fun e m' => onOk_error e m'
  refine wp_bind_except.mpr (wp_lift.mpr fun m₁ hr hinv => ?_)
  have hm₁ : Ready i [] m₁ ∧ m₁.shared.now ≤ m₁.shared.now :=
    ⟨ready_stable i [] _ _ hr hinv hm, Int.le_refl _⟩
  have hR : tokens.Stable i fun m' : Moment ι World Label =>
      Ready i [] m' ∧ m₁.shared.now ≤ m'.shared.now :=
    fun m m' hr hi h => ⟨ready_stable i [] m m' hr hi h.1, Int.le_trans h.2 hr.mono.now⟩
  have haside : ∀ (m' : Moment ι World Label) (l : Label) (f : World → World), Aside l f →
      revocations.Accounted m' → (Ready i [] m' ∧ m₁.shared.now ≤ m'.shared.now) →
      Complete m' i l → revocations.Accounted (m'.after i l f) ∧
        TokensStay m'.shared (f m'.shared) ∧
        (Ready i [] (m'.after i l f) ∧ m₁.shared.now ≤ (f m'.shared).now) := by
    intro m' l f hl hinv h _
    obtain ⟨hacc, hstay, hready⟩ := hl.ready hinv h.1
    exact ⟨hacc, hstay, hready, Int.le_trans h.2 hstay.now⟩
  have hlogout : Aside (.logoutAllByUserID userID m₁.shared.now) fun w =>
      { w with db := w.db.logoutAllByUserID userID m₁.shared.now } :=
    .of_same trivial fun _ => ⟨rfl, rfl, rfl⟩
  have hindex : Aside (.listUserSessionIDs (formatInt userID)) fun w => w :=
    .of_same trivial fun _ => ⟨rfl, rfl, rfl⟩
  refine wp_ask hR hm₁ (fun m' _ => herr _ m') fun m₂ _ hm₂ => ?_
  refine wp_send hR hm₂ (fun m' _ => herr _ m') fun m₃ hinv₃ hm₃ hok₃ => ?_
  obtain ⟨hacc₃, hstay₃, hm₃⟩ := haside m₃ _ _ hlogout hinv₃ hm₃ hok₃
  refine ⟨hacc₃, hstay₃, herr _ _, ?_⟩
  refine wp_send hR hm₃ (fun m' _ => herr _ m') fun m₄ hinv₄ hm₄ _ => ?_
  obtain ⟨hacc₄, hstay₄, hm₄⟩ := haside m₄ _ _ hindex hinv₄ hm₄ trivial
  refine ⟨hacc₄, hstay₄, herr _ _, ?_⟩
  refine wp_acts (clearSessions_acts _) hR haside hm₄ (fun e m' _ => herr e m') fun _ m₅ hm₅ => ?_
  refine wp_bind_except.mpr ((revokeUserTokens_wp hm₅.1 hm₅.2).imp fun r m₆ hm₆ => ?_)
  cases r with
  | error e => exact herr e m₆
  | ok counts => exact fun _ => hm₆ rfl

theorem tokenCaller_wp (env : Env) (caller : TokenCaller) (hm : Ready i [] m) :
    Wp tokens Complete i (caller.code env)
      (fun b m' => b = true → revocations.Discharged i m') m := by
  cases caller with
  | logoutAll sessionID =>
    refine wp_bind.mpr ?_
    unfold Session.logoutAll
    cases nonblank sessionID with
    | none => exact fun _ => hm.1
    | some s =>
      refine wp_ask (ready_stable i []) hm (fun m' _ => nofun) fun m₁ _ hm₁ => ?_
      cases m₁.shared.db.findSession env.sqlEq s with
      | some row => exact logoutUser_bars hm₁
      | none =>
        refine wp_acts (P := Aside) ?_ (ready_stable i [])
          (fun m' l f hl hinv h _ => hl.ready hinv h) hm₁ (fun e m' _ => nofun)
          fun _ m₂ hm₂ => fun _ => hm₂.1
        exact deleteSession_acts s
  | adminLogoutUser userID =>
    refine wp_bind.mpr ?_
    unfold Session.adminLogoutUser
    split
    · exact fun _ => hm.1
    · exact logoutUser_bars hm
  | exchange draws input =>
    refine wp_bind.mpr ((Wp.of_acts (exchange_acts env draws input) (ready_stable i []) ?_ hm).imp
      fun _ m' h _ => h.1)
    exact fun m' l f hl hinv h _ => exchanging_ready hl hinv h

theorem barred_of_done (env : Env) (callers : ι → TokenCaller)
    (hstart : ∀ sha, RevokedToken w sha → Barred w sha) {c : Config ι World Label Bool}
    (hrun : Reach SameTokens Complete (Config.start w fun i => (callers i).code env) c)
    (hdone : ∀ i, c.procs i = .ret true) (sha : String) (hrev : RevokedToken c.shared sha) :
    Barred c.shared sha := by
  have hkeeps : tokens.Keeps fun i (b : Bool) (m' : Moment ι World Label) =>
      b = true → revocations.Discharged i m' := by
    intro i b m m' hr hi h hb
    exact Duty.Discharged.stable revocations_lasting i m m' hr hi (h hb)
  have hsafe : c.Safe tokens Complete fun i b m' => b = true → revocations.Discharged i m' := by
    refine sound tokens_admits hkeeps ⟨?_, fun i => tokenCaller_wp env (callers i) ready_start⟩ hrun
    intro sha ⟨hrev, hbar⟩
    exact absurd (hstart sha hrev) hbar
  by_contra hbar
  exact hsafe.1.nothing_owed (fun i => hsafe.returned (hdone i) rfl) sha ⟨hrev, hbar⟩

end Programs

/-! ## The law -/

/-- **Revoked tokens are refused.** Any number of logouts everywhere and token requests run among each
other, in a run that meets the condition. When all are done, and no logout was stopped by an error of a
store, a token with a revoked row is not let through and not reported as active as long as the row has not
expired. -/
theorem revokedTokensRefused [DecidableEq ι] (env : Env) (callers : ι → TokenCaller) {w : World}
    (hstart : ∀ sha, RevokedToken w sha → Barred w sha) {c : Config ι World Label Bool}
    (hrun : Reach SameTokens Complete (Config.start w fun i => (callers i).code env) c)
    (hdone : ∀ i, c.procs i = .ret true) {r : AccessToken} (hr : r ∈ c.shared.db.accessTokens)
    (hrevoked : r.revokedAt ≠ none) (check : Check)
    (hsha : env.sha256Hex check.token = r.tokenSHA256) {c' : Config Unit World Label Bool}
    (hlook : Reach SameTokens Unrestricted (Config.start c.shared fun _ => check.accepts env) c')
    (hlive : c'.shared.now < r.expiresAt) : c'.procs () ≠ .ret true := by
  have hmark : MarkedUntil (env.sha256Hex check.token) r.expiresAt c.shared := by
    intro hlt
    have hbar := barred_of_done env callers hstart hrun hdone _ ⟨r, hr, rfl, hrevoked, hlt⟩
    rw [hsha]
    exact hbar.marked hr hlt
  exact check.not_accepted hmark (fun _ _ h => ⟨h.now, h.markers⟩) hlook hlive

/-! ## A login and a logout everywhere -/

def terminal : Client where
  id := 1
  clientID := "cli"
  clientName := "CLI"
  clientSecretHash := ""
  requirePKCE := false
  requireConsent := false
  accessTokenTTLSeconds := 3600
  refreshTokenTTLSeconds := 0
  idTokenTTLSeconds := 0
  status := "active"
  redirectURIs := []
  grantTypes := [Token.GrantType.password.text]
  scopes := ["email"]

def signedIn : World :=
  let user : User :=
    ⟨7, "sub-7", "ada", "ada@example", true, "Ada", "pw", "user", 0#32, "", "active"⟩
  let session : Session := ⟨1, "s1", 7, "sub-7", "", "", "", "", 0, 3600 * second, none⟩
  { World.empty 0 with db := { Database.empty with users := [user], sessions := [session] } }

def tokenAndLogoutAll : Bool → TokenCaller
  | true => .exchange ⟨"a1", "i1", "r1"⟩
      { grantType := .password, clientID := "cli", username := "ada", password := "pw" }
  | false => .logoutAll "s1"

def tokenRace : Config Bool World Label Bool :=
  Config.start signedIn fun i => (tokenAndLogoutAll i).code (.plain [terminal])

theorem revokedTokensRefused_issuedFirst : ∃ c, Reach SameTokens Complete tokenRace c ∧
    (∀ i, c.procs i = .ret true) ∧ RevokedToken c.shared "a1" ∧
    ∀ check ∈ [Check.bearer "Bearer a1", .introspect "a1"], ∀ c' : Config Unit World Label Bool,
      Reach SameTokens Unrestricted
        (Config.start c.shared fun _ => check.accepts (.plain [terminal])) c' →
      c'.shared.now < 3600 * second → c'.procs () ≠ .ret true := by
  let c := tokenRace.played Complete
    [.run true, .run true, .run true, .run true, .run false, .run false, .run false, .run false,
      .run false, .run false, .run false, .run false]
  have hrun : Reach SameTokens Complete tokenRace c :=
    played_reach _ (by simp [Move.Allowed]) (by decide +kernel)
  have hdone : ∀ i, c.procs i = .ret true := fun i =>
    by cases i <;> decide +kernel
  have hrevoked : ∃ r ∈ c.shared.db.accessTokens, r.tokenSHA256 = "a1" ∧ r.revokedAt ≠ none ∧
      r.expiresAt = 3600 * second := by decide +kernel
  obtain ⟨r, hr, hsha, hrev, hexp⟩ := hrevoked
  refine ⟨c, hrun, hdone, by decide +kernel, fun check hc c' hlook hlive => ?_⟩
  refine revokedTokensRefused (.plain [terminal]) tokenAndLogoutAll ?_ hrun hdone hr hrev check ?_
    hlook (by rwa [hexp])
  · rintro sha ⟨r', hr', _⟩
    cases hr'
  · simp only [List.mem_cons, List.not_mem_nil, or_false] at hc
    rcases hc with rfl | rfl <;>
    · rw [hsha]
      decide +kernel

/-- **The law fails without the condition.** The logout has listed the tokens when the new row is inserted:
it is revoked without a marker, and both guards let the token through. -/
theorem revokedWithoutMarker : ∃ c, Reach SameTokens Unrestricted tokenRace c ∧
    (∀ i, c.procs i = .ret true) ∧ RevokedToken c.shared "a1" ∧
    ∀ check ∈ [Check.bearer "Bearer a1", .introspect "a1"], ∃ c', Reach SameTokens Unrestricted
        (Config.start c.shared fun _ : Unit => check.accepts (.plain [terminal])) c' ∧
      c'.shared.now = 0 ∧ c'.procs () = .ret true := by
  let c := tokenRace.played Unrestricted
    [.run false, .run false, .run false, .run false, .run true, .run true, .run false, .run false,
      .run false, .run true, .run true]
  have hrun : Reach SameTokens Unrestricted tokenRace c :=
    played_reach _ (by simp [Move.Allowed]) (by decide +kernel)
  have hdone : ∀ i, c.procs i = .ret true := fun i =>
    by cases i <;> decide +kernel
  refine ⟨c, hrun, hdone, by decide +kernel, fun check hc => ?_⟩
  simp only [List.mem_cons, List.not_mem_nil, or_false] at hc
  rcases hc with rfl | rfl <;>
    exact ⟨_, played_reach (A := Unrestricted) [.run ()] (by simp [Move.Allowed])
      (by decide +kernel), by decide +kernel, by decide +kernel⟩

end IdpServer.Laws.Session
