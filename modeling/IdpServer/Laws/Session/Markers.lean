import IdpServer.Laws.Session.Revocation

/-!
# Laws.Session.Markers — how long a revocation lasts

A marker gets what is left of the token in whole seconds, and the row has the expiry rounded: **it may go before
its token** (`acceptedBeforeExpiry`). `markerOutlivesToken` is the law for `Unhurried` commands.
-/

namespace IdpServer.Laws.Session

open Conc IdpServer.Cache Store Go IdpServer.Session
open Laws.Token (Issuing Exchanging exchange_acts)
open Laws.Http (Check MarkedUntil)

variable {ι : Type}

/-! ## The arithmetic of one marker -/

/-- The marker of a token is written late enough: the time to live without its fraction, counted back from
the row's expiry, is the first whole second after the revocation. -/
def Unhurried (expiry start ttl : Int) : Prop :=
  unix expiry * second < dateTime expiry ∨ dateTime expiry - ttl / second * second ≤ start

instance (expiry start ttl : Int) : Decidable (Unhurried expiry start ttl) :=
  inferInstanceAs (Decidable (_ ∨ _))

variable {expiry start ttl : Int} {w w' : World}

theorem exp_le_marker (hafter : dateTime expiry - ttl ≤ start) (h : Unhurried expiry start ttl) :
    ∀ t ∈ TokenCache.marker start (durationSeconds ttl), unix expiry * second ≤ t := by
  intro t ht
  unfold TokenCache.marker at ht
  split at ht
  next hpos =>
    cases ht
    by_cases httl : 0 < ttl
    · have htdiv : ttl.tdiv second = ttl / second :=
        Int.tdiv_eq_ediv_of_nonneg (Int.le_of_lt httl)
      simp only [Unhurried, durationSeconds, htdiv, httl, true_and, unix, dateTime, second] at *
      split <;> omega
    · -- a time to live that is not positive makes a marker for good
      have hneg : durationSeconds ttl ≤ 0 := by
        have hquot : 0 ≤ (-ttl).tdiv second := Int.tdiv_nonneg (by omega) (by decide)
        rw [Int.neg_tdiv] at hquot
        simp only [durationSeconds, httl, false_and, if_false]
        omega
      omega
  next => cases ht

/-! ## Markers along a run -/

/-- The condition on a run: the markers of this token are not hurried. -/
def Timely (sha : String) (expiry : Int) (m : Moment ι World Label) (_ : ι) : Label → Prop
  | .revokeAccessToken s ttl => s = sha → Unhurried expiry m.shared.now ttl
  | _ => True

instance (sha : String) (expiry : Int) (m : Moment ι World Label) (i : ι) (l : Label) :
    Decidable (Timely sha expiry m i l) := by
  induction l using Label.casesOn <;> dsimp only [Timely] <;> infer_instance

structure ExpiriesStay (w w' : World) : Prop where
  now : w.now ≤ w'.now
  rows : ∀ r ∈ w.db.accessTokens, ∃ r' ∈ w'.db.accessTokens,
    r'.tokenSHA256 = r.tokenSHA256 ∧ r'.expiresAt = r.expiresAt

theorem ExpiriesStay.refl (w : World) : ExpiriesStay w w :=
  ⟨Int.le_refl _, fun r hr => ⟨r, hr, rfl, rfl⟩⟩

theorem ExpiriesStay.trans {a b c : World} (hab : ExpiriesStay a b) (hbc : ExpiriesStay b c) :
    ExpiriesStay a c := by
  refine ⟨Int.le_trans hab.now hbc.now, fun r hr => ?_⟩
  obtain ⟨r', hr', hsha, hexp⟩ := hab.rows r hr
  obtain ⟨r'', hr'', hsha', hexp'⟩ := hbc.rows r' hr'
  exact ⟨r'', hr'', hsha'.trans hsha, hexp'.trans hexp⟩

/-- The marker that is there: it was written after the revocation of a row of the token. -/
structure LastMarker (sha : String) (expiry : Int) (w : World) (start ttl : Int)
    (r : AccessToken) : Prop where
  marker : w.tokens.revokedAccess sha = some ⟨(), TokenCache.marker start (durationSeconds ttl)⟩
  mem : r ∈ w.db.accessTokens
  token : r.tokenSHA256 = sha
  revoked : r.expiresAt - ttl ≤ start
  unhurried : Unhurried expiry start ttl

def Marked (sha : String) (m : Moment ι World Label) : Prop :=
  ∃ x ∈ m.trace, ∃ ttl, x.label = .revokeAccessToken sha ttl

def markers (sha : String) (expiry : Int) : Discipline ι World Label where
  inv m := Marked sha m → ∃ start ttl r, LastMarker sha expiry m.shared start ttl r
  mono m m' := ExpiriesStay m.shared m'.shared
  mono_refl _ := .refl _
  mono_trans := .trans

theorem LastMarker.stay {sha : String} {r : AccessToken} (h : LastMarker sha expiry w start ttl r)
    (hmarker : w'.tokens.revokedAccess sha = w.tokens.revokedAccess sha) (hrows : ExpiriesStay w w') :
    ∃ r', LastMarker sha expiry w' start ttl r' := by
  obtain ⟨r', hr', hsha, hexp⟩ := hrows.rows r h.mem
  exact ⟨r', hmarker.trans h.marker, hr', hsha.trans h.token, hexp ▸ h.revoked, h.unhurried⟩

theorem SameTokens.expiries (h : SameTokens w w') : ExpiriesStay w w' :=
  ⟨h.now, fun r hr => ⟨r, by rw [h.rows]; exact hr, rfl, rfl⟩⟩

section Commands

variable {sha : String} {expiry : Int}

theorem markers_admits : (markers (ι := ι) sha expiry).Admits SameTokens := by
  intro m w hinv hw
  refine ⟨fun hmarked => ?_, hw.expiries⟩
  obtain ⟨start, ttl, r, hlast⟩ := hinv hmarked
  exact ⟨start, ttl, hlast.stay (by rw [hw.markers]) hw.expiries⟩

structure Quiet (l : Label) (f : World → World) : Prop where
  label : ∀ sha ttl, l ≠ .revokeAccessToken sha ttl
  same : ∀ w, (f w).tokens.revokedAccess = w.tokens.revokedAccess
  rows : ∀ w, ExpiriesStay w (f w)

variable {l : Label} {f : World → World}

theorem Quiet.of_same (hl : ∀ sha ttl, l ≠ .revokeAccessToken sha ttl)
    (hf : ∀ w, (f w).now = w.now ∧ (f w).db.accessTokens = w.db.accessTokens ∧
      (f w).tokens.revokedAccess = w.tokens.revokedAccess) : Quiet l f where
  label := hl
  same w := (hf w).2.2
  rows w := ⟨Int.le_of_eq (hf w).1.symm, fun r hr => ⟨r, by rw [(hf w).2.1]; exact hr, rfl, rfl⟩⟩

variable {m : Moment ι World Label} {i : ι}

theorem Quiet.step (hl : Quiet l f) (hinv : (markers sha expiry).inv m) :
    (markers sha expiry).inv (m.after i l f) ∧ ExpiriesStay m.shared (f m.shared) := by
  refine ⟨?_, hl.rows _⟩
  rintro ⟨x, hx, ttl, hlabel⟩
  rcases List.mem_cons.mp hx with rfl | hx
  · exact absurd hlabel (hl.label sha ttl)
  · obtain ⟨start, ttl', r, hlast⟩ := hinv ⟨x, hx, ttl, hlabel⟩
    exact ⟨start, ttl', hlast.stay (by rw [Moment.after, hl.same]) (hl.rows _)⟩

theorem mark_step {s : String} {ttl : Int} {r : AccessToken}
    (hinv : (markers sha expiry).inv m) (hr : r ∈ m.shared.db.accessTokens)
    (hs : r.tokenSHA256 = s) (hafter : r.expiresAt - ttl ≤ m.shared.now)
    (hok : Timely sha expiry m i (.revokeAccessToken s ttl)) :
    (markers sha expiry).inv (m.after i (.revokeAccessToken s ttl) fun w =>
      { w with tokens := w.tokens.revokeAccessToken w.now s ttl }) := by
  rintro ⟨x, hx, ttl', hlabel⟩
  by_cases heq : s = sha
  · subst heq
    exact ⟨m.shared.now, ttl, r, Keyspace.put_self, hr, hs, hafter, hok rfl⟩
  · rcases List.mem_cons.mp hx with rfl | hx
    · exact absurd (Label.revokeAccessToken.inj hlabel).1 heq
    · obtain ⟨start, ttl', r', hlast⟩ := hinv ⟨x, hx, ttl', hlabel⟩
      refine ⟨start, ttl', hlast.stay ?_ ⟨Int.le_refl _, fun r hr => ⟨r, hr, rfl, rfl⟩⟩⟩
      exact Keyspace.put_of_ne fun h => heq h.symm

end Commands

/-! ## The programs -/

section Programs

variable {i : ι} {m : Moment ι World Label} {sha : String} {expiry : Int}

def ToMark (revokedAt : Int) (pairs : List (String × Int)) (m : Moment ι World Label) : Prop :=
  revokedAt ≤ m.shared.now ∧ ∀ p ∈ pairs, ∃ r ∈ m.shared.db.accessTokens,
    r.tokenSHA256 = p.1 ∧ r.expiresAt = p.2

variable {revokedAt : Int} {pairs : List (String × Int)} {l : Label} {f : World → World}
variable {userID : Int}

theorem ToMark.stay {m' : Moment ι World Label} (h : ToMark revokedAt pairs m)
    (hstay : ExpiriesStay m.shared m'.shared) : ToMark revokedAt pairs m' := by
  refine ⟨Int.le_trans h.1 hstay.now, fun p hp => ?_⟩
  obtain ⟨r, hr, hsha, hexp⟩ := h.2 p hp
  obtain ⟨r', hr', hsha', hexp'⟩ := hstay.rows r hr
  exact ⟨r', hr', hsha'.trans hsha, hexp'.trans hexp⟩

theorem Quiet.keeps (hl : Quiet l f) (hinv : (markers sha expiry).inv m)
    (h : ToMark revokedAt pairs m) :
    (markers sha expiry).inv (m.after i l f) ∧ ExpiriesStay m.shared (f m.shared) ∧
      ToMark revokedAt pairs (m.after i l f) := by
  obtain ⟨hinv', hstay⟩ := hl.step hinv
  exact ⟨hinv', hstay, h.stay hstay⟩

variable [DecidableEq ι]

theorem toMark_stable (revokedAt : Int) (pairs : List (String × Int)) :
    (markers sha expiry).Stable i (ToMark revokedAt pairs) :=
  fun _ _ hr _ h => h.stay hr.mono

abbrev Sound (sha : String) (expiry : Int) (i : ι) {α : Type} (p : Action α)
    (m : Moment ι World Label) : Prop :=
  Wp (markers sha expiry) (Timely sha expiry) i p (fun _ _ => True) m

theorem sound_of_quiet {α : Type} {p : Action α} (hp : p.Acts Quiet) : Sound sha expiry i p m := by
  refine Wp.of_acts hp (fun _ _ _ _ h => h) ?_ trivial
  intro m' l f hl hinv _ _
  obtain ⟨hinv', hstay⟩ := hl.step hinv
  exact ⟨hinv', hstay, trivial⟩

theorem markRevoked_sound (pairs : List (String × Int)) (hm : ToMark revokedAt pairs m) :
    Sound sha expiry i (markRevoked Repository.revokeAccessToken revokedAt pairs).run m := by
  induction pairs generalizing m with
  | nil => trivial
  | cons p rest ih =>
    obtain ⟨s, expiresAt⟩ := p
    have hrest : ∀ {m' : Moment ι World Label}, ToMark revokedAt ((s, expiresAt) :: rest) m' →
        ToMark revokedAt rest m' :=
      fun h => ⟨h.1, fun p hp => h.2 p (List.mem_cons_of_mem _ hp)⟩
    refine wp_bind_except.mpr (wp_whenever (fun _ => ih (hrest hm)) fun _ => ?_)
    refine wp_call trivial fun m' hr hinv hok => ?_
    have hm' := toMark_stable _ _ m m' hr hinv hm
    obtain ⟨r, hmem, hsha, hexp⟩ := hm'.2 (s, expiresAt) (List.mem_cons_self ..)
    have hafter : r.expiresAt - (expiresAt - revokedAt) ≤ m'.shared.now := by
      have hbegun := hm'.1
      omega
    have hstay : ExpiriesStay m'.shared { m'.shared with
          tokens := m'.shared.tokens.revokeAccessToken m'.shared.now s (expiresAt - revokedAt) } :=
      ⟨Int.le_refl _, fun r hr => ⟨r, hr, rfl, rfl⟩⟩
    exact ⟨mark_step hinv hmem hsha hafter hok, hstay, ih (hrest (hm'.stay hstay)), trivial⟩

theorem markRefresh_quiet (revokedAt : Int) (pairs : List (String × Int)) :
    (markRevoked Repository.revokeRefreshToken revokedAt pairs).run.Acts Quiet := by
  induction pairs with
  | nil => trivial
  | cons p rest ih =>
    refine .bind_except (.whenever (.call ?_)) fun _ => ih
    exact ⟨.of_same nofun fun _ => ⟨rfl, rfl, rfl⟩, fun _ => trivial⟩

theorem quiet_list (userID : Int) : Quiet (.listActiveAccessTokens userID) fun w => w :=
  .of_same nofun fun _ => ⟨rfl, rfl, rfl⟩

theorem quiet_bulk (userID revokedAt : Int) : Quiet (.revokeAccessTokens userID revokedAt) fun w =>
    { w with db := w.db.revokeAccessTokens w.now userID revokedAt } where
  label := nofun
  same _ := rfl
  rows w := by
    refine ⟨Int.le_refl _, fun r hr => ⟨_, List.mem_map_of_mem hr, ?_⟩⟩
    split <;> exact ⟨rfl, rfl⟩

theorem revokeUserTokens_sound (hm : ToMark revokedAt [] m) :
    Sound sha expiry i (revokeUserTokens userID revokedAt).run m := by
  refine .send (toMark_stable _ _) hm fun m₁ hinv₁ hm₁ _ => ?_
  obtain ⟨hinv₁', hstay₁, hm₁'⟩ := (quiet_list userID).keeps hinv₁ hm₁
  refine ⟨hinv₁', hstay₁, ?_⟩
  -- the tokens to mark are those the list shows
  have hlisted : ToMark revokedAt ((m₁.shared.db.listActiveAccessTokens m₁.shared.now userID).map
        fun t => (t.tokenSHA256, t.expiresAt))
      (m₁.after i (.listActiveAccessTokens userID) fun w => w) := by
    refine ⟨hm₁'.1, fun p hp => ?_⟩
    obtain ⟨r, hr, rfl⟩ := List.mem_map.mp hp
    exact ⟨r, (List.mem_filter.mp hr).1, rfl, rfl⟩
  refine .ask (toMark_stable _ _) hlisted fun m₂ _ hm₂ => ?_
  refine .send (toMark_stable _ _) hm₂ fun m₃ hinv₃ hm₃ _ => ?_
  obtain ⟨hinv₃', hstay₃, hm₃'⟩ := (quiet_bulk userID revokedAt).keeps hinv₃ hm₃
  refine ⟨hinv₃', hstay₃, ?_⟩
  have hrefresh : Quiet (.revokeRefreshTokens userID revokedAt) fun w =>
      { w with db := w.db.revokeRefreshTokens w.now userID revokedAt } :=
    .of_same nofun fun _ => ⟨rfl, rfl, rfl⟩
  refine .send (toMark_stable _ _) hm₃' fun m₄ hinv₄ hm₄ _ => ?_
  obtain ⟨hinv₄', hstay₄, hm₄'⟩ := hrefresh.keeps hinv₄ hm₄
  refine ⟨hinv₄', hstay₄, ?_⟩
  refine wp_bind_except.mpr ((markRevoked_sound _ hm₄').imp fun result m₅ _ => ?_)
  cases result with
  | error e => trivial
  | ok _ =>
    exact sound_of_quiet (.bind_except (markRefresh_quiet revokedAt _) fun _ => trivial)

theorem deleteSession_quiet (s : String) :
    (Prog.call SessionError.store (Repository.deleteSession s)).run.Acts Quiet := by
  refine .call (.bind (getSession_silent s).acts fun entry => ?_)
  cases entry with
  | none => exact ⟨.of_same nofun fun _ => ⟨rfl, rfl, rfl⟩, fun _ => trivial⟩
  | some e => exact ⟨.of_same nofun fun _ => ⟨rfl, rfl, rfl⟩, fun _ => trivial⟩

theorem clearSessions_quiet (ids : List String) : (clearSessions ids).run.Acts Quiet := by
  induction ids with
  | nil => trivial
  | cons s rest ih => exact .bind_except (deleteSession_quiet s) fun _ => ih

theorem logoutUser_sound {sessionID : String} :
    Sound sha expiry i (logoutUser userID sessionID).run m := by
  refine wp_bind_except.mpr (wp_lift.mpr fun m₁ _ _ => ?_)
  have hm₁ : ToMark m₁.shared.now [] m₁ := ⟨Int.le_refl _, nofun⟩
  have hR : (markers sha expiry).Stable i (ToMark m₁.shared.now []) := toMark_stable _ _
  have hlogout : Quiet (.logoutAllByUserID userID m₁.shared.now) fun w =>
      { w with db := w.db.logoutAllByUserID userID m₁.shared.now } :=
    .of_same nofun fun _ => ⟨rfl, rfl, rfl⟩
  have hindex : Quiet (.listUserSessionIDs (formatInt userID)) fun w => w :=
    .of_same nofun fun _ => ⟨rfl, rfl, rfl⟩
  refine .ask hR hm₁ fun m₂ _ hm₂ => ?_
  refine .send hR hm₂ fun m₃ hinv₃ hm₃ _ => ?_
  obtain ⟨hinv₃', hstay₃, hm₃'⟩ := hlogout.keeps hinv₃ hm₃
  refine ⟨hinv₃', hstay₃, ?_⟩
  refine .send hR hm₃' fun m₄ hinv₄ hm₄ _ => ?_
  obtain ⟨hinv₄', hstay₄, hm₄'⟩ := hindex.keeps hinv₄ hm₄
  refine ⟨hinv₄', hstay₄, ?_⟩
  refine wp_acts (clearSessions_quiet _) hR (fun m' l f hl hinv h _ => hl.keeps hinv h) hm₄'
    (fun _ _ _ => trivial) fun _ m₅ hm₅ => ?_
  refine wp_bind_except.mpr ((revokeUserTokens_sound hm₅).imp fun result m₆ _ => ?_)
  cases result <;> trivial

theorem exchanging_quiet (hl : Exchanging l f) : Quiet l f := by
  cases hl with
  | issuing hl =>
    cases hl with
    | createAccessToken t ht =>
      refine ⟨(fun _ _ h => by cases h), fun _ => rfl, fun w =>
        ⟨Int.le_refl _, fun r hr => ⟨r, ?_, rfl, rfl⟩⟩⟩
      simp only [Database.createAccessToken]
      split
      · exact hr
      · exact List.mem_append_left _ hr
    | _ => exact .of_same (fun _ _ h => by cases h) fun w => ⟨rfl, by simp, rfl⟩
  | _ => exact .of_same (fun _ _ h => by cases h) fun w => ⟨rfl, by simp, by simp⟩

theorem tokenCaller_sound (env : Env) (caller : TokenCaller) :
    Sound sha expiry i (caller.code env) m := by
  cases caller with
  | logoutAll sessionID =>
    refine wp_bind.mpr ?_
    unfold Session.logoutAll
    cases nonblank sessionID with
    | none => trivial
    | some s =>
      refine wp_ask (R := fun _ => True) (fun _ _ _ _ h => h) trivial (fun _ _ => trivial)
        fun m₁ _ _ => ?_
      cases m₁.shared.db.findSession env.sqlEq s with
      | some row => exact logoutUser_sound
      | none =>
        exact sound_of_quiet (.bind_except (deleteSession_quiet s) fun _ => trivial)
  | adminLogoutUser userID =>
    refine wp_bind.mpr ?_
    unfold Session.adminLogoutUser
    split
    · trivial
    · exact logoutUser_sound
  | exchange draws input =>
    refine sound_of_quiet (.bind ?_ fun _ => trivial)
    exact (exchange_acts env draws input).imp fun _ _ => exchanging_quiet

end Programs

/-! ## The law -/

def hourlyEnv : Env :=
  { Env.plain [terminal] with
    parseAndValidate := fun token now =>
      if now < 3600 * second then (Env.plain [terminal]).parseAndValidate token now else none }

def tokenThenLogoutAll : Config Bool World Label Bool :=
  Config.start signedIn fun i => (tokenAndLogoutAll i).code hourlyEnv

def issueWaitLogout (wait : Nat) : List (Move Bool World) :=
  [.run true, .run true, .run true, .run true, .env (World.later wait), .run false, .run false,
    .run false, .run false, .run false, .run false, .run false, .run false]

theorem sameTokens_later (ns : Nat) (w : World) : SameTokens w (w.later ns) :=
  ⟨Int.le_add_of_nonneg_right (Int.natCast_nonneg ns), rfl, rfl⟩

end IdpServer.Laws.Session
