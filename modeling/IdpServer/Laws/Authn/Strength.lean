import IdpServer.Http.Middleware
import IdpServer.Laws.Authn.Grounds
import IdpServer.Laws.Enrolment.Commands

/-!
# Laws.Authn.Strength — how strong a session says it is

**A password login can be overtaken** by an enrolment, and its session is created as one with a second factor
(`strengthUnearned`). `strengthEarned` is the law when that does not happen.
-/

namespace IdpServer.Laws.Authn

open Conc IdpServer.Cache Store Go IdpServer.Authn
open IdpServer.Http (sessionHasOTP)
open Laws.Session (succeeds)
open Laws.Enrolment (Enrolling beginTOTPSetup_acts confirmTOTPSetup_acts)

variable {ι : Type}

/-! ## Callers -/

inductive Member where
  | login (call : Login)
  | beginSetup (secret sessionID : String)
  | confirmSetup (challengeID sessionID code returnTo : String)

def Member.code (env : Env) : Member → Action Bool
  | .login call => call.code env
  | .beginSetup secret sessionID => succeeds (Enrolment.beginTOTPSetup env secret sessionID)
  | .confirmSetup challengeID sessionID code returnTo =>
      succeeds (Enrolment.confirmTOTPSetup env challengeID sessionID code returnTo)

def Member.byPassword : Member → Bool
  | .login (.authenticate _ _ input) => resolveMethodType input = some .password
  | _ => false

/-- **The condition**: a password login inserts its session while the account has no credential. -/
def Unenrolled (callers : ι → Member) (m : Moment ι World Label) (i : ι) : Label → Prop
  | .createSession s => (callers i).byPassword = true → m.shared.db.findTOTP s.userID = none
  | _ => True

instance (callers : ι → Member) (m : Moment ι World Label) (i : ι) (l : Label) :
    Decidable (Unenrolled callers m i l) := by
  induction l using Label.casesOn <;> dsimp only [Unenrolled] <;> infer_instance

/-! ## Second factors -/

def Enrolled (w : World) (m : Moment ι World Label) (t : TOTPCredential) : Prop :=
  t ∈ w.db.totps ∨ ∃ x ∈ m.trace, x.label = .upsertTOTP t

/-- The passkey was there at the start, or has been written since. -/
def Registered (w : World) (m : Moment ι World Label) (p : PasskeyCredential) : Prop :=
  p ∈ w.db.passkeys ∨ ∃ x ∈ m.trace, ∃ id, x.label = .upsertPasskey { p with credentialID := id }

/-- **The call has verified a second factor of the account** by the time `t`: a code for an enrolled secret,
an assertion by registered passkeys, or an approved push. -/
inductive SecondFactor (env : Env) (w : World) (i : ι) (t : Int) (m : Moment ι World Label) :
    Login → Int → Prop
  | totp {sessionID challengeID code : String} {credential : TOTPCredential} {now step : Int}
      (henrolled : Enrolled w m credential) (hclock : w.now ≤ now ∧ now ≤ t)
      (hcode : env.verifyCodeWithStep credential.secret code now = some step) :
      SecondFactor env w i t m (.verifyTOTP sessionID challengeID code) credential.userID
  | passkey {sessionID challengeID responseJSON : String} {user : User} {h : MFAChallengeHash}
      {p : PackedState} {credentials : List PasskeyCredential} {login : String × String}
      (hfetched : Fetched i (trimSpace challengeID) h p m)
      (hholder : parseUserID (trimSpace h.userID) = some user.id)
      (hregistered : ∀ c ∈ credentials, c.userID = user.id ∧ Registered w m c)
      (hlogin : env.finishLogin (toPasskeyUser user) (credentialTexts credentials)
        (mfaChallengeEntry h p).passkeySessionJSON responseJSON = some login) :
      SecondFactor env w i t m (.verifyMFAPasskey sessionID challengeID responseJSON) user.id
  | push {sessionID challengeID : String} {userID : Int} {h : MFAChallengeHash} {p : PackedState}
      (hfetched : Fetched i (trimSpace challengeID) h p m)
      (hholder : parseUserID (trimSpace h.userID) = some userID)
      (happroved : normalizePushStatus (mfaChallengeEntry h p).pushStatus = .approved) :
      SecondFactor env w i t m (.finalizeMFAPush sessionID challengeID) userID

section Suffix

variable {w : World} {m m' : Moment ι World Label}

theorem Enrolled.suffix {t : TOTPCredential} (h : Enrolled w m t) (hm : m.trace <:+ m'.trace) :
    Enrolled w m' t := by
  rcases h with h | ⟨x, hx, hlabel⟩
  · exact .inl h
  · exact .inr ⟨x, hm.subset hx, hlabel⟩

theorem Registered.suffix {p : PasskeyCredential} (h : Registered w m p)
    (hm : m.trace <:+ m'.trace) : Registered w m' p := by
  rcases h with h | ⟨x, hx, hlabel⟩
  · exact .inl h
  · exact .inr ⟨x, hm.subset hx, hlabel⟩

theorem SecondFactor.suffix {env : Env} {i : ι} {t : Int} {call : Login} {userID : Int}
    (h : SecondFactor env w i t m call userID) (hm : m.trace <:+ m'.trace) :
    SecondFactor env w i t m' call userID := by
  cases h with
  | totp henrolled hclock hcode => exact .totp (henrolled.suffix hm) hclock hcode
  | passkey hfetched hholder hregistered hlogin =>
    refine .passkey (hfetched.suffix hm) hholder (fun c hc => ?_) hlogin
    exact ⟨(hregistered c hc).1, (hregistered c hc).2.suffix hm⟩
  | push hfetched hholder happroved => exact .push (hfetched.suffix hm) hholder happroved

end Suffix

/-! ## The discipline -/

/-- Every secret was enrolled, every passkey registered, and every session that says so has a second
factor. -/
structure Earned (env : Env) (callers : ι → Member) (w : World) (m : Moment ι World Label) : Prop where
  clock : w.now ≤ m.shared.now
  totps : ∀ t ∈ m.shared.db.totps, Enrolled w m t
  passkeys : ∀ p ∈ m.shared.db.passkeys, Registered w m p
  sessions : ∀ x ∈ m.trace, ∀ s, x.label = .createSession s → sessionHasOTP s = true →
    ∃ call, callers x.pid = .login call ∧
      SecondFactor env w x.pid x.before.now m call s.userID

structure CredentialsStay (w w' : World) : Prop where
  clock : w.now ≤ w'.now
  totps : ∀ id, w.db.findTOTP id ≠ none → w'.db.findTOTP id ≠ none

def earning (env : Env) (callers : ι → Member) (w : World) : Discipline ι World Label where
  inv := Earned env callers w
  mono m m' := CredentialsStay m.shared m'.shared
  mono_refl _ := ⟨Int.le_refl _, fun _ h => h⟩
  mono_trans h h' := ⟨Int.le_trans h.clock h'.clock, fun id hid => h'.totps id (h.totps id hid)⟩

/-- Time goes on, and nobody's credentials change. -/
structure FactorsUntouched (w w' : World) : Prop where
  clock : w.now ≤ w'.now
  totps : w'.db.totps = w.db.totps
  passkeys : w'.db.passkeys = w.db.passkeys

theorem FactorsUntouched.stay {w w' : World} (h : FactorsUntouched w w') : CredentialsStay w w' := by
  refine ⟨h.clock, fun id hid => ?_⟩
  rwa [Database.findTOTP, h.totps]

theorem credentialsStay_upsertTOTP (w : World) (t : TOTPCredential) :
    CredentialsStay w { w with db := w.db.upsertTOTP t } := by
  refine ⟨Int.le_refl _, fun id hid => ?_⟩
  obtain ⟨r, hr⟩ := Option.ne_none_iff_exists'.mp hid
  have hmem := List.mem_of_find?_eq_some hr
  have hrid : r.userID = id := by simpa using List.find?_some hr
  rw [Database.findTOTP, ne_eq, List.find?_eq_none]
  intro hall
  by_cases hany : w.db.totps.any fun r => r.userID = t.userID
  · refine hall (if r.userID = t.userID then t else r) ?_ ?_
    · simp only [Database.upsertTOTP, hany, if_true]
      exact List.mem_map_of_mem hmem
    · split
      next h => simpa [← hrid] using h.symm
      next => simpa using hrid
  · refine hall r ?_ (by simpa using hrid)
    simp only [Database.upsertTOTP, hany, Bool.false_eq_true, if_false]
    exact List.mem_append_left _ hmem

theorem mem_upsertPasskey {db : Database} {sqlEq : String → String → Bool} {p r : PasskeyCredential}
    (h : r ∈ (db.upsertPasskey sqlEq p).passkeys) :
    r ∈ db.passkeys ∨ ∃ id, p = { r with credentialID := id } := by
  unfold Database.upsertPasskey at h
  split at h
  · obtain ⟨r₀, hr₀, rfl⟩ := List.mem_map.mp h
    split
    · exact .inr ⟨p.credentialID, rfl⟩
    · exact .inl hr₀
  · rcases List.mem_append.mp h with h | h
    · exact .inl h
    · obtain rfl := List.mem_singleton.mp h
      exact .inr ⟨r.credentialID, rfl⟩

section Discipline

variable {env : Env} {callers : ι → Member} {w : World} {m : Moment ι World Label} {i : ι}
variable {l : Label} {f : World → World}

theorem Earned.sessions_after (h : Earned env callers w m)
    (hl : ∀ s, l = .createSession s → sessionHasOTP s = true →
      ∃ call, callers i = .login call ∧ SecondFactor env w i m.shared.now m call s.userID) :
    ∀ x ∈ (m.after i l f).trace, ∀ s, x.label = .createSession s → sessionHasOTP s = true →
      ∃ call, callers x.pid = .login call ∧
        SecondFactor env w x.pid x.before.now (m.after i l f) call s.userID := by
  intro x hx s hlabel hotp
  have hold : ∃ call, callers x.pid = .login call ∧
      SecondFactor env w x.pid x.before.now m call s.userID := by
    rcases List.mem_cons.mp hx with rfl | hx
    · exact hl s hlabel hotp
    · exact h.sessions x hx s hlabel hotp
  obtain ⟨call, hcall, hfactor⟩ := hold
  exact ⟨call, hcall, hfactor.suffix (List.suffix_cons _ _)⟩

theorem Earned.step (h : Earned env callers w m)
    (hl : ∀ s, l = .createSession s → sessionHasOTP s = true →
      ∃ call, callers i = .login call ∧ SecondFactor env w i m.shared.now m call s.userID)
    (hsame : FactorsUntouched m.shared (f m.shared)) :
    (earning env callers w).Kept m (m.after i l f) := by
  refine ⟨⟨Int.le_trans h.clock hsame.clock, fun t ht => ?_, fun p hp => ?_, h.sessions_after hl⟩,
    hsame.stay⟩
  · rw [Moment.after_shared, hsame.totps] at ht
    exact (h.totps t ht).suffix (List.suffix_cons _ _)
  · rw [Moment.after_shared, hsame.passkeys] at hp
    exact (h.passkeys p hp).suffix (List.suffix_cons _ _)

theorem Earned.enrol (h : Earned env callers w m) (t : TOTPCredential) :
    (earning env callers w).Kept m
      (m.after i (.upsertTOTP t) fun w => { w with db := w.db.upsertTOTP t }) := by
  refine ⟨⟨h.clock, fun r hr => ?_, fun p hp => ?_, h.sessions_after nofun⟩,
    credentialsStay_upsertTOTP _ t⟩
  · rcases Database.mem_upsertTOTP hr with hr | rfl
    · exact (h.totps r hr).suffix (List.suffix_cons _ _)
    · exact .inr ⟨_, .head _, rfl⟩
  · exact (h.passkeys p hp).suffix (List.suffix_cons _ _)

theorem Earned.register (h : Earned env callers w m) (p : PasskeyCredential) :
    (earning env callers w).Kept m
      (m.after i (.upsertPasskey p) fun w => { w with db := w.db.upsertPasskey env.sqlEq p }) := by
  refine ⟨⟨h.clock, fun t ht => ?_, fun r hr => ?_, h.sessions_after nofun⟩,
    ⟨Int.le_refl _, fun _ hid => hid⟩⟩
  · exact (h.totps t ht).suffix (List.suffix_cons _ _)
  · rcases mem_upsertPasskey hr with hr | ⟨id, rfl⟩
    · exact (h.passkeys r hr).suffix (List.suffix_cons _ _)
    · exact .inr ⟨_, .head _, id, rfl⟩

theorem Earned.enrolling {saves : MFAChallengeEntry → Prop} (h : Earned env callers w m)
    (hl : Enrolling env saves l f) : (earning env callers w).Kept m (m.after i l f) := by
  cases hl with
  | upsertTOTP t => exact h.enrol t
  | upsertPasskey p => exact h.register p
  | _ => exact h.step nofun ⟨Int.le_refl _, rfl, rfl⟩

theorem Earned.sundry (h : Earned env callers w m) (hl : Sundry env l f) :
    (earning env callers w).Kept m (m.after i l f) := by
  cases hl with
  | upsertPasskey p => exact h.register p
  | limit l hl g =>
    refine h.step ?_ ⟨Int.le_refl _, rfl, rfl⟩
    rintro s rfl
    cases hl
  | createUser new =>
    refine h.step nofun ?_
    rcases m.shared.db.createUser_cases env.sqlEq new with hc | ⟨row, _, hc⟩ <;> simp only [hc] <;>
      exact ⟨Int.le_refl _, rfl, rfl⟩
  | _ => exact h.step nofun ⟨Int.le_refl _, rfl, rfl⟩

theorem sessionHasOTP_single {s : Session} (method : AuthnMethodType)
    (hacr : s.acr = (sessionAuthContext method).1)
    (hamr : s.amrJSON = (sessionAuthContext method).2) : sessionHasOTP s = false := by
  rw [sessionHasOTP, hacr, hamr]
  cases method <;> decide +kernel

theorem enrolled_of_past {id : Int} {credential : TOTPCredential}
    (h : (earning env callers w).Past (fun m₀ => m₀.shared.db.findTOTP id = some credential) m) :
    Enrolled w m credential ∧ credential.userID = id := by
  obtain ⟨m₀, hinv, hfound, hlater⟩ := h
  refine ⟨(Earned.totps hinv _ (List.mem_of_find?_eq_some hfound)).suffix hlater.suffix, ?_⟩
  simpa using List.find?_some hfound

theorem registered_of_past {id : Int} {credentials : List PasskeyCredential}
    (h : (earning env callers w).Past (fun m₀ => m₀.shared.db.listPasskeys id = credentials) m) :
    ∀ p ∈ credentials, p.userID = id ∧ Registered w m p := by
  obtain ⟨m₀, hinv, rfl, hlater⟩ := h
  intro p hp
  obtain ⟨hmem, hid⟩ := List.mem_filter.mp hp
  exact ⟨by simpa using hid, (Earned.passkeys hinv p hmem).suffix hlater.suffix⟩

theorem clock_of_past {now : Int}
    (h : (earning env callers w).Past (fun m₀ => m₀.shared.now = now) m) :
    w.now ≤ now ∧ now ≤ m.shared.now := by
  obtain ⟨m₀, hinv, rfl, hlater⟩ := h
  exact ⟨hinv.clock, hlater.mono.clock⟩

/-- **A session that says to have a second factor has one**, on any grounds but an overtaken
password. -/
theorem secondFactor_of_grounds
    (hjson : ∀ method, env.jsonColumn (sessionAuthContext method).2 = (sessionAuthContext method).2)
    {call : Login} (hcall : callers i = .login call) {user : User} {method : AuthnMethodType}
    {context : String × String} {row : Session}
    (hgrounds : Grounds env (earning env callers w) (Unenrolled callers) i m call user method)
    (hlabel : Labelled (earning env callers w) user method context m)
    (huser : row.userID = user.id) (hacr : row.acr = context.1)
    (hamr : row.amrJSON = env.jsonColumn context.2)
    (ha : Unenrolled callers m i (.createSession row)) (hotp : sessionHasOTP row = true) :
    SecondFactor env w i m.shared.now m call row.userID := by
  rw [huser]
  cases hgrounds with
  | firstFactor hmethod _ =>
    rcases hlabel with rfl | ⟨rfl, m₀, _, hseen, hlater⟩
    · rw [sessionHasOTP_single method hacr (hamr.trans (hjson method))] at hotp
      cases hotp
    · -- a credential that was seen is still there, against the condition
      have hnone := ha (by rw [hcall]; simpa [Member.byPassword] using hmethod)
      rw [huser] at hnone
      exact absurd hnone (hlater.mono.totps user.id hseen)
  | totp _ _ _ hcredential hclock hcode =>
    obtain ⟨henrolled, hid⟩ := enrolled_of_past hcredential
    rw [← hid]
    exact .totp henrolled (clock_of_past hclock) hcode
  | passkey hread _ hholder _ _ hcredentials hlogin =>
    obtain ⟨h, p, rfl, hfetched, _⟩ := hread
    exact .passkey hfetched hholder (registered_of_past hcredentials) hlogin
  | push hread happroved hholder =>
    obtain ⟨h, p, rfl, hfetched, _⟩ := hread
    exact .push hfetched hholder happroved

theorem earning_admission
    (hjson : ∀ method, env.jsonColumn (sessionAuthContext method).2 = (sessionAuthContext method).2)
    {call : Login} (hcall : callers i = .login call) :
    Admission env (earning env callers w) (Unenrolled callers) i call where
  sundry hl hinv _ := Earned.sundry hinv hl
  save _ hinv _ := Earned.step hinv nofun ⟨Int.le_refl _, rfl, rfl⟩
  create := by
    intro m user method context row hgrounds hlabel huser hacr hamr hinv ha
    refine Earned.step hinv ?_ ?_
    · rintro _ ⟨⟩ hotp
      exact ⟨call, hcall,
        secondFactor_of_grounds hjson hcall hgrounds hlabel huser hacr hamr ha hotp⟩
    · simp only [Database.createSession]
      split <;> exact ⟨Int.le_refl _, rfl, rfl⟩

theorem member_wp [DecidableEq ι]
    (hjson : ∀ method, env.jsonColumn (sessionAuthContext method).2 = (sessionAuthContext method).2) :
    Wp (earning env callers w) (Unenrolled callers) i ((callers i).code env) (fun _ _ => True) m := by
  cases hcall : callers i with
  | login call => exact login_wp (earning_admission hjson hcall)
  | beginSetup secret sessionID =>
    have hacts : (Enrolment.beginTOTPSetup env secret sessionID).run.Acts
        (Enrolling env fun _ => False) := beginTOTPSetup_acts secret sessionID
    refine wp_last (hacts.bind fun _ => trivial) (fun _ _ _ hl hinv _ => ?_)
      ((earning env callers w).lasting_const True) trivial
    exact Earned.enrolling hinv hl
  | confirmSetup challengeID sessionID code returnTo =>
    refine wp_last ((confirmTOTPSetup_acts _ _ _ _).bind fun _ => trivial)
      (fun _ _ _ hl hinv _ => ?_) ((earning env callers w).lasting_const True) trivial
    exact Earned.enrolling hinv hl

end Discipline

/-! ## The law -/

/-- **Strength is earned.** Any number of logins and TOTP enrolments run among each other, and no password
login inserts its session while the account has a TOTP credential. Then every session that the
administration takes for one with a second factor was created by a call that has verified one of the same
account. -/
theorem strengthEarned [DecidableEq ι] (env : Env)
    (hjson : ∀ method, env.jsonColumn (sessionAuthContext method).2 = (sessionAuthContext method).2)
    (callers : ι → Member) {w : World} {E : World → World → Prop}
    (hE : ∀ w w', E w w' → FactorsUntouched w w') {c : Config ι World Label Bool}
    (hrun : Reach E (Unenrolled callers) (Config.start w fun i => (callers i).code env) c) :
    ∀ x ∈ c.trace, ∀ s, x.label = .createSession s → sessionHasOTP s = true →
      ∃ call, callers x.pid = .login call ∧
        SecondFactor env w x.pid x.before.now c.toMoment call s.userID := by
  have hsafe : c.Safe (earning env callers w) (Unenrolled callers) fun _ _ _ => True := by
    refine sound (fun m w' hinv hw => ?_) (fun _ _ _ _ _ _ _ => trivial) ?_ hrun
    · have hsame := hE _ _ hw
      refine ⟨⟨Int.le_trans hinv.clock hsame.clock, fun t ht => hinv.totps t (hsame.totps ▸ ht),
        fun p hp => hinv.passkeys p (hsame.passkeys ▸ hp), fun x hx s hlabel hotp => ?_⟩, hsame.stay⟩
      obtain ⟨call, hcall, hfactor⟩ := hinv.sessions x hx s hlabel hotp
      exact ⟨call, hcall, hfactor.suffix (List.suffix_refl _)⟩
    · refine ⟨⟨Int.le_refl _, fun t ht => .inl ht, fun p hp => .inl hp, fun x hx => ?_⟩,
        fun i => member_wp hjson⟩
      cases hx
  exact hsafe.1.sessions


/-! ## A password login overtaken by an enrolment -/

def enrollingUser : World :=
  let challenge : MFAChallengeEntry := { Mfa.passkeyChallenge with userID := "7" }
  let entry : TOTPEnrollmentEntry := ⟨"s0", "7", "111111", "", 600 * second⟩
  { World.empty 0 with
    db := { Database.empty with
      users := [⟨7, "sub-7", "ada", "ada", true, "ada", "pw", "user", 0#32, "", "active"⟩]
      sessions := [⟨1, "s0", 7, "sub-7", "urn:idp:acr:pwd", "[\"pwd\"]", "", "", 0, 3600 * second,
        none⟩] }
    enrollments := Cache.saveTOTPEnrollment .empty 0 entry (600 * second)
    mfa := (saveMFAChallenge .empty 0 challenge (300 * second)).2 }

def besideEnrolment (call : Login) : Bool → Member
  | true => .login call
  | false => .confirmSetup "c2" "s0" "111111" ""

def enrolmentRace (call : Login) : Config Bool World Label Bool :=
  Config.start enrollingUser fun i => (besideEnrolment call i).code (.plain [])

def adasPassword : Login :=
  .authenticate ⟨"s1", "c3", "99", "uuid"⟩ (.error .connector) { username := "ada", password := "pw" }

def adasCode : Login := .verifyTOTP "s1" "c1" "111111"

def enrolThenLogin : List (Move Bool World) :=
  [.run false, .run false, .run false, .run false, .run true, .run true, .run true, .run true,
    .run true, .run true, .run true]

def overtaken : List (Move Bool World) :=
  [.run true, .run true, .run true, .pick true true, .pick true true, .pick true true,
    .run false, .run false, .run false, .run false, .run true, .run true, .run true]

def strongSession : Session :=
  ⟨0, "s1", 7, "sub-7", "urn:idp:acr:mfa", "[\"pwd\",\"otp\"]", "", "", 0, 3600 * second, none⟩

theorem strengthEarned_code :
    ∃ c, Reach FactorsUntouched (Unenrolled (besideEnrolment adasCode)) (enrolmentRace adasCode) c ∧
      ∃ x ∈ c.trace, x.label = .createSession strongSession ∧ sessionHasOTP strongSession = true ∧
        ∃ call, besideEnrolment adasCode x.pid = .login call ∧
          SecondFactor (.plain []) enrollingUser x.pid x.before.now c.toMoment call 7 := by
  let c := (enrolmentRace adasCode).played (Unenrolled (besideEnrolment adasCode)) enrolThenLogin
  have hrun : Reach FactorsUntouched (Unenrolled (besideEnrolment adasCode))
      (enrolmentRace adasCode) c :=
    played_reach _ (by simp [enrolThenLogin, Move.Allowed]) (by decide +kernel)
  have hcreated : ∃ x ∈ c.trace, x.label = .createSession strongSession := by decide +kernel
  obtain ⟨x, hx, hlabel⟩ := hcreated
  have hotp : sessionHasOTP strongSession = true := by decide +kernel
  exact ⟨c, hrun, x, hx, hlabel, hotp,
    strengthEarned (.plain []) (fun _ => rfl) _ (fun _ _ h => h) hrun x hx _ hlabel hotp⟩

/-- **The law fails without the condition.** The password login saw no secret and asked for no second
factor, and its session says to have one. -/
theorem strengthUnearned :
    ∃ c, Reach FactorsUntouched Unrestricted (enrolmentRace adasPassword) c ∧
      c.procs true = .ret true ∧
      ∃ x ∈ c.trace, x.label = .createSession strongSession ∧ sessionHasOTP strongSession = true ∧
        ¬ ∃ call, besideEnrolment adasPassword x.pid = .login call ∧
          SecondFactor (.plain []) enrollingUser x.pid x.before.now c.toMoment call 7 := by
  let c := (enrolmentRace adasPassword).played Unrestricted overtaken
  have hrun : Reach FactorsUntouched Unrestricted (enrolmentRace adasPassword) c :=
    played_reach _ (by simp [overtaken, Move.Allowed]) (by decide +kernel)
  have hcreated : ∃ x ∈ c.trace, x.pid = true ∧ x.label = .createSession strongSession := by
    decide +kernel
  obtain ⟨x, hx, hpid, hlabel⟩ := hcreated
  refine ⟨c, hrun, by decide +kernel, x, hx, hlabel, by decide +kernel, ?_⟩
  rintro ⟨call, hcall, hfactor⟩
  rw [hpid] at hcall
  obtain rfl : adasPassword = call := Member.login.inj hcall
  cases hfactor

end IdpServer.Laws.Authn
