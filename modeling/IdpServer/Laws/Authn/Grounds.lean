import IdpServer.Authn.Login
import IdpServer.Conc.Lasting
import IdpServer.Laws.Session.LoggedOut

/-!
# Laws.Authn.Grounds — what a login session rests on

Four calls end with a session; `Grounds` says what each has established by then. A law about sessions has to
show that such a session keeps its invariant (`Admission`, `login_wp`).
-/

namespace IdpServer.Laws.Authn

open Conc IdpServer.Cache Store Go IdpServer.Authn
open Laws.Mfa
open Laws.Session (succeeds)

variable {ι : Type}

/-! ## Calls -/

inductive Login where
  | authenticate (draws : LoginDraws) (answer : Except AuthnError ConnectorResult)
      (input : AuthenticateInput)
  | verifyTOTP (sessionID challengeID code : String)
  | verifyMFAPasskey (sessionID challengeID responseJSON : String)
  | finalizeMFAPush (sessionID challengeID : String)

def Login.code (env : Env) : Login → Action Bool
  | .authenticate draws answer input => succeeds (Authn.authenticate env draws answer input)
  | .verifyTOTP sessionID challengeID code =>
      succeeds (Authn.verifyTOTP env sessionID challengeID code)
  | .verifyMFAPasskey sessionID challengeID responseJSON =>
      succeeds (Authn.verifyMFAPasskey env sessionID challengeID responseJSON)
  | .finalizeMFAPush sessionID challengeID =>
      succeeds (Authn.finalizeMFAPush env sessionID challengeID)

def isLimit : Label → Bool
  | .incrementLoginFailByUser _ _ | .incrementLoginFailByIP _ | .incrementBlacklistByUser _ _
  | .resetLoginFailByUser _ | .resetBlacklistByUser _ | .resetLoginFailByIP _ | .clearIPLock _
  | .clearUserLock _ => true
  | _ => false

inductive Sundry (env : Env) : Label → (World → World) → Prop
  | limit (l : Label) (hl : isLimit l = true) (g : World → RateLimitCache) :
      Sundry env l fun w => { w with limits := g w }
  | verifyPassword (userID : Int) : Sundry env (.verifyPassword userID) fun w => w
  | lockAccount (userID : Int) :
      Sundry env (.lockAccount userID) fun w => { w with db := w.db.lockAccount userID }
  | createUser (u : User) :
      Sundry env (.createUser u) fun w => { w with db := (w.db.createUser env.sqlEq u).2 }
  | hmgetMFAChallenge (id : String) : Sundry env (.hmgetMFAChallenge id) fun w => w
  | bitfieldMFAChallenge (id : String) : Sundry env (.bitfieldMFAChallenge id) fun w => w
  | reserveTOTPStepUse (userID purpose : String) (step ttl : Int) :
      Sundry env (.reserveTOTPStepUse userID purpose step) fun w =>
        { w with mfa := (Cache.reserveTOTPStepUse w.mfa w.now userID purpose step ttl).2 }
  | upsertPasskey (p : PasskeyCredential) :
      Sundry env (.upsertPasskey p) fun w => { w with db := w.db.upsertPasskey env.sqlEq p }
  | deleteMFAChallenge (id : String) : Sundry env (.deleteMFAChallenge id) fun w =>
      { w with mfa := Cache.deleteMFAChallenge w.mfa id }
  | saveSession (e : SessionCacheEntry) (ttl : Int) : Sundry env (.saveSession e ttl) fun w =>
      { w with sessions := w.sessions.save w.now e ttl }

/-! ## Grounds -/

def Admissible (status : String) : Prop := status = "" ∨ status = "active"

section Grounds

variable (env : Env) (D : Discipline ι World Label) (A : Moment ι World Label → ι → Label → Prop)
variable (i : ι)

def Seen (user : User) : Moment ι World Label → Prop :=
  D.Past fun m => user ∈ m.shared.db.users

def Cleared (id : Int) (m : Moment ι World Label) : Prop :=
  ∃ row, Seen D row m ∧ row.id = id ∧ Admissible row.status

def Created (user : User) : Moment ι World Label → Prop :=
  D.Past fun m => ∃ new, (m.shared.db.createUser env.sqlEq new).1 = some user

def Identified (user : User) (m : Moment ι World Label) : Prop :=
  Cleared D user.id m ∨ Created env D user m

structure Fetched (id : String) (h : MFAChallengeHash) (p : PackedState)
    (m : Moment ι World Label) : Prop where
  hash : m.Did i fun l w => l = .hmgetMFAChallenge id ∧ w.mfa.hmget w.now id = some h
  packed : m.Did i fun l w => l = .bitfieldMFAChallenge id ∧ w.mfa.bitfield w.now id = p

def ReadChallenge (id : String) (challenge : MFAChallengeEntry) (m : Moment ι World Label) : Prop :=
  ∃ h p, challenge = mfaChallengeEntry h p ∧ Fetched i id h p m ∧
    D.Past (fun m₀ => A m₀ i (.hmgetMFAChallenge id) ∧
      m₀.shared.mfa.hmget m₀.shared.now id = some h) m ∧
    D.Past (fun m₀ => m₀.shared.mfa.bitfield m₀.shared.now id = p) m

/-- **The grounds of a session**, by the call that creates it. -/
inductive Grounds (m : Moment ι World Label) : Login → User → AuthnMethodType → Prop
  | firstFactor {draws : LoginDraws} {answer : Except AuthnError ConnectorResult}
      {input : AuthenticateInput} {user : User} {method : AuthnMethodType}
      (hmethod : resolveMethodType input = some method) (huser : Identified env D user m) :
      Grounds m (.authenticate draws answer input) user method
  | totp {sessionID challengeID code : String} {user : User} {challenge : MFAChallengeEntry}
      {credential : TOTPCredential} {step now : Int}
      (hread : ReadChallenge D A i (trimSpace challengeID) challenge m)
      (hholder : parseUserID challenge.userID = some user.id)
      (huser : Seen D user m)
      (hcredential : D.Past (fun m₀ => m₀.shared.db.findTOTP user.id = some credential) m)
      (hclock : D.Past (fun m₀ => m₀.shared.now = now) m)
      (hcode : env.verifyCodeWithStep credential.secret code now = some step) :
      Grounds m (.verifyTOTP sessionID challengeID code) user .password
  | passkey {sessionID challengeID responseJSON : String} {user : User}
      {challenge : MFAChallengeEntry} {credentials : List PasskeyCredential} {login : String × String}
      (hread : ReadChallenge D A i (trimSpace challengeID) challenge m)
      (hmode : Authn.normalizeMFAMode challenge.mfaMode = .passkeyTOTPFallback)
      (hholder : parseUserID (trimSpace challenge.userID) = some user.id)
      (huser : Seen D user m) (hstatus : user.status = "active")
      (hcredentials : D.Past (fun m₀ => m₀.shared.db.listPasskeys user.id = credentials) m)
      (hlogin : env.finishLogin (toPasskeyUser user) (credentialTexts credentials)
        challenge.passkeySessionJSON responseJSON = some login) :
      Grounds m (.verifyMFAPasskey sessionID challengeID responseJSON) user .password
  | push {sessionID challengeID : String} {user : User} {challenge : MFAChallengeEntry}
      (hread : ReadChallenge D A i (trimSpace challengeID) challenge m)
      (happroved : normalizePushStatus challenge.pushStatus = .approved)
      (hholder : parseUserID (trimSpace challenge.userID) = some user.id)
      (huser : Seen D user m) (hstatus : user.status = "active") :
      Grounds m (.finalizeMFAPush sessionID challengeID) user .password

/-- How strong a session is said to be: as its method is, or stronger if the account was seen to
have a TOTP credential. -/
def Labelled (user : User) (method : AuthnMethodType) (context : String × String)
    (m : Moment ι World Label) : Prop :=
  context = sessionAuthContext method ∨
  method = .password ∧ D.Past (fun m₀ => m₀.shared.db.findTOTP user.id ≠ none) m

/-- The saves of a challenge by a login: a new one, or a new mode for the one it has read. -/
inductive Saving (m : Moment ι World Label) : Login → MFAChallengeEntry → Prop
  | fresh {draws : LoginDraws} {answer : Except AuthnError ConnectorResult}
      {input : AuthenticateInput} {e : MFAChallengeEntry} (hid : e.challengeID = draws.challengeID)
      (hmode : e.mfaMode = MFAMode.totpOnly.text) (hreturn : e.returnTo = input.returnTo)
      (hredirect : e.redirectURI = input.redirectURI) : Saving m (.authenticate draws answer input) e
  | moded {draws : LoginDraws} {answer : Except AuthnError ConnectorResult}
      {input : AuthenticateInput} {challenge : MFAChallengeEntry} (mode : MFAMode)
      (hread : ReadChallenge D A i (trimSpace draws.challengeID) challenge m) :
      Saving m (.authenticate draws answer input) { challenge with mfaMode := mode.text }

def Resumes (result : AuthenticateResult) : Prop :=
  ∃ m₀ id h, D.inv m₀ ∧ m₀.shared.mfa.hmget m₀.shared.now id = some h ∧
    result.returnTo = h.returnTo ∧ result.redirectURI = h.redirectURI

structure Admission (call : Login) : Prop where
  sundry : ∀ {m l f}, Sundry env l f → D.inv m → A m i l → D.Kept m (m.after i l f)
  save : ∀ {m e ttl}, Saving D A i m call e → D.inv m → A m i (.saveMFAChallenge e ttl) →
    D.Kept m (m.after i (.saveMFAChallenge e ttl) fun w =>
      { w with mfa := (Cache.saveMFAChallenge w.mfa w.now e ttl).2 })
  create : ∀ {m user method context} (row : Session), Grounds env D A i m call user method →
    Labelled D user method context m → row.userID = user.id → row.acr = context.1 →
    row.amrJSON = env.jsonColumn context.2 → D.inv m → A m i (.createSession row) →
    D.Kept m (m.after i (.createSession row) fun w =>
      { w with db := (w.db.createSession env.sqlEq row).2 })

end Grounds

section Lasting

variable {env : Env} {D : Discipline ι World Label} {A : Moment ι World Label → ι → Label → Prop}
variable {i : ι}

theorem cleared_lasting (id : Int) : D.Lasting (Cleared D id) := by
  rintro m m' h ⟨row, hrow, hid, hstatus⟩
  exact ⟨row, Discipline.past_lasting _ _ _ h hrow, hid, hstatus⟩

theorem identified_lasting (user : User) : D.Lasting (Identified env D user) := by
  rintro m m' h (hcleared | hcreated)
  · exact .inl (cleared_lasting _ _ _ h hcleared)
  · exact .inr (Discipline.past_lasting _ _ _ h hcreated)

theorem Fetched.suffix {id : String} {h : MFAChallengeHash} {p : PackedState}
    {m m' : Moment ι World Label} (hm : Fetched i id h p m) (hsuffix : m.trace <:+ m'.trace) :
    Fetched i id h p m' :=
  ⟨hm.hash.mono hsuffix fun _ _ h => h, hm.packed.mono hsuffix fun _ _ h => h⟩

theorem readChallenge_lasting (id : String) (challenge : MFAChallengeEntry) :
    D.Lasting (ReadChallenge D A i id challenge) := by
  rintro m m' h ⟨hash, packed, heq, hfetched, hhash, hpacked⟩
  exact ⟨hash, packed, heq, hfetched.suffix h.suffix, Discipline.past_lasting _ _ _ h hhash,
    Discipline.past_lasting _ _ _ h hpacked⟩

theorem grounds_lasting (call : Login) (user : User) (method : AuthnMethodType) :
    D.Lasting fun m => Grounds env D A i m call user method := by
  intro m m' h hm
  cases hm with
  | firstFactor hmethod huser => exact .firstFactor hmethod (identified_lasting _ _ _ h huser)
  | totp hread hholder huser hcredential hclock hcode =>
    exact .totp (readChallenge_lasting _ _ _ _ h hread) hholder
      (Discipline.past_lasting _ _ _ h huser) (Discipline.past_lasting _ _ _ h hcredential)
      (Discipline.past_lasting _ _ _ h hclock) hcode
  | passkey hread hmode hholder huser hstatus hcredentials hlogin =>
    exact .passkey (readChallenge_lasting _ _ _ _ h hread) hmode hholder
      (Discipline.past_lasting _ _ _ h huser) hstatus (Discipline.past_lasting _ _ _ h hcredentials)
      hlogin
  | push hread happroved hholder huser hstatus =>
    exact .push (readChallenge_lasting _ _ _ _ h hread) happroved hholder
      (Discipline.past_lasting _ _ _ h huser) hstatus

theorem labelled_lasting (user : User) (method : AuthnMethodType) (context : String × String) :
    D.Lasting (Labelled D user method context) := by
  rintro m m' h (heq | ⟨hmethod, hpast⟩)
  · exact .inl heq
  · exact .inr ⟨hmethod, Discipline.past_lasting _ _ _ h hpast⟩

end Lasting

/-! ## Sessions and challenges -/

section Programs

variable [DecidableEq ι] {env : Env} {D : Discipline ι World Label}
variable {A : Moment ι World Label → ι → Label → Prop} {i : ι} {call : Login}
variable {m : Moment ι World Label} {P : Moment ι World Label → Prop}

theorem lookupTOTP_wp (userID : Int) :
    Wp D A i (lookupTOTP userID).run (Gives fun r m' => ∀ credential, r = some credential →
      D.Past (fun m₀ => m₀.shared.db.findTOTP userID = some credential) m') m := by
  unfold lookupTOTP
  split
  · exact .ok (by rintro _ ⟨⟩)
  · exact wp_call gives_error fun m₁ _ hinv => ⟨.ok fun _ h => .now hinv h, gives_error⟩

theorem sessionContext_wp (user : User) (method : AuthnMethodType) :
    Wp D A i (sessionContext user method).run (Gives (Labelled D user method)) m := by
  unfold sessionContext
  split
  next hmethod =>
    refine .caught (lookupTOTP_wp user.id) fun r m' hr => ?_
    split
    next credential =>
      refine .ok (.inr ⟨hmethod, (hr _ rfl credential rfl).imp fun m₀ _ h => ?_⟩)
      rw [h]
      exact Option.some_ne_none _
    next => exact .ok (.inl rfl)
  next => exact .ok (.inl rfl)

variable {user : User} {method : AuthnMethodType} {sessionID : String} {now : Int}
variable {challenge : MFAChallengeEntry} {result : MethodResult} {challengeID username : String}
variable {prefetched : Option User} {draws : LoginDraws}

theorem createSession_wp (laws : Admission env D A i call)
    {ipAddress userAgent redirectURI returnTo : String} (hm : Grounds env D A i m call user method) :
    Wp D A i (createSession env sessionID user method ipAddress userAgent redirectURI returnTo
      now).run (Gives fun result _ => result.returnTo = returnTo ∧ result.redirectURI = redirectURI)
      m := by
  have hgrounds : D.Lasting fun m => Grounds env D A i m call user method :=
    grounds_lasting call user method
  refine .keep (sessionContext_wp user method) hgrounds hm fun context m₁ hlabelled hm₁ => ?_
  have hlasting := hgrounds.and (labelled_lasting user method context)
  refine .send (hlasting.stable i) ⟨hm₁, hlabelled⟩ fun m₂ hinv₂ hm₂ ha => ?_
  have hkept := laws.create _ hm₂.1 hm₂.2 rfl rfl rfl hinv₂ ha
  refine ⟨hkept.1, hkept.2, .require fun _ => ?_⟩
  exact .last (.call ⟨.saveSession _ _, fun _ => trivial⟩) (fun _ _ _ => laws.sundry)
    (D.lasting_const True) trivial fun _ m₃ _ => .ok ⟨rfl, rfl⟩

theorem completeMFA_wp (laws : Admission env D A i call)
    (hm : Grounds env D A i m call user .password) :
    Wp D A i (completeMFA env sessionID challenge user now).run (Gives fun result _ =>
      result.returnTo = challenge.returnTo ∧ result.redirectURI = challenge.redirectURI) m := by
  exact .last (.call ⟨.deleteMFAChallenge _, fun _ => trivial⟩) (fun _ _ _ => laws.sundry)
    (grounds_lasting call user .password) hm fun _ m₁ hm₁ => createSession_wp laws hm₁

def ReadsKept (D : Discipline ι World Label) (A : Moment ι World Label → ι → Label → Prop) (i : ι) :
    Prop :=
  ∀ m id l, l = .hmgetMFAChallenge id ∨ l = .bitfieldMFAChallenge id → D.inv m → A m i l →
    D.Kept m (m.after i l fun w => w)

omit [DecidableEq ι] in
theorem Admission.reads (laws : Admission env D A i call) : ReadsKept D A i := by
  rintro m id _ (rfl | rfl) hinv ha
  · exact laws.sundry (.hmgetMFAChallenge id) hinv ha
  · exact laws.sundry (.bitfieldMFAChallenge id) hinv ha

theorem getMFAChallenge_wp {ε : Type} {e : ε} (hreads : ReadsKept D A i) (id : String) :
    Wp D A i (Prog.call e (Repository.getMFAChallenge id)).run (Gives fun found m' =>
      ∀ challenge, found = some challenge → ReadChallenge D A i id challenge m') m := by
  refine wp_call gives_error (wp_getMFAChallenge fun m₁ hr₁ hinv₁ ha₁ => ?_)
  have hkept₁ := hreads m₁ id _ (.inl rfl) hinv₁ ha₁
  refine ⟨hkept₁.1, hkept₁.2, fun m₂ hr₂ hinv₂ ha₂ => ?_⟩
  have hkept₂ := hreads m₂ id _ (.inr rfl) hinv₂ ha₂
  have hlater : D.Later m₁ (m₂.after i (.bitfieldMFAChallenge id) fun w => w) :=
    (Discipline.Later.after hkept₁.2).trans
      (.trans ⟨hr₂.mono, hr₂.suffix⟩ (Discipline.Later.after hkept₂.2))
  refine ⟨hkept₂.1, hkept₂.2, .ok fun challenge hchallenge => ?_, gives_error⟩
  obtain ⟨h, hh, rfl⟩ := Option.map_eq_some_iff.mp hchallenge
  have hhash : (m₁.after i (.hmgetMFAChallenge id) fun w => w).Did i fun l w =>
      l = .hmgetMFAChallenge id ∧ w.mfa.hmget w.now id = some h :=
    Moment.did_after.mpr (.inl ⟨rfl, rfl, hh⟩)
  have hfetched : Fetched i id h (m₂.shared.mfa.bitfield m₂.shared.now id)
      (m₂.after i (.bitfieldMFAChallenge id) fun w => w) :=
    ⟨hhash.mono (hr₂.suffix.trans (List.suffix_cons _ _)) fun _ _ h => h,
      Moment.did_after.mpr (.inl ⟨rfl, rfl, rfl⟩)⟩
  exact ⟨h, _, rfl, hfetched, ⟨m₁, hinv₁, ⟨ha₁, hh⟩, hlater⟩,
    ⟨m₂, hinv₂, rfl, Discipline.Later.after hkept₂.2⟩⟩

theorem liveChallenge_wp (hreads : ReadsKept D A i) (id : String) (now : Int) :
    Wp D A i (liveChallenge id now).run (Gives fun challenge => ReadChallenge D A i id challenge) m := by
  refine .bind (getMFAChallenge_wp hreads id) fun found m₁ hm₁ => ?_
  exact .found fun challenge hchallenge => .require fun _ => .ok (hm₁ challenge hchallenge)

/-! ## Completions -/

omit [DecidableEq ι] in
theorem ReadChallenge.resumes {id : String} (h : ReadChallenge D A i id challenge m)
    {result : AuthenticateResult}
    (hresult : result.returnTo = challenge.returnTo ∧ result.redirectURI = challenge.redirectURI) :
    Resumes D result := by
  obtain ⟨h, p, rfl, -, ⟨m₀, hinv, ⟨-, hhash⟩, -⟩, -⟩ := h
  exact ⟨m₀, id, h, hinv, hhash, hresult⟩

theorem verifyTOTP_wp {code : String}
    (laws : Admission env D A i (.verifyTOTP sessionID challengeID code)) :
    Wp D A i (Authn.verifyTOTP env sessionID challengeID code).run (Gives fun result _ => Resumes D result) m := by
  refine .clock fun m₁ hinv₁ => ?_
  have hclock := Discipline.past_lasting (D := D) fun m => m.shared.now = m₁.shared.now
  refine .keep (liveChallenge_wp laws.reads _ _) hclock (.now hinv₁ rfl) fun challenge m₂ hread₂ hclock₂ => ?_
  have hread := hclock.and
    (readChallenge_lasting (A := A) (i := i) (trimSpace challengeID) challenge)
  refine .found fun userID huserID => ?_
  refine .ask (hread.stable i) ⟨hclock₂, hread₂⟩ fun m₃ hinv₃ hm₃ => ?_
  refine .found fun user huser => ?_
  have hid := Database.findUser_id huser
  have hseen : Seen D user m₃ := .now hinv₃ (List.mem_of_find?_eq_some huser)
  have hlasting := hread.and (Discipline.past_lasting fun m => user ∈ m.shared.db.users)
  refine .keep (lookupTOTP_wp user.id) hlasting ⟨hm₃, hseen⟩ fun found m₄ hpast hm₄ => ?_
  refine .found fun credential hcredential => .found fun step hstep => ?_
  obtain ⟨⟨hclock₄, hread₄⟩, hseen₄⟩ := hm₄
  have hgrounds : Grounds env D A i m₄ (.verifyTOTP sessionID challengeID code) user .password :=
    .totp hread₄ (huserID.trans (by rw [hid])) hseen₄ (hpast credential hcredential) hclock₄ hstep
  refine .last (.call ⟨.reserveTOTPStepUse _ _ _ _, fun _ => trivial⟩)
    (fun _ _ _ => laws.sundry) (grounds_lasting _ _ _) hgrounds fun reserved m₅ hm₅ => .require fun _ => ?_
  refine .bind (completeMFA_wp laws hm₅) fun result m₆ hresult => ?_
  split
  · exact .skip (lookupPasskeyCredentialJSON_silent _) fun _ _ => .ok (hread₄.resumes hresult)
  · exact .ok (hread₄.resumes hresult)

theorem updatePasskey_acts (user : User) (credentialID credentialJSON : String) (now : Int) :
    (updatePasskey env user credentialID credentialJSON now).run.Acts (Sundry env) :=
  .whenever (.attempt ⟨.upsertPasskey _, fun _ => trivial⟩)

theorem lookupPasskeyCredentialJSON_wp (userID : Int) :
    Wp D A i (lookupPasskeyCredentialJSON userID).run
      (Gives fun texts m' => texts ≠ [] → ∃ credentials, texts = credentialTexts credentials ∧
        D.Past (fun m₀ => m₀.shared.db.listPasskeys userID = credentials) m') m := by
  unfold lookupPasskeyCredentialJSON
  split
  · exact .ok fun h => absurd rfl h
  · exact .read fun m₁ hinv => .ok fun _ => ⟨_, rfl, .now hinv rfl⟩

theorem verifyMFAPasskey_wp {responseJSON : String}
    (laws : Admission env D A i (.verifyMFAPasskey sessionID challengeID responseJSON)) :
    Wp D A i (Authn.verifyMFAPasskey env sessionID challengeID responseJSON).run
      (Gives fun result _ => Resumes D result) m := by
  refine .require fun _ => .clock fun m₁ _ => ?_
  refine .bind (liveChallenge_wp laws.reads _ _) fun challenge m₂ hm₂ => ?_
  have hread := readChallenge_lasting (D := D) (A := A) (i := i) (trimSpace challengeID) challenge
  refine .require fun hmode => .require fun _ => .found fun userID huserID => ?_
  refine .ask (hread.stable i) hm₂ fun m₃ hinv₃ hm₃ => ?_
  refine .found fun user huser => ?_
  have hid := Database.findUser_id huser
  have hseen : Seen D user m₃ := .now hinv₃ (List.mem_of_find?_eq_some huser)
  have hlasting := hread.and (Discipline.past_lasting fun m => user ∈ m.shared.db.users)
  refine .require fun hstatus => ?_
  refine .keep (lookupPasskeyCredentialJSON_wp user.id) hlasting ⟨hm₃, hseen⟩ fun texts m₄ hpast hm₄ => ?_
  refine .require fun hsome => .found fun login hlogin => ?_
  obtain ⟨hread₄, hseen₄⟩ := hm₄
  obtain ⟨credentials, rfl, hcredentials⟩ := hpast hsome
  have hgrounds : Grounds env D A i m₄ (.verifyMFAPasskey sessionID challengeID responseJSON) user
      .password :=
    .passkey hread₄ hmode (huserID.trans (by rw [hid])) hseen₄ hstatus hcredentials hlogin
  exact .last (updatePasskey_acts _ _ _ _) (fun _ _ _ => laws.sundry) (grounds_lasting _ _ _) hgrounds
    fun _ m₅ hm₅ => (completeMFA_wp laws hm₅).imp fun _ _ hr result hresult => hread₄.resumes (hr result hresult)

theorem finalizeMFAPush_wp (laws : Admission env D A i (.finalizeMFAPush sessionID challengeID)) :
    Wp D A i (Authn.finalizeMFAPush env sessionID challengeID).run (Gives fun result _ => Resumes D result) m := by
  refine .clock fun m₁ _ => ?_
  refine .bind (liveChallenge_wp laws.reads _ _) fun challenge m₂ hm₂ => ?_
  have hread := readChallenge_lasting (D := D) (A := A) (i := i) (trimSpace challengeID) challenge
  refine .require fun _ => .require fun happroved => .found fun userID huserID => ?_
  refine .ask (hread.stable i) hm₂ fun m₃ hinv₃ hm₃ => ?_
  refine .found fun user huser => .require fun hstatus => ?_
  refine (completeMFA_wp laws (.push hm₃ happroved
    (huserID.trans (by rw [Database.findUser_id huser])) (.now hinv₃ (List.mem_of_find?_eq_some huser))
    hstatus)).imp fun _ _ hr result hresult => ?_
  exact hm₃.resumes (hr result hresult)

/-! ## The first factor -/

theorem lookupUserByUsername_wp (env : Env) (username : String) :
    Wp D A i (lookupUserByUsername env username).run
      (Gives fun found m' => ∀ user, found = some user → Seen D user m') m := by
  unfold lookupUserByUsername
  split
  · exact .ok (by rintro _ ⟨⟩)
  · refine wp_call gives_error fun m₁ hr hinv => ⟨.ok fun user h => ?_, gives_error⟩
    exact .now hinv (List.mem_of_find?_eq_some h)

theorem checkIPLock_silent (ipAddress : String) : (checkIPLock ipAddress).run.Silent := by
  unfold checkIPLock
  split
  · trivial
  · exact .ask fun _ => .require

theorem preparePasswordAuthentication_wp (username ipAddress : String) :
    Wp D A i (preparePasswordAuthentication env username ipAddress).run
      (Gives fun found m' => ∀ user, found = some user → Seen D user m') m := by
  refine .skip (checkIPLock_silent _) fun _ m₁ => ?_
  refine .bind (lookupUserByUsername_wp env username) fun found m₂ hm₂ => ?_
  cases found with
  | none => exact .ok (by rintro _ ⟨⟩)
  | some user =>
    have hseen := Discipline.past_lasting (D := D) fun m => user ∈ m.shared.db.users
    refine .ask (hseen.stable i) (hm₂ user rfl) fun m₃ _ hm₃ => .require fun _ => ?_
    rintro _ ⟨⟩ _ ⟨⟩
    exact hm₃

theorem passwordUser_wp (hm : ∀ user, prefetched = some user → Seen D user m) :
    Wp D A i (passwordUser env username prefetched).run
      (Gives fun found m' => ∀ user, found = some user → Seen D user m') m := by
  cases prefetched with
  | some user => exact .ok hm
  | none =>
    refine wp_call gives_error fun m₁ hr hinv => ⟨.ok fun user h => ?_, gives_error⟩
    exact .now hinv (List.mem_of_find?_eq_some h)

theorem passwordMethod_wp (laws : Admission env D A i call) {password : String}
    (hm : ∀ user, prefetched = some user → Seen D user m) :
    Wp D A i (passwordMethod env username password prefetched).run
      (Gives fun result m' => Cleared D result.userID m') m := by
  refine .require fun _ => ?_
  refine .bind (passwordUser_wp hm) fun found m₁ hm₁ => ?_
  refine .found fun user huser => ?_
  refine .require fun _ => .require fun hstatus => ?_
  exact .last (.lift ⟨.verifyPassword _, fun _ => trivial⟩) (fun _ _ _ => laws.sundry)
    (cleared_lasting user.id) ⟨user, hm₁ user huser, rfl, hstatus⟩ fun valid m₂ hm₂ => .require fun _ => .ok hm₂

inductive Aftermath : Label → (World → World) → Prop
  | countIP (ip : String) (counterTTL threshold lockTTL : Int) :
      Aftermath (.incrementLoginFailByIP ip) fun w => { w with
        limits := (w.limits.incrementLoginFailByIP w.now ip counterTTL threshold lockTTL).2 }
  | countBlacklist (username userID : String) (threshold : Int) :
      Aftermath (.incrementBlacklistByUser username userID) fun w => { w with
        limits := (w.limits.incrementBlacklistByUser w.now username userID threshold).2 }
  | lockAccount (userID : Int) :
      Aftermath (.lockAccount userID) fun w => { w with db := w.db.lockAccount userID }
  | clearUserLock (userID : String) :
      Aftermath (.clearUserLock userID) fun w =>
        { w with limits := { w.limits with userLock := w.limits.userLock.del userID } }

theorem Aftermath.sundry {l : Label} {f : World → World} (h : Aftermath l f) : Sundry env l f := by
  cases h with
  | lockAccount userID => exact .lockAccount userID
  | countIP => exact .limit _ rfl _
  | countBlacklist => exact .limit _ rfl _
  | clearUserLock => exact .limit _ rfl _

theorem afterCount_acts (env : Env) (username ipAddress : String) (user : Option User)
    (locked : Bool) :
    (match locked with
      | true => pure .userLocked
      | false => do
        match ← countIPFailure env (trimSpace ipAddress) with
        | true => return .rateLimited
        | false =>
          match ← countBlacklist env (trimSpace username) (accountID user) with
          | true => lockForGood user
          | false => return .invalidCredentials : Service AuthnError AuthnError).run.Acts
      Aftermath := by
  cases locked with
  | true => trivial
  | false =>
    refine .bind_except ?_ fun limited => ?_
    · exact .provided (.bind_except (.call ⟨.countIP _ _ _ _, fun _ => trivial⟩) fun _ => trivial)
    cases limited with
    | true => trivial
    | false =>
      refine .bind_except ?_ fun listed => ?_
      · exact .provided (.bind_except (.call ⟨.countBlacklist _ _ _, fun _ => trivial⟩)
          fun _ => trivial)
      cases listed with
      | false => trivial
      | true =>
        cases user with
        | none => trivial
        | some u =>
          refine .bind_except (.lift (.call ⟨.lockAccount _, fun _ => trivial⟩)) fun r => ?_
          cases r with
          | ok _ => trivial
          | error e =>
            exact .bind_except (.attempt ⟨.clearUserLock _, fun _ => trivial⟩) fun _ => trivial

theorem registerPasswordFailure_acts (username ipAddress : String) (user : Option User) :
    (registerPasswordFailure env username ipAddress user).run.Acts (Sundry env) := by
  refine .bind_except ?_ fun locked => ?_
  · exact .provided (.bind_except (.call ⟨.limit _ rfl _, fun _ => trivial⟩) fun _ => trivial)
  · exact (afterCount_acts env username ipAddress user locked).imp fun _ _ h => h.sundry

theorem passwordFactor_wp (laws : Admission env D A i call) (input : AuthenticateInput) :
    Wp D A i (passwordFactor env input).run
      (Gives fun result m' => Cleared D result.userID m') m := by
  refine .bind (preparePasswordAuthentication_wp _ _) fun prefetched m₁ hm₁ => ?_
  refine .caught (passwordMethod_wp laws hm₁) fun r m₂ hr => ?_
  split
  next result => exact .ok (hr result rfl)
  next =>
    exact .last (registerPasswordFailure_acts _ _ _) (fun _ _ _ => laws.sundry) (D.lasting_const True) trivial
      fun _ _ _ => gives_error
  next => exact gives_error

/-! ## The account -/

def Vouched (D : Discipline ι World Label) (result : MethodResult) (m : Moment ι World Label) : Prop :=
  0 < result.userID → Cleared D result.userID m

omit [DecidableEq ι] in
theorem vouched_lasting (result : MethodResult) : D.Lasting (Vouched D result) :=
  fun _ _ h hm hid => cleared_lasting _ _ _ h (hm hid)

/-- The account that was found, if any, is identified once its status is known to be in order. -/
def Found (env : Env) (D : Discipline ι World Label) (found : Option User)
    (m : Moment ι World Label) : Prop :=
  ∀ user, found = some user → Admissible user.status → Identified env D user m

theorem findUser_wp (env : Env) {g : World → Option User} (hg : ∀ w user, g w = some user → user ∈ w.db.users) :
    Wp D A i (Prog.call AuthnError.store (Prog.read g)).run (Gives (Found env D)) m := by
  refine wp_call gives_error fun m₁ hr hinv => ⟨.ok fun user huser hstatus => .inl ?_, gives_error⟩
  exact ⟨user, .now hinv (hg _ _ huser), rfl, hstatus⟩

theorem findBySubject_wp (env : Env) (result : MethodResult) :
    Wp D A i (findBySubject env result).run (Gives (Found env D)) m := by
  unfold findBySubject
  split
  · exact .ok (by rintro _ ⟨⟩)
  · refine .bind (findUser_wp env fun _ _ => List.mem_of_find?_eq_some) fun found m₁ hm₁ => ?_
    cases found with
    | some user => exact .ok hm₁
    | none =>
      exact wp_provided (fun _ => .ok hm₁) fun _ => findUser_wp env fun _ _ => List.mem_of_find?_eq_some

theorem findByEmail_wp (result : MethodResult) :
    Wp D A i (findByEmail env result).run (Gives (Found env D)) m :=
  wp_provided (fun _ => .ok (by rintro _ ⟨⟩)) fun _ => findUser_wp env fun _ _ => List.mem_of_find?_eq_some

theorem resolveExistingUser_wp (hm : Vouched D result m) :
    Wp D A i (resolveExistingUser env result).run (Gives (Found env D)) m := by
  unfold resolveExistingUser
  split
  next hid =>
    refine .ok ?_
    rintro _ ⟨⟩ _
    exact .inl (hm hid)
  next =>
    refine .bind (findBySubject_wp env result) fun found m₁ hm₁ => ?_
    cases found with
    | some user => exact .ok hm₁
    | none =>
      refine .bind (lookupUserByUsername_wp env result.username) fun found m₂ hm₂ => ?_
      cases found with
      | some user =>
        refine .ok ?_
        rintro _ ⟨⟩ hstatus
        exact .inl ⟨user, hm₂ user rfl, rfl, hstatus⟩
      | none => exact findByEmail_wp result

theorem firstFree_silent (candidates : List String) : (firstFree env candidates).run.Silent := by
  induction candidates with
  | nil => trivial
  | cons candidate rest ih =>
    refine .ask fun found => ?_
    cases found with
    | none => trivial
    | some _ => exact ih

theorem recoverFederatedUser_wp (hm : Vouched D result m) :
    Wp D A i (recoverFederatedUser env result).run (Gives (Found env D)) m := by
  refine .caught (resolveExistingUser_wp hm) fun r m' hr => ?_
  split
  next user => exact .ok (hr (some user) rfl)
  next => exact gives_error

theorem provisionFederatedUser_wp (laws : Admission env D A i call) (hm : Vouched D result m) :
    Wp D A i (provisionFederatedUser env draws result).run (Gives (Found env D)) m := by
  have hvouched := vouched_lasting (D := D) result
  unfold provisionFederatedUser
  split
  · exact .ok (by rintro _ ⟨⟩)
  next subject _ =>
    refine .silent (firstFree_silent _) (hvouched.stable i) hm fun username m₁ hm₁ => ?_
    refine wp_bind_except.mpr (wp_lift.mpr (wp_call (recoverFederatedUser_wp hm₁) fun m₂ hr hinv ha => ?_))
    have hkept := laws.sundry (.createUser _) hinv ha
    have hm₂ := hkept.lasting hvouched (hvouched.stable i _ _ hr hinv hm₁)
    refine ⟨hkept.1, hkept.2, ?_, recoverFederatedUser_wp hm₂⟩
    dsimp only
    split
    next user huser =>
      rintro _ ⟨⟩ _ ⟨⟩ _
      have hcreated : Created env D user m₂ := .now hinv ⟨_, Except.ok.inj huser⟩
      exact .inr (hkept.lasting (Discipline.past_lasting _) hcreated)
    next => exact recoverFederatedUser_wp hm₂

theorem resolveUser_wp (laws : Admission env D A i call) (hm : Vouched D result m) :
    Wp D A i (resolveUser env draws method result).run (Gives (Found env D)) m := by
  refine .keep (resolveExistingUser_wp hm) (vouched_lasting result) hm fun found m₁ hfound hm₁ => ?_
  split
  next => exact provisionFederatedUser_wp laws hm₁
  next => exact .ok hfound

/-! ## The login -/

theorem resetPasswordRateLimit_acts (username ipAddress : String) :
    (resetPasswordRateLimit username ipAddress).run.Acts (Sundry env) := by
  have hlimit : ∀ {l : Label} (hl : isLimit l = true) (g : World → RateLimitCache),
      (Prog.update l fun w => { w with limits := g w } : Action Unit).Acts (Sundry env) :=
    fun hl g => ⟨.limit _ hl g, fun _ => trivial⟩
  refine .bind_except ?_ fun _ => ?_
  · unfold resetUserLimits
    split
    · trivial
    · exact .bind_except (.call (hlimit rfl _)) fun _ => .call (hlimit rfl _)
  · unfold resetIPLimits
    split
    · trivial
    · exact .bind_except (.call (hlimit rfl _)) fun _ => .call (hlimit rfl _)

section Authenticate

variable {draws : LoginDraws} {answer : Except AuthnError ConnectorResult}
variable {input : AuthenticateInput}

variable {user : User} {redirectURI : String}

theorem createMFAChallenge_wp (laws : Admission env D A i (.authenticate draws answer input))
    {pushCode ipAddress userAgent : String} :
    Wp D A i (createMFAChallenge env draws.challengeID pushCode user ipAddress userAgent input.returnTo
      input.redirectURI).run (Gives fun ids _ => ids.1 = draws.challengeID) m := by
  refine .clock fun m₁ _ => .send stable_true trivial fun m₂ hinv₂ _ ha => ?_
  have hkept := laws.save (.fresh rfl rfl rfl rfl) hinv₂ ha
  refine ⟨hkept.1, hkept.2, ?_⟩
  split
  next => exact .ok rfl
  next => exact .throw

theorem updateMFAChallengeMode_wp (laws : Admission env D A i (.authenticate draws answer input))
    (mode : String) :
    Wp D A i (updateMFAChallengeMode draws.challengeID mode).run (fun _ _ => True) m := by
  refine .require fun _ => .clock fun m₁ _ => ?_
  refine .bind (liveChallenge_wp laws.reads _ _) fun challenge m₂ hm₂ => ?_
  refine .send ((readChallenge_lasting _ challenge).stable i) hm₂ fun m₃ hinv₃ hm₃ ha => ?_
  have hkept := laws.save (.moded _ hm₃) hinv₃ ha
  refine ⟨hkept.1, hkept.2, ?_⟩
  split <;> trivial

theorem challengeLogin_wp (laws : Admission env D A i (.authenticate draws answer input))
    (user : User) (redirectURI : String) (passkeyAvailable : Bool) :
    Wp D A i (challengeLogin env draws input user redirectURI passkeyAvailable).run (fun _ _ => True) m := by
  refine .bind (createMFAChallenge_wp laws) fun ids m₁ hids => ?_
  obtain ⟨challengeID, pushCode⟩ := ids
  obtain rfl : challengeID = draws.challengeID := hids
  refine wp_bind_except.mpr ((updateMFAChallengeMode_wp laws _).imp fun r m₂ _ => ?_)
  cases r <;> trivial

theorem afterPassword_wp (laws : Admission env D A i (.authenticate draws answer input)) {now : Int}
    (hmethod : resolveMethodType input = some .password) (hm : Identified env D user m) :
    Wp D A i (afterPassword env draws input user redirectURI now).run (fun _ _ => True) m := by
  have hidentified : D.Lasting (Identified env D user) := identified_lasting user
  refine .last (resetPasswordRateLimit_acts _ _) (fun _ _ _ => laws.sundry) hidentified hm fun _ m₁ hm₁ => ?_
  refine .silent (lookupTOTP_silent _) (hidentified.stable i) hm₁ fun credential m₂ hm₂ => ?_
  refine .silent (lookupPasskeyCredentialJSON_silent _) (hidentified.stable i) hm₂ fun credentials m₃ hm₃ => ?_
  dsimp only
  split
  · exact challengeLogin_wp laws _ _ _
  · refine .bind (createSession_wp laws (.firstFactor hmethod hm₃)) fun result m₄ _ => ?_
    split <;> trivial

theorem enter_wp (laws : Admission env D A i (.authenticate draws answer input))
    {method : AuthnMethodType} (hmethod : resolveMethodType input = some method)
    (hm : Admissible user.status → Identified env D user m) :
    Wp D A i (enter env draws input method user redirectURI).run (fun _ _ => True) m := by
  refine .require fun _ => .require fun hstatus => ?_
  refine wp_clock ((identified_lasting user).stable i) (hm hstatus) fun m₁ _ hm₁ => ?_
  cases method with
  | password => exact afterPassword_wp laws hmethod hm₁
  | federatedOIDC => exact .bind (createSession_wp laws (.firstFactor hmethod hm₁)) fun _ _ _ => trivial

theorem firstFactor_wp (laws : Admission env D A i call) (method : AuthnMethodType) :
    Wp D A i (firstFactor env answer input method).run
      (Gives fun result m' => Vouched D result m') m := by
  cases method with
  | password => exact (passwordFactor_wp laws input).imp fun r m' hr a ha _ => hr a ha
  | federatedOIDC =>
    cases answer with
    | error e => exact gives_error
    | ok result =>
      rintro _ ⟨⟩ hid
      exact absurd hid (Int.lt_irrefl 0)

theorem authenticate_wp (laws : Admission env D A i (.authenticate draws answer input)) :
    Wp D A i (Authn.authenticate env draws answer input).run (fun _ _ => True) m := by
  refine .found fun method hmethod => ?_
  refine .bind (firstFactor_wp laws method) fun result m₁ hm₁ => ?_
  split
  · trivial
  · refine .require fun _ => .bind (resolveUser_wp laws hm₁) fun found m₂ hm₂ => ?_
    exact .found fun user huser => enter_wp laws hmethod fun hstatus => hm₂ user huser hstatus

end Authenticate

/-- **Every session of a login has grounds.** A law that can accept sessions on grounds, and the other
commands of the login, is kept by the login. -/
theorem login_wp (laws : Admission env D A i call) :
    Wp D A i (call.code env) (fun _ _ => True) m := by
  cases call with
  | authenticate draws answer input =>
    exact wp_bind.mpr ((authenticate_wp laws).imp fun _ _ _ => trivial)
  | verifyTOTP sessionID challengeID code =>
    exact wp_bind.mpr ((verifyTOTP_wp laws).imp fun _ _ _ => trivial)
  | verifyMFAPasskey sessionID challengeID responseJSON =>
    exact wp_bind.mpr ((verifyMFAPasskey_wp laws).imp fun _ _ _ => trivial)
  | finalizeMFAPush sessionID challengeID =>
    exact wp_bind.mpr ((finalizeMFAPush_wp laws).imp fun _ _ _ => trivial)

end Programs

end IdpServer.Laws.Authn
