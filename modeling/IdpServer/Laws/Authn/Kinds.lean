import IdpServer.Laws.Authn.Grounds
import IdpServer.Laws.Enrolment.Commands

/-!
# Laws.Authn.Kinds — registrations and logins in one key space

A passkey registration waits in the keys of a login, told apart by its mode, and **`VerifyTOTP` does not look
at it** (`registrationLogsIn`). `kindsApart` is the law when no `VerifyTOTP` reads one.
-/

namespace IdpServer.Laws.Authn

open Conc IdpServer.Cache Store Go IdpServer.Authn
open IdpServer.Enrolment (passkeySetupMFAMode)
open Laws.Enrolment
open Laws.Session (succeeds wp_succeeds)

variable {ι : Type}

/-! ## Operations -/

inductive Operation where
  | login (call : Login)
  | pollMFAChallenge (challengeID : String)
  | beginMFAPasskey (challengeID : String)
  | decideMFAPush (challengeID approverSessionID action matchCode : String)
  | beginTOTPSetup (secret sessionID : String)
  | confirmTOTPSetup (challengeID sessionID code returnTo : String)
  | beginLoginChallenge (challengeID sessionID returnTo : String)
  | beginPasskeySetup (setupID sessionID : String)
  | finishPasskeySetup (sessionID setupID responseJSON : String)

namespace Operation

def code (env : Env) : Operation → Action Bool
  | login call => call.code env
  | pollMFAChallenge challengeID => succeeds (Authn.pollMFAChallenge challengeID)
  | beginMFAPasskey challengeID => succeeds (Authn.beginMFAPasskey env challengeID)
  | decideMFAPush challengeID approverSessionID action matchCode =>
      succeeds (Authn.decideMFAPush env challengeID approverSessionID action matchCode)
  | beginTOTPSetup secret sessionID => succeeds (Enrolment.beginTOTPSetup env secret sessionID)
  | confirmTOTPSetup challengeID sessionID code returnTo =>
      succeeds (Enrolment.confirmTOTPSetup env challengeID sessionID code returnTo)
  | beginLoginChallenge challengeID sessionID returnTo =>
      succeeds (Enrolment.beginLoginChallenge env challengeID sessionID returnTo)
  | beginPasskeySetup setupID sessionID =>
      succeeds (Enrolment.beginPasskeySetup env setupID sessionID)
  | finishPasskeySetup sessionID setupID responseJSON =>
      succeeds (Enrolment.finishPasskeySetup env sessionID setupID responseJSON)

def setup : Operation → Option String
  | beginPasskeySetup setupID _ => some setupID
  | _ => none

def challenge : Operation → Option String
  | login (.authenticate draws _ _) => some draws.challengeID
  | confirmTOTPSetup challengeID _ _ _ | beginLoginChallenge challengeID _ _ => some challengeID
  | _ => none

def completes : Operation → Option String
  | login (.verifyTOTP _ challengeID _) | login (.verifyMFAPasskey _ challengeID _)
  | login (.finalizeMFAPush _ challengeID) => some (trimSpace challengeID)
  | _ => none

def finishes : Operation → Option String
  | finishPasskeySetup _ setupID _ => some (trimSpace setupID)
  | _ => none

def isTOTP : Operation → Bool
  | login (.verifyTOTP _ _ _) => true
  | _ => false

end Operation

def SetupID (ops : ι → Operation) (id : String) : Prop := ∃ i, (ops i).setup = some id

def LoginID (ops : ι → Operation) (id : String) : Prop := ∃ i, (ops i).challenge = some id

/-- What is known of drawn ids: no two kinds share one, and there is no blank around them. -/
structure FreshIDs (ops : ι → Operation) : Prop where
  apart : ∀ id, SetupID ops id → ¬ LoginID ops id
  trimmed : ∀ id, LoginID ops id → trimSpace id = id

/-- **The condition**: `VerifyTOTP` reads no registration. -/
def NoSetupCode (ops : ι → Operation) (m : Moment ι World Label) (i : ι) : Label → Prop
  | .hmgetMFAChallenge id => (ops i).isTOTP = true →
      ∀ h ∈ m.shared.mfa.hmget m.shared.now id, h.mfaMode ≠ passkeySetupMFAMode
  | _ => True

instance (ops : ι → Operation) (m : Moment ι World Label) (i : ι) (l : Label) :
    Decidable (NoSetupCode ops m i l) := by
  induction l using Label.casesOn <;> dsimp only [NoSetupCode] <;> infer_instance

/-! ## Kinds of records -/

/-- The record is of the kind its id was drawn for: a registration is undecided and says that it is
one, and a login is of one of the modes of logins. -/
structure OfKind (ops : ι → Operation) (id : String) (r : MFAChallengeFields) : Prop where
  named : r.challengeID = id
  setup : SetupID ops id → r.mfaMode = passkeySetupMFAMode ∧ r.pushStatus = PushStatus.pending.text
  login : LoginID ops id → ∃ mode : MFAMode, r.mfaMode = mode.text

def Sorted (ops : ι → Operation) (w : World) : Prop :=
  ∀ id h, w.mfa.hmget w.now id = some h → OfKind ops id h.toMFAChallengeFields

theorem storedMode_setup : storedMode passkeySetupMFAMode = passkeySetupMFAMode := by decide +kernel

theorem storedMode_text (mode : MFAMode) : storedMode mode.text = mode.text := by
  cases mode <;> decide +kernel

theorem storedMode_blank : storedMode "" = MFAMode.totpOnly.text := by decide +kernel

theorem savedFields_mfaMode (e : MFAChallengeEntry) : e.savedFields.mfaMode = storedMode e.mfaMode :=
  mfaModeFromStateMask_normalized _ _ _ _

theorem savedFields_pushStatus (e : MFAChallengeEntry) :
    e.savedFields.pushStatus = (normalizeMFAPushStatus e.pushStatus).text :=
  congrArg PushStatus.text (mfaPushStatusFromStateMask_normalized _ _ _ _)

theorem mfaChallengeEntry_mfaMode (h : MFAChallengeHash) (p : PackedState) :
    (mfaChallengeEntry h p).mfaMode = storedMode h.mfaMode :=
  mfaModeFromStateMask_normalized _ _ _ _

theorem mfaChallengeEntry_pushStatus (h : MFAChallengeHash) (p : PackedState) :
    (mfaChallengeEntry h p).pushStatus = (normalizeMFAPushStatus h.pushStatus).text :=
  congrArg PushStatus.text (mfaPushStatusFromStateMask_normalized _ _ _ _)

section Records

variable {ops : ι → Operation} {id : String}

theorem OfKind.read {h : MFAChallengeHash} (hkind : OfKind ops id h.toMFAChallengeFields)
    (p : PackedState) : OfKind ops id (mfaChallengeEntry h p).toMFAChallengeFields := by
  refine ⟨hkind.named, fun hid => ?_, fun hid => ?_⟩
  · obtain ⟨hmode, hstatus⟩ := hkind.setup hid
    rw [mfaChallengeEntry_mfaMode, mfaChallengeEntry_pushStatus, hmode, hstatus, storedMode_setup]
    exact ⟨rfl, by decide +kernel⟩
  · obtain ⟨mode, hmode⟩ := hkind.login hid
    exact ⟨mode, by rw [mfaChallengeEntry_mfaMode, hmode, storedMode_text]⟩

variable {e : MFAChallengeEntry} {r : MFAChallengeFields}

theorem ofKind_saved (hsetup : SetupID ops e.challengeID →
      e.mfaMode = passkeySetupMFAMode ∧ normalizeMFAPushStatus e.pushStatus = .pending)
    (hlogin : LoginID ops e.challengeID → e.mfaMode = "" ∨ ∃ mode : MFAMode, e.mfaMode = mode.text) :
    OfKind ops e.challengeID e.savedFields := by
  refine ⟨rfl, fun hid => ?_, fun hid => ?_⟩
  · obtain ⟨hmode, hstatus⟩ := hsetup hid
    rw [savedFields_mfaMode, savedFields_pushStatus, hmode, hstatus, storedMode_setup]
    exact ⟨rfl, rfl⟩
  · rw [savedFields_mfaMode]
    rcases hlogin hid with hmode | ⟨mode, hmode⟩
    · exact ⟨.totpOnly, by rw [hmode, storedMode_blank]⟩
    · exact ⟨mode, by rw [hmode, storedMode_text]⟩

theorem ofKind_loginChallenge (hfresh : FreshIDs ops) (hid : LoginID ops id)
    (he : LoginChallenge id e) : OfKind ops e.challengeID e.savedFields := by
  obtain ⟨rfl, hmode, -⟩ := he
  exact ofKind_saved (fun hsetup => absurd hid (hfresh.apart _ hsetup)) fun _ => .inl hmode

theorem ofKind_passkeySetup (hfresh : FreshIDs ops) (hid : SetupID ops id) (he : PasskeySetup id e) :
    OfKind ops e.challengeID e.savedFields := by
  obtain ⟨rfl, hmode, hstatus⟩ := he
  refine ofKind_saved (fun _ => ⟨hmode, ?_⟩) fun hlogin => absurd hlogin (hfresh.apart _ hid)
  rw [hstatus]
  decide +kernel

theorem OfKind.not_setup_of_mode (h : OfKind ops id r)
    (hmode : IdpServer.Authn.normalizeMFAMode r.mfaMode ≠ .totpOnly) : ¬ SetupID ops id := by
  intro hid
  rw [(h.setup hid).1] at hmode
  exact hmode (by decide +kernel)

theorem OfKind.not_setup_of_approved (h : OfKind ops id r)
    (hstatus : normalizePushStatus r.pushStatus = .approved) : ¬ SetupID ops id := by
  intro hid
  rw [(h.setup hid).2] at hstatus
  exact absurd hstatus (by decide +kernel)

theorem OfKind.not_login_of_mode (h : OfKind ops id r)
    (hmode : equalFold (trimSpace r.mfaMode) passkeySetupMFAMode = true) : ¬ LoginID ops id := by
  intro hid
  obtain ⟨mode, htext⟩ := h.login hid
  rw [htext] at hmode
  revert hmode
  cases mode <;> decide +kernel

end Records

/-! ## The discipline -/

/-- The records are of their kinds, and so are those that were turned into something. -/
structure Apart (ops : ι → Operation) (m : Moment ι World Label) : Prop where
  sorted : Sorted ops m.shared
  sessions : ∀ x ∈ m.trace, ∀ s, x.label = .createSession s →
    ∀ id ∈ (ops x.pid).completes, ¬ SetupID ops id
  passkeys : ∀ x ∈ m.trace, ∀ p, x.label = .upsertPasskey p →
    ∀ id ∈ (ops x.pid).finishes, ¬ LoginID ops id

def sorting (ops : ι → Operation) : Discipline ι World Label where
  inv := Apart ops
  mono _ _ := True
  mono_refl _ := trivial
  mono_trans _ _ := trivial

def RecordsFade (w w' : World) : Prop :=
  ∀ id h, w'.mfa.hmget w'.now id = some h → w.mfa.hmget w.now id = some h

section Discipline

variable {env : Env} {ops : ι → Operation} {m : Moment ι World Label} {i : ι} {l : Label}
variable {f : World → World}

theorem Apart.step (h : Apart ops m) (hsorted : Sorted ops (f m.shared))
    (hl : ∀ s, l = .createSession s → ∀ id ∈ (ops i).completes, ¬ SetupID ops id)
    (hp : ∀ p, l = .upsertPasskey p → ∀ id ∈ (ops i).finishes, ¬ LoginID ops id) :
    (sorting ops).Kept m (m.after i l f) := by
  refine ⟨⟨hsorted, fun x hx => ?_, fun x hx => ?_⟩, trivial⟩
  · rcases List.mem_cons.mp hx with rfl | hx
    · exact hl
    · exact h.sessions x hx
  · rcases List.mem_cons.mp hx with rfl | hx
    · exact hp
    · exact h.passkeys x hx

variable {w : World} {e : MFAChallengeEntry} {saves : MFAChallengeEntry → Prop} {call : Login}

theorem Sorted.fade {w' : World} (h : Sorted ops w) (hw : RecordsFade w w') : Sorted ops w' :=
  fun id r hr => h id r (hw id r hr)

theorem Sorted.save (h : Sorted ops w) {ttl : Int} (he : OfKind ops e.challengeID e.savedFields) :
    Sorted ops { w with mfa := (saveMFAChallenge w.mfa w.now e ttl).2 } := by
  intro id r hr
  rcases hmget_saveMFAChallenge hr with hr | ⟨rfl, hfields⟩
  · exact h id r hr
  · rw [hfields]
    exact he

theorem recordsFade_delete (w : World) (id : String) :
    RecordsFade w { w with mfa := deleteMFAChallenge w.mfa id } := by
  intro id' h hget
  by_cases hid : id' = id
  · subst hid
    have hgone : (w.mfa.hash.del id').get w.now id' = none := Keyspace.get_del_self
    cases hgone.symm.trans hget
  · exact (Keyspace.get_del_of_ne hid).symm.trans hget

theorem recordsFade_reserve (w : World) (userID purpose : String) (step ttl : Int) :
    RecordsFade w { w with mfa := (reserveTOTPStepUse w.mfa w.now userID purpose step ttl).2 } := by
  intro id h hget
  unfold reserveTOTPStepUse at hget
  split at hget <;> exact hget

theorem Apart.sundry (h : Apart ops m) (hl : Sundry env l f) (hi : (ops i).finishes = none) :
    (sorting ops).Kept m (m.after i l f) := by
  have hnone : ∀ p, l = .upsertPasskey p → ∀ id ∈ (ops i).finishes, ¬ LoginID ops id := by
    rw [hi]
    exact fun _ _ _ => nofun
  cases hl with
  | limit l hl g =>
    refine h.step h.sorted ?_ hnone
    rintro s rfl
    cases hl
  | deleteMFAChallenge id => exact h.step (h.sorted.fade (recordsFade_delete _ id)) nofun hnone
  | reserveTOTPStepUse userID purpose step ttl =>
    exact h.step (h.sorted.fade (recordsFade_reserve _ _ _ _ _)) nofun hnone
  | _ => exact h.step h.sorted nofun hnone

theorem Apart.enrolling (h : Apart ops m) (hl : Enrolling env saves l f)
    (hsaves : ∀ e, saves e → OfKind ops e.challengeID e.savedFields)
    (hi : ∀ id ∈ (ops i).finishes, ¬ LoginID ops id) : (sorting ops).Kept m (m.after i l f) := by
  cases hl with
  | saveMFAChallenge e ttl he => exact h.step (h.sorted.save (hsaves e he)) nofun fun _ _ => hi
  | deleteMFAChallenge id =>
    exact h.step (h.sorted.fade (recordsFade_delete _ id)) nofun fun _ _ => hi
  | reserveTOTPStepUse userID purpose step ttl =>
    exact h.step (h.sorted.fade (recordsFade_reserve _ _ _ _ _)) nofun fun _ _ => hi
  | _ => exact h.step h.sorted nofun fun _ _ => hi

theorem sorting_reads : ReadsKept (sorting ops) (NoSetupCode ops) i := by
  rintro m id _ (rfl | rfl) hinv _
  · exact Apart.step hinv hinv.sorted nofun nofun
  · exact Apart.step hinv hinv.sorted nofun nofun

/-- **What was read is of its kind.** -/
theorem ofKind_of_read {id : String} {challenge : MFAChallengeEntry}
    (h : ReadChallenge (sorting ops) (NoSetupCode ops) i id challenge m) :
    OfKind ops id challenge.toMFAChallengeFields := by
  obtain ⟨hash, packed, rfl, _, ⟨m₀, hinv, ⟨_, hhash⟩, _⟩, _⟩ := h
  exact (hinv.sorted id hash hhash).read packed

/-! ## The logins -/

theorem not_setup_of_grounds (hcall : ops i = .login call) {user : User} {method : AuthnMethodType}
    (h : Grounds env (sorting ops) (NoSetupCode ops) i m call user method) :
    ∀ id ∈ (ops i).completes, ¬ SetupID ops id := by
  rw [hcall]
  cases h with
  | firstFactor _ _ => exact nofun
  | totp hread =>
    rintro _ ⟨⟩ hid
    obtain ⟨hash, packed, rfl, _, ⟨m₀, hinv, ⟨hallowed, hhash⟩, _⟩, _⟩ := hread
    exact hallowed (by rw [hcall]; rfl) hash hhash ((hinv.sorted _ hash hhash).setup hid).1
  | passkey hread hmode =>
    rintro _ ⟨⟩
    exact (ofKind_of_read hread).not_setup_of_mode (by rw [hmode]; exact nofun)
  | push hread happroved =>
    rintro _ ⟨⟩
    exact (ofKind_of_read hread).not_setup_of_approved happroved

theorem ofKind_of_saving (hfresh : FreshIDs ops) (hcall : ops i = .login call)
    (h : Saving (sorting ops) (NoSetupCode ops) i m call e) :
    OfKind ops e.challengeID e.savedFields := by
  cases h with
  | fresh hid hmode _ _ =>
    have hlogin : LoginID ops e.challengeID := ⟨i, by rw [hcall, hid]; rfl⟩
    exact ofKind_saved (fun hsetup => absurd hlogin (hfresh.apart _ hsetup))
      fun _ => .inr ⟨.totpOnly, hmode⟩
  | @moded draws answer input challenge mode hread =>
    have hlogin : LoginID ops draws.challengeID := ⟨i, by rw [hcall]; rfl⟩
    have hnamed := (ofKind_of_read hread).named
    rw [hfresh.trimmed _ hlogin] at hnamed
    refine ofKind_saved (fun hsetup => ?_) fun _ => .inr ⟨mode, rfl⟩
    exact absurd (hnamed ▸ hlogin) (hfresh.apart _ hsetup)

theorem sorting_admission (hfresh : FreshIDs ops) (hcall : ops i = .login call) :
    Admission env (sorting ops) (NoSetupCode ops) i call where
  sundry hl hinv _ := Apart.sundry hinv hl (by rw [hcall]; rfl)
  save hsaving hinv _ :=
    Apart.step hinv (hinv.sorted.save (ofKind_of_saving hfresh hcall hsaving)) nofun nofun
  create := by
    intro m user method context row hgrounds _ _ _ _ hinv _
    refine Apart.step hinv ?_ (fun _ _ => not_setup_of_grounds hcall hgrounds) nofun
    exact hinv.sorted

/-! ## The other operations -/

theorem saveChallenge_acts (he : saves e) (now : Int) (onConflict onInvalid : AuthnError) :
    (saveChallenge e now onConflict onInvalid).run.Acts (Enrolling env saves) := by
  refine .send (.saveMFAChallenge _ _ he) fun reply => ?_
  rcases reply with (_ | _) | _ <;> trivial

theorem resolveActiveSessionUserID_silent (sessionID : String) :
    (resolveActiveSessionUserID env sessionID).run.Silent := by
  refine .require_then (.clock fun now => ?_)
  refine .bind_except (.call fun _ _ => trivial) fun entry => ?_
  split
  · trivial
  · refine .ask fun row => .found_then fun session => ?_
    exact .require_then trivial

section Programs

variable [DecidableEq ι]

theorem enrolling_wp (env : Env) {ε α : Type} {p : Service ε α}
    (hi : ∀ id ∈ (ops i).finishes, ¬ LoginID ops id)
    (hp : p.run.Acts (Enrolling env fun e => OfKind ops e.challengeID e.savedFields)) :
    Wp (sorting ops) (NoSetupCode ops) i p.run
      (Gives fun _ _ => ∀ id ∈ (ops i).finishes, ¬ LoginID ops id) m := by
  refine (wp_last hp (fun _ _ _ hl hinv _ => Apart.enrolling hinv hl (fun _ h => h) hi)
    ((sorting ops).lasting_const True) trivial).imp fun r m' _ => ?_
  exact fun _ _ => hi

variable (challengeID : String)

theorem readChallenge_wp (now : Int) :
    Wp (sorting ops) (NoSetupCode ops) i (liveChallenge challengeID now).run
      (Gives fun challenge _ => OfKind ops challengeID challenge.toMFAChallengeFields) m := by
  refine (liveChallenge_wp sorting_reads _ _).imp fun r m' hr => ?_
  exact fun challenge h => ofKind_of_read (hr challenge h)

theorem beginMFAPasskey_wp (hi : ∀ id ∈ (ops i).finishes, ¬ LoginID ops id) :
    Wp (sorting ops) (NoSetupCode ops) i (beginMFAPasskey env challengeID).run
      (Gives fun _ _ => ∀ id ∈ (ops i).finishes, ¬ LoginID ops id) m := by
  refine .require fun _ => ?_
  refine .clock fun m₁ _ => ?_
  refine .bind (readChallenge_wp _ _) fun challenge m₂ hkind => enrolling_wp env hi ?_
  refine .require_then (.found_then fun userID => .ask fun row => ?_)
  refine .found_then fun user => .require_then ?_
  refine .bind_except (Mfa.lookupPasskeyCredentialJSON_silent _).acts fun texts => ?_
  refine .require_then (.found_then fun begun => ?_)
  refine .bind_except (saveChallenge_acts ?_ _ _ _) fun _ => trivial
  -- the save leaves mode and status as they were read
  have hnamed : challenge.challengeID = trimSpace challengeID := hkind.named
  refine ofKind_saved (fun hid => ?_) fun hid => .inr (hkind.login (hnamed ▸ hid))
  obtain ⟨hmode, hstatus⟩ := hkind.setup (hnamed ▸ hid)
  refine ⟨hmode, ?_⟩
  rw [hstatus]
  decide +kernel

theorem decideMFAPush_wp (approverSessionID action matchCode : String)
    (hi : ∀ id ∈ (ops i).finishes, ¬ LoginID ops id) :
    Wp (sorting ops) (NoSetupCode ops) i
      (decideMFAPush env challengeID approverSessionID action matchCode).run
      (Gives fun _ _ => ∀ id ∈ (ops i).finishes, ¬ LoginID ops id) m := by
  refine .require fun _ => ?_
  refine .clock fun m₁ _ => ?_
  refine .bind (readChallenge_wp _ _) fun challenge m₂ hkind => ?_
  refine .require fun hmode => enrolling_wp env hi ?_
  refine .bind_except (resolveActiveSessionUserID_silent _).acts fun approver => ?_
  refine .found_then fun userID => .require_then (.require_then ?_)
  refine .bind_except (saveChallenge_acts ?_ _ _ _) fun _ => trivial
  have hnamed : challenge.challengeID = trimSpace challengeID := hkind.named
  refine ofKind_saved (fun hid => ?_) fun hid => .inr (hkind.login (hnamed ▸ hid))
  exact absurd (hnamed ▸ hid) (hkind.not_setup_of_mode (by rw [hmode]; exact nofun))

theorem pollMFAChallenge_wp (hi : ∀ id ∈ (ops i).finishes, ¬ LoginID ops id) :
    Wp (sorting ops) (NoSetupCode ops) i (pollMFAChallenge challengeID).run
      (Gives fun _ _ => ∀ id ∈ (ops i).finishes, ¬ LoginID ops id) m := by
  refine .clock fun m₁ _ => ?_
  exact .bind (readChallenge_wp _ _) fun challenge m₂ _ _ _ => hi

/-- **`FinishSetup` accepts no login.** -/
theorem finishPasskeySetup_wp (sessionID setupID responseJSON : String)
    (hi : ops i = .finishPasskeySetup sessionID setupID responseJSON) :
    Wp (sorting ops) (NoSetupCode ops) i
      (Enrolment.finishPasskeySetup env sessionID setupID responseJSON).run
      (Gives fun _ _ => ∀ id ∈ (ops i).finishes, ¬ LoginID ops id) m := by
  refine .require fun _ => ?_
  refine .skip (loadPasskeyUser_silent _) fun user m₁ => ?_
  refine .bind (getMFAChallenge_wp sorting_reads _) fun found m₂ hm₂ => ?_
  refine .clock fun m₃ _ => ?_
  refine .found fun challenge hchallenge => ?_
  refine .require fun _ => .require fun hmode => ?_
  have hno : ∀ id ∈ (ops i).finishes, ¬ LoginID ops id := by
    rw [hi]
    rintro _ ⟨⟩
    exact (ofKind_of_read (hm₂ challenge hchallenge)).not_login_of_mode hmode
  refine enrolling_wp env hno (.require_then (.require_then ?_))
  refine .ask fun existing => .found_then fun made => ?_
  refine .send (.upsertPasskey _) fun _ => ?_
  exact .send (.deleteMFAChallenge _) fun _ => trivial

theorem operation_wp (hfresh : FreshIDs ops) {op : Operation} (hop : ops i = op) :
    Wp (sorting ops) (NoSetupCode ops) i (op.code env)
      (fun b _ => b = true → ∀ id ∈ (ops i).finishes, ¬ LoginID ops id) m := by
  have hnone (h : op.finishes = none) : ∀ id ∈ (ops i).finishes, ¬ LoginID ops id := by
    rw [hop, h]
    exact nofun
  cases op with
  | login call =>
    exact (login_wp (sorting_admission hfresh hop)).imp fun _ _ _ _ => hnone rfl
  | pollMFAChallenge challengeID => exact wp_succeeds (pollMFAChallenge_wp _ (hnone rfl))
  | beginMFAPasskey challengeID => exact wp_succeeds (beginMFAPasskey_wp _ (hnone rfl))
  | decideMFAPush challengeID approverSessionID action matchCode =>
    exact wp_succeeds (decideMFAPush_wp _ _ _ _ (hnone rfl))
  | beginTOTPSetup secret sessionID =>
    exact wp_succeeds (enrolling_wp env (hnone rfl) (beginTOTPSetup_acts _ _))
  | confirmTOTPSetup challengeID sessionID code returnTo =>
    have hid : LoginID ops challengeID := ⟨i, by rw [hop]; rfl⟩
    refine wp_succeeds (enrolling_wp env (hnone rfl) ((confirmTOTPSetup_acts _ _ _ _).imp ?_))
    exact fun _ _ hl => hl.imp fun _ => ofKind_loginChallenge hfresh hid
  | beginLoginChallenge challengeID sessionID returnTo =>
    have hid : LoginID ops challengeID := ⟨i, by rw [hop]; rfl⟩
    refine wp_succeeds (enrolling_wp env (hnone rfl) ((beginLoginChallenge_acts _ _ _).imp ?_))
    exact fun _ _ hl => hl.imp fun _ => ofKind_loginChallenge hfresh hid
  | beginPasskeySetup setupID sessionID =>
    have hid : SetupID ops setupID := ⟨i, by rw [hop]; rfl⟩
    refine wp_succeeds (enrolling_wp env (hnone rfl) ((beginPasskeySetup_acts _ _).imp ?_))
    exact fun _ _ hl => hl.imp fun _ => ofKind_passkeySetup hfresh hid
  | finishPasskeySetup sessionID setupID responseJSON =>
    exact wp_succeeds (finishPasskeySetup_wp _ _ _ hop)

end Programs

end Discipline

/-! ## The law -/

/-- **Registrations and logins stay apart.** Any number of operations run among each other from records of
their kinds, no id is drawn for both kinds, and no `VerifyTOTP` reads a registration. Then the records stay
of their kinds, no session is created with the id of a registration, and no registration is finished with
the id of a login. -/
theorem kindsApart [DecidableEq ι] (env : Env) (ops : ι → Operation) (hfresh : FreshIDs ops)
    {w : World} (hw : Sorted ops w) {E : World → World → Prop}
    (hE : ∀ w w', E w w' → RecordsFade w w') {c : Config ι World Label Bool}
    (hrun : Reach E (NoSetupCode ops) (Config.start w fun i => (ops i).code env) c) :
    Sorted ops c.shared ∧
    (∀ x ∈ c.trace, ∀ s, x.label = .createSession s →
      ∀ id ∈ (ops x.pid).completes, ¬ SetupID ops id) ∧
    (∀ x ∈ c.trace, ∀ p, x.label = .upsertPasskey p →
      ∀ id ∈ (ops x.pid).finishes, ¬ LoginID ops id) ∧
    ∀ i, c.procs i = .ret true → ∀ id ∈ (ops i).finishes, ¬ LoginID ops id := by
  have hsafe : c.Safe (sorting ops) (NoSetupCode ops) fun i b _ =>
      b = true → ∀ id ∈ (ops i).finishes, ¬ LoginID ops id := by
    refine sound (fun m w' hinv hw' => ?_) (fun _ _ _ _ _ _ h => h) ?_ hrun
    · exact ⟨⟨hinv.sorted.fade (hE _ _ hw'), hinv.sessions, hinv.passkeys⟩, trivial⟩
    · refine ⟨⟨hw, fun x hx => ?_, fun x hx => ?_⟩, fun i => operation_wp hfresh rfl⟩
      · cases hx
      · cases hx
  exact ⟨hsafe.1.sorted, hsafe.1.sessions, hsafe.1.passkeys, fun i hret => hsafe.returned hret rfl⟩


/-! ## A registration that logs in -/

def registeringEnv : Env :=
  { Env.plain [] with
    passkeyEnabled := true
    beginRegistration := fun _ _ => some ("options", "session")
    finishRegistration := fun _ _ _ _ => some ("credential", "text") }

def registeringUser : World :=
  { World.empty 0 with
    db := { Database.empty with
      users := [⟨7, "sub-7", "ada", "ada", true, "ada", "pw", "user", 0#32, "", "active"⟩]
      totps := [⟨7, "111111"⟩]
      sessions := [⟨1, "s0", 7, "sub-7", "urn:idp:acr:pwd", "[\"pwd\"]", "", "", 0, 3600 * second,
        none⟩] } }

theorem registeringUser_sorted (ops : ι → Operation) : Sorted ops registeringUser := by
  intro id h hget
  cases hget

def registerThenLogin : Fin 4 → Operation
  | 0 => .beginPasskeySetup "c1" "s0"
  | 1 => .finishPasskeySetup "s0" "c1" "response"
  | 2 => .beginLoginChallenge "c2" "s0" "/home"
  | 3 => .login (.verifyTOTP "s1" "c2" "111111")

def codeForRegistration : Bool → Operation
  | false => .beginPasskeySetup "c1" "s0"
  | true => .login (.verifyTOTP "s1" "c1" "111111")

theorem registerThenLogin_fresh : FreshIDs registerThenLogin := by
  have hsetup : ∀ i, ∀ id ∈ (registerThenLogin i).setup, id = "c1" := by decide +kernel
  have hlogin : ∀ i, ∀ id ∈ (registerThenLogin i).challenge, id = "c2" := by decide +kernel
  refine ⟨?_, ?_⟩
  · rintro id ⟨i, hi⟩ ⟨j, hj⟩
    exact absurd ((hsetup i id hi).symm.trans (hlogin j id hj)) (by decide)
  · rintro id ⟨j, hj⟩
    rw [hlogin j id hj]
    decide +kernel

def codeSession : Session :=
  ⟨0, "s1", 7, "sub-7", "urn:idp:acr:mfa", "[\"pwd\",\"otp\"]", "", "", 0, 3600 * second, none⟩

def oneByOne : List (Move (Fin 4) World) :=
  [.run 0, .run 0, .run 1, .run 1, .run 1, .run 1, .run 1, .run 2, .run 2, .run 2, .run 2, .run 2,
    .run 3, .run 3, .run 3, .run 3, .run 3, .run 3, .run 3]

theorem kindsApart_registerThenLogin :
    ∃ c, Reach RecordsFade (NoSetupCode registerThenLogin)
        (Config.start registeringUser fun i => (registerThenLogin i).code registeringEnv) c ∧
      c.procs 1 = .ret true ∧ SetupID registerThenLogin "c1" ∧ ¬ LoginID registerThenLogin "c1" ∧
      (∃ x ∈ c.trace, x.pid = 3 ∧ x.label = .createSession codeSession) ∧
      ¬ SetupID registerThenLogin "c2" := by
  let c := (Config.start registeringUser fun i => (registerThenLogin i).code registeringEnv).played
    (NoSetupCode registerThenLogin) oneByOne
  have hrun : Reach RecordsFade (NoSetupCode registerThenLogin)
      (Config.start registeringUser fun i => (registerThenLogin i).code registeringEnv) c :=
    played_reach _ (by simp [oneByOne, Move.Allowed]) (by decide +kernel)
  have hcreated : ∃ x ∈ c.trace, x.pid = 3 ∧ x.label = .createSession codeSession := by
    decide +kernel
  have hfinished : c.procs 1 = .ret true := by decide +kernel
  obtain ⟨-, hsessions, -, hfinishes⟩ := kindsApart registeringEnv registerThenLogin
    registerThenLogin_fresh (registeringUser_sorted _) (fun _ _ h => h) hrun
  refine ⟨c, hrun, hfinished, ⟨0, rfl⟩, hfinishes 1 hfinished "c1" (by decide +kernel), hcreated, ?_⟩
  obtain ⟨x, hx, hpid, hlabel⟩ := hcreated
  exact hsessions x hx _ hlabel "c2" (by rw [hpid]; decide +kernel)

def completeRegistration : List (Move Bool World) :=
  [.run false, .run false, .run true, .run true, .run true, .run true, .run true, .run true,
    .run true]

/-- **The law fails without the condition.** The id of a registration and a code of its user give a
session. -/
theorem registrationLogsIn :
    ∃ c, Reach RecordsFade Unrestricted
        (Config.start registeringUser fun i => (codeForRegistration i).code registeringEnv) c ∧
      FreshIDs codeForRegistration ∧ c.procs true = .ret true ∧
      ∃ x ∈ c.trace, x.label = .createSession codeSession ∧
        ∃ id ∈ (codeForRegistration x.pid).completes, SetupID codeForRegistration id := by
  let c := (Config.start registeringUser fun i => (codeForRegistration i).code registeringEnv).played
    Unrestricted completeRegistration
  have hrun : Reach RecordsFade Unrestricted
      (Config.start registeringUser fun i => (codeForRegistration i).code registeringEnv) c :=
    played_reach _ (by simp [completeRegistration, Move.Allowed]) (by decide +kernel)
  have hnone : ∀ id, ¬ LoginID codeForRegistration id := by
    rintro id ⟨i, hi⟩
    cases i <;> cases hi
  have hcreated : ∃ x ∈ c.trace, x.pid = true ∧ x.label = .createSession codeSession := by
    decide +kernel
  obtain ⟨x, hx, hpid, hlabel⟩ := hcreated
  refine ⟨c, hrun, ⟨fun id _ => hnone id, fun id h => absurd h (hnone id)⟩,
    by decide +kernel, x, hx, hlabel, "c1", ?_, false, rfl⟩
  rw [hpid]
  decide +kernel

end IdpServer.Laws.Authn
