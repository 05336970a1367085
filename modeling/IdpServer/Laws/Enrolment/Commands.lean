import IdpServer.Conc.Wp
import IdpServer.Enrolment.Service

/-!
# Laws.Enrolment.Commands — what setting up a second factor does to the stores

The five calls of the enrolment services only send commands of `Enrolling`. Which challenges they save is a
parameter.
-/

namespace IdpServer.Laws.Enrolment

open Conc IdpServer.Cache Go IdpServer.Enrolment

inductive Enrolling (env : Env) (saves : MFAChallengeEntry → Prop) : Label → (World → World) → Prop
  | saveTOTPEnrollment (e : TOTPEnrollmentEntry) (ttl : Int) :
      Enrolling env saves (.saveTOTPEnrollment e ttl) fun w =>
        { w with enrollments := Cache.saveTOTPEnrollment w.enrollments w.now e ttl }
  | deleteTOTPEnrollment (sessionID : String) :
      Enrolling env saves (.deleteTOTPEnrollment sessionID) fun w =>
        { w with enrollments := w.enrollments.del sessionID }
  | reserveTOTPStepUse (userID purpose : String) (step ttl : Int) :
      Enrolling env saves (.reserveTOTPStepUse userID purpose step) fun w =>
        { w with mfa := (Cache.reserveTOTPStepUse w.mfa w.now userID purpose step ttl).2 }
  | upsertTOTP (t : TOTPCredential) :
      Enrolling env saves (.upsertTOTP t) fun w => { w with db := w.db.upsertTOTP t }
  | upsertPasskey (p : PasskeyCredential) :
      Enrolling env saves (.upsertPasskey p) fun w => { w with db := w.db.upsertPasskey env.sqlEq p }
  | hmgetMFAChallenge (id : String) : Enrolling env saves (.hmgetMFAChallenge id) fun w => w
  | bitfieldMFAChallenge (id : String) : Enrolling env saves (.bitfieldMFAChallenge id) fun w => w
  | saveMFAChallenge (e : MFAChallengeEntry) (ttl : Int) (h : saves e) :
      Enrolling env saves (.saveMFAChallenge e ttl) fun w =>
        { w with mfa := (Cache.saveMFAChallenge w.mfa w.now e ttl).2 }
  | deleteMFAChallenge (id : String) : Enrolling env saves (.deleteMFAChallenge id) fun w =>
      { w with mfa := Cache.deleteMFAChallenge w.mfa id }
  | logoutBySessionID (sessionID : String) (loggedOutAt : Int) :
      Enrolling env saves (.logoutBySessionID sessionID loggedOutAt) fun w =>
        { w with db := w.db.logoutBySessionID env.sqlEq sessionID loggedOutAt }
  | deleteSessionHash (sessionID : String) :
      Enrolling env saves (.deleteSessionHash sessionID) fun w =>
        { w with sessions := { w.sessions with hash := w.sessions.hash.del sessionID } }
  | deleteSession (sessionID userID : String) :
      Enrolling env saves (.deleteSession sessionID userID) fun w =>
        { w with sessions := w.sessions.deleteSession w.now sessionID userID }
  | removeUserSessionIndex (userID sessionID : String) :
      Enrolling env saves (.removeUserSessionIndex userID sessionID) fun w =>
        { w with sessions := w.sessions.removeUserSessionIndex w.now userID sessionID }

variable {env : Env} {saves : MFAChallengeEntry → Prop}

theorem Enrolling.imp {saves' : MFAChallengeEntry → Prop} {l : Label} {f : World → World}
    (h : Enrolling env saves l f) (himp : ∀ e, saves e → saves' e) : Enrolling env saves' l f := by
  cases h with
  | saveMFAChallenge e ttl he => exact .saveMFAChallenge e ttl (himp e he)
  | _ => constructor

/-! ## The user behind a session -/

theorem cachedUser_silent (userID : SessionCacheEntry → Option Int)
    (entry : Option SessionCacheEntry) (now : Int) : (cachedUser userID entry now).run.Silent := by
  unfold cachedUser
  split
  · trivial
  · split
    · trivial
    · exact .bind_except (.call fun _ => trivial) fun _ => trivial

variable (sessionID challengeID setupID : String)

theorem rowUser_silent (now : Int) : (rowUser env sessionID now).run.Silent := by
  refine .ask fun row => .found_then fun session => ?_
  refine .require_then (.ask fun row => .found_then fun user => ?_)
  trivial

theorem loadMFAUser_silent : (loadMFAUser env sessionID).run.Silent := by
  refine .found_then fun sessionID => .clock fun now => ?_
  refine .bind_except (.call fun _ _ => trivial) fun entry => ?_
  refine .bind_except (cachedUser_silent _ _ _) fun cached => ?_
  cases cached with
  | some found => trivial
  | none => exact .bind_except (rowUser_silent _ _) fun _ => trivial

theorem loadPasskeyUser_silent : (loadPasskeyUser env sessionID).run.Silent := by
  refine .found_then fun sessionID => .clock fun now => ?_
  refine .bind_except (.call fun _ _ => trivial) fun entry => ?_
  refine .bind_except (cachedUser_silent _ _ _) fun cached => ?_
  cases cached with
  | some found => trivial
  | none => exact .bind_except (rowUser_silent _ _) fun _ => trivial

/-! ## TOTP -/

def LoginChallenge (challengeID : String) (e : MFAChallengeEntry) : Prop :=
  e.challengeID = challengeID ∧ e.mfaMode = "" ∧ e.pushStatus = "" ∧ e.passkeySessionJSON = ""

theorem beginTOTPSetup_acts (secret sessionID : String) :
    (beginTOTPSetup env secret sessionID).run.Acts (Enrolling env saves) := by
  refine .bind_except (loadMFAUser_silent _).acts fun user => ?_
  refine .ask fun credential => ?_
  cases credential with
  | some _ => trivial
  | none =>
    refine .clock fun now => ?_
    exact .send (.saveTOTPEnrollment _ _) fun _ => trivial

theorem challengeAgain_acts (user : MFAAuthContext) (returnTo : String) (now : Int) :
    (challengeAgain env challengeID user returnTo now).run.Acts
      (Enrolling env (LoginChallenge challengeID)) := by
  refine .bind_except ?_ fun _ => .bind_except ?_ fun _ => trivial
  · refine .send (.saveMFAChallenge _ _ ⟨rfl, rfl, rfl, rfl⟩) fun reply => ?_
    cases reply <;> trivial
  · refine .send (.logoutBySessionID _ _) fun _ => ?_
    refine .bind_except (.call (.bind (fun _ _ => trivial) fun entry => ?_)) fun _ => ?_
    · cases entry with
      | none => exact ⟨.deleteSessionHash _, fun _ => trivial⟩
      | some e => exact ⟨.deleteSession _ _, fun _ => trivial⟩
    · exact .call ⟨.removeUserSessionIndex _ _, fun _ => trivial⟩

theorem confirmTOTPSetup_acts (sessionID code returnTo : String) :
    (confirmTOTPSetup env challengeID sessionID code returnTo).run.Acts
      (Enrolling env (LoginChallenge challengeID)) := by
  refine .bind_except (loadMFAUser_silent _).acts fun user => ?_
  refine .clock fun now => .ask fun entry => ?_
  refine .found_then fun entry => ?_
  refine .require_then (.require_then ?_)
  refine .found_then fun step => ?_
  refine .send (.reserveTOTPStepUse _ _ _ _) fun reserved => ?_
  refine .require_then (.send (.upsertTOTP _) fun _ => ?_)
  refine .send (.deleteTOTPEnrollment _) fun _ => ?_
  cases nonblank returnTo with
  | none => trivial
  | some returnTo => exact challengeAgain_acts _ _ _ _

theorem beginLoginChallenge_acts (sessionID returnTo : String) :
    (beginLoginChallenge env challengeID sessionID returnTo).run.Acts
      (Enrolling env (LoginChallenge challengeID)) := by
  refine .bind_except (loadMFAUser_silent _).acts fun user => ?_
  cases nonblank returnTo with
  | none => trivial
  | some returnTo =>
    refine .ask fun credential => .found_then fun _ => ?_
    exact .clock fun now => challengeAgain_acts _ _ _ _

/-! ## Passkeys -/

def PasskeySetup (setupID : String) (e : MFAChallengeEntry) : Prop :=
  e.challengeID = setupID ∧ e.mfaMode = passkeySetupMFAMode ∧ e.pushStatus = ""

theorem beginPasskeySetup_acts (sessionID : String) :
    (beginPasskeySetup env setupID sessionID).run.Acts (Enrolling env (PasskeySetup setupID)) := by
  refine .require_then ?_
  refine .bind_except (loadPasskeyUser_silent _).acts fun user => ?_
  refine .ask fun existing => .found_then fun registration => ?_
  refine .clock fun now => ?_
  refine .send (.saveMFAChallenge _ _ ⟨rfl, rfl, rfl⟩) fun reply => ?_
  cases reply <;> trivial

end IdpServer.Laws.Enrolment
