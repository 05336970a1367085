import IdpServer.Laws.Authn.Grounds
import IdpServer.Laws.Enrolment.Commands

/-!
# Laws.Enrolment.Passkeys — whose passkeys a registration touches

A passkey is stored by an upsert on its credential id. **An answer with the id of somebody else's passkey takes
the row over** (`passkeyTakenOver`). `othersPasskeysStay` is the law when it is nobody else's.
-/

namespace IdpServer.Laws.Enrolment

open Conc IdpServer.Cache Store Go IdpServer.Enrolment
open Laws.Session (succeeds)

variable {ι : Type}

/-! ## Calls -/

structure FinishSetup where
  sessionID : String
  setupID : String
  responseJSON : String

def FinishSetup.code (env : Env) (call : FinishSetup) : Action Bool :=
  succeeds (finishPasskeySetup env call.sessionID call.setupID call.responseJSON)

/-- The session is not one of the user, neither in the cache nor in the table. -/
structure NotSessionOf (env : Env) (userID : Int) (sessionID : String) (w : World) : Prop where
  cached : ∀ h ∈ w.sessions.hmget w.now sessionID, parseUserID (trimSpace h.userID) ≠ some userID
  row : ∀ s ∈ w.db.findSession env.sqlEq sessionID, s.userID ≠ userID

/-- **The condition**: a passkey is stored under an id that is new, or the user's own already. -/
def OwnCredentialID (env : Env) (m : Moment ι World Label) (_ : ι) : Label → Prop
  | .upsertPasskey p =>
      ∀ q ∈ m.shared.db.passkeys, env.sqlEq q.credentialID p.credentialID = true →
        q.userID = p.userID
  | _ => True

instance (env : Env) (m : Moment ι World Label) (i : ι) (l : Label) :
    Decidable (OwnCredentialID env m i l) := by
  induction l using Label.casesOn <;> dsimp only [OwnCredentialID] <;> infer_instance

/-! ## The upsert -/

theorem filter_map_outside {α : Type} {P : α → Bool} {g : α → α} {l : List α}
    (h : ∀ a ∈ l, g a = a ∨ P (g a) = false ∧ P a = false) : (l.map g).filter P = l.filter P := by
  induction l with
  | nil => rfl
  | cons a l ih =>
    have htail := ih fun b hb => h b (List.mem_cons_of_mem a hb)
    rcases h a List.mem_cons_self with hsame | ⟨hnew, hold⟩
    · rw [List.map_cons, hsame, List.filter_cons, List.filter_cons, htail]
    · rw [List.map_cons, List.filter_cons_of_neg (by simp [hnew]), htail,
        List.filter_cons_of_neg (by simp [hold])]

theorem listPasskeys_upsertPasskey {db : Database} {sqlEq : String → String → Bool}
    {p : PasskeyCredential} {userID : Int} (hne : p.userID ≠ userID)
    (hown : ∀ q ∈ db.passkeys, sqlEq q.credentialID p.credentialID = true → q.userID = p.userID) :
    (db.upsertPasskey sqlEq p).listPasskeys userID = db.listPasskeys userID := by
  unfold Database.upsertPasskey Database.listPasskeys
  split
  · refine filter_map_outside fun q hq => ?_
    by_cases heq : sqlEq q.credentialID p.credentialID = true
    · rw [if_pos heq]
      exact .inr ⟨decide_eq_false hne, decide_eq_false (hown q hq heq ▸ hne)⟩
    · rw [if_neg heq]
      exact .inl rfl
  · simp [hne]

/-! ## The discipline -/

section Discipline

variable (env : Env) (userID : Int) (calls : ι → FinishSetup) (passkeys : List PasskeyCredential)

structure Aloof (w : World) : Prop where
  passkeys : w.db.listPasskeys userID = passkeys
  sessions : ∀ i, NotSessionOf env userID (trimSpace (calls i).sessionID) w

def aloof : Discipline ι World Label where
  inv m := Aloof env userID calls passkeys m.shared
  mono _ _ := True
  mono_refl _ := trivial
  mono_trans _ _ := trivial

/-- Nobody else touches the passkeys of the user, or gives the user one of the sessions. -/
def LeavesAlone (w w' : World) : Prop :=
  w'.db.listPasskeys userID = w.db.listPasskeys userID ∧
  ∀ i, NotSessionOf env userID (trimSpace (calls i).sessionID) w →
    NotSessionOf env userID (trimSpace (calls i).sessionID) w'

end Discipline

section Programs

variable [DecidableEq ι] {env : Env} {userID : Int} {calls : ι → FinishSetup}
variable {passkeys : List PasskeyCredential} {i : ι} {m : Moment ι World Label}

theorem cachedUser_wp {entry : Option SessionCacheEntry} {now : Int}
    (hentry : ∀ e ∈ entry, parseUserID (trimSpace e.userID) ≠ some userID) :
    Wp (aloof env userID calls passkeys) (OwnCredentialID env) i
      (cachedUser (fun e => parseUserID (trimSpace e.userID)) entry now).run
      (Gives fun found _ => ∀ e user, found = some (e, user) → user.id ≠ userID) m := by
  unfold cachedUser
  cases hactive : entry.filter (isSessionEntryActive · now) with
  | none =>
    exact .ok nofun
  | some e =>
    have he := hentry e (Option.filter_eq_some_iff.mp hactive).1
    cases hid : parseUserID (trimSpace e.userID) with
    | none =>
      simp only [hid]
      exact .ok nofun
    | some id =>
      simp only [hid]
      refine wp_bind_except.mpr (wp_call gives_error fun m₁ _ _ => ⟨?_, gives_error⟩)
      rintro _ ⟨⟩ e' user hfound
      obtain ⟨row, hrow, heq⟩ := Option.map_eq_some_iff.mp hfound
      obtain ⟨rfl, rfl⟩ := Prod.mk.inj heq
      rw [Database.findUser_id hrow]
      exact fun h => he (hid.trans (congrArg some h))

theorem rowUser_wp {sessionID : String} {now : Int} (hrow : ∀ w, Aloof env userID calls passkeys w →
      ∀ s ∈ w.db.findSession env.sqlEq sessionID, s.userID ≠ userID) :
    Wp (aloof env userID calls passkeys) (OwnCredentialID env) i (rowUser env sessionID now).run
      (Gives fun found _ => found.2.id ≠ userID) m := by
  refine .read fun m₁ hinv => ?_
  refine .found fun row hfound => .require fun _ => ?_
  refine .read fun m₂ _ => ?_
  refine .found fun user huser => ?_
  have hother := hrow _ hinv row hfound
  rw [← Database.findUser_id huser] at hother
  exact .ok hother

theorem loadPasskeyUser_wp : Wp (aloof env userID calls passkeys) (OwnCredentialID env) i
      (loadPasskeyUser env (calls i).sessionID).run (Gives fun user _ => user.id ≠ userID) m := by
  refine .found fun sessionID hid => ?_
  obtain rfl : trimSpace (calls i).sessionID = sessionID := (nonblank_eq_some.mp hid).1
  refine .clock fun m₁ _ => ?_
  refine wp_bind_except.mpr (wp_call gives_error fun m₂ _ hinv₂ m₃ _ _ => ⟨?_, gives_error⟩)
  refine .bind (cachedUser_wp fun e he => ?_) fun found m₄ hm₄ => ?_
  · obtain ⟨h, hh, rfl⟩ := Option.map_eq_some_iff.mp he
    exact (hinv₂.sessions i).cached h hh
  · cases found with
    | some found =>
      exact .ok (hm₄ _ _ rfl)
    | none =>
      refine .bind (rowUser_wp fun w hw => (hw.sessions i).row) fun found m₅ hm₅ => ?_
      exact .ok hm₅

inductive Registering (env : Env) (userID : Int) : Label → (World → World) → Prop
  | hmgetMFAChallenge (id : String) : Registering env userID (.hmgetMFAChallenge id) fun w => w
  | bitfieldMFAChallenge (id : String) : Registering env userID (.bitfieldMFAChallenge id) fun w => w
  | upsertPasskey (p : PasskeyCredential) (hne : p.userID ≠ userID) :
      Registering env userID (.upsertPasskey p) fun w =>
        { w with db := w.db.upsertPasskey env.sqlEq p }
  | deleteMFAChallenge (id : String) : Registering env userID (.deleteMFAChallenge id) fun w =>
      { w with mfa := Cache.deleteMFAChallenge w.mfa id }

omit [DecidableEq ι] in
theorem Aloof.registering {l : Label} {f : World → World}
    (h : Aloof env userID calls passkeys m.shared) (hl : Registering env userID l f)
    (ha : OwnCredentialID env m i l) :
    (aloof env userID calls passkeys).Kept m (m.after i l f) := by
  cases hl with
  | upsertPasskey p hne =>
    refine ⟨⟨(listPasskeys_upsertPasskey hne ha).trans h.passkeys, fun j => ?_⟩, trivial⟩
    exact ⟨(h.sessions j).cached, (h.sessions j).row⟩
  | _ => exact ⟨⟨h.passkeys, fun j => ⟨(h.sessions j).cached, (h.sessions j).row⟩⟩, trivial⟩

theorem finishSetup_wp :
    Wp (aloof env userID calls passkeys) (OwnCredentialID env) i ((calls i).code env)
      (fun _ _ => True) m := by
  refine wp_bind.mpr (Wp.imp (Q := fun _ _ => True) ?_ fun _ _ _ => trivial)
  refine .require fun _ => ?_
  refine wp_bind_except.mpr (loadPasskeyUser_wp.imp fun r m₁ hr => ?_)
  cases r with
  | error e => trivial
  | ok user =>
    have hne := hr user rfl
    refine wp_last ?_ (fun _ _ _ hl hinv ha => hinv.registering hl ha)
      ((aloof env userID calls passkeys).lasting_const True) trivial
    refine .bind_except (.call ⟨.hmgetMFAChallenge _, fun _ => ?_⟩) fun challenge => ?_
    · exact ⟨.bitfieldMFAChallenge _, fun _ => trivial⟩
    refine .clock fun now => .found_then fun challenge => ?_
    refine .require_then (.require_then (.require_then ?_))
    refine .require_then (.ask fun existing => .found_then fun made => ?_)
    refine .send (.upsertPasskey _ hne) fun _ => ?_
    exact .send (.deleteMFAChallenge _) fun _ => trivial

end Programs

/-! ## The law -/

/-- **Everybody else's passkeys stay.** Any number of `FinishSetup` calls run among each other, none in a
session of the user, and each under a credential id that is nobody else's. Then the passkeys of the user are
what they were, however far the calls have come. -/
theorem othersPasskeysStay [DecidableEq ι] (env : Env) (userID : Int) (calls : ι → FinishSetup)
    {w : World} (hother : ∀ i, NotSessionOf env userID (trimSpace (calls i).sessionID) w)
    {E : World → World → Prop} (hE : ∀ w w', E w w' → LeavesAlone env userID calls w w')
    {c : Config ι World Label Bool}
    (hrun : Reach E (OwnCredentialID env) (Config.start w fun i => (calls i).code env) c) :
    c.shared.db.listPasskeys userID = w.db.listPasskeys userID := by
  have hsafe : c.Safe (aloof env userID calls (w.db.listPasskeys userID)) (OwnCredentialID env)
      fun _ _ _ => True := by
    refine sound (fun m w' hinv hw => ?_) (fun _ _ _ _ _ _ _ => trivial) ?_ hrun
    · obtain ⟨hsame, hsessions⟩ := hE _ _ hw
      exact ⟨⟨hsame.trans hinv.passkeys, fun i => hsessions i (hinv.sessions i)⟩, trivial⟩
    · exact ⟨⟨rfl, hother⟩, fun i => finishSetup_wp⟩
  exact hsafe.1.passkeys


/-! ## A passkey taken over -/

def answeringEnv : Env :=
  { Env.plain [] with
    passkeyEnabled := true
    finishRegistration := fun _ _ _ response => some (response, "text") }

def registeringBesidePasskey : World :=
  let user (id : Int) (uuid name : String) : User :=
    ⟨id, uuid, name, name, true, name, "pw", "user", 0#32, "", "active"⟩
  let setup : MFAChallengeEntry := { Mfa.passkeyChallenge with
    userID := "7", mfaMode := passkeySetupMFAMode, passkeySessionJSON := "session" }
  { World.empty 0 with
    db := { Database.empty with
      users := [user 7 "sub-7" "ada", user 8 "sub-8" "ben"]
      passkeys := [⟨8, "bens", "text", none⟩]
      sessions := [⟨1, "s0", 7, "sub-7", "urn:idp:acr:pwd", "[\"pwd\"]", "", "", 0, 3600 * second,
        none⟩] }
    mfa := (saveMFAChallenge .empty 0 setup (600 * second)).2 }

def finishes (response : String) : Unit → FinishSetup := fun _ => ⟨"s0", "c1", response⟩

def finishing (response : String) : Config Unit World Label Bool :=
  Config.start registeringBesidePasskey fun i => (finishes response i).code answeringEnv

def wholeCall : List (Move Unit World) := [.run (), .run (), .run (), .run (), .run ()]

theorem notBensSession (response : String) (i : Unit) :
    NotSessionOf answeringEnv 8 (trimSpace (finishes response i).sessionID)
      registeringBesidePasskey := by
  have hid : trimSpace (finishes response i).sessionID = "s0" := by
    show trimSpace "s0" = "s0"
    decide +kernel
  rw [hid]
  exact ⟨by decide +kernel, by decide +kernel⟩

theorem othersPasskeysStay_new :
    ∃ c, Reach (LeavesAlone answeringEnv 8 (finishes "adas")) (OwnCredentialID answeringEnv)
        (finishing "adas") c ∧
      c.procs () = .ret true ∧ c.shared.db.listPasskeys 7 = [⟨7, "adas", "text", none⟩] ∧
      c.shared.db.listPasskeys 8 = [⟨8, "bens", "text", none⟩] := by
  let c := (finishing "adas").played (OwnCredentialID answeringEnv) wholeCall
  have hrun : Reach (LeavesAlone answeringEnv 8 (finishes "adas")) (OwnCredentialID answeringEnv)
      (finishing "adas") c :=
    played_reach _ (by simp [wholeCall, Move.Allowed]) (by decide +kernel)
  refine ⟨c, hrun, by decide +kernel, by decide +kernel, ?_⟩
  rw [othersPasskeysStay answeringEnv 8 (finishes "adas") (notBensSession _) (fun _ _ h => h) hrun]
  decide +kernel

/-- **The law fails without the condition.** The first user answers with the id of the second user's
passkey, which is then the first user's. -/
theorem passkeyTakenOver :
    ∃ c, Reach (LeavesAlone answeringEnv 8 (finishes "bens")) Unrestricted (finishing "bens") c ∧
      (∀ i, NotSessionOf answeringEnv 8 (trimSpace (finishes "bens" i).sessionID)
        registeringBesidePasskey) ∧
      c.procs () = .ret true ∧
      registeringBesidePasskey.db.listPasskeys 8 = [⟨8, "bens", "text", none⟩] ∧
      c.shared.db.listPasskeys 8 = [] ∧
      c.shared.db.listPasskeys 7 = [⟨7, "bens", "text", none⟩] := by
  let c := (finishing "bens").played Unrestricted wholeCall
  have hrun : Reach (LeavesAlone answeringEnv 8 (finishes "bens")) Unrestricted
      (finishing "bens") c :=
    played_reach _ (by simp [wholeCall, Move.Allowed]) (by decide +kernel)
  exact ⟨c, hrun, notBensSession _, by decide +kernel, by decide +kernel,
    by decide +kernel, by decide +kernel⟩

end IdpServer.Laws.Enrolment
