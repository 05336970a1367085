import IdpServer.Conc.Reliable
import IdpServer.Http.Middleware
import IdpServer.Laws.Authn.Grounds

/-!
# Laws.Authn.Recognition — a second factor that counts

What a session says of its second factor is computed from whether the account has a TOTP credential
(`passkeyUnrecognised`). `completions_recognised` is the law for accounts that have one.
-/

namespace IdpServer.Laws.Authn

open Conc IdpServer.Cache Store Go IdpServer.Authn
open IdpServer.Http (sessionHasOTP)
open Laws.Mfa (lookupTOTP_silent lookupPasskeyCredentialJSON_silent)

/-! ## Completions -/

inductive Completion where
  | totp (sessionID challengeID code : String)
  | passkey (sessionID challengeID responseJSON : String)
  | push (sessionID challengeID : String)

def Completion.code (env : Env) : Completion → Service AuthnError AuthenticateResult
  | .totp sessionID challengeID code => Authn.verifyTOTP env sessionID challengeID code
  | .passkey sessionID challengeID responseJSON =>
      Authn.verifyMFAPasskey env sessionID challengeID responseJSON
  | .push sessionID challengeID => Authn.finalizeMFAPush env sessionID challengeID

/-- The command deletes a challenge: the factor has been verified. -/
def isDelete : Label → Bool
  | .deleteMFAChallenge _ => true
  | _ => false

/-! ## What is kept -/

def KeepsTOTP (w w' : World) : Prop :=
  ∀ userID, w.db.findTOTP userID ≠ none → w'.db.findTOTP userID ≠ none

section Kept

variable {ι : Type}

/-- **The condition**: the account of a challenge has a TOTP credential when the challenge is read. -/
def TOTPEnrolled (m : Moment ι World Label) (_ : ι) (l : Label) : Prop :=
  match l with
  | .hmgetMFAChallenge id => ∀ h ∈ m.shared.mfa.hmget m.shared.now id,
      (∀ userID ∈ parseUserID h.userID, m.shared.db.findTOTP userID ≠ none) ∧
        ∀ userID ∈ parseUserID (trimSpace h.userID), m.shared.db.findTOTP userID ≠ none
  | _ => True

instance (m : Moment ι World Label) (i : ι) (l : Label) : Decidable (TOTPEnrolled m i l) := by
  unfold TOTPEnrolled
  split <;> infer_instance

def Recognised (t : List (Event ι World Label)) : Prop :=
  ∀ x ∈ t, ∀ row, x.label = .createSession row → sessionHasOTP row = true

def recognising : Discipline ι World Label where
  inv m := Recognised m.trace
  mono m m' := KeepsTOTP m.shared m'.shared
  mono_refl _ _ h := h
  mono_trans hab hbc userID h := hbc userID (hab userID h)

variable {m : Moment ι World Label} {i : ι}

def Holds (userID : Int) (m : Moment ι World Label) : Prop := m.shared.db.findTOTP userID ≠ none

theorem holds_lasting (userID : Int) : recognising.Lasting (Holds (ι := ι) userID) :=
  fun _ _ h hm => h.mono userID hm

def Beside (l : Label) (f : World → World) : Prop :=
  (∀ row, l ≠ .createSession row) ∧ isDelete l = false ∧ ∀ w, (f w).db.totps = w.db.totps

theorem KeepsTOTP.of_totps {w w' : World} (h : w'.db.totps = w.db.totps) : KeepsTOTP w w' := by
  intro userID hfound
  rwa [Database.findTOTP, h]

theorem recognised_cons {l : Label} {w : World} (h : Recognised m.trace)
    (hl : ∀ row, l = .createSession row → sessionHasOTP row = true) :
    Recognised (⟨i, l, w⟩ :: m.trace) := by
  intro x hx row hrow
  rcases List.mem_cons.mp hx with rfl | hx
  · exact hl row hrow
  · exact h x hx row hrow

theorem beside_kept {l : Label} {f : World → World} (hl : ∀ row, l ≠ .createSession row)
    (hf : ∀ w, (f w).db.totps = w.db.totps) (hinv : Recognised m.trace) :
    recognising.Kept m (m.after i l f) :=
  ⟨recognised_cons hinv fun row hrow => (hl row hrow).elim, .of_totps (hf m.shared)⟩

end Kept

section Programs

variable {ι : Type} [DecidableEq ι] {env : Env} {m : Moment ι World Label} {i : ι}

omit [DecidableEq ι] in
theorem recognising_reads : ReadsKept (recognising (ι := ι)) TOTPEnrolled i := by
  intro m id l hl hinv _
  refine beside_kept ?_ (fun _ => rfl) hinv
  rcases hl with rfl | rfl <;> exact fun _ h => by cases h

variable {userID : Int} {user : User}

omit [DecidableEq ι] in
theorem ReadChallenge.holds {id : String} {challenge : MFAChallengeEntry}
    (h : ReadChallenge recognising TOTPEnrolled i id challenge m)
    (huser : parseUserID challenge.userID = some userID ∨
      parseUserID (trimSpace challenge.userID) = some userID) : Holds userID m := by
  obtain ⟨hash, p, rfl, -, ⟨m₀, -, ⟨henrolled, hhash⟩, hlater⟩, -⟩ := h
  obtain ⟨hplain, htrimmed⟩ := henrolled hash hhash
  exact hlater.mono userID (huser.elim (hplain userID) (htrimmed userID))

theorem sessionHasOTP_mfa {row : Session} (h : row.acr = "urn:idp:acr:mfa") : sessionHasOTP row = true := by
  have hacr : equalFold (trimSpace "urn:idp:acr:mfa") "urn:idp:acr:mfa" = true := by decide +kernel
  rw [sessionHasOTP, h, hacr, Bool.or_true]

variable (db : Database) (sqlEq : String → String → Bool) (id : String)

theorem createSession_totps (s : Session) : (db.createSession sqlEq s).2.totps = db.totps := by
  unfold Database.createSession
  split <;> rfl

theorem sessionContext_recognised (hpositive : 0 < user.id) (hm : Holds user.id m) :
    Wp recognising TOTPEnrolled i (sessionContext user .password).run.reliable
      (fun r _ => r = .ok ("urn:idp:acr:mfa", "[\"pwd\",\"otp\"]")) m := by
  unfold sessionContext lookupTOTP
  rw [if_pos rfl, if_neg (by omega)]
  refine wp_reliable_bind.mpr (wp_reliable_lift.mpr (wp_reliable_call.mpr fun m₁ hr _ => ?_))
  have hholds : m₁.shared.db.findTOTP user.id ≠ none := hr.mono user.id hm
  obtain ⟨credential, hcredential⟩ := Option.ne_none_iff_exists'.mp hholds
  dsimp only
  rw [hcredential]
  rfl

/-- **A session of an account with a TOTP credential**, when every call is answered. -/
theorem createSession_recognised (hpositive : 0 < user.id) (hm : Holds user.id m)
    (sessionID ipAddress userAgent redirectURI returnTo : String) (now : Int) :
    Wp recognising TOTPEnrolled i (createSession env sessionID user .password ipAddress userAgent redirectURI
      returnTo now).run.reliable (fun _ _ => True) m := by
  refine wp_reliable_bind.mpr ((sessionContext_recognised hpositive hm).imp fun r m₁ hr => ?_)
  subst hr
  refine wp_reliable_bind.mpr (wp_reliable_call.mpr fun m₂ _ hinv₂ _ => ?_)
  refine ⟨recognised_cons hinv₂ fun row hrow => ?_, .of_totps ?_, wp_reliable_require (fun _ => trivial) fun _ => ?_⟩
  · obtain rfl := Label.createSession.inj hrow
    exact sessionHasOTP_mfa rfl
  · exact createSession_totps _ _ _
  · refine wp_reliable_bind.mpr (wp_reliable_call.mpr fun m₃ _ hinv₃ _ => ?_)
    obtain ⟨hinv, hmono⟩ := beside_kept (l := .saveSession _ _)
      (fun _ h => by cases h) (fun _ => rfl) hinv₃
    exact ⟨hinv, hmono, trivial⟩

theorem completeMFA_recognised (hpositive : 0 < user.id) (hm : Holds user.id m) (sessionID : String)
    (challenge : MFAChallengeEntry) (now : Int) :
    Wp recognising TOTPEnrolled i ((completeMFA env sessionID challenge user now).run.reliableFrom isDelete)
      (fun _ _ => True) m := by
  refine wp_from_send rfl ((holds_lasting user.id).stable i) hm trivial fun m₁ hinv₁ hm₁ _ => ?_
  have hkept : recognising.Kept m₁ (m₁.after i (.deleteMFAChallenge challenge.challengeID) fun w =>
      { w with mfa := Cache.deleteMFAChallenge w.mfa challenge.challengeID }) :=
    beside_kept (fun _ h => by cases h) (fun _ => rfl) hinv₁
  refine ⟨hkept.1, hkept.2, createSession_recognised hpositive ?_ _ _ _ _ _ _⟩
  exact hkept.lasting (holds_lasting user.id) hm₁

theorem parseUserID_pos {text : String} (h : parseUserID text = some userID) : 0 < userID := by
  exact of_decide_eq_true (Option.filter_eq_some_iff.mp h).2

theorem liveChallenge_quiet (now : Int) :
    (liveChallenge id now).run.Acts fun l _ => isDelete l = false := by
  refine .bind_except (.call ?_) fun challenge => .found_then fun challenge => .require_then trivial
  exact ⟨rfl, fun _ => ⟨rfl, fun _ => trivial⟩⟩

theorem liveChallenge_recognised (now : Int)
    {k : MFAChallengeEntry → Service AuthnError AuthenticateResult}
    (hk : ∀ challenge m', ReadChallenge recognising TOTPEnrolled i id challenge m' →
      Wp recognising TOTPEnrolled i ((k challenge).run.reliableFrom isDelete) (fun _ _ => True) m') :
    Wp recognising TOTPEnrolled i ((liveChallenge id now >>= k).run.reliableFrom isDelete)
      (fun _ _ => True) m := by
  refine wp_from_then (liveChallenge_quiet id now) ((liveChallenge_wp recognising_reads id now).imp
      fun r m₁ hr => ?_)
  cases r with
  | error e => trivial
  | ok challenge => exact hk challenge m₁ (hr challenge rfl)

theorem beside_then {α β : Type} {p : Service AuthnError α} {k : α → Service AuthnError β}
    {R : Moment ι World Label → Prop} (hp : p.run.Acts Beside) (hR : recognising.Lasting R) (hm : R m)
    (hk : ∀ a m', R m' → Wp recognising TOTPEnrolled i ((k a).run.reliableFrom isDelete) (fun _ _ => True) m') :
    Wp recognising TOTPEnrolled i ((p >>= k).run.reliableFrom isDelete) (fun _ _ => True) m := by
  refine wp_from_acts hp (fun _ _ h => h.2.1) (hR.stable i) (fun m' l f hl hinv hm' _ => ?_) hm
    (fun _ _ _ => trivial) hk
  exact (beside_kept hl.1 hl.2.2 hinv).done hR hm' fun _ h => h

theorem upsertPasskey_totps (p : PasskeyCredential) :
    (db.upsertPasskey sqlEq p).totps = db.totps := by
  unfold Database.upsertPasskey
  split <;> rfl

/-- **A completion leaves sessions that are recognised.** -/
theorem completion_recognised (call : Completion) :
    Wp recognising TOTPEnrolled i ((call.code env).run.reliableFrom isDelete) (fun _ _ => True) m := by
  have hany : recognising.Stable i fun _ => True := fun _ _ _ _ h => h
  cases call with
  | totp sessionID challengeID code =>
    refine wp_from_clock hany trivial fun m₁ _ _ => liveChallenge_recognised _ _ fun challenge m₂ hm₂ => ?_
    refine wp_from_found (fun _ => trivial) fun userID huserID => ?_
    have hholds := holds_lasting (ι := ι) userID
    have hpositive := parseUserID_pos huserID
    refine wp_from_ask (hholds.stable i) (hm₂.holds (.inl huserID)) (fun _ _ => trivial) fun m₃ _ hm₃ => ?_
    refine wp_from_found (fun _ => trivial) fun user huser => ?_
    obtain rfl := Database.findUser_id huser
    refine beside_then (lookupTOTP_silent _).acts hholds hm₃ fun credential m₄ hm₄ => ?_
    refine wp_from_found (fun _ => trivial) fun credential _ => wp_from_found (fun _ => trivial) fun step _ => ?_
    have hreserve : Beside (.reserveTOTPStepUse challenge.userID totpPurposeLogin step)
        fun w => { w with mfa := (Cache.reserveTOTPStepUse w.mfa w.now challenge.userID totpPurposeLogin
          step totpStepReplayTTL).2 } := ⟨fun _ h => (by cases h), rfl, fun _ => rfl⟩
    refine beside_then (.call ⟨hreserve, fun _ => trivial⟩) hholds hm₄ fun reserved m₅ hm₅ => ?_
    refine wp_from_require (fun _ => trivial) fun _ => ?_
    refine wp_from_first ((completeMFA_recognised hpositive hm₅ _ _ _).imp fun r m₆ _ => ?_)
    cases r with
    | error e => trivial
    | ok result =>
      dsimp only
      split
      · exact .skip (lookupPasskeyCredentialJSON_silent _) fun _ _ => trivial
      · trivial
  | passkey sessionID challengeID responseJSON =>
    refine wp_from_require (fun _ => trivial) fun _ => ?_
    refine wp_from_clock hany trivial fun m₁ _ _ => liveChallenge_recognised _ _ fun challenge m₂ hm₂ => ?_
    refine wp_from_require (fun _ => trivial) fun _ => wp_from_require (fun _ => trivial) fun _ => ?_
    refine wp_from_found (fun _ => trivial) fun userID huserID => ?_
    have hholds := holds_lasting (ι := ι) userID
    have hpositive := parseUserID_pos huserID
    refine wp_from_ask (hholds.stable i) (hm₂.holds (.inr huserID)) (fun _ _ => trivial) fun m₃ _ hm₃ => ?_
    refine wp_from_found (fun _ => trivial) fun user huser => ?_
    obtain rfl := Database.findUser_id huser
    refine wp_from_require (fun _ => trivial) fun _ => ?_
    refine beside_then (lookupPasskeyCredentialJSON_silent _).acts hholds hm₃ fun texts m₄ hm₄ => ?_
    refine wp_from_require (fun _ => trivial) fun _ => wp_from_found (fun _ => trivial) fun login _ => ?_
    refine beside_then ?_ hholds hm₄ fun _ m₅ hm₅ => completeMFA_recognised hpositive hm₅ _ _ _
    refine .whenever (.attempt ⟨⟨fun _ h => (by cases h), rfl, fun w => ?_⟩, fun _ => trivial⟩)
    exact upsertPasskey_totps _ _ _
  | push sessionID challengeID =>
    refine wp_from_clock hany trivial fun m₁ _ _ => liveChallenge_recognised _ _ fun challenge m₂ hm₂ => ?_
    refine wp_from_require (fun _ => trivial) fun _ => wp_from_require (fun _ => trivial) fun _ => ?_
    refine wp_from_found (fun _ => trivial) fun userID huserID => ?_
    have hholds := holds_lasting (ι := ι) userID
    have hpositive := parseUserID_pos huserID
    refine wp_from_ask (hholds.stable i) (hm₂.holds (.inr huserID)) (fun _ _ => trivial) fun m₃ _ hm₃ => ?_
    refine wp_from_found (fun _ => trivial) fun user huser => ?_
    obtain rfl := Database.findUser_id huser
    refine wp_from_require (fun _ => trivial) fun _ => ?_
    exact completeMFA_recognised hpositive hm₃ _ _ _

end Programs

/-! ## The law -/

/-- **Completing a second factor is recognised**, for any number of completions at the same time, if the
account has a TOTP credential when its challenge is read, nobody removes credentials, and the calls of a
completion are answered from the deletion of its challenge on. -/
theorem completions_recognised {ι : Type} [DecidableEq ι] {env : Env} {calls : ι → Completion} {w : World}
    {c : Config ι World Label (Except AuthnError AuthenticateResult)}
    (hrun : Reach KeepsTOTP TOTPEnrolled
      (Config.start w fun i => ((calls i).code env).run.reliableFrom isDelete) c) :
    ∀ x ∈ c.trace, ∀ row, x.label = .createSession row → sessionHasOTP row = true := by
  have hsafe : c.Safe recognising TOTPEnrolled fun _ _ _ => True := by
    refine sound (fun m s' hinv hE => ⟨hinv, hE⟩) (fun _ _ _ _ _ _ h => h) ⟨?_, fun i => ?_⟩ hrun
    · intro x hx
      cases hx
    · exact completion_recognised (calls i)
  exact hsafe.1

/-! ## A login with a passkey -/

def passkeyServer : Env :=
  { Env.plain [] with passkeyEnabled := true, finishLogin := fun _ _ _ _ => some ("k", "j") }

def passkeyChallenge : MFAChallengeHash where
  challengeID := "c"
  userID := "7"
  subject := "u"
  username := "ann"
  ipAddress := ""
  userAgent := ""
  returnTo := ""
  redirectURI := ""
  mfaMode := "passkey_totp_fallback"
  pushStatus := "pending"
  pushCode := ""
  approverUserID := ""
  decidedAt := 0
  passkeySessionJSON := "p"
  expiresAt := 300 * second
  stateMask := 0#32
  stateVer := 1

def passkeyLogin (totps : List TOTPCredential) : World :=
  { World.empty 0 with
    db := { Database.empty with
      users := [⟨7, "u", "ann", "", true, "", "", "", 0#32, "", "active"⟩]
      totps := totps
      passkeys := [⟨7, "k", "j", none⟩] }
    mfa := { MFAStore.empty with hash := Keyspace.empty.put "c" passkeyChallenge none } }

def withPasskey : Action (Except AuthnError AuthenticateResult) :=
  ((Completion.passkey "s" "c" "r").code passkeyServer).run.reliableFrom isDelete

def createdSession {ι α : Type} (c : Config ι World Label α) : Option Session :=
  c.trace.findSome? fun x => match x.label with
    | .createSession row => some row
    | _ => none

theorem createdSession_eq_some {ι α : Type} {c : Config ι World Label α} {row : Session}
    (h : createdSession c = some row) : ∃ x ∈ c.trace, x.label = .createSession row := by
  obtain ⟨x, hx, hrow⟩ := List.exists_of_findSome?_eq_some h
  refine ⟨x, hx, ?_⟩
  split at hrow
  next row' hlabel => rw [hlabel, Option.some.inj hrow]
  next => cases hrow

theorem completions_recognised_passkey :
    ∃ c, Reach KeepsTOTP TOTPEnrolled (Config.start (passkeyLogin [⟨7, "t"⟩]) fun _ : Unit => withPasskey) c ∧
      ∃ x ∈ c.trace, ∃ row, x.label = .createSession row ∧ sessionHasOTP row = true := by
  obtain ⟨c, hrun, hcreated⟩ := exists_played (E := KeepsTOTP) (A := TOTPEnrolled)
    (c := Config.start (passkeyLogin [⟨7, "t"⟩]) fun _ : Unit => withPasskey)
    (P := fun c => (createdSession c).isSome = true)
    [.run (), .run (), .run (), .run (), .run (), .run ()] (by simp [Move.Allowed]) (by decide +kernel)
  obtain ⟨row, hrow⟩ := Option.isSome_iff_exists.mp hcreated
  obtain ⟨x, hx, hlabel⟩ := createdSession_eq_some hrow
  exact ⟨c, hrun, x, hx, row, hlabel,
    @completions_recognised Unit _ _ (fun _ => .passkey "s" "c" "r") _ c hrun x hx row hlabel⟩

/-- **The law fails without the condition.** The user has a passkey and no TOTP credential. The login with
the passkey succeeds, and its session is not recognised. -/
theorem passkeyUnrecognised :
    ∃ c, Reach KeepsTOTP Unrestricted (Config.start (passkeyLogin []) fun _ : Unit => withPasskey) c ∧
      (∃ result, c.procs () = .ret (.ok result)) ∧
      ∃ x ∈ c.trace, ∃ row, x.label = .createSession row ∧ sessionHasOTP row = false := by
  obtain ⟨c, hrun, hanswer, hcreated⟩ := exists_played (E := KeepsTOTP) (A := Unrestricted)
    (c := Config.start (passkeyLogin []) fun _ : Unit => withPasskey)
    (P := fun c => c.procs () = .ret (.ok ⟨"s", 7, "u", "", "", "", false, 0, 3600 * second⟩) ∧
      (createdSession c).map sessionHasOTP = some false)
    [.run (), .run (), .run (), .run (), .run (), .run (), .run ()] (by simp [Move.Allowed])
    (by decide +kernel)
  obtain ⟨row, hrow, hunrecognised⟩ := Option.map_eq_some_iff.mp hcreated
  obtain ⟨x, hx, hlabel⟩ := createdSession_eq_some hrow
  exact ⟨c, hrun, ⟨_, hanswer⟩, x, hx, row, hlabel, hunrecognised⟩

end IdpServer.Laws.Authn
