import IdpServer.Conc.Lasting
import IdpServer.Laws.Enrolment.Commands

/-!
# Laws.Enrolment.Secrets — an enrolled secret is not replaced

`BeginSetup` refuses a user who has a credential; `ConfirmSetup` does not look again (`secretReplaced`).
`enrolledSecret_stays` is the law when a credential is written for a user who has none.
-/

namespace IdpServer.Laws.Enrolment

open Conc IdpServer.Cache Store Go IdpServer.Enrolment

variable {ι : Type}

/-! ## Calls -/

/-- A call of the TOTP service, with what is drawn for it. -/
inductive SetupCall where
  | beginSetup (secret sessionID : String)
  | confirmSetup (challengeID sessionID code returnTo : String)
  deriving DecidableEq, Repr

/-- What a call returned: of `BeginSetup`, or of `ConfirmSetup`. -/
abbrev SetupReply := SetupResult ⊕ ConfirmResult

def SetupCall.code (env : Env) : SetupCall → Service EnrolmentError SetupReply
  | .beginSetup secret sessionID => Sum.inl <$> beginTOTPSetup env secret sessionID
  | .confirmSetup challengeID sessionID code returnTo =>
    Sum.inr <$> confirmTOTPSetup env challengeID sessionID code returnTo

/-- **The condition**: a credential is written for a user who has none yet. -/
def NotEnrolled (m : Moment ι World Label) (_ : ι) : Label → Prop
  | .upsertTOTP t => m.shared.db.findTOTP t.userID = none
  | _ => True

instance (m : Moment ι World Label) (i : ι) (l : Label) : Decidable (NotEnrolled m i l) := by
  induction l using Label.casesOn <;> dsimp only [NotEnrolled] <;> infer_instance

/-- What else may go on: everything that leaves the TOTP credentials alone. -/
def KeepsTOTP (w w' : World) : Prop := w'.db.totps = w.db.totps

/-! ## The discipline -/

def enrolled (ι : Type) : Discipline ι World Label where
  inv _ := True
  mono m m' := ∀ t, m.shared.db.findTOTP t.userID = some t → m'.shared.db.findTOTP t.userID = some t
  mono_refl _ _ h := h
  mono_trans h h' t ht := h' t (h t ht)

theorem enrolled_admits : (enrolled ι).Admits KeepsTOTP := by
  intro m s _ hE
  refine ⟨trivial, fun t ht => ?_⟩
  rw [Database.findTOTP, hE]
  exact ht

/-- A confirmed setup stored this credential, and it is there. -/
def Stored (i : ι) (t : TOTPCredential) (m : Moment ι World Label) : Prop :=
  (∃ x ∈ m.trace, x.pid = i ∧ x.label = .upsertTOTP t) ∧ m.shared.db.findTOTP t.userID = some t

theorem stored_lasting (i : ι) (t : TOTPCredential) : (enrolled ι).Lasting (Stored i t) := by
  rintro m m' h ⟨⟨x, hx, hrest⟩, ht⟩
  exact ⟨⟨x, h.suffix.subset hx, hrest⟩, h.mono t ht⟩

variable {env : Env} {saves : MFAChallengeEntry → Prop} {i : ι} {m : Moment ι World Label}

theorem upsert_enrolled {t : TOTPCredential} (hnone : m.shared.db.findTOTP t.userID = none) :
    (enrolled ι).Kept m (m.after i (.upsertTOTP t) fun w => { w with db := w.db.upsertTOTP t }) := by
  refine ⟨trivial, fun t' ht' => ?_⟩
  have hne : t.userID ≠ t'.userID := fun h => by
    rw [h, ht'] at hnone
    cases hnone
  exact (Database.findTOTP_upsertTOTP_of_ne hne).trans ht'

theorem enrolling_enrolled {l : Label} {f : World → World} (hl : Enrolling env saves l f)
    (ha : NotEnrolled m i l) : (enrolled ι).Kept m (m.after i l f) := by
  cases hl with
  | upsertTOTP t => exact upsert_enrolled ha
  | _ => exact ⟨trivial, fun t ht => ht⟩

/-! ## The calls -/

variable [DecidableEq ι]

def Enrolled (i : ι) (reply : SetupReply) (m : Moment ι World Label) : Prop :=
  ∀ result, reply = .inr result → ∃ t, Stored i t m

theorem confirmTOTPSetup_wp (challengeID sessionID code returnTo : String) :
    Wp (enrolled ι) NotEnrolled i (confirmTOTPSetup env challengeID sessionID code returnTo).run
      (Gives fun _ m' => ∃ t, Stored i t m') m := by
  have hany : (enrolled ι).Stable i fun _ => True := fun _ _ _ _ h => h
  refine .skip (loadMFAUser_silent _) fun user m₁ => ?_
  refine .clock fun m₂ _ => wp_ask hany trivial (fun _ _ => gives_error) ?_
  intro m₃ _ _
  refine .found fun entry _ => .require fun _ => ?_
  refine .require fun _ => .found fun step _ => ?_
  refine .send hany trivial fun m₄ _ _ _ => ⟨trivial, fun _ h => h, ?_⟩
  refine .require fun _ => ?_
  refine .send hany trivial fun m₅ _ _ ha => ?_
  have hkept := upsert_enrolled (i := i) ha
  have hstored : Stored i ⟨user.userID, entry.secret⟩ (m₅.after i (.upsertTOTP ⟨user.userID, entry.secret⟩)
      fun w => { w with db := w.db.upsertTOTP ⟨user.userID, entry.secret⟩ }) :=
    ⟨⟨_, List.mem_cons_self, rfl, rfl⟩, Database.findTOTP_upsertTOTP_self _ _⟩
  refine ⟨trivial, hkept.2, ?_⟩
  -- what follows leaves the credentials alone
  have hlasting := stored_lasting i ⟨user.userID, entry.secret⟩
  refine (wp_last (C := Enrolling env (LoginChallenge challengeID)) ?_
    (fun _ _ _ hl _ ha => enrolling_enrolled hl ha) hlasting hstored).imp fun r m₆ hm₆ => ?_
  · refine .send (.deleteTOTPEnrollment _) fun _ => ?_
    cases nonblank returnTo with
    | none => trivial
    | some returnTo => exact challengeAgain_acts _ _ _ _
  · exact fun _ _ => ⟨_, hm₆⟩

theorem setupCall_wp (call : SetupCall) :
    Wp (enrolled ι) NotEnrolled i (call.code env).run (Gives (Enrolled i)) m := by
  cases call with
  | beginSetup secret sessionID =>
    refine .last (C := Enrolling env fun _ => True) (beginTOTPSetup_acts secret sessionID)
      (fun _ _ _ hl _ ha => enrolling_enrolled hl ha) ((enrolled ι).lasting_const True) trivial fun result m₁ _ => ?_
    rintro _ ⟨⟩ _ ⟨⟩
  | confirmSetup challengeID sessionID code returnTo =>
    refine .bind (confirmTOTPSetup_wp challengeID sessionID code returnTo) fun result m₁ hr => ?_
    rintro _ ⟨⟩ _ _
    exact hr

/-! ## The law -/

/-- **An enrolled secret stays.** Any number of setups are begun and confirmed among each other, and each
credential is written for a user who has none. Then the credential of a successful confirmation is there
ever after. -/
theorem enrolledSecret_stays (env : Env) (calls : ι → SetupCall) {w : World}
    {c : Config ι World Label (Except EnrolmentError SetupReply)}
    (hrun : Reach KeepsTOTP NotEnrolled (Config.start w fun i => ((calls i).code env).run) c)
    {i : ι} {result : ConfirmResult} (hret : c.procs i = .ret (.ok (.inr result))) :
    ∃ t, (∃ x ∈ c.trace, x.pid = i ∧ x.label = .upsertTOTP t) ∧
      ∀ c', Reach KeepsTOTP NotEnrolled c c' → c'.shared.db.findTOTP t.userID = some t := by
  have hkeeps : (enrolled ι).Keeps fun i => Gives (α := SetupReply) (ε := EnrolmentError) (Enrolled i) := by
    intro j a m m' h _ ha reply hreply result hresult
    obtain ⟨t, ht⟩ := ha reply hreply result hresult
    exact ⟨t, stored_lasting j t _ _ ⟨h.mono, h.suffix⟩ ht⟩
  have hsafe := sound (A := NotEnrolled) enrolled_admits hkeeps
    ⟨trivial, fun i => setupCall_wp (calls i)⟩ hrun
  obtain ⟨t, hstored, ht⟩ := hsafe.returned hret _ rfl result rfl
  exact ⟨t, hstored, fun c' hrun' => hsafe.mono enrolled_admits hkeeps hrun' t ht⟩

/-! ## Two sessions -/

/-- A user with two sessions and no second factor. -/
def twoSessions : World :=
  let session (id : Int) (sessionID : String) : Session :=
    ⟨id, sessionID, 7, "sub-7", "urn:idp:acr:pwd", "[\"pwd\"]", "", "", 0, 3600 * second, none⟩
  { World.empty 0 with
    db := { Database.empty with
      users := [⟨7, "sub-7", "ada", "ada", true, "ada", "", "user", 0#32, "", "active"⟩]
      sessions := [session 1 "s1", session 2 "s2"] } }

def setsUp : Bool × Bool → SetupCall
  | (false, false) => .beginSetup "first" "s1"
  | (false, true) => .confirmSetup "c1" "s1" "first" ""
  | (true, false) => .beginSetup "second" "s2"
  | (true, true) => .confirmSetup "c2" "s2" "second" ""

def settingUp : Config (Bool × Bool) World Label (Except EnrolmentError SetupReply) :=
  Config.start twoSessions fun i => ((setsUp i).code (.plain [])).run

theorem enrolledSecret_stays_first :
    ∃ c, Reach KeepsTOTP NotEnrolled settingUp c ∧
      c.procs (false, true) = .ret (.ok (.inr { enabled := true })) ∧
      c.procs (true, false) = .ret (.ok (.inl .alreadyEnabled)) ∧
      ∃ t, (∃ x ∈ c.trace, x.pid = (false, true) ∧ x.label = .upsertTOTP t) ∧
        ∀ c', Reach KeepsTOTP NotEnrolled c c' → c'.shared.db.findTOTP t.userID = some t := by
  obtain ⟨c, hrun, hfirst, hsecond⟩ := exists_played (E := KeepsTOTP) (A := NotEnrolled)
    (c := settingUp)
    (P := fun c => c.procs (false, true) = .ret (.ok (.inr { enabled := true })) ∧
      c.procs (true, false) = .ret (.ok (.inl .alreadyEnabled)))
    [.run (false, false), .run (false, true), .run (false, true), .run (false, true),
      .run (false, true), .run (true, false)]
    (by simp [Move.Allowed]) (by decide +kernel)
  refine ⟨c, hrun, hfirst, hsecond, ?_⟩
  exact enrolledSecret_stays (.plain []) setsUp hrun hfirst

def secondConfirms : List (Move (Bool × Bool) World) :=
  [.env (World.later 60000000000), .run (true, true), .run (true, true), .run (true, true),
    .run (true, true)]

/-- **The law fails without the condition.** Both sessions begin a setup before one is confirmed. The second
confirmation replaces the enrolled secret. -/
theorem secretReplaced :
    ∃ c, Reach KeepsTOTP Unrestricted settingUp c ∧
      c.procs (false, true) = .ret (.ok (.inr { enabled := true })) ∧
      c.shared.db.findTOTP 7 = some ⟨7, "first"⟩ ∧
      ∃ c', Reach KeepsTOTP Unrestricted c c' ∧
        c'.procs (true, true) = .ret (.ok (.inr { enabled := true })) ∧
        c'.shared.db.findTOTP 7 = some ⟨7, "second"⟩ := by
  obtain ⟨c, hrun, hfirst, henrolled, hnext⟩ := exists_played (E := KeepsTOTP) (A := Unrestricted)
    (c := settingUp)
    (P := fun c => c.procs (false, true) = .ret (.ok (.inr { enabled := true })) ∧
      c.shared.db.findTOTP 7 = some ⟨7, "first"⟩ ∧
      (c.play Unrestricted secondConfirms).any (fun c' =>
        decide (c'.procs (true, true) = .ret (.ok (.inr { enabled := true })) ∧
          c'.shared.db.findTOTP 7 = some ⟨7, "second"⟩)) = true)
    [.run (false, false), .run (true, false), .run (false, true), .run (false, true),
      .run (false, true), .run (false, true)]
    (by simp [Move.Allowed]) (by decide +kernel)
  obtain ⟨c', hrun', hsecond, hreplaced⟩ := exists_played (E := KeepsTOTP) secondConfirms
    (by simp [secondConfirms, Move.Allowed, World.later, KeepsTOTP]) hnext
  exact ⟨c, hrun, hfirst, henrolled, c', hrun', hsecond, hreplaced⟩

end IdpServer.Laws.Enrolment
