import IdpServer.Conc.Reliable
import IdpServer.Laws.Authn.Entering

/-!
# Laws.Authn.FailedLogins — a login that fails leaves no session

If the cache refuses a session the login fails, and the row stays (`sessionLeftBehind`).
`failed_logins_leave_nothing` is the law when calls are answered from the insert on.
-/

namespace IdpServer.Laws.Authn

open Conc IdpServer.Cache Store Go IdpServer.Authn
open Laws.Mfa (lookupTOTP_silent lookupPasskeyCredentialJSON_silent sessionContext_silent)

/-! ## Logins that fail -/

/-- `Authenticate` has returned an error other than that a second factor has to be enrolled. -/
def refuses : Except AuthnError LoginOutcome → Bool
  | .error _ => true
  | .ok (.mfaRequired _) => true
  | .ok _ => false

def Login.fails (env : Env) : Login → Action Bool
  | .authenticate draws answer input => do return refuses (← (Authn.authenticate env draws answer input).run)
  | .verifyTOTP sessionID challengeID code => do
      return !(← (Authn.verifyTOTP env sessionID challengeID code).run).isOk
  | .verifyMFAPasskey sessionID challengeID responseJSON => do
      return !(← (Authn.verifyMFAPasskey env sessionID challengeID responseJSON).run).isOk
  | .finalizeMFAPush sessionID challengeID => do
      return !(← (Authn.finalizeMFAPush env sessionID challengeID).run).isOk

def isInsert : Label → Bool
  | .createSession _ => true
  | _ => false

section Inserts

variable {ι : Type} [DecidableEq ι]

def NothingInserted (env : Env) (i : ι) (m : Moment ι World Label) : Prop :=
  ∀ x ∈ m.own i, ∀ row, x.label = .createSession row → (x.before.db.createSession env.sqlEq row).1 = false

def Untried (i : ι) (m : Moment ι World Label) : Prop := m.reached isInsert i = false

variable {env : Env} {i : ι} {m : Moment ι World Label}

theorem nothingInserted_of_untried (h : Untried i m) : NothingInserted env i m := by
  intro x hx row hrow
  have hnot := List.any_eq_false.mp h x hx
  rw [hrow] at hnot
  exact absurd rfl hnot

variable {l : Label} {f : World → World} {ε α : Type} {r : Except ε α}

theorem Entering.notInsert (h : Entering env l f) : isInsert l = false := by
  cases h <;> rfl

theorem Sundry.notInsert (h : Sundry env l f) : isInsert l = false := by
  cases h with
  | limit l hl g => cases l <;> first | rfl | cases hl
  | _ => rfl

/-! ## What the parts leave -/

/-- What is owed of a part: if it fails nothing is inserted, and otherwise the insert was sent. -/
def Leaving {ε α : Type} (env : Env) (i : ι) (r : Except ε α) (m : Moment ι World Label) : Prop :=
  match r with
  | .ok _ => m.reached isInsert i = true
  | .error _ => NothingInserted env i m

variable {A : Moment ι World Label → ι → Label → Prop}

/-- **The session**: refused by the database, or inserted and then answered for. -/
theorem createSession_leaving (hm : Untried i m) (sessionID : String) (user : User)
    (method : AuthnMethodType) (ipAddress userAgent redirectURI returnTo : String) (now : Int) :
    Wp (.free ι World Label) A i ((createSession env sessionID user method ipAddress userAgent redirectURI returnTo
      now).run.reliableFrom isInsert) (Leaving env i) m := by
  refine wp_from_before (sessionContext_silent user method).acts hm (fun _ _ h => nothingInserted_of_untried h)
    fun context m₁ hm₁ => ?_
  refine wp_from_send rfl (unreached_stable isInsert i) hm₁ (nothingInserted_of_untried hm₁)
    fun m₂ _ hm₂ _ => ⟨trivial, trivial, ?_⟩
  refine wp_reliable_require (fun hrefused => ?_) fun _ => ?_
  · intro x hx row hrow
    rw [Moment.own_after_self] at hx
    rcases List.mem_cons.mp hx with rfl | hx
    · obtain rfl := Label.createSession.inj hrow
      simpa using hrefused
    · exact nothingInserted_of_untried hm₂ x hx row hrow
  · refine wp_reliable_bind.mpr (wp_reliable_call.mpr fun m₃ hr _ _ => ⟨trivial, trivial, ?_⟩)
    show Moment.reached isInsert i _ = true
    rw [Moment.reached_after, Moment.reached, hr.own, ← Moment.reached, Moment.reached_after]
    rfl

theorem completeMFA_leaving (hm : Untried i m) (sessionID : String) (challenge : MFAChallengeEntry)
    (user : User) (now : Int) :
    Wp (.free ι World Label) A i ((completeMFA env sessionID challenge user now).run.reliableFrom isInsert)
      (Leaving env i) m :=
  wp_from_before (.call ⟨rfl, fun _ => trivial⟩) hm (fun _ _ h => nothingInserted_of_untried h)
    fun _ _ hm₁ => createSession_leaving hm₁ _ _ _ _ _ _ _ _

def Failing {ε α : Type} (env : Env) (i : ι) (r : Except ε α) (m : Moment ι World Label) : Prop :=
  ∀ e, r = .error e → NothingInserted env i m

theorem Leaving.failing (h : Leaving env i r m) : Failing env i r m := by
  rintro e rfl
  exact h

theorem failing_of_untried (h : Untried i m) : Failing env i r m :=
  fun _ _ => nothingInserted_of_untried h

/-! ## The calls -/

theorem liveChallenge_untried (env : Env) (id : String) (now : Int) :
    (liveChallenge id now).run.Acts fun l _ => isInsert l = false :=
  (liveChallenge_entering id now).imp fun _ _ (h : Entering env _ _) => h.notInsert

theorem lookupPasskeyCredentialJSON_answered (userID : Int) :
    Wp (.free ι World Label) A i (lookupPasskeyCredentialJSON userID).run.reliable (fun r _ => r.isOk = true) m := by
  unfold lookupPasskeyCredentialJSON
  split
  · rfl
  · exact fun _ _ _ => rfl

theorem verifyTOTP_failing (hm : Untried i m) (sessionID challengeID code : String) :
    Wp (.free ι World Label) A i ((Authn.verifyTOTP env sessionID challengeID code).run.reliableFrom isInsert)
      (Failing env i) m := by
  have hstable := unreached_stable (D := .free ι World Label) isInsert i
  have herr : ∀ (e : AuthnError) m', Untried i m' → Failing (α := AuthenticateResult) env i (.error e) m' :=
    fun _ _ h => failing_of_untried h
  refine wp_from_clock hstable hm fun m₁ _ hm₁ => ?_
  refine wp_from_before (liveChallenge_untried env _ _) hm₁ herr fun challenge m₂ hm₂ => ?_
  refine wp_from_found (fun _ => herr _ _ hm₂) fun userID _ => ?_
  refine wp_from_ask hstable hm₂ (herr _) fun m₃ _ hm₃ => wp_from_found (fun _ => herr _ _ hm₃) fun user _ => ?_
  refine wp_from_before (lookupTOTP_silent _).acts hm₃ herr fun credential m₄ hm₄ => ?_
  refine wp_from_found (fun _ => herr _ _ hm₄) fun credential _ => ?_
  refine wp_from_found (fun _ => herr _ _ hm₄) fun step _ => ?_
  refine wp_from_before (.call ⟨rfl, fun _ => trivial⟩) hm₄ herr fun reserved m₅ hm₅ => ?_
  refine wp_from_require (fun _ => herr _ _ hm₅) fun _ => ?_
  refine wp_from_bind hm₅ ((completeMFA_leaving hm₅ _ _ _ _).imp fun r m₆ hr => ?_)
  cases r with
  | error e => exact hr.failing
  | ok result =>
    -- the session is there, and the look at the passkeys is answered
    change m₆.reached isInsert i = true at hr
    simp only [if_pos hr]
    split
    · refine wp_reliable_bind.mpr ((lookupPasskeyCredentialJSON_answered _).imp fun r m₇ hok => ?_)
      cases r with
      | error e => cases hok
      | ok texts => exact fun _ h => by cases h
    · exact fun _ h => by cases h

theorem verifyMFAPasskey_failing (hm : Untried i m) (sessionID challengeID responseJSON : String) :
    Wp (.free ι World Label) A i ((Authn.verifyMFAPasskey env sessionID challengeID responseJSON).run.reliableFrom isInsert)
      (Failing env i) m := by
  have hstable := unreached_stable (D := .free ι World Label) isInsert i
  have herr : ∀ (e : AuthnError) m', Untried i m' → Failing (α := AuthenticateResult) env i (.error e) m' :=
    fun _ _ h => failing_of_untried h
  refine wp_from_require (fun _ => herr _ _ hm) fun _ => wp_from_clock hstable hm fun m₁ _ hm₁ => ?_
  refine wp_from_before (liveChallenge_untried env _ _) hm₁ herr fun challenge m₂ hm₂ => ?_
  refine wp_from_require (fun _ => herr _ _ hm₂) fun _ => wp_from_require (fun _ => herr _ _ hm₂) fun _ => ?_
  refine wp_from_found (fun _ => herr _ _ hm₂) fun userID _ => ?_
  refine wp_from_ask hstable hm₂ (herr _) fun m₃ _ hm₃ => wp_from_found (fun _ => herr _ _ hm₃) fun user _ => ?_
  refine wp_from_require (fun _ => herr _ _ hm₃) fun _ => ?_
  refine wp_from_before (lookupPasskeyCredentialJSON_silent _).acts hm₃ herr fun texts m₄ hm₄ => ?_
  refine wp_from_require (fun _ => herr _ _ hm₄) fun _ => wp_from_found (fun _ => herr _ _ hm₄) fun login _ => ?_
  refine wp_from_before ((updatePasskey_acts _ _ _ _).imp fun _ _ h => h.notInsert) hm₄ herr fun _ m₅ hm₅ => ?_
  exact (completeMFA_leaving hm₅ _ _ _ _).imp fun _ _ hr => hr.failing

theorem finalizeMFAPush_failing (hm : Untried i m) (sessionID challengeID : String) :
    Wp (.free ι World Label) A i ((Authn.finalizeMFAPush env sessionID challengeID).run.reliableFrom isInsert)
      (Failing env i) m := by
  have hstable := unreached_stable (D := .free ι World Label) isInsert i
  have herr : ∀ (e : AuthnError) m', Untried i m' → Failing (α := AuthenticateResult) env i (.error e) m' :=
    fun _ _ h => failing_of_untried h
  refine wp_from_clock hstable hm fun m₁ _ hm₁ => ?_
  refine wp_from_before (liveChallenge_untried env _ _) hm₁ herr fun challenge m₂ hm₂ => ?_
  refine wp_from_require (fun _ => herr _ _ hm₂) fun _ => wp_from_require (fun _ => herr _ _ hm₂) fun _ => ?_
  refine wp_from_found (fun _ => herr _ _ hm₂) fun userID _ => ?_
  refine wp_from_ask hstable hm₂ (herr _) fun m₃ _ hm₃ => wp_from_found (fun _ => herr _ _ hm₃) fun user _ => ?_
  refine wp_from_require (fun _ => herr _ _ hm₃) fun _ => ?_
  exact (completeMFA_leaving hm₃ _ _ _ _).imp fun _ _ hr => hr.failing

def Refusing (env : Env) (i : ι) (r : Except AuthnError LoginOutcome) (m : Moment ι World Label) : Prop :=
  refuses r = true → NothingInserted env i m

theorem refusing_of_untried {r : Except AuthnError LoginOutcome} (h : Untried i m) : Refusing env i r m :=
  fun _ => nothingInserted_of_untried h

theorem sessionLogin_refusing (hm : Untried i m) (draws : LoginDraws) (input : AuthenticateInput)
    (user : User) (method : AuthnMethodType) (redirectURI : String) (now : Int)
    {k : AuthenticateResult → Service AuthnError LoginOutcome}
    (hk : ∀ result, ∃ outcome, (k result).run = .ret (.ok outcome) ∧ refuses (.ok outcome) = false) :
    Wp (.free ι World Label) A i ((sessionLogin env draws input user method redirectURI now >>= k).run.reliableFrom isInsert)
      (Refusing env i) m := by
  refine wp_from_first ((createSession_leaving hm _ _ _ _ _ _ _ _).imp fun r m₁ hr => ?_)
  cases r with
  | error e => exact fun _ => hr
  | ok result =>
    obtain ⟨outcome, hrun, hkept⟩ := hk result
    dsimp only
    rw [hrun]
    intro hrefused
    rw [hkept] at hrefused
    cases hrefused

theorem enter_refusing (hm : Untried i m) (draws : LoginDraws) (input : AuthenticateInput)
    (method : AuthnMethodType) (user : User) (redirectURI : String) :
    Wp (.free ι World Label) A i ((enter env draws input method user redirectURI).run.reliableFrom isInsert)
      (Refusing env i) m := by
  have herr : ∀ (e : AuthnError) m', Untried i m' → Refusing env i (.error e) m' :=
    fun _ _ h => refusing_of_untried h
  refine wp_from_require (fun _ => refusing_of_untried hm) fun _ => ?_
  refine wp_from_require (fun _ => refusing_of_untried hm) fun _ => ?_
  refine wp_from_clock (unreached_stable isInsert i) hm fun m₁ _ hm₁ => ?_
  cases method with
  | federatedOIDC => exact sessionLogin_refusing hm₁ _ _ _ _ _ _ fun result => ⟨_, rfl, rfl⟩
  | password =>
    refine wp_from_before ((resetPasswordRateLimit_entering _ _).imp fun _ _ (h : Entering env _ _) =>
      h.notInsert) hm₁ herr fun _ m₂ hm₂ => ?_
    refine wp_from_before (lookupTOTP_silent _).acts hm₂ herr fun credential m₃ hm₃ => ?_
    refine wp_from_before (lookupPasskeyCredentialJSON_silent _).acts hm₃ herr fun texts m₄ hm₄ => ?_
    dsimp only
    split
    · refine Wp.reliableFrom (Wp.of_acts (challengeLogin_entering _ _ _ _ _) (unreached_stable isInsert i)
        (fun _ _ _ hl _ hm _ => ⟨trivial, trivial, unreached_after hm hl.notInsert⟩) hm₄ |>.imp ?_)
      exact fun _ _ h => refusing_of_untried h
    · refine sessionLogin_refusing hm₄ _ _ _ _ _ _ fun result => ?_
      split
      · exact ⟨_, rfl, rfl⟩
      · exact ⟨_, rfl, rfl⟩

theorem firstFactor_untried (answer : Except AuthnError ConnectorResult) (input : AuthenticateInput)
    (method : AuthnMethodType) :
    (firstFactor env answer input method).run.Acts fun l _ => isInsert l = false := by
  cases method with
  | federatedOIDC => cases answer <;> trivial
  | password =>
    refine .bind_except (preparePasswordAuthentication_silent _ _).acts fun user => ?_
    refine .bind_except (.lift ((passwordMethod_entering _ _ _).imp fun _ _ h => h.notInsert)) fun result => ?_
    split
    · trivial
    · exact .bind_except ((registerPasswordFailure_acts _ _ _).imp fun _ _ h => h.notInsert) fun _ => trivial
    · trivial

theorem authenticate_refusing (hm : Untried i m) (draws : LoginDraws)
    (answer : Except AuthnError ConnectorResult) (input : AuthenticateInput) :
    Wp (.free ι World Label) A i ((Authn.authenticate env draws answer input).run.reliableFrom isInsert)
      (Refusing env i) m := by
  have herr : ∀ (e : AuthnError) m', Untried i m' → Refusing env i (.error e) m' :=
    fun _ _ h => refusing_of_untried h
  refine wp_from_found (fun _ => refusing_of_untried hm) fun method _ => ?_
  refine wp_from_before (firstFactor_untried _ _ _) hm herr fun result m₁ hm₁ => ?_
  split
  · exact refusing_of_untried hm₁
  · refine wp_from_require (fun _ => refusing_of_untried hm₁) fun _ => ?_
    refine wp_from_before ((resolveUser_entering _ _ _).imp fun _ _ h => h.notInsert) hm₁ herr fun found m₂ hm₂ => ?_
    exact wp_from_found (fun _ => refusing_of_untried hm₂) fun user _ => enter_refusing hm₂ _ _ _ _ _

/-- **A login that fails has inserted nothing.** -/
theorem login_failing (hm : Untried i m) (call : Login) :
    Wp (.free ι World Label) A i ((call.fails env).reliableFrom isInsert)
      (fun failed m' => failed = true → NothingInserted env i m') m := by
  have hcompletion : ∀ p : Service AuthnError AuthenticateResult,
      Wp (.free ι World Label) A i (p.run.reliableFrom isInsert) (Failing env i) m →
      Wp (.free ι World Label) A i ((p.run.bind fun r => .ret !r.isOk).reliableFrom isInsert)
        (fun failed m' => failed = true → NothingInserted env i m') m := by
    intro p hp
    refine wp_from_bind_prog hm (hp.imp fun r m' hr => ?_)
    have hdone : (!r.isOk) = true → NothingInserted env i m' := by
      cases r with
      | error e => exact fun _ => hr e rfl
      | ok result => exact fun h => by cases h
    split <;> exact hdone
  cases call with
  | authenticate draws answer input =>
    refine wp_from_bind_prog hm ((authenticate_refusing hm draws answer input).imp fun r m' hr => ?_)
    split <;> exact hr
  | verifyTOTP sessionID challengeID code => exact hcompletion _ (verifyTOTP_failing hm _ _ _)
  | verifyMFAPasskey sessionID challengeID responseJSON => exact hcompletion _ (verifyMFAPasskey_failing hm _ _ _)
  | finalizeMFAPush sessionID challengeID => exact hcompletion _ (finalizeMFAPush_failing hm _ _)

end Inserts

/-! ## The law -/

theorem createSession_refused {db : Database} {sqlEq : String → String → Bool} {row : Session}
    (h : (db.createSession sqlEq row).1 = false) : db.createSession sqlEq row = (false, db) := by
  unfold Database.createSession at h ⊢
  split
  · rfl
  next hfree =>
    rw [if_neg hfree] at h
    cases h

/-- **A failed login creates no session**, for any number of logins at the same time, whatever else happens
and wherever calls fail, if the calls of a login are answered from the insert of its session on. -/
theorem failed_logins_leave_nothing {ι : Type} [DecidableEq ι] {env : Env} {calls : ι → Login} {w : World}
    {c : Config ι World Label Bool}
    (hrun : Reach (fun _ _ => True) Unrestricted
      (Config.start w fun i => ((calls i).fails env).reliableFrom isInsert) c)
    {i : ι} (hfailed : c.procs i = .ret true) :
    ∀ x ∈ c.trace, x.pid = i → ∀ row, x.label = .createSession row →
      x.before.db.createSession env.sqlEq row = (false, x.before.db) := by
  have hsafe : c.Safe (.free ι World Label) Unrestricted fun i failed m => failed = true → NothingInserted env i m := by
    refine sound (fun _ _ _ _ => ⟨trivial, trivial⟩) (fun i failed m m' hr _ h hf => ?_)
      ⟨trivial, fun i => login_failing ?_ (calls i)⟩ hrun
    · intro x hx
      rw [hr.own] at hx
      exact h hf x hx
    · rfl
  intro x hx hpid row hrow
  refine createSession_refused (hsafe.returned hfailed rfl x ?_ row hrow)
  exact List.mem_filter.mpr ⟨hx, by simpa using hpid⟩

/-! ## A cache that fails -/

def finishing : Action Bool := (Login.finalizeMFAPush "s1" "c1").fails (.plain [])

def taken : World :=
  let user : User := ⟨8, "sub-8", "bob", "bob@example", true, "Bob", "", "user", 0#32, "", "active"⟩
  { Mfa.approved with db := { Mfa.approved.db with
      sessions := [sessionModel (.plain []) "s1" user (sessionAuthContext .password) "" "" 0] } }

theorem eq_createSession_of_isInsert {l : Label} (h : isInsert l = true) : ∃ row, l = .createSession row := by
  cases l with
  | createSession row => exact ⟨row, rfl⟩
  | _ => cases h

theorem failed_logins_leave_nothing_taken :
    ∃ c, Reach (fun _ _ => True) Unrestricted
        (Config.start taken fun _ : Unit => finishing.reliableFrom isInsert) c ∧
      c.procs () = .ret true ∧ ∃ x ∈ c.trace, ∃ row, x.label = .createSession row ∧
        x.before.db.createSession (Env.plain []).sqlEq row = (false, x.before.db) := by
  obtain ⟨c, hrun, hanswer, hsent⟩ := exists_played (E := fun _ _ => True) (A := Unrestricted)
    (c := Config.start taken fun _ : Unit => finishing.reliableFrom isInsert)
    (P := fun c => c.procs () = .ret true ∧ c.trace.any (isInsert ·.label) = true)
    [.run (), .run (), .run (), .run (), .run ()] (by simp [Move.Allowed]) (by decide +kernel)
  obtain ⟨x, hx, hinsert⟩ := List.any_eq_true.mp hsent
  obtain ⟨row, hrow⟩ := eq_createSession_of_isInsert hinsert
  refine ⟨c, hrun, hanswer, x, hx, row, hrow, ?_⟩
  exact @failed_logins_leave_nothing Unit _ (.plain []) (fun _ => .finalizeMFAPush "s1" "c1") taken c hrun ()
    hanswer x hx rfl row hrow

/-- **The law fails without the condition.** The session is inserted and the cache cannot be written: the
login fails, and its session stays. -/
theorem sessionLeftBehind :
    ∃ c, Reach (fun _ _ => True) Unrestricted (Config.start Mfa.approved fun _ : Unit => finishing) c ∧
      c.procs () = .ret true ∧ Mfa.approved.db.sessions = [] ∧
      ∃ row ∈ c.shared.db.sessions, row.userID = 7 ∧ row.loggedOutAt = none := by
  obtain ⟨c, hrun, hanswer, hleft⟩ := exists_played (E := fun _ _ => True) (A := Unrestricted)
    (c := Config.start Mfa.approved fun _ : Unit => finishing)
    (P := fun c => c.procs () = .ret true ∧
      ∃ row ∈ c.shared.db.sessions, row.userID = 7 ∧ row.loggedOutAt = none)
    [.run (), .run (), .run (), .run (), .pick () true, .pick () false] (by simp [Move.Allowed])
    (by decide +kernel)
  exact ⟨c, hrun, hanswer, rfl, hleft⟩

end IdpServer.Laws.Authn
