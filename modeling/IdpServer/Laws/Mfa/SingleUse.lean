import IdpServer.Authn.Service
import IdpServer.Laws.Mfa.Locking

/-!
# Laws.Mfa.SingleUse — a challenge is worth one session

The completions read the challenge, check a factor, delete it and create a session, so there may be **two
sessions** (`twoSessions`). `singleUse` is the law when each deletion finds the challenge.
-/

namespace IdpServer.Laws.Mfa

open Conc IdpServer.Cache Store Go IdpServer.Authn

/-! ## Completions -/

inductive Completion where
  | verifyTOTP (code : String)
  | verifyMFAPasskey (responseJSON : String)
  | finalizeMFAPush

def Completion.code (env : Env) (sessionID challengeID : String) :
    Completion → Service AuthnError AuthenticateResult
  | .verifyTOTP code => Authn.verifyTOTP env sessionID challengeID code
  | .verifyMFAPasskey responseJSON => Authn.verifyMFAPasskey env sessionID challengeID responseJSON
  | .finalizeMFAPush => Authn.finalizeMFAPush env sessionID challengeID

variable {ι : Type} {env : Env} {id : String}

def created (env : Env) (x : Event ι World Label) : Bool :=
  match x.label with
  | .createSession s => (x.before.db.createSession env.sqlEq s).1
  | _ => false

def sessionsCreated (env : Env) (t : List (Event ι World Label)) : Nat := t.countP (created env)

def consumed (id : String) (x : Event ι World Label) : Bool := x.label = .deleteMFAChallenge id

def Gone (id : String) (w : World) : Prop := w.mfa.hmget w.now id = none

instance (w : World) : Decidable (Gone id w) := by unfold Gone; infer_instance

def Named (id : String) (w : World) : Prop :=
  ∀ h, w.mfa.hmget w.now id = some h → h.challengeID = id

/-- The condition: a deletion finds the challenge. -/
def Unconsumed (id : String) (m : Moment ι World Label) (_ : ι) (l : Label) : Prop :=
  l = .deleteMFAChallenge id → ¬ Gone id m.shared

instance (m : Moment ι World Label) (i : ι) (l : Label) : Decidable (Unconsumed id m i l) := by
  unfold Unconsumed; infer_instance

/-- Whatever else happens, a challenge that is gone does not come back. -/
def Undisturbed (id : String) (w w' : World) : Prop :=
  (Gone id w → Gone id w') ∧ (Named id w → Named id w')

/-! ## What every moment of a run satisfies -/

/-- A deletion leaves the challenge gone and there is at most one; whoever created a session had
deleted the challenge; and there is at most one session. -/
structure UseInv (env : Env) (id : String) (m : Moment ι World Label) : Prop where
  named : Named id m.shared
  gone : (∃ x ∈ m.trace, consumed id x = true) → Gone id m.shared
  once : m.trace.countP (consumed id) ≤ 1
  earned : ∀ x ∈ m.trace, created env x = true →
    ∃ y ∈ m.trace, y.pid = x.pid ∧ consumed id y = true
  single : sessionsCreated env m.trace ≤ 1

def usage (env : Env) (id : String) : Discipline ι World Label where
  inv := UseInv env id
  mono _ _ := True
  mono_refl _ := trivial
  mono_trans _ _ := trivial

theorem usage_admits : (usage (ι := ι) env id).Admits (Undisturbed id) := by
  intro m w hinv he
  exact ⟨⟨he.2 hinv.named, fun h => he.1 (hinv.gone h), hinv.once, hinv.earned, hinv.single⟩,
    trivial⟩

theorem UseInv.quiet {m : Moment ι World Label} {i : ι} {l : Label} {f : World → World}
    (h : UseInv env id m) (hdel : consumed id (⟨i, l, m.shared⟩ : Event ι World Label) = false)
    (hnew : created env (⟨i, l, m.shared⟩ : Event ι World Label) = false)
    (hsame : (f m.shared).mfa.hmget (f m.shared).now id = m.shared.mfa.hmget m.shared.now id) :
    UseInv env id (m.after i l f) := by
  refine ⟨?_, ?_, ?_, ?_, ?_⟩
  · simpa only [Named, Moment.after_shared, hsame] using h.named
  · rintro ⟨x, hx, hxd⟩
    simp only [Gone, Moment.after_shared, hsame]
    rcases List.mem_cons.mp hx with rfl | hx
    · rw [hdel] at hxd; cases hxd
    · exact h.gone ⟨x, hx, hxd⟩
  · simpa [hdel] using h.once
  · intro x hx hxc
    rcases List.mem_cons.mp hx with rfl | hx
    · rw [hnew] at hxc; cases hxc
    · obtain ⟨y, hy, hpid, hyd⟩ := h.earned x hx hxc
      exact ⟨y, List.mem_cons_of_mem _ hy, hpid, hyd⟩
  · simpa [sessionsCreated, hnew] using h.single

theorem UseInv.consume {m : Moment ι World Label} (i : ι) (h : UseInv env id m)
    (hthere : ¬ Gone id m.shared) :
    UseInv env id (m.after i (.deleteMFAChallenge id)
      fun w => { w with mfa := deleteMFAChallenge w.mfa id }) := by
  have hgone : Gone id { m.shared with mfa := deleteMFAChallenge m.shared.mfa id } :=
    Keyspace.get_del_self
  have hnone : m.trace.countP (consumed id) = 0 := by
    refine List.countP_eq_zero.mpr fun x hx hxd => hthere (h.gone ⟨x, hx, hxd⟩)
  refine ⟨?_, fun _ => hgone, ?_, ?_, ?_⟩
  · intro hash hhash
    rw [Moment.after_shared, hgone] at hhash
    cases hhash
  · rw [Moment.after_trace, List.countP_cons, hnone]
    split <;> omega
  · intro x hx hxc
    rcases List.mem_cons.mp hx with rfl | hx
    · cases hxc
    · obtain ⟨y, hy, hpid, hyd⟩ := h.earned x hx hxc
      exact ⟨y, List.mem_cons_of_mem _ hy, hpid, hyd⟩
  · simpa [sessionsCreated, created] using h.single

section Programs

variable [DecidableEq ι] {i : ι}

def Fresh (env : Env) (i : ι) (m : Moment ι World Label) : Prop :=
  ∀ x ∈ m.own i, created env x = false

def Entitled (env : Env) (id : String) (i : ι) (m : Moment ι World Label) : Prop :=
  Fresh env i m ∧ ∃ x ∈ m.own i, consumed id x = true

theorem fresh_stable (id : String) : (usage env id).Stable i (Fresh env i) := by
  intro m m' hr _ h
  rwa [Fresh, hr.own]

theorem entitled_stable : (usage env id).Stable i (Entitled env id i) := by
  intro m m' hr hi h
  refine ⟨fresh_stable id _ _ hr hi h.1, ?_⟩
  rw [hr.own]
  exact h.2

variable {m : Moment ι World Label} {f : World → World} {sessionID : String} {user : User}
variable {now : Int} {challengeID : String}

theorem Fresh.after {l : Label} (h : Fresh env i m)
    (hnew : created env (⟨i, l, m.shared⟩ : Event ι World Label) = false) :
    Fresh env i (m.after i l f) := by
  intro x hx
  rw [Moment.own_after_self] at hx
  rcases List.mem_cons.mp hx with rfl | hx
  · exact hnew
  · exact h x hx

theorem UseInv.create {s : Session} (h : UseInv env id m) (hent : Entitled env id i m)
    (hmfa : (f m.shared).mfa = m.shared.mfa) (hnow : (f m.shared).now = m.shared.now) :
    UseInv env id (m.after i (.createSession s) f) := by
  obtain ⟨y, hy, hyd⟩ := hent.2
  obtain ⟨hy, hyi⟩ := Moment.mem_own.mp hy
  -- any earlier session would be this program's own, as there is only one deletion
  have hnone : sessionsCreated env m.trace = 0 := by
    refine List.countP_eq_zero.mpr fun x hx hxc => ?_
    obtain ⟨z, hz, hpid, hzd⟩ := h.earned x hx hxc
    have hxi : x.pid = i := by rw [← hpid, ← hyi, eq_of_countP_le_one h.once hz hy hzd hyd]
    rw [hent.1 x (Moment.mem_own.mpr ⟨hx, hxi⟩)] at hxc
    cases hxc
  have hsame : (f m.shared).mfa.hmget (f m.shared).now id = m.shared.mfa.hmget m.shared.now id := by
    rw [hmfa, hnow]
  refine ⟨?_, ?_, ?_, ?_, ?_⟩
  · simpa only [Named, Moment.after_shared, hsame] using h.named
  · intro _
    simp only [Gone, Moment.after_shared, hsame]
    exact h.gone ⟨y, hy, hyd⟩
  · simpa [consumed] using h.once
  · intro x hx hxc
    rcases List.mem_cons.mp hx with rfl | hx
    · exact ⟨y, List.mem_cons_of_mem _ hy, hyi, hyd⟩
    · obtain ⟨z, hz, hpid, hzd⟩ := h.earned x hx hxc
      exact ⟨z, List.mem_cons_of_mem _ hz, hpid, hzd⟩
  · rw [sessionsCreated, Moment.after_trace, List.countP_cons, ← sessionsCreated, hnone]
    split <;> omega

/-! ## The programs -/

theorem lookupTOTP_silent (userID : Int) : (lookupTOTP userID).run.Silent := by
  unfold lookupTOTP
  split
  · trivial
  · exact .call fun _ => trivial

theorem lookupPasskeyCredentialJSON_silent (userID : Int) :
    (lookupPasskeyCredentialJSON userID).run.Silent := by
  unfold lookupPasskeyCredentialJSON
  split
  · trivial
  · exact .bind_except (.call fun _ => trivial) fun _ => trivial

theorem sessionContext_silent (user : User) (method : AuthnMethodType) :
    (sessionContext user method).run.Silent := by
  unfold sessionContext
  split
  · refine .bind_except ?_ fun r => ?_
    · exact .bind (lookupTOTP_silent _) fun _ => trivial
    · split <;> trivial
  · trivial

abbrev Completes (env : Env) (id : String) (i : ι) {α : Type} (p : Service AuthnError α)
    (m : Moment ι World Label) : Prop :=
  Wp (usage env id) (Unconsumed id) i p.run (fun _ _ => True) m

theorem createSession_wp {ipAddress userAgent redirectURI returnTo : String}
    {method : AuthnMethodType} (hm : Entitled env id i m) :
    Completes env id i (createSession env sessionID user method ipAddress userAgent redirectURI
      returnTo now) m := by
  refine .silent (sessionContext_silent _ _) entitled_stable hm fun context m₁ hm₁ => ?_
  refine .send entitled_stable hm₁ fun m₂ hinv₂ hm₂ _ => ?_
  refine ⟨hinv₂.create hm₂ rfl rfl, trivial, ?_⟩
  refine .require fun _ => ?_
  refine wp_send (R := fun _ => True) (fun _ _ _ _ h => h) trivial (fun _ _ => trivial)
    fun m₃ hinv₃ _ _ => ?_
  exact ⟨hinv₃.quiet rfl rfl rfl, trivial, trivial, trivial⟩

theorem completeMFA_wp {challenge : MFAChallengeEntry} (hid : challenge.challengeID = id)
    (hm : Fresh env i m) : Completes env id i (completeMFA env sessionID challenge user now) m := by
  refine .send (fresh_stable id) hm fun m₁ hinv₁ hm₁ hok => ?_
  rw [hid] at hok ⊢
  refine ⟨hinv₁.consume i (hok rfl), trivial, createSession_wp ⟨hm₁.after rfl, ?_⟩⟩
  exact ⟨_, by rw [Moment.own_after_self]; exact .head _, by simp [consumed]⟩

theorem liveChallenge_wp (hm : Fresh env i m) :
    Wp (usage env id) (Unconsumed id) i (liveChallenge id now).run
      (fun r m' => ∀ challenge, r = .ok challenge →
        challenge.challengeID = id ∧ Fresh env i m') m := by
  refine wp_bind_except.mpr (wp_call (by simp) (wp_getMFAChallenge fun m₁ hr₁ hinv₁ _ => ?_))
  have hm₁ := (fresh_stable id _ _ hr₁ hinv₁ hm).after (l := .hmgetMFAChallenge id)
    (f := fun w => w) rfl
  refine ⟨hinv₁.quiet rfl rfl rfl, trivial, fun m₂ hr₂ hinv₂ _ => ?_⟩
  have hm₂ := (fresh_stable id _ _ hr₂ hinv₂ hm₁).after (l := .bitfieldMFAChallenge id)
    (f := fun w => w) rfl
  refine ⟨hinv₂.quiet rfl rfl rfl, trivial, ?_, by simp⟩
  refine wp_found (by simp) fun challenge hchallenge => ?_
  refine wp_require (by simp) fun _ => ?_
  obtain ⟨h, hh, rfl⟩ := Option.map_eq_some_iff.mp hchallenge
  exact .ok ⟨hinv₁.named h hh, hm₂⟩

theorem wp_liveChallenge {α : Type} {k : MFAChallengeEntry → Service AuthnError α}
    (hm : Fresh env i m)
    (hk : ∀ challenge m', challenge.challengeID = id → Fresh env i m' →
      Completes env id i (k challenge) m') : Completes env id i (liveChallenge id now >>= k) m := by
  refine wp_bind_except.mpr ((liveChallenge_wp hm).imp fun r m' h => ?_)
  cases r with
  | ok challenge => exact hk challenge m' (h _ rfl).1 (h _ rfl).2
  | error e => trivial

theorem verifyTOTP_wp {code : String} (hid : trimSpace challengeID = id) (hm : Fresh env i m) :
    Completes env id i (Authn.verifyTOTP env sessionID challengeID code) m := by
  unfold Authn.verifyTOTP
  rw [hid]
  refine wp_clock (fresh_stable id) hm fun m₁ _ hm₁ => ?_
  refine wp_liveChallenge hm₁ fun challenge m₂ hchallenge hm₂ => ?_
  refine .found fun userID _ => ?_
  refine .ask (fresh_stable id) hm₂ fun m₃ _ hm₃ => ?_
  refine .found fun user _ => ?_
  refine .silent (lookupTOTP_silent _) (fresh_stable id) hm₃ fun _ m₄ hm₄ => ?_
  refine .found fun credential _ => ?_
  refine .found fun step _ => ?_
  refine .send (fresh_stable id) hm₄ fun m₅ hinv₅ hm₅ _ => ?_
  refine ⟨hinv₅.quiet rfl rfl ?_, trivial, ?_⟩
  · simp only [MFAStore.hmget, reserveTOTPStepUse]
    split <;> rfl
  refine .require fun _ => ?_
  refine wp_bind_except.mpr ((completeMFA_wp hchallenge (hm₅.after rfl)).imp fun r m₆ _ => ?_)
  cases r with
  | error e => trivial
  | ok result =>
    simp only
    split
    · exact wp_silent (R := fun _ => True) (lookupPasskeyCredentialJSON_silent _)
        (fun _ _ _ _ h => h) trivial (fun _ _ _ => trivial) fun _ _ _ => trivial
    · trivial

theorem updatePasskey_wp {credentialID credentialJSON : String} (hm : Fresh env i m) :
    Wp (usage env id) (Unconsumed id) i (updatePasskey env user credentialID credentialJSON now).run
      (fun _ => Fresh env i) m := by
  refine wp_whenever (fun _ => hm) fun _ => ?_
  refine wp_attempt hm fun m₁ hr hinv _ => ⟨hinv.quiet rfl rfl rfl, trivial, ?_⟩
  exact (fresh_stable id _ _ hr hinv hm).after rfl

theorem verifyMFAPasskey_wp {responseJSON : String} (hid : trimSpace challengeID = id)
    (hm : Fresh env i m) :
    Completes env id i (Authn.verifyMFAPasskey env sessionID challengeID responseJSON) m := by
  unfold Authn.verifyMFAPasskey
  rw [hid]
  refine .require fun _ => ?_
  refine wp_clock (fresh_stable id) hm fun m₁ _ hm₁ => ?_
  refine wp_liveChallenge hm₁ fun challenge m₂ hchallenge hm₂ => ?_
  refine .require fun _ => ?_
  refine .require fun _ => ?_
  refine .found fun userID _ => ?_
  refine .ask (fresh_stable id) hm₂ fun m₃ _ hm₃ => ?_
  refine .found fun user _ => ?_
  refine .require fun _ => ?_
  refine .silent (lookupPasskeyCredentialJSON_silent _) (fresh_stable id) hm₃ fun credentials m₄ hm₄ => ?_
  refine .require fun _ => ?_
  refine .found fun login _ => ?_
  refine wp_bind_except.mpr ((updatePasskey_wp hm₄).imp fun r m₅ hm₅ => ?_)
  cases r with
  | error e => trivial
  | ok _ => exact completeMFA_wp hchallenge hm₅

theorem finalizeMFAPush_wp (hid : trimSpace challengeID = id) (hm : Fresh env i m) :
    Completes env id i (Authn.finalizeMFAPush env sessionID challengeID) m := by
  unfold Authn.finalizeMFAPush
  rw [hid]
  refine wp_clock (fresh_stable id) hm fun m₁ _ hm₁ => ?_
  refine wp_liveChallenge hm₁ fun challenge m₂ hchallenge hm₂ => ?_
  refine .require fun _ => ?_
  refine .require fun _ => ?_
  refine .found fun userID _ => ?_
  refine .ask (fresh_stable id) hm₂ fun m₃ _ hm₃ => ?_
  refine .found fun user _ => ?_
  refine .require fun _ => ?_
  exact completeMFA_wp hchallenge hm₃

theorem completion_wp (call : Completion) (hid : trimSpace challengeID = id) (hm : Fresh env i m) :
    Completes env id i (call.code env sessionID challengeID) m := by
  cases call with
  | verifyTOTP code => exact verifyTOTP_wp hid hm
  | verifyMFAPasskey responseJSON => exact verifyMFAPasskey_wp hid hm
  | finalizeMFAPush => exact finalizeMFAPush_wp hid hm

/-- **A challenge is used once.** Any number of completions of one challenge run among each other, whatever
else happens. If each deletion finds the challenge, at most one session is created. -/
theorem singleUse (env : Env) (id : String) (calls : ι → Completion)
    (sessionIDs challengeIDs : ι → String) (hids : ∀ i, trimSpace (challengeIDs i) = id)
    {w : World} (hw : Named id w) {c : Config ι World Label _}
    (hrun : Reach (Undisturbed id) (Unconsumed id)
      (Config.start w fun i => ((calls i).code env (sessionIDs i) (challengeIDs i)).run) c) :
    sessionsCreated env c.trace ≤ 1 := by
  have hstart : UseInv env id (⟨[], w⟩ : Moment ι World Label) :=
    ⟨hw, by simp, by simp, by simp, by simp [sessionsCreated]⟩
  have hsafe : c.Safe (usage env id) (Unconsumed id) (fun _ _ _ => True) := by
    refine sound usage_admits (fun _ _ _ _ _ _ _ => trivial) ?_ hrun
    refine ⟨hstart, fun i => completion_wp (calls i) (hids i) ?_⟩
    simp [Fresh, Moment.own, Config.start]
  exact hsafe.1.single

end Programs

/-! ## Two completions -/

/-- A login of an active user, approved on another device. -/
def approved : World :=
  let user : User :=
    ⟨7, "sub-7", "ada", "ada@example", true, "Ada", "", "user", 0#32, "", "active"⟩
  let challenge : MFAChallengeEntry := { passkeyChallenge with
    mfaMode := MFAMode.pushTOTPFallback.text
    pushStatus := PushStatus.approved.text }
  { World.empty 0 with
    db := { Database.empty with users := [user] }
    mfa := (saveMFAChallenge .empty 0 challenge (300 * second)).2 }

def twoFinalizers : Config Bool World Label (Except AuthnError AuthenticateResult) :=
  Config.start approved fun i =>
    (Completion.finalizeMFAPush.code (.plain []) (if i then "s1" else "s2") "c1").run

theorem singleUse_twoFinalizers : ∃ c, Reach (Undisturbed "c1") (Unconsumed "c1") twoFinalizers c ∧
    sessionsCreated (.plain []) c.trace = 1 ∧ sessionsCreated (.plain []) c.trace ≤ 1 := by
  let sched : List (Move Bool World) :=
    [.run true, .run true, .run true, .run true, .run true, .run false, .run false, .run false]
  have hrun : Reach (Undisturbed "c1") (Unconsumed "c1") twoFinalizers
      (twoFinalizers.played (Unconsumed "c1") sched) :=
    played_reach _ (by simp [sched, Move.Allowed]) (by decide +kernel)
  refine ⟨_, hrun, by decide +kernel, ?_⟩
  refine singleUse (.plain []) "c1" _ _ _ (fun _ => ?_) ?_ hrun
  · decide +kernel
  · rintro h ⟨⟩
    rfl

/-- Both requests read the approved challenge before either deletes it, and both get a session. -/
theorem twoSessions : ∃ c, Reach (Undisturbed "c1") Unrestricted twoFinalizers c ∧
    ¬ sessionsCreated (.plain []) c.trace ≤ 1 := by
  refine ⟨_, played_reach (A := Unrestricted)
    [.run true, .run true, .run false, .run false, .run true, .run false, .run true,
      .run false] ?_ ?_, ?_⟩
  · simp [Move.Allowed]
  · decide +kernel
  · decide +kernel

end IdpServer.Laws.Mfa
