import IdpServer.Authz.Service
import IdpServer.Consent.Service
import IdpServer.Device.Service
import IdpServer.Enrolment.Service
import IdpServer.Http.Middleware
import IdpServer.Laws.Session.LoggedOut

/-!
# Laws.Session.Lookups — no lookup accepts a logged-out session

Seven parts of the server look sessions up. One that is not cached is judged by its row, and a logged-out row
is refused (`loggedOutStayOut`); `loginOutlivesLogout` breaks it otherwise.
-/

namespace IdpServer.Laws.Session

open Conc IdpServer.Cache Store Go

inductive Lookup where
  | authorize
  | consent (returnTo : String)
  | device
  | mfaSetup
  | passkeySetup
  | pushApproval
  | admin (required : List Mask)

/-- Whether the lookup accepts the session with the presented id. -/
def Lookup.accepts (env : Env) (presented : String) : Lookup → Action Bool
  | .authorize => do
    match ← (Authz.findActiveSession env (trimSpace presented)).run with
    | .ok (some _) => return true
    | _ => return false
  | .consent returnTo => succeeds (Consent.loadContext env returnTo presented)
  | .device => succeeds (Device.sessionUser env (trimSpace presented))
  | .mfaSetup => succeeds (Enrolment.loadMFAUser env presented)
  | .passkeySetup => succeeds (Enrolment.loadPasskeyUser env presented)
  | .pushApproval => succeeds (Authn.resolveActiveSessionUserID env presented)
  | .admin required => succeeds (Http.requireSessionPermissions env required presented)

/-! ## A session that is gone -/

section Gone

variable {ι : Type} {i : ι} {env : Env} {s : String}
variable {A : Moment ι World Label → ι → Label → Prop} {m : Moment ι World Label}
variable {ε α β : Type}

structure Gone (env : Env) (s : String) (w : World) : Prop where
  miss : cached w s = none
  row : ∃ r, w.db.findSession env.sqlEq s = some r ∧ r.loggedOutAt ≠ none

def gone (env : Env) (s : String) : Discipline ι World Label where
  inv m := Gone env s m.shared
  mono _ _ := True
  mono_refl _ := trivial
  mono_trans _ _ := trivial

theorem gone_admits : (gone (ι := ι) env s).Admits OthersWrite := by
  intro m w hinv hw
  obtain ⟨r, hr, hout⟩ := hinv.row
  refine ⟨⟨(Fewer.of_now_le hw).gone hinv.miss, r, ?_, hout⟩, trivial⟩
  rw [Database.findSession, hw.2.1]
  exact hr

variable [DecidableEq ι]

variable {e : ε} {Q : Except ε β → Moment ι World Label → Prop} {now : Int} {presented : String}

theorem wp_miss {k : Option SessionCacheEntry → Service ε β} (herr : ∀ m, Q (.error e) m)
    (hk : ∀ m, Wp (gone env s) A i (k none).run Q m) :
    Wp (gone env s) A i (Prog.call e (Repository.getSession s) >>= k).run Q m := by
  refine wp_bind_except.mpr (wp_call (herr m) fun m₁ _ hinv₁ m₂ _ _ => ?_)
  have hmiss : m₁.shared.sessions.hmget m₁.shared.now s = none := hinv₁.miss
  simp only [hmiss, Option.map_none]
  exact ⟨hk m₂, herr m₂⟩

theorem wp_row {k : Option Session → Service ε β} (herr : ∀ m, Q (.error e) m)
    (hk : ∀ m r, r.loggedOutAt ≠ none → Wp (gone env s) A i (k (some r)).run Q m) :
    Wp (gone env s) A i (Prog.call e (Repository.findBySessionID env s) >>= k).run Q m := by
  refine wp_ask stable_true trivial (fun m' _ => herr m') fun m' hinv _ => ?_
  obtain ⟨r, hr, hout⟩ := hinv.row
  rw [hr]
  exact hk m' r hout

/-! ## The lookups -/

abbrev Refuses (env : Env) (s : String) (A : Moment ι World Label → ι → Label → Prop) (i : ι)
    (p : Service ε α) (m : Moment ι World Label) : Prop :=
  Wp (gone env s) A i p.run (fun r _ => r.isOk = false) m

theorem refuses_checked {r : Session} {k : Unit → Service ε α} (hout : r.loggedOutAt ≠ none) :
    Refuses env s A i (Prog.require (r.loggedOutAt = none ∧ now < r.expiresAt) e >>= k) m :=
  wp_require (fun _ => rfl) fun h => absurd h.1 hout

theorem findActiveSession_wp : Wp (gone env s) A i (Authz.findActiveSession env s).run
      (fun r _ => ∀ session, r ≠ .ok (some session)) m := by
  refine .clock fun m₁ _ => ?_
  refine wp_miss (fun _ => nofun) fun m₂ => ?_
  refine wp_row (fun _ => nofun) fun m₃ r hout => ?_
  simp [hout]

theorem consent_wp {returnTo : String} (hs : trimSpace presented = s) :
    Refuses env s A i (Consent.loadContext env returnTo presented) m := by
  refine wp_found (fun _ => rfl) fun parsed _ => ?_
  refine wp_found (fun _ => rfl) fun sessionID hid => ?_
  obtain rfl : s = sessionID := hs.symm.trans (nonblank_eq_some.mp hid).1
  refine wp_miss (fun _ => rfl) fun m₁ => ?_
  refine .clock fun m₂ _ => ?_
  refine wp_require (fun _ => rfl) fun _ => ?_
  refine wp_row (fun _ => rfl) fun m₃ r hout => ?_
  refine wp_found (fun _ => rfl) fun r' hr' => ?_
  obtain rfl := Option.some.inj hr'
  refine .clock fun m₄ _ => ?_
  exact refuses_checked hout

theorem device_wp : Refuses env s A i (Device.sessionUser env s) m := by
  refine wp_miss (fun _ => rfl) fun m₁ => ?_
  refine .clock fun m₂ _ => ?_
  refine wp_row (fun _ => rfl) fun m₃ r hout => ?_
  refine wp_found (fun _ => rfl) fun r' hr' => ?_
  obtain rfl := Option.some.inj hr'
  refine .clock fun m₄ _ => ?_
  exact refuses_checked hout

theorem rowUser_wp : Refuses env s A i (Enrolment.rowUser env s now) m := by
  refine wp_row (fun _ => rfl) fun m₁ r hout => ?_
  refine wp_found (fun _ => rfl) fun r' hr' => ?_
  obtain rfl := Option.some.inj hr'
  exact refuses_checked hout

theorem Refuses.bind {p : Service ε α} {k : α → Service ε β} (h : Refuses env s A i p m) :
    Refuses env s A i (p >>= k) m := by
  refine wp_bind_except.mpr (Wp.imp h fun r m' hr => ?_)
  cases r with
  | ok a => cases hr
  | error e => rfl

theorem mfaSetup_wp (hs : trimSpace presented = s) :
    Refuses env s A i (Enrolment.loadMFAUser env presented) m := by
  refine wp_found (fun _ => rfl) fun sessionID hid => ?_
  obtain rfl : s = sessionID := hs.symm.trans (nonblank_eq_some.mp hid).1
  refine .clock fun m₁ _ => ?_
  exact wp_miss (fun _ => rfl) fun m₂ => rowUser_wp.bind

theorem passkeySetup_wp (hs : trimSpace presented = s) :
    Refuses env s A i (Enrolment.loadPasskeyUser env presented) m := by
  refine wp_found (fun _ => rfl) fun sessionID hid => ?_
  obtain rfl : s = sessionID := hs.symm.trans (nonblank_eq_some.mp hid).1
  refine .clock fun m₁ _ => ?_
  exact wp_miss (fun _ => rfl) fun m₂ => rowUser_wp.bind

theorem pushApproval_wp (hs : trimSpace presented = s) :
    Refuses env s A i (Authn.resolveActiveSessionUserID env presented) m := by
  subst hs
  refine wp_require (fun _ => rfl) fun _ => ?_
  refine .clock fun m₁ _ => ?_
  refine wp_miss (fun _ => rfl) fun m₂ => ?_
  refine wp_row (fun _ => rfl) fun m₃ r hout => ?_
  refine wp_found (fun _ => rfl) fun r' hr' => ?_
  obtain rfl := Option.some.inj hr'
  exact refuses_checked hout

theorem admin_wp {required : List Mask} (hs : trimSpace presented = s) :
    Refuses env s A i (Http.requireSessionPermissions env required presented) m := by
  refine wp_found (fun _ => rfl) fun sessionID hid => ?_
  obtain rfl : s = sessionID := hs.symm.trans (nonblank_eq_some.mp hid).1
  refine wp_bind_except.mpr (wp_miss (fun _ => rfl) fun m₁ => ?_)
  refine .clock fun m₂ _ => ?_
  refine wp_call rfl fun m₃ _ hinv => ?_
  obtain ⟨r, hr, hout⟩ := hinv.row
  refine ⟨wp_found (fun _ => rfl) fun r' hr' => ?_, rfl⟩
  obtain rfl : r = r' := Option.some.inj (hr.symm.trans hr')
  refine .clock fun m₄ _ => ?_
  exact refuses_checked hout

/-- **No lookup accepts a session that is gone.** -/
theorem accepts_wp (lookup : Lookup) (hs : trimSpace presented = s) :
    Wp (gone env s) A i (lookup.accepts env presented) (fun b _ => b = false) m := by
  cases lookup with
  | authorize =>
    subst hs
    refine wp_bind.mpr (findActiveSession_wp.imp fun r m' hr => ?_)
    split
    next session => exact absurd rfl (hr session)
    next => rfl
  | consent returnTo => exact wp_bind.mpr (consent_wp hs)
  | device => subst hs; exact wp_bind.mpr device_wp
  | mfaSetup => exact wp_bind.mpr (mfaSetup_wp hs)
  | passkeySetup => exact wp_bind.mpr (passkeySetup_wp hs)
  | pushApproval => exact wp_bind.mpr (pushApproval_wp hs)
  | admin required => exact wp_bind.mpr (admin_wp hs)

end Gone

/-! ## The law -/

section Law

variable {ι : Type} [DecidableEq ι]

theorem gone_of_loggedOut {env : Env} (hE : Collation env.sqlEq) {w : World} (hw : Coherent env w)
    (hclear : ∀ s, LoggedOut w s → cached w s = none) {r : Session} (hr : r ∈ w.db.sessions)
    (hout : r.loggedOutAt ≠ none) {s : String} (hs : env.sqlEq r.sessionID s = true) :
    Gone env s w := by
  have hfound : (w.db.findSession env.sqlEq s).isSome = true :=
    List.find?_isSome.mpr ⟨r, hr, hs⟩
  obtain ⟨r', hr'⟩ := Option.isSome_iff_exists.mp hfound
  have hmem := List.mem_of_find?_eq_some hr'
  have hs' : env.sqlEq r'.sessionID s = true := by simpa using List.find?_some hr'
  obtain rfl : r = r' :=
    hw.eq_of_sqlEq hE hr hmem (hE.trans hs (by rw [hE.symm]; exact hs'))
  refine ⟨?_, r, hr', hout⟩
  cases hc : cached w s with
  | none => rfl
  | some h =>
    obtain ⟨r'', hr'', rfl, -⟩ := hw.backed s h hc
    obtain rfl := hw.eq_of_sqlEq hE hr hr'' hs
    rw [hclear r.sessionID ⟨r, hr, rfl, hout⟩] at hc
    cases hc

/-- **Logged-out sessions stay out.** Any number of logins and logouts run among each other, in a run whose
commands are orderly. When all are done, and no logout was stopped by an error of a store, no lookup accepts
a session whose row is logged out, however long it takes and whatever it is presented as. -/
theorem loggedOutStayOut (env : Env) (hE : Collation env.sqlEq) (callers : ι → Caller)
    (hnames : ∀ i, (callers i).WellNamed) {w : World} (hw : Coherent env w)
    (hstart : ∀ s, LoggedOut w s → cached w s = none) {c : Config ι World Label Bool}
    (hrun : Reach OthersWrite (Orderly env) (Config.start w fun i => (callers i).code env) c)
    (hdone : ∀ i, c.procs i = .ret true) {r : Session} (hr : r ∈ c.shared.db.sessions)
    (hout : r.loggedOutAt ≠ none) (lookup : Lookup) {presented : String}
    (hp : env.sqlEq r.sessionID (trimSpace presented) = true) {c' : Config Unit World Label Bool}
    (hlook : Reach OthersWrite Unrestricted
      (Config.start c.shared fun _ => lookup.accepts env presented) c') :
    c'.procs () ≠ .ret true := by
  obtain ⟨hcoh, hclear⟩ := cached_eq_none hE hnames hw hstart hrun hdone
  have hgone := gone_of_loggedOut hE hcoh hclear hr hout hp
  have hsafe : c'.Safe (gone env (trimSpace presented)) Unrestricted fun _ b _ => b = false := by
    refine sound gone_admits (fun _ _ _ _ _ _ h => h) ?_ hlook
    exact ⟨hgone, fun _ => accepts_wp lookup rfl⟩
  intro hret
  cases hsafe.returned hret

/-! ## A login and a logout everywhere -/

def oneSession : World :=
  let user : User :=
    ⟨7, "sub-7", "ada", "ada@example", true, "Ada", "", "user", 0#32, "", "active"⟩
  let session : Session := ⟨1, "s1", 7, "sub-7", "", "", "", "", 0, 3600 * second, none⟩
  { World.empty 0 with db := { Database.empty with users := [user], sessions := [session] } }

def loginAndLogoutAll : Bool → Caller
  | true => .login "s2" ⟨7, "sub-7", "ada", "ada@example", true, "Ada", "", "user", 0#32, "", "active"⟩
      .password "" "" "" "" 0
  | false => .logoutAll "s1"

def twoCallers : Config Bool World Label Bool :=
  Config.start oneSession fun i => (loginAndLogoutAll i).code (.plain [])

theorem collation_plain (clients : List Client) : Collation (Env.plain clients).sqlEq where
  refl a := by simp [Env.plain]
  symm a b := by simp [Env.plain, eq_comm]
  trans hab hbc := by
    simp only [Env.plain, decide_eq_true_eq] at hab hbc ⊢
    exact hab.trans hbc

theorem coherent_oneSession : Coherent (.plain []) oneSession where
  unique := List.pairwise_singleton _ _
  named := by decide +kernel
  backed s h hs := by cases hs

def secondLoggedOut (w : World) : Bool :=
  w.db.sessions.any fun r => r.sessionID = "s2" ∧ r.loggedOutAt ≠ none

theorem mem_of_secondLoggedOut {w : World} (h : secondLoggedOut w = true) :
    ∃ r ∈ w.db.sessions, r.sessionID = "s2" ∧ r.loggedOutAt ≠ none := by
  obtain ⟨r, hr, h⟩ := List.any_eq_true.mp h
  exact ⟨r, hr, by simpa using h⟩

theorem loggedOutStayOut_loginFirst : ∃ c, Reach OthersWrite (Orderly (.plain [])) twoCallers c ∧
    (∀ i, c.procs i = .ret true) ∧ (∃ r ∈ c.shared.db.sessions, r.sessionID = "s2" ∧
      r.loggedOutAt ≠ none) ∧
    ∀ (lookup : Lookup) (c' : Config Unit World Label Bool), Reach OthersWrite Unrestricted
      (Config.start c.shared fun _ => lookup.accepts (.plain []) "s2") c' →
      c'.procs () ≠ .ret true := by
  let sched : List (Move Bool World) :=
    [.run true, .run true, .run true, .run false, .run false, .run false, .run false, .run false,
      .run false, .run false, .run false]
  let c := twoCallers.played (Orderly (.plain [])) sched
  have hrun : Reach OthersWrite (Orderly (.plain [])) twoCallers c :=
    played_reach _ (by simp [sched, Move.Allowed]) (by decide +kernel)
  have hdone : ∀ i, c.procs i = .ret true := fun i =>
    by cases i <;> decide +kernel
  obtain ⟨r, hr, hid, hout⟩ := mem_of_secondLoggedOut (w := c.shared) (by decide +kernel)
  refine ⟨c, hrun, hdone, ⟨r, hr, hid, hout⟩, fun lookup c' hlook => ?_⟩
  refine loggedOutStayOut (.plain []) (collation_plain _) loginAndLogoutAll (fun i => ?_)
    coherent_oneSession (fun _ _ => rfl) hrun hdone hr hout lookup ?_ hlook
  · cases i with
    | true => exact nonblank_eq_some.mpr (by decide +kernel)
    | false => trivial
  · rw [hid]
    decide +kernel

/-- **The law fails without the condition.** The logout runs after the login has inserted its row; then the
login writes the hash of a session that is logged out, and the lookups accept it. -/
theorem loginOutlivesLogout : ∃ c, Reach OthersWrite Unrestricted twoCallers c ∧
    (∀ i, c.procs i = .ret true) ∧ (∃ r ∈ c.shared.db.sessions, r.sessionID = "s2" ∧
      r.loggedOutAt ≠ none) ∧
    ∀ lookup ∈ [Lookup.authorize, .device, .mfaSetup, .passkeySetup, .pushApproval], ∃ c',
      Reach OthersWrite Unrestricted
        (Config.start c.shared fun _ : Unit => lookup.accepts (.plain []) "s2") c' ∧
      c'.procs () = .ret true := by
  let c := twoCallers.played Unrestricted
    [.run true, .run false, .run false, .run false, .run false, .run false, .run false, .run false,
      .run false, .run true, .run true]
  have hrun : Reach OthersWrite Unrestricted twoCallers c :=
    played_reach _ (by simp [Move.Allowed]) (by decide +kernel)
  have hdone : ∀ i, c.procs i = .ret true := fun i =>
    by cases i <;> decide +kernel
  refine ⟨c, hrun, hdone, mem_of_secondLoggedOut (by decide +kernel), fun lookup hl => ?_⟩
  simp only [List.mem_cons, List.not_mem_nil, or_false] at hl
  rcases hl with rfl | rfl | rfl | rfl | rfl <;>
    exact ⟨_, played_reach (A := Unrestricted) [.run ()] (by simp [Move.Allowed])
      (by decide +kernel), by decide +kernel⟩

end Law

end IdpServer.Laws.Session
