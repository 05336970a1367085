import IdpServer.Conc.Eval
import IdpServer.Laws.Authn.Entering
import IdpServer.Laws.Authn.Guessing
import IdpServer.Register.Service

/-!
# Laws.Authn.Unlocking — the allowance of an account that was unlocked

The count that leads to the lock is **under the name as it was typed**, and `AdminUnlockUser` resets the one
under the stored name (`lockedAtOnce`; `unlocked_allowance`).
-/

namespace IdpServer.Laws.Authn

open Conc IdpServer.Cache Store Go IdpServer.Authn
open Laws.Session (succeeds)

/-! ## The account and its counts -/

def Resolves (env : Env) (id : Int) (db : Database) (name : String) : Prop :=
  ∃ user, (db.users.find? fun u => env.sqlEq u.username name) = some user ∧ user.id = id

def Exists (id : Int) (db : Database) : Prop := ∃ user ∈ db.users, user.id = id

def LockedForGood (id : Int) (db : Database) : Prop :=
  ∃ user ∈ db.users, user.id = id ∧ user.status = "locked"

def listed (w : World) (name : String) : Int := (w.limits.blacklistUser.get w.now name).getD 0

/-- What others may do: no spelling becomes one of the account, nothing is counted, and the account is not
locked. -/
structure SparesAccount (env : Env) (id : Int) (w w' : World) : Prop where
  names : ∀ name, Resolves env id w'.db name → Resolves env id w.db name
  exist : Exists id w.db → Exists id w'.db
  counts : ∀ name, listed w' name ≤ max 0 (listed w name)
  locked : LockedForGood id w'.db → LockedForGood id w.db

section SparesAccount

variable {env : Env} {id : Int} {w w' : World}

theorem SparesAccount.of_users (hnow : w'.now = w.now) (hlimits : w'.limits.blacklistUser = w.limits.blacklistUser)
    (husers : w'.db.users = w.db.users) : SparesAccount env id w w' := by
  refine ⟨?_, ?_, ?_, ?_⟩
  · intro name h
    rwa [Resolves, husers] at h
  · intro h
    rwa [Exists, husers]
  · intro name
    rw [listed, hnow, hlimits]
    exact Int.le_max_right _ _
  · intro h
    rwa [LockedForGood, husers] at h

theorem resolves_map {db : Database} {f : User → User} {name : String}
    (hf : ∀ u, (f u).username = u.username ∧ (f u).id = u.id) :
    Resolves env id { db with users := db.users.map f } name ↔ Resolves env id db name := by
  have hcomp : ((fun u : User => env.sqlEq u.username name) ∘ f) = fun u => env.sqlEq u.username name := by
    funext u
    exact congrArg (env.sqlEq · name) (hf u).1
  simp only [Resolves, List.find?_map, hcomp, Option.map_eq_some_iff]
  constructor
  · rintro ⟨_, ⟨user, huser, rfl⟩, hid⟩
    exact ⟨user, huser, (hf user).2 ▸ hid⟩
  · rintro ⟨user, huser, hid⟩
    exact ⟨f user, ⟨user, huser, rfl⟩, (hf user).2.trans hid⟩

theorem SparesAccount.createUser (hexists : Exists id w.db) (new : User) :
    SparesAccount env id w { w with db := (w.db.createUser env.sqlEq new).2 } := by
  rcases w.db.createUser_cases env.sqlEq new with hnone | ⟨user, hfresh, hsome⟩
  · rw [hnone]
    exact .of_users rfl rfl rfl
  · rw [hsome]
    obtain ⟨old, hold, hid⟩ := hexists
    have hother : user.id ≠ id := by
      have hlt := hfresh old hold
      omega
    refine ⟨?_, fun _ => ⟨old, List.mem_append_left _ hold, hid⟩, fun _ => Int.le_max_right _ _, ?_⟩
    · rintro name ⟨found, hfound, hfoundID⟩
      refine ⟨found, ?_, hfoundID⟩
      rw [List.find?_append] at hfound
      rcases Option.or_eq_some_iff.mp hfound with hbefore | ⟨-, hnew⟩
      · exact hbefore
      · have hmem := List.mem_singleton.mp (List.mem_of_find?_eq_some hnew)
        exact (hother (hmem ▸ hfoundID)).elim
    · rintro ⟨found, hfound, hfoundID, hstatus⟩
      rcases List.mem_append.mp hfound with hbefore | hnew
      · exact ⟨found, hbefore, hfoundID, hstatus⟩
      · exact (hother (List.mem_singleton.mp hnew ▸ hfoundID)).elim

theorem SparesAccount.resetBlacklist (name : String) : SparesAccount env id w { w with
    limits := { w.limits with blacklistUser := w.limits.blacklistUser.del name } } := by
  refine ⟨fun _ h => h, fun h => h, fun other => ?_, fun h => h⟩
  by_cases hname : other = name
  · rw [listed, hname, Keyspace.get_del_self]
    exact Int.le_max_left _ _
  · rw [listed, Keyspace.get_del_of_ne hname]
    exact Int.le_max_right _ _

end SparesAccount

/-! ## The commands of a login -/

def isListing : Label → Bool
  | .incrementBlacklistByUser _ _ => true
  | _ => false

def countsUnder {ι : Type} (name : String) (x : Event ι World Label) : Bool :=
  match x.label with
  | .incrementBlacklistByUser typed _ => typed = name
  | _ => false

def Aside (env : Env) (id : Int) (l : Label) (f : World → World) : Prop :=
  isListing l = false ∧ ∀ w, Exists id w.db → SparesAccount env id w (f w)

section Commands

variable {env : Env} {id : Int}

variable {l : Label} {f : World → World}

theorem Aside.of_users (hl : isListing l = false)
    (hf : ∀ w, (f w).now = w.now ∧ (f w).limits.blacklistUser = w.limits.blacklistUser ∧
      (f w).db.users = w.db.users) : Aside env id l f :=
  ⟨hl, fun w _ => .of_users (hf w).1 (hf w).2.1 (hf w).2.2⟩

theorem Entering.aside (h : Entering env l f) : Aside env id l f := by
  cases h with
  | createUser u => exact ⟨rfl, fun _ hexist => .createUser hexist u⟩
  | resetBlacklistByUser name => exact ⟨rfl, fun _ _ => .resetBlacklist name⟩
  | _ => exact .of_users rfl fun _ => ⟨rfl, rfl, rfl⟩

theorem createSession_aside (sessionID : String) (user : User) (method : AuthnMethodType)
    (ipAddress userAgent redirectURI returnTo : String) (now : Int) :
    (createSession env sessionID user method ipAddress userAgent redirectURI returnTo now).run.Acts
      (Aside env id) := by
  refine .bind_except (Mfa.sessionContext_silent user method).acts fun context => ?_
  refine .send (.of_users rfl fun w => ⟨rfl, rfl, ?_⟩) fun created => .require_then ?_
  · dsimp only
    unfold Database.createSession
    split <;> rfl
  · exact .send (.of_users rfl fun _ => ⟨rfl, rfl, rfl⟩) fun _ => trivial

theorem enter_aside (draws : LoginDraws) (input : AuthenticateInput) (method : AuthnMethodType)
    (user : User) (redirectURI : String) :
    (enter env draws input method user redirectURI).run.Acts (Aside env id) := by
  refine .require_then (.require_then (.clock fun now => ?_))
  cases method with
  | federatedOIDC => exact .bind_except (createSession_aside _ _ _ _ _ _ _ _) fun _ => trivial
  | password =>
    refine .bind_except ((resetPasswordRateLimit_entering _ _).imp fun _ _ h => h.aside) fun _ => ?_
    refine .bind_except (Mfa.lookupTOTP_silent _).acts fun credential => ?_
    refine .bind_except (Mfa.lookupPasskeyCredentialJSON_silent _).acts fun credentials => ?_
    dsimp only
    split
    · exact (challengeLogin_entering _ _ _ _ _).imp fun _ _ h => h.aside
    · refine .bind_except (createSession_aside _ _ _ _ _ _ _ _) fun result => ?_
      split <;> trivial

end Commands

/-! ## What is kept -/

structure SignIn where
  draws : LoginDraws
  answer : Except AuthnError ConnectorResult
  input : AuthenticateInput

def SignIn.code (env : Env) (attempt : SignIn) : Action Bool :=
  succeeds (Authn.authenticate env attempt.draws attempt.answer attempt.input)

section Counting

variable {ι : Type} [DecidableEq ι] (env : Env) (id : Int) (start : World) (calls : ι → SignIn)

def LockEarned (m : Moment ι World Label) : Prop :=
  ∃ name, Resolves env id start.db name ∧
    env.ratePolicy.permanentUserLockThreshold ≤ (m.trace.countP (countsUnder name) : Int)

def Uncounting (i : ι) (m : Moment ι World Label) : Prop := (m.own i).countP (isListing ·.label) = 0

/-- Since the start a count under a spelling of the account is made up of the counts that were sent, at
most one by each login. -/
structure Counting (m : Moment ι World Label) : Prop where
  names : ∀ name, Resolves env id m.shared.db name → Resolves env id start.db name
  exist : Exists id m.shared.db
  counts : ∀ name, Resolves env id start.db name →
    listed m.shared name ≤ (m.trace.countP (countsUnder name) : Int)
  locked : LockedForGood id m.shared.db → LockEarned env id start m
  once : ∀ j, (m.own j).countP (isListing ·.label) ≤ 1
  typed : ∀ x ∈ m.trace, ∀ name, countsUnder name x = true →
    trimSpace (calls x.pid).input.username = name

def counting : Discipline ι World Label where
  inv := Counting env id start calls
  mono _ _ := True
  mono_refl _ := trivial
  mono_trans _ _ := trivial

variable {env id start calls} {m : Moment ι World Label} {i : ι}

omit [DecidableEq ι] in
theorem LockEarned.suffix {m' : Moment ι World Label} (h : LockEarned env id start m) (hs : m.trace <:+ m'.trace) :
    LockEarned env id start m' := by
  obtain ⟨name, hname, hcount⟩ := h
  have hle := hs.sublist.countP_le (p := countsUnder name)
  exact ⟨name, hname, by omega⟩

theorem uncounting_stable (i : ι) : (counting env id start calls).Stable i (Uncounting i) := by
  intro m m' hr _ h
  rwa [Uncounting, hr.own]

theorem Counting.elsewhere {w' : World} (h : Counting env id start calls m)
    (hE : SparesAccount env id m.shared w') : Counting env id start calls ⟨m.trace, w'⟩ := by
  refine ⟨fun name hname => h.names name (hE.names name hname), hE.exist h.exist, fun name hname => ?_,
    fun hlocked => h.locked (hE.locked hlocked), h.once, h.typed⟩
  have hcounts := h.counts name hname
  have hmoved := hE.counts name
  show listed w' name ≤ (m.trace.countP (countsUnder name) : Int)
  omega

variable {name : String} {l : Label} {f : World → World}

omit [DecidableEq ι] in
theorem countsUnder_of_not {x : Event ι World Label} (h : isListing x.label = false) :
    countsUnder name x = false := by
  unfold countsUnder
  split
  next heq =>
    rw [heq] at h
    cases h
  next => rfl

theorem Counting.unlisted (h : Counting env id start calls m) (hl : isListing l = false)
    (hnames : ∀ name, Resolves env id (f m.shared).db name → Resolves env id m.shared.db name)
    (hexist : Exists id (f m.shared).db)
    (hcounts : ∀ name, listed (f m.shared) name ≤ max 0 (listed m.shared name))
    (hlocked : LockedForGood id (f m.shared).db → LockEarned env id start m) :
    Counting env id start calls (m.after i l f) := by
  have hsame : ∀ name, (m.after i l f).trace.countP (countsUnder name) =
      m.trace.countP (countsUnder name) :=
    fun name => List.countP_cons_of_neg (by simp [countsUnder_of_not (x := ⟨i, l, m.shared⟩) hl])
  refine ⟨fun name hname => h.names name (hnames name hname), hexist, fun name hname => ?_,
    fun hlock => (hlocked hlock).suffix (List.suffix_cons _ _), fun j => ?_, fun x hx name hunder => ?_⟩
  · have hbefore := h.counts name hname
    have hmoved := hcounts name
    rw [hsame]
    show listed (f m.shared) name ≤ _
    omega
  · rw [Moment.own, Moment.after_trace, List.filter_cons]
    split
    · rw [List.countP_cons_of_neg (by simp [hl])]
      exact h.once j
    · exact h.once j
  · rcases List.mem_cons.mp hx with rfl | hx
    · rw [countsUnder_of_not hl] at hunder
      cases hunder
    · exact h.typed x hx name hunder

theorem Counting.aside (h : Counting env id start calls m) (hl : Aside env id l f) :
    Counting env id start calls (m.after i l f) := by
  have hE := hl.2 m.shared h.exist
  exact h.unlisted hl.1 hE.names (hE.exist h.exist) hE.counts fun hlock => h.locked (hE.locked hlock)

theorem Uncounting.aside (h : Uncounting i m) (hl : Aside env id l f) :
    Uncounting i (m.after i l f) := by
  rw [Uncounting, Moment.own_after_self, List.countP_cons_of_neg (by simp [hl.1])]
  exact h

theorem aside_wp {A : Moment ι World Label → ι → Label → Prop} {α : Type} {p : Action α}
    (hp : p.Acts (Aside env id)) (hm : Uncounting i m) :
    Wp (counting env id start calls) A i p (fun _ => Uncounting i) m :=
  Wp.of_acts hp (uncounting_stable i)
    (fun _ _ _ hl hinv hm _ => ⟨Counting.aside hinv hl, trivial, hm.aside hl⟩) hm

theorem listed_increment (w : World) (name userID : String) (threshold : Int) (other : String) :
    listed { w with limits := (w.limits.incrementBlacklistByUser w.now name userID threshold).2 } other =
      if other = name then listed w name + 1 else listed w other := by
  have hcounters : (w.limits.incrementBlacklistByUser w.now name userID threshold).2.blacklistUser =
      w.limits.blacklistUser.alter w.now name
        fun _ => (w.limits.blacklistUser.get w.now name).getD 0 + 1 := by
    unfold RateLimitCache.incrementBlacklistByUser incrementWithLock
    dsimp only
    split <;> split <;> rfl
  unfold listed
  rw [hcounters]
  split
  next heq => rw [heq, Keyspace.get_alter_self, Option.getD_some]
  next hne => rw [Keyspace.get_alter_of_ne hne]

theorem locked_increment {w : World} {userID : String} {threshold : Int}
    (h : (w.limits.incrementBlacklistByUser w.now name userID threshold).1.locked = true) :
    threshold ≤ listed w name + 1 := by
  unfold RateLimitCache.incrementBlacklistByUser incrementWithLock at h
  dsimp only at h
  split at h
  next => cases h
  next k hlocks =>
    have hreached := (Option.filter_eq_some_iff.mp hlocks).2
    exact (of_decide_eq_true hreached).2

/-- **A count**: it is the first of its login, under the name that was typed. -/
theorem Counting.count (h : Counting env id start calls m) (hm : Uncounting i m) (userID : String) :
    let name := trimSpace (calls i).input.username
    let r := fun w : World => w.limits.incrementBlacklistByUser w.now name userID
      env.ratePolicy.permanentUserLockThreshold
    let m' := m.after i (.incrementBlacklistByUser name userID) fun w => { w with limits := (r w).2 }
    Counting env id start calls m' ∧
      ((r m.shared).1.locked = true → Resolves env id start.db name → LockEarned env id start m') := by
  intro name r m'
  have hcountP : ∀ other, m'.trace.countP (countsUnder other) =
      m.trace.countP (countsUnder other) + if other = name then 1 else 0 := by
    intro other
    show List.countP _ (_ :: m.trace) = _
    by_cases hother : other = name
    · simp [countsUnder, hother]
    · simp [countsUnder, hother, Ne.symm hother]
  refine ⟨⟨h.names, h.exist, fun other hother => ?_, fun hlocked => ?_, fun j => ?_,
    fun x hx other hcounts => ?_⟩, fun hlocked hname => ⟨name, hname, ?_⟩⟩
  · have hcounts := h.counts other hother
    have hlisted : listed m'.shared other = if other = name then listed m.shared name + 1
        else listed m.shared other := listed_increment m.shared name userID _ other
    rw [hlisted, hcountP]
    split
    next heq =>
      rw [heq] at hcounts ⊢
      push_cast
      omega
    next => simpa using hcounts
  · exact (h.locked hlocked).suffix (List.suffix_cons _ _)
  · by_cases hj : i = j
    · subst hj
      have hnone : (m.own i).countP (isListing ·.label) = 0 := hm
      rw [Moment.own_after_self, List.countP_cons, hnone]
      split <;> omega
    · have hsame : m'.own j = m.own j := by
        simp [m', Moment.own, hj]
      rw [hsame]
      exact h.once j
  · rcases List.mem_cons.mp hx with rfl | hx
    · exact of_decide_eq_true hcounts
    · exact h.typed x hx other hcounts
  · have hcounts := h.counts name hname
    have hreached := locked_increment hlocked
    rw [hcountP, if_pos rfl]
    push_cast
    omega

theorem Counting.lock (h : Counting env id start calls m) {userID : Int}
    (hearned : userID = id → LockEarned env id start m) :
    Counting env id start calls
      (m.after i (.lockAccount userID) fun w => { w with db := w.db.lockAccount userID }) := by
  let lock : User → User := fun u =>
    if u.id = userID ∧ u.status = "active" then { u with status := "locked" } else u
  have hlock : ∀ u, (lock u).username = u.username ∧ (lock u).id = u.id := by
    intro u
    dsimp only [lock]
    split <;> exact ⟨rfl, rfl⟩
  refine h.unlisted rfl (fun name hname => (resolves_map hlock).mp hname) ?_
    (fun _ => Int.le_max_right _ _) ?_
  · obtain ⟨user, huser, hid⟩ := h.exist
    exact ⟨lock user, List.mem_map_of_mem huser, (hlock user).2.trans hid⟩
  · rintro ⟨_, hmem, hid, hstatus⟩
    obtain ⟨user, huser, rfl⟩ := List.mem_map.mp hmem
    by_cases hother : userID = id
    · exact hearned hother
    · -- the lock passed by the account
      have hsame : lock user = user := by
        refine if_neg fun hmatch => hother ?_
        rw [← hmatch.1, ← (hlock user).2]
        exact hid
      have hbefore : LockedForGood id m.shared.db := ⟨user, huser, by rwa [← hsame], by rwa [← hsame]⟩
      exact h.locked hbefore

end Counting

/-! ## The login -/

section Login

variable {ι : Type} [DecidableEq ι] {env : Env} {id : Int} {start : World} {calls : ι → SignIn}
variable {A : Moment ι World Label → ι → Label → Prop} {m : Moment ι World Label} {i : ι}

def Spelt (env : Env) (id : Int) (start : World) (username : String) (user : Option User) : Prop :=
  ∀ u, user = some u → u.id = id → Resolves env id start.db (trimSpace username)

theorem preparePasswordAuthentication_spelt (hm : Uncounting i m) (username ipAddress : String) :
    Wp (counting env id start calls) A i (preparePasswordAuthentication env username ipAddress).run
      (Gives fun user m' => Uncounting i m' ∧ Spelt env id start username user) m := by
  have hstable : (counting env id start calls).Stable i (Uncounting i) := uncounting_stable i
  refine .silent (checkIPLock_silent _) hstable hm fun _ m₁ hm₁ => ?_
  unfold lookupUserByUsername
  split
  next =>
    exact .ok ⟨hm₁, fun _ h => by cases h⟩
  next name hname =>
    obtain ⟨rfl, -⟩ := nonblank_eq_some.mp hname
    refine .ask hstable hm₁ fun m₂ hinv₂ hm₂ => ?_
    cases hfound : m₂.shared.db.users.find? fun u => env.sqlEq u.username (trimSpace username) with
    | none =>
      exact .ok ⟨hm₂, fun _ h => by cases h⟩
    | some user =>
      refine .ask hstable hm₂ fun m₃ _ hm₃ => ?_
      refine .require fun _ => ?_
      rintro _ ⟨⟩
      refine ⟨hm₃, ?_⟩
      rintro _ ⟨⟩ hid
      exact hinv₂.names _ ⟨user, hfound, hid⟩

theorem lockForGood_wp {user : Option User}
    (hearned : ∀ u, user = some u → u.id = id → LockEarned env id start m) :
    Wp (counting env id start calls) A i (lockForGood user).run (fun _ _ => True) m := by
  cases user with
  | none => trivial
  | some u =>
    have hcleared (m' : Moment ι World Label) : Wp (counting env id start calls) A i
        (do Prog.attempt (Repository.clearUserLock (formatInt u.id))
            throw AuthnError.store : Service AuthnError AuthnError).run (fun _ _ => True) m' := by
      refine Wp.of_acts ?_ stable_true
        (fun _ _ _ hl hinv _ _ => ⟨Counting.aside hinv hl, trivial, trivial⟩) trivial
      exact .bind_except (.attempt ⟨.of_users rfl fun _ => ⟨rfl, rfl, rfl⟩, fun _ => trivial⟩)
        fun _ => trivial
    refine wp_bind_except.mpr (wp_lift.mpr (wp_call (hcleared m) fun m₁ hr hinv _ => ?_))
    refine ⟨Counting.lock hinv fun hid => ?_, trivial, trivial, hcleared _⟩
    exact (hearned u rfl hid).suffix hr.suffix

theorem registerPasswordFailure_wp (hm : Uncounting i m) {user : Option User}
    (hspelt : Spelt env id start (calls i).input.username user) (ipAddress : String) :
    Wp (counting env id start calls) A i
      (registerPasswordFailure env (calls i).input.username ipAddress user).run (fun _ _ => True) m := by
  have hstable : (counting env id start calls).Stable i (Uncounting i) := uncounting_stable i
  have haside : ∀ m l f, Aside env id l f → (counting env id start calls).inv m → Uncounting i m →
      A m i l → (counting env id start calls).inv (m.after i l f) ∧ True ∧ Uncounting i (m.after i l f) :=
    fun _ _ _ hl hinv hm _ => ⟨Counting.aside hinv hl, trivial, hm.aside hl⟩
  have hlimits : ∀ {l : Label} {f : World → World}, isListing l = false → (∀ w, (f w).now = w.now ∧
      (f w).limits.blacklistUser = w.limits.blacklistUser ∧ (f w).db.users = w.db.users) →
      Aside env id l f := .of_users
  refine wp_acts ?_ hstable haside hm (fun _ _ _ => trivial) fun locked m₁ hm₁ => ?_
  · exact .provided (.bind_except (.call ⟨hlimits rfl fun _ => ⟨rfl, rfl, rfl⟩, fun _ => trivial⟩)
      fun _ => trivial)
  cases locked with
  | true => trivial
  | false =>
    refine wp_acts ?_ hstable haside hm₁ (fun _ _ _ => trivial) fun limited m₂ hm₂ => ?_
    · exact .provided (.bind_except (.call ⟨hlimits rfl fun _ => ⟨rfl, rfl, rfl⟩, fun _ => trivial⟩)
        fun _ => trivial)
    cases limited with
    | true => trivial
    | false =>
      refine wp_bind_except.mpr (wp_provided (fun _ => trivial) fun _ => ?_)
      refine wp_send hstable hm₂ (fun _ _ => trivial) fun m₃ hinv₃ hm₃ _ => ?_
      obtain ⟨hcounted, hearned⟩ := Counting.count hinv₃ hm₃ (accountID user)
      refine ⟨hcounted, trivial, trivial, ?_⟩
      dsimp only
      generalize hlocked : (m₃.shared.limits.incrementBlacklistByUser m₃.shared.now _ _ _).1.locked = locked
        at hearned ⊢
      cases locked with
      | false => trivial
      | true => exact lockForGood_wp fun u hu hid => hearned rfl (hspelt u hu hid)

/-- **A login keeps the account of the counts**, and has counted nothing if it succeeds. -/
theorem signIn_wp (hm : Uncounting i m) : Wp (counting env id start calls) A i ((calls i).code env)
      (fun succeeded m' => succeeded = true → Uncounting i m') m := by
  refine wp_bind.mpr ?_
  refine Wp.imp (Q := Gives fun _ m' => Uncounting i m') ?_ fun r m' hr hok => ?_
  · refine .found fun method hmethod => ?_
    refine .bind (P := fun _ m' => Uncounting i m') ?_ fun result m₁ hm₁ => ?_
    · cases method with
      | federatedOIDC =>
        cases hanswer : (calls i).answer with
        | error e => exact gives_error
        | ok r => exact fun _ _ => hm
      | password =>
        refine .bind (preparePasswordAuthentication_spelt hm _ _) fun user m₁ hm₁ => ?_
        refine .caught (aside_wp ((passwordMethod_entering _ _ _).imp fun _ _ h => h.aside) hm₁.1)
          fun r m₂ hm₂ => ?_
        split
        next => exact fun _ _ => hm₂
        next =>
          refine wp_bind_except.mpr ((registerPasswordFailure_wp hm₂ hm₁.2 _).imp fun r m₃ _ => ?_)
          cases r <;> exact gives_error
        next => exact gives_error
    · split
      · exact fun _ _ => hm₁
      · refine .require fun _ => ?_
        refine .bind ((aside_wp ((resolveUser_entering _ _ _).imp fun _ _ h => h.aside) hm₁).imp fun _ _ h _ _ => h) fun found m₂ hm₂ => ?_
        refine .found fun user _ => ?_
        exact (aside_wp (enter_aside _ _ _ _ _) hm₂).imp fun _ _ h _ _ => h
  · cases r with
    | error e => cases hok
    | ok a => exact hr a rfl

end Login

/-! ## The law -/

theorem adminUnlockUser_eval {id : Int} {w w' : World} {result : Register.AdminUnlockUserResult}
    (h : (Register.adminUnlockUser id).run.eval w = (.ok result, w')) :
    ∃ user, w.db.findUser id = some user ∧ w'.now = w.now ∧ w'.db = w.db.unlockAccount id ∧
      w'.limits.blacklistUser = match nonblank user.username with
        | none => w.limits.blacklistUser
        | some name => w.limits.blacklistUser.del name := by
  obtain ⟨_, _, hpositive, h⟩ := Prog.eval_bind_eq_ok.mp h
  obtain ⟨-, rfl⟩ := Prog.eval_require_eq_ok.mp hpositive
  obtain ⟨_, _, hread, h⟩ := Prog.eval_bind_eq_ok.mp h
  obtain ⟨rfl, rfl⟩ := Prod.mk.inj (Prog.eval_call_eq_ok.mp hread)
  obtain ⟨user, _, hfound, h⟩ := Prog.eval_bind_eq_ok.mp h
  obtain ⟨huser, rfl⟩ := Prog.eval_found_eq_ok.mp hfound
  obtain ⟨_, _, hnow, h⟩ := Prog.eval_bind_eq_ok.mp h
  obtain ⟨rfl, rfl⟩ := Prod.mk.inj (Prog.eval_lift_eq_ok.mp hnow)
  obtain ⟨_, _, hunlock, h⟩ := Prog.eval_bind_eq_ok.mp h
  obtain ⟨rfl, rfl⟩ := Prod.mk.inj (Prog.eval_call_eq_ok.mp hunlock)
  obtain ⟨_, _, hclear, h⟩ := Prog.eval_bind_eq_ok.mp h
  obtain rfl := Prog.eval_attempt_eq_ok.mp hclear
  refine ⟨user, huser, ?_⟩
  cases hname : nonblank user.username with
  | none =>
    rw [hname] at h
    obtain ⟨-, rfl⟩ := Prog.eval_pure_eq_ok.mp h
    exact ⟨rfl, rfl, rfl⟩
  | some name =>
    rw [hname] at h
    obtain ⟨_, _, hfail, h⟩ := Prog.eval_bind_eq_ok.mp h
    obtain rfl := Prog.eval_attempt_eq_ok.mp hfail
    obtain ⟨_, _, hlist, h⟩ := Prog.eval_bind_eq_ok.mp h
    obtain rfl := Prog.eval_attempt_eq_ok.mp hlist
    obtain ⟨-, rfl⟩ := Prog.eval_pure_eq_ok.mp h
    exact ⟨rfl, rfl, rfl⟩

/-- **The condition**: the account has no count under a spelling other than the stored one. -/
def NoOtherSpelling (env : Env) (id : Int) (w : World) : Prop :=
  ∀ stored, w.db.findUser id = some stored → ∀ name, Resolves env id w.db name →
    nonblank stored.username = some name ∨ listed w name ≤ 0

section Law

variable {ι : Type} [DecidableEq ι] {env : Env} {id : Int} {w w' : World} {calls : ι → SignIn}

theorem counting_start {result : Register.AdminUnlockUserResult}
    (h : (Register.adminUnlockUser id).run.eval w = (.ok result, w'))
    (hspelling : NoOtherSpelling env id w) :
    Counting env id w' calls ⟨[], w'⟩ := by
  obtain ⟨stored, hstored, hnow, hdb, hblacklist⟩ := adminUnlockUser_eval h
  let unlock : User → User := fun u =>
    if u.id = id ∧ u.status = "locked" then { u with status := "active" } else u
  have hunlock : ∀ u, (unlock u).username = u.username ∧ (unlock u).id = u.id := by
    intro u
    dsimp only [unlock]
    split <;> exact ⟨rfl, rfl⟩
  have husers : w'.db.users = w.db.users.map unlock := by
    rw [hdb]
    rfl
  refine ⟨fun _ h => h, ?_, fun name hname => ?_, ?_, fun _ => Nat.zero_le _, fun x hx => ?_⟩
  · refine ⟨unlock stored, ?_, (hunlock stored).2.trans (Database.findUser_id hstored)⟩
    rw [husers]
    exact List.mem_map_of_mem (List.mem_of_find?_eq_some hstored)
  · have hbefore : Resolves env id w.db name := by
      rw [hdb] at hname
      exact (resolves_map hunlock).mp hname
    rw [listed, hnow, hblacklist]
    rcases hspelling stored hstored name hbefore with hsame | hzero
    · rw [hsame]
      simp
    · split
      next => exact hzero
      next other _ =>
        by_cases hother : name = other
        · simp [hother]
        · rw [Keyspace.get_del_of_ne hother]
          exact hzero
  · rintro ⟨user, huser, hid, hstatus⟩
    rw [husers] at huser
    obtain ⟨old, -, rfl⟩ := List.mem_map.mp huser
    have hold : old.id = id := (hunlock old).2 ▸ hid
    by_cases hlocked : old.status = "locked"
    · simp [unlock, hold, hlocked] at hstatus
    · simp [unlock, hlocked] at hstatus
  · cases hx

theorem Counting.distinct {m : Moment ι World Label} {start : World} (h : Counting env id start calls m)
    (name : String) : ((m.trace.filter (countsUnder name)).map (·.pid)).Nodup := by
  refine List.nodup_iff_count_le_one.mpr fun j => ?_
  have hlisting : ∀ x : Event ι World Label, countsUnder name x = true → isListing x.label = true := by
    intro x hx
    by_contra hnot
    rw [countsUnder_of_not (by simpa using hnot)] at hx
    cases hx
  calc ((m.trace.filter (countsUnder name)).map (·.pid)).count j
      = (m.trace.filter (countsUnder name)).countP (fun x => x.pid == j) := by
        rw [List.count, List.countP_map]
        rfl
    _ = m.trace.countP (fun x => decide (x.pid = j ∧ countsUnder name x = true)) := by
        rw [List.countP_filter]
        refine List.countP_congr fun x _ => ?_
        simp
    _ ≤ m.trace.countP (fun x => decide (isListing x.label = true ∧ x.pid = j)) := by
        refine List.countP_mono_left fun x _ hx => ?_
        have hboth := of_decide_eq_true hx
        exact decide_eq_true ⟨hlisting x hboth.2, hboth.1⟩
    _ = (m.own j).countP (isListing ·.label) := by
        rw [Moment.own, List.countP_filter]
        refine List.countP_congr fun x _ => ?_
        simp
    _ ≤ 1 := h.once j

/-- **An unlocked account gets a fresh allowance**: if it has no count under another spelling when it is
unlocked, it is locked for good again only after as many failed attempts under a spelling of it as the
threshold says, each another login, whatever else runs and fails. -/
theorem unlocked_allowance {result : Register.AdminUnlockUserResult}
    (hunlock : (Register.adminUnlockUser id).run.eval w = (.ok result, w'))
    (hspelling : NoOtherSpelling env id w) {c : Config ι World Label Bool}
    (hrun : Reach (SparesAccount env id) Unrestricted (Config.start w' fun i => (calls i).code env) c)
    (hlocked : LockedForGood id c.shared.db) :
    ∃ failed : List ι, failed.Nodup ∧
      env.ratePolicy.permanentUserLockThreshold ≤ (failed.length : Int) ∧
      ∀ i ∈ failed, Resolves env id w'.db (trimSpace (calls i).input.username) ∧
        c.procs i ≠ .ret true := by
  have hsafe : c.Safe (counting env id w' calls) Unrestricted
      fun i succeeded m => succeeded = true → Uncounting i m := by
    refine sound (fun m s' hinv hE => ⟨Counting.elsewhere hinv hE, trivial⟩)
      (fun i succeeded m m' hr hinv h hok => uncounting_stable i m m' hr hinv (h hok)) ?_ hrun
    exact ⟨counting_start hunlock hspelling, fun i => signIn_wp rfl⟩
  have hinv : Counting env id w' calls c.toMoment := hsafe.1
  obtain ⟨name, hname, hcount⟩ := hinv.locked hlocked
  refine ⟨(c.trace.filter (countsUnder name)).map (·.pid), hinv.distinct name, ?_, fun i hi => ?_⟩
  · rwa [List.length_map, ← List.countP_eq_length_filter]
  · obtain ⟨x, hx, rfl⟩ := List.mem_map.mp hi
    obtain ⟨hmem, hunder⟩ := List.mem_filter.mp hx
    refine ⟨hinv.typed x hmem name hunder ▸ hname, fun hret => ?_⟩
    have hnone : (c.toMoment.own x.pid).countP (isListing ·.label) = 0 := hsafe.returned hret rfl
    have hlisting : isListing x.label = true := by
      by_contra hnot
      rw [countsUnder_of_not (by simpa using hnot)] at hunder
      cases hunder
    exact List.countP_eq_zero.mp hnone x (Moment.mem_own.mpr ⟨hmem, rfl⟩) hlisting

end Law

/-! ## An account that two failures lock -/

def twoFailures : Env :=
  { foldingEnv with ratePolicy := { foldingEnv.ratePolicy with
      failureWindow := 0, permanentUserLockThreshold := 2 } }

def mistyped (username : String) : SignIn :=
  ⟨⟨"s1", "c1", "11", "u-2"⟩, .error .connector, { username := username, password := "wrong" }⟩

def twiceMistyped (username : String) : World :=
  let code := (mistyped username).code twoFailures
  (code.eval (code.eval oneAccount).2).2

def lockedByName : World :=
  { oneAccount with
    db := { oneAccount.db with users := [{ account with status := "locked" }] }
    limits := { oneAccount.limits with blacklistUser := Keyspace.empty.put "ada" 2 none } }

theorem lockedByName_spelling : NoOtherSpelling twoFailures 1 lockedByName := by
  intro stored hstored name _
  obtain rfl := Option.some.inj hstored
  by_cases hname : name = "ada"
  · left
    rw [hname]
    decide +kernel
  · right
    have hother : lockedByName.limits.blacklistUser name = none := Keyspace.put_of_ne hname
    simp [listed, Keyspace.get, Keyspace.entry, hother]

instance (id : Int) (db : Database) : Decidable (LockedForGood id db) :=
  inferInstanceAs (Decidable (∃ user ∈ db.users, user.id = id ∧ user.status = "locked"))

theorem unlocked_allowance_two :
    ∃ result w', (Register.adminUnlockUser 1).run.eval lockedByName = (.ok result, w') ∧
      ∃ c, Reach (SparesAccount twoFailures 1) Unrestricted
          (Config.start w' fun _ : Bool => (mistyped "ADA").code twoFailures) c ∧
        LockedForGood 1 c.shared.db ∧
        ∃ failed : List Bool, failed.Nodup ∧ 2 ≤ (failed.length : Int) := by
  have hunlock : ((Register.adminUnlockUser 1).run.eval lockedByName).1 = .ok ⟨1, "ada", 0⟩ := by
    decide +kernel
  obtain ⟨c, hrun, hlocked⟩ := exists_played (E := SparesAccount twoFailures 1) (A := Unrestricted)
    (c := Config.start ((Register.adminUnlockUser 1).run.eval lockedByName).2
      fun _ : Bool => (mistyped "ADA").code twoFailures)
    (P := fun c => LockedForGood 1 c.shared.db)
    [.run false, .run false, .run false, .run true, .run true, .run true, .run true]
    (by simp [Move.Allowed]) (by decide +kernel)
  obtain ⟨failed, hnodup, hcount, -⟩ :=
    unlocked_allowance (Prod.ext hunlock rfl) lockedByName_spelling hrun hlocked
  exact ⟨_, _, Prod.ext hunlock rfl, c, hrun, hlocked, failed, hnodup, hcount⟩

/-- **The law fails without the condition.** Two failures under another spelling have locked the account;
after it is unlocked, one more locks it again. -/
theorem lockedAtOnce :
    ∃ w result w', w = twiceMistyped "ADA" ∧
      (Register.adminUnlockUser 1).run.eval w = (.ok result, w') ∧ ¬ LockedForGood 1 w'.db ∧
      (∃ c, Reach (SparesAccount twoFailures 1) Unrestricted
          (Config.start w' fun _ : Unit => (mistyped "ADA").code twoFailures) c ∧
        LockedForGood 1 c.shared.db) ∧
      twoFailures.ratePolicy.permanentUserLockThreshold = 2 := by
  have hunlock : ((Register.adminUnlockUser 1).run.eval (twiceMistyped "ADA")).1 = .ok ⟨1, "ada", 0⟩ := by
    decide +kernel
  refine ⟨_, _, _, rfl, Prod.ext hunlock rfl, by decide +kernel, ?_, rfl⟩
  exact exists_played (P := fun c : Config Unit World Label Bool => LockedForGood 1 c.shared.db)
    [.run (), .run (), .run (), .run ()] (by simp [Move.Allowed]) (by decide +kernel)

end IdpServer.Laws.Authn
