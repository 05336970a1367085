import IdpServer.Laws.Authn.Grounds
import IdpServer.Token.Service

/-!
# Laws.Authn.Attempts — an attempt at a password

An attempt looks at the lock, checks the password and counts the failure. `Trial` says what is to be shown of
each step; `trial_wp` goes through the code once.
-/

namespace IdpServer.Laws.Authn

open Conc IdpServer.Cache Store Go IdpServer.Authn
open Laws.Session (succeeds)

/-! ## Attempts -/

inductive Guess where
  | login (draws : LoginDraws) (answer : Except AuthnError ConnectorResult) (input : AuthenticateInput)
  | grant (draws : Token.Draws) (input : Token.ExchangeInput)

namespace Guess

def code (env : Env) : Guess → Action Bool
  | login draws answer input => succeeds (Authn.authenticate env draws answer input)
  | grant draws input => succeeds (Token.exchangePassword env draws input)

def username : Guess → String
  | login _ _ input => input.username
  | grant _ input => input.username

def password : Guess → String
  | login _ _ input => input.password
  | grant _ input => input.password

/-- The attempt is made with a password at the login form. -/
def ByForm : Guess → Prop
  | login _ _ input => resolveMethodType input = some .password
  | grant _ _ => False

instance (g : Guess) : Decidable g.ByForm :=
  match g with
  | login _ _ input => inferInstanceAs (Decidable (resolveMethodType input = some .password))
  | grant _ _ => inferInstanceAs (Decidable False)

end Guess

/-- The command checks a password of the account. -/
def checks {ι : Type} (id : Int) (x : Event ι World Label) : Bool := x.label = .verifyPassword id

/-- Every typed name is one of the account, and every password is wrong. -/
def Targets (env : Env) (id : Int) (gs : List Guess) (w : World) : Prop :=
  ∀ g ∈ gs, ∃ name user, nonblank g.username = some name ∧
    (w.db.users.find? fun u => env.sqlEq u.username name) = some user ∧ user.id = id ∧
    env.verifyPassword g.password user.passwordHash = false

/-- The window of the count: it lasts until the deadline, and so does a count that has begun. -/
structure InWindow (env : Env) (name : String) (deadline : Int) (w : World) : Prop where
  inside : w.now < deadline
  length : deadline ≤ w.now + durationSeconds env.ratePolicy.failureWindow * second
  begun : ∀ e, w.limits.failUser.entry w.now name = some e → ∀ t ∈ e.expireAt, deadline ≤ t
  counted : 0 ≤ (w.limits.failUser.get w.now name).getD 0

/-- Until the deadline nobody else signs in, unlocks anything or changes an account. -/
structure Waits (deadline : Int) (w w' : World) : Prop where
  clock : w.now ≤ w'.now
  inside : w'.now < deadline
  limits : w'.limits = w.limits
  users : w'.db.users = w.db.users

/-- **The condition on the policy**: failures are counted, and a lock lasts as long as the window. -/
structure Lasting (p : RateLimitPolicy) : Prop where
  window : 0 < p.failureWindow
  counted : 0 < p.maxFailuresPerUser
  threshold : 0 < p.userLockThreshold
  lock : p.userLockTTL ≤ 0 ∨ p.failureWindow ≤ p.userLockTTL

/-! ## What is known of the account -/

/-- After `n` checked passwords: the counter says so until the deadline, and if the threshold was
reached the account is locked until the deadline. -/
structure Guarded (env : Env) (id : Int) (name : String) (gs : List Guess) (start deadline : Int)
    (n : Nat) (w : World) : Prop where
  started : start ≤ w.now
  inside : w.now < deadline
  targets : Targets env id gs w
  begun : ∀ e, w.limits.failUser.entry w.now name = some e → ∀ t ∈ e.expireAt, deadline ≤ t
  counted : (n : Int) ≤ (w.limits.failUser.get w.now name).getD 0
  locked : env.ratePolicy.userLockThreshold ≤ n →
    ∃ e, w.limits.userLock.entry w.now (formatInt id) = some e ∧ ∀ t ∈ e.expireAt, deadline ≤ t

section Guarded

variable {env : Env} {id : Int} {name : String} {gs : List Guess} {start deadline : Int} {n : Nat}
variable {w w' : World}

theorem Guarded.waits (h : Guarded env id name gs start deadline n w) (hw : Waits deadline w w') :
    Guarded env id name gs start deadline n w' := by
  have hlive {β : Type} {e : Entry β} (he : ∀ t ∈ e.expireAt, deadline ≤ t) :
      ∀ t ∈ e.expireAt, w'.now < t := fun t ht => Int.lt_of_lt_of_le hw.inside (he t ht)
  refine ⟨Int.le_trans h.started hw.clock, hw.inside, ?_, ?_, ?_, fun hn => ?_⟩
  · simpa only [Targets, hw.users] using h.targets
  · intro e he
    rw [hw.limits, Keyspace.entry_eq_some] at he
    refine h.begun e (Keyspace.entry_eq_some.mpr ⟨he.1, fun t ht => ?_⟩)
    exact Int.lt_of_le_of_lt hw.clock (he.2 t ht)
  · -- a count that has begun is still there, and one that has not is still not
    have hcounted := h.counted
    rw [hw.limits]
    cases he : w.limits.failUser.entry w.now name with
    | none =>
      have hget := Keyspace.entry_eq_none_iff.mp he
      rwa [Keyspace.get_none_of_le hw.clock hget, ← hget]
    | some e =>
      have hlater := Keyspace.entry_of_alive he (hlive (h.begun e he))
      simpa only [Keyspace.get, he, hlater] using hcounted
  · obtain ⟨e, he, hlong⟩ := h.locked hn
    rw [hw.limits]
    exact ⟨e, Keyspace.entry_of_alive he (hlive hlong), hlong⟩

theorem Guarded.of_le {k : Nat} (h : Guarded env id name gs start deadline n w) (hk : k ≤ n) :
    Guarded env id name gs start deadline k w := by
  have hcounted := h.counted
  exact ⟨h.started, h.inside, h.targets, h.begun, by omega, fun hn => h.locked (by omega)⟩

theorem Guarded.isUserLocked (h : Guarded env id name gs start deadline n w)
    (hn : env.ratePolicy.userLockThreshold ≤ n) :
    w.limits.isUserLocked w.now (formatInt id) = true := by
  obtain ⟨e, he, _⟩ := h.locked hn
  simp [RateLimitCache.isUserLocked, Keyspace.has, Keyspace.get, he]

/-- **A count is one more**, and locks at the threshold. -/
theorem Guarded.count (hpolicy : Lasting env.ratePolicy) (hid : 0 < id)
    (hlength : deadline ≤ start + durationSeconds env.ratePolicy.failureWindow * second)
    (h : Guarded env id name gs start deadline n w) :
    let r := w.limits.incrementLoginFailByUser w.now name (formatInt id)
      env.ratePolicy.failureWindow env.ratePolicy.userLockThreshold env.ratePolicy.userLockTTL
    Guarded env id name gs start deadline (n + 1) { w with limits := r.2 } ∧
      (r.1.locked = false → (n : Int) + 1 < env.ratePolicy.userLockThreshold) := by
  intro r
  have hstarted := h.started
  have hinside := h.inside
  have hcounted := h.counted
  have hwindow : 0 < durationSeconds env.ratePolicy.failureWindow := by
    rw [durationSeconds_of_pos hpolicy.window]
    omega
  have hr : r = w.limits.incrementLoginFailByUser w.now name (formatInt id)
      env.ratePolicy.failureWindow env.ratePolicy.userLockThreshold env.ratePolicy.userLockTTL := rfl
  simp only [RateLimitCache.incrementLoginFailByUser, nonblank_formatInt hid] at hr
  -- the counter says one more, in the window it was in or a new one
  have hcounter : ∃ x, r.2.failUser.entry w.now name =
        some ⟨(w.limits.failUser.get w.now name).getD 0 + 1, x⟩ ∧
      ∀ t ∈ x, t = w.now + durationSeconds env.ratePolicy.failureWindow * second ∨
        ∃ e, w.limits.failUser.entry w.now name = some e ∧ t ∈ e.expireAt := by
    exact incrementWithLock_counter hwindow
  -- the lock, if the threshold is reached
  have hlocks : env.ratePolicy.userLockThreshold ≤ n + 1 → r.1.locked = true ∧
      r.2.userLock = w.limits.userLock.put (formatInt id) ()
        (if durationSeconds env.ratePolicy.userLockTTL > 0 then
          some (w.now + durationSeconds env.ratePolicy.userLockTTL * second) else none) := by
    intro hn
    rw [hr]
    exact incrementWithLock_locked hpolicy.threshold (by omega)
  obtain ⟨x, hentry, hx⟩ := hcounter
  refine ⟨⟨hstarted, hinside, h.targets, ?_, ?_, fun hn => ?_⟩, fun hopen => ?_⟩
  · intro e he t ht
    cases hentry.symm.trans he
    rcases hx t ht with rfl | ⟨e, he, hte⟩
    · omega
    · exact h.begun e he t hte
  · simp only [Keyspace.get, hentry, Option.map_some, Option.getD_some]
    simp only [Keyspace.get] at hcounted
    omega
  · have hlong : ∀ t ∈ (if durationSeconds env.ratePolicy.userLockTTL > 0 then
        some (w.now + durationSeconds env.ratePolicy.userLockTTL * second) else none),
        deadline ≤ t := by
      intro t ht
      rcases hpolicy.lock with hforever | hlong
      · have := durationSeconds_nonpos hforever
        rw [if_neg (by omega)] at ht
        cases ht
      · have := durationSeconds_mono hpolicy.window hlong
        rw [if_pos (by omega)] at ht
        cases ht
        simp only [second] at *
        omega
    refine ⟨⟨(), _⟩, ?_, hlong⟩
    rw [(hlocks (by omega)).2, Keyspace.entry_eq_some]
    exact ⟨Keyspace.put_self, fun t ht => Int.lt_of_lt_of_le hinside (hlong t ht)⟩
  · by_contra hreached
    have := (hlocks (by omega)).1
    simp [hopen] at this

theorem Guarded.relocked (h : Guarded env id name gs start deadline n w) (hnow : w'.now = w.now)
    (hcounters : w'.limits.failUser = w.limits.failUser) (htargets : Targets env id gs w')
    (hlocked : env.ratePolicy.userLockThreshold ≤ n →
      ∃ e, w'.limits.userLock.entry w.now (formatInt id) = some e ∧ ∀ t ∈ e.expireAt, deadline ≤ t) :
    Guarded env id name gs start deadline n w' := by
  obtain ⟨hstarted, hinside, _, hbegun, hcounted, _⟩ := h
  refine ⟨hnow ▸ hstarted, hnow ▸ hinside, htargets, ?_, ?_, ?_⟩
  · rwa [hnow, hcounters]
  · rwa [hnow, hcounters]
  · rwa [hnow]

end Guarded

theorem Targets.lockAccount {env : Env} {id : Int} {gs : List Guess} {w : World}
    (h : Targets env id gs w) (userID : Int) :
    Targets env id gs { w with db := w.db.lockAccount userID } := by
  intro g hg
  obtain ⟨name, user, hname, hfound, hid, hwrong⟩ := h g hg
  let lock : User → User := fun u =>
    if u.id = userID ∧ u.status = "active" then { u with status := "locked" } else u
  -- the lock changes the status only
  have hlock : ∀ u, (lock u).username = u.username ∧ (lock u).id = u.id ∧
      (lock u).passwordHash = u.passwordHash := by
    intro u
    dsimp only [lock]
    split <;> exact ⟨rfl, rfl, rfl⟩
  refine ⟨name, lock user, hname, ?_, (hlock user).2.1.trans hid, (hlock user).2.2 ▸ hwrong⟩
  show ((w.db.users.map lock).find? fun u => env.sqlEq u.username name) = some (lock user)
  have hsame : ((fun u : User => env.sqlEq u.username name) ∘ lock) =
      fun u => env.sqlEq u.username name :=
    funext fun u => congrArg (env.sqlEq · name) (hlock u).1
  rw [List.find?_map, hsame, hfound, Option.map_some]

/-! ## The steps of an attempt -/

inductive Stage where
  | before
  | checked
  | counted
  deriving DecidableEq

section Trial

variable {ι : Type} [DecidableEq ι]

/-- What is shown of the steps of an attempt `g`, made by program `i`: `R` is known at each stage, `Open`
follows from not finding the lock, and `Q` is what the attempt leaves. -/
structure Trial (env : Env) (id : Int) (g : Guess) (D : Discipline ι World Label)
    (A : Moment ι World Label → ι → Label → Prop) (i : ι) (R : Stage → Moment ι World Label → Prop)
    (Open : Prop) (Q : Moment ι World Label → Prop) : Prop where
  stable : ∀ s, D.Stable i (R s)
  ends : ∀ {s m}, R s m → Q m
  typed : trimSpace g.username ≠ ""
  targets : ∀ {m}, D.inv m → R .before m → Targets env id [g] m.shared
  unlocked : ∀ {m}, D.inv m → R .before m →
    m.shared.limits.isUserLocked m.shared.now (formatInt id) = false → Open
  check : ∀ {m}, D.inv m → R .before m → Open → A m i (.verifyPassword id) →
    let m' := m.after i (.verifyPassword id) fun w => w
    D.inv m' ∧ D.mono m m' ∧ R .checked m'
  count : ∀ {s m}, s ≠ .counted → D.inv m → R s m →
    A m i (.incrementLoginFailByUser (trimSpace g.username) (formatInt id)) →
    let r := fun w : World => w.limits.incrementLoginFailByUser w.now (trimSpace g.username)
      (formatInt id) env.ratePolicy.failureWindow env.ratePolicy.userLockThreshold
      env.ratePolicy.userLockTTL
    let m' := m.after i (.incrementLoginFailByUser (trimSpace g.username) (formatInt id)) fun w =>
      { w with limits := (r w).2 }
    D.inv m' ∧ D.mono m m' ∧ Q m' ∧ ((r m.shared).1.locked = false → R .counted m')
  aftermath : ∀ {m l f}, Aftermath l f → D.inv m → R .counted m → A m i l →
    D.inv (m.after i l f) ∧ D.mono m (m.after i l f) ∧ R .counted (m.after i l f)

variable {env : Env} {id : Int} {g : Guess} {D : Discipline ι World Label}
variable {A : Moment ι World Label → ι → Label → Prop} {i : ι}
variable {R : Stage → Moment ι World Label → Prop} {Open : Prop} {Q : Moment ι World Label → Prop}
variable {m : Moment ι World Label}

def Mistaken (env : Env) (id : Int) (g : Guess) (user : Option User) : Prop :=
  ∃ u, user = some u ∧ u.id = id ∧ env.verifyPassword g.password u.passwordHash = false

variable {ipAddress : String} {user : User}

theorem preparePasswordAuthentication_trial (laws : Trial env id g D A i R Open Q)
    (hm : R .before m) :
    Wp D A i (preparePasswordAuthentication env g.username ipAddress).run
      (fun r m' => R .before m' ∧ Gives (fun user _ => Mistaken env id g user ∧ Open) r m') m := by
  have hname : nonblank g.username = some (trimSpace g.username) :=
    nonblank_eq_some.mpr ⟨rfl, laws.typed⟩
  unfold preparePasswordAuthentication lookupUserByUsername
  refine wp_silent (checkIPLock_silent _) (laws.stable _) hm (fun _ _ h => ⟨h, gives_error⟩) fun _ m₁ hm₁ => ?_
  rw [hname]
  refine wp_ask (laws.stable _) hm₁ (fun _ h => ⟨h, gives_error⟩) fun m₂ hinv₂ hm₂ => ?_
  obtain ⟨_, user, hname₂, hfound, hid, hwrong⟩ := laws.targets hinv₂ hm₂ g List.mem_cons_self
  cases hname.symm.trans hname₂
  rw [hfound]
  refine wp_ask (laws.stable _) hm₂ (fun _ h => ⟨h, gives_error⟩) fun m₃ hinv₃ hm₃ => ?_
  refine wp_require (fun _ => ⟨hm₃, gives_error⟩) fun hunlocked => ⟨hm₃, ?_⟩
  exact .ok ⟨⟨user, rfl, hid, hwrong⟩, laws.unlocked hinv₃ hm₃ (hid ▸ hunlocked)⟩

theorem passwordMethod_trial (laws : Trial env id g D A i R Open Q) {username : String}
    (huser : user.id = id) (hwrong : env.verifyPassword g.password user.passwordHash = false)
    (hopen : Open) (hm : R .before m) :
    Wp D A i (passwordMethod env username g.password (some user)).run
      (fun r m' => (∃ e, r = .error e) ∧ ∃ s, s ≠ .counted ∧ R s m') m := by
  have hbefore : ∀ {e : AuthnError}, (∃ e', (.error e : Except AuthnError MethodResult) = .error e') ∧
      ∃ s, s ≠ .counted ∧ R s m := ⟨⟨_, rfl⟩, .before, by decide, hm⟩
  refine wp_require (fun _ => hbefore) fun _ => ?_
  refine wp_found (fun _ => hbefore) fun _ hsome => ?_
  cases hsome
  refine wp_require (fun _ => hbefore) fun _ => wp_require (fun _ => hbefore) fun _ => ?_
  refine wp_bind_except.mpr (wp_lift.mpr fun m₁ hr hinv ha => ?_)
  subst huser
  obtain ⟨hinv', hmono, hchecked⟩ := laws.check hinv (laws.stable _ m m₁ hr hinv hm) hopen ha
  refine ⟨hinv', hmono, wp_require (fun _ => ⟨⟨_, rfl⟩, .checked, by decide, hchecked⟩) fun hvalid => ?_⟩
  rw [hwrong] at hvalid
  cases hvalid

theorem registerPasswordFailure_trial (laws : Trial env id g D A i R Open Q)
    (hpolicy : Lasting env.ratePolicy) (hid : 0 < id) (huser : user.id = id) {s : Stage}
    (hs : s ≠ .counted) (hm : R s m) :
    Wp D A i (registerPasswordFailure env g.username ipAddress (some user)).run (fun _ => Q) m := by
  have haccount : accountID (some user) = formatInt id := by simp only [accountID, huser, hid, if_true]
  unfold registerPasswordFailure countUserFailure
  rw [haccount]
  refine wp_bind_except.mpr (wp_provided
    (fun h => absurd ⟨hpolicy.window, hpolicy.counted, laws.typed⟩ h) fun _ => ?_)
  refine wp_send (laws.stable s) hm (fun _ h => laws.ends h) fun m₁ hinv hm₁ ha => ?_
  obtain ⟨hinv', hmono, hend, hcounted⟩ := laws.count hs hinv hm₁ ha
  refine ⟨hinv', hmono, hend, ?_⟩
  dsimp only
  generalize hlocked : (m₁.shared.limits.incrementLoginFailByUser m₁.shared.now
    (trimSpace g.username) (formatInt id) env.ratePolicy.failureWindow
    env.ratePolicy.userLockThreshold env.ratePolicy.userLockTTL).1.locked = locked at hcounted ⊢
  cases locked with
  | true => exact hend
  | false =>
    have hacts := afterCount_acts env g.username ipAddress (some user) false
    rw [haccount] at hacts
    exact (Wp.of_acts hacts (laws.stable .counted)
      (fun _ _ _ hl hinv hm ha => laws.aftermath hl hinv hm ha) (hcounted rfl)).imp
      fun _ _ h => laws.ends h

/-- **One attempt at the login form.** -/
theorem trial_wp (laws : Trial env id g D A i R Open Q) (hpolicy : Lasting env.ratePolicy)
    (hid : 0 < id) (hform : g.ByForm) (hm : R .before m) :
    Wp D A i (g.code env) (fun _ => Q) m := by
  cases g with
  | grant draws input => exact hform.elim
  | login draws answer input =>
    refine wp_bind.mpr ?_
    refine wp_found (fun _ => laws.ends hm) fun method hmethod => ?_
    cases hform.symm.trans hmethod
    refine wp_bind_except.mpr (wp_bind_except.mpr
      ((preparePasswordAuthentication_trial laws hm).imp fun r m₁ hr => ?_))
    cases r with
    | error e => exact laws.ends hr.1
    | ok found =>
      obtain ⟨⟨user, rfl, huser, hwrong⟩, hopen⟩ := hr.2 _ rfl
      refine .caught (passwordMethod_trial laws huser hwrong hopen hr.1) fun r m₂ hr₂ => ?_
      obtain ⟨⟨e, rfl⟩, s, hs, hm₂⟩ := hr₂
      have hrefused : Q m₂ := laws.ends hm₂
      cases e with
      | invalidCredentials =>
        refine wp_bind_except.mpr ((registerPasswordFailure_trial laws hpolicy hid huser hs hm₂).imp
          fun r m₃ hr₃ => ?_)
        cases r <;> exact hr₃
      | _ => exact hrefused

end Trial

end IdpServer.Laws.Authn
