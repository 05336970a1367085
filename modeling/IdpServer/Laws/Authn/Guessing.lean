import IdpServer.Conc.Alone
import IdpServer.Laws.Authn.Attempts

/-!
# Laws.Authn.Guessing — how many passwords may be tried

The lock of an account is under its id, but **the count of wrong passwords under the name as it was typed**
(`guessesUnbounded`). `guessesBounded` is the law for one spelling.
-/

namespace IdpServer.Laws.Authn

open Conc IdpServer.Cache Store Go IdpServer.Authn
open Laws.Session (succeeds)

/-! ## Attempts one after the other -/

/-- The attempts one after the other: each has returned before the next begins. The trace of each meets `C`;
the trace of all has the latest command first. -/
inductive Series (env : Env) (E : World → World → Prop) (C : List (Event Unit World Label) → Prop) :
    World → List Guess → List (Event Unit World Label) → World → Prop
  | nil {w : World} : Series env E C w [] [] w
  | cons {w w' : World} {g : Guess} {gs : List Guess} {c : Config Unit World Label Bool} {b : Bool}
      {t : List (Event Unit World Label)}
      (hrun : Reach E Unrestricted (Config.start w fun _ => g.code env) c)
      (hret : c.procs () = .ret b) (hC : C c.trace) (hrest : Series env E C c.shared gs t w') :
      Series env E C w (g :: gs) (t ++ c.trace) w'

def counts (x : Event Unit World Label) : Bool :=
  match x.label with
  | .incrementLoginFailByUser _ _ => true
  | _ => false

/-- The count of a checked password was not lost. -/
def CountSent (id : Int) (t : List (Event Unit World Label)) : Prop :=
  t.any (checks id) = true → t.any counts = true

/-! ## One attempt -/

section Attempt

variable (env : Env) (id : Int) (name : String) (gs : List Guess) (start deadline : Int) (n : Nat)

structure Uncounted (k : Nat) (m : Moment Unit World Label) : Prop where
  guarded : Guarded env id name gs start deadline n m.shared
  checked : m.trace.countP (checks id) = k
  within : (n : Int) + k ≤ env.ratePolicy.userLockThreshold
  uncounted : m.trace.any counts = false

structure Counted (m : Moment Unit World Label) : Prop where
  guarded : Guarded env id name gs start deadline (n + 1) m.shared
  checked : m.trace.countP (checks id) ≤ 1
  below : (n : Int) + 1 < env.ratePolicy.userLockThreshold

def Known : Stage → Moment Unit World Label → Prop
  | .before => Uncounted env id name gs start deadline n 0
  | .checked => Uncounted env id name gs start deadline n 1
  | .counted => Counted env id name gs start deadline n

/-- **What an attempt leaves**: the passwords it checked are counted too, if its count was sent. -/
def Tally (m : Moment Unit World Label) : Prop :=
  CountSent id m.trace →
    Guarded env id name gs start deadline (n + m.trace.countP (checks id)) m.shared ∧
      (n : Int) + m.trace.countP (checks id) ≤ env.ratePolicy.userLockThreshold

variable {env id name gs start deadline n}
variable {A : Moment Unit World Label → Unit → Label → Prop} {m : Moment Unit World Label} {k : Nat}

theorem uncounted_kept : KeptBy (Waits deadline) (Uncounted env id name gs start deadline n k) :=
  fun _ _ _ hw h => ⟨h.guarded.waits hw, h.checked, h.within, h.uncounted⟩

theorem counted_kept : KeptBy (Waits deadline) (Counted env id name gs start deadline n) :=
  fun _ _ _ hw h => ⟨h.guarded.waits hw, h.checked, h.below⟩

theorem tally_kept : KeptBy (Waits deadline) (Tally env id name gs start deadline n) :=
  fun _ _ _ hw h hsent => ⟨(h hsent).1.waits hw, (h hsent).2⟩

theorem Uncounted.tally (h : Uncounted env id name gs start deadline n k m) :
    Tally env id name gs start deadline n m := by
  intro hsent
  -- a check without a count is a lost count
  have hnone : m.trace.countP (checks id) = 0 := by
    refine Nat.eq_zero_of_not_pos fun hpos => ?_
    have hchecked : m.trace.any (checks id) = true :=
      List.any_eq_true.mpr (List.countP_pos_iff.mp hpos)
    exact absurd (hsent hchecked) (by simp [h.uncounted])
  have hwithin := h.within
  rw [hnone]
  exact ⟨h.guarded, by omega⟩

theorem Counted.tally (h : Counted env id name gs start deadline n m) :
    Tally env id name gs start deadline n m := by
  intro _
  have hbelow := h.below
  have hchecked := h.checked
  exact ⟨h.guarded.of_le (by omega), by omega⟩

theorem Uncounted.count (hpolicy : Lasting env.ratePolicy) (hid : 0 < id)
    (hlength : deadline ≤ start + durationSeconds env.ratePolicy.failureWindow * second)
    (hk : k ≤ 1) (h : Uncounted env id name gs start deadline n k m) :
    let r := fun w : World => w.limits.incrementLoginFailByUser w.now name (formatInt id)
      env.ratePolicy.failureWindow env.ratePolicy.userLockThreshold env.ratePolicy.userLockTTL
    let m' := m.after () (.incrementLoginFailByUser name (formatInt id)) fun w =>
      { w with limits := (r w).2 }
    Tally env id name gs start deadline n m' ∧
      ((r m.shared).1.locked = false → Counted env id name gs start deadline n m') := by
  intro r m'
  obtain ⟨hguarded, hopen⟩ := h.guarded.count hpolicy hid hlength
  have hchecked : m'.trace.countP (checks id) = k := by
    simpa [m', Moment.after, checks] using h.checked
  refine ⟨fun _ => ?_, fun hlocked => ⟨hguarded, by omega, hopen hlocked⟩⟩
  rw [hchecked]
  exact ⟨hguarded.of_le (by omega), h.within⟩

theorem Counted.after {l : Label} {f : World → World} (hl : Aftermath l f)
    (h : Counted env id name gs start deadline n m) :
    Counted env id name gs start deadline n (m.after () l f) := by
  have hother : checks id (⟨(), l, m.shared⟩ : Event Unit World Label) = false := by
    cases hl <;> simp [checks]
  refine ⟨?_, by simpa [Moment.after, hother] using h.checked, h.below⟩
  -- below the threshold it does not matter what becomes of the locks
  have hbelow : ¬ env.ratePolicy.userLockThreshold ≤ ((n + 1 : Nat) : Int) := by
    have := h.below
    omega
  cases hl with
  | lockAccount userID =>
    exact h.guarded.relocked rfl rfl (h.guarded.targets.lockAccount userID) fun hn => absurd hn hbelow
  | _ => exact h.guarded.relocked rfl rfl h.guarded.targets fun hn => absurd hn hbelow

/-- **One attempt at the login form.** -/
theorem known_trial (hpolicy : Lasting env.ratePolicy) (hid : 0 < id)
    (hlength : deadline ≤ start + durationSeconds env.ratePolicy.failureWindow * second)
    {g : Guess} (hg : g ∈ gs) (htyped : trimSpace g.username = name) (hname : name ≠ "") :
    Trial env id g (alone (Waits deadline)) A () (Known env id name gs start deadline n)
      ((n : Int) < env.ratePolicy.userLockThreshold) (Tally env id name gs start deadline n) where
  stable
    | .before => alone_stable uncounted_kept
    | .checked => alone_stable uncounted_kept
    | .counted => alone_stable counted_kept
  ends {s _} h := match s with
    | .before => Uncounted.tally h
    | .checked => Uncounted.tally h
    | .counted => Counted.tally h
  typed := htyped ▸ hname
  targets _ hm := by
    intro g' hg'
    exact hm.guarded.targets g' (List.mem_singleton.mp hg' ▸ hg)
  unlocked _ hm hopen := by
    by_contra hreached
    rw [hm.guarded.isUserLocked (by omega)] at hopen
    cases hopen
  check {m} _ hm hopen _ := by
    obtain ⟨hinv, hmono⟩ := alone_after (m := m) (.verifyPassword id) fun w => w
    refine ⟨hinv, hmono, hm.guarded, ?_, by omega, ?_⟩
    · simpa [Moment.after, checks] using hm.checked
    · simpa [Moment.after, counts] using hm.uncounted
  count {s m} hs _ hm _ := by
    subst htyped
    obtain ⟨hinv, hmono⟩ := alone_after (m := m)
      (.incrementLoginFailByUser (trimSpace g.username) (formatInt id)) _
    refine ⟨hinv, hmono, ?_⟩
    cases s with
    | before => exact Uncounted.count hpolicy hid hlength (by omega) hm
    | checked => exact Uncounted.count hpolicy hid hlength (by omega) hm
    | counted => exact absurd rfl hs
  aftermath {m l f} hl _ hm _ := by
    obtain ⟨hinv, hmono⟩ := alone_after l f
    exact ⟨hinv, hmono, hm.after hl⟩

end Attempt

/-! ## The law -/

theorem Guarded.series {env : Env} {id : Int} {name : String} {all gs : List Guess}
    {start deadline : Int} {n : Nat} {w w' : World} {t : List (Event Unit World Label)}
    {E : World → World → Prop} (hE : ∀ s s', E s s' → Waits deadline s s')
    (hpolicy : Lasting env.ratePolicy) (hid : 0 < id)
    (hlength : deadline ≤ start + durationSeconds env.ratePolicy.failureWindow * second)
    (hgs : ∀ g ∈ gs, g ∈ all ∧ g.ByForm ∧ trimSpace g.username = name)
    (hn : (n : Int) ≤ env.ratePolicy.userLockThreshold)
    (h : Guarded env id name all start deadline n w)
    (hseries : Series env E (CountSent id) w gs t w') :
    (n : Int) + t.countP (checks id) ≤ env.ratePolicy.userLockThreshold := by
  induction hseries generalizing n with
  | nil => simpa using hn
  | @cons w w' g gs c b t hrun hret hC hrest ih =>
    obtain ⟨⟨hall, hform, htyped⟩, hgs⟩ := List.forall_mem_cons.mp hgs
    have hstart : Uncounted env id name all start deadline n 0 ⟨[], w⟩ := ⟨h, rfl, by simpa, rfl⟩
    have hname : name ≠ "" := by
      obtain ⟨_, _, hname, _⟩ := h.targets g hall
      obtain ⟨rfl, hne⟩ := nonblank_eq_some.mp hname
      exact htyped ▸ hne
    have htally : Tally env id name all start deadline n c.toMoment :=
      alone_run (fun _ => tally_kept)
        (trial_wp (known_trial hpolicy hid hlength hall htyped hname) hpolicy hid hform hstart)
        (hrun.widen hE) hret
    obtain ⟨hguarded, hwithin⟩ := htally hC
    have hrest := ih hgs (by simpa using hwithin) hguarded
    rw [List.countP_append]
    push_cast at hrest ⊢
    omega

/-- **No more than the threshold of wrong passwords are checked**, whatever happens to the calls but the
count, at the login form under one spelling of the name. -/
theorem guessesBounded {env : Env} {id : Int} {name : String} {gs : List Guess} {deadline : Int}
    {w w' : World} {t : List (Event Unit World Label)} {E : World → World → Prop}
    (hid : 0 < id) (hpolicy : Lasting env.ratePolicy) (hwindow : InWindow env name deadline w)
    (htargets : Targets env id gs w) (hE : ∀ s s', E s s' → Waits deadline s s')
    (hforms : ∀ g ∈ gs, g.ByForm ∧ trimSpace g.username = name)
    (hseries : Series env E (CountSent id) w gs t w') :
    (t.countP (checks id) : Int) ≤ env.ratePolicy.userLockThreshold := by
  have hthreshold := hpolicy.threshold
  have hstart : Guarded env id name gs w.now deadline 0 w :=
    ⟨Int.le_refl _, hwindow.inside, htargets, hwindow.begun, hwindow.counted, fun h => by omega⟩
  have hbound := hstart.series hE hpolicy hid hwindow.length (fun g hg => ⟨hg, hforms g hg⟩)
    (by omega) hseries
  omega

/-! ## Attempts that nothing disturbs -/

instance (id : Int) (t : List (Event Unit World Label)) : Decidable (CountSent id t) :=
  inferInstanceAs (Decidable (_ → _))

def attempts (env : Env) : World → List Guess → List (List (Event Unit World Label))
  | _, [] => []
  | w, g :: gs => (g.code env).log w [] :: attempts env ((g.code env).eval w).2 gs

theorem attempts_series (env : Env) (E : World → World → Prop)
    {C : List (Event Unit World Label) → Prop} (w : World) (gs : List Guess)
    (hC : ∀ t ∈ attempts env w gs, C t) :
    ∃ w', Series env E C w gs (attempts env w gs).reverse.flatten w' := by
  induction gs generalizing w with
  | nil => exact ⟨w, .nil⟩
  | cons g gs ih =>
    obtain ⟨hfirst, hrest⟩ := List.forall_mem_cons.mp hC
    obtain ⟨w', hseries⟩ := ih _ hrest
    refine ⟨w', ?_⟩
    rw [attempts, List.reverse_cons, List.flatten_append, List.flatten_singleton]
    exact .cons (alone_eval E (g.code env) w []) rfl hfirst hseries

def helpdesk : Client where
  id := 1
  clientID := "helpdesk"
  clientName := "Helpdesk"
  clientSecretHash := ""
  requirePKCE := false
  requireConsent := false
  accessTokenTTLSeconds := 3600
  refreshTokenTTLSeconds := 0
  idTokenTTLSeconds := 0
  status := "active"
  redirectURIs := []
  grantTypes := [Token.GrantType.password.text]
  scopes := []

def foldingEnv : Env := { Env.plain [helpdesk] with sqlEq := equalFold }

def account : User :=
  ⟨1, "u-1", "ada", "ada@idp", true, "Ada", "right", "user", 0#32, "", "active"⟩

def oneAccount : World :=
  { World.empty 0 with db := { Database.empty with users := [account] } }

def typing (username : String) : Guess :=
  .login ⟨"s1", "c1", "11", "u-2"⟩ (.error .connector) { username := username, password := "wrong" }

def asking (username : String) : Guess :=
  .grant ⟨"a1", "i1", "r1"⟩
    { grantType := .password, clientID := "helpdesk", username := username, password := "wrong" }

def quarterHour : Int := 900 * second

theorem foldingEnv_lasting : Lasting foldingEnv.ratePolicy :=
  ⟨by decide, by decide, by decide, .inr (by decide)⟩

theorem oneAccount_inWindow (name : String) : InWindow foldingEnv name quarterHour oneAccount :=
  ⟨by decide, by decide, nofun, Int.le_refl 0⟩

theorem oneAccount_targets {gs : List Guess}
    (h : ∀ g ∈ gs, equalFold account.username (trimSpace g.username) = true ∧ g.password = "wrong") :
    Targets foldingEnv 1 gs oneAccount := by
  intro g hg
  obtain ⟨hname, hpassword⟩ := h g hg
  have hne : trimSpace g.username ≠ "" := by
    intro hempty
    rw [hempty] at hname
    exact absurd hname (by decide +kernel)
  have hwrong : foldingEnv.verifyPassword g.password account.passwordHash = false := by
    rw [hpassword]
    decide +kernel
  have hfound : (oneAccount.db.users.find? fun u => foldingEnv.sqlEq u.username
      (trimSpace g.username)) = some account := by
    show ([account].find? fun u => equalFold u.username (trimSpace g.username)) = some account
    rw [List.find?_cons, hname]
  exact ⟨trimSpace g.username, account, nonblank_eq_some.mpr ⟨rfl, hne⟩, hfound, rfl, hwrong⟩

theorem guessesBounded_oneSpelling :
    ∃ t w', Series foldingEnv (Waits quarterHour) (CountSent 1) oneAccount
        (List.replicate 6 (typing "ada")) t w' ∧
      (t.countP (checks 1) : Int) ≤ foldingEnv.ratePolicy.userLockThreshold := by
  obtain ⟨w', hseries⟩ := attempts_series foldingEnv (Waits quarterHour) (C := CountSent 1)
    oneAccount (List.replicate 6 (typing "ada")) (by decide +kernel)
  refine ⟨_, w', hseries, guessesBounded (by decide) foldingEnv_lasting (oneAccount_inWindow "ada")
    (oneAccount_targets (by decide +kernel)) (fun _ _ h => h) (by decide +kernel) hseries⟩

/-- Four times the one spelling and twice the other: the sixth password is checked. And so it is if
all six are asked for with the password grant. -/
theorem guessesUnbounded :
    Lasting foldingEnv.ratePolicy ∧
    (∀ name, InWindow foldingEnv name quarterHour oneAccount) ∧
    (∃ gs t w', Targets foldingEnv 1 gs oneAccount ∧ (∀ g ∈ gs, g.ByForm) ∧
      Series foldingEnv (Waits quarterHour) (CountSent 1) oneAccount gs t w' ∧
      foldingEnv.ratePolicy.userLockThreshold < t.countP (checks 1)) ∧
    ∃ gs t w', Targets foldingEnv 1 gs oneAccount ∧ (∀ g ∈ gs, trimSpace g.username = "ada") ∧
      Series foldingEnv (Waits quarterHour) (fun _ => True) oneAccount gs t w' ∧
      foldingEnv.ratePolicy.userLockThreshold < t.countP (checks 1) := by
  refine ⟨foldingEnv_lasting, oneAccount_inWindow, ?_, ?_⟩
  · let spellings := ["ada", "ada", "ada", "ada", "ADA", "ADA"].map typing
    obtain ⟨w', hseries⟩ := attempts_series foldingEnv (Waits quarterHour) (C := CountSent 1)
      oneAccount spellings (by decide +kernel)
    exact ⟨spellings, _, w', oneAccount_targets (by decide +kernel), by decide +kernel, hseries,
      by decide +kernel⟩
  · let grants := List.replicate 6 (asking "ada")
    obtain ⟨w', hseries⟩ := attempts_series foldingEnv (Waits quarterHour) (C := fun _ => True)
      oneAccount grants fun _ _ => trivial
    exact ⟨grants, _, w', oneAccount_targets (by decide +kernel), by decide +kernel, hseries,
      by decide +kernel⟩

end IdpServer.Laws.Authn
