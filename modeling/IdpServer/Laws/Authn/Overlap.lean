import IdpServer.Laws.Authn.Guessing

/-!
# Laws.Authn.Overlap — attempts at the same time

The lock is looked at before the password is checked and the failure counted after it, so attempts that overlap
all check theirs (`overlappingGuesses_unbounded`; `overlappingGuesses_bounded`).
-/

namespace IdpServer.Laws.Authn

open Conc IdpServer.Cache Store Go IdpServer.Authn

variable {ι : Type}

def countsFor (id : Int) (name : String) (x : Event ι World Label) : Bool :=
  x.label = .incrementLoginFailByUser name (formatInt id)

/-- **The condition**: a password is checked while the account is not locked and every password checked
before has been counted, and the lock is not taken back. -/
def OneByOne (id : Int) (name : String) (m : Moment ι World Label) (_ : ι) : Label → Prop
  | .verifyPassword userID => userID = id →
      m.shared.limits.isUserLocked m.shared.now (formatInt id) = false ∧
        m.trace.countP (checks id) ≤ m.trace.countP (countsFor id name)
  | .clearUserLock userID => userID ≠ formatInt id
  | _ => True

instance (id : Int) (name : String) (m : Moment ι World Label) (i : ι) (l : Label) :
    Decidable (OneByOne id name m i l) := by
  induction l using Label.casesOn <;> dsimp only [OneByOne] <;> infer_instance

section Overlap

variable (env : Env) (id : Int) (name : String) (guesses : ι → Guess) (start deadline : Int)

/-- While attempts are made at the account: the counter knows of every count, and no more passwords
than the threshold have been checked. -/
structure Numbered (m : Moment ι World Label) : Prop where
  guarded : Guarded env id name [] start deadline (m.trace.countP (countsFor id name)) m.shared
  targets : ∀ i, Targets env id [guesses i] m.shared
  within : (m.trace.countP (checks id) : Int) ≤ env.ratePolicy.userLockThreshold

def numbers : Discipline ι World Label where
  inv := Numbered env id name guesses start deadline
  mono _ _ := True
  mono_refl _ := trivial
  mono_trans _ _ := trivial

variable {env id name guesses start deadline} {m : Moment ι World Label} {i : ι}

theorem Numbered.waits {w : World} (h : Numbered env id name guesses start deadline m)
    (hw : Waits deadline m.shared w) :
    Numbered env id name guesses start deadline ⟨m.trace, w⟩ :=
  ⟨h.guarded.waits hw, fun i => by simpa only [Targets, hw.users] using h.targets i, h.within⟩

theorem Numbered.check (h : Numbered env id name guesses start deadline m)
    (hone : OneByOne id name m i (.verifyPassword id)) :
    Numbered env id name guesses start deadline (m.after i (.verifyPassword id) fun w => w) := by
  obtain ⟨hunlocked, hcounted⟩ := hone rfl
  have hbelow : (m.trace.countP (countsFor id name) : Int) < env.ratePolicy.userLockThreshold := by
    by_contra hreached
    rw [h.guarded.isUserLocked (by omega)] at hunlocked
    cases hunlocked
  refine ⟨?_, h.targets, ?_⟩
  · simpa [Moment.after, countsFor] using h.guarded
  · have hchecked : (m.after i (.verifyPassword id) fun w => w).trace.countP (checks id) =
        m.trace.countP (checks id) + 1 := by simp [Moment.after, checks]
    omega

theorem Numbered.count (hpolicy : Lasting env.ratePolicy) (hid : 0 < id)
    (hlength : deadline ≤ start + durationSeconds env.ratePolicy.failureWindow * second)
    (h : Numbered env id name guesses start deadline m) :
    Numbered env id name guesses start deadline
      (m.after i (.incrementLoginFailByUser name (formatInt id)) fun w => { w with
        limits := (w.limits.incrementLoginFailByUser w.now name (formatInt id)
          env.ratePolicy.failureWindow env.ratePolicy.userLockThreshold
          env.ratePolicy.userLockTTL).2 }) := by
  refine ⟨?_, h.targets, by simpa [Moment.after, checks] using h.within⟩
  simpa [Moment.after, countsFor] using (h.guarded.count hpolicy hid hlength).1

theorem Numbered.aftermath {l : Label} {f : World → World} (hl : Aftermath l f)
    (hone : OneByOne id name m i l) (h : Numbered env id name guesses start deadline m) :
    Numbered env id name guesses start deadline (m.after i l f) := by
  have hnumbers : (m.after i l f).trace.countP (countsFor id name) =
        m.trace.countP (countsFor id name) ∧
      (m.after i l f).trace.countP (checks id) = m.trace.countP (checks id) := by
    cases hl <;> simp [Moment.after, countsFor, checks]
  -- the lock is the only thing that may have changed for the account
  have hguarded (htargets : Targets env id [] (f m.shared)) (hnow : (f m.shared).now = m.shared.now)
      (hcounters : (f m.shared).limits.failUser = m.shared.limits.failUser)
      (hlock : ∀ e, m.shared.limits.userLock.entry m.shared.now (formatInt id) = some e →
        (f m.shared).limits.userLock.entry m.shared.now (formatInt id) = some e ∨
        (f m.shared).limits.userLock.entry m.shared.now (formatInt id) = some ⟨(), none⟩) :
      Guarded env id name [] start deadline ((m.after i l f).trace.countP (countsFor id name))
        (f m.shared) := by
    rw [hnumbers.1]
    refine h.guarded.relocked hnow hcounters htargets fun hn => ?_
    obtain ⟨e, he, hlong⟩ := h.guarded.locked hn
    rcases hlock e he with hkept | hforever
    · exact ⟨e, hkept, hlong⟩
    · exact ⟨_, hforever, fun t ht => by cases ht⟩
  have hwithin := h.within
  cases hl with
  | countIP ip counterTTL threshold lockTTL =>
    exact ⟨hguarded (fun _ hg => by cases hg) rfl rfl fun _ he => .inl he, h.targets, hwithin⟩
  | countBlacklist username userID threshold =>
    refine ⟨hguarded (fun _ hg => by cases hg) rfl rfl fun e he => ?_, h.targets, hwithin⟩
    dsimp only [RateLimitCache.incrementBlacklistByUser]
    rcases @incrementWithLock_lock m.shared.limits.blacklistUser m.shared.limits.userLock m.shared.now
      username (nonblank userID) 0 threshold 0 with hsame | ⟨k, hput⟩
    · exact .inl (by rwa [hsame])
    · rw [hput, Keyspace.entry_eq_some, Keyspace.entry_eq_some]
      by_cases hk : formatInt id = k
      · subst hk
        exact .inr ⟨Keyspace.put_self, fun t ht => by cases ht⟩
      · rw [Keyspace.put_of_ne hk]
        exact .inl (Keyspace.entry_eq_some.mp he)
  | lockAccount userID =>
    exact ⟨hguarded (fun _ hg => by cases hg) rfl rfl fun _ he => .inl he,
      fun i => (h.targets i).lockAccount userID, hwithin⟩
  | clearUserLock userID =>
    refine ⟨hguarded (fun _ hg => by cases hg) rfl rfl fun e he => .inl ?_, h.targets, hwithin⟩
    have hother : formatInt id ≠ userID := Ne.symm hone
    simpa [Keyspace.entry, Keyspace.del, hother] using he

/-- **One attempt among the others.** -/
theorem numbers_trial [DecidableEq ι] (hpolicy : Lasting env.ratePolicy) (hid : 0 < id)
    (hlength : deadline ≤ start + durationSeconds env.ratePolicy.failureWindow * second)
    (htyped : trimSpace (guesses i).username = name) (hname : name ≠ "") :
    Trial env id (guesses i) (numbers env id name guesses start deadline) (OneByOne id name) i
      (fun _ _ => True) True fun _ => True where
  stable _ _ _ _ _ _ := trivial
  ends _ := trivial
  typed := htyped ▸ hname
  targets hinv _ := hinv.targets i
  unlocked _ _ _ := trivial
  check hinv _ _ hone := ⟨hinv.check hone, trivial, trivial⟩
  count _ hinv _ _ := by
    subst htyped
    exact ⟨hinv.count hpolicy hid hlength, trivial, trivial, fun _ => trivial⟩
  aftermath hl hinv _ hone := ⟨hinv.aftermath hl hone, trivial, trivial⟩

end Overlap

/-- **No more than the threshold of wrong passwords are checked**, in every interleaving of attempts
that are counted one by one. -/
theorem overlappingGuesses_bounded [DecidableEq ι] {env : Env} {id : Int} {name : String}
    {guesses : ι → Guess} {deadline : Int} {w : World} {E : World → World → Prop} (hid : 0 < id)
    (hpolicy : Lasting env.ratePolicy) (hwindow : InWindow env name deadline w)
    (htargets : ∀ i, Targets env id [guesses i] w) (hE : ∀ s s', E s s' → Waits deadline s s')
    (hforms : ∀ i, (guesses i).ByForm ∧ trimSpace (guesses i).username = name)
    {c : Config ι World Label Bool}
    (hrun : Reach E (OneByOne id name) (Config.start w fun i => (guesses i).code env) c) :
    (c.trace.countP (checks id) : Int) ≤ env.ratePolicy.userLockThreshold := by
  have hthreshold := hpolicy.threshold
  have hstart : Numbered env id name guesses w.now deadline ⟨[], w⟩ := by
    refine ⟨⟨Int.le_refl _, hwindow.inside, fun _ hg => (by cases hg), hwindow.begun,
      hwindow.counted, fun h => ?_⟩, htargets, ?_⟩
    · simp only [List.countP_nil, Nat.cast_zero] at h
      omega
    · simp only [List.countP_nil, Nat.cast_zero]
      omega
  have hsafe : c.Safe (numbers env id name guesses w.now deadline) (OneByOne id name)
      fun _ _ _ => True := by
    refine sound (fun m s hinv hmove => ⟨Numbered.waits hinv (hE _ _ hmove), trivial⟩)
      (fun _ _ _ _ _ _ _ => trivial) ?_ hrun
    refine ⟨hstart, fun i => ?_⟩
    obtain ⟨hform, htyped⟩ := hforms i
    have hname : name ≠ "" := by
      obtain ⟨_, _, hname, _⟩ := htargets i _ List.mem_cons_self
      obtain ⟨rfl, hne⟩ := nonblank_eq_some.mp hname
      exact htyped ▸ hne
    exact trial_wp (numbers_trial hpolicy hid hwindow.length htyped hname) hpolicy hid hform trivial
  exact hsafe.1.within

def sixLogins : Config (Fin 6) World Label Bool :=
  Config.start oneAccount fun _ => (typing "ada").code foldingEnv

theorem overlappingGuesses_bounded_inTurn :
    ∃ c, Reach (Waits quarterHour) (OneByOne 1 "ada") sixLogins c ∧
      c.trace.countP (checks 1) = 5 ∧
      (c.trace.countP (checks 1) : Int) ≤ foldingEnv.ratePolicy.userLockThreshold := by
  let sched : List (Move (Fin 6) World) :=
    (List.finRange 6).flatMap fun i => List.replicate 4 (.run i)
  let c := sixLogins.played (OneByOne 1 "ada") sched
  have hrun : Reach (Waits quarterHour) (OneByOne 1 "ada") sixLogins c :=
    played_reach _ (by simp [sched, Move.Allowed]) (by decide +kernel)
  refine ⟨c, hrun, by decide +kernel, overlappingGuesses_bounded (by decide) foldingEnv_lasting
    (oneAccount_inWindow "ada") (fun _ => oneAccount_targets (by decide +kernel)) (fun _ _ h => h)
    (fun _ => by decide +kernel) hrun⟩

/-- All six look at the lock before the first of them is counted, and all six check a password. -/
theorem overlappingGuesses_unbounded :
    Lasting foldingEnv.ratePolicy ∧ InWindow foldingEnv "ada" quarterHour oneAccount ∧
    Targets foldingEnv 1 [typing "ada"] oneAccount ∧
    ∃ c, Reach (Waits quarterHour) Unrestricted sixLogins c ∧
      foldingEnv.ratePolicy.userLockThreshold < c.trace.countP (checks 1) := by
  let sched : List (Move (Fin 6) World) := (List.finRange 6).map .run
  exact ⟨foldingEnv_lasting, oneAccount_inWindow "ada", oneAccount_targets (by decide +kernel),
    sixLogins.played Unrestricted sched,
    played_reach _ (by simp [sched, Move.Allowed]) (by decide +kernel), by decide +kernel⟩

end IdpServer.Laws.Authn
