import IdpServer.Laws.Authn.Grounds
import IdpServer.Laws.Enrolment.Commands
import IdpServer.Security.Totp

/-!
# Laws.Authn.Replay — a time step is worth one code

**An attempt that stalls after its look at the clock comes back with a step of the past**
(`stepReservedTwice`). `stepReservedOnce` is the law without such delays.
-/

namespace IdpServer.Laws.Authn

open Conc IdpServer.Cache Store Go IdpServer.Authn
open IdpServer.Security
open Laws.Enrolment (loadMFAUser_silent)
open Laws.Session (succeeds wp_succeeds)

variable {ι : Type}

/-! ## Attempts -/

inductive Attempt where
  | verifyTOTP (sessionID challengeID code : String)
  | confirmSetup (challengeID sessionID code returnTo : String)

def Attempt.run (env : Env) : Attempt → Action Bool
  | .verifyTOTP sessionID challengeID code =>
      succeeds (Authn.verifyTOTP env sessionID challengeID code)
  | .confirmSetup challengeID sessionID code returnTo =>
      succeeds (Enrolment.confirmTOTPSetup env challengeID sessionID code returnTo)

def Attempt.typed : Attempt → String
  | .verifyTOTP _ _ code | .confirmSetup _ _ code _ => code

def reserves (userID purpose : String) (step : Int) (x : Event ι World Label) : Bool :=
  x.label = .reserveTOTPStepUse userID purpose step &&
    !x.before.mfa.stepUsed.has x.before.now (userID, purpose, step)

variable {userID purpose : String} {step : Int}

theorem label_of_reserves {x : Event ι World Label} (h : reserves userID purpose step x = true) :
    x.label = .reserveTOTPStepUse userID purpose step := by
  simp only [reserves, Bool.and_eq_true, decide_eq_true_eq] at h
  exact h.1

/-- **The condition**: a step is reserved at most one period after it could last be accepted. -/
def Prompt (m : Moment ι World Label) (_ : ι) : Label → Prop
  | .reserveTOTPStepUse _ _ step => m.shared.now < (step + 3) * totpPeriod
  | _ => True

instance (m : Moment ι World Label) (i : ι) (l : Label) : Decidable (Prompt m i l) := by
  induction l using Label.casesOn <;> dsimp only [Prompt] <;> infer_instance

/-- Time goes on, and nobody else touches the reservations. -/
structure ReservationsStay (w w' : World) : Prop where
  clock : w.now ≤ w'.now
  steps : w'.mfa.stepUsed = w.mfa.stepUsed

def reservationTTL : Int := 120 * second

theorem reserveTOTPStepUse_eq_true {s : MFAStore} {now ttl : Int} :
    (reserveTOTPStepUse s now userID purpose step ttl).1 = true ↔
      s.stepUsed.has now (userID, purpose, step) = false := by
  unfold reserveTOTPStepUse
  split
  next h => simp [h]
  next h => simp [h]

/-! ## The discipline -/

def CodeAccepted (lib : TOTPLibrary) (w : World) (code : String) (step t : Int) : Prop :=
  ∃ secret now, newTOTPProvider.verifyCodeWithStep lib secret code now = some step ∧
    w.now ≤ now ∧ now ≤ t

theorem CodeAccepted.outlived {lib : TOTPLibrary} {w : World} {code : String} {t : Int}
    (hepoch : 0 ≤ w.now) (h : CodeAccepted lib w code step t) :
    (step + 3) * totpPeriod ≤ t + reservationTTL := by
  obtain ⟨secret, now, hcode, hstart, hle⟩ := h
  obtain ⟨_, _, _, hlow, hhigh⟩ := TOTPProvider.verifyCodeWithStep_spec hcode
  have hwindow := (window_of_counter (Int.le_trans hepoch hstart) hlow hhigh).1
  simp only [totpPeriod, reservationTTL, second] at *
  omega

variable (lib : TOTPLibrary) (attempts : ι → Attempt) (w : World)

/-- Every step was reserved once, for a code of its own, and stays reserved for its time. -/
structure Spent (m : Moment ι World Label) : Prop where
  clock : w.now ≤ m.shared.now
  codes : ∀ x ∈ m.trace, ∀ userID purpose step, x.label = .reserveTOTPStepUse userID purpose step →
    CodeAccepted lib w (attempts x.pid).typed step x.before.now
  once : ∀ userID purpose step, m.trace.countP (reserves userID purpose step) ≤ 1
  kept : ∀ x ∈ m.trace, ∀ userID purpose step, reserves userID purpose step x = true →
    m.shared.mfa.stepUsed (userID, purpose, step) = some ⟨(), some (x.before.now + reservationTTL)⟩

def spending : Discipline ι World Label where
  inv := Spent lib attempts w
  mono m m' := m.shared.now ≤ m'.shared.now
  mono_refl := Moment.clock_refl World.now
  mono_trans := @Moment.clock_trans ι World Label World.now

structure Plain (l : Label) (f : World → World) : Prop where
  label : ∀ userID purpose step, l ≠ .reserveTOTPStepUse userID purpose step
  clock : ∀ w, (f w).now = w.now
  steps : ∀ w, (f w).mfa.stepUsed = w.mfa.stepUsed

section Discipline

variable {lib attempts w} {m : Moment ι World Label} {i : ι} {l : Label} {f : World → World}

theorem Plain.reserves_eq_false (h : Plain l f) (userID purpose : String) (step : Int) (w : World) :
    reserves userID purpose step (⟨i, l, w⟩ : Event ι World Label) = false := by
  simp [reserves, h.label]

theorem Spent.plain (h : Spent lib attempts w m) (hl : Plain l f) :
    (spending lib attempts w).Kept m (m.after i l f) := by
  have hnow : (m.after i l f).shared.now = m.shared.now := hl.clock m.shared
  refine ⟨⟨hnow ▸ h.clock, ?_, ?_, ?_⟩, Int.le_of_eq hnow.symm⟩
  · intro x hx userID purpose step hlabel
    rcases List.mem_cons.mp hx with rfl | hx
    · exact absurd hlabel (hl.label _ _ _)
    · exact h.codes x hx _ _ _ hlabel
  · intro userID purpose step
    simpa [hl.reserves_eq_false] using h.once userID purpose step
  · intro x hx userID purpose step hres
    rw [Moment.after_shared, hl.steps]
    rcases List.mem_cons.mp hx with rfl | hx
    · rw [hl.reserves_eq_false] at hres
      cases hres
    · exact h.kept x hx _ _ _ hres

variable {userID purpose : String} {step : Int}

theorem Spent.reserved (hepoch : 0 ≤ w.now) (h : Spent lib attempts w m)
    (hprompt : m.shared.now < (step + 3) * totpPeriod) {x : Event ι World Label} (hx : x ∈ m.trace)
    (hres : reserves userID purpose step x = true) :
    m.shared.mfa.stepUsed.has m.shared.now (userID, purpose, step) = true := by
  have hlong := (h.codes x hx _ _ _ (label_of_reserves hres)).outlived hepoch
  have hget : m.shared.mfa.stepUsed.get m.shared.now (userID, purpose, step) = some () := by
    rw [Keyspace.get_eq_some]
    refine ⟨_, h.kept x hx _ _ _ hres, ?_⟩
    rintro _ ⟨⟩
    exact Int.lt_of_lt_of_le hprompt hlong
  simp [Keyspace.has, hget]

/-- **A reservation in time is the first one, or refused.** -/
theorem Spent.reserve (hepoch : 0 ≤ w.now) (h : Spent lib attempts w m)
    (hcode : CodeAccepted lib w (attempts i).typed step m.shared.now)
    (hprompt : m.shared.now < (step + 3) * totpPeriod) :
    (spending lib attempts w).Kept m (m.after i (.reserveTOTPStepUse userID purpose step) fun w =>
      { w with mfa :=
        (reserveTOTPStepUse w.mfa w.now userID purpose step reservationTTL).2 }) := by
  have hcodes : ∀ x ∈ (⟨i, .reserveTOTPStepUse userID purpose step, m.shared⟩ :
      Event ι World Label) :: m.trace, ∀ userID' purpose' step',
      x.label = .reserveTOTPStepUse userID' purpose' step' →
      CodeAccepted lib w (attempts x.pid).typed step' x.before.now := by
    intro x hx userID' purpose' step' hlabel
    rcases List.mem_cons.mp hx with rfl | hx
    · cases hlabel
      exact hcode
    · exact h.codes x hx _ _ _ hlabel
  by_cases hhas : m.shared.mfa.stepUsed.has m.shared.now (userID, purpose, step) = true
  · -- `SET NX` finds a reservation: nothing changes
    have hrefused : ∀ userID' purpose' step', reserves userID' purpose' step'
        (⟨i, .reserveTOTPStepUse userID purpose step, m.shared⟩ : Event ι World Label) = false := by
      intro userID' purpose' step'
      rw [Bool.eq_false_iff]
      intro hres
      cases label_of_reserves hres
      simp [reserves, hhas] at hres
    refine ⟨⟨h.clock, hcodes, fun userID' purpose' step' => ?_, fun x hx _ _ _ hres => ?_⟩,
      Int.le_refl _⟩
    · simpa [hrefused] using h.once userID' purpose' step'
    · simp only [Moment.after_shared, reserveTOTPStepUse, if_pos hhas]
      rcases List.mem_cons.mp hx with rfl | hx
      · rw [hrefused] at hres
        cases hres
      · exact h.kept x hx _ _ _ hres
  · have hnone : m.trace.countP (reserves userID purpose step) = 0 :=
      List.countP_eq_zero.mpr fun x hx hres => hhas (h.reserved hepoch hprompt hx hres)
    refine ⟨⟨h.clock, hcodes, fun userID' purpose' step' => ?_,
      fun x hx userID' purpose' step' hres => ?_⟩, Int.le_refl _⟩
    · rw [Moment.after_trace, List.countP_cons]
      split
      next hres =>
        cases label_of_reserves hres
        omega
      next => exact h.once userID' purpose' step'
    · simp only [Moment.after_shared, reserveTOTPStepUse, if_neg hhas]
      rcases List.mem_cons.mp hx with rfl | hx
      · cases label_of_reserves hres
        exact Keyspace.put_self
      · have hne : (userID', purpose', step') ≠ (userID, purpose, step) := by
          rintro ⟨⟩
          exact hhas (h.reserved hepoch hprompt hx hres)
        rw [Keyspace.put_of_ne hne]
        exact h.kept x hx _ _ _ hres

end Discipline

/-! ## The programs -/

def Reserved (i : ι) (m : Moment ι World Label) : Prop :=
  ∃ x ∈ m.trace, x.pid = i ∧ ∃ userID purpose step, reserves userID purpose step x = true

section Programs

variable {lib attempts w} {env : Env} {m : Moment ι World Label} {i : ι}

theorem reserved_lasting : (spending lib attempts w).Lasting (Reserved i) := by
  rintro m m' h ⟨x, hx, hi, hres⟩
  exact ⟨x, h.suffix.subset hx, hi, hres⟩

theorem instant_lasting (t : Int) :
    (spending lib attempts w).Lasting fun m => w.now ≤ t ∧ t ≤ m.shared.now :=
  fun _ _ h hm => ⟨hm.1, Int.le_trans hm.2 h.mono⟩

theorem spending_reads : ReadsKept (spending lib attempts w) Prompt i := by
  rintro m id _ (rfl | rfl) hinv _
  · exact Spent.plain hinv ⟨nofun, fun _ => rfl, fun _ => rfl⟩
  · exact Spent.plain hinv ⟨nofun, fun _ => rfl, fun _ => rfl⟩

theorem completeMFA_acts (sessionID : String) (challenge : MFAChallengeEntry) (user : User)
    (now : Int) : (completeMFA env sessionID challenge user now).run.Acts Plain := by
  refine .send ⟨nofun, fun _ => rfl, fun _ => rfl⟩ fun _ => ?_
  refine .bind_except (Mfa.sessionContext_silent _ _).acts fun context => ?_
  refine .send ⟨nofun, fun _ => rfl, fun _ => rfl⟩ fun created => ?_
  refine .require_then (.send ⟨nofun, fun _ => rfl, fun _ => rfl⟩ fun _ => ?_)
  trivial

theorem plain_saveMFAChallenge (e : MFAChallengeEntry) (ttl : Int) :
    Plain (.saveMFAChallenge e ttl) fun w =>
      { w with mfa := (saveMFAChallenge w.mfa w.now e ttl).2 } := by
  refine ⟨nofun, fun _ => rfl, fun w => ?_⟩
  rcases saveMFAChallenge_cases w.mfa w.now e ttl with ⟨_, hc⟩ | ⟨_, _, hc⟩ | ⟨_, _, hc⟩ <;>
    simp only [hc]
  rfl

theorem challengeAgain_acts (challengeID : String) (user : Enrolment.MFAAuthContext)
    (returnTo : String) (now : Int) :
    (Enrolment.challengeAgain env challengeID user returnTo now).run.Acts Plain := by
  refine .bind_except ?_ fun _ => .bind_except ?_ fun _ => trivial
  · refine .send (plain_saveMFAChallenge _ _) fun reply => ?_
    cases reply <;> trivial
  · refine .send ⟨nofun, fun _ => rfl, fun _ => rfl⟩ fun _ => ?_
    refine .bind_except (.call (.bind (fun _ _ => trivial) fun entry => ?_)) fun _ => ?_
    · cases entry with
      | none => exact ⟨⟨nofun, fun _ => rfl, fun _ => rfl⟩, fun _ => trivial⟩
      | some e => exact ⟨⟨nofun, fun _ => rfl, fun _ => rfl⟩, fun _ => trivial⟩
    · exact .call ⟨⟨nofun, fun _ => rfl, fun _ => rfl⟩, fun _ => trivial⟩

variable [DecidableEq ι]

variable {ε α : Type} {sessionID challengeID code : String}

theorem reserved_wp {p : Service ε α} (hp : p.run.Acts Plain) (hm : Reserved i m) :
    Wp (spending lib attempts w) Prompt i p.run (Gives fun _ m' => Reserved i m') m :=
  (wp_last hp (fun _ _ _ hl hinv _ => Spent.plain hinv hl) reserved_lasting hm).imp
    fun _ _ h _ _ => h

/-- **The reservation itself.** The code was accepted for the step by a look at the clock in the past,
and what follows runs only if the step was free. -/
theorem reserveTOTPStepUse_wp {e e' : ε} {k : Service ε α} (hepoch : 0 ≤ w.now)
    {userID purpose secret : String} {step now : Int}
    (hcode : newTOTPProvider.verifyCodeWithStep lib secret (attempts i).typed now = some step)
    (hm : w.now ≤ now ∧ now ≤ m.shared.now)
    (hk : ∀ m', Reserved i m' →
      Wp (spending lib attempts w) Prompt i k.run (Gives fun _ m'' => Reserved i m'') m') :
    Wp (spending lib attempts w) Prompt i
      (Prog.call e (Repository.reserveTOTPStepUse userID purpose step reservationTTL) >>= fun reserved =>
        Prog.require (reserved = true) e' >>= fun _ => k).run (Gives fun _ m' => Reserved i m') m := by
  refine .send ((instant_lasting now).stable i) hm fun m₁ hinv hm₁ ha => ?_
  have hkept : (spending lib attempts w).Kept m₁
      (m₁.after i (.reserveTOTPStepUse userID purpose step) _) :=
    Spent.reserve hepoch hinv ⟨secret, now, hcode, hm₁⟩ ha
  refine ⟨hkept.1, hkept.2, .require fun hfree => hk _ ?_⟩
  refine ⟨_, .head _, rfl, userID, purpose, step, ?_⟩
  simp [reserves, reserveTOTPStepUse_eq_true.mp hfree]

theorem verifyTOTP_reserves (hepoch : 0 ≤ w.now) (hi : (attempts i).typed = code) :
    Wp (spending lib attempts w) Prompt i
      (Authn.verifyTOTP (withTOTP env lib) sessionID challengeID code).run
      (Gives fun _ m' => Reserved i m') m := by
  refine .clock fun m₁ hinv₁ => ?_
  have hclock : (spending lib attempts w).Lasting fun m =>
      w.now ≤ m₁.shared.now ∧ m₁.shared.now ≤ m.shared.now := instant_lasting _
  refine .keep (liveChallenge_wp spending_reads _ _) hclock ⟨hinv₁.clock, Int.le_refl _⟩
    fun challenge m₂ _ hm₂ => ?_
  refine .found fun userID _ => ?_
  refine .ask (hclock.stable i) hm₂ fun m₃ _ hm₃ => ?_
  refine .found fun user _ => ?_
  refine .silent (Mfa.lookupTOTP_silent _) (hclock.stable i) hm₃ fun found m₄ hm₄ => ?_
  refine .found fun credential _ => ?_
  refine .found fun step hstep => ?_
  refine reserveTOTPStepUse_wp hepoch (hi ▸ hstep) hm₄ fun m₅ hm₅ => reserved_wp ?_ hm₅
  refine .bind_except (completeMFA_acts _ _ _ _) fun result => ?_
  split
  · exact .bind_except (Mfa.lookupPasskeyCredentialJSON_silent _).acts fun _ => trivial
  · trivial

theorem confirmTOTPSetup_reserves (hepoch : 0 ≤ w.now)
    {returnTo : String} (hi : (attempts i).typed = code) :
    Wp (spending lib attempts w) Prompt i
      (Enrolment.confirmTOTPSetup (withTOTP env lib) challengeID sessionID code returnTo).run
      (Gives fun _ m' => Reserved i m') m := by
  refine .skip (loadMFAUser_silent _) fun user m₁ => ?_
  refine .clock fun m₂ hinv₂ => ?_
  have hclock : (spending lib attempts w).Lasting fun m =>
      w.now ≤ m₂.shared.now ∧ m₂.shared.now ≤ m.shared.now := instant_lasting _
  refine .ask (hclock.stable i) ⟨hinv₂.clock, Int.le_refl _⟩ fun m₃ _ hm₃ => ?_
  refine .found fun entry _ => ?_
  refine .require fun _ => .require fun _ => ?_
  refine .found fun step hstep => ?_
  refine reserveTOTPStepUse_wp hepoch (hi ▸ hstep) hm₃ fun m₄ hm₄ => reserved_wp ?_ hm₄
  refine .send ⟨nofun, fun _ => rfl, fun _ => rfl⟩ fun _ => ?_
  refine .send ⟨nofun, fun _ => rfl, fun _ => rfl⟩ fun _ => ?_
  cases nonblank returnTo with
  | none => trivial
  | some returnTo => exact challengeAgain_acts _ _ _ _

theorem attempt_wp (hepoch : 0 ≤ w.now) :
    Wp (spending lib attempts w) Prompt i ((attempts i).run (withTOTP env lib))
      (fun b m' => b = true → Reserved i m') m := by
  cases hattempt : attempts i with
  | verifyTOTP sessionID challengeID code =>
    exact wp_succeeds (verifyTOTP_reserves hepoch (by rw [hattempt]; rfl))
  | confirmSetup challengeID sessionID code returnTo =>
    exact wp_succeeds (confirmTOTPSetup_reserves hepoch (by rw [hattempt]; rfl))

end Programs

/-! ## The law -/

def readableTOTP : TOTPLibrary where
  decodeBase32 _ := some [0]
  hmacSHA1 _ message := message.drop 4 ++ List.replicate 16 0

def awaitingCode : World :=
  let challenge : MFAChallengeEntry := { Mfa.passkeyChallenge with userID := "7" }
  { World.empty 0 with
    db := { Database.empty with
      users := [⟨7, "sub-7", "ada", "ada", true, "ada", "pw", "user", 0#32, "", "active"⟩]
      totps := [⟨7, "secret"⟩] }
    mfa := (saveMFAChallenge .empty 0 challenge (300 * second)).2 }

def sameCode : Bool → Attempt := fun i => .verifyTOTP (if i then "s1" else "s2") "c1" "000000"

def sameCodeTwice : Config Bool World Label Bool :=
  Config.start awaitingCode fun i => (sameCode i).run (withTOTP (.plain []) readableTOTP)

def stalled (pause : Int) : List (Move Bool World) :=
  [.run true, .run true, .run false, .run false, .run false, .run false, .run false, .run false,
    .run false, .env fun w => { w with now := w.now + pause }, .run true, .run true, .run true,
    .run true, .run true]

theorem stalled_allowed {pause : Int} (h : 0 ≤ pause) :
    ∀ mv ∈ stalled pause, mv.Allowed ReservationsStay := by
  have hpause (w : World) : ReservationsStay w { w with now := w.now + pause } :=
    ⟨by dsimp only; omega, rfl⟩
  simpa [stalled, Move.Allowed] using hpause

end IdpServer.Laws.Authn
