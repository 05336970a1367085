import IdpServer.Laws.Authn.Grounds
import IdpServer.Laws.Token.ClosedAccounts

/-!
# Laws.Authn.ClosedLogins — sessions for an account that is not active

**`VerifyTOTP` does not look at the status of the account**: a waiting challenge is still good for a session
(`closedAccountAdmitted`). `closedAccountNotAdmitted` is the law without such a call.
-/

namespace IdpServer.Laws.Authn

open Conc IdpServer.Cache Store Go IdpServer.Authn
open Laws.Token (Inactive)

variable {ι : Type}

/-! ## The account -/

/-- There is such an account, and it may not be used. -/
def ClosedAccount (u : Int) (w : World) : Prop := (∃ user ∈ w.db.users, user.id = u) ∧ Inactive u w

instance (u : Int) (w : World) : Decidable (ClosedAccount u w) := by
  unfold ClosedAccount; infer_instance

def Login.isTOTP : Login → Bool
  | .verifyTOTP _ _ _ => true
  | _ => false

/-- **The condition**: a challenge that `VerifyTOTP` reads is not one of the account. -/
def OthersChallenge (u : Int) (calls : ι → Login) (m : Moment ι World Label) (i : ι) : Label → Prop
  | .hmgetMFAChallenge id => (calls i).isTOTP = true →
      ∀ h ∈ m.shared.mfa.hmget m.shared.now id, parseUserID h.userID ≠ some u
  | _ => True

instance (u : Int) (calls : ι → Login) (m : Moment ι World Label) (i : ι) (l : Label) :
    Decidable (OthersChallenge u calls m i l) := by
  induction l using Label.casesOn <;> dsimp only [OthersChallenge] <;> infer_instance

def StaysClosed (u : Int) (w w' : World) : Prop := ClosedAccount u w → ClosedAccount u w'

theorem StaysClosed.of_same {u : Int} {w w' : World} (h : w'.db.users = w.db.users) :
    StaysClosed u w w' := by
  rintro ⟨hthere, hinactive⟩
  rw [ClosedAccount, Inactive, h]
  exact ⟨hthere, hinactive⟩

theorem staysClosed_createUser {u : Int} {w : World} {sqlEq : String → String → Bool} {new : User} :
    StaysClosed u w { w with db := (w.db.createUser sqlEq new).2 } := by
  rintro ⟨⟨user, huser, hid⟩, hinactive⟩
  rcases w.db.createUser_cases sqlEq new with h | ⟨row, hafter, h⟩ <;> rw [h]
  · exact ⟨⟨user, huser, hid⟩, hinactive⟩
  · refine ⟨⟨user, List.mem_append_left _ huser, hid⟩, fun user' huser' hid' => ?_⟩
    rcases List.mem_append.mp huser' with huser' | hrow
    · exact hinactive user' huser' hid'
    · rw [List.mem_singleton.mp hrow, ← hid] at hid'
      exact absurd hid'.symm (Int.ne_of_lt (hafter user huser))

theorem staysClosed_lockAccount {u userID : Int} {w : World} :
    StaysClosed u w { w with db := w.db.lockAccount userID } := by
  rintro ⟨⟨user, huser, hid⟩, hinactive⟩
  refine ⟨⟨_, List.mem_map_of_mem huser, ?_⟩, fun user' huser' hid' => ?_⟩
  · split <;> exact hid
  · obtain ⟨old, hold, rfl⟩ := List.mem_map.mp huser'
    by_cases hlock : old.id = userID ∧ old.status = "active"
    · rw [if_pos hlock]
      show ¬ ("locked" = "" ∨ "locked" = "active")
      decide
    · rw [if_neg hlock] at hid' ⊢
      exact hinactive old hold hid'

/-! ## The discipline -/

structure Shut (u : Int) (m : Moment ι World Label) : Prop where
  closed : ClosedAccount u m.shared
  none : ∀ x ∈ m.trace, ∀ s, x.label = .createSession s → s.userID ≠ u

def shut (u : Int) : Discipline ι World Label where
  inv := Shut u
  mono _ _ := True
  mono_refl _ := trivial
  mono_trans _ _ := trivial

section Discipline

variable {u : Int} {m : Moment ι World Label} {i : ι} {l : Label} {f : World → World}

theorem Shut.step (h : Shut u m) (hl : ∀ s, l = .createSession s → s.userID ≠ u)
    (hw : StaysClosed u m.shared (f m.shared)) : (shut u).Kept m (m.after i l f) := by
  refine ⟨⟨hw h.closed, fun x hx => ?_⟩, trivial⟩
  rcases List.mem_cons.mp hx with rfl | hx
  · exact hl
  · exact h.none x hx

variable {env : Env} {user : User}

theorem Shut.sundry (h : Shut u m) (hl : Sundry env l f) : (shut u).Kept m (m.after i l f) := by
  cases hl with
  | limit l hl g =>
    refine h.step ?_ (.of_same rfl)
    rintro s rfl
    cases hl
  | createUser new => exact h.step nofun staysClosed_createUser
  | lockAccount userID => exact h.step nofun staysClosed_lockAccount
  | _ => exact h.step nofun (.of_same rfl)

theorem Shut.ne_of_admissible (h : Shut u m) (huser : user ∈ m.shared.db.users)
    (hstatus : Admissible user.status) : user.id ≠ u :=
  fun hid => h.closed.2 user huser hid hstatus

theorem ne_of_cleared {id : Int} (h : Cleared (shut u) id m) : id ≠ u := by
  obtain ⟨row, ⟨m₀, hinv, hrow, _⟩, rfl, hstatus⟩ := h
  exact Shut.ne_of_admissible hinv hrow hstatus

theorem ne_of_created (h : Created env (shut u) user m) : user.id ≠ u := by
  obtain ⟨m₀, hinv, ⟨new, hnew⟩, _⟩ := h
  obtain ⟨⟨old, hold, rfl⟩, _⟩ := Shut.closed hinv
  rcases m₀.shared.db.createUser_cases env.sqlEq new with hc | ⟨row, hafter, hc⟩ <;> rw [hc] at hnew
  · cases hnew
  · obtain rfl := Option.some.inj hnew
    exact (Int.ne_of_lt (hafter old hold)).symm

/-- **A session on grounds is not one of the closed account.** -/
theorem ne_of_grounds {calls : ι → Login} {method : AuthnMethodType}
    (h : Grounds env (shut u) (OthersChallenge u calls) i m (calls i) user method) :
    user.id ≠ u := by
  generalize hcall : calls i = call at h
  cases h with
  | firstFactor _ huser => exact huser.elim ne_of_cleared ne_of_created
  | totp hread hholder =>
    obtain ⟨hash, packed, rfl, _, ⟨m₀, _, ⟨hothers, hhash⟩, _⟩, _⟩ := hread
    intro hid
    exact hothers (by rw [hcall]; rfl) hash hhash (hid ▸ hholder)
  | passkey _ _ _ huser hstatus => exact ne_of_cleared ⟨user, huser, rfl, .inr hstatus⟩
  | push _ _ _ huser hstatus => exact ne_of_cleared ⟨user, huser, rfl, .inr hstatus⟩

theorem shut_admission (env : Env) (calls : ι → Login) (i : ι) :
    Admission env (shut u) (OthersChallenge u calls) i (calls i) where
  sundry hl hinv _ := Shut.sundry hinv hl
  save _ hinv _ := Shut.step hinv nofun (.of_same rfl)
  create := by
    intro m user method context row hgrounds _ huser _ _ hinv _
    refine Shut.step hinv ?_ (.of_same ?_)
    · rintro _ ⟨⟩
      rw [huser]
      exact ne_of_grounds hgrounds
    · simp only [Database.createSession]
      split <;> rfl

end Discipline

/-! ## The law -/

/-- **A closed account is not admitted.** Any number of logins run while the account is closed. If no
`VerifyTOTP` among them reads a challenge of the account, none creates a session for it. -/
theorem closedAccountNotAdmitted [DecidableEq ι] (env : Env) (u : Int) (calls : ι → Login) {w : World}
    (hclosed : ClosedAccount u w) {E : World → World → Prop}
    (hE : ∀ w w', E w w' → StaysClosed u w w') {c : Config ι World Label Bool}
    (hrun : Reach E (OthersChallenge u calls) (Config.start w fun i => (calls i).code env) c) :
    ∀ x ∈ c.trace, ∀ s, x.label = .createSession s → s.userID ≠ u := by
  have hsafe : c.Safe (shut u) (OthersChallenge u calls) fun _ _ _ => True := by
    refine sound (fun m w' hinv hw => ?_) (fun _ _ _ _ _ _ _ => trivial) ?_ hrun
    · exact ⟨⟨hE _ _ hw hinv.closed, hinv.none⟩, trivial⟩
    · refine ⟨⟨hclosed, fun x hx => ?_⟩, fun i => login_wp (shut_admission env calls i)⟩
      cases hx
  exact hsafe.1.none

/-! ## A locked account with a challenge -/

def challengedUser (holder : String) : World :=
  let user (id : Int) (uuid name status : String) : User :=
    ⟨id, uuid, name, name, true, name, "pw", "user", 0#32, "", status⟩
  let challenge : MFAChallengeEntry := { Mfa.passkeyChallenge with userID := holder }
  { World.empty 0 with
    db := { Database.empty with
      users := [user 7 "sub-7" "ada" "locked", user 8 "sub-8" "ben" "active"]
      totps := [⟨7, "111111"⟩, ⟨8, "222222"⟩] }
    mfa := (saveMFAChallenge .empty 0 challenge (300 * second)).2 }

def codeAndPassword (code : String) : Bool → Login
  | true => .verifyTOTP "s1" "c1" code
  | false => .authenticate ⟨"s2", "c2", "99", "uuid"⟩ (.error .connector)
      { username := "ada", password := "pw" }

def lockedLogins (holder code : String) : Config Bool World Label Bool :=
  Config.start (challengedUser holder) fun i => (codeAndPassword code i).code (.plain [])

def completeThenPassword : List (Move Bool World) :=
  [.run true, .run true, .run true, .run true, .run true, .run true, .run true, .run false]

theorem closedAccountNotAdmitted_other :
    ∃ c, Reach (StaysClosed 7) (OthersChallenge 7 (codeAndPassword "222222"))
        (lockedLogins "8" "222222") c ∧
      (∃ x ∈ c.trace, ∃ s, x.label = .createSession s ∧ s.userID = 8) ∧
      c.procs false = .ret false ∧
      ∀ x ∈ c.trace, ∀ s, x.label = .createSession s → s.userID ≠ 7 := by
  let c := (lockedLogins "8" "222222").played (OthersChallenge 7 (codeAndPassword "222222"))
    completeThenPassword
  have hrun : Reach (StaysClosed 7) (OthersChallenge 7 (codeAndPassword "222222"))
      (lockedLogins "8" "222222") c :=
    played_reach _ (by simp [completeThenPassword, Move.Allowed]) (by decide +kernel)
  have hcreated : ∃ x ∈ c.trace, x.label = .createSession ⟨0, "s1", 8, "sub-8", "urn:idp:acr:mfa",
      "[\"pwd\",\"otp\"]", "", "", 0, 3600 * second, none⟩ := by decide +kernel
  obtain ⟨x, hx, hlabel⟩ := hcreated
  refine ⟨c, hrun, ⟨x, hx, _, hlabel, rfl⟩, by decide +kernel, ?_⟩
  exact closedAccountNotAdmitted (.plain []) 7 _ (by decide +kernel) (fun _ _ h => h) hrun

/-- **The law fails without the condition.** The challenge of the locked user and a code of theirs
give a session of the locked user. -/
theorem closedAccountAdmitted :
    ∃ c, Reach (StaysClosed 7) Unrestricted (lockedLogins "7" "111111") c ∧
      ClosedAccount 7 (challengedUser "7") ∧ ClosedAccount 7 c.shared ∧ c.procs true = .ret true ∧
      ∃ x ∈ c.trace, ∃ s, x.label = .createSession s ∧ s.userID = 7 := by
  let c := (lockedLogins "7" "111111").played Unrestricted completeThenPassword
  have hrun : Reach (StaysClosed 7) Unrestricted (lockedLogins "7" "111111") c :=
    played_reach _ (by simp [completeThenPassword, Move.Allowed]) (by decide +kernel)
  have hcreated : ∃ x ∈ c.trace, x.label = .createSession ⟨0, "s1", 7, "sub-7", "urn:idp:acr:mfa",
      "[\"pwd\",\"otp\"]", "", "", 0, 3600 * second, none⟩ := by decide +kernel
  obtain ⟨x, hx, hlabel⟩ := hcreated
  exact ⟨c, hrun, by decide +kernel, by decide +kernel, by decide +kernel, x, hx, _, hlabel, rfl⟩

end IdpServer.Laws.Authn
