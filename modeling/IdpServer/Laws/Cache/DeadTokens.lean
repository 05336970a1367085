import IdpServer.Conc.Wp
import IdpServer.Repository

/-!
# Laws.Cache.DeadTokens — revoked refresh tokens in the cache

A revocation writes the older flag `revoked` alone, which the scripts look at only where there is no `status`
(`revokedToken_rotated`). `dead_refused` is what the flag achieves.
-/

namespace IdpServer.Laws.Cache

open Conc IdpServer.Cache Go Store

inductive RefreshCall where
  | save (e : RefreshTokenCacheEntry) (ttl : Int)
  | rotate (oldSHA : String) (new : RefreshTokenCacheEntry) (response : TokenResponse) (fp : String)
      (newTTL graceTTL : Int)
  | check (sha fp : String)
  | revoke (sha : String) (ttl : Int)

inductive RefreshReply where
  | done
  | rotation (reply : TokenCache.RotateReply)
  | replay (result : TokenCache.ReplayResult)
  deriving DecidableEq

def RefreshCall.code : RefreshCall → Action RefreshReply
  | .save e ttl => do
    Repository.saveRefreshToken e ttl
    return .done
  | .rotate oldSHA new response fp newTTL graceTTL => do
    let reply ← Repository.rotateCachedToken oldSHA new response fp newTTL graceTTL
    return .rotation reply
  | .check sha fp => do
    let result ← Repository.checkRefreshTokenReplay sha fp
    return .replay result
  | .revoke sha ttl => do
    Repository.revokeRefreshToken sha ttl
    return .done

inductive Calling : Label → (World → World) → Prop
  | save (e : RefreshTokenCacheEntry) (ttl : Int) : Calling (.saveRefreshToken e ttl)
      fun w => { w with tokens := w.tokens.saveRefreshToken w.now e ttl }
  | rotate (oldSHA : String) (new : RefreshTokenCacheEntry) (response : TokenResponse) (fp : String)
      (newTTL graceTTL nowTS : Int) : Calling (.rotateToken oldSHA new response fp newTTL nowTS)
      fun w => { w with tokens := (w.tokens.rotateToken w.now oldSHA new response fp
        (durationSeconds newTTL) (durationSeconds graceTTL) nowTS).2 }
  | check (sha : String) (nowTS : Int) (fp : String) : Calling (.checkRefreshReplay sha nowTS fp)
      fun w => { w with tokens := (w.tokens.checkRefreshReplay w.now sha nowTS fp).2 }
  | revoke (sha : String) (ttl : Int) : Calling (.revokeRefreshToken sha ttl)
      fun w => { w with tokens := w.tokens.revokeRefreshToken w.now sha ttl }

theorem RefreshCall.code_acts (call : RefreshCall) : call.code.Acts Calling := by
  cases call with
  | save e ttl => exact ⟨.save e ttl, fun _ => trivial⟩
  | rotate oldSHA new response fp newTTL graceTTL =>
    exact fun _ => ⟨.rotate _ _ _ _ _ graceTTL _, fun _ => trivial⟩
  | check sha fp => exact fun _ => ⟨.check _ _ _, fun _ => trivial⟩
  | revoke sha ttl => exact ⟨.revoke sha ttl, fun _ => trivial⟩

/-! ## Dead tokens -/

def Dead (h : RefreshTokenHash) : Prop :=
  h.effectiveStatus ≠ .active ∧ h.effectiveStatus ≠ .rotated

instance (h : RefreshTokenHash) : Decidable (Dead h) := by unfold Dead; infer_instance

def Unsettled (h : RefreshTokenHash) : Prop :=
  h.status ≠ some .active ∧ h.status ≠ some .rotated

instance (h : RefreshTokenHash) : Decidable (Unsettled h) := by unfold Unsettled; infer_instance

theorem Unsettled.dead {h : RefreshTokenHash} (hh : Unsettled h) :
    Dead { h with revoked := true } := by
  unfold Dead RefreshTokenHash.effectiveStatus
  cases hstatus : h.status with
  | none => simp
  | some status => simpa [Unsettled, hstatus] using hh

def DeadIn (w : World) (sha : String) : Prop := ∀ h, w.tokens.refresh.get w.now sha = some h → Dead h

section Refused

variable {sha : String}

variable {c : TokenCache} {now : Int}

theorem rotateToken_of_dead (hdead : ∀ h, c.refresh.get now sha = some h → Dead h)
    (new : RefreshTokenCacheEntry) (response : TokenResponse) (fp : String)
    (newTTL graceTTL nowTS : Int) :
    (c.rotateToken now sha new response fp newTTL graceTTL nowTS).1 ≠ .rotated := by
  obtain ⟨hreply, -⟩ | ⟨h, hh, hactive, -⟩ :=
    c.rotateToken_cases now sha new response fp newTTL graceTTL nowTS
  · exact hreply
  · exact absurd hactive (hdead h hh).1

theorem checkRefreshReplay_of_dead {h : RefreshTokenHash} (hh : c.refresh.get now sha = some h)
    (hdead : Dead h) (nowTS : Int) (fp : String) :
    (c.checkRefreshReplay now sha nowTS fp).1 = .rejected := by
  unfold TokenCache.checkRefreshReplay
  rw [hh]
  dsimp only
  split
  · rfl
  · cases hstatus : h.effectiveStatus with
    | active => exact absurd hstatus hdead.1
    | rotated => exact absurd hstatus hdead.2
    | revoked => rfl
    | compromised => rfl

theorem checkRefreshReplay_of_missing (hh : c.refresh.get now sha = none) (nowTS : Int)
    (fp : String) : (c.checkRefreshReplay now sha nowTS fp).1 = .none := by
  unfold TokenCache.checkRefreshReplay
  rw [hh]

end Refused

/-! ## Along a run -/

section Runs

variable {ι : Type}

def revokedBy : Label → Option String
  | .revokeRefreshToken sha _ => some sha
  | _ => none

def savedBy : Label → Option String
  | .saveRefreshToken e _ => some e.tokenSHA256
  | _ => none

/-- The token was revoked while the cache had its hash. -/
def RevokedIn (trace : List (Event ι World Label)) (sha : String) : Prop :=
  ∃ x ∈ trace, revokedBy x.label = some sha ∧ x.before.tokens.refresh.has x.before.now sha = true

instance (trace : List (Event ι World Label)) (sha : String) :
    Decidable (RevokedIn trace sha) := by
  unfold RevokedIn; infer_instance

/-- The condition on a run: a revocation finds a token whose status is neither active nor rotated,
and no revoked token is saved or issued again. -/
def Unhindered (m : Moment ι World Label) (_ : ι) : Label → Prop
  | .revokeRefreshToken sha _ => ∀ h ∈ m.shared.tokens.refresh.get m.shared.now sha, Unsettled h
  | .saveRefreshToken e _ => ¬ RevokedIn m.trace e.tokenSHA256
  | .rotateToken _ new _ _ _ _ => ¬ RevokedIn m.trace new.tokenSHA256
  | _ => True

instance (m : Moment ι World Label) (i : ι) (l : Label) : Decidable (Unhindered m i l) := by
  induction l using Label.casesOn <;> dsimp only [Unhindered] <;> infer_instance

def SavedOnce (m : Moment ι World Label) (_ : ι) : Label → Prop
  | .saveRefreshToken e _ => ∀ x ∈ m.trace, savedBy x.label ≠ some e.tokenSHA256
  | _ => True

instance (m : Moment ι World Label) (i : ι) (l : Label) : Decidable (SavedOnce m i l) := by
  induction l using Label.casesOn <;> dsimp only [SavedOnce] <;> infer_instance

/-- Time passes, and everything but the hashes of refresh tokens may change. -/
def HashesStay (w w' : World) : Prop :=
  w.now ≤ w'.now ∧ w'.tokens.refresh = w.tokens.refresh

def deadTokens (ι : Type) : Discipline ι World Label where
  inv m := ∀ sha, RevokedIn m.trace sha → DeadIn m.shared sha
  mono _ _ := True
  mono_refl _ := trivial
  mono_trans _ _ := trivial

theorem DeadIn.of_same {w w' : World} {sha : String} (h : DeadIn w sha)
    (hsame : ∀ hash, w'.tokens.refresh.get w'.now sha = some hash →
      w.tokens.refresh.get w.now sha = some hash) : DeadIn w' sha :=
  fun hash hhash => h hash (hsame hash hhash)

variable {m : Moment ι World Label} {i : ι} {l : Label} {f : World → World}

theorem RevokedIn.cases {sha : String} (h : RevokedIn (m.after i l f).trace sha) :
    RevokedIn m.trace sha ∨ revokedBy l = some sha := by
  obtain ⟨x, hx, hlabel, hhas⟩ := h
  rcases List.mem_cons.mp hx with rfl | hx
  · exact .inr hlabel
  · exact .inl ⟨x, hx, hlabel, hhas⟩

theorem Calling.deadTokens (hl : Calling l f) (hinv : (deadTokens ι).inv m) (hA : Unhindered m i l) :
    (deadTokens ι).inv (m.after i l f) := by
  intro sha hrevoked
  cases hl with
  | save e ttl =>
    obtain hrevoked | hlabel := hrevoked.cases
    · have hne : sha ≠ e.tokenSHA256 := fun heq => hA (heq ▸ hrevoked)
      refine (hinv sha hrevoked).of_same fun hash hhash => ?_
      simp only [Moment.after_shared, TokenCache.saveRefreshToken, Keyspace.expireCommand] at hhash
      split at hhash
      · simpa [hne] using hhash
      · simpa [hne] using hhash
    · cases hlabel
  | rotate oldSHA new response fp newTTL graceTTL nowTS =>
    obtain hrevoked | hlabel := hrevoked.cases
    · have hne : sha ≠ new.tokenSHA256 := fun heq => hA (heq ▸ hrevoked)
      refine (hinv sha hrevoked).of_same fun hash hhash => ?_
      obtain ⟨-, hsame⟩ | ⟨h, hh, hactive, -, heq⟩ := m.shared.tokens.rotateToken_cases m.shared.now
        oldSHA new response fp (durationSeconds newTTL) (durationSeconds graceTTL) nowTS
      · rw [Moment.after_shared, hsame] at hhash
        exact hhash
      · -- the rotated token is active, so it is another one
        have hother : sha ≠ oldSHA := fun hsha =>
          (hinv sha hrevoked h (hsha ▸ hh)).1 hactive
        rw [Moment.after_shared, heq] at hhash
        simpa [hne, hother] using hhash
    · cases hlabel
  | check s nowTS fp =>
    obtain hrevoked | hlabel := hrevoked.cases
    · refine (hinv sha hrevoked).of_same fun hash hhash => ?_
      obtain hsame | ⟨h, hh, -, hrotated, -, heq⟩ :=
        m.shared.tokens.checkRefreshReplay_cases m.shared.now s nowTS fp
      · rw [Moment.after_shared, hsame] at hhash
        exact hhash
      · have hother : sha ≠ s := fun hsha =>
          (hinv sha hrevoked h (hsha ▸ hh)).2 hrotated
        rw [Moment.after_shared, heq] at hhash
        simpa [hother] using hhash
    · cases hlabel
  | revoke s ttl =>
    -- the flag is set on the token that is revoked, and kept away from the others
    intro hash hhash
    simp only [Moment.after_shared, TokenCache.revokeRefreshToken] at hhash
    by_cases hs : sha = s
    · subst hs
      split at hhash
      next hhas =>
        obtain ⟨h, hh⟩ := Option.isSome_iff_exists.mp hhas
        rw [Keyspace.get_alter_self, hh] at hhash
        cases hhash
        exact (hA h hh).dead
      next hmissing => exact absurd (by rw [Keyspace.has, hhash]; rfl) hmissing
    · obtain hrevoked | hlabel := hrevoked.cases
      · refine hinv sha hrevoked hash ?_
        split at hhash
        · rwa [Keyspace.get_alter_of_ne hs] at hhash
        · exact hhash
      · exact absurd (Option.some.inj hlabel).symm hs

/-- **A token revoked under the condition is refused from then on**: no rotation from it succeeds, and the
replay check rejects it while the cache has its hash, and never repeats a response. -/
theorem dead_refused [DecidableEq ι] (calls : ι → RefreshCall) (w : World)
    {c : Config ι World Label RefreshReply}
    (hrun : Reach HashesStay Unhindered (Config.start w fun i => (calls i).code) c) {sha : String}
    (hrevoked : RevokedIn c.trace sha) :
    (∀ new response fp newTTL graceTTL nowTS, (c.shared.tokens.rotateToken c.shared.now sha new response
      fp newTTL graceTTL nowTS).1 ≠ .rotated) ∧
    ∀ nowTS fp,
      (c.shared.tokens.refresh.has c.shared.now sha = true →
        (c.shared.tokens.checkRefreshReplay c.shared.now sha nowTS fp).1 ≠ .none) ∧
      ∀ response,
        (c.shared.tokens.checkRefreshReplay c.shared.now sha nowTS fp).1 ≠ .grace response := by
  have hsafe : c.Safe (deadTokens ι) Unhindered fun _ _ _ => True := by
    refine sound (fun m s hinv hE => ?_) (fun _ _ _ _ _ _ h => h) ?_ hrun
    · refine ⟨fun sha hsha => (hinv sha hsha).of_same fun hash hhash => ?_, trivial⟩
      rw [hE.2] at hhash
      exact Keyspace.get_of_le hE.1 hhash
    · refine ⟨?_, fun i => ?_⟩
      · rintro sha ⟨x, hx, -⟩
        cases hx
      · refine Wp.of_acts (calls i).code_acts (fun _ _ _ _ h => h) ?_ trivial
        exact fun m l f hl hinv _ hA => ⟨hl.deadTokens hinv hA, trivial, trivial⟩
  have hdead := hsafe.1 sha hrevoked
  refine ⟨rotateToken_of_dead hdead, fun nowTS fp => ⟨fun hhas => ?_, fun response => ?_⟩⟩
  · obtain ⟨h, hh⟩ := Option.isSome_iff_exists.mp hhas
    simp [checkRefreshReplay_of_dead hh (hdead h hh)]
  · cases hh : c.shared.tokens.refresh.get c.shared.now sha with
    | none => simp [checkRefreshReplay_of_missing hh]
    | some h => simp [checkRefreshReplay_of_dead hh (hdead h hh)]

end Runs

/-! ## A token and its successor -/

def sampleEntry (sha : String) : RefreshTokenCacheEntry :=
  ⟨sha, "app", "7", "sub-7", "[]", sha, 0, 3600 * second⟩

def sampleResponse : TokenResponse := ⟨"access", "Bearer", 300, "u", "", ""⟩

def reusedToken : Fin 4 → RefreshCall
  | 0 => .save (sampleEntry "t") (3600 * second)
  | 1 => .rotate "t" (sampleEntry "u") sampleResponse "owner" (3600 * second) (10 * second)
  | 2 => .check "t" "thief"
  | 3 => .revoke "t" (3600 * second)

theorem dead_refused_compromised : ∃ c,
    Reach HashesStay Unhindered (Config.start (World.empty 0) fun i => (reusedToken i).code) c ∧
    RevokedIn c.trace "t" ∧ c.shared.tokens.refresh.has c.shared.now "t" = true ∧
    (c.shared.tokens.rotateToken c.shared.now "t" (sampleEntry "v") sampleResponse "owner" 3600 10
      0).1 ≠ .rotated ∧
    (c.shared.tokens.checkRefreshReplay c.shared.now "t" 0 "owner").1 ≠ .none := by
  obtain ⟨c, hrun, hrevoked, hhas⟩ := exists_played (E := HashesStay) (A := Unhindered)
    (c := Config.start (World.empty 0) fun i => (reusedToken i).code)
    (P := fun c => RevokedIn c.trace "t" ∧ c.shared.tokens.refresh.has c.shared.now "t" = true)
    [.run 0, .run 1, .run 2, .run 3] (by simp [Move.Allowed]) (by decide +kernel)
  obtain ⟨hrotate, hcheck⟩ := dead_refused reusedToken (World.empty 0) hrun hrevoked
  exact ⟨c, hrun, hrevoked, hhas, hrotate _ _ _ _ _ _, (hcheck 0 "owner").1 hhas⟩

def revokedToken : Fin 3 → RefreshCall
  | 0 => .save (sampleEntry "t") (3600 * second)
  | 1 => .revoke "t" (3600 * second)
  | 2 => .rotate "t" (sampleEntry "u") sampleResponse "owner" (3600 * second) (10 * second)

/-- **The law fails without the condition.** A token that was saved once and then revoked passes the replay
check and is rotated. -/
theorem revokedToken_rotated :
    (∃ c, Reach HashesStay SavedOnce
        (Config.start (World.empty 0) fun i => (revokedToken i).code) c ∧
      RevokedIn c.trace "t" ∧ c.shared.tokens.refresh.has c.shared.now "t" = true ∧
      (c.shared.tokens.checkRefreshReplay c.shared.now "t" 0 "owner").1 = .none ∧
      (c.shared.tokens.rotateToken c.shared.now "t" (sampleEntry "u") sampleResponse "owner" 3600 10
        0).1 = .rotated) ∧
    ∃ c, Reach HashesStay SavedOnce
        (Config.start (World.empty 0) fun i => (revokedToken i).code) c ∧
      RevokedIn c.trace "t" ∧
      (c.shared.tokens.checkRefreshReplay c.shared.now "t" 0 "owner").1 = .grace sampleResponse := by
  constructor
  · exact exists_played (A := SavedOnce) [.run 0, .run 1] (by simp [Move.Allowed]) (by decide +kernel)
  · exact exists_played (A := SavedOnce) [.run 0, .run 1, .run 2] (by simp [Move.Allowed])
      (by decide +kernel)

end IdpServer.Laws.Cache
