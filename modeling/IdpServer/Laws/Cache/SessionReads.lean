import IdpServer.Laws.Cache.MfaReads

/-!
# Laws.Cache.SessionReads — the mask and the status of a session

`Get` computes the mask and the status string from each other (`reads_saved`), but the string is "active" for
every mask without lock or logout (`unmarkedActive`). `status_agrees` is the law for all masks.
-/

namespace IdpServer.Cache

open Go Store

variable {mask : Mask}

theorem normalizeSessionStateMask_of_ne (h : mask ≠ 0#32) (status : String) :
    normalizeSessionStateMask mask status = mask :=
  if_pos h

theorem normalizeSessionStateMask_ne_zero (mask : Mask) (status : String) :
    normalizeSessionStateMask mask status ≠ 0#32 := by
  unfold normalizeSessionStateMask
  dsimp only
  split_ifs with hmask
  · exact hmask
  all_goals decide

theorem sessionStatusFromMask_congr (h : mask ≠ 0#32) (status status' : String) :
    sessionStatusFromMask mask status = sessionStatusFromMask mask status' := by
  simp only [sessionStatusFromMask, normalizeSessionStateMask_of_ne h]

/-- A mask says by one of the three bits what state it stands for, or leaves it to the string. -/
def Marked (mask : Mask) : Prop :=
  mask = 0#32 ∨ mask.Any (sessionStateActive ||| sessionStateLocked ||| sessionStateLoggedOut)

instance (mask : Mask) : Decidable (Marked mask) := by unfold Marked; infer_instance

theorem any_three : mask.Any (sessionStateActive ||| sessionStateLocked ||| sessionStateLoggedOut) ↔
      mask.Any sessionStateActive ∨ mask.Any sessionStateLocked ∨ mask.Any sessionStateLoggedOut := by
  simp only [Mask.Any, BitVec.and_or_distrib_left, ne_eq, BitVec.or_eq_zero_iff]
  tauto

theorem sessionStatus_iff (hmask : mask ≠ 0#32) (fallback : String) :
    (sessionStatusFromMask mask fallback = "active" ↔ isSessionStateActive mask = true) ↔
      mask.Any (sessionStateActive ||| sessionStateLocked ||| sessionStateLoggedOut) := by
  rw [any_three]
  unfold sessionStatusFromMask isSessionStateActive
  rw [normalizeSessionStateMask_of_ne hmask]
  by_cases hout : mask.Any sessionStateLoggedOut
  · simp [hout]
  by_cases hlocked : mask.Any sessionStateLocked
  · simp [hout, hlocked]
  · simp [hout, hlocked]

theorem marked_normalized (mask : Mask) (status : String) :
    (normalizeSessionStateMask mask status).Any
        (sessionStateActive ||| sessionStateLocked ||| sessionStateLoggedOut) ↔ Marked mask := by
  unfold Marked normalizeSessionStateMask
  dsimp only
  split_ifs with hmask
  · simp [hmask]
  all_goals
    rw [not_ne_iff] at hmask
    simp only [hmask, true_or, iff_true]
    decide

section Save

variable {c : SessionCache} {now later ttl : Int} {e : SessionCacheEntry}

theorem hmget_save_within (h : Within now ttl later) :
    (c.save now e ttl).hmget later e.sessionID = some { e.toSessionHash with
      authenticatedAt := wholeSeconds e.authenticatedAt
      expiresAt := wholeSeconds e.expiresAt
      status := sessionStatusFromMask (normalizeSessionStateMask e.stateMask e.status) e.status } := by
  rw [SessionCache.hmget, SessionCache.save, SessionCache.saveSession, h.get, Keyspace.get_alter_self]

theorem bitfield_save_within (h : Within now ttl later) :
    (c.save now e ttl).bitfield later e.sessionID = ⟨normalizeSessionStateMask e.stateMask e.status,
      if e.stateVersion = 0 then 1 else e.stateVersion⟩ := by
  rw [SessionCache.bitfield, SessionCache.save, SessionCache.saveSession, h.get, Keyspace.get_alter_self,
    Option.getD_some]

end Save

theorem reads_saved (w : World) (e : SessionCacheEntry) {ttl later : Int} (h : Within w.now ttl later) :
    ∃ read, ((Repository.getSession e.sessionID).eval
        { ((Repository.saveSession e ttl).eval w).2 with now := later }).1 = some read ∧
      read.stateMask = normalizeSessionStateMask e.stateMask e.status ∧
      read.status = sessionStatusFromMask (normalizeSessionStateMask e.stateMask e.status) e.status := by
  have hmask := normalizeSessionStateMask_ne_zero e.stateMask e.status
  refine ⟨_, Option.map_eq_some_iff.mpr ⟨_, hmget_save_within h, rfl⟩, ?_, ?_⟩
  · show normalizeSessionStateMask ((w.sessions.save w.now e ttl).bitfield later e.sessionID).mask _ = _
    rw [bitfield_save_within h, normalizeSessionStateMask_of_ne hmask]
  · show sessionStatusFromMask
      (normalizeSessionStateMask ((w.sessions.save w.now e ttl).bitfield later e.sessionID).mask _) _ = _
    rw [bitfield_save_within h, normalizeSessionStateMask_of_ne hmask]
    exact sessionStatusFromMask_congr hmask _ _

/-- **The mask and the status agree** on what is read of a saved session exactly if its mask is marked or
left to the string. What was read can be saved and read again, in any state of the store, without a change
of either. -/
theorem status_agrees (w : World) (e : SessionCacheEntry) {ttl later : Int} (h : Within w.now ttl later) :
    ∃ read, ((Repository.getSession e.sessionID).eval
        { ((Repository.saveSession e ttl).eval w).2 with now := later }).1 = some read ∧
      ((read.status = "active" ↔ isSessionStateActive read.stateMask = true) ↔ Marked e.stateMask) ∧
      ∀ (w' : World) (ttl' later' : Int), Within w'.now ttl' later' →
        ∃ again, ((Repository.getSession read.sessionID).eval
            { ((Repository.saveSession read ttl').eval w').2 with now := later' }).1 = some again ∧
          again.stateMask = read.stateMask ∧ again.status = read.status := by
  obtain ⟨read, hread, hmask, hstatus⟩ := reads_saved w e h
  have hne : read.stateMask ≠ 0#32 := hmask ▸ normalizeSessionStateMask_ne_zero e.stateMask e.status
  refine ⟨read, hread, ?_, ?_⟩
  · rw [hstatus, ← hmask, sessionStatus_iff hne, hmask, marked_normalized]
  · intro w' ttl' later' h'
    obtain ⟨again, hagain, hmask', hstatus'⟩ := reads_saved w' read h'
    rw [normalizeSessionStateMask_of_ne hne] at hmask' hstatus'
    refine ⟨again, hagain, hmask', ?_⟩
    rw [hstatus', hstatus, ← hmask]
    exact sessionStatusFromMask_congr hne _ _

def someSession : SessionCacheEntry :=
  { sessionID := "s", userID := "7", subject := "u", acr := "", amrJSON := "[]", ipAddress := "",
    userAgent := "", authenticatedAt := 0, expiresAt := 300 * second, status := " Logout",
    stateMask := 0#32, stateVersion := 0 }

theorem status_agrees_logout :
    Within (World.empty 0).now (300 * second) (60 * second) ∧
      ∃ read, ((Repository.getSession "s").eval
          { ((Repository.saveSession someSession (300 * second)).eval (World.empty 0)).2 with
            now := 60 * second }).1 = some read ∧
        (read.status = "active" ↔ isSessionStateActive read.stateMask = true) := by
  have h : Within (World.empty 0).now (300 * second) (60 * second) := by
    right
    decide
  obtain ⟨read, hread, hagree, -⟩ := status_agrees (World.empty 0) someSession h
  exact ⟨h, read, hread, hagree.mpr (.inl rfl)⟩

/-- **The law fails without the condition.** A session whose mask has another bit only is read as "active",
and its mask is not that of an active one. -/
theorem unmarkedActive :
    ∃ read, ((Repository.getSession "s").eval
        ((Repository.saveSession { someSession with stateMask := 8#32 } (300 * second)).eval
          (World.empty 0)).2).1 = some read ∧
      read.status = "active" ∧ isSessionStateActive read.stateMask = false := by
  have hnow : Within (World.empty 0).now (300 * second) 0 := .inl rfl
  obtain ⟨read, hread, hmask, hstatus⟩ :=
    reads_saved (World.empty 0) { someSession with stateMask := 8#32 } hnow
  refine ⟨read, hread, ?_, ?_⟩
  · rw [hstatus]
    decide +kernel
  · rw [hmask]
    decide +kernel

end IdpServer.Cache
