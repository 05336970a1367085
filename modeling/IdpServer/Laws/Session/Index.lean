import IdpServer.Conc.Wp
import IdpServer.Repository

/-!
# Laws.Session.Index — the index of a user's sessions

A cached session should be in the index of its user. `AddUserSessionIndex` may shorten the life of the index
(`forgotten`), and `Save` goes by `TTL`, which rounds; `indexed_of_run` is the law otherwise.
-/

namespace IdpServer.Laws.Session

open Conc IdpServer.Cache Store Go

/-! ## Callers -/

inductive CacheCall where
  | save (e : SessionCacheEntry) (ttl : Int)
  | delete (sessionID : String)
  | addUserSessionIndex (userID sessionID : String) (ttl : Int)

def CacheCall.code : CacheCall → Action Unit
  | .save e ttl => Repository.saveSession e ttl
  | .delete sessionID => Repository.deleteSession sessionID
  | .addUserSessionIndex userID sessionID ttl => Repository.addUserSessionIndex userID sessionID ttl

def CacheCall.Positive : CacheCall → Prop
  | .save _ ttl => 0 < ttl
  | .delete _ => True
  | .addUserSessionIndex _ _ ttl => 0 < ttl

instance (call : CacheCall) : Decidable call.Positive := by
  cases call <;> dsimp only [CacheCall.Positive] <;> infer_instance

/-- Time passes. What is not a session may change. -/
def Passes (w w' : World) : Prop := w.now ≤ w'.now ∧ w'.sessions = w.sessions

variable {ι : Type}

/-- The condition. `Save` leaves the set alone only if it lives as long as the session, and
`AddUserSessionIndex` gives it the time left to its sessions. -/
def Lasting (m : Moment ι World Label) (_ : ι) : Label → Prop
  | .saveSession e ttl =>
    durationSeconds ttl ≤ m.shared.sessions.index.ttl m.shared.now e.userID →
      ∀ i ∈ m.shared.sessions.index.entry m.shared.now e.userID, ∀ t ∈ i.expireAt,
        m.shared.now + durationSeconds ttl * second ≤ t
  | .addUserSessionIndex userID _ ttl =>
    ∀ i ∈ m.shared.sessions.index.entry m.shared.now userID, ∀ s ∈ i.value,
      ∀ h ∈ m.shared.sessions.hash.entry m.shared.now s, ∀ t ∈ h.expireAt,
        t ≤ m.shared.now + durationSeconds ttl * second
  | _ => True

instance (m : Moment ι World Label) (i : ι) (l : Label) : Decidable (Lasting m i l) := by
  induction l using Label.casesOn <;> dsimp only [Lasting] <;> infer_instance

/-! ## The invariant -/

/-- **Every session is in the set of its user, and the set does not expire before it.** -/
def Indexed (w : World) : Prop :=
  ∀ s h, w.sessions.hash.entry w.now s = some h → ∃ t i t', h.expireAt = some t ∧
    w.sessions.index.entry w.now h.value.userID = some i ∧ i.expireAt = some t' ∧ t ≤ t' ∧ s ∈ i.value

variable {w : World} {s : String} {c : SessionCache} {S : String → Prop} {userID : String}
variable {ttl : Int}

theorem Indexed.passes {w' : World} (h : Indexed w) (hpass : Passes w w') : Indexed w' := by
  obtain ⟨hnow, hsessions⟩ := hpass
  intro s hash hhash
  rw [hsessions] at hhash ⊢
  obtain ⟨hraw, halive⟩ := Keyspace.entry_eq_some.mp hhash
  have hbefore : w.sessions.hash.entry w.now s = some hash :=
    Keyspace.entry_eq_some.mpr ⟨hraw, fun x hx => Int.lt_of_le_of_lt hnow (halive x hx)⟩
  obtain ⟨t, i, t', ht, hi, ht', hle, hmem⟩ := h s hash hbefore
  refine ⟨t, i, t', ht, Keyspace.entry_of_alive hi fun x hx => ?_, ht', hle, hmem⟩
  rw [ht', Option.mem_some_iff] at hx
  exact hx ▸ Int.lt_of_lt_of_le (halive t ht) hle

theorem Indexed.mem (h : Indexed w) {hash : SessionHash}
    (hhash : w.sessions.hmget w.now s = some hash) : s ∈ w.sessions.members w.now hash.userID := by
  obtain ⟨e, he, rfl⟩ := Option.map_eq_some_iff.mp hhash
  obtain ⟨_, i, _, -, hi, -, -, hmem⟩ := h s e he
  rw [SessionCache.members, Keyspace.get, hi]
  exact hmem

/-! ## One command -/

variable {w : World}

theorem Indexed.step (h : Indexed w)
    (hhash : ∀ s, ¬ S s → c.hash.entry w.now s = w.sessions.hash.entry w.now s)
    (hindex : ∀ userID i t', w.sessions.index.entry w.now userID = some i → i.expireAt = some t' →
      (∃ s ∈ i.value, ¬ S s) → ∃ i' t'', c.index.entry w.now userID = some i' ∧ i'.expireAt = some t'' ∧
        (∀ s ∈ i.value, ¬ S s → s ∈ i'.value) ∧
        (t' ≤ t'' ∨ ∀ s ∈ i.value, ∀ h ∈ w.sessions.hash.entry w.now s, ∀ t ∈ h.expireAt, t ≤ t''))
    (hself : ∀ s, S s → ∀ h, c.hash.entry w.now s = some h → ∃ t i t', h.expireAt = some t ∧
      c.index.entry w.now h.value.userID = some i ∧ i.expireAt = some t' ∧ t ≤ t' ∧ s ∈ i.value) :
    Indexed { w with sessions := c } := by
  intro s hash hs
  by_cases hS : S s
  · exact hself s hS hash hs
  · have hold : w.sessions.hash.entry w.now s = some hash := (hhash s hS).symm.trans hs
    obtain ⟨t, i, t', ht, hi, ht', hle, hmem⟩ := h s hash hold
    obtain ⟨i', t'', hi', ht'', hkeep, hlast⟩ := hindex _ i t' hi ht' ⟨s, hmem, hS⟩
    refine ⟨t, i', t'', ht, hi', ht'', ?_, hkeep s hmem hS⟩
    rcases hlast with hlast | hlast
    · exact Int.le_trans hle hlast
    · exact hlast s hmem hash hold t ht

theorem exists_same {index : Keyspace String (List String)} {i : Entry (List String)} {t' : Int}
    (hsame : index.entry w.now userID = w.sessions.index.entry w.now userID)
    (hi : w.sessions.index.entry w.now userID = some i) (ht' : i.expireAt = some t') :
    ∃ i' t'', index.entry w.now userID = some i' ∧ i'.expireAt = some t'' ∧
      (∀ s ∈ i.value, ¬ S s → s ∈ i'.value) ∧
      (t' ≤ t'' ∨ ∀ s ∈ i.value, ∀ h ∈ w.sessions.hash.entry w.now s, ∀ t ∈ h.expireAt, t ≤ t'') :=
  ⟨i, t', hsame.trans hi, ht', fun _ hs _ => hs, .inl (Int.le_refl t')⟩

theorem entry_del_of_ne {s' : String} (h : s' ≠ s) :
    (w.sessions.hash.del s).entry w.now s' = w.sessions.hash.entry w.now s' :=
  Keyspace.entry_congr (if_neg h)

theorem entry_del_self (s : String) : (w.sessions.hash.del s).entry w.now s = none :=
  Keyspace.entry_eq_none_iff.mpr Keyspace.get_del_self

theorem Indexed.deleteHash (h : Indexed w) (s : String) :
    Indexed { w with sessions := { w.sessions with hash := w.sessions.hash.del s } } := by
  refine h.step (fun s' hs' => entry_del_of_ne hs') ?_ ?_
  · exact fun userID i t' hi ht' _ => exists_same rfl hi ht'
  · rintro _ rfl hash hhash
    rw [entry_del_self] at hhash
    cases hhash

theorem Indexed.deleteSession (h : Indexed w) (s userID : String) :
    Indexed { w with sessions := w.sessions.deleteSession w.now s userID } := by
  refine h.step (fun s' hs' => entry_del_of_ne hs') ?_ ?_
  · rintro userID' i t' hi ht' ⟨s', hmem, hs'⟩
    by_cases huser : userID' = userID
    · subst huser
      have hget : w.sessions.index.get w.now userID' = some i.value := by rw [Keyspace.get, hi]; rfl
      have hmem' := (List.mem_erase_of_ne hs').mpr hmem
      have hnonempty : (i.value.erase s).isEmpty = false := by
        rw [List.isEmpty_eq_false_iff]
        exact List.ne_nil_of_mem hmem'
      refine ⟨⟨i.value.erase s, i.expireAt⟩, t', ?_, ht', ?_, .inl (Int.le_refl t')⟩
      · simp only [SessionCache.deleteSession, hget, hnonempty, Bool.false_eq_true, if_false]
        exact Keyspace.entry_alter_self hi
      · exact fun x hx hne => (List.mem_erase_of_ne hne).mpr hx
    · refine exists_same (Keyspace.entry_congr ?_) hi ht'
      unfold SessionCache.deleteSession
      dsimp only
      split
      next => rfl
      next =>
        split
        next => exact if_neg huser
        next => exact Keyspace.alter_of_ne huser
  · rintro _ rfl hash hhash
    rw [SessionCache.deleteSession, entry_del_self] at hhash
    cases hhash

theorem lt_later {seconds : Int} (h : 0 < seconds) (now : Int) : now < now + seconds * second := by
  simp only [second]
  omega

theorem Indexed.addUserSessionIndex (h : Indexed w) (httl : 0 < ttl)
    (hlasting : ∀ i ∈ w.sessions.index.entry w.now userID, ∀ s ∈ i.value,
      ∀ h ∈ w.sessions.hash.entry w.now s, ∀ t ∈ h.expireAt, t ≤ w.now + durationSeconds ttl * second) :
    Indexed { w with sessions := w.sessions.addUserSessionIndex w.now userID s ttl } := by
  have hseconds : 0 < durationSeconds ttl := by
    rw [durationSeconds_of_pos httl]
    omega
  refine h.step (S := fun _ => False) (fun _ _ => rfl) ?_ (fun _ hfalse => hfalse.elim)
  intro userID' i t' hi ht' _
  simp only [SessionCache.addUserSessionIndex, Keyspace.expireCommand, gt_iff_lt, hseconds, if_true]
  by_cases huser : userID' = userID
  · subst huser
    have hget : w.sessions.index.get w.now userID' = some i.value := by rw [Keyspace.get, hi]; rfl
    refine ⟨_, _, Keyspace.entry_expire (Keyspace.entry_alter _) (lt_later hseconds _), rfl, fun x hx _ => ?_, .inr ?_⟩
    · rw [hget]
      exact List.mem_insert_of_mem hx
    · exact fun x hx hash hhash t ht => hlasting i hi x hx hash hhash t ht
  · exact exists_same (Keyspace.entry_congr ((Keyspace.expire_of_ne huser).trans (Keyspace.alter_of_ne huser))) hi ht'

theorem exists_index {now : Int} (httl : 0 < ttl)
    (hlasting : ttl ≤ c.index.ttl now userID → ∀ i ∈ c.index.entry now userID, ∀ t ∈ i.expireAt,
      now + ttl * second ≤ t) (hash : SessionHash) (hhash : hash.userID = userID) (mask : Mask)
    (version : Nat) :
    ∃ i t'', (c.saveSession now s hash ttl mask version).index.entry now userID = some i ∧
      i.expireAt = some t'' ∧ now + ttl * second ≤ t'' ∧ s ∈ i.value ∧
      ∀ i₀ t', c.index.entry now userID = some i₀ → i₀.expireAt = some t' →
        (∀ x ∈ i₀.value, x ∈ i.value) ∧ t' ≤ t'' := by
  subst hhash
  have halter : (c.index.alter now hash.userID fun old => (old.getD []).insert s).entry now hash.userID =
      some ⟨((c.index.get now hash.userID).getD []).insert s,
        (c.index.entry now hash.userID).bind (·.expireAt)⟩ := Keyspace.entry_alter _
  have hkeeps : ∀ i₀, c.index.entry now hash.userID = some i₀ →
      ∀ x ∈ i₀.value, x ∈ ((c.index.get now hash.userID).getD []).insert s := by
    intro i₀ hi₀ x hx
    rw [Keyspace.get, hi₀]
    exact List.mem_insert_of_mem hx
  simp only [SessionCache.saveSession, Keyspace.ttl_of_entry halter]
  split
  next hextend =>
    refine ⟨_, _, Keyspace.entry_expire halter (lt_later httl now), rfl, Int.le_refl _, List.mem_insert_self, ?_⟩
    intro i₀ t' hi₀ ht'
    refine ⟨hkeeps i₀ hi₀, ?_⟩
    rw [hi₀, Option.bind_some, ht', Option.elim_some] at hextend
    simp only [second] at hextend ⊢
    omega
  next hleft =>
    cases hi₀ : c.index.entry now hash.userID with
    | none =>
      rw [hi₀] at hleft
      exact absurd ⟨httl, .inl (by decide : (-1 : Int) < 0)⟩ hleft
    | some i₀ =>
      cases ht' : i₀.expireAt with
      | none =>
        rw [hi₀, Option.bind_some, ht'] at hleft
        exact absurd ⟨httl, .inl (by decide : (-1 : Int) < 0)⟩ hleft
      | some t' =>
        have hle : ttl ≤ c.index.ttl now hash.userID := by
          rw [hi₀, Option.bind_some, ht', Option.elim_some] at hleft
          rw [Keyspace.ttl_of_entry hi₀, ht', Option.elim_some]
          omega
        rw [hi₀, Option.bind_some, ht'] at halter
        refine ⟨_, t', halter, rfl, hlasting hle i₀ hi₀ t' ht', List.mem_insert_self, ?_⟩
        rintro _ t'' ⟨⟩ ht''
        obtain rfl := Option.some.inj (ht'.symm.trans ht'')
        exact ⟨hkeeps i₀ hi₀, Int.le_refl _⟩

theorem Indexed.save (h : Indexed w) {e : SessionCacheEntry} (httl : 0 < ttl)
    (hlasting : durationSeconds ttl ≤ w.sessions.index.ttl w.now e.userID →
      ∀ i ∈ w.sessions.index.entry w.now e.userID, ∀ t ∈ i.expireAt,
        w.now + durationSeconds ttl * second ≤ t) :
    Indexed { w with sessions := w.sessions.save w.now e ttl } := by
  have hseconds : 0 < durationSeconds ttl := by
    rw [durationSeconds_of_pos httl]
    omega
  unfold SessionCache.save
  obtain ⟨i, t'', hi, ht'', hle, hmem, hkeep⟩ := exists_index hseconds hlasting
    { e.toSessionHash with
      authenticatedAt := wholeSeconds e.authenticatedAt
      expiresAt := wholeSeconds e.expiresAt
      status := sessionStatusFromMask (normalizeSessionStateMask e.stateMask e.status) e.status } rfl
    (normalizeSessionStateMask e.stateMask e.status) (if e.stateVersion = 0 then 1 else e.stateVersion)
  refine h.step (S := (· = e.sessionID)) (fun s hs => ?_) ?_ ?_
  · exact Keyspace.entry_congr ((Keyspace.expireIn_of_ne hs).trans (Keyspace.alter_of_ne hs))
  · intro userID i₀ t' hi₀ ht' _
    by_cases huser : userID = e.userID
    · subst huser
      obtain ⟨hmembers, hlast⟩ := hkeep i₀ t' hi₀ ht'
      exact ⟨i, t'', hi, ht'', fun s hs _ => hmembers s hs, .inl hlast⟩
    · refine exists_same (Keyspace.entry_congr ?_) hi₀ ht'
      simp only [SessionCache.saveSession]
      split
      next => exact (Keyspace.expire_of_ne huser).trans (Keyspace.alter_of_ne huser)
      next => exact Keyspace.alter_of_ne huser
  · rintro _ rfl hash hhash
    rw [SessionCache.saveSession, Keyspace.entry_expireIn_self (Keyspace.entry_alter _)] at hhash
    obtain rfl := Option.some.inj hhash
    exact ⟨_, i, t'', if_pos hseconds, hi, ht'', hle, hmem⟩

/-! ## Every run -/

section Runs

variable [DecidableEq ι] {i : ι} {m : Moment ι World Label}

def indexing : Discipline ι World Label where
  inv m := Indexed m.shared
  mono _ _ := True
  mono_refl _ := trivial
  mono_trans _ _ := trivial

theorem cacheCall_wp {call : CacheCall} (hcall : call.Positive) :
    Wp indexing Lasting i call.code (fun _ _ => True) m := by
  cases call with
  | save e ttl =>
    intro m' _ hinv hlasting
    exact ⟨Indexed.save hinv hcall hlasting, trivial, trivial⟩
  | addUserSessionIndex userID sessionID ttl =>
    intro m' _ hinv hlasting
    exact ⟨Indexed.addUserSessionIndex hinv hcall hlasting, trivial, trivial⟩
  | delete sessionID =>
    have hsilent : (Repository.getSession sessionID).Silent := fun _ _ => trivial
    refine wp_bind.mpr ((Wp.of_acts hsilent stable_true (fun _ _ _ h => h.elim) trivial).imp fun r _ _ => ?_)
    cases r with
    | none =>
      intro m' _ hinv _
      exact ⟨Indexed.deleteHash hinv sessionID, trivial, trivial⟩
    | some entry =>
      intro m' _ hinv _
      exact ⟨Indexed.deleteSession hinv sessionID entry.userID, trivial, trivial⟩

/-- **The index never forgets a live session.** Any number of calls run among each other, and time passes.
In every run that meets the condition, every cached session is in the set of its user. -/
theorem indexed_of_run (calls : ι → CacheCall) (hcalls : ∀ i, (calls i).Positive) {w : World}
    (hw : Indexed w) {c : Config ι World Label Unit}
    (hrun : Reach Passes Lasting (Config.start w fun i => (calls i).code) c) (s : String)
    (hash : SessionHash) (hhash : c.shared.sessions.hmget c.shared.now s = some hash) :
    s ∈ c.shared.sessions.members c.shared.now hash.userID := by
  have henv : (indexing (ι := ι)).Admits Passes := fun _ _ hinv hpass => ⟨hinv.passes hpass, trivial⟩
  have hsafe : c.Safe indexing Lasting fun _ _ _ => True := by
    refine sound henv (fun _ _ _ _ _ _ _ => trivial) ?_ hrun
    exact ⟨hw, fun i => cacheCall_wp (hcalls i)⟩
  exact hsafe.1.mem hhash

end Runs

/-! ## One user -/

def loginEntry (sessionID : String) : SessionCacheEntry where
  sessionID := sessionID
  userID := "7"
  subject := "sub-7"
  acr := ""
  amrJSON := ""
  ipAddress := ""
  userAgent := ""
  authenticatedAt := 0
  expiresAt := 3600 * second
  status := "active"
  stateMask := 0#32
  stateVersion := 0

def twoLogins (ttl : Int) : Fin 3 → CacheCall
  | 0 => .save (loginEntry "s1") (3600 * second)
  | 1 => .save (loginEntry "s2") (7200 * second)
  | 2 => .addUserSessionIndex "7" "s1" ttl

def loginRun (ttl : Int) : Config (Fin 3) World Label Unit :=
  Config.start (.empty 0) fun i => (twoLogins ttl i).code

theorem indexed_empty (now : Int) : Indexed (.empty now) := by
  intro s h hs
  cases hs

theorem passes_later (ns : Nat) (w : World) : Passes w (w.later ns) :=
  ⟨Int.le_add_of_nonneg_right (Int.natCast_nonneg ns), rfl⟩

def Cached (w : World) (members : List String) : Prop :=
  (w.sessions.hmget w.now "s2").map (·.userID) = some "7" ∧ w.sessions.members w.now "7" = members

instance (w : World) (members : List String) : Decidable (Cached w members) := by
  unfold Cached
  infer_instance

theorem indexed_of_logins : ∃ c, Reach Passes Lasting (loginRun (7200 * second)) c ∧
    Cached c.shared ["s2", "s1"] ∧ "s2" ∈ c.shared.sessions.members c.shared.now "7" := by
  obtain ⟨c, hrun, hcached⟩ := exists_played (E := Passes) (A := Lasting) (c := loginRun (7200 * second))
    (P := fun c => Cached c.shared ["s2", "s1"])
    [.run 0, .run 1, .run 2, .env (World.later 3600000000000)] (by simp [Move.Allowed, passes_later])
    (by decide +kernel)
  obtain ⟨hash, hhash, huser⟩ := Option.map_eq_some_iff.mp hcached.1
  refine ⟨c, hrun, hcached, huser ▸ ?_⟩
  exact indexed_of_run (twoLogins (7200 * second)) (by decide) (indexed_empty 0) hrun "s2" hash hhash

/-- The set is given one second, and two seconds later both sessions are there and the set is not. -/
theorem forgotten : ∃ c, Reach Passes Unrestricted (loginRun second) c ∧ Cached c.shared [] :=
  exists_played [.run 0, .run 1, .run 2, .env (World.later 2000000000)]
    (by simp [Move.Allowed, passes_later]) (by decide +kernel)

-- The set has 9.6 seconds left when a session of ten seconds is saved, and `TTL` reports ten.
example :
    let first := SessionCache.empty.save 0 (loginEntry "s1") (10 * second)
    let both := first.save 400000000 (loginEntry "s2") (10 * second)
    (both.hmget 10200000000 "s2").isSome = true ∧ both.members 10200000000 "7" = [] := by
  decide +kernel

end IdpServer.Laws.Session
