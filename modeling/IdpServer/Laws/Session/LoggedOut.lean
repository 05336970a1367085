import Mathlib.Data.List.Pairwise
import IdpServer.Conc.Duty
import IdpServer.Session.Service
import IdpServer.Laws.Mfa.SingleUse

/-!
# Laws.Session.LoggedOut — logouts clear what they mark

A login writes the row and then the hash, a logout marks the row and then clears the hash. When all are done, a
logged-out session is not cached (`cached_eq_none`), under the condition `Orderly`.
-/

namespace IdpServer.Laws.Session

open Conc IdpServer.Cache Store Go IdpServer.Session

/-! ## Callers -/

def succeeds {ε α : Type} (p : Service ε α) : Action Bool := do return (← p.run).isOk

theorem wp_succeeds {ι ε α : Type} [DecidableEq ι] {D : Discipline ι World Label}
    {A : Moment ι World Label → ι → Label → Prop} {i : ι} {m : Moment ι World Label} {p : Service ε α}
    {R : Moment ι World Label → Prop} (hp : Wp D A i p.run (Gives fun _ => R) m) :
    Wp D A i (succeeds p) (fun b m' => b = true → R m') m := by
  refine wp_bind.mpr (hp.imp fun r m' hr => ?_)
  cases r with
  | error e => exact nofun
  | ok a => exact fun _ => hr a rfl

/-- A login that has passed its checks, or a logout. -/
inductive Caller where
  | login (sessionID : String) (user : User) (method : Authn.AuthnMethodType)
      (ipAddress userAgent redirectURI returnTo : String) (now : Int)
  | logout (sessionID : String)
  | logoutAll (sessionID : String)
  | adminLogoutUser (userID : Int)

/-- What the caller runs; the answer is `false` for a logout that met an error of a store. -/
def Caller.code (env : Env) : Caller → Action Bool
  | .login sessionID user method ipAddress userAgent redirectURI returnTo now => do
    let _ ← (Authn.createSession env sessionID user method ipAddress userAgent redirectURI returnTo
      now).run
    return true
  | .logout sessionID => succeeds (Session.logout env sessionID)
  | .logoutAll sessionID => succeeds (Session.logoutAll env sessionID)
  | .adminLogoutUser userID => succeeds (Session.adminLogoutUser userID)

/-- The ids drawn for logins are not changed by trimming, and not blank. -/
def Caller.WellNamed : Caller → Prop
  | .login sessionID .. => nonblank sessionID = some sessionID
  | _ => True

variable {ι : Type} {env : Env}

def cached (w : World) (s : String) : Option SessionHash := w.sessions.hmget w.now s

def Orderly (env : Env) (m : Moment ι World Label) (_ : ι) : Label → Prop
  | .saveSession e _ =>
    ∀ r ∈ m.shared.db.sessions, r.sessionID = e.sessionID → r.loggedOutAt = none
  | .logoutBySessionID s _ =>
    ∀ r ∈ m.shared.db.sessions, env.sqlEq r.sessionID s = true → r.sessionID = s
  | .listUserSessionIDs userID =>
    ∀ r ∈ m.shared.db.sessions, ∀ h ∈ cached m.shared r.sessionID, h.userID = userID →
      r.sessionID ∈ m.shared.sessions.members m.shared.now userID
  | _ => True

instance (m : Moment ι World Label) (i : ι) (l : Label) : Decidable (Orderly env m i l) := by
  induction l using Label.casesOn <;> dsimp only [Orderly] <;> infer_instance

/-- Whatever else happens, time does not go back and nobody else writes sessions. -/
def OthersWrite (w w' : World) : Prop :=
  w.now ≤ w'.now ∧ w'.db.sessions = w.db.sessions ∧ w'.sessions = w.sessions

/-- The table and the cache of sessions agree: ids are unique under the comparison of the database, and a
cached session has a row of the same user. -/
structure Coherent (env : Env) (w : World) : Prop where
  unique : w.db.sessions.Pairwise fun r r' => env.sqlEq r.sessionID r'.sessionID = false
  named : ∀ r ∈ w.db.sessions, nonblank r.sessionID = some r.sessionID
  backed : ∀ s, ∀ h ∈ cached w s, ∃ r ∈ w.db.sessions,
    r.sessionID = s ∧ h.userID = formatInt r.userID

/-- The comparison of the database is an equivalence. -/
structure Collation (sqlEq : String → String → Bool) : Prop where
  refl : ∀ a, sqlEq a a = true
  symm : ∀ a b, sqlEq a b = sqlEq b a
  trans : ∀ {a b c}, sqlEq a b = true → sqlEq b c = true → sqlEq a c = true

/-! ## Rows -/

def LoggedOut (w : World) (s : String) : Prop :=
  ∃ r ∈ w.db.sessions, r.sessionID = s ∧ r.loggedOutAt ≠ none

def Cleared (w : World) (s : String) : Prop := LoggedOut w s ∧ cached w s = none

def RowsStay (w w' : World) : Prop :=
  ∀ r ∈ w.db.sessions, ∃ r' ∈ w'.db.sessions, r'.sessionID = r.sessionID ∧ r'.userID = r.userID ∧
    (r.loggedOutAt ≠ none → r'.loggedOutAt ≠ none)

variable {i : ι} {m : Moment ι World Label} {w w' : World} {s : String} {l : Label}
variable {f : World → World}

theorem RowsStay.of_eq (h : w'.db.sessions = w.db.sessions) : RowsStay w w' :=
  fun r hr => ⟨r, h ▸ hr, rfl, rfl, fun h => h⟩

theorem RowsStay.trans {a b c : World} (hab : RowsStay a b) (hbc : RowsStay b c) :
    RowsStay a c := by
  intro r hr
  obtain ⟨r', hr', hs, hu, hout⟩ := hab r hr
  obtain ⟨r'', hr'', hs', hu', hout'⟩ := hbc r' hr'
  exact ⟨r'', hr'', hs'.trans hs, hu'.trans hu, fun h => hout' (hout h)⟩

theorem RowsStay.loggedOut (h : RowsStay w w') (hs : LoggedOut w s) : LoggedOut w' s := by
  obtain ⟨r, hr, rfl, hout⟩ := hs
  obtain ⟨r', hr', hs, -, hout'⟩ := h r hr
  exact ⟨r', hr', hs, hout' hout⟩

theorem RowsStay.row (h : RowsStay w w') {userID : Int}
    (hr : ∃ r ∈ w.db.sessions, r.sessionID = s ∧ r.userID = userID) :
    ∃ r ∈ w'.db.sessions, r.sessionID = s ∧ r.userID = userID := by
  obtain ⟨r, hr, rfl, rfl⟩ := hr
  obtain ⟨r', hr', hs, hu, -⟩ := h r hr
  exact ⟨r', hr', hs, hu⟩

theorem Coherent.eq_of_sqlEq (hE : Collation env.sqlEq) (h : Coherent env w) {r r' : Session}
    (hr : r ∈ w.db.sessions) (hr' : r' ∈ w.db.sessions)
    (heq : env.sqlEq r.sessionID r'.sessionID = true) : r = r' := by
  by_contra hne
  have hsymm : Std.Symm fun r r' : Session => env.sqlEq r.sessionID r'.sessionID = false :=
    ⟨fun a b hab => by rw [hE.symm]; exact hab⟩
  rw [h.unique.forall hr hr' hne] at heq
  cases heq

/-! ## Commands -/

def Covers (x : Event ι World Label) (s : String) : Prop :=
  ∃ r ∈ x.before.db.sessions, r.sessionID = s ∧
    match x.label with
    | .logoutBySessionID s' _ => s = s'
    | .logoutAllByUserID userID _ => r.userID = userID
    | _ => False

def Unmarking : Label → Prop
  | .logoutBySessionID _ _ => False
  | .logoutAllByUserID _ _ => False
  | _ => True

theorem not_covers {x : Event ι World Label} (h : Unmarking x.label) (s : String) :
    ¬ Covers x s := by
  rintro ⟨r, -, -, hr⟩
  cases hl : x.label <;> simp_all [Unmarking]

def logouts : Duty ι World Label String where
  owed w s := LoggedOut w s ∧ cached w s ≠ none
  settled := Cleared
  takes := Covers
  not_owed hs ho := ho.2 hs.2

structure SessionInv (env : Env) (m : Moment ι World Label) : Prop where
  coherent : Coherent env m.shared
  accounted : logouts.Accounted m

/-- The discipline of the session stores: rows stay, and what has been cleared stays cleared. -/
def sessions (env : Env) : Discipline ι World Label where
  inv := SessionInv env
  mono m m' := RowsStay m.shared m'.shared ∧ ∀ s, Cleared m.shared s → Cleared m'.shared s
  mono_refl _ := ⟨.of_eq rfl, fun _ h => h⟩
  mono_trans hab hbc := ⟨hab.1.trans hbc.1, fun s h => hbc.2 s (hab.2 s h)⟩

theorem logouts_lasting : logouts.Lasting (sessions (ι := ι) env) := fun _ _ h => h.2

theorem SessionInv.keep (h : SessionInv env m) (hcoh : Coherent env (f m.shared))
    (hrows : RowsStay m.shared (f m.shared))
    (hgone : ∀ s, LoggedOut m.shared s → cached m.shared s = none → cached (f m.shared) s = none)
    (hcov : ∀ s, LoggedOut (f m.shared) s → cached (f m.shared) s ≠ none →
      (LoggedOut m.shared s ∧ cached m.shared s ≠ none) ∨ Covers ⟨i, l, m.shared⟩ s) :
    SessionInv env (m.after i l f) ∧ (sessions env).mono m (m.after i l f) := by
  refine ⟨⟨hcoh, ?_⟩, hrows, ?_⟩
  · exact h.accounted.after fun s hs => hcov s hs.1 hs.2
  · intro s hs
    exact ⟨hrows.loggedOut hs.1, hgone s hs.1 hs.2⟩

structure Fewer (w w' : World) : Prop where
  rows : w'.db.sessions = w.db.sessions
  hashes : ∀ s, cached w' s = cached w s ∨ cached w' s = none

theorem Fewer.of_now_le (h : OthersWrite w w') : Fewer w w' := by
  obtain ⟨hnow, hdb, hsess⟩ := h
  refine ⟨hdb, fun s => ?_⟩
  cases hs : cached w' s with
  | none => exact .inr rfl
  | some h =>
    rw [cached, hsess] at hs
    exact .inl (Keyspace.get_of_le hnow hs).symm

theorem Fewer.gone (h : Fewer w w') (hs : cached w s = none) : cached w' s = none := by
  rcases h.hashes s with hc | hc
  · rw [hc, hs]
  · exact hc

theorem Fewer.cached_eq (h : Fewer w w') (hs : cached w' s ≠ none) : cached w' s = cached w s :=
  (h.hashes s).resolve_right hs

theorem Fewer.loggedOut (h : Fewer w w') : LoggedOut w' s ↔ LoggedOut w s := by
  simp only [LoggedOut, h.rows]

theorem Fewer.coherent (h : Fewer w w') (hw : Coherent env w) : Coherent env w' := by
  refine ⟨h.rows ▸ hw.unique, h.rows ▸ hw.named, fun s hash hs => ?_⟩
  have hs' : cached w' s ≠ none := by rw [Option.mem_def.mp hs]; exact nofun
  rw [h.rows]
  exact hw.backed s hash (h.cached_eq hs' ▸ hs)

theorem SessionInv.quiet (h : SessionInv env m) (hf : Fewer m.shared (f m.shared)) :
    SessionInv env (m.after i l f) ∧ (sessions env).mono m (m.after i l f) := by
  refine h.keep (hf.coherent h.coherent) (.of_eq hf.rows) (fun s _ => hf.gone) fun s hout hs => ?_
  exact .inl ⟨hf.loggedOut.mp hout, hf.cached_eq hs ▸ hs⟩

theorem sessions_admits : (sessions (ι := ι) env).Admits OthersWrite := by
  intro m w hinv hw
  have hf := Fewer.of_now_le hw
  refine ⟨⟨hf.coherent hinv.coherent, hinv.accounted.env ?_⟩, .of_eq hf.rows, ?_⟩
  · rintro s ⟨hout, hs⟩
    exact ⟨hf.loggedOut.mp hout, hf.cached_eq hs ▸ hs⟩
  · intro s hs
    exact ⟨hf.loggedOut.mpr hs.1, hf.gone hs.2⟩

/-! ### Marking rows -/

def mark (c : Session → Prop) [DecidablePred c] (t : Int) (r : Session) : Session :=
  if c r ∧ r.loggedOutAt = none then { r with loggedOutAt := some (dateTime t) } else r

section Mark

variable {c : Session → Prop} [DecidablePred c] {t : Int}

@[simp] theorem mark_sessionID (r : Session) : (mark c t r).sessionID = r.sessionID := by
  unfold mark; split <;> rfl

@[simp] theorem mark_userID (r : Session) : (mark c t r).userID = r.userID := by
  unfold mark; split <;> rfl

variable {r : Session} {w : World}

theorem mark_loggedOut_of_fits (hr : c r) : (mark c t r).loggedOutAt ≠ none := by
  unfold mark
  split
  · exact nofun
  next h => exact fun hnone => h ⟨hr, hnone⟩

theorem mark_loggedOut (hr : r.loggedOutAt ≠ none) : (mark c t r).loggedOutAt ≠ none := by
  unfold mark
  rwa [if_neg fun h => hr h.2]

theorem fits_of_mark (h : (mark c t r).loggedOutAt ≠ none) : c r ∨ r.loggedOutAt ≠ none := by
  by_contra hno
  obtain ⟨hc, hr⟩ := not_or.mp hno
  rw [mark, if_neg fun h => hc h.1] at h
  exact hr h

def marked (c : Session → Prop) [DecidablePred c] (t : Int) (w : World) : World :=
  { w with db := { w.db with sessions := w.db.sessions.map (mark c t) } }

theorem mem_marked (hr : r ∈ w.db.sessions) : mark c t r ∈ (marked c t w).db.sessions :=
  List.mem_map_of_mem hr

theorem loggedOut_marked (hr : r ∈ w.db.sessions) (hfit : c r) :
    LoggedOut (marked c t w) r.sessionID :=
  ⟨_, mem_marked hr, mark_sessionID r, mark_loggedOut_of_fits hfit⟩

theorem SessionInv.mark {m : Moment ι World Label} {i : ι} {l : Label} (h : SessionInv env m)
    (hcov : ∀ r ∈ m.shared.db.sessions, c r → Covers ⟨i, l, m.shared⟩ r.sessionID) :
    SessionInv env (m.after i l (marked c t)) ∧ (sessions env).mono m (m.after i l (marked c t)) := by
  refine h.keep ⟨?_, ?_, fun s hash hs => ?_⟩ (fun r hr => ?_) (fun s _ hs => hs) ?_
  · refine List.pairwise_map.mpr (h.coherent.unique.imp fun hr => ?_)
    rwa [mark_sessionID, mark_sessionID]
  · intro r' hr'
    obtain ⟨r, hr, rfl⟩ := List.mem_map.mp hr'
    rw [mark_sessionID]
    exact h.coherent.named r hr
  · obtain ⟨r, hr, hrs, hru⟩ := h.coherent.backed s hash hs
    exact ⟨_, mem_marked hr, by rwa [mark_sessionID], by rwa [mark_userID]⟩
  · exact ⟨_, mem_marked hr, mark_sessionID r, mark_userID r, mark_loggedOut⟩
  · rintro s ⟨r', hr', hs, hout⟩ hcached
    obtain ⟨r, hr, rfl⟩ := List.mem_map.mp hr'
    rw [mark_sessionID] at hs
    subst hs
    rcases fits_of_mark hout with hfit | hout
    · exact .inr (hcov r hr hfit)
    · exact .inl ⟨⟨r, hr, rfl, hout⟩, hcached⟩

end Mark

/-! ### The other commands -/

theorem SessionInv.create (row : Session) (h : SessionInv env m)
    (hname : nonblank row.sessionID = some row.sessionID) (hlive : row.loggedOutAt = none) :
    let f (w : World) : World := { w with db := (w.db.createSession env.sqlEq row).2 }
    SessionInv env (m.after i l f) ∧ (sessions env).mono m (m.after i l f) := by
  intro f
  by_cases hdup : m.shared.db.sessions.any fun r => env.sqlEq r.sessionID row.sessionID
  · have hsame : (f m.shared).db.sessions = m.shared.db.sessions := by
      simp only [f, Database.createSession, hdup, if_true]
    exact h.quiet ⟨hsame, fun _ => .inl rfl⟩
  · obtain ⟨new, hnew, hrows⟩ : ∃ new : Session,
        (new.sessionID = row.sessionID ∧ new.loggedOutAt = none) ∧
          (f m.shared).db.sessions = m.shared.db.sessions ++ [new] := by
      simp only [f, Database.createSession, hdup, Bool.false_eq_true, if_false]
      refine ⟨_, ?_, rfl⟩
      exact ⟨rfl, hlive⟩
    have hold : ∀ r ∈ m.shared.db.sessions, r ∈ (f m.shared).db.sessions := by
      rw [hrows]
      exact fun r hr => List.mem_append_left _ hr
    have hlogged : ∀ s, LoggedOut (f m.shared) s → LoggedOut m.shared s := by
      rintro s ⟨r, hr, hs, hout⟩
      rw [hrows] at hr
      rcases List.mem_append.mp hr with hr | hr
      · exact ⟨r, hr, hs, hout⟩
      · rw [List.mem_singleton.mp hr] at hout
        exact absurd hnew.2 hout
    refine h.keep ⟨?_, ?_, fun s hash hs => ?_⟩ (fun r hr => ⟨r, hold r hr, rfl, rfl, fun h => h⟩)
      (fun s _ hs => hs) fun s hout hs => .inl ⟨hlogged s hout, hs⟩
    · rw [hrows]
      refine List.pairwise_append.mpr ⟨h.coherent.unique, List.pairwise_singleton _ _, ?_⟩
      intro r hr r' hr'
      rw [List.mem_singleton.mp hr', hnew.1]
      simpa using fun hr' => hdup (List.any_eq_true.mpr ⟨r, hr, hr'⟩)
    · rw [hrows]
      intro r hr
      rcases List.mem_append.mp hr with hr | hr
      · exact h.coherent.named r hr
      · rwa [List.mem_singleton.mp hr, hnew.1]
    · obtain ⟨r, hr, hr'⟩ := h.coherent.backed s hash hs
      exact ⟨r, hold r hr, hr'⟩

theorem created_row {row : Session} (h : (w.db.createSession env.sqlEq row).1 = true) :
    ∃ r ∈ (w.db.createSession env.sqlEq row).2.sessions,
      r.sessionID = row.sessionID ∧ r.userID = row.userID := by
  unfold Database.createSession at h ⊢
  split
  next hdup => simp [hdup] at h
  next hdup => exact ⟨_, List.mem_append_right _ (List.mem_singleton_self _), rfl, rfl⟩

theorem SessionInv.save {e : SessionCacheEntry} (ttl : Int) (h : SessionInv env m)
    (hrow : ∃ r ∈ m.shared.db.sessions, r.sessionID = e.sessionID ∧ e.userID = formatInt r.userID)
    (hlive : ∀ r ∈ m.shared.db.sessions, r.sessionID = e.sessionID → r.loggedOutAt = none) :
    let f (w : World) : World := { w with sessions := w.sessions.save w.now e ttl }
    SessionInv env (m.after i l f) ∧ (sessions env).mono m (m.after i l f) := by
  intro f
  have hne : ∀ s, LoggedOut m.shared s → s ≠ e.sessionID := by
    rintro s ⟨r, hr, hs, hout⟩ rfl
    exact hout (hlive r hr hs)
  have hkeep : ∀ s, s ≠ e.sessionID → cached (f m.shared) s = cached m.shared s :=
    fun s hs => SessionCache.hmget_save_of_ne _ _ _ _ hs
  refine h.keep ⟨h.coherent.unique, h.coherent.named, fun s hash hs => ?_⟩ (.of_eq rfl)
    (fun s hout hs => (hkeep s (hne s hout)).trans hs)
    fun s hout hs => .inl ⟨hout, hkeep s (hne s hout) ▸ hs⟩
  by_cases hse : s = e.sessionID
  · subst hse
    obtain ⟨hash', hhash', huser⟩ :=
      SessionCache.hmget_save_self m.shared.sessions m.shared.now e ttl
    obtain rfl : hash' = hash := Option.some.inj (hhash'.symm.trans hs)
    obtain ⟨r, hr, hrs, hru⟩ := hrow
    exact ⟨r, hr, hrs, huser.trans hru⟩
  · exact h.coherent.backed s hash (hkeep s hse ▸ hs)

inductive Deleting (s : String) : Label → (World → World) → Prop
  | hash : Deleting s (.deleteSessionHash s) fun w =>
      { w with sessions := { w.sessions with hash := w.sessions.hash.del s } }
  | script (userID : String) : Deleting s (.deleteSession s userID) fun w =>
      { w with sessions := w.sessions.deleteSession w.now s userID }

theorem Deleting.unmarking (h : Deleting s l f) : Unmarking l := by
  cases h <;> trivial

theorem Deleting.gone (h : Deleting s l f) (w : World) : cached (f w) s = none := by
  cases h <;> simp [cached, SessionCache.hmget, SessionCache.deleteSession]

theorem Deleting.fewer (h : Deleting s l f) (w : World) : Fewer w (f w) := by
  refine ⟨by cases h <;> rfl, fun s' => ?_⟩
  by_cases hs : s' = s
  · subst hs
    exact .inr (h.gone w)
  · refine .inl ?_
    cases h <;> simp [cached, SessionCache.hmget, SessionCache.deleteSession, hs]

/-! ## The programs -/

section Programs

variable [DecidableEq ι] {i : ι}

theorem getSession_silent (s : String) : (Repository.getSession s).Silent := fun _ _ => trivial

abbrev Remaining (i : ι) (ids : List String) : Moment ι World Label → Prop :=
  logouts.Pending i fun w s => LoggedOut w s ∧ s ∈ ids

/-- The sessions a program has yet to clear are logged out, and have a row of this user. -/
abbrev MeantFor (i : ι) (userID : Int) : Moment ι World Label → Prop :=
  logouts.Pending i fun w s =>
    LoggedOut w s ∧ ∃ r ∈ w.db.sessions, r.sessionID = s ∧ r.userID = userID

abbrev AllCleared (i : ι) : Moment ι World Label → Prop := logouts.Discharged i

theorem allCleared_stable (env : Env) (i : ι) : (sessions env).Stable i (AllCleared i) :=
  Duty.Discharged.stable logouts_lasting i

theorem remaining_stable (env : Env) (i : ι) (ids : List String) :
    (sessions env).Stable i (Remaining i ids) :=
  Duty.Pending.stable logouts_lasting i fun _ _ hmono _ h => ⟨hmono.1.loggedOut h.1, h.2⟩

theorem meantFor_stable (env : Env) (i : ι) (userID : Int) :
    (sessions env).Stable i (MeantFor i userID) :=
  Duty.Pending.stable logouts_lasting i fun _ _ hmono _ h =>
    ⟨hmono.1.loggedOut h.1, hmono.1.row h.2⟩

variable {s : String} {ids : List String} {m : Moment ι World Label} {ε α : Type}
variable {R : Moment ι World Label → Prop} {l : Label} {f : World → World} {active : List Session}
variable {userID : Int} {sessionID : String}

theorem delete_wp (hm : Remaining i (s :: ids) m) :
    Wp (sessions env) (Orderly env) i (Repository.deleteSession s)
      (fun _ => Remaining i ids) m := by
  have hstep : ∀ {l : Label} {f : World → World} {m : Moment ι World Label},
      Deleting s l f → SessionInv env m → Remaining i (s :: ids) m →
      SessionInv env (m.after i l f) ∧ (sessions env).mono m (m.after i l f) ∧
        Remaining i ids (m.after i l f) := by
    intro l f m hl hinv hm
    obtain ⟨hinv', hmono⟩ := hinv.quiet (hl.fewer m.shared)
    refine ⟨hinv', hmono, hm.after logouts_lasting hmono ?_ ?_⟩
    · rintro s' ⟨hout, hmem⟩
      have hout' := hmono.1.loggedOut hout
      rcases List.mem_cons.mp hmem with rfl | hmem
      · exact .inl ⟨hout', hl.gone m.shared⟩
      · exact .inr ⟨hout', hmem⟩
    · intro s' hs'
      exact absurd hs' (not_covers hl.unmarking s')
  have hR := remaining_stable env i (s :: ids)
  refine wp_bind.mpr ((Wp.of_acts (getSession_silent s) hR (fun _ _ _ h => h.elim) hm).imp ?_)
  intro entry m' hm'
  cases entry with
  | none => exact fun m₂ hr hi _ => hstep .hash hi (hR _ _ hr hi hm')
  | some e => exact fun m₂ hr hi _ => hstep (.script e.userID) hi (hR _ _ hr hi hm')

def OnOk {ε α : Type} (R : Moment ι World Label → Prop) (r : Except ε α)
    (m : Moment ι World Label) : Prop :=
  r.isOk = true → R m

omit [DecidableEq ι] in
theorem onOk_error (e : ε) (m : Moment ι World Label) : OnOk R (.error e : Except ε α) m := by
  rintro ⟨⟩

theorem Remaining.allCleared (h : Remaining i [] m) : AllCleared i m :=
  fun x hx s hs => (h x hx s hs).imp_right fun h => nomatch h.2

theorem clearSessions_wp (ids : List String) (hm : Remaining i ids m) :
    Wp (sessions env) (Orderly env) i (clearSessions ids).run (OnOk (AllCleared i)) m := by
  induction ids generalizing m with
  | nil => exact fun _ => hm.allCleared
  | cons s ids ih =>
    refine wp_bind_except.mpr (wp_call (onOk_error _ _) ((delete_wp hm).imp fun _ m' hm' => ?_))
    exact ⟨ih hm', onOk_error _ _⟩

def Harmless (l : Label) (f : World → World) : Prop := Unmarking l ∧ ∀ w, Fewer w (f w)

theorem allCleared_after (hm : AllCleared i m) (hl : Unmarking l)
    (hmono : (sessions env).mono m (m.after i l f)) : AllCleared i (m.after i l f) :=
  hm.after logouts_lasting hmono (fun _ h => h.elim) fun s hs => absurd hs (not_covers hl s)

theorem Harmless.step (hl : Harmless l f) (hinv : SessionInv env m) (hm : AllCleared i m) :
    SessionInv env (m.after i l f) ∧ (sessions env).mono m (m.after i l f) ∧
      AllCleared i (m.after i l f) := by
  obtain ⟨hinv', hmono⟩ := hinv.quiet (hl.2 m.shared)
  exact ⟨hinv', hmono, allCleared_after hm hl.1 hmono⟩

theorem Harmless.of_same (hl : Unmarking l)
    (hf : ∀ w, (f w).now = w.now ∧ (f w).db.sessions = w.db.sessions ∧ (f w).sessions = w.sessions) :
    Harmless l f :=
  ⟨hl, fun w => .of_now_le ⟨Int.le_of_eq (hf w).1.symm, (hf w).2⟩⟩

theorem markRevoked_acts {revoke : String → Int → Action Unit}
    (hrevoke : ∀ sha ttl, (revoke sha ttl).Acts Harmless) (revokedAt : Int)
    (tokens : List (String × Int)) : (markRevoked revoke revokedAt tokens).run.Acts Harmless := by
  induction tokens with
  | nil => trivial
  | cons t rest ih =>
    exact .bind_except (.whenever (.call (hrevoke _ _))) fun _ => ih

theorem revokeUserTokens_acts (userID revokedAt : Int) :
    (revokeUserTokens userID revokedAt).run.Acts Harmless := by
  have hlist : Harmless (.listActiveAccessTokens userID) fun w => w :=
    .of_same trivial fun _ => ⟨rfl, rfl, rfl⟩
  have hrevoke : Harmless (.revokeAccessTokens userID revokedAt) fun w =>
      { w with db := w.db.revokeAccessTokens w.now userID revokedAt } :=
    .of_same trivial fun _ => ⟨rfl, rfl, rfl⟩
  have hrevoke' : Harmless (.revokeRefreshTokens userID revokedAt) fun w =>
      { w with db := w.db.revokeRefreshTokens w.now userID revokedAt } :=
    .of_same trivial fun _ => ⟨rfl, rfl, rfl⟩
  have haccess : ∀ sha ttl, (Repository.revokeAccessToken sha ttl).Acts Harmless :=
    fun _ _ => ⟨.of_same trivial fun _ => ⟨rfl, rfl, rfl⟩, fun _ => trivial⟩
  have hrefresh : ∀ sha ttl, (Repository.revokeRefreshToken sha ttl).Acts Harmless :=
    fun _ _ => ⟨.of_same trivial fun _ => ⟨rfl, rfl, rfl⟩, fun _ => trivial⟩
  refine .bind_except (.call ⟨hlist, fun _ => trivial⟩) fun access => ?_
  refine .bind_except (.call fun _ => trivial) fun refresh => ?_
  refine .bind_except (.call ⟨hrevoke, fun _ => trivial⟩) fun _ => ?_
  refine .bind_except (.call ⟨hrevoke', fun _ => trivial⟩) fun _ => ?_
  refine .bind_except (markRevoked_acts haccess _ _) fun _ => ?_
  exact .bind_except (markRevoked_acts hrefresh _ _) fun _ => trivial

/-! ### Logging out -/

theorem mem_sessionIDsToClear (hname : nonblank s = some s) (hs : s ∈ ids) :
    s ∈ sessionIDsToClear active ids := by
  obtain ⟨htrim, hne⟩ := nonblank_eq_some.mp hname
  rw [sessionIDsToClear, List.mem_eraseDups, List.mem_filter]
  refine ⟨List.mem_map.mpr ⟨s, List.mem_append_right _ hs, htrim⟩, ?_⟩
  simpa using hne

theorem MeantFor.listed (hE : Collation env.sqlEq) (h : MeantFor i userID m)
    (hinv : SessionInv env m) (hok : Orderly env m i (.listUserSessionIDs (formatInt userID))) :
    Remaining i (sessionIDsToClear active
      (m.shared.sessions.members m.shared.now (formatInt userID))) m := by
  intro x hx s hs
  rcases h x hx s hs with h | ⟨hout, r, hr, rfl, hu⟩
  · exact .inl h
  · cases hc : cached m.shared r.sessionID with
    | none => exact .inl ⟨hout, hc⟩
    | some hash =>
      obtain ⟨r', hr', hs', huser⟩ := hinv.coherent.backed _ hash hc
      obtain rfl : r' = r := by
        refine hinv.coherent.eq_of_sqlEq hE hr' hr ?_
        rw [hs']
        exact hE.refl _
      refine .inr ⟨hout, mem_sessionIDsToClear (hinv.coherent.named r' hr) ?_⟩
      exact hok r' hr hash hc (hu ▸ huser)

theorem logoutUser_wp (hE : Collation env.sqlEq) (hm : AllCleared i m) :
    Wp (sessions env) (Orderly env) i (logoutUser userID sessionID).run
      (OnOk (AllCleared i)) m := by
  have hR := allCleared_stable env i
  refine wp_clock hR hm fun m₁ _ hm₁ => ?_
  refine wp_ask hR hm₁ (fun m' _ => onOk_error _ m') fun m₂ _ hm₂ => ?_
  refine wp_send hR hm₂ (fun m' _ => onOk_error _ m') fun m₃ hinv₃ hm₃ _ => ?_
  have hstep := hinv₃.mark (i := i) (l := .logoutAllByUserID userID m₁.shared.now)
    (t := m₁.shared.now) fun r hr hfit => ⟨r, hr, rfl, hfit⟩
  have hmeant : MeantFor i userID (m₃.after i (.logoutAllByUserID userID m₁.shared.now)
      (marked (fun r => r.userID = userID) m₁.shared.now)) := by
    refine hm₃.after logouts_lasting hstep.2 (fun _ h => h.elim) ?_
    rintro s ⟨r, hr, rfl, hu⟩
    exact .inr ⟨loggedOut_marked hr hu, hstep.2.1.row ⟨r, hr, rfl, hu⟩⟩
  refine ⟨hstep.1, hstep.2, onOk_error _ _, ?_⟩
  refine wp_send (meantFor_stable env i userID) hmeant (fun m' _ => onOk_error _ m')
    fun m₄ hinv₄ hm₄ hok => ?_
  obtain ⟨hinv₅, hmono₅⟩ := hinv₄.quiet (f := fun w => w) ⟨rfl, fun _ => .inl rfl⟩
  refine ⟨hinv₅, hmono₅, onOk_error _ _, ?_⟩
  refine wp_bind_except.mpr ((clearSessions_wp _ ?_).imp fun r m₆ hm₆ => ?_)
  · exact (hm₄.listed hE hinv₄ hok).after logouts_lasting hmono₅ (fun _ h => .inr h)
      fun s hs => absurd hs (not_covers (by trivial) s)
  cases r with
  | error e => exact onOk_error _ _
  | ok _ =>
    refine wp_acts (revokeUserTokens_acts _ _) hR (fun m l f hl hinv hm _ => hl.step hinv hm)
      (hm₆ rfl) (fun e m' _ => onOk_error e m') fun ⟨access, refresh⟩ m₇ hm₇ => ?_
    exact fun _ => hm₇

theorem clearOne_wp {a : α} (hm : Remaining i [s] m) : Wp (sessions env) (Orderly env) i
      (Prog.call SessionError.store (Repository.deleteSession s) >>= fun _ => pure a).run
      (OnOk (AllCleared i)) m := by
  refine wp_bind_except.mpr (wp_call (onOk_error _ _) ((delete_wp hm).imp fun _ m' hm' => ?_))
  exact ⟨fun _ => hm'.allCleared, onOk_error _ _⟩

theorem logout_wp (hE : Collation env.sqlEq) (hm : AllCleared i m) :
    Wp (sessions env) (Orderly env) i (Session.logout env sessionID).run
      (OnOk (AllCleared i)) m := by
  have hR := allCleared_stable env i
  unfold Session.logout
  cases nonblank sessionID with
  | none => exact fun _ => hm
  | some s =>
    refine wp_ask hR hm (fun m' _ => onOk_error _ m') fun m₁ _ hm₁ => ?_
    cases m₁.shared.db.findSession env.sqlEq s with
    | none => exact clearOne_wp hm₁.pending
    | some row =>
      refine wp_bind_except.mpr (wp_whenever (fun _ => clearOne_wp hm₁.pending) fun _ => ?_)
      refine wp_clock hR hm₁ fun m₂ _ hm₂ => ?_
      refine wp_call (onOk_error _ _) fun m₃ hr hinv₃ hok => ?_
      have hm₃ := hR _ _ hr hinv₃ hm₂
      have hstep := hinv₃.mark (i := i) (l := .logoutBySessionID s m₂.shared.now)
        (t := m₂.shared.now)
        fun r hr hfit => ⟨r, hr, rfl, hok r hr hfit⟩
      refine ⟨hstep.1, hstep.2, clearOne_wp ?_, onOk_error _ _⟩
      refine hm₃.after logouts_lasting hstep.2 (fun _ h => h.elim) ?_
      rintro s' ⟨r, hr, rfl, rfl⟩
      exact .inr ⟨loggedOut_marked hr (hE.refl _), List.mem_singleton_self _⟩

theorem logoutAll_wp (hE : Collation env.sqlEq) (hm : AllCleared i m) :
    Wp (sessions env) (Orderly env) i (Session.logoutAll env sessionID).run
      (OnOk (AllCleared i)) m := by
  have hR := allCleared_stable env i
  unfold Session.logoutAll
  cases nonblank sessionID with
  | none => exact fun _ => hm
  | some s =>
    refine wp_ask hR hm (fun m' _ => onOk_error _ m') fun m₁ _ hm₁ => ?_
    cases m₁.shared.db.findSession env.sqlEq s with
    | none => exact clearOne_wp hm₁.pending
    | some row => exact logoutUser_wp hE hm₁

/-! ### Logging in -/

theorem createSession_wp {user : User} {method : Authn.AuthnMethodType}
    {ipAddress userAgent redirectURI returnTo : String} {now : Int}
    (hname : nonblank sessionID = some sessionID) (hm : AllCleared i m) :
    Wp (sessions env) (Orderly env) i (Authn.createSession env sessionID user method ipAddress
      userAgent redirectURI returnTo now).run (fun _ => AllCleared i) m := by
  have hR := allCleared_stable env i
  refine wp_silent (Mfa.sessionContext_silent _ _) hR hm (fun _ _ h => h) fun context m₁ hm₁ => ?_
  refine wp_send hR hm₁ (fun _ h => h) fun m₂ hinv₂ hm₂ _ => ?_
  obtain ⟨hinv₃, hmono₃⟩ := hinv₂.create (l := .createSession _)
    { Authn.sessionModel env sessionID user context ipAddress userAgent now with
      amrJSON := env.jsonColumn context.2 } hname rfl
  have hm₃ := allCleared_after hm₂ (by trivial) hmono₃
  refine ⟨hinv₃, hmono₃, hm₃, ?_⟩
  refine wp_require (fun _ => hm₃) fun hcreated => ?_
  have hstable : (sessions env).Stable i fun m' : Moment ι World Label => AllCleared i m' ∧
      ∃ r ∈ m'.shared.db.sessions, r.sessionID = sessionID ∧ r.userID = user.id :=
    fun _ _ hr hi h => ⟨hR _ _ hr hi h.1, hr.mono.1.row h.2⟩
  refine wp_send hstable ⟨hm₃, created_row hcreated⟩ (fun _ h => h.1) fun m₄ hinv₄ hm₄ hok => ?_
  obtain ⟨r, hr, hrs, hru⟩ := hm₄.2
  obtain ⟨hinv₅, hmono₅⟩ := hinv₄.save (l := .saveSession _ env.sessionTTL)
    env.sessionTTL ⟨r, hr, hrs, congrArg formatInt hru.symm⟩ hok
  have hm₅ := allCleared_after hm₄.1 (by trivial) hmono₅
  exact ⟨hinv₅, hmono₅, hm₅, hm₅⟩

/-! ### Every caller -/

theorem succeeds_wp {p : Service ε α} (h : Wp (sessions env) (Orderly env) i p.run (OnOk R) m) :
    Wp (sessions env) (Orderly env) i (succeeds p) (fun b m' => b = true → R m') m :=
  wp_bind.mpr h

theorem caller_wp (hE : Collation env.sqlEq) {caller : Caller} (hname : caller.WellNamed)
    (hm : AllCleared i m) :
    Wp (sessions env) (Orderly env) i (caller.code env)
      (fun b m' => b = true → AllCleared i m') m := by
  cases caller with
  | login sessionID user method ipAddress userAgent redirectURI returnTo now =>
    exact wp_bind.mpr ((createSession_wp hname hm).imp fun _ m' h _ => h)
  | logout sessionID => exact succeeds_wp (logout_wp hE hm)
  | logoutAll sessionID => exact succeeds_wp (logoutAll_wp hE hm)
  | adminLogoutUser userID =>
    refine succeeds_wp ?_
    unfold Session.adminLogoutUser
    split
    · exact fun _ => hm
    · exact logoutUser_wp hE hm

theorem cached_eq_none (hE : Collation env.sqlEq) {callers : ι → Caller}
    (hnames : ∀ i, (callers i).WellNamed) {w : World} (hw : Coherent env w)
    (hstart : ∀ s, LoggedOut w s → cached w s = none) {c : Config ι World Label Bool}
    (hrun : Reach OthersWrite (Orderly env) (Config.start w fun i => (callers i).code env) c)
    (hdone : ∀ i, c.procs i = .ret true) :
    Coherent env c.shared ∧ ∀ s, LoggedOut c.shared s → cached c.shared s = none := by
  have hkeeps : (sessions env).Keeps fun i (b : Bool) (m' : Moment ι World Label) =>
      b = true → AllCleared i m' :=
    fun i _ m m' hr hi h hb => allCleared_stable env i m m' hr hi (h hb)
  have hsafe : c.Safe (sessions env) (Orderly env) fun i b m' => b = true → AllCleared i m' := by
    refine sound sessions_admits hkeeps ⟨⟨hw, ?_⟩, fun i => caller_wp hE (hnames i) .start⟩ hrun
    rintro s ⟨hout, hs⟩
    exact absurd (hstart s hout) hs
  refine ⟨hsafe.1.coherent, fun s hout => ?_⟩
  by_contra hs
  exact hsafe.1.accounted.nothing_owed (fun i => hsafe.returned (hdone i) rfl) s ⟨hout, hs⟩

end Programs

end IdpServer.Laws.Session
