import IdpServer.Cache.Replay

/-!
# Laws.Cache.Reservations — what a save that returns no error has done

Both scripts leave a key that is taken as it is and say so, and both callers drop the reply (`unreported`).
`reservations_reported` is the law when each save finds its key free.
-/

namespace IdpServer.Cache

open Go Store

def ReplayEvent.Fresh (s : ReplayStore) : ReplayEvent → Prop
  | call (.saveState state value _) _ =>
    s.states.get s.now state = none ∧ ∀ name ∉ stateFields, value.text name = ""
  | call (.saveNonce nonce _) _ => s.nonces.get s.now nonce = none
  | _ => True

def AllFresh (s : ReplayStore) : List ReplayEvent → Prop
  | [] => True
  | e :: events => e.Fresh s ∧ AllFresh (e.step s) events

def ReplayEvent.Deletes (state : String) : ReplayEvent → Prop
  | call (.deleteState name) fault => name = state ∧ fault ≠ some .before
  | _ => False

variable {s : ReplayStore} {c : ReplayCall} {events : List ReplayEvent} {state : String}

theorem allFresh_append {before after : List ReplayEvent} :
    AllFresh s (before ++ after) ↔ AllFresh s before ∧ AllFresh (s.run before) after := by
  induction before generalizing s with
  | nil => simp [AllFresh, ReplayStore.run]
  | cons e before ih => simp [AllFresh, ReplayStore.run, ih, and_assoc]

theorem run_append (s : ReplayStore) (before after : List ReplayEvent) :
    s.run (before ++ after) = (s.run before).run after :=
  List.foldl_append

/-! ## What stays -/

theorem stateHash_text {value : Payload} (h : ∀ name ∉ stateFields, value.text name = "") (name : String) :
    (stateHash value).text name = value.text name := by
  unfold stateHash
  by_cases hname : name ∈ stateFields
  · simp [Payload.text, hname]
  · rw [h name hname]
    simp [Payload.text, hname]

theorem reserveNonce_snd (ks : Keyspace String String) (now : Int) (nonce value : String) (ttl : Int) :
    (reserveNonce ks now nonce value (durationSeconds ttl)).2 = saveState ks now nonce value ttl := by
  unfold reserveNonce saveState
  split <;> rfl

theorem now_step (s : ReplayStore) (e : ReplayEvent) : s.now ≤ (e.step s).now := by
  cases e with
  | tick d => exact Int.le_add_of_nonneg_right (Int.natCast_nonneg d)
  | call c fault => cases fault with
    | none => cases c <;> exact Int.le_refl _
    | some fault => cases fault <;> cases c <;> exact Int.le_refl _

theorem now_run (s : ReplayStore) (events : List ReplayEvent) : s.now ≤ (s.run events).now := by
  induction events generalizing s with
  | nil => exact Int.le_refl _
  | cons e events ih => exact Int.le_trans (now_step s e) (ih (e.step s))

theorem apply_keeps : (∀ {state entry}, s.states.entry s.now state = some entry →
      ¬ (ReplayEvent.call c none).Deletes state → (s.apply c).states state = some entry) ∧
    ∀ {nonce entry}, s.nonces.entry s.now nonce = some entry →
      (s.apply c).nonces nonce = some entry := by
  refine ⟨fun {state entry} hentry hdelete => ?_, fun {nonce entry} hentry => ?_⟩
  · have hstored := (Keyspace.entry_eq_some.mp hentry).1
    cases c with
    | saveState => exact saveState_of_entry hentry
    | deleteState name =>
      have hne : state ≠ name := fun h => hdelete ⟨h.symm, by decide⟩
      simp only [ReplayStore.apply, Keyspace.del, hne, if_false, hstored]
    | getState | saveNonce => exact hstored
  · cases c with
    | saveNonce =>
      simp only [ReplayStore.apply, reserveNonce_snd]
      exact saveState_of_entry hentry
    | saveState | getState | deleteState => exact (Keyspace.entry_eq_some.mp hentry).1

theorem step_keeps {e : ReplayEvent} :
    (∀ {state entry}, s.states.entry s.now state = some entry → ¬ e.Deletes state →
      (e.step s).states state = some entry) ∧
    ∀ {nonce entry}, s.nonces.entry s.now nonce = some entry → (e.step s).nonces nonce = some entry := by
  have hstored : (∀ {state entry}, s.states.entry s.now state = some entry → s.states state = some entry) ∧
      ∀ {nonce entry}, s.nonces.entry s.now nonce = some entry → s.nonces nonce = some entry :=
    ⟨fun h => (Keyspace.entry_eq_some.mp h).1, fun h => (Keyspace.entry_eq_some.mp h).1⟩
  cases e with
  | tick d => exact ⟨fun h _ => hstored.1 h, hstored.2⟩
  | call c fault =>
    cases fault with
    | none => exact apply_keeps
    | some fault =>
      cases fault with
      | before => exact ⟨fun h _ => hstored.1 h, hstored.2⟩
      | after =>
        refine ⟨fun h hdelete => apply_keeps.1 h fun hdeletes => hdelete ?_, apply_keeps.2⟩
        cases c with
        | deleteState name => exact ⟨hdeletes.1, by decide⟩
        | saveState | getState | saveNonce => exact hdeletes

theorem run_keeps_state {entry : Entry Payload} (h : s.states.entry s.now state = some entry)
    (hkept : ∀ e ∈ events, ¬ e.Deletes state) (halive : entry.Alive (s.run events).now) :
    (s.run events).states.entry (s.run events).now state = some entry := by
  induction events generalizing s with
  | nil => exact h
  | cons e events ih =>
    obtain ⟨hhere, hrest⟩ := List.forall_mem_cons.mp hkept
    refine ih (Keyspace.entry_eq_some.mpr ⟨step_keeps.1 h hhere, fun t ht => ?_⟩) hrest halive
    exact Int.lt_of_le_of_lt (now_run (e.step s) events) (halive t ht)

theorem run_keeps_nonce {nonce : String} {entry : Entry String}
    (h : s.nonces.entry s.now nonce = some entry) (halive : entry.Alive (s.run events).now) :
    (s.run events).nonces.entry (s.run events).now nonce = some entry := by
  induction events generalizing s with
  | nil => exact h
  | cons e events ih =>
    refine ih (Keyspace.entry_eq_some.mpr ⟨step_keeps.2 h, fun t ht => ?_⟩) halive
    exact Int.lt_of_le_of_lt (now_run (e.step s) events) (halive t ht)

/-! ## The law -/

theorem entry_saveState {β : Type} {ks : Keyspace String β} {now ttl : Int} {value : β}
    (hfree : ks.get now state = none) (hpos : 0 < ttl) :
    (saveState ks now state value ttl).entry now state =
      some ⟨value, some (now + durationSeconds ttl * second)⟩ := by
  have hseconds : durationSeconds ttl > 0 := by
    rw [durationSeconds_of_pos hpos]
    omega
  have hhas : ks.has now state = false := by rw [Keyspace.has, hfree]; rfl
  rw [saveState, hhas, if_neg (by decide), if_pos hseconds, Keyspace.entry_eq_some]
  refine ⟨Keyspace.put_self, fun t ht => ?_⟩
  obtain rfl := Option.some.inj ht
  simp only [second]
  omega

section Saves

variable {s : ReplayStore} {events : List ReplayEvent} {ttl : Int}

theorem saved_returned {state : String} {value : Payload} (hpos : 0 < ttl)
    (hfresh : (ReplayEvent.call (.saveState state value ttl) none).Fresh s)
    (hkept : ∀ e ∈ events, ¬ e.Deletes state)
    (hlive : ((s.apply (.saveState state value ttl)).run events).now <
      s.now + durationSeconds ttl * second) :
    ∃ found, ((s.apply (.saveState state value ttl)).run events).getState state = some found ∧
      ∀ name, found.text name = value.text name := by
  obtain ⟨hfree, hfields⟩ := hfresh
  have hsaved : (s.apply (.saveState state value ttl)).states.entry s.now state =
      some ⟨stateHash value, some (s.now + durationSeconds ttl * second)⟩ :=
    entry_saveState hfree hpos
  have halive : (⟨stateHash value, some (s.now + durationSeconds ttl * second)⟩ : Entry Payload).Alive
      ((s.apply (.saveState state value ttl)).run events).now := fun t ht => by
    obtain rfl := Option.some.inj ht
    exact hlive
  have hentry := run_keeps_state hsaved hkept halive
  refine ⟨stateHash value, ?_, stateHash_text hfields⟩
  rw [ReplayStore.getState, Keyspace.get, hentry, Option.map_some]

theorem reserved_until {nonce : String} (hpos : 0 < ttl) (hfree : s.nonces.get s.now nonce = none)
    (hagain : ((s.apply (.saveNonce nonce ttl)).run events).nonces.get
      ((s.apply (.saveNonce nonce ttl)).run events).now nonce = none) :
    s.now + durationSeconds ttl * second ≤ ((s.apply (.saveNonce nonce ttl)).run events).now := by
  by_contra hearly
  rw [Int.not_le] at hearly
  have hsaved : (s.apply (.saveNonce nonce ttl)).nonces.entry s.now nonce =
      some ⟨"1", some (s.now + durationSeconds ttl * second)⟩ := by
    simp only [ReplayStore.apply, reserveNonce_snd]
    exact entry_saveState hfree hpos
  have halive : (⟨"1", some (s.now + durationSeconds ttl * second)⟩ : Entry String).Alive
      ((s.apply (.saveNonce nonce ttl)).run events).now := fun t ht => by
    obtain rfl := Option.some.inj ht
    exact hearly
  have htaken := run_keeps_nonce hsaved halive
  rw [Keyspace.entry_eq_none_iff.mpr hagain] at htaken
  cases htaken

end Saves

theorem ReplayEvent.Succeeds.fault {fault : Option Fault}
    (h : (ReplayEvent.call c fault).Succeeds s) : fault = none := by
  cases fault with
  | none => rfl
  | some _ => cases h

/-- **A save that returns no error is the one that is stored**, in every run in which each save finds its
key free and gives only stored fields. `GetState` returns the payload until the state is deleted or its time
to live is over, and of the reservations of one nonce that return no error none falls into the time to live
of an earlier one. -/
theorem reservations_reported (start : Int) (events : List ReplayEvent)
    (hfresh : AllFresh (.new start) events) :
    (∀ before after state value ttl fault,
      events = before ++ .call (.saveState state value ttl) fault :: after → 0 < ttl →
      (ReplayEvent.call (.saveState state value ttl) fault).Succeeds ((ReplayStore.new start).run before) →
      (∀ e ∈ after, ¬ e.Deletes state) →
      ((ReplayStore.new start).run events).now <
        ((ReplayStore.new start).run before).now + durationSeconds ttl * second →
      ∃ found, ((ReplayStore.new start).run events).getState state = some found ∧
        ∀ name, found.text name = value.text name) ∧
    ∀ before between after nonce ttl ttl' fault fault',
      events = before ++ (.call (.saveNonce nonce ttl) fault :: between ++
        .call (.saveNonce nonce ttl') fault' :: after) → 0 < ttl →
      (ReplayEvent.call (.saveNonce nonce ttl) fault).Succeeds ((ReplayStore.new start).run before) →
      (ReplayEvent.call (.saveNonce nonce ttl') fault').Succeeds
        ((ReplayStore.new start).run (before ++ .call (.saveNonce nonce ttl) fault :: between)) →
      ((ReplayStore.new start).run before).now + durationSeconds ttl * second ≤
        ((ReplayStore.new start).run (before ++ .call (.saveNonce nonce ttl) fault :: between)).now := by
  constructor
  · rintro before after state value ttl fault rfl hpos hok hkept hlive
    obtain rfl := hok.fault
    obtain ⟨-, hsave, -⟩ := allFresh_append.mp hfresh
    rw [run_append] at hlive ⊢
    exact saved_returned hpos hsave hkept hlive
  · rintro before between after nonce ttl ttl' fault fault' rfl hpos hok -
    obtain rfl := hok.fault
    obtain ⟨-, hrest⟩ := allFresh_append.mp hfresh
    obtain ⟨⟨hfree, -⟩, hagain, -⟩ := allFresh_append.mp hrest
    rw [run_append]
    exact reserved_until hpos hfree hagain

def payload (client : String) : Payload := fun name => if name = "client_id" then some client else none

theorem payload_text (client : String) : ∀ name ∉ stateFields, (payload client).text name = "" := by
  intro name hname
  have hne : name ≠ "client_id" := by
    rintro rfl
    exact hname (by decide)
  simp [payload, Payload.text, hne]

theorem reservations_reported_minute :
    AllFresh (.new 0) [.call (.saveState "s" (payload "app") (300 * second)) none, .tick 60000000000] ∧
      ∃ found, ((ReplayStore.new 0).run [.call (.saveState "s" (payload "app") (300 * second)) none,
        .tick 60000000000]).getState "s" = some found ∧ found.text "client_id" = "app" := by
  have hfresh : AllFresh (.new 0)
      [.call (.saveState "s" (payload "app") (300 * second)) none, .tick 60000000000] :=
    ⟨⟨rfl, payload_text "app"⟩, trivial, trivial⟩
  have hkept : ∀ e ∈ [ReplayEvent.tick 60000000000], ¬ e.Deletes "s" := by
    intro e he h
    rw [List.mem_singleton.mp he] at h
    exact h
  obtain ⟨found, hfound, htext⟩ := (reservations_reported 0 _ hfresh).1 [] _ "s" (payload "app")
    (300 * second) none rfl (by decide) rfl hkept (by decide)
  exact ⟨hfresh, found, hfound, htext "client_id"⟩

/-- **The law fails without the condition.** A second save of the state returns no error, and the first
payload is returned; a second reservation of the nonce returns no error at the same instant. -/
theorem unreported :
    (∃ found, ReplayEvent.Succeeds
        ((ReplayStore.new 0).run [.call (.saveState "s" (payload "first") (300 * second)) none])
        (.call (.saveState "s" (payload "second") (300 * second)) none) ∧
      ((ReplayStore.new 0).run [.call (.saveState "s" (payload "first") (300 * second)) none,
        .call (.saveState "s" (payload "second") (300 * second)) none]).getState "s" = some found ∧
      found.text "client_id" = "first") ∧
    ReplayEvent.Succeeds (ReplayStore.new 0) (.call (.saveNonce "n" (300 * second)) none) ∧
      ReplayEvent.Succeeds ((ReplayStore.new 0).run [.call (.saveNonce "n" (300 * second)) none])
        (.call (.saveNonce "n" (300 * second)) none) :=
  ⟨⟨stateHash (payload "first"), rfl, rfl, rfl⟩, rfl, rfl⟩

end IdpServer.Cache
