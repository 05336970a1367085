import IdpServer.Audit.Stream
import IdpServer.Conc.Lasting

/-!
# Laws.Audit.Flow — what the commands on the stream rest on

Consumers, publishers and the replay tool are gone through once: `Grounded` says what is known when a command
is sent, and `task_wp` hands it to a law.
-/

namespace IdpServer.Laws.Audit

open Conc Store Go IdpServer.Audit

/-! ## Messages that say the same -/

variable {env : AuditEnv} {values values' : StreamValues} {event : AuditEvent}
variable {message : StreamEntry StreamValues} {failedAt cause key : String} {malformed : Bool}
variable {w : AuditWorld}

theorem decodeMessage_congr
    (h : ∀ key ∈ eventFields, trimSpace (readStringField values key) = trimSpace (readStringField values' key)) :
    decodeMessage env values = decodeMessage env values' := by
  have hfield : ∀ key, eventFields.contains key = true →
      trimSpace (readStringField values key) = trimSpace (readStringField values' key) :=
    fun key hkey => h key (List.contains_iff_mem.mp hkey)
  simp only [decodeMessage, parseOptionalInt64, parseCreatedAt, hfield "event_id" rfl,
    hfield "event_type" rfl, hfield "client_id" rfl, hfield "user_id" rfl, hfield "subject" rfl,
    hfield "session_id" rfl, hfield "ip_address" rfl, hfield "user_agent" rfl, hfield "metadata_json" rfl,
    hfield "created_at" rfl]

structure Decoded (env : AuditEnv) (values : StreamValues) (event : AuditEvent) : Prop where
  eventID : event.eventID = trimSpace (readStringField values "event_id")
  eventID_ne : event.eventID ≠ ""
  eventType : event.eventType = trimSpace (readStringField values "event_type")
  clientID : parseOptionalInt64 env values "client_id" = .ok event.clientID
  userID : parseOptionalInt64 env values "user_id" = .ok event.userID
  subject : event.subject = trimSpace (readStringField values "subject")
  sessionID : parseOptionalInt64 env values "session_id" = .ok event.sessionID
  ipAddress : event.ipAddress = trimSpace (readStringField values "ip_address")
  userAgent : event.userAgent = trimSpace (readStringField values "user_agent")
  metadataJSON : event.metadataJSON = trimSpace (readStringField values "metadata_json")
  createdAt : parseCreatedAt env values = .ok event.createdAt

theorem decodeMessage_eq_ok (h : decodeMessage env values = .ok event) :
    Decoded env values event := by
  unfold decodeMessage at h
  dsimp only at h
  split at h
  next => cases h
  next hnamed =>
    obtain ⟨hid, -⟩ := not_or.mp hnamed
    cases hclient : parseOptionalInt64 env values "client_id" with
    | error e => rw [hclient] at h; cases h
    | ok clientID =>
      cases huser : parseOptionalInt64 env values "user_id" with
      | error e => rw [hclient, huser] at h; cases h
      | ok userID =>
        cases hsession : parseOptionalInt64 env values "session_id" with
        | error e => rw [hclient, huser, hsession] at h; cases h
        | ok sessionID =>
          cases hcreated : parseCreatedAt env values with
          | error e => rw [hclient, huser, hsession, hcreated] at h; cases h
          | ok createdAt =>
            rw [hclient, huser, hsession, hcreated] at h
            obtain rfl := Except.ok.inj h
            exact ⟨rfl, hid, rfl, hclient, huser, rfl, hsession, rfl, rfl, rfl, hcreated⟩

theorem Decoded.ensureEventID (h : Decoded env values event) (uuid : String) :
    ensureEventID uuid event = event := by
  refine if_neg fun hblank => h.eventID_ne ?_
  rw [h.eventID] at hblank ⊢
  rwa [trimSpace_trimSpace] at hblank

theorem ensureEventID_ensureEventID (uuid : String) (event : AuditEvent) :
    ensureEventID uuid (ensureEventID uuid event) = ensureEventID uuid event := by
  by_cases hblank : trimSpace event.eventID = ""
  · have hnamed : ensureEventID uuid event = { event with eventID := uuid } := if_pos hblank
    rw [hnamed]
    exact ite_self _
  · have hkept : ensureEventID uuid event = event := if_neg hblank
    rw [hkept, hkept]

/-- A message that holds everything another one says. -/
structure Carries (env : AuditEnv) (values values' : StreamValues) : Prop where
  decoded : decodeMessage env values' = decodeMessage env values
  fields : ∀ key text, key ≠ "retry_count" → values key = some text →
    ∃ text', values' key = some text' ∧ trimSpace text' = trimSpace text

theorem dlqFields_of_some {text : String} (h : message.values key = some text) :
    dlqFields message failedAt cause malformed key = some text := by
  rw [dlqFields, StreamValues.over, h, Option.some_or]

theorem dlqFields_eventField (h : key ∈ eventFields) :
    dlqFields message failedAt cause malformed key = message.values key := by
  have hbase : ∀ key ∈ eventFields, ([("stream_message_id", message.id.text), ("failed_at", failedAt),
      ("error", trimSpace cause), ("malformed", if malformed then "true" else "false")]).lookup key = none := by
    simp [eventFields]
  rw [dlqFields, StreamValues.over, StreamValues.ofList, hbase key h, Option.or_none]

theorem carries_dlqFields (env : AuditEnv) (message : StreamEntry StreamValues) (failedAt cause : String)
    (malformed : Bool) : Carries env message.values (dlqFields message failedAt cause malformed) where
  decoded := decodeMessage_congr fun key hkey => by rw [readStringField, dlqFields_eventField hkey, readStringField]
  fields key text _ h := ⟨text, dlqFields_of_some h, rfl⟩

theorem Carries.retried (h : Carries env values values')
    (hevent : decodeMessage env values = .ok event) (count : String) :
    Carries env values ((values'.set "event_id" event.eventID).set "retry_count" count) := by
  have hid := (decodeMessage_eq_ok (h.decoded.trans hevent)).eventID
  have hset : ∀ key, key ≠ "retry_count" → key ≠ "event_id" →
      ((values'.set "event_id" event.eventID).set "retry_count" count) key = values' key :=
    fun key hretry hevent => by rw [StreamValues.set, if_neg hretry, StreamValues.set, if_neg hevent]
  have hsetID : ((values'.set "event_id" event.eventID).set "retry_count" count) "event_id" =
      some event.eventID := rfl
  constructor
  · refine (decodeMessage_congr fun key hkey => ?_).trans h.decoded
    have hretry : key ≠ "retry_count" := by
      rintro rfl
      simp [eventFields] at hkey
    by_cases hkeyID : key = "event_id"
    · rw [hkeyID, readStringField, hsetID, Option.getD_some, hid, trimSpace_trimSpace]
    · rw [readStringField, hset key hretry hkeyID, readStringField]
  · intro key text hretry htext
    obtain ⟨text', htext', htrim⟩ := h.fields key text hretry htext
    by_cases hkeyID : key = "event_id"
    · refine ⟨event.eventID, by rw [hkeyID, hsetID], ?_⟩
      rw [hid, trimSpace_trimSpace, ← htrim, readStringField, ← hkeyID, htext', Option.getD_some]
    · exact ⟨text', (hset key hretry hkeyID).trans htext', htrim⟩

theorem decodeMessage_replayValues (env : AuditEnv) (values : StreamValues) :
    decodeMessage env (replayValues values) = decodeMessage env values := by
  refine decodeMessage_congr fun key hkey => ?_
  have hlookup : replayValues values key = some (readStringField values key) := by
    simp only [eventFields, List.mem_cons, List.not_mem_nil, or_false] at hkey
    rcases hkey with rfl | rfl | rfl | rfl | rfl | rfl | rfl | rfl | rfl | rfl <;> rfl
  rw [readStringField, hlookup, Option.getD_some]

/-! ## What stays -/

structure Grows (w w' : AuditWorld) : Prop where
  stream : ∀ e ∈ w.stream.entries, e ∈ w'.stream.entries
  dlq : ∀ e ∈ w.dlq.entries, e ∈ w'.dlq.entries
  rows : ∀ row ∈ w.rows, ∃ row' ∈ w'.rows, row'.eventID = row.eventID

/-- The event of the message is in the table, or the message is in the dead-letter stream. -/
def Recorded (env : AuditEnv) (w : AuditWorld) (values : StreamValues) : Prop :=
  (∃ event, decodeMessage env values = .ok event ∧ ∃ row ∈ w.rows, row.isOf env event.eventID = true) ∨
    ∃ letter ∈ w.dlq.entries, Carries env values letter.values

theorem Recorded.grows {w' : AuditWorld} (h : Recorded env w values) (hgrows : Grows w w') :
    Recorded env w' values := by
  rcases h with ⟨event, hevent, row, hrow, hof⟩ | ⟨letter, hletter, hcarries⟩
  · obtain ⟨row', hrow', hid⟩ := hgrows.rows row hrow
    refine .inl ⟨event, hevent, row', hrow', ?_⟩
    rwa [AuditRow.isOf, hid]
  · exact .inr ⟨letter, hgrows.dlq letter hletter, hcarries⟩

theorem exists_row_upsert (env : AuditEnv) (hrefl : ∀ text, env.sqlEq text text = true) (event : AuditEvent)
    (w : AuditWorld) : ∃ row ∈ (w.upsert env event).rows, row.isOf env (trimSpace event.eventID) = true := by
  unfold AuditWorld.upsert
  dsimp only
  split
  next hany =>
    obtain ⟨row, hrow, hof⟩ := List.any_eq_true.mp hany
    refine ⟨_, List.mem_map_of_mem hrow, ?_⟩
    rw [if_pos hof]
    exact hof
  next => exact ⟨_, List.mem_append_right _ (List.mem_singleton_self _), hrefl _⟩

theorem recorded_upsert (hrefl : ∀ text, env.sqlEq text text = true)
    (h : decodeMessage env values = .ok event) (w : AuditWorld) :
    Recorded env (w.upsert env event) values := by
  obtain ⟨row, hrow, hof⟩ := exists_row_upsert env hrefl event w
  have hid : trimSpace event.eventID = event.eventID := by
    rw [(decodeMessage_eq_ok h).eventID, trimSpace_trimSpace]
  rw [hid] at hof
  exact .inl ⟨event, h, row, hrow, hof⟩

theorem rows_upsert (env : AuditEnv) (event : AuditEvent) (w : AuditWorld) :
    ∀ row ∈ w.rows, ∃ row' ∈ (w.upsert env event).rows, row'.eventID = row.eventID := by
  intro row hrow
  unfold AuditWorld.upsert
  dsimp only
  split
  · refine ⟨_, List.mem_map_of_mem hrow, ?_⟩
    split <;> rfl
  · exact ⟨row, List.mem_append_left _ hrow, rfl⟩

theorem enqueueAuditEvent_eq (dedupKey eventID : String) (ttl : Int) (values : StreamValues) (w : AuditWorld) :
    (enqueueAuditEvent dedupKey eventID ttl values w).2 = w ∨ ∃ dedup,
      (enqueueAuditEvent dedupKey eventID ttl values w).2 =
        { w with dedup := dedup, stream := w.stream.add w.now values } := by
  unfold enqueueAuditEvent
  split
  · exact .inl rfl
  · split
    · exact .inl rfl
    · exact .inr ⟨_, rfl⟩

/-! ## Commands -/

def isRetry : AuditLabel → Bool
  | .incrRetry _ | .expireRetry _ | .delRetry _ => true
  | _ => false

def Retrying (l : AuditLabel) (f : AuditWorld → AuditWorld) : Prop :=
  isRetry l = true ∧ ∃ g : AuditWorld → Keyspace String Int, f = fun w => { w with retries := g w }

/-- **What the commands rest on**, in the state they find. -/
inductive Grounded (env : AuditEnv) (task : AuditTask) (w : AuditWorld) :
    AuditLabel → (AuditWorld → AuditWorld) → Prop
  | enqueue {uuid : String} {event : AuditEvent} (now : Int) (htask : task = .create uuid event) :
      Grounded env task w (.enqueueAuditEvent (streamFields env now (ensureEventID uuid event))) fun w =>
        (enqueueAuditEvent (ensureEventID uuid event).eventID (trimSpace (ensureEventID uuid event).eventID)
          (ttlSeconds env.dedupTTL) (streamFields env now (ensureEventID uuid event)) w).2
  | createGroup : Grounded env task w .createGroup fun w => { w with stream := w.stream.createGroup }
  | readGroup (cfg : ConsumerConfig) : Grounded env task w (.readGroup cfg.consumer) fun w =>
      { w with stream := (w.stream.readGroup w.now cfg.consumer cfg.batchSize.toNat).2 }
  | autoClaim (cfg : ConsumerConfig) (start : StreamID) :
      Grounded env task w (.autoClaim cfg.consumer start) fun w => { w with
        stream := (w.stream.autoClaim w.now cfg.consumer cfg.reclaimIdle start cfg.batchSize.toNat).2 }
  | ack {message : StreamEntry StreamValues} (hmem : message ∈ w.stream.entries)
      (hrecorded : Recorded env w message.values) :
      Grounded env task w (.ack message.id) fun w => { w with stream := w.stream.ack message.id }
  | addDLQ {message : StreamEntry StreamValues} {fields : StreamValues} (hmem : message ∈ w.stream.entries)
      (hcarries : Carries env message.values fields) :
      Grounded env task w (.addDLQ fields) fun w => { w with dlq := w.dlq.add w.now fields }
  | replay {letter : StreamEntry StreamValues} (hmem : letter ∈ w.dlq.entries) :
      Grounded env task w (.replay (replayValues letter.values)) fun w =>
        { w with stream := w.stream.add w.now (replayValues letter.values) }
  | upsert {event : AuditEvent}
      (hevent : (∃ message ∈ w.stream.entries, decodeMessage env message.values = .ok event) ∨
        env.syncWrite = true ∧ ∃ uuid made, task = .create uuid made ∧ event = ensureEventID uuid made) :
      Grounded env task w (.upsert event) (·.upsert env event)
  | retry {l : AuditLabel} (hl : isRetry l = true) (g : AuditWorld → Keyspace String Int) :
      Grounded env task w l fun w => { w with retries := g w }

theorem Grounded.grows {task : AuditTask} {l : AuditLabel} {f : AuditWorld → AuditWorld}
    (h : Grounded env task w l f) : Grows w (f w) := by
  have hsame : ∀ row ∈ w.rows, ∃ row' ∈ w.rows, row'.eventID = row.eventID := fun row hrow => ⟨row, hrow, rfl⟩
  cases h with
  | enqueue now htask =>
    dsimp only
    rcases enqueueAuditEvent_eq _ _ _ _ w with heq | ⟨dedup, heq⟩ <;> rw [heq]
    · exact ⟨fun _ he => he, fun _ he => he, hsame⟩
    · exact ⟨fun _ he => (LogStream.extends_add _ _).mem he, fun _ he => he, hsame⟩
  | createGroup => exact ⟨fun _ he => he, fun _ he => he, hsame⟩
  | readGroup cfg => exact ⟨fun e he => by simpa using he, fun _ he => he, hsame⟩
  | autoClaim cfg start => exact ⟨fun e he => by simpa using he, fun _ he => he, hsame⟩
  | ack hmem hrecorded => exact ⟨fun _ he => he, fun _ he => he, hsame⟩
  | addDLQ hmem hcarries => exact ⟨fun _ he => he, fun _ he => (LogStream.extends_add _ _).mem he, hsame⟩
  | replay hmem => exact ⟨fun _ he => (LogStream.extends_add _ _).mem he, fun _ he => he, hsame⟩
  | upsert hevent => exact ⟨fun _ he => he, fun _ he => he, rows_upsert env _ w⟩
  | retry hl g => exact ⟨fun _ he => he, fun _ he => he, hsame⟩

/-! ## The code -/

section Code

variable {ι : Type} [DecidableEq ι] {D : Discipline ι AuditWorld AuditLabel}
variable {A : Moment ι AuditWorld AuditLabel → ι → AuditLabel → Prop} {i : ι}
variable {env : AuditEnv} {task : AuditTask} {m : Moment ι AuditWorld AuditLabel}

structure Admission (env : AuditEnv) (D : Discipline ι AuditWorld AuditLabel)
    (A : Moment ι AuditWorld AuditLabel → ι → AuditLabel → Prop) (i : ι) (task : AuditTask) : Prop where
  grows : ∀ {m m'}, D.mono m m' → Grows m.shared m'.shared
  kept : ∀ {m l f}, D.inv m → A m i l → Grounded env task m.shared l f → D.Kept m (m.after i l f)

def Queued (message : StreamEntry StreamValues) (m : Moment ι AuditWorld AuditLabel) : Prop :=
  message ∈ m.shared.stream.entries

variable (laws : Admission env D A i task)

include laws

omit [DecidableEq ι] in
theorem queued_lasting (message : StreamEntry StreamValues) : D.Lasting (Queued message) :=
  fun _ _ h hm => (laws.grows h.mono).stream _ hm

omit [DecidableEq ι] in
theorem recorded_lasting (values : StreamValues) : D.Lasting fun m => Recorded env m.shared values :=
  fun _ _ h hm => hm.grows (laws.grows h.mono)

variable {P : Moment ι AuditWorld AuditLabel → Prop} {message : StreamEntry StreamValues}
variable {event : Option AuditEvent}

theorem retrying_wp {α : Type} {p : AuditAction α} (hp : p.Acts Retrying) (hP : D.Lasting P)
    (hm : P m) : Wp D A i p (fun _ => P) m := by
  refine wp_last hp (fun m' l f hl hinv ha => ?_) hP hm
  obtain ⟨hretry, g, rfl⟩ := hl
  exact laws.kept hinv ha (.retry hretry g)

theorem clearRetry_wp (hP : D.Lasting P) (hm : P m) (eventID : String) :
    Wp D A i (clearRetry eventID).run (fun _ => P) m :=
  retrying_wp laws (.whenever (.attempt ⟨⟨rfl, _, rfl⟩, fun _ => trivial⟩)) hP hm

theorem incrementRetry_wp (hP : D.Lasting P) (hm : P m) (cfg : ConsumerConfig) (eventID : String) :
    Wp D A i (incrementRetry cfg eventID).run (fun _ => P) m := by
  refine retrying_wp laws (.provided (.bind_except (.lift (.call ⟨⟨rfl, _, rfl⟩, fun _ => trivial⟩))
    fun r => ?_)) hP hm
  cases r with
  | error e => trivial
  | ok count =>
    exact .bind_except (.whenever (.attempt ⟨⟨rfl, _, rfl⟩, fun _ => trivial⟩)) fun _ => trivial

omit [DecidableEq ι] laws in
theorem readRetry_silent (eventID : String) : (readRetry eventID).run.Silent := by
  refine .provided (.bind_except (.lift (.call fun _ => trivial)) fun r => ?_)
  split <;> trivial

theorem retryFields_wp {fields : StreamValues} (hm : Queued message m)
    (hfields : Carries env message.values fields)
    (hevent : ∀ e ∈ event, decodeMessage env message.values = .ok e) :
    Wp D A i (retryFields event fields).run
      (Gives fun fields' m' => Queued message m' ∧ Carries env message.values fields') m := by
  cases event with
  | none =>
    intro fields' hfields'
    obtain rfl := Except.ok.inj hfields'
    exact ⟨hm, hfields⟩
  | some e =>
    refine .silent (readRetry_silent _) ((queued_lasting laws message).stable i) hm fun count m₁ hm₁ fields' hfields' => ?_
    obtain rfl := Except.ok.inj hfields'
    exact ⟨hm₁, hfields.retried (hevent e rfl) _⟩

theorem xack_wp (hm : Queued message m ∧ Recorded env m.shared message.values) :
    Wp D A i (xack message.id) (fun _ _ => True) m := by
  intro m₁ hr hinv ha
  obtain ⟨hqueued, hrecorded⟩ :=
    ((queued_lasting laws message).and (recorded_lasting laws message.values)).stable i _ _ hr hinv hm
  obtain ⟨hkept, hmono⟩ := laws.kept hinv ha (.ack hqueued hrecorded)
  exact ⟨hkept, hmono, trivial⟩

theorem moveToDLQ_wp (hm : Queued message m)
    (hevent : ∀ e ∈ event, decodeMessage env message.values = .ok e) (cause : String)
    (malformed : Bool) :
    Wp D A i (moveToDLQ env message event cause malformed).run (fun _ _ => True) m := by
  have hqueued := queued_lasting laws message
  refine wp_clock (hqueued.stable i) hm fun m₁ _ hm₁ => ?_
  refine wp_bind_except.mpr ((retryFields_wp laws hm₁ (carries_dlqFields _ _ _ _ _) hevent).imp
    fun r m₂ hr => ?_)
  cases r with
  | error e => trivial
  | ok fields => ?_
  have hm₂ := hr fields rfl
  refine .send (hqueued.stable i) hm₂.1 fun m₃ hinv hm₃ ha => ?_
  have hkept := laws.kept hinv ha (.addDLQ hm₃ hm₂.2)
  refine ⟨hkept.1, hkept.2, ?_⟩
  -- the letter is there, and so the message may be acknowledged
  obtain ⟨letter, hletter, hvalues⟩ := LogStream.exists_mem_add m₃.shared.now fields
  have hrecorded : Recorded env (m₃.after i (.addDLQ fields) fun w =>
      { w with dlq := w.dlq.add w.now fields }).shared message.values :=
    .inr ⟨letter, hletter, by rw [hvalues]; exact hm₂.2⟩
  refine wp_bind_except.mpr (wp_call trivial ((xack_wp laws ⟨hkept.lasting hqueued hm₃, hrecorded⟩).imp
    fun _ m₄ _ => ⟨?_, trivial⟩))
  cases event with
  | none => trivial
  | some e => exact clearRetry_wp laws (D.lasting_const True) trivial _

theorem persistFailed_wp (hm : Queued message m) {event : AuditEvent}
    (hevent : decodeMessage env message.values = .ok event) (cfg : ConsumerConfig) :
    Wp D A i (persistFailed env cfg message event).run (fun _ _ => True) m := by
  refine wp_bind_except.mpr ((incrementRetry_wp laws (queued_lasting laws message) hm _ _).imp
    fun r m₁ hm₁ => ?_)
  cases r with
  | error e => trivial
  | ok count => ?_
  refine wp_whenever (fun _ => trivial) fun _ => moveToDLQ_wp laws hm₁ (fun e he => ?_) _ _
  obtain rfl := Option.some.inj he
  exact hevent

theorem persisted_wp (hm : Queued message m ∧ Recorded env m.shared message.values)
    (event : AuditEvent) : Wp D A i (persisted message event).run (fun _ _ => True) m := by
  refine wp_bind_except.mpr ((clearRetry_wp laws
    ((queued_lasting laws message).and (recorded_lasting laws message.values)) hm _).imp fun r m₁ hm₁ => ?_)
  cases r with
  | error e => trivial
  | ok u => exact wp_call trivial ((xack_wp laws hm₁).imp fun _ _ _ => ⟨trivial, trivial⟩)

variable (hrefl : ∀ text, env.sqlEq text text = true)

include hrefl

theorem processMessage_wp (hm : Queued message m) (cfg : ConsumerConfig) (uuid : String) :
    Wp D A i (processMessage env cfg uuid message).run (fun _ _ => True) m := by
  have hqueued := queued_lasting laws message
  unfold processMessage
  split
  next cause hcause => exact moveToDLQ_wp laws hm (fun _ h => by cases h) _ _
  next event hevent =>
    refine wp_bind_except.mpr (wp_lift.mpr (wp_call ?_ fun m₁ hr hinv ha => ?_))
    · exact persistFailed_wp laws hm hevent cfg
    · rw [(decodeMessage_eq_ok hevent).ensureEventID] at ha ⊢
      have hm₁ := hqueued.stable i _ _ hr hinv hm
      have hkept := laws.kept hinv ha (.upsert (.inl ⟨message, hm₁, hevent⟩))
      have hm₂ := hkept.lasting hqueued hm₁
      refine ⟨hkept.1, hkept.2, persisted_wp laws ⟨hm₂, recorded_upsert hrefl hevent _⟩ event, ?_⟩
      exact persistFailed_wp laws hm₂ hevent cfg

theorem processMessages_wp {messages : List (StreamEntry StreamValues)}
    (hm : ∀ message ∈ messages, Queued message m) (cfg : ConsumerConfig) (uuid : String) :
    Wp D A i (processMessages env cfg uuid messages) (fun _ _ => True) m := by
  induction messages generalizing m with
  | nil => trivial
  | cons message rest ih =>
    -- the rest stays in the stream while the first is processed
    have hrest : D.Lasting fun m => ∀ message ∈ rest, Queued message m :=
      fun _ _ h hm message hmem => queued_lasting laws message _ _ h (hm message hmem)
    have hfirst := processMessage_wp laws hrefl (hm message (List.mem_cons_self ..)) cfg uuid
    refine wp_bind.mpr ((hfirst.lasting hrest fun x hx => hm x (List.mem_cons_of_mem _ hx)).imp
      fun _ m₁ hm₁ => ?_)
    exact ih hm₁.2

variable (cfg : ConsumerConfig) (uuid : String) (rounds : Nat)

theorem readLoop_wp : Wp D A i (readLoop env cfg uuid rounds) (fun _ _ => True) m := by
  induction rounds generalizing m with
  | zero => trivial
  | succ rounds ih =>
    refine wp_bind.mpr (wp_call ?_ fun m₁ _ hinv ha => ?_)
    · exact ih
    · have hkept := laws.kept hinv ha (.readGroup cfg)
      refine ⟨hkept.1, hkept.2, ?_, ih⟩
      split
      next messages hmessages =>
        have hmem := LogStream.mem_of_readGroup (Except.ok.inj hmessages)
        refine wp_bind.mpr ((processMessages_wp laws hrefl (fun message hx => ?_) cfg uuid).imp fun _ _ _ => ih)
        exact hkept.lasting (queued_lasting laws message) (hmem message hx)
      next => exact ih

theorem reclaim_wp (start : StreamID) :
    Wp D A i (reclaim env cfg uuid rounds start) (fun _ _ => True) m := by
  induction rounds generalizing m start with
  | zero => trivial
  | succ rounds ih =>
    refine wp_bind.mpr (wp_call trivial fun m₁ _ hinv ha => ?_)
    have hkept := laws.kept hinv ha (.autoClaim cfg start)
    refine ⟨hkept.1, hkept.2, ?_, trivial⟩
    split
    next messages next hmessages =>
      have hmem := LogStream.mem_of_autoClaim (Except.ok.inj hmessages)
      split
      · trivial
      · refine wp_bind.mpr ((processMessages_wp laws hrefl (fun message hx => ?_) cfg uuid).imp fun _ m₂ _ => ?_)
        · exact hkept.lasting (queued_lasting laws message) (hmem message hx)
        · split
          · trivial
          · exact ih next
    next => trivial

theorem reclaimLoop_wp (ticks : List Nat) :
    Wp D A i (reclaimLoop env cfg uuid ticks) (fun _ _ => True) m := by
  induction ticks generalizing m with
  | nil => trivial
  | cons rounds rest ih =>
    exact wp_bind.mpr ((reclaim_wp laws hrefl cfg uuid rounds .zero).imp fun _ _ _ => ih)

omit hrefl in
theorem replayMessages_wp {letters : List (StreamEntry StreamValues)}
    (hm : ∀ letter ∈ letters, letter ∈ m.shared.dlq.entries) :
    Wp D A i (replayMessages letters).run (fun _ _ => True) m := by
  have hlasting : ∀ letters : List (StreamEntry StreamValues),
      D.Lasting fun m => ∀ letter ∈ letters, letter ∈ m.shared.dlq.entries :=
    fun letters _ _ h hm letter hmem => (laws.grows h.mono).dlq letter (hm letter hmem)
  induction letters generalizing m with
  | nil => trivial
  | cons letter rest ih =>
    have hfirst : Wp D A i (Prog.attempt (Prog.update (.replay (replayValues letter.values)) fun w =>
        { w with stream := w.stream.add w.now (replayValues letter.values) }) : AuditService Unit).run
        (fun _ m' => ∀ x ∈ rest, x ∈ m'.shared.dlq.entries) m := by
      refine wp_attempt (fun x hx => hm x (List.mem_cons_of_mem _ hx)) fun m₁ hr hinv ha => ?_
      have hm₁ := (hlasting (letter :: rest)).stable i _ _ hr hinv hm
      have hkept := laws.kept hinv ha (.replay (hm₁ letter (List.mem_cons_self ..)))
      refine ⟨hkept.1, hkept.2, ?_⟩
      exact hkept.lasting (hlasting rest) fun x hx => hm₁ x (List.mem_cons_of_mem _ hx)
    refine wp_bind_except.mpr (wp_whenever (fun _ => ?_) fun _ => hfirst.imp fun r m₁ hm₁ => ?_)
    · exact ih fun x hx => hm x (List.mem_cons_of_mem _ hx)
    · cases r with
      | error e => trivial
      | ok u => exact ih hm₁

/-- **Every task sends only commands that are grounded.** -/
theorem task_wp : Wp D A i (task.code env).run (fun _ _ => True) m := by
  cases htask : task with
  | create uuid event =>
    show Wp D A i (asyncCreate env uuid event).run (fun _ _ => True) m
    unfold asyncCreate
    split
    next hsync =>
      refine wp_call trivial fun m₁ _ hinv ha => ?_
      rw [ensureEventID_ensureEventID] at ha ⊢
      have hkept := laws.kept hinv ha (.upsert (.inr ⟨hsync, uuid, event, htask, rfl⟩))
      exact ⟨hkept.1, hkept.2, trivial, trivial⟩
    · refine .clock fun m₁ _ => ?_
      refine .send ((D.lasting_const True).stable i) trivial fun m₂ hinv _ ha => ?_
      have hkept := laws.kept hinv ha (.enqueue _ htask)
      refine ⟨hkept.1, hkept.2, ?_⟩
      exact retrying_wp laws .require (D.lasting_const True) trivial
  | ensureGroup =>
    refine wp_call trivial fun m₁ _ hinv ha => ?_
    have hkept := laws.kept hinv ha .createGroup
    exact ⟨hkept.1, hkept.2, trivial, trivial⟩
  | readLoop cfg uuid rounds => exact wp_lift.mpr (readLoop_wp laws hrefl _ uuid rounds)
  | reclaimLoop cfg uuid ticks => exact wp_lift.mpr (reclaimLoop_wp laws hrefl _ uuid ticks)
  | replay start stop count =>
    refine .read fun m₁ _ => ?_
    exact replayMessages_wp laws fun letter hletter => LogStream.mem_of_range hletter

end Code

end IdpServer.Laws.Audit
