import IdpServer.Laws.Audit.Delivery

/-!
# Laws.Audit.Times — the time of an event and the date of its row

An event travels with the time it was made, but a row is dated by the moment of its insertion
(`datedByArrival`). `event_kept` is the law when both are in one second.
-/

namespace IdpServer.Laws.Audit

open Conc Store Go IdpServer.Audit

/-! ## An event on its way -/

/-- What is decoded is the event, with its texts trimmed and its ids positive. -/
structure Faithful (event decoded : AuditEvent) : Prop where
  eventID : decoded.eventID = trimSpace event.eventID
  eventType : decoded.eventType = trimSpace event.eventType
  clientID : decoded.clientID = positive event.clientID
  userID : decoded.userID = positive event.userID
  subject : decoded.subject = trimSpace event.subject
  sessionID : decoded.sessionID = positive event.sessionID
  ipAddress : decoded.ipAddress = trimSpace event.ipAddress
  userAgent : decoded.userAgent = trimSpace event.userAgent
  metadataJSON : decoded.metadataJSON = trimSpace event.metadataJSON
  createdAt : event.createdAt ≠ zeroTime → decoded.createdAt = event.createdAt

/-- The text of this time is read back as the time. -/
def ReadsBack (env : AuditEnv) (t : Int) : Prop :=
  trimSpace (env.formatTime t) ≠ "" ∧ env.parseTime (trimSpace (env.formatTime t)) = some t

variable {env : AuditEnv} {values : StreamValues} {key : String} {id : Option Int}
variable {event decoded : AuditEvent}

theorem parseOptionalInt64_written (hfield : values key = some (formatNullableInt64 id)) :
    parseOptionalInt64 env values key = match positive id with
      | none => .ok none
      | some n =>
        match checkInt64 n with
        | some v => .ok (some v)
        | none => .error ("parse " ++ key ++ ": " ++ env.parseIntError (formatInt n)) := by
  unfold parseOptionalInt64
  rw [readStringField, hfield, Option.getD_some, formatNullableInt64]
  cases hid : positive id with
  | none => rfl
  | some n =>
    have hpos : 0 < n := of_decide_eq_true (Option.filter_eq_some_iff.mp hid).2
    obtain ⟨-, hne⟩ := nonblank_eq_some.mp (nonblank_formatInt hpos)
    rw [trimSpace_formatInt, if_neg hne]
    cases hcheck : checkInt64 n with
    | none => simp only [parseInt_formatInt, hcheck]
    | some v => simp only [parseInt_formatInt, hcheck]

theorem parseOptionalInt64_format {value : Option Int}
    (hfield : values key = some (formatNullableInt64 id))
    (h : parseOptionalInt64 env values key = .ok value) : value = positive id := by
  rw [parseOptionalInt64_written hfield] at h
  cases hid : positive id with
  | none =>
    rw [hid] at h
    exact (Except.ok.inj h).symm
  | some n =>
    rw [hid] at h
    dsimp only at h
    split at h
    next v hv =>
      obtain rfl := Except.ok.inj h
      rw [eq_of_parseInt_formatInt ((parseInt_formatInt n).trans hv)]
    next => cases h

/-- **What is published is what is decoded.** -/
theorem faithful_streamFields {now : Int}
    (htime : event.createdAt ≠ zeroTime → ReadsBack env event.createdAt)
    (h : decodeMessage env (streamFields env now event) = .ok decoded) :
    Faithful event decoded := by
  have hd := decodeMessage_eq_ok h
  have htext : ∀ key text, streamFields env now event key = some (trimSpace text) →
      trimSpace (readStringField (streamFields env now event) key) = trimSpace text := by
    intro key text hkey
    rw [readStringField, hkey, Option.getD_some, trimSpace_trimSpace]
  have hclient : streamFields env now event "client_id" = some (formatNullableInt64 event.clientID) := rfl
  have huser : streamFields env now event "user_id" = some (formatNullableInt64 event.userID) := rfl
  have hsession : streamFields env now event "session_id" = some (formatNullableInt64 event.sessionID) := rfl
  constructor
  · exact hd.eventID.trans (htext "event_id" event.eventID rfl)
  · exact hd.eventType.trans (htext "event_type" event.eventType rfl)
  · exact parseOptionalInt64_format hclient hd.clientID
  · exact parseOptionalInt64_format huser hd.userID
  · exact hd.subject.trans (htext "subject" event.subject rfl)
  · exact parseOptionalInt64_format hsession hd.sessionID
  · exact hd.ipAddress.trans (htext "ip_address" event.ipAddress rfl)
  · exact hd.userAgent.trans (htext "user_agent" event.userAgent rfl)
  · exact hd.metadataJSON.trans (htext "metadata_json" event.metadataJSON rfl)
  · intro hmade
    obtain ⟨hne, hparse⟩ := htime hmade
    have hcreated := hd.createdAt
    have hfield : streamFields env now event "created_at" = some (formatCreatedAt env now event.createdAt) := rfl
    rw [parseCreatedAt, readStringField, hfield, Option.getD_some, formatCreatedAt, if_neg hmade] at hcreated
    rw [if_neg hne, hparse] at hcreated
    exact (Except.ok.inj hcreated).symm

/-! ## Rows -/

/-- The columns of the row are those of the event; its date is left aside. -/
structure Shows (env : AuditEnv) (event : AuditEvent) (row : AuditRow) : Prop where
  eventID : row.eventID = trimSpace event.eventID
  eventType : row.eventType = trimSpace event.eventType
  clientID : row.clientID = positive event.clientID
  userID : row.userID = positive event.userID
  subject : row.subject = trimSpace event.subject
  sessionID : row.sessionID = positive event.sessionID
  ipAddress : row.ipAddress = trimSpace event.ipAddress
  userAgent : row.userAgent = trimSpace event.userAgent
  metadataJSON : row.metadataJSON = (nonblank event.metadataJSON).map env.jsonColumn

theorem positive_positive (id : Option Int) : positive (positive id) = positive id := by
  simp [positive, Option.filter_filter]

theorem Faithful.shows (h : Faithful event decoded) (id createdAt : Int) :
    Shows env event (auditRow env id (trimSpace event.eventID) createdAt decoded) := by
  constructor
  · rfl
  · exact (congrArg trimSpace h.eventType).trans (trimSpace_trimSpace _)
  · exact (congrArg positive h.clientID).trans (positive_positive _)
  · exact (congrArg positive h.userID).trans (positive_positive _)
  · exact (congrArg trimSpace h.subject).trans (trimSpace_trimSpace _)
  · exact (congrArg positive h.sessionID).trans (positive_positive _)
  · exact (congrArg trimSpace h.ipAddress).trans (trimSpace_trimSpace _)
  · exact (congrArg trimSpace h.userAgent).trans (trimSpace_trimSpace _)
  · show (if trimSpace decoded.metadataJSON = "" then none else some (env.jsonColumn decoded.metadataJSON)) = _
    rw [h.metadataJSON, trimSpace_trimSpace, nonblank]
    split <;> rfl

/-! ## Lists -/

theorem nonblank_empty : nonblank "" = none := nonblank_eq_none.mpr (by decide)

theorem listLimit_pos (limit : Int) : 0 < listLimit limit := by
  unfold listLimit
  split <;> omega

def byTime (limit offset : Int) (fromTime toTime : Option Int) : ListAuditEventsInput :=
  ⟨limit, offset, "", none, "", fromTime, toTime⟩

def InRange (fromTime toTime : Option Int) (t : Int) : Prop :=
  (∀ first ∈ fromTime, first ≤ t) ∧ ∀ last ∈ toTime, t ≤ last

theorem matches_byTime (env : AuditEnv) (limit offset : Int) (fromTime toTime : Option Int) (row : AuditRow) :
    (byTime limit offset fromTime toTime).matches env row = true ↔ InRange fromTime toTime row.createdAt := by
  cases fromTime <;> cases toTime <;>
    simp [ListAuditEventsInput.matches, byTime, nonblank_empty, positive, InRange]

theorem exists_listed {rows : List AuditRow} {limit : Int} {fromTime toTime : Option Int}
    {P : AuditEvent → Prop} :
    (∃ offset, ∃ listed ∈ list env rows (byTime limit offset fromTime toTime), P listed) ↔
      ∃ row ∈ rows, InRange fromTime toTime row.createdAt ∧ P (rowEvent row) := by
  constructor
  · rintro ⟨offset, listed, hlisted, hP⟩
    obtain ⟨row, hrow, rfl⟩ := List.mem_map.mp hlisted
    have hmem := (List.mem_insertionSort _).mp (List.mem_of_mem_drop (List.mem_of_mem_take hrow))
    obtain ⟨hrow, hmatches⟩ := List.mem_filter.mp hmem
    exact ⟨row, hrow, (matches_byTime ..).mp hmatches, hP⟩
  · rintro ⟨row, hrow, hrange, hP⟩
    have hmem : row ∈ (rows.filter ((byTime limit 0 fromTime toTime).matches env)).insertionSort listedBefore :=
      (List.mem_insertionSort _).mpr (List.mem_filter.mpr ⟨hrow, (matches_byTime ..).mpr hrange⟩)
    obtain ⟨k, hk, hget⟩ := List.getElem_of_mem hmem
    obtain ⟨n, hn⟩ := Nat.exists_eq_add_one_of_ne_zero (Nat.ne_of_gt (listLimit_pos limit))
    refine ⟨k, rowEvent row, List.mem_map_of_mem ?_, hP⟩
    show row ∈ ((((rows.filter ((byTime limit 0 fromTime toTime).matches env)).insertionSort
      listedBefore).drop k).take (listLimit limit))
    rw [List.drop_eq_getElem_cons hk, hget, hn]
    exact List.mem_cons_self ..

/-! ## Runs -/

section Runs

variable {ι : Type} (env : AuditEnv) (tasks : ι → AuditTask)

def Made (event : AuditEvent) : Prop := ∃ i uuid given, tasks i = .create uuid given ∧ event = ensureEventID uuid given

def Says (values : StreamValues) : Prop :=
  ∀ decoded, decodeMessage env values = .ok decoded → ∃ event, Made tasks event ∧ Faithful event decoded

def Dated (event : AuditEvent) (row : AuditRow) : Prop :=
  event.createdAt ≠ zeroTime → row.createdAt = wholeSeconds event.createdAt

/-- Everything on the way and every row is of an event that was made. -/
structure Traced (w : AuditWorld) : Prop where
  stream : ∀ message ∈ w.stream.entries, Says env tasks message.values
  dlq : ∀ letter ∈ w.dlq.entries, Says env tasks letter.values
  rows : ∀ row ∈ w.rows, ∃ event, Made tasks event ∧ Shows env event row ∧ Dated event row

/-- **The condition**: a row is inserted in the second its event was made. -/
def InTime (m : Moment ι AuditWorld AuditLabel) (_ : ι) (l : AuditLabel) : Prop :=
  match l with
  | .upsert event => m.shared.rows.any (·.isOf env (trimSpace event.eventID)) = false →
      wholeSeconds m.shared.now = wholeSeconds event.createdAt
  | _ => True

instance (m : Moment ι AuditWorld AuditLabel) (i : ι) (l : AuditLabel) : Decidable (InTime env m i l) := by
  unfold InTime
  split <;> infer_instance

def ToldApart : Prop := ∀ event event', Made tasks event → Made tasks event' →
  env.sqlEq (trimSpace event.eventID) (trimSpace event'.eventID) = true → event = event'

/-- Others leave the messages and the rows alone. -/
structure Still (w w' : AuditWorld) : Prop where
  stream : w'.stream.entries = w.stream.entries
  dlq : w'.dlq.entries = w.dlq.entries
  rows : w'.rows = w.rows

variable {env tasks} {w : AuditWorld}

theorem Says.congr {values values' : StreamValues} (h : Says env tasks values)
    (heq : decodeMessage env values' = decodeMessage env values) : Says env tasks values' := by
  intro decoded hdecoded
  exact h decoded (heq ▸ hdecoded)

theorem Traced.of_entries {w' : AuditWorld} (h : Traced env tasks w)
    (hstream : ∀ e ∈ w'.stream.entries, e ∈ w.stream.entries ∨ Says env tasks e.values)
    (hdlq : ∀ e ∈ w'.dlq.entries, e ∈ w.dlq.entries ∨ Says env tasks e.values) (hrows : w'.rows = w.rows) :
    Traced env tasks w' where
  stream e he := (hstream e he).elim (h.stream e) id
  dlq e he := (hdlq e he).elim (h.dlq e) id
  rows := by
    rw [hrows]
    exact h.rows

/-- **The insert of what was decoded.** A row that is there is of the same event and keeps its date. -/
theorem Traced.upsert (h : Traced env tasks w) (hapart : ToldApart env tasks) {event decoded : AuditEvent}
    (hmade : Made tasks event) (hfaithful : Faithful event decoded)
    (htime : w.rows.any (·.isOf env (trimSpace decoded.eventID)) = false →
      wholeSeconds w.now = wholeSeconds decoded.createdAt) :
    ∀ row ∈ (w.upsert env decoded).rows, ∃ event, Made tasks event ∧ Shows env event row ∧ Dated event row := by
  have hid : trimSpace decoded.eventID = trimSpace event.eventID := by
    rw [hfaithful.eventID, trimSpace_trimSpace]
  intro row hrow
  unfold AuditWorld.upsert at hrow
  dsimp only at hrow
  rw [hid] at hrow htime
  split at hrow
  next =>
    obtain ⟨old, hold, rfl⟩ := List.mem_map.mp hrow
    obtain ⟨event', hmade', hshows, hdated⟩ := h.rows old hold
    split
    next hof =>
      rw [AuditRow.isOf, hshows.eventID] at hof
      obtain rfl := hapart event' event hmade' hmade hof
      refine ⟨event', hmade', ?_, hdated⟩
      rw [hshows.eventID]
      exact hfaithful.shows _ _
    next => exact ⟨event', hmade', hshows, hdated⟩
  next hnew =>
    rcases List.mem_append.mp hrow with hrow | hrow
    · exact h.rows row hrow
    · obtain rfl := List.mem_singleton.mp hrow
      refine ⟨event, hmade, hfaithful.shows _ _, fun hgiven => ?_⟩
      rw [← hfaithful.createdAt hgiven]
      exact htime (Bool.eq_false_iff.mpr hnew)

/-- **One command.** -/
theorem Traced.step {i : ι} {m : Moment ι AuditWorld AuditLabel} {l : AuditLabel}
    {f : AuditWorld → AuditWorld} (h : Traced env tasks m.shared) (hasync : env.syncWrite = false)
    (hapart : ToldApart env tasks)
    (htimes : ∀ event, Made tasks event → event.createdAt ≠ zeroTime → ReadsBack env event.createdAt)
    (hg : Grounded env (tasks i) m.shared l f) (hA : InTime env m i l) : Traced env tasks (f m.shared) := by
  cases hg with
  | enqueue now htask =>
    dsimp only
    rcases enqueueAuditEvent_eq _ _ _ _ m.shared with heq | ⟨dedup, heq⟩ <;> rw [heq]
    · exact h
    · refine h.of_entries (fun e he => (LogStream.mem_add he).imp_right fun hvalues => ?_)
        (fun e he => .inl he) rfl
      rw [hvalues]
      intro decoded hdecoded
      have hmade : Made tasks (ensureEventID _ _) := ⟨i, _, _, htask, rfl⟩
      exact ⟨_, hmade, faithful_streamFields (htimes _ hmade) hdecoded⟩
  | createGroup => exact h.of_entries (fun e he => .inl he) (fun e he => .inl he) rfl
  | readGroup cfg => exact h.of_entries (fun e he => .inl (by simpa using he)) (fun e he => .inl he) rfl
  | autoClaim cfg start => exact h.of_entries (fun e he => .inl (by simpa using he)) (fun e he => .inl he) rfl
  | ack hmem hrecorded => exact h.of_entries (fun e he => .inl he) (fun e he => .inl he) rfl
  | addDLQ hmem hcarries =>
    refine h.of_entries (fun e he => .inl he) (fun e he => (LogStream.mem_add he).imp_right fun hvalues => ?_) rfl
    rw [hvalues]
    exact (h.stream _ hmem).congr hcarries.decoded
  | replay hmem =>
    refine h.of_entries (fun e he => (LogStream.mem_add he).imp_right fun hvalues => ?_) (fun e he => .inl he) rfl
    rw [hvalues]
    exact (h.dlq _ hmem).congr (decodeMessage_replayValues _ _)
  | @upsert decoded hevent =>
    rcases hevent with ⟨message, hmem, hdecoded⟩ | ⟨hsync, -⟩
    · obtain ⟨event, hmade, hfaithful⟩ := h.stream message hmem decoded hdecoded
      exact ⟨h.stream, h.dlq, h.upsert hapart hmade hfaithful hA⟩
    · rw [hasync] at hsync
      cases hsync
  | retry hl g => exact h.of_entries (fun e he => .inl he) (fun e he => .inl he) rfl

/-- Every message and every row is of an event that was made, and nothing is taken away. -/
def tracing (env : AuditEnv) (tasks : ι → AuditTask) : Discipline ι AuditWorld AuditLabel where
  inv m := Traced env tasks m.shared
  mono m m' := Grows m.shared m'.shared
  mono_refl := (delivering env).mono_refl
  mono_trans := (delivering env).mono_trans

end Runs

/-! ## The law -/

/-- **The trail keeps its events.** Events are told apart by their ids, and their times are read back as
they were written. In every run of publishers, consumers and replays in which rows are inserted in the
second their event was made, the row of an event with a time carries that time to the second and the columns
of the event, and a list by time range shows the event on one of its pages exactly if the range contains
that time. -/
theorem event_kept {ι : Type} [DecidableEq ι] {env : AuditEnv} {tasks : ι → AuditTask}
    (hrefl : ∀ text, env.sqlEq text text = true) (hasync : env.syncWrite = false) (hapart : ToldApart env tasks)
    (htimes : ∀ event, Made tasks event → event.createdAt ≠ zeroTime → ReadsBack env event.createdAt)
    {w : AuditWorld} (hstream : w.stream.entries = []) (hdlq : w.dlq.entries = []) (hrows : w.rows = [])
    {c : Config ι AuditWorld AuditLabel (Except AuditError Unit)}
    (hrun : Reach Still (InTime env) (Config.start w fun i => ((tasks i).code env).run) c)
    {event : AuditEvent} (hmade : Made tasks event) (hgiven : event.createdAt ≠ zeroTime) :
    ∀ row ∈ c.shared.rows, env.sqlEq row.eventID (trimSpace event.eventID) = true →
      Shows env event row ∧ row.createdAt = wholeSeconds event.createdAt ∧
      ∀ limit fromTime toTime,
        (∃ offset, ∃ listed ∈ list env c.shared.rows (byTime limit offset fromTime toTime),
          env.sqlEq listed.eventID (trimSpace event.eventID) = true) ↔
        InRange fromTime toTime (wholeSeconds event.createdAt) := by
  have hsafe : c.Safe (tracing env tasks) (InTime env) fun _ _ _ => True := by
    refine sound (fun m w' hinv hE => ?_) (fun _ _ _ _ _ _ h => h) ⟨?_, fun i => ?_⟩ hrun
    · refine ⟨Traced.of_entries hinv (fun e he => .inl ?_) (fun e he => .inl ?_) hE.rows, ?_, ?_, ?_⟩
      · rwa [← hE.stream]
      · rwa [← hE.dlq]
      · intro e he
        rwa [hE.stream]
      · intro e he
        rwa [hE.dlq]
      · intro row hrow
        exact ⟨row, by rwa [hE.rows], rfl⟩
    · refine ⟨fun e he => ?_, fun e he => ?_, fun row hrow => ?_⟩
      · rw [show (Config.start w _).shared = w from rfl, hstream] at he
        cases he
      · rw [show (Config.start w _).shared = w from rfl, hdlq] at he
        cases he
      · rw [show (Config.start w _).shared = w from rfl, hrows] at hrow
        cases hrow
    · refine task_wp ⟨fun h => h, fun hinv hA hg => ⟨?_, hg.grows⟩⟩ hrefl
      exact Traced.step hinv hasync hapart htimes hg hA
  -- every row with this id is of this event
  have hof : ∀ row ∈ c.shared.rows, env.sqlEq row.eventID (trimSpace event.eventID) = true →
      Shows env event row ∧ row.createdAt = wholeSeconds event.createdAt := by
    intro row hrow hid
    obtain ⟨event', hmade', hshows, hdated⟩ := hsafe.1.rows row hrow
    rw [hshows.eventID] at hid
    obtain rfl := hapart event' event hmade' hmade hid
    exact ⟨hshows, hdated hgiven⟩
  intro row hrow hid
  obtain ⟨hshows, hdate⟩ := hof row hrow hid
  have hread : ∀ row ∈ c.shared.rows, (rowEvent row).eventID = row.eventID := by
    intro row hrow
    obtain ⟨event', -, hshows', -⟩ := hsafe.1.rows row hrow
    show trimSpace row.eventID = row.eventID
    rw [hshows'.eventID, trimSpace_trimSpace]
  refine ⟨hshows, hdate, fun limit fromTime toTime => exists_listed.trans ⟨?_, fun hrange => ?_⟩⟩
  · rintro ⟨row', hrow', hrange, hid'⟩
    rw [hread row' hrow'] at hid'
    rwa [(hof row' hrow' hid').2] at hrange
  · exact ⟨row, hrow, by rwa [hdate], by rwa [hread row hrow]⟩

/-! ## One event -/

def published : Bool → AuditTask
  | false => .create "u" loginEvent
  | true => oneRound

def quiet (now : Int) : AuditWorld := { AuditWorld.empty now with stream := LogStream.empty.createGroup }

theorem eq_loginEvent_of_made (h : Made published event) : event = loginEvent := by
  obtain ⟨i, uuid, given, htask, rfl⟩ := h
  cases i with
  | false =>
    obtain ⟨rfl, rfl⟩ := AuditTask.create.inj htask
    decide +kernel
  | true => cases htask

theorem event_kept_inTime :
    ∃ c, Reach Still (InTime plainEnv)
        (Config.start (quiet (10 * second)) fun i => ((published i).code plainEnv).run) c ∧
      ∃ row ∈ c.shared.rows, Shows plainEnv loginEvent row ∧ row.createdAt = wholeSeconds loginEvent.createdAt := by
  obtain ⟨c, hrun, hids⟩ := exists_played (E := Still) (A := InTime plainEnv)
    (c := Config.start (quiet (10 * second)) fun i => ((published i).code plainEnv).run)
    (P := fun c => c.shared.rows.map (·.eventID) = ["e"])
    [.run false, .run true, .run true] (by simp [Move.Allowed]) (by decide +kernel)
  obtain ⟨row, hrow, hid⟩ := List.mem_map.mp (hids ▸ List.mem_singleton_self "e")
  have hmade : Made published loginEvent := ⟨false, "u", loginEvent, rfl, by decide +kernel⟩
  have hapart : ToldApart plainEnv published := fun event event' h h' _ =>
    (eq_loginEvent_of_made h).trans (eq_loginEvent_of_made h').symm
  have htimes : ∀ event, Made published event → event.createdAt ≠ zeroTime →
      ReadsBack plainEnv event.createdAt := by
    intro event h _
    rw [eq_loginEvent_of_made h]
    exact ⟨by decide +kernel, by decide +kernel⟩
  have hkept := event_kept (fun _ => by simp [plainEnv]) rfl hapart htimes rfl rfl rfl hrun hmade
    (by decide +kernel) row hrow (by rw [hid]; decide +kernel)
  exact ⟨c, hrun, row, hrow, hkept.1, hkept.2.1⟩

/-- **The law fails without the condition.** The event is inserted ten seconds after it was made: its row is
dated by the insertion, and a list of its own second does not show it. -/
theorem datedByArrival :
    ∃ c, Reach Still Unrestricted
        (Config.start (quiet (20 * second)) fun i => ((published i).code plainEnv).run) c ∧
      (∃ row ∈ c.shared.rows, row.eventID = loginEvent.eventID ∧
        row.createdAt ≠ wholeSeconds loginEvent.createdAt) ∧
      list plainEnv c.shared.rows
        (byTime 0 0 (some loginEvent.createdAt) (some loginEvent.createdAt)) = [] := by
  obtain ⟨c, hrun, hdate, hlist⟩ := exists_played (E := Still) (A := Unrestricted)
    (c := Config.start (quiet (20 * second)) fun i => ((published i).code plainEnv).run)
    (P := fun c => (∃ row ∈ c.shared.rows, row.eventID = loginEvent.eventID ∧
        row.createdAt ≠ wholeSeconds loginEvent.createdAt) ∧
      list plainEnv c.shared.rows (byTime 0 0 (some loginEvent.createdAt) (some loginEvent.createdAt)) = [])
    [.run false, .run true, .run true] (by simp [Move.Allowed]) (by decide +kernel)
  exact ⟨c, hrun, hdate, hlist⟩

end IdpServer.Laws.Audit
