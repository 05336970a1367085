import IdpServer.Conc.Eval
import IdpServer.Laws.Audit.Times

/-!
# Laws.Audit.RoundTrip — there and back

Publisher and decoder are inverse (`decodeMessage_streamFields`), dead letters and replay lose nothing, and
`event_survives` puts them together for any number of rounds.
-/

namespace IdpServer.Laws.Audit

open Conc Conc.Prog Store Go IdpServer.Audit

/-! ## Publishing and decoding -/

/-- The event with its texts trimmed and the ids that are not positive absent. It has no row yet. -/
def cleaned (event : AuditEvent) : AuditEvent where
  id := 0
  eventID := trimSpace event.eventID
  eventType := trimSpace event.eventType
  clientID := positive event.clientID
  userID := positive event.userID
  subject := trimSpace event.subject
  sessionID := positive event.sessionID
  ipAddress := trimSpace event.ipAddress
  userAgent := trimSpace event.userAgent
  metadataJSON := trimSpace event.metadataJSON
  createdAt := event.createdAt

/-- An id that fits the type it has in the source. -/
def FitsInt64 (id : Option Int) : Prop := ∀ n ∈ id, n < 2 ^ 63

variable {env : AuditEnv} {values : StreamValues} {event : AuditEvent} {w : AuditWorld}
variable {message letter : StreamEntry StreamValues} {start stop : StreamID} {count : Nat}

theorem parseOptionalInt64_fits {key : String} {id : Option Int}
    (hfield : values key = some (formatNullableInt64 id)) (hfits : FitsInt64 id) :
    parseOptionalInt64 env values key = .ok (positive id) := by
  rw [parseOptionalInt64_written hfield]
  cases hid : positive id with
  | none => rfl
  | some n =>
    obtain ⟨hmem, hpos⟩ := Option.filter_eq_some_iff.mp hid
    have hpos : 0 < n := of_decide_eq_true hpos
    have hlt := hfits n hmem
    have hrange : checkInt64 n = some n := if_pos ⟨by omega, hlt⟩
    simp only [hrange]

theorem decodeMessage_of (h : Decoded env values event) (htype : event.eventType ≠ "")
    (hid : event.id = 0) : decodeMessage env values = .ok event := by
  have hnamed : ¬ (trimSpace (readStringField values "event_id") = "" ∨
      trimSpace (readStringField values "event_type") = "") := by
    rw [← h.eventID, ← h.eventType]
    exact not_or.mpr ⟨h.eventID_ne, htype⟩
  unfold decodeMessage
  dsimp only
  rw [if_neg hnamed, h.clientID, h.userID, h.sessionID, h.createdAt, ← h.eventID, ← h.eventType, ← h.subject,
    ← h.ipAddress, ← h.userAgent, ← h.metadataJSON, ← hid]
  rfl

/-- **What is published is decoded.** -/
theorem decodeMessage_streamFields (now : Int) (hid : trimSpace event.eventID ≠ "")
    (htype : trimSpace event.eventType ≠ "") (hclient : FitsInt64 event.clientID)
    (huser : FitsInt64 event.userID) (hsession : FitsInt64 event.sessionID)
    (hgiven : event.createdAt ≠ zeroTime) (htime : ReadsBack env event.createdAt) :
    decodeMessage env (streamFields env now event) = .ok (cleaned event) := by
  have htext : ∀ key text, streamFields env now event key = some (trimSpace text) →
      trimSpace text = trimSpace (readStringField (streamFields env now event) key) := by
    intro key text hkey
    rw [readStringField, hkey, Option.getD_some, trimSpace_trimSpace]
  have hcreated : parseCreatedAt env (streamFields env now event) = .ok event.createdAt := by
    have hfield : streamFields env now event "created_at" = some (formatCreatedAt env now event.createdAt) := rfl
    obtain ⟨hne, hparse⟩ := htime
    rw [parseCreatedAt, readStringField, hfield, Option.getD_some, formatCreatedAt, if_neg hgiven]
    simp only [if_neg hne, hparse]
  refine decodeMessage_of ?_ (show (cleaned event).eventType ≠ "" from htype) rfl
  constructor
  · exact htext "event_id" event.eventID rfl
  · exact hid
  · exact htext "event_type" event.eventType rfl
  · exact parseOptionalInt64_fits rfl hclient
  · exact parseOptionalInt64_fits rfl huser
  · exact htext "subject" event.subject rfl
  · exact parseOptionalInt64_fits rfl hsession
  · exact htext "ip_address" event.ipAddress rfl
  · exact htext "user_agent" event.userAgent rfl
  · exact htext "metadata_json" event.metadataJSON rfl
  · exact hcreated

/-! ## Moving -/

/-- In this state, the message becomes this letter. It is moved with what was decoded of it, if anything. -/
def Moved (env : AuditEnv) (cause : String) (malformed : Bool) (w : AuditWorld)
    (message letter : StreamEntry StreamValues) : Prop :=
  ((moveToDLQ env message (decodeMessage env message.values).toOption cause malformed).run.eval w).2.dlq.entries =
    w.dlq.entries ++ [letter]

theorem readRetry_eval (eventID : String) (w : AuditWorld) :
    ∃ count, (readRetry eventID).run.eval w = (.ok count, w) := by
  unfold readRetry
  by_cases hblank : trimSpace eventID ≠ ""
  · rw [provided, if_pos hblank]
    cases hcount : w.retries.get w.now eventID with
    | none =>
      refine ⟨0, (eval_bind_of_ok (a := Except.ok none) (eval_lift_eq_ok.mpr ?_)).trans rfl⟩
      rw [← hcount]
      rfl
    | some count =>
      refine ⟨count, (eval_bind_of_ok (a := Except.ok (some count)) (eval_lift_eq_ok.mpr ?_)).trans rfl⟩
      rw [← hcount]
      rfl
  · rw [provided, if_neg hblank]
    exact ⟨0, rfl⟩

theorem retryFields_eval {fields : StreamValues} (h : Carries env values fields) (w : AuditWorld) :
    ∃ fields', Carries env values fields' ∧
      (retryFields (decodeMessage env values).toOption fields).run.eval w = (.ok fields', w) := by
  cases hevent : decodeMessage env values with
  | error e => exact ⟨fields, h, rfl⟩
  | ok event =>
    obtain ⟨count, hcount⟩ := readRetry_eval event.eventID w
    exact ⟨_, h.retried hevent (formatInt count), (eval_bind_of_ok hcount).trans rfl⟩

theorem clearRetry_dlq (eventID : String) (w : AuditWorld) : ((clearRetry eventID).run.eval w).2.dlq = w.dlq := by
  unfold clearRetry
  rw [whenever]
  split <;> rfl

theorem exists_moved (env : AuditEnv) (cause : String) (malformed : Bool) (w : AuditWorld)
    (message : StreamEntry StreamValues) :
    ∃ letter, Carries env message.values letter.values ∧ Moved env cause malformed w message letter := by
  obtain ⟨fields, hcarries, hfields⟩ :=
    retryFields_eval (carries_dlqFields env message (env.formatTime w.now) cause malformed) w
  refine ⟨⟨w.dlq.lastID.next w.now, fields⟩, hcarries, ?_⟩
  unfold Moved moveToDLQ
  rw [eval_bind_of_ok (eval_lift_eq_ok.mpr (show Audit.now.eval w = (w.now, w) from rfl)), eval_bind_of_ok hfields,
    eval_bind_of_ok (eval_call_eq_ok.mpr rfl), eval_bind_of_ok (eval_call_eq_ok.mpr rfl)]
  cases (decodeMessage env message.values).toOption with
  | none => rfl
  | some event =>
    rw [clearRetry_dlq]
    rfl

theorem Moved.carries {cause : String} {malformed : Bool}
    (h : Moved env cause malformed w message letter) :
    Carries env message.values letter.values := by
  obtain ⟨letter', hcarries, hmoved⟩ := exists_moved env cause malformed w message
  have hsame : letter = letter' := by
    rw [Moved, hmoved] at h
    simpa using h.symm
  rwa [hsame]

/-! ## Replaying -/

abbrev Named (letter : StreamEntry StreamValues) : Prop :=
  trimSpace (readStringField letter.values "event_id") ≠ "" ∧
    trimSpace (readStringField letter.values "event_type") ≠ ""

/-- In this state, the tool is told this range of the dead-letter stream, finds the letter in it, and
appends the message in its place. -/
def Replayed (start stop : StreamID) (count : Nat) (w : AuditWorld)
    (letter message : StreamEntry StreamValues) : Prop :=
  ∃ earlier later new more, w.dlq.range start stop count = earlier ++ letter :: later ∧
    ((replayAuditDLQ start stop count).run.eval w).2.stream.entries = w.stream.entries ++ (new ++ message :: more) ∧
    new.length = (earlier.filter (Named ·)).length

theorem filter_named (h : Named letter) (rest : List (StreamEntry StreamValues)) :
    (letter :: rest).filter (Named ·) = letter :: rest.filter (Named ·) :=
  List.filter_cons_of_pos (decide_eq_true h)

theorem replayMessages_eval (letters : List (StreamEntry StreamValues)) (w : AuditWorld) :
    ∃ new, ((replayMessages letters).run.eval w).2.stream.entries = w.stream.entries ++ new ∧
      new.map (·.values) = (letters.filter (Named ·)).map (replayValues ·.values) := by
  induction letters generalizing w with
  | nil => exact ⟨[], (List.append_nil _).symm, rfl⟩
  | cons letter rest ih =>
    unfold replayMessages
    by_cases hnamed : Named letter
    · rw [whenever, if_pos hnamed, eval_bind_of_ok (a := ()) (eval_attempt_eq_ok.mpr rfl)]
      obtain ⟨new, hnew, hvalues⟩ := ih
        { w with stream := w.stream.add w.now (replayValues letter.values) }
      refine ⟨⟨_, replayValues letter.values⟩ :: new, hnew.trans (List.append_assoc _ [_] _), ?_⟩
      rw [filter_named hnamed, List.map_cons, List.map_cons, hvalues]
    · rw [whenever, if_neg hnamed, eval_bind_of_ok (eval_pure_eq_ok.mpr ⟨rfl, rfl⟩)]
      obtain ⟨new, hnew, hvalues⟩ := ih w
      refine ⟨new, hnew, ?_⟩
      rw [List.filter_cons_of_neg (by simpa using hnamed), hvalues]

theorem replayAuditDLQ_eval (start stop : StreamID) (count : Nat) (w : AuditWorld) :
    (replayAuditDLQ start stop count).run.eval w = (replayMessages (w.dlq.range start stop count)).run.eval w :=
  eval_bind_of_ok (eval_call_eq_ok.mpr rfl)

theorem exists_replayed (hshown : letter ∈ w.dlq.range start stop count) (hnamed : Named letter) :
    ∃ message, Replayed start stop count w letter message := by
  obtain ⟨earlier, later, hrange⟩ := List.append_of_mem hshown
  obtain ⟨all, hall, hvalues⟩ := replayMessages_eval (w.dlq.range start stop count) w
  rw [hrange, List.filter_append, filter_named hnamed, List.map_append] at hvalues
  obtain ⟨new, rest, rfl, hnew, hrest⟩ := List.map_eq_append_iff.mp hvalues
  obtain ⟨message, more, rfl, -, -⟩ := List.map_eq_cons_iff.mp hrest
  refine ⟨message, earlier, later, new, more, hrange, ?_, ?_⟩
  · rw [replayAuditDLQ_eval, hall]
  · simpa using congrArg List.length hnew

theorem Replayed.decoded (h : Replayed start stop count w letter message) (hnamed : Named letter)
    (env : AuditEnv) : decodeMessage env message.values = decodeMessage env letter.values := by
  obtain ⟨earlier, later, new, more, hrange, hentries, hlength⟩ := h
  obtain ⟨all, hall, hvalues⟩ := replayMessages_eval (w.dlq.range start stop count) w
  rw [replayAuditDLQ_eval, hall] at hentries
  obtain rfl := List.append_cancel_left hentries
  rw [hrange, List.filter_append, filter_named hnamed, List.map_append, List.map_append] at hvalues
  obtain ⟨-, hrest⟩ := List.append_inj hvalues (by simpa using hlength)
  have hmessage : message.values = replayValues letter.values := (List.cons.inj hrest).1
  rw [hmessage, decodeMessage_replayValues]

/-! ## Rounds -/

/-- The message is moved to the dead-letter stream, and replayed as another one. -/
def Round (env : AuditEnv) (message message' : StreamEntry StreamValues) : Prop :=
  ∃ cause malformed w letter start stop count w',
    Moved env cause malformed w message letter ∧ Replayed start stop count w' letter message'

theorem named_of_decoded (h : Carries env message.values letter.values)
    (hevent : decodeMessage env message.values = .ok event) (htype : event.eventType ≠ "") :
    Named letter := by
  have hd := decodeMessage_eq_ok (h.decoded.trans hevent)
  refine ⟨?_, ?_⟩
  · rw [← hd.eventID]
    exact hd.eventID_ne
  · rwa [← hd.eventType]

theorem Round.decoded {message' : StreamEntry StreamValues} (h : Round env message message')
    (hevent : decodeMessage env message.values = .ok event) (htype : event.eventType ≠ "") :
    decodeMessage env message'.values = .ok event := by
  obtain ⟨cause, malformed, w, letter, start, stop, count, w', hmoved, hreplayed⟩ := h
  have hnamed := named_of_decoded hmoved.carries hevent htype
  rw [hreplayed.decoded hnamed, hmoved.carries.decoded, hevent]

/-- **An audit event survives.** If it has an id, a type and a time that is read back as it was written, its
message is decoded as the event, and so is every message it has become after any number of rounds. Another
round is always possible: moving such a message makes a letter of it, and the tool that is shown the letter
appends a message for it. -/
theorem event_survives {env : AuditEnv} {event : AuditEvent}
    (hid : trimSpace event.eventID ≠ "") (htype : trimSpace event.eventType ≠ "")
    (hclient : FitsInt64 event.clientID) (huser : FitsInt64 event.userID) (hsession : FitsInt64 event.sessionID)
    (hgiven : event.createdAt ≠ zeroTime) (htime : ReadsBack env event.createdAt)
    {now : Int} {message : StreamEntry StreamValues} (hmessage : message.values = streamFields env now event) :
    decodeMessage env message.values = .ok (cleaned event) ∧
    ∀ message', Relation.ReflTransGen (Round env) message message' →
      decodeMessage env message'.values = .ok (cleaned event) ∧
      ∀ cause malformed w, ∃ letter, Moved env cause malformed w message' letter ∧
        ∀ start stop count w', letter ∈ w'.dlq.range start stop count →
          ∃ message'', Replayed start stop count w' letter message'' := by
  have hfirst : decodeMessage env message.values = .ok (cleaned event) := by
    rw [hmessage]
    exact decodeMessage_streamFields now hid htype hclient huser hsession hgiven htime
  refine ⟨hfirst, fun message' hrounds => ?_⟩
  have hdecoded : decodeMessage env message'.values = .ok (cleaned event) := by
    induction hrounds with
    | refl => exact hfirst
    | tail _ hround ih => exact hround.decoded ih htype
  refine ⟨hdecoded, fun cause malformed w => ?_⟩
  obtain ⟨letter, hcarries, hmoved⟩ := exists_moved env cause malformed w message'
  exact ⟨letter, hmoved, fun start stop count w' hshown =>
    exists_replayed hshown (named_of_decoded hcarries hdecoded htype)⟩

/-! ## One round -/

def zuluEnv : AuditEnv := { plainEnv with
  formatTime := fun _ => "1970-01-01T00:00:10Z"
  parseTime := fun text => if text = "1970-01-01T00:00:10Z" then some (10 * second) else none }

def untidyEvent : AuditEvent :=
  ⟨0, " e1 ", "login\n", some (-3), some 7, "", some (2 ^ 63 - 1), "10.0.0.1", " ", "\t[]", 10 * second⟩

theorem untidyEvent_survives :
    ∃ message', Round zuluEnv ⟨.zero, streamFields zuluEnv 0 untidyEvent⟩ message' ∧
      decodeMessage zuluEnv message'.values =
        .ok ⟨0, "e1", "login", none, some 7, "", some (2 ^ 63 - 1), "10.0.0.1", "", "[]", 10 * second⟩ := by
  obtain ⟨-, hall⟩ := @event_survives zuluEnv untidyEvent (by decide +kernel) (by decide +kernel)
    (by simp [FitsInt64, untidyEvent]) (by simp [FitsInt64, untidyEvent]) (by simp [FitsInt64, untidyEvent])
    (by decide) ⟨by decide +kernel, by decide +kernel⟩ 0 ⟨.zero, streamFields zuluEnv 0 untidyEvent⟩ rfl
  obtain ⟨letter, hmoved, hreplay⟩ := (hall _ .refl).2 "connection refused" false (.empty 0)
  have hids : ((moveToDLQ zuluEnv ⟨.zero, streamFields zuluEnv 0 untidyEvent⟩
      (decodeMessage zuluEnv (streamFields zuluEnv 0 untidyEvent)).toOption "connection refused"
      false).run.eval (.empty 0)).2.dlq.entries.map (·.id) = [⟨0, 1⟩] := by decide +kernel
  rw [hmoved] at hids
  have hid : letter.id = ⟨0, 1⟩ := List.singleton_injective hids
  obtain ⟨message', hreplayed⟩ := hreplay ⟨0, 1⟩ ⟨0, 1⟩ 1 _ (by
    rw [LogStream.range, hmoved]
    show letter ∈ ([letter].filter _).take 1
    rw [List.filter_cons_of_pos (by rw [hid]; decide)]
    exact List.mem_singleton_self letter)
  have hround : Round zuluEnv ⟨.zero, streamFields zuluEnv 0 untidyEvent⟩ message' :=
    ⟨_, _, _, letter, _, _, _, _, hmoved, hreplayed⟩
  exact ⟨message', hround, ((hall message' (.single hround)).1).trans (by decide +kernel)⟩

end IdpServer.Laws.Audit
