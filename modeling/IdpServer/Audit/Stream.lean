import IdpServer.Audit.Events

/-!
# Audit.Stream — audit events on their way to the table

A request appends its event to a stream that consumers read as one group. What cannot be decoded or inserted
goes to the dead-letter stream, from which an operator may put it back.
-/

namespace IdpServer.Audit

open Conc Conc.Prog Go Store

/-! ## Fields -/

def StreamValues.ofList (fields : List (String × String)) : StreamValues := fun key => fields.lookup key

def StreamValues.set (values : StreamValues) (key text : String) : StreamValues :=
  fun k => if k = key then some text else values k

def StreamValues.over (values base : StreamValues) : StreamValues := fun key => (values key).or (base key)

def readStringField (values : StreamValues) (key : String) : String := (values key).getD ""

/-! ## Publishing -/

def ttlSeconds (value : Int) : Int := if value ≤ 0 then 86400 else value.tdiv second

def formatNullableInt64 (value : Option Int) : String :=
  match positive value with
  | none => ""
  | some id => formatInt id

def formatCreatedAt (env : AuditEnv) (now value : Int) : String :=
  if value = zeroTime then env.formatTime now else env.formatTime value

/-- `buildStreamArgs`, as the script makes fields of them. -/
def streamFields (env : AuditEnv) (now : Int) (event : AuditEvent) : StreamValues := .ofList [
  ("event_id", trimSpace event.eventID),
  ("event_type", trimSpace event.eventType),
  ("client_id", formatNullableInt64 event.clientID),
  ("user_id", formatNullableInt64 event.userID),
  ("subject", trimSpace event.subject),
  ("session_id", formatNullableInt64 event.sessionID),
  ("ip_address", trimSpace event.ipAddress),
  ("user_agent", trimSpace event.userAgent),
  ("metadata_json", trimSpace event.metadataJSON),
  ("created_at", formatCreatedAt env now event.createdAt)]

/-- `enqueueAuditEventScript`: nothing is appended while the event id is taken. A time to live of no
whole second is an error. -/
def enqueueAuditEvent (dedupKey eventID : String) (ttl : Int) (values : StreamValues) (w : AuditWorld) :
    Bool × AuditWorld :=
  if ttl ≤ 0 then (false, w)
  else if w.dedup.has w.now dedupKey then (true, w)
  else (true, { w with
    dedup := w.dedup.put dedupKey eventID (some (w.now + ttl * second))
    stream := w.stream.add w.now values })

def publish (env : AuditEnv) (event : AuditEvent) : AuditService Unit := do
  let now ← Audit.now
  let values := streamFields env now event
  let done ← call .redis <| atom (.enqueueAuditEvent values) <|
    enqueueAuditEvent event.eventID (trimSpace event.eventID) (ttlSeconds env.dedupTTL) values
  require (done = true) .redis

def asyncCreate (env : AuditEnv) (uuid : String) (event : AuditEvent) : AuditService Unit :=
  if env.syncWrite then call .store (create env uuid (ensureEventID uuid event))
  else publish env (ensureEventID uuid event)

/-! ## Decoding -/

def parseOptionalInt64 (env : AuditEnv) (values : StreamValues) (key : String) : Except String (Option Int) :=
  let raw := trimSpace (readStringField values key)
  if raw = "" then .ok none
  else
    match parseInt raw with
    | some value => .ok (some value)
    | none => .error ("parse " ++ key ++ ": " ++ env.parseIntError raw)

def parseCreatedAt (env : AuditEnv) (values : StreamValues) : Except String Int :=
  let raw := trimSpace (readStringField values "created_at")
  if raw = "" then .ok zeroTime
  else
    match env.parseTime raw with
    | some t => .ok t
    | none => .error ("parse created_at: " ++ env.parseTimeError raw)

@[irreducible] def decodeMessage (env : AuditEnv) (values : StreamValues) : Except String AuditEvent :=
  let text := fun key => trimSpace (readStringField values key)
  if text "event_id" = "" ∨ text "event_type" = "" then .error "missing required audit stream fields"
  else do
    let clientID ← parseOptionalInt64 env values "client_id"
    let userID ← parseOptionalInt64 env values "user_id"
    let sessionID ← parseOptionalInt64 env values "session_id"
    let createdAt ← parseCreatedAt env values
    return {
      id := 0
      eventID := text "event_id"
      eventType := text "event_type"
      clientID := clientID
      userID := userID
      subject := text "subject"
      sessionID := sessionID
      ipAddress := text "ip_address"
      userAgent := text "user_agent"
      metadataJSON := text "metadata_json"
      createdAt := createdAt }

/-! ## The consumer -/

structure ConsumerConfig where
  consumer : String
  batchSize : Int
  reclaimIdle : Int
  retryTTL : Int
  maxRetryCount : Int
  deriving DecidableEq, Repr

def normalizeConsumerConfig (cfg : ConsumerConfig) : ConsumerConfig where
  consumer := cfg.consumer
  batchSize := if cfg.batchSize ≤ 0 then 16 else cfg.batchSize
  reclaimIdle := if cfg.reclaimIdle ≤ 0 then 30 * second else cfg.reclaimIdle
  retryTTL := if cfg.retryTTL ≤ 0 then 86400 * second else cfg.retryTTL
  maxRetryCount := if cfg.maxRetryCount ≤ 0 then 10 else cfg.maxRetryCount

def incrRetry (eventID : String) : AuditAction Int :=
  atom (.incrRetry eventID) fun w =>
    let count := (w.retries.get w.now eventID).getD 0 + 1
    (count, { w with retries := w.retries.alter w.now eventID fun _ => count })

def expireRetry (eventID : String) (ttl : Int) : AuditAction Unit :=
  update (.expireRetry eventID) fun w =>
    { w with retries := w.retries.expireCommand w.now eventID (durationSeconds ttl) }

def incrementRetry (cfg : ConsumerConfig) (eventID : String) : AuditService Int :=
  provided (trimSpace eventID ≠ "") cfg.maxRetryCount do
    match ← liftM (call AuditError.redis (incrRetry eventID)).run with
    | .error _ => return cfg.maxRetryCount
    | .ok count =>
      whenever (0 < cfg.retryTTL) (attempt (expireRetry eventID cfg.retryTTL))
      return count

def getRetry (eventID : String) : AuditAction (Option Int) := Prog.read fun w => w.retries.get w.now eventID

def readRetry (eventID : String) : AuditService Int :=
  provided (trimSpace eventID ≠ "") 0 do
    match ← liftM (call AuditError.redis (getRetry eventID)).run with
    | .ok (some count) => return count
    | _ => return 0

def clearRetry (eventID : String) : AuditService Unit :=
  whenever (trimSpace eventID ≠ "") <| attempt <|
    update (.delRetry eventID) fun w => { w with retries := w.retries.del eventID }

def xack (id : StreamID) : AuditAction Unit :=
  update (.ack id) fun w => { w with stream := w.stream.ack id }

def dlqFields (message : StreamEntry StreamValues) (failedAt cause : String) (malformed : Bool) : StreamValues :=
  message.values.over <| .ofList [
    ("stream_message_id", message.id.text),
    ("failed_at", failedAt),
    ("error", trimSpace cause),
    ("malformed", if malformed then "true" else "false")]

def retryFields (event : Option AuditEvent) (fields : StreamValues) : AuditService StreamValues :=
  match event with
  | none => pure fields
  | some event => do
    let count ← readRetry event.eventID
    return (fields.set "event_id" event.eventID).set "retry_count" (formatInt count)

def moveToDLQ (env : AuditEnv) (message : StreamEntry StreamValues) (event : Option AuditEvent) (cause : String)
    (malformed : Bool) : AuditService Unit := do
  let now ← Audit.now
  let fields ← retryFields event (dlqFields message (env.formatTime now) cause malformed)
  call .redis (update (.addDLQ fields) fun w => { w with dlq := w.dlq.add w.now fields })
  call .redis (xack message.id)
  match event with
  | none => return
  | some event => clearRetry event.eventID

/-- After an insert that failed: the message stays pending, unless it has failed too often. -/
def persistFailed (env : AuditEnv) (cfg : ConsumerConfig) (message : StreamEntry StreamValues)
    (event : AuditEvent) : AuditService Unit := do
  let retryCount ← incrementRetry cfg event.eventID
  whenever (cfg.maxRetryCount ≤ retryCount) (moveToDLQ env message (some event) env.storeError false)

def persisted (message : StreamEntry StreamValues) (event : AuditEvent) : AuditService Unit := do
  clearRetry event.eventID
  call .redis (xack message.id)

def processMessage (env : AuditEnv) (cfg : ConsumerConfig) (uuid : String)
    (message : StreamEntry StreamValues) : AuditService Unit :=
  match decodeMessage env message.values with
  | .error cause => moveToDLQ env message none ("decode message: " ++ cause) true
  | .ok event => do
    match ← liftM (call AuditError.store (create env uuid event)).run with
    | .error _ => persistFailed env cfg message event
    | .ok _ => persisted message event

def processMessages (env : AuditEnv) (cfg : ConsumerConfig) (uuid : String) :
    List (StreamEntry StreamValues) → AuditAction Unit
  | [] => pure ()
  | message :: rest => do
    let _ ← (processMessage env cfg uuid message).run
    processMessages env cfg uuid rest

def ensureGroup : AuditAction Unit :=
  update .createGroup fun w => { w with stream := w.stream.createGroup }

def readGroup (cfg : ConsumerConfig) : AuditAction (Option (List (StreamEntry StreamValues))) :=
  atom (.readGroup cfg.consumer) fun w =>
    let answer := w.stream.readGroup w.now cfg.consumer cfg.batchSize.toNat
    (answer.1, { w with stream := answer.2 })

def readLoop (env : AuditEnv) (cfg : ConsumerConfig) (uuid : String) : Nat → AuditAction Unit
  | 0 => pure ()
  | rounds + 1 => do
    match ← (call AuditError.redis (readGroup cfg)).run with
    | .ok (some messages) => processMessages env cfg uuid messages
    | _ => pure ()
    readLoop env cfg uuid rounds

def autoClaim (cfg : ConsumerConfig) (start : StreamID) :
    AuditAction (Option (List (StreamEntry StreamValues) × StreamID)) :=
  atom (.autoClaim cfg.consumer start) fun w =>
    let answer := w.stream.autoClaim w.now cfg.consumer cfg.reclaimIdle start cfg.batchSize.toNat
    (answer.1, { w with stream := answer.2 })

def reclaim (env : AuditEnv) (cfg : ConsumerConfig) (uuid : String) : Nat → StreamID → AuditAction Unit
  | 0, _ => pure ()
  | rounds + 1, start => do
    match ← (call AuditError.redis (autoClaim cfg start)).run with
    | .ok (some (messages, next)) =>
      if messages.isEmpty then pure ()
      else
        processMessages env cfg uuid messages
        if next = .zero then pure () else reclaim env cfg uuid rounds next
    | _ => pure ()

def reclaimLoop (env : AuditEnv) (cfg : ConsumerConfig) (uuid : String) : List Nat → AuditAction Unit
  | [] => pure ()
  | rounds :: rest => do
    reclaim env cfg uuid rounds .zero
    reclaimLoop env cfg uuid rest

/-! ## Replaying dead letters -/

def eventFields : List String :=
  ["event_id", "event_type", "client_id", "user_id", "subject", "session_id", "ip_address", "user_agent",
    "metadata_json", "created_at"]

def replayValues (values : StreamValues) : StreamValues :=
  .ofList (eventFields.map fun key => (key, readStringField values key))

def replayMessages : List (StreamEntry StreamValues) → AuditService Unit
  | [] => pure ()
  | message :: rest => do
    whenever (trimSpace (readStringField message.values "event_id") ≠ "" ∧
        trimSpace (readStringField message.values "event_type") ≠ "") <|
      attempt <| update (.replay (replayValues message.values)) fun w =>
        { w with stream := w.stream.add w.now (replayValues message.values) }
    replayMessages rest

def replayAuditDLQ (start stop : StreamID) (count : Nat) : AuditService Unit := do
  let messages ← call .redis (Prog.read (·.dlq.range start stop count))
  replayMessages messages

/-! ## What runs -/

/-- A request that makes an event, a part of a consumer, or the tool of an operator. -/
inductive AuditTask where
  | create (uuid : String) (event : AuditEvent)
  | ensureGroup
  | readLoop (cfg : ConsumerConfig) (uuid : String) (rounds : Nat)
  | reclaimLoop (cfg : ConsumerConfig) (uuid : String) (ticks : List Nat)
  | replay (start stop : StreamID) (count : Nat)

def AuditTask.code (env : AuditEnv) : AuditTask → AuditService Unit
  | .create uuid event => asyncCreate env uuid event
  | .ensureGroup => call .redis Audit.ensureGroup
  | .readLoop cfg uuid rounds => liftM (Audit.readLoop env (normalizeConsumerConfig cfg) uuid rounds)
  | .reclaimLoop cfg uuid ticks => liftM (Audit.reclaimLoop env (normalizeConsumerConfig cfg) uuid ticks)
  | .replay start stop count => replayAuditDLQ start stop count

end IdpServer.Audit
