import Mathlib.Data.List.Sort
import IdpServer.Conc.Prog
import IdpServer.Go.Text
import IdpServer.Go.Time
import IdpServer.Store.Stream

/-!
# Audit.Events — the table of audit events

An audit event, the row it becomes, and two statements of the repository: the list, and the insert, which
updates the row of an event id that is there and does not name `created_at`.
-/

namespace IdpServer.Audit

open Conc Go Store

structure AuditEvent where
  id : Int
  eventID : String
  eventType : String
  clientID : Option Int
  userID : Option Int
  subject : String
  sessionID : Option Int
  ipAddress : String
  userAgent : String
  metadataJSON : String
  createdAt : Int
  deriving DecidableEq, Repr

structure AuditRow where
  id : Int
  eventID : String
  eventType : String
  clientID : Option Int
  userID : Option Int
  subject : String
  sessionID : Option Int
  ipAddress : String
  userAgent : String
  metadataJSON : Option String
  createdAt : Int
  deriving DecidableEq, Repr

/-- What the code takes from its surroundings. -/
structure AuditEnv where
  sqlEq : String → String → Bool
  sqlLike : String → String → Bool
  jsonColumn : String → String
  formatTime : Int → String
  parseTime : String → Option Int
  parseIntError : String → String
  parseTimeError : String → String
  storeError : String
  syncWrite : Bool
  dedupTTL : Int

/-- The fields of a stream entry: a map from names to texts. -/
abbrev StreamValues := String → Option String

/-- What the events go through. -/
structure AuditWorld where
  now : Int
  stream : LogStream StreamValues
  dlq : LogStream StreamValues
  dedup : Keyspace String String
  retries : Keyspace String Int
  rows : List AuditRow
  nextID : Int

def AuditWorld.empty (now : Int) : AuditWorld := ⟨now, .empty, .empty, .empty, .empty, [], 1⟩

/-- The commands, as a run shows them. -/
inductive AuditLabel where
  | enqueueAuditEvent (values : StreamValues)
  | createGroup
  | readGroup (consumer : String)
  | autoClaim (consumer : String) (start : StreamID)
  | ack (id : StreamID)
  | addDLQ (values : StreamValues)
  | replay (values : StreamValues)
  | upsert (event : AuditEvent)
  | incrRetry (eventID : String)
  | expireRetry (eventID : String)
  | delRetry (eventID : String)

abbrev AuditAction := Prog AuditWorld AuditLabel

/-- The errors that are logged, or returned to a request. -/
inductive AuditError where
  | redis
  | store
  deriving DecidableEq, Repr

abbrev AuditService := ExceptT AuditError AuditAction

def now : AuditAction Int := Prog.read (·.now)

/-! ## The insert -/

def positive (id : Option Int) : Option Int := id.filter (0 < ·)

def auditRow (env : AuditEnv) (id : Int) (eventID : String) (createdAt : Int) (event : AuditEvent) :
    AuditRow where
  id := id
  eventID := eventID
  eventType := trimSpace event.eventType
  clientID := positive event.clientID
  userID := positive event.userID
  subject := trimSpace event.subject
  sessionID := positive event.sessionID
  ipAddress := trimSpace event.ipAddress
  userAgent := trimSpace event.userAgent
  metadataJSON := if trimSpace event.metadataJSON = "" then none else some (env.jsonColumn event.metadataJSON)
  createdAt := createdAt

def AuditRow.isOf (env : AuditEnv) (eventID : String) (row : AuditRow) : Bool := env.sqlEq row.eventID eventID

/-- `create.sql`. The row of an event id that is there keeps its id, its event id and its date; a new one
is dated `CURRENT_TIMESTAMP`. -/
def AuditWorld.upsert (env : AuditEnv) (event : AuditEvent) (w : AuditWorld) : AuditWorld :=
  let eventID := trimSpace event.eventID
  let rows :=
    if w.rows.any (·.isOf env eventID) then
      w.rows.map fun row => if row.isOf env eventID then auditRow env row.id row.eventID row.createdAt event
        else row
    else w.rows ++ [auditRow env w.nextID eventID (wholeSeconds w.now) event]
  { w with rows := rows, nextID := w.nextID + 1 }

def ensureEventID (uuid : String) (event : AuditEvent) : AuditEvent :=
  if trimSpace event.eventID = "" then { event with eventID := uuid } else event

def create (env : AuditEnv) (uuid : String) (event : AuditEvent) : AuditAction Unit :=
  Prog.update (.upsert (ensureEventID uuid event)) (·.upsert env (ensureEventID uuid event))

/-! ## The list -/

structure ListAuditEventsInput where
  limit : Int
  offset : Int
  eventType : String
  userID : Option Int
  subject : String
  fromTime : Option Int
  toTime : Option Int
  deriving DecidableEq, Repr

def ListAuditEventsInput.matches (env : AuditEnv) (input : ListAuditEventsInput) (row : AuditRow) : Bool :=
  (nonblank input.eventType).all (env.sqlEq row.eventType ·) &&
  (positive input.userID).all (row.userID = some ·) &&
  (nonblank input.subject).all (fun subject => env.sqlLike row.subject ("%" ++ subject ++ "%")) &&
  input.fromTime.all (· ≤ row.createdAt) && input.toTime.all (row.createdAt ≤ ·)

def listedBefore (a b : AuditRow) : Prop :=
  b.createdAt < a.createdAt ∨ b.createdAt = a.createdAt ∧ b.id ≤ a.id

instance : DecidableRel listedBefore := fun a b =>
  inferInstanceAs (Decidable (b.createdAt < a.createdAt ∨ b.createdAt = a.createdAt ∧ b.id ≤ a.id))

def listLimit (limit : Int) : Nat := if limit ≤ 0 then 100 else (min limit 500).toNat

def rowEvent (row : AuditRow) : AuditEvent where
  id := row.id
  eventID := trimSpace row.eventID
  eventType := row.eventType
  clientID := row.clientID
  userID := row.userID
  subject := row.subject
  sessionID := row.sessionID
  ipAddress := row.ipAddress
  userAgent := row.userAgent
  metadataJSON := trimSpace (row.metadataJSON.getD "")
  createdAt := row.createdAt

def list (env : AuditEnv) (rows : List AuditRow) (input : ListAuditEventsInput) : List AuditEvent :=
  ((((rows.filter (input.matches env)).insertionSort listedBefore).drop input.offset.toNat).take
    (listLimit input.limit)).map rowEvent

end IdpServer.Audit
