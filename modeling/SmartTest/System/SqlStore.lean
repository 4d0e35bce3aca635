import SmartTest.Run.EventLog
import SmartTest.Run.SqlRepository
import SmartTest.System.Artifacts

/-!
# Events and artifacts on SQL

`append_event` and `create_artifact` of `services/api/sql_repository.py` on the tables
`run_events` and `run_artifacts`. Runs and attempts are those that the repository in memory
has. A column of times keeps the instant it is given, as SQLite's do and MySQL's, of whole
seconds, do not, and the payload column keeps the value.
-/

open SmartTest.Lib SmartTest.Run

namespace SmartTest.System

/-! ## Rows -/

structure EventModel where
  cursor : Nat
  eventId : UUID
  runId : UUID
  attemptId : UUID
  engine : Engine
  seq : Nat
  occurredAt : Instant
  type : EventType
  payload : Dict String Json

/-- `_event_to_record`. -/
def EventModel.toRecord (model : EventModel) : EventRecord :=
  ⟨model.cursor, model.eventId, model.runId, model.attemptId, model.engine, model.seq, model.occurredAt, model.type,
    model.payload⟩

structure ArtifactModel where
  id : UUID
  runId : UUID
  attemptId : UUID
  kind : String
  name : String
  contentType : String
  sizeBytes : Nat
  storageKey : String
  createdAt : Instant

def ArtifactModel.of (record : ArtifactRecord) : ArtifactModel :=
  ⟨record.id, record.runId, record.attemptId, record.kind, record.name, record.contentType, record.sizeBytes,
    record.storageKey, record.createdAt⟩

/-- `_artifact_to_record`. -/
def ArtifactModel.toRecord (model : ArtifactModel) : ArtifactRecord :=
  ⟨model.id, model.runId, model.attemptId, model.kind, model.name, model.contentType, model.sizeBytes,
    model.storageKey, model.createdAt⟩

/-- What differs between databases: which rows the columns hold, and whether an insert that fails uses up a number
of the cursor's counter. -/
structure Database where
  holdsEvent : EventModel → Bool
  holdsArtifact : ArtifactModel → Bool
  skips : Bool

/-- The tables `test_runs` and `run_attempts` at the time of a call. -/
structure Directory where
  runs : Dict UUID RunRecord
  attempts : Dict UUID AttemptRecord

structure SqlStore where
  events : List EventModel
  nextCursor : Nat
  artifacts : List ArtifactModel

def dataError : Exn := ⟨.other "DataError", "a value does not fit its column"⟩

def missingAttempt (attemptId : UUID) : Exn := ⟨.attemptNotFound, "attempt " ++ attemptId.text ++ " was not found"⟩

def missingRun (runId : UUID) : Exn := ⟨.runNotFound, "run " ++ runId.text ++ " was not found"⟩

namespace SqlStore

variable (db : Database) (directory : Directory) (store : SqlStore)

def empty : SqlStore := ⟨[], 1, []⟩

/-! ## Events -/

/-- `_get_event_by_id`. -/
def getEventById (eventId : UUID) : Option EventModel := store.events.find? (·.eventId = eventId)

/-- `_resolve_event`. -/
def resolveEvent (model : EventModel) (event : EventEnvelope) : Except Exn EventRecord :=
  if RunRepository.eventMatches model.toRecord event then .ok model.toRecord
  else .error ⟨.eventConflict, "event " ++ event.eventId.text ++ " has conflicting contents"⟩

/-- `uq_run_events_event_id` or `uq_run_events_attempt_seq`. -/
def eventTaken (event : EventEnvelope) : Bool :=
  store.events.any fun other =>
    other.eventId = event.eventId || (other.attemptId = event.attemptId && other.seq = event.seq)

def eventModel (event : EventEnvelope) : EventModel :=
  ⟨store.nextCursor, event.eventId, event.runId, event.attemptId, event.engine, event.seq, event.occurredAt, event.type,
    event.payload⟩

/-- An insert that breaks a unique constraint, and the second transaction. -/
def afterConflict (event : EventEnvelope) : Except Exn EventRecord × SqlStore :=
  let store := if db.skips then { store with nextCursor := store.nextCursor + 1 } else store
  match store.getEventById event.eventId with
  | some existing => (resolveEvent existing event, store)
  | none => (.error ⟨.eventConflict, "attempt " ++ event.attemptId.text ++ " already has event sequence "
      ++ toString event.seq⟩, store)

def appendEvent (event : EventEnvelope) : Except Exn EventRecord × SqlStore :=
  match store.getEventById event.eventId with
  | some existing => (resolveEvent existing event, store)
  | none =>
    match directory.attempts.get? event.attemptId with
    | none => (.error (missingAttempt event.attemptId), store)
    | some attempt =>
      if attempt.runId ≠ event.runId then
        (.error ⟨.eventConflict, "event run_id does not match its attempt"⟩, store)
      else match directory.runs.get? event.runId with
        | none => (.error (missingRun event.runId), store)
        | some run =>
          if run.engine ≠ event.engine then
            (.error ⟨.eventConflict, "event engine does not match its run"⟩, store)
          else if store.eventTaken event then store.afterConflict db event
          else if !db.holdsEvent (store.eventModel event) then (.error dataError, store)
          else ((.ok (store.eventModel event).toRecord),
            { store with events := store.events ++ [store.eventModel event], nextCursor := store.nextCursor + 1 })

/-- `list_events`. -/
def listEvents (runId : UUID) (after : Nat) : Except Exn (List EventRecord) :=
  match directory.runs.get? runId with
  | none => .error (missingRun runId)
  | some _ => .ok (((store.events.filter fun e => e.runId = runId && e.cursor > after).insertionSort
      fun a b => a.cursor ≤ b.cursor).map EventModel.toRecord)

/-! ## Artifacts -/

/-- `_resolve_artifact`, which looks at every field but the time of creation. -/
def resolveArtifact (model : ArtifactModel) (expected : ArtifactRecord) : Except Exn ArtifactRecord :=
  let record := model.toRecord
  if record.id ≠ expected.id ∨ record.runId ≠ expected.runId ∨ record.attemptId ≠ expected.attemptId ∨
      record.kind ≠ expected.kind ∨ record.name ≠ expected.name ∨ record.contentType ≠ expected.contentType ∨
      record.sizeBytes ≠ expected.sizeBytes ∨ record.storageKey ≠ expected.storageKey then
    .error (conflictError ("artifact " ++ expected.id.text ++ " has conflicting contents"))
  else .ok record

def createArtifact (expected : ArtifactRecord) : Except Exn ArtifactRecord × SqlStore :=
  match store.artifacts.find? (·.id = expected.id) with
  | some existing => (resolveArtifact existing expected, store)
  | none =>
    match directory.attempts.get? expected.attemptId with
    | none => (.error (missingAttempt expected.attemptId), store)
    | some attempt =>
      if attempt.runId ≠ expected.runId then
        (.error (conflictError "artifact run_id does not match its attempt"), store)
      -- The foreign key of the run: the second transaction finds no artifact and raises the conflict.
      else if (directory.runs.get? expected.runId).isNone then (.error SqlRunRepository.integrityError, store)
      else if !db.holdsArtifact (.of expected) then (.error dataError, store)
      else (.ok (ArtifactModel.of expected).toRecord,
        { store with artifacts := store.artifacts ++ [.of expected] })

/-- The order of `list_artifacts`. -/
def artifactsInOrder (records : List ArtifactRecord) : List ArtifactRecord :=
  records.insertionSort fun a b => a.createdAt < b.createdAt ∨ a.createdAt = b.createdAt ∧ a.id.text ≤ b.id.text

/-- `list_artifacts`. -/
def listArtifacts (runId : UUID) : Except Exn (List ArtifactRecord) :=
  match directory.runs.get? runId with
  | none => .error (missingRun runId)
  | some _ => .ok (artifactsInOrder ((store.artifacts.filter (·.runId = runId)).map ArtifactModel.toRecord))

end SqlStore

/-! ## The store in memory -/

/-- The store in memory with the runs and attempts of the time of a call. -/
def ArtifactWorld.at (w : ArtifactWorld) (directory : Directory) : ArtifactWorld :=
  { w with runs := { w.runs with runs := directory.runs, attempts := directory.attempts } }

/-- `list_artifacts` of the repository in memory. -/
def ArtifactWorld.listArtifacts (w : ArtifactWorld) (runId : UUID) : Except Exn (List ArtifactRecord) := do
  let _ ← w.runs.getLocked runId
  return SqlStore.artifactsInOrder (w.artifacts.values.filter (·.runId = runId))

/-! ## Call by call -/

inductive StoreCall where
  | appendEvent (event : EventEnvelope)
  | createArtifact (record : ArtifactRecord)

/-- What a call returns, where it does. -/
inductive StoreAnswer where
  | event (record : EventRecord)
  | artifact (record : ArtifactRecord)
  | failed

def eventAnswer : Except Exn EventRecord → StoreAnswer
  | .ok record => .event record
  | .error _ => .failed

def artifactAnswer : Except Exn ArtifactRecord → StoreAnswer
  | .ok record => .artifact record
  | .error _ => .failed

def ArtifactWorld.call (directory : Directory) (w : ArtifactWorld) : StoreCall → StoreAnswer × ArtifactWorld
  | .appendEvent event =>
    match (w.at directory).runs.appendEvent event with
    | .ok (record, runs) => (.event record, { w with runs := runs })
    | .error _ => (.failed, w.at directory)
  | .createArtifact record =>
    match (w.at directory).createArtifact record with
    | .ok (stored, w) => (.artifact stored, w)
    | .error _ => (.failed, w.at directory)

def SqlStore.call (db : Database) (directory : Directory) (store : SqlStore) : StoreCall → StoreAnswer × SqlStore
  | .appendEvent event =>
    let (answer, store) := store.appendEvent db directory event
    (eventAnswer answer, store)
  | .createArtifact record =>
    let (answer, store) := store.createArtifact db directory record
    (artifactAnswer answer, store)

/-- What a store answers to one call after the other and what it is then. -/
def runCalls {S : Type} (call : Directory → S → StoreCall → StoreAnswer × S) :
    S → List (Directory × StoreCall) → List StoreAnswer × S
  | store, [] => ([], store)
  | store, (directory, next) :: rest =>
    let (answer, store) := call directory store next
    let (answers, store) := runCalls call store rest
    (answer :: answers, store)

end SmartTest.System
