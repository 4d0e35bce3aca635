import SmartTest.Environment.Crypto
import SmartTest.Lib.Except
import SmartTest.Lib.JsonLines
import SmartTest.Run.Frozen

/-!
# The runner transport

`runner/container_entrypoint.py` writes envelopes line by line, and the `consume` callback
of `services/docker_executor.py` reads them. How pydantic spells and reads numbers, UUIDs
and instants is the parameter `Codec`. The interpreter's cap on the digits of an integer,
which a deployment sets, is taken as off.
-/

open SmartTest.Lib SmartTest.Run

namespace SmartTest.Runner

def MAX_LINE : Nat := 1048576

/-- pydantic's and Python's texts of floats and instants, and what `model_validate` takes for an integer,
a UUID and an instant. -/
structure Codec where
  floatText : Rat → List Char
  readFloat : List Char → Option Rat
  instantText : Instant → String
  readInt : Json → Option Int
  readUuid : Json → Option UUID
  readInstant : Json → Option Instant

/-- What is written is read back. `isFloat` are the finite floats. -/
structure Codec.Faithful (codec : Codec) (isFloat : Rat → Prop) : Prop where
  spelling : (utf8Spelling codec.floatText).Faithful codec.readFloat isFloat
  int : ∀ n, codec.readInt (.int n) = some n
  uuid : ∀ id : UUID, id.Spelled → codec.readUuid (.str id.text) = some id
  instant : ∀ t, codec.readInstant (.str (codec.instantText t)) = some t

/-! ## Envelopes as Python holds them -/

/-- The fields of `Envelope`. -/
structure Header where
  runId : UUID
  attemptId : UUID
  engine : Engine

/-- An `EventEnvelope` with its frozen payload. -/
structure EventObject extends Header where
  eventId : UUID
  seq : Nat
  occurredAt : Instant
  type : EventType
  payload : PyValue

/-- A `ResultEnvelope` with its frozen summary. -/
structure ResultObject extends Header where
  outcome : ResultOutcome
  completedAt : Instant
  durationMs : Nat
  summary : PyValue

/-- `FrozenMapping(values)`. -/
def freezeMapping (values : List (String × Json)) : PyValue := (PyValue.plain (.obj values)).deepFreeze

def eventObject (event : EventEnvelope) : EventObject where
  runId := event.runId
  attemptId := event.attemptId
  engine := event.engine
  eventId := event.eventId
  seq := event.seq
  occurredAt := event.occurredAt
  type := event.type
  payload := freezeMapping event.payload.entries

def resultObject (result : ResultEnvelope) : ResultObject where
  runId := result.runId
  attemptId := result.attemptId
  engine := result.engine
  outcome := result.outcome
  completedAt := result.completedAt
  durationMs := result.durationMs
  summary := freezeMapping result.summary.entries

/-! ## `model_dump_json` -/

variable (codec : Codec)

def Header.dump (header : Header) : List (String × Json) :=
  [("protocol_version", .str "1.0"), ("run_id", .str header.runId.text),
   ("attempt_id", .str header.attemptId.text), ("engine", .str header.engine.value)]

/-- The payload is thawed for JSON. -/
def EventObject.dump (event : EventObject) : Option Json := do
  let payload ← event.payload.deepThaw.json?
  return .obj (event.toHeader.dump ++
    [("event_id", .str event.eventId.text), ("seq", .int event.seq),
     ("occurred_at", .str (codec.instantText event.occurredAt)), ("type", .str event.type.value),
     ("payload", payload)])

def ResultObject.dump (result : ResultObject) : Option Json := do
  let summary ← result.summary.deepThaw.json?
  return .obj (result.toHeader.dump ++
    [("outcome", .str result.outcome.value), ("completed_at", .str (codec.instantText result.completedAt)),
     ("duration_ms", .int result.durationMs), ("summary", summary)])

/-- The compact text of `model_dump_json`. -/
def dumpJson (dumped : Json) : List Char := dumped.write (utf8Spelling codec.floatText)

/-! ## `_write` -/

/-- A line without its break. -/
def transportLine (kind : String) (data : List Char) : List Char :=
  ['\x7b', '\x22', 'k', 'i', 'n', 'd', '\x22', ':'] ++ (Json.str kind).write Environment.flatSpelling ++
    [',', '\x22', 'd', 'a', 't', 'a', '\x22', ':'] ++ data ++ ['\x7d']

def writeEvent (event : EventObject) : Option (List Char) :=
  (event.dump codec).map fun dumped => transportLine "event" (dumpJson codec dumped)

def writeResult (result : ResultObject) : Option (List Char) :=
  (result.dump codec).map fun dumped => transportLine "result" (dumpJson codec dumped)

/-- The lines of a run of the container. -/
def writeLines (events : List EventObject) (result : ResultObject) : Option (List (List Char)) := do
  let events ← events.mapM (writeEvent codec)
  let result ← writeResult codec result
  return events ++ [result]

/-- What is on standard output. -/
def standardOutput (lines : List (List Char)) : List Char := lines.flatMap (· ++ ['\n'])

/-! ## `model_validate` -/

/-- pydantic reports every field; here the first one. -/
def invalid (field : String) : Exn := ⟨.other "ValidationError", field⟩

def fieldOr {α : Type} (fields : List (String × Json)) (name : String) (read : Json → Option α)
    (absent : Option α) : Except Exn α :=
  match fields.lookup name with
  | some value => (read value).elim (.error (invalid name)) .ok
  | none => absent.elim (.error (invalid name)) .ok

/-- A member of an enumeration, by its value. -/
def readEnum {α : Type} (members : List α) (value : α → String) : Json → Option α
  | .str text => members.find? (value · = text)
  | _ => none

def readEngine : Json → Option Engine := readEnum [.http, .pytest, .playwright] Engine.value

def readEventType : Json → Option EventType :=
  readEnum [.started, .progress, .log, .assertion, .extraction, .screenshot, .error, .heartbeat, .artifact,
    .finished] EventType.value

def readOutcome : Json → Option ResultOutcome :=
  readEnum [.succeeded, .failed, .cancelled, .timedOut, .infraError] ResultOutcome.value

/-- `int` with `ge=0`. -/
def readNat (value : Json) : Option Nat :=
  (codec.readInt value).bind fun n => if 0 ≤ n then some n.toNat else none

/-- `ImmutableMapping`. -/
def readMapping : Json → Option PyValue
  | .obj fields => some (freezeMapping fields)
  | _ => none

def readVersion : Json → Option Unit
  | .str text => if text = "1.0" then some () else none
  | _ => none

/-- The fields of an object of which no name is outside `names`. -/
def knownFields (names : List String) : Json → Except Exn (List (String × Json))
  | .obj fields =>
    match fields.find? (·.1 ∉ names) with
    | some extra => .error (invalid extra.1)
    | none => .ok fields
  | _ => .error (invalid "")

def readHeader (fields : List (String × Json)) : Except Exn Header := do
  fieldOr fields "protocol_version" readVersion (some ())
  let runId ← fieldOr fields "run_id" codec.readUuid none
  let attemptId ← fieldOr fields "attempt_id" codec.readUuid none
  let engine ← fieldOr fields "engine" readEngine none
  return ⟨runId, attemptId, engine⟩

def headerNames : List String := ["protocol_version", "run_id", "attempt_id", "engine"]

/-- `EventEnvelope.model_validate`; `now` is what `occurred_at` is without a value. -/
def validateEvent (now : Instant) (data : Json) : Except Exn EventObject := do
  let fields ← knownFields (headerNames ++ ["event_id", "seq", "occurred_at", "type", "payload"]) data
  let header ← readHeader codec fields
  let eventId ← fieldOr fields "event_id" codec.readUuid none
  let seq ← fieldOr fields "seq" (readNat codec) none
  let occurredAt ← fieldOr fields "occurred_at" codec.readInstant (some now)
  let type ← fieldOr fields "type" readEventType none
  let payload ← fieldOr fields "payload" readMapping (some (freezeMapping []))
  return ⟨header, eventId, seq, occurredAt, type, payload⟩

/-- `ResultEnvelope.model_validate`. -/
def validateResult (now : Instant) (data : Json) : Except Exn ResultObject := do
  let fields ← knownFields (headerNames ++ ["outcome", "completed_at", "duration_ms", "summary"]) data
  let header ← readHeader codec fields
  let outcome ← fieldOr fields "outcome" readOutcome none
  let completedAt ← fieldOr fields "completed_at" codec.readInstant (some now)
  let durationMs ← fieldOr fields "duration_ms" (readNat codec) none
  let summary ← fieldOr fields "summary" readMapping (some (freezeMapping []))
  return ⟨header, outcome, completedAt, durationMs, summary⟩

/-! ## `consume` -/

/-- What the sink was given, and the result. -/
structure Received where
  events : List EventObject
  result : Option ResultObject

def transportError (message : String) : Exn := ⟨.other "DockerExecutionError", message⟩

/-- `message["kind"]` and `message["data"]`; only an object has them. -/
def kindAndData : Json → Option (Json × Json)
  | .obj fields => do return (← fields.lookup "kind", ← fields.lookup "data")
  | _ => none

def consume (now : Instant) (received : Received) (line : List Char) : Except Exn Received := do
  if line = [] ∨ line.length > MAX_LINE then
    .error (transportError "Runner transport line is empty or too large")
  let some (kind, data) := (readJson codec.readFloat line).bind kindAndData
    | .error (transportError "Runner transport is not valid JSON-lines")
  if kind.pyEq (.str "event") then
    let event ← validateEvent codec now data
    return { received with events := received.events ++ [event] }
  else if kind.pyEq (.str "result") && received.result.isNone then
    let result ← validateResult codec now data
    return { received with result := some result }
  else .error (transportError "Runner transport message kind is invalid or duplicated")

/-- `read_stdout`: the lines one after the other, up to the first that raises. -/
def readLines (now : Instant) : Received → List (List Char) → Received × Option Exn
  | received, [] => (received, none)
  | received, line :: rest =>
    match consume codec now received line with
    | .ok received => readLines now received rest
    | .error e => (received, some e)

def readStandardOutput (now : Instant) (text : List Char) : Received × Option Exn :=
  readLines codec now ⟨[], none⟩ (splitLines (universalNewlines text))

end SmartTest.Runner
