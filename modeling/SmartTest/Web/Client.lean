import SmartTest.Lib.EventSource
import SmartTest.Lib.Js
import SmartTest.Run.Domain

/-!
# Runs and events in the browser

What the routes of `services/api/routes.py` send for a list of runs, a list of events and a
stream of events, and what `apps/web/src/services/runs.ts` makes of it.
-/

open SmartTest.Lib SmartTest.Run

namespace SmartTest.Web

/-- The texts of floats and instants that Python writes, and what JavaScript makes of numbers and dates. -/
structure Texts where
  floatText : Rat → List Char
  instantText : Instant → String
  readFloat : List Char → Option Rat
  /-- The double of an integer literal, if it is finite. -/
  double : Int → Option Rat
  /-- `String(number)`. -/
  numberText : Rat → List Char
  /-- `Date.parse` gives a number. -/
  isDate : String → Bool

/-- Floats are read back, and the instants the server writes are dates. -/
structure Texts.Faithful (texts : Texts) (isFloat : Rat → Prop) : Prop where
  body : (utf8Spelling texts.floatText).Faithful texts.readFloat isFloat
  stream : (asciiSpelling texts.floatText).Faithful texts.readFloat isFloat
  date : ∀ t, texts.isDate (texts.instantText t) = true

/-! ## The server -/

/-- `RunResponse`. -/
structure RunResponse where
  id : UUID
  engine : Engine
  parameters : Dict String Json
  state : RunState
  createdAt : Instant
  updatedAt : Instant
  stateVersion : Nat

section Server

variable (texts : Texts)

/-- `RunResponse.model_dump(mode="json")`. -/
def RunResponse.dump (run : RunResponse) : Json :=
  .obj [("id", .str run.id.text), ("engine", .str run.engine.value), ("parameters", .obj run.parameters.entries),
    ("state", .str run.state.value), ("created_at", .str (texts.instantText run.createdAt)),
    ("updated_at", .str (texts.instantText run.updatedAt)), ("state_version", .int run.stateVersion)]

/-- `EventResponse.model_dump(mode="json")`. -/
def eventDump (event : EventRecord) : Json :=
  .obj [("cursor", .int event.cursor), ("event_id", .str event.eventId.text), ("run_id", .str event.runId.text),
    ("attempt_id", .str event.attemptId.text), ("engine", .str event.engine.value), ("seq", .int event.seq),
    ("occurred_at", .str (texts.instantText event.occurredAt)), ("type", .str event.type.value),
    ("payload", .obj event.payload.entries)]

/-- The body of `list_runs`. -/
def listRuns (runs : List RunResponse) : List Char :=
  Json.write (utf8Spelling texts.floatText)
    (.obj [("items", .arr (runs.map (RunResponse.dump texts))), ("total", .int runs.length)])

/-- `next_cursor` of `list_events`, which is asked for everything after 0. -/
def nextCursor (events : List EventRecord) : Nat := (events.getLast?.map (·.cursor)).getD 0

/-- The body of `list_events`. -/
def listEvents (events : List EventRecord) : List Char :=
  Json.write (utf8Spelling texts.floatText)
    (.obj [("items", .arr (events.map (eventDump texts))), ("total", .int events.length),
      ("next_cursor", .int (nextCursor events))])

/-- The lines of `_format_sse`. -/
def formatSse (event : EventRecord) : List (List Char) :=
  EventSource.frame (writeInt event.cursor) event.type.value.toList
    ((eventDump texts event).write (asciiSpelling texts.floatText))

/-- What `_event_stream` yields: an event, or a heartbeat. -/
def yielded : Option EventRecord → List (List Char)
  | some event => formatSse texts event
  | none => [": heartbeat".toList, []]

def eventStream (items : List (Option EventRecord)) : List Char :=
  (items.flatMap (yielded texts)).flatMap (· ++ ['\n'])

end Server

/-! ## The client -/

def engines : List String := ["http", "pytest", "playwright"]

def runStates : List String :=
  ["CREATED", "QUEUED", "DISPATCHING", "RUNNING", "CANCELLING", "SUCCEEDED", "FAILED", "CANCELLED", "TIMED_OUT",
    "INFRA_ERROR"]

def runEventTypes : List String :=
  ["started", "progress", "log", "assertion", "screenshot", "error", "heartbeat", "artifact", "finished"]

/-- `RunResponse` of `types/platform.ts`. -/
structure RunView where
  id : String
  engine : String
  parameters : Js
  state : String
  createdAt : String
  updatedAt : String
  stateVersion : Rat

/-- `RunEvent`. -/
structure EventView where
  cursor : Rat
  eventId : String
  runId : String
  attemptId : String
  engine : String
  seq : Rat
  occurredAt : String
  type : String
  payload : Js

/-- `isRecord`, with the fields. -/
def isRecord : Option Js → Option (List (String × Js))
  | some (.obj fields) => some fields
  | _ => none

def isString : Option Js → Option String
  | some (.str text) => some text
  | _ => none

/-- `isEngine`, `isRunState` and `isRunEventType`. -/
def isOneOf (names : List String) (value : Option Js) : Option String :=
  (isString value).filter (· ∈ names)

/-- A string that is not empty. -/
def isFilled (value : Option Js) : Option String := (isString value).filter (· ≠ "")

/-- `Number.isInteger(value)` and `value >= 0`. -/
def isCount : Option Js → Option Rat
  | some (.number q) => if q.den = 1 ∧ 0 ≤ q then some q else none
  | _ => none

section Client

variable (texts : Texts)

def isDateTime (value : Option Js) : Option String := (isString value).filter texts.isDate

def parseRun (value : Js) : Option RunView := do
  let fields ← isRecord (some value)
  let id ← isString (fields.lookup "id")
  let engine ← isOneOf engines (fields.lookup "engine")
  let parameters ← isRecord (fields.lookup "parameters")
  let state ← isOneOf runStates (fields.lookup "state")
  let createdAt ← isDateTime texts (fields.lookup "created_at")
  let updatedAt ← isDateTime texts (fields.lookup "updated_at")
  let stateVersion ← isCount (fields.lookup "state_version")
  return ⟨id, engine, .obj parameters, state, createdAt, updatedAt, stateVersion⟩

def parseRunEvent (value : Js) : Option EventView := do
  let fields ← isRecord (some value)
  let cursor ← isCount (fields.lookup "cursor")
  let eventId ← isFilled (fields.lookup "event_id")
  let runId ← isFilled (fields.lookup "run_id")
  let attemptId ← isFilled (fields.lookup "attempt_id")
  let engine ← isOneOf engines (fields.lookup "engine")
  let seq ← isCount (fields.lookup "seq")
  let occurredAt ← isDateTime texts (fields.lookup "occurred_at")
  let type ← isOneOf runEventTypes (fields.lookup "type")
  let payload ← isRecord (fields.lookup "payload")
  return ⟨cursor, eventId, runId, attemptId, engine, seq, occurredAt, type, .obj payload⟩

/-- `payload.items.map(parse)`, unless one of them is `null`. -/
def parseItems {α : Type} (parse : Js → Option α) (message : String) (items : List Js) : Except String (List α) :=
  if (items.map parse).any (·.isNone) then .error message else .ok (items.filterMap parse)

/-- The items and the counts of a list body. -/
def isList (counts : List String) (value : Js) : Option (List Js × List Rat) := do
  let fields ← isRecord (some value)
  let some (.arr items) := fields.lookup "items" | none
  let numbers ← counts.mapM fun name => isCount (fields.lookup name)
  return (items, numbers)

/-- `fetchRuns` on the body of a response that is OK. -/
def fetchRuns (body : List Char) : Except String (List RunView) :=
  match parseJs texts.double texts.readFloat body with
  | none => .error "运行列表未返回有效 JSON"
  | some payload =>
    match isList ["total"] payload with
    | none => .error "运行列表响应格式暂不支持"
    | some (items, _) => parseItems (parseRun texts) "运行记录字段格式暂不支持" items

/-- `RunEventsResponse`. -/
structure RunEventsResponse where
  items : List EventView
  counts : List Rat

/-- `fetchRunEvents`; the counts are `total` and `next_cursor`. -/
def fetchRunEvents (runId : String) (body : List Char) : Except String RunEventsResponse :=
  match parseJs texts.double texts.readFloat body with
  | none => .error "运行事件未返回有效 JSON"
  | some payload =>
    match isList ["total", "next_cursor"] payload with
    | none => .error "运行事件响应格式暂不支持"
    | some (items, counts) => do
      let items ← parseItems (parseRunEvent texts) "运行事件字段格式暂不支持" items
      if items.any (·.runId ≠ runId) then .error "运行事件与当前运行不匹配"
      return ⟨items, counts⟩

/-- The listener for `type`: the event it passes on, or the error. -/
def listener (runId type : String) (message : Message) : Except String EventView :=
  match parseJs texts.double texts.readFloat message.data with
  | none => .error "SyntaxError"
  | some parsed =>
    match parseRunEvent texts parsed with
    | none => .error "实时运行事件格式暂不支持"
    | some event =>
      if event.runId ≠ runId ∨ event.type ≠ type ∨
          (message.lastEventId ≠ [] ∧ texts.numberText event.cursor ≠ message.lastEventId) then
        .error "实时运行事件格式暂不支持"
      else .ok event

/-- What the listeners of `subscribeToRunEvents` are called with; a message of another type has no listener. -/
def subscribeToRunEvents (runId : String) (stream : List Char) : List (Except String EventView) :=
  (EventSource.messages stream).filterMap fun message =>
    (runEventTypes.find? fun type => type.toList = message.type).map fun type => listener texts runId type message

end Client

end SmartTest.Web
