import SmartTest.Lib.Steps
import SmartTest.Run.Protocol

/-!
# The runner agent

`RunnerAgent` of `runner/agent.py`, with the reader threads of `runner/adapters/subprocess.py`.
The main flow, the heartbeat thread and the readers emit events through one counter under one
lock. A step is what one thread does between two moments at which another can act.
-/

open SmartTest.Lib SmartTest.Run

namespace SmartTest.Runner

/-! ## What the main flow emits -/

structure AdapterResult where
  outcome : ResultOutcome
  message : String
  details : Dict String Json
  stdout : String
  stderr : String
  exitCode : Option Int
  timedOut : Bool

/-- What the agent reports for an adapter that raised. -/
def AdapterResult.unexpected (errorType : String) : AdapterResult where
  outcome := .infraError
  message := "Adapter raised an unexpected error"
  details := Dict.empty.set "error_type" (.str errorType)
  stdout := ""
  stderr := ""
  exitCode := none
  timedOut := false

/-- A regular file under the artifact root, in sorted order; `contentType` is what `guess_type` answers. -/
structure ArtifactFile where
  relative : String
  name : String
  contentType : Option String
  size : Nat

/-- One thing the main flow does after the adapter: it emits an event, or `_emit_artifacts` raises. -/
inductive Report where
  | emit (type : EventType) (payload : Dict String Json)
  | raise

def logPayload (stream message : String) : Dict String Json :=
  (Dict.empty.set "stream" (.str stream)).set "message" (.str message)

def ArtifactFile.type (file : ArtifactFile) : EventType :=
  if "image/".toList.isPrefixOf (file.contentType.getD "application/octet-stream").toList then .screenshot
  else .artifact

def ArtifactFile.payload (file : ArtifactFile) : Dict String Json :=
  (((Dict.empty.set "relative_path" (.str file.relative)).set "file_name" (.str file.name)).set "artifact_type"
    (.str (if file.type = .screenshot then "screenshot" else "file"))).set "size_bytes" (.int file.size)

/-- The loop of `_emit_artifacts`. -/
def artifactLoop (total : Nat) : List ArtifactFile → List Report
  | [] => []
  | file :: rest =>
    let total := total + file.size
    if total > 100 * 1024 * 1024 then [.raise]
    else .emit file.type file.payload :: artifactLoop total rest

/-- `_emit_artifacts`. -/
def emitArtifacts (files : List ArtifactFile) : List Report :=
  if files.length > 100 then [.raise] else artifactLoop 0 files

/-- Python's truth of a value. -/
def truth : Json → Bool
  | .null => false
  | .bool b => b
  | .int n => n ≠ 0
  | .float q => q ≠ 0
  | .str s => s ≠ ""
  | .arr items => !items.isEmpty
  | .obj fields => !fields.isEmpty

def assertionPayload (result : AdapterResult) : Dict String Json :=
  let payload := (Dict.empty.set "passed" (.bool (result.outcome = .succeeded))).set "message" (.str result.message)
  match result.details.get? "assertions" with
  | none | some .null => payload
  | some results => payload.set "results" results

/-- What the main flow emits before `FINISHED`. -/
def bodyReports (streamed : Bool) (result : AdapterResult) (files : List ArtifactFile) : List Report :=
  (if result.stdout ≠ "" && !streamed then [.emit .log (logPayload "stdout" result.stdout)] else []) ++
  (if result.stderr ≠ "" && !streamed then [.emit .log (logPayload "stderr" result.stderr)] else []) ++
  emitArtifacts files ++
  [.emit .assertion (assertionPayload result)] ++
  (match result.details.get? "extractions" with
    | some names => if truth names then [.emit .extraction (Dict.empty.set "names" names)] else []
    | none => []) ++
  (if result.outcome ≠ .succeeded then
    [.emit .error ((Dict.empty.set "message" (.str result.message)).update result.details)] else [])

/-- The second `try` block of `run`. -/
def reports (streamed : Bool) (result : AdapterResult) (files : List ArtifactFile) : List Report :=
  bodyReports streamed result files ++ [.emit .finished (Dict.empty.set "outcome" (.str result.outcome.value))]

/-- The summary of the envelope `run` returns. -/
def summary (result : AdapterResult) : Dict String Json :=
  let base := (Dict.empty.set "message" (.str result.message)).update result.details
  let base := match result.exitCode with
    | some code => base.set "exit_code" (.int code)
    | none => base
  base.set "timed_out" (.bool result.timedOut)

/-! ## What a reader emits -/

def LOG_CHUNK_SIZE : Nat := 4096

def chunks (text : List Char) : List String :=
  (List.range ((text.length + LOG_CHUNK_SIZE - 1) / LOG_CHUNK_SIZE)).map fun k =>
    .ofList ((text.drop (k * LOG_CHUNK_SIZE)).take LOG_CHUNK_SIZE)

def rstripNewline (line : String) : List Char :=
  (line.toList.reverse.dropWhile fun c => c = '\r' || c = '\n').reverse

/-- The calls of the sink that `read_stream` makes for the lines of a stream, as long as none of them raises:
after the first that does, it makes no more. -/
def readStream (outputLimit : Nat) (emitted : Nat) (truncated : Bool) : List String → List String
  | [] => []
  | line :: rest =>
    let remaining := outputLimit - emitted
    let cut := decide (line.length > remaining)
    chunks ((rstripNewline line).take remaining) ++ (if cut && !truncated then ["...[truncated]"] else []) ++
      readStream outputLimit (emitted + min line.length remaining) (truncated || cut) rest

/-! ## Threads -/

inductive Thread where
  | main
  | heartbeat
  | worker (index : Nat)
  deriving DecidableEq

structure Event where
  seq : Nat
  type : EventType
  payload : Dict String Json

/-- Where the main flow is in `run`. -/
inductive Main where
  /-- Before `STARTED` is emitted. -/
  | starting
  /-- In the adapter. -/
  | adapter
  /-- In the second `try` block, with what is left of it. -/
  | reporting (result : AdapterResult) (rest : List Report)
  /-- In the `finally` block, before the flag is set; without a result an exception is on its way. -/
  | stopping (result : Option AdapterResult)
  /-- In `heartbeat.join`. -/
  | joining (result : Option AdapterResult)
  /-- `run` has returned an outcome and a summary, or raised. -/
  | over (answer : Option (ResultOutcome × Dict String Json))

/-- Where the heartbeat thread is in `_heartbeat_loop`. -/
inductive Beat where
  | unborn
  /-- In `_heartbeat_stop.wait`. -/
  | waiting
  /-- The interval has passed before the flag was set. -/
  | awake
  | ended
  deriving DecidableEq

/-- A thread of the adapter, and the messages it is still to hand to `_emit_output`. -/
structure Worker where
  stream : String
  messages : List String

/-- `holder` is the thread inside `_emit`, with the event it has built. -/
structure Agent where
  seq : Nat
  holder : Option (Thread × Event)
  stop : Bool
  heartbeatError : Bool
  main : Main
  beat : Beat
  workers : List Worker
  delivered : List Event

/-- The agent when `run` is called. -/
def Agent.init : Agent := ⟨0, none, false, false, .starting, .unborn, [], []⟩

/-- The next event a thread is to emit. -/
def Agent.next (engine : Engine) (s : Agent) : Thread → Option (EventType × Dict String Json)
  | .main =>
    match s.main with
    | .starting => some (.started, Dict.empty.set "engine" (.str engine.value))
    | .reporting _ (.emit type payload :: _) => some (type, payload)
    | _ => none
  | .heartbeat => if s.beat = .awake then some (.heartbeat, .empty) else none
  | .worker index =>
    match s.workers[index]? with
    | some ⟨stream, message :: _⟩ => some (.log, logPayload stream message)
    | _ => none

/-- The second `try` block, or the `finally` block when nothing of it is left. -/
def Main.proceed (result : AdapterResult) : List Report → Main
  | [] => .stopping (some result)
  | rest => .reporting result rest

/-- How a thread goes on after `_emit` returned or raised. -/
def Agent.resume (s : Agent) (ok : Bool) : Thread → Agent
  | .main =>
    match s.main with
    | .starting =>
      if ok then { s with main := .adapter, beat := .waiting } else { s with main := .over none }
    | .reporting result (_ :: rest) =>
      { s with main := if ok then .proceed result rest else .stopping none }
    | _ => s
  | .heartbeat =>
    if ok then { s with beat := .waiting } else { s with beat := .ended, heartbeatError := true, stop := true }
  | .worker index =>
    match s.workers[index]? with
    | some ⟨stream, _ :: rest⟩ =>
      -- A reader whose call raised has its sink disabled.
      { s with workers := s.workers.set index ⟨stream, if ok then rest else []⟩ }
    | _ => s

inductive AgentAct where
  /-- A thread takes the lock and builds its event. -/
  | enter (thread : Thread)
  /-- The sink returns or raises, and the thread leaves the lock. -/
  | sink (ok : Bool)
  /-- `_emit_artifacts` raises. -/
  | raise
  /-- The adapter starts a thread that will hand over these messages. -/
  | spawn (stream : String) (messages : List String)
  /-- `_stream_process` starts the readers of a process that writes these lines. -/
  | readers (outputLimit : Nat) (stdout stderr : List String)
  | returns (result : AdapterResult) (files : List ArtifactFile)
  | raises (errorType : String) (files : List ArtifactFile)
  /-- The interval of the heartbeat passes. -/
  | elapse
  /-- The heartbeat thread sees the flag. -/
  | notice
  | setStop
  /-- The heartbeat thread has ended, or the time to wait for it has passed. -/
  | join

/-- `_emit` after the lock: the event is delivered and the number advanced, or neither. -/
def Agent.settle (s : Agent) (ok : Bool) (event : Event) : Agent :=
  if ok then { s with holder := none, seq := s.seq + 1, delivered := s.delivered ++ [event] }
  else { s with holder := none }

def Agent.spawn (s : Agent) (workers : List Worker) : Agent := { s with workers := s.workers ++ workers }

/-- One step of one thread; `streamed` says whether the adapter has `run_streaming`. -/
def Agent.step (streamed : Bool) (engine : Engine) (s : Agent) : AgentAct → Option Agent
  | .enter thread =>
    match s.holder, s.next engine thread with
    | none, some (type, payload) => some { s with holder := some (thread, ⟨s.seq, type, payload⟩) }
    | _, _ => none
  | .sink ok =>
    match s.holder with
    | some (thread, event) => some ((s.settle ok event).resume ok thread)
    | none => none
  | .raise =>
    match s.main with
    | .reporting _ (.raise :: _) => some { s with main := .stopping none }
    | _ => none
  | .spawn stream messages =>
    match s.main, streamed with
    | .adapter, true => some (s.spawn [⟨stream, messages.filter (· ≠ "")⟩])
    | _, _ => none
  | .readers outputLimit stdout stderr =>
    match s.main, streamed with
    | .adapter, true => some (s.spawn [⟨"stdout", (readStream outputLimit 0 false stdout).filter (· ≠ "")⟩,
        ⟨"stderr", (readStream outputLimit 0 false stderr).filter (· ≠ "")⟩])
    | _, _ => none
  | .returns result files =>
    match s.main with
    | .adapter => some { s with main := .reporting result (reports streamed result files) }
    | _ => none
  | .raises errorType files =>
    match s.main with
    | .adapter =>
      let result := AdapterResult.unexpected errorType
      some { s with main := .reporting result (reports false result files) }
    | _ => none
  | .elapse => if s.beat = .waiting ∧ s.stop = false then some { s with beat := .awake } else none
  | .notice => if s.beat = .waiting ∧ s.stop = true then some { s with beat := .ended } else none
  | .setStop =>
    match s.main with
    | .stopping result => some { s with main := .joining result, stop := true }
    | _ => none
  | .join =>
    match s.main with
    | .joining result =>
      let answer := if s.heartbeatError then none else result.map fun result => (result.outcome, summary result)
      some { s with main := .over answer }
    | _ => none

end SmartTest.Runner
