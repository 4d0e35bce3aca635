import SmartTest.Lib.Steps
import SmartTest.Load.Repository

/-!
# Executing a load test run

`LoadTestService._execute` with its callbacks, and `cancel_run`, as steps of one machine.
The executor calls the callbacks from any number of threads, so a callback is a step while
the executor runs; what it holds a lock for is in the state. A label says what the code does
not decide: what the executor hands over, and which repository calls fail.
-/

open SmartTest.Lib SmartTest.Run

namespace SmartTest.Load

/-- What leaves the executor or the auth resolver: `BaseException` is no `Exception`. -/
inductive Raised where
  | executionError (message : String)
  | exception
  | baseException

/-- Where `_execute` stands. -/
inductive Stage where
  | starting
  | executing
  | returned (metrics : Metrics)
  | flushed (metrics : Metrics)
  | decided (metrics : Metrics) (status : LoadTestRunStatus)
  | worded (metrics : Metrics) (status : LoadTestRunStatus) (message : Option String)
  | handling (message : String)
  | closing (message : String)
  | stored
  | raised
  | ended

/-- `checked` is the snapshot that has passed its check and holds `snapshot_lock`; `askers` are the calls of
`cancel_run` that have read a running run and have not set the flag yet. -/
structure Execution where
  repo : LoadTestRepository
  registered : Bool
  cancelled : Bool
  latest : Metrics
  pending : List LoadTestResponse
  checked : Option Metrics
  stage : Stage
  askers : Nat

inductive Event where
  | getRun (fails : Bool)
  | respond (item : LoadTestResponse) (fails : Bool)
  | checkSnapshot (metrics : Metrics)
  | writeSnapshot
  | finish (outcome : Except Raised Metrics)
  | flush (fails : Bool)
  | readStatus
  | readMessage
  | update (now : Instant)
  | leave
  | askCancel
  | setCancel

def FLUSH_AT : Nat := 50

def CANCELLED_MESSAGE : String := "Load test execution cancelled"

def FAILED_MESSAGE : String := "Load test execution failed"

/-- As `start_run` submits it: the flag is registered, and may be set from now on. -/
def Execution.begin (repo : LoadTestRepository) : Execution where
  repo := repo
  registered := true
  cancelled := false
  latest := .empty []
  pending := []
  checked := none
  stage := .starting
  askers := 0

namespace Execution

variable (runId : UUID) (x : Execution)

/-- `add_run_responses` on all that is pending, which is cleared first. -/
def store (fails : Bool) : Except Exn Unit × Execution :=
  let cleared := { x with pending := [] }
  match x.repo.addRunResponses runId x.pending with
  | .ok repo =>
    if fails then (.error ⟨.other "OperationalError", ""⟩, cleared) else (.ok (), { cleared with repo := repo })
  | .error e => (.error e, cleared)

/-- `responses`; an exception goes to the worker that called. -/
def respond (item : LoadTestResponse) (fails : Bool) : Execution :=
  let x := { x with pending := x.pending ++ [item] }
  if x.pending.length ≥ FLUSH_AT then (x.store runId fails).2 else x

/-- `flush_responses`. -/
def flush (fails : Bool) : Except Exn Unit × Execution :=
  if x.pending = [] then (.ok (), x) else x.store runId fails

/-- `snapshot` up to its write. -/
def checkSnapshot (metrics : Metrics) : Execution :=
  if x.cancelled ∨ metrics.totalRequests ≤ x.latest.totalRequests then x else { x with checked := some metrics }

/-- The write of `snapshot`, which then lets the lock go. -/
def writeSnapshot (metrics : Metrics) : Execution :=
  match x.repo.updateRun runId .running metrics none none with
  | .ok repo => { x with repo := repo, latest := metrics, checked := none }
  | .error _ => { x with checked := none }

/-- Where the end of the executor leads. -/
def afterExecutor : Except Raised Metrics → Stage
  | .ok metrics => .returned metrics
  | .error (.executionError message) => .handling message
  | .error .exception => .handling FAILED_MESSAGE
  | .error .baseException => .raised

/-- The last `update_run` of the body or of a handler. -/
def update (status : LoadTestRunStatus) (metrics : Metrics) (message : Option String) (now : Instant)
    (otherwise : Stage) : Execution :=
  match x.repo.updateRun runId status metrics message (some now) with
  | .ok repo => { x with repo := repo, stage := .stored }
  | .error _ => { x with stage := otherwise }

def step : Event → Option Execution
  | .getRun fails =>
    match x.stage with
    | .starting =>
      match x.repo.getRun runId with
      | .ok run => if fails then some { x with stage := .ended } else
          some { x with latest := run.metrics, stage := .executing }
      | .error _ => some { x with stage := .ended }
    | _ => none
  | .respond item fails =>
    match x.stage with
    | .executing => some (x.respond runId item fails)
    | _ => none
  | .checkSnapshot metrics =>
    match x.stage, x.checked with
    | .executing, none => some (x.checkSnapshot metrics)
    | _, _ => none
  | .writeSnapshot =>
    match x.stage, x.checked with
    | .executing, some metrics => some (x.writeSnapshot runId metrics)
    | _, _ => none
  | .finish outcome =>
    match x.stage, x.checked with
    | .executing, none => some { x with stage := afterExecutor outcome }
    | _, _ => none
  | .flush fails =>
    match x.stage with
    | .returned metrics =>
      match x.flush runId fails with
      | (.ok _, x) => some { x with stage := .flushed metrics }
      | (.error _, x) => some { x with stage := .handling FAILED_MESSAGE }
    | .handling message =>
      match x.flush runId fails with
      | (.ok _, x) => some { x with stage := .closing message }
      | (.error _, x) => some { x with stage := .raised }
    | _ => none
  | .readStatus =>
    match x.stage with
    | .flushed metrics =>
      some { x with stage := .decided metrics (if x.cancelled then .failed else .succeeded) }
    | _ => none
  | .readMessage =>
    match x.stage with
    | .decided metrics status =>
      some { x with stage := .worded metrics status (if x.cancelled then some CANCELLED_MESSAGE else none) }
    | _ => none
  | .update now =>
    match x.stage with
    | .worded metrics status message => some (x.update runId status metrics message now (.handling FAILED_MESSAGE))
    | .closing message => some (x.update runId .failed x.latest (some message) now .raised)
    | _ => none
  | .leave =>
    match x.stage with
    | .stored | .raised => some { x with registered := false, stage := .ended }
    | _ => none
  | .askCancel =>
    match x.repo.getRun runId with
    | .ok run => if run.status = .running then some { x with askers := x.askers + 1 } else some x
    | .error _ => some x
  | .setCancel =>
    if x.askers = 0 then none
    else some { x with askers := x.askers - 1, cancelled := x.cancelled || x.registered }

end Execution

end SmartTest.Load
