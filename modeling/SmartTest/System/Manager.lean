import SmartTest.System.Coordinator

/-!
# The runner manager

`services/runner_manager.py`. The executor is arbitrary code between the manager and the
test: it emits events, sees whether each was stored, and ends with a result or an
exception.
-/

open SmartTest.Lib SmartTest.Run SmartTest.Plan

namespace SmartTest.System

/-- What an executor does from a point on. -/
inductive Behaviour where
  | returns (result : ResultEnvelope)
  | raises (exn : Exn)
  | emits (event : EventEnvelope) (next : Except Exn Unit → Behaviour)

/-- The configuration of a `RunnerManager`. The collector and the scheduler are code outside the run
system; the completion callback is `on_run_finished` of a coordinator. -/
structure Manager where
  runnerId : String
  leaseSeconds : Int
  artifactCollector : Option (TaskEnvelope → EventEnvelope → Except Exn EventEnvelope)
  retryScheduler : Option (UUID → Nat → Option Exn)
  completionCallback : Option Dispatcher

def RESULT_STATES : ResultOutcome → AttemptState × RunState
  | .succeeded => (.succeeded, .succeeded)
  | .failed => (.failed, .failed)
  | .cancelled => (.cancelled, .cancelled)
  | .timedOut => (.timedOut, .timedOut)
  | .infraError => (.infraError, .infraError)

def identityError (message : String) : Exn := ⟨.runnerIdentityError, message⟩

/-! ## Results the manager makes -/

def infraResult (task : TaskEnvelope) (exn : Exn) : Proc ResultEnvelope := do
  let now ← utcnow
  return ⟨task.runId, task.attemptId, task.engine, .infraError, now, 0,
    Dict.empty.set "error_type" (.str exn.kind.name)⟩

def cancelledResult (task : TaskEnvelope) (original : ResultEnvelope) : ResultEnvelope :=
  ⟨task.runId, task.attemptId, task.engine, .cancelled, original.completedAt, original.durationMs,
    original.summary.set "cancel_requested" (.bool true)⟩

def lostResult (task : TaskEnvelope) : Proc ResultEnvelope := do
  let now ← utcnow
  return ⟨task.runId, task.attemptId, task.engine, .infraError, now, 0,
    Dict.empty.set "reason" (.str "runner_lease_expired")⟩

/-- `_validate_event` and `_validate_result`. -/
def validateIdentity (task : TaskEnvelope) (runId attemptId : UUID) (engine : Engine) (message : String) :
    Proc Unit :=
  if runId ≠ task.runId ∨ attemptId ≠ task.attemptId ∨ engine ≠ task.engine then
    throw (identityError message)
  else return ()

def validateEvent (task : TaskEnvelope) (event : EventEnvelope) : Proc Unit :=
  validateIdentity task event.runId event.attemptId event.engine "event identity does not match the task"

def validateResult (task : TaskEnvelope) (result : ResultEnvelope) : Proc Unit :=
  validateIdentity task result.runId result.attemptId result.engine "result identity does not match the task"

namespace Manager

variable (manager : Manager) (task : TaskEnvelope)

/-! ## Taking the run -/

def claimRun : Proc AttemptRecord := do
  let (_, attempt) ←
    (beginAttempt task.runId task.attemptId manager.runnerId manager.leaseSeconds).handle fun e =>
      if e.kind = .invalidTransition then
        throw (identityError "run was already claimed by another attempt")
      else throw e
  return attempt

/-- `execute`, up to the attempt in `RUNNING`. -/
def startAttempt : Proc Unit := do
  let run ← get task.runId
  if run.engine ≠ task.engine then throw (identityError "task engine does not match its run")
  else if run.state ≠ .dispatching then
    throw (identityError ("run cannot execute from " ++ run.state.value))
  else do
    let attempt ← manager.claimRun task
    if attempt.id ≠ task.attemptId ∨ attempt.runId ≠ task.runId then
      throw (identityError "created attempt does not match the task")
    else do
      let _ ← transitionAttempt task.attemptId .preparing
      let _ ← transitionAttempt task.attemptId .running
      return ()

/-! ## Running the executor -/

def collectArtifact (event : EventEnvelope) : Proc EventEnvelope :=
  if event.type = .artifact ∨ event.type = .screenshot then
    match manager.artifactCollector with
    | none => throw (identityError "artifact collector is not configured")
    | some collect =>
      match collect task event with
      | .ok collected => return collected
      | .error e => throw e
  else return event

def renewOnHeartbeat (event : EventEnvelope) : Proc Unit :=
  if event.type = .heartbeat then do
    let _ ← renewAttemptLease task.attemptId manager.runnerId manager.leaseSeconds
    return ()
  else return ()

def persistEvent (event : EventEnvelope) : Proc Unit := do
  validateEvent task event
  let event ← manager.collectArtifact task event
  manager.renewOnHeartbeat task event
  let _ ← appendEvent event
  return ()

def runBehaviour : Behaviour → Proc ResultEnvelope
  | .returns result => return result
  | .raises e => throw e
  | .emits event next => do
    let seen ← (manager.persistEvent task event >>= fun _ => pure (.ok ())).handle fun e => pure (.error e)
    runBehaviour (next seen)

def checkedResult (behaviour : Behaviour) : Proc (ResultEnvelope × Option Exn) := do
  let result ← manager.runBehaviour task behaviour
  validateResult task result
  return (result, none)

/-- The result of the executor, with the identity error to raise at the end. -/
def runExecutor (behaviour : Behaviour) : Proc (ResultEnvelope × Option Exn) :=
  (manager.checkedResult task behaviour).handle fun e => do
    let result ← infraResult task e
    return (result, if e.kind = .runnerIdentityError then some e else none)

/-! ## Recording the result -/

def noticeCancel (result : ResultEnvelope) : Proc ResultEnvelope :=
  if result.outcome = .succeeded then do
    let run ← get task.runId
    if run.state = .cancelling then return cancelledResult task result else return result
  else return result

def storeResult (result : ResultEnvelope) : Proc Bool := do
  let _ ← transitionAttempt task.attemptId .collecting
  let _ ← completeAttempt task result (RESULT_STATES result.outcome).1 manager.retryScheduler.isSome
  return true

/-- `false` when the attempt was lost. -/
def recordResult (result : ResultEnvelope) : Proc Bool := do
  let current ← getAttempt task.attemptId
  if current.state = .lost then return false
  else
    (manager.storeResult task result).handle fun e =>
      if e.kind ≠ .invalidTransition then throw e
      else do
        let current ← getAttempt task.attemptId
        if current.state = .lost then return false else throw e

def notifyCompletion (runId : UUID) : Proc Unit :=
  match manager.completionCallback with
  | none => return ()
  | some dispatcher => (onRunFinished dispatcher runId >>= fun _ => pure ()).handle fun _ => pure ()

def scheduleRetry (schedule : UUID → Nat → Option Exn) (runId : UUID) (delaySeconds : Nat) : Proc Unit :=
  .op (.schedule runId (schedule runId delaySeconds).isSome) (World.reading fun _ =>
    match schedule runId delaySeconds with
    | some e => .error e
    | none => .ok ())

/-- Moves the run to its last state and tells the coordinator. -/
def endRun (target : RunState) : Proc Unit := do
  let _ ← transition .manager task.runId target
  manager.notifyCompletion task.runId

/-- A run is moved to `CANCELLED` by way of `CANCELLING`. -/
def passCancelling (target : RunState) : Proc Unit :=
  if target = .cancelled then do
    let current ← get task.runId
    if current.state ≠ .cancelling then do
      let _ ← transition .manager task.runId .cancelling
      return ()
    else return ()
  else return ()

def retryLater (schedule : UUID → Nat → Option Exn) (delaySeconds : Nat) : Proc Unit := do
  let _ ← transition .manager task.runId .retryWait
  (scheduleRetry schedule task.runId delaySeconds).handle fun _ => manager.endRun task .infraError

def settle (result : ResultEnvelope) (identityError : Option Exn) : Proc ResultEnvelope := do
  let attempts ← listAttempts task.runId
  let decision := decideRetry task result attempts.length
  if decision.shouldRetry then
    match manager.retryScheduler with
    | none => do
      manager.endRun task .infraError
      return result
    | some schedule => do
      manager.retryLater task schedule decision.delaySeconds
      return result
  else do
    passCancelling task (RESULT_STATES result.outcome).2
    manager.endRun task (RESULT_STATES result.outcome).2
    match identityError with
    | some e => throw e
    | none => return result

/-- `execute`, once the attempt is in `RUNNING`. -/
def runAttempt (behaviour : Behaviour) : Proc ResultEnvelope := do
  let (result, identityError) ← manager.runExecutor task behaviour
  let result ← noticeCancel task result
  let recorded ← manager.recordResult task result
  if recorded then manager.settle task result identityError else lostResult task

def execute (behaviour : Behaviour) : Proc ResultEnvelope := do
  manager.startAttempt task
  manager.runAttempt task behaviour

end Manager

end SmartTest.System
