import SmartTest.System.Manager

/-!
# The local runner service

`services/local_runner_service.py`, for a service that was started. Preparing the source
of a run and building its executor is code outside the run system: it raises, or gives the
executor.
-/

open SmartTest.Lib SmartTest.Run SmartTest.Plan

namespace SmartTest.System

structure LocalRunnerService where
  name : String
  dispatcher : Dispatcher
  collector : TaskEnvelope → EventEnvelope → Except Exn EventEnvelope

abbrev SourceStage := RunSpecRecord → Except Exn (TaskEnvelope → Behaviour)

namespace LocalRunnerService

variable (service : LocalRunnerService)

/-- The `RunnerManager` of `_execute_run`, with its default runner id and lease. -/
def manager : Manager := ⟨"runner-local", 300, some service.collector, none, some service.dispatcher⟩

/-! ## Convergence -/

def convergeState (runId : UUID) : Proc Unit := do
  let current ← .op (.converge runId) (World.reading fun w => w.runs.get runId)
  if ¬ current.state.terminal ∧ current.state ≠ .created then do
    let _ ← transition .convergence runId .infraError
    return ()
  else return ()

def reportFinished (runId : UUID) : Proc Unit :=
  (onRunFinished service.dispatcher runId >>= fun _ => pure ()).handle fun _ => pure ()

def convergeInfraError (runId : UUID) : Proc Unit := do
  (convergeState runId).handle fun _ => pure ()
  service.reportFinished runId

/-! ## Polling -/

/-- Adds the run to `_submitted`, unless it is there. -/
def mark (runId : UUID) : Proc Bool :=
  .op (.mark service.name runId) fun w =>
    let (fresh, w') := w.onService service.name fun s =>
      if runId ∈ s.submitted then (false, s) else (true, { s with submitted := s.submitted ++ [runId] })
    (.ok fresh, w')

def unmark (runId : UUID) : Proc Unit :=
  .op (.unmark service.name runId) fun w =>
    let (_, w') := w.onService service.name fun s =>
      ((), { s with submitted := s.submitted.filter (· ≠ runId) })
    (.ok (), w')

/-- `pool.submit`. -/
def submit (runId : UUID) (failure : Option Exn) : Proc Unit :=
  .op (.submit service.name runId failure.isSome) fun w =>
    match failure with
    | some e => (.error e, w)
    | none =>
      let (_, w') := w.onService service.name fun s => ((), { s with jobs := s.jobs ++ [runId] })
      (.ok (), w')

/-- The body of the loop of `poll_once`; `true` when the run was submitted. -/
def pollRun (fails : UUID → Option Exn) (runId : UUID) : Proc Bool := do
  let marked ← service.mark runId
  if marked then
    (service.submit runId (fails runId) >>= fun _ => pure true).handle fun _ => do
      service.unmark runId
      service.convergeInfraError runId
      return false
  else return false

def pollRuns (fails : UUID → Option Exn) : List UUID → Proc Nat
  | [] => return 0
  | runId :: rest => do
    let submitted ← service.pollRun fails runId
    let others ← pollRuns fails rest
    return (if submitted then 1 else 0) + others

def pollOnce (fails : UUID → Option Exn) : Proc Nat := do
  let runs ← list
  service.pollRuns fails ((runs.filter (·.state = .dispatching)).map (·.id))

/-! ## Executing a run -/

/-- `source_ref.startswith("host-source:")`. -/
def hostSource (spec : RunSpecRecord) : Bool := "host-source:".toList.isPrefixOf spec.sourceRef.toList

/-- The body of the `try` of `_execute_run`. -/
def runJob (runId attemptId : UUID) (source : SourceStage) : Proc Unit := do
  let spec ← getRunSpec runId
  if hostSource spec ∧ spec.engine ∉ [.pytest, .playwright] then
    throw ⟨.valueError, "host source has an unsupported engine"⟩
  else
    match source spec with
    | .error e => throw e
    | .ok executor => do
      let task ← materializeTask runId attemptId
      let _ ← service.manager.execute task (executor task)
      return ()

def executeRun (runId attemptId : UUID) (source : SourceStage) : Proc Unit :=
  (service.runJob runId attemptId source).handle fun _ => service.convergeInfraError runId

/-- A worker of the pool takes a job, if it is there. -/
def take (runId : UUID) : Proc Bool :=
  .op (.take service.name runId) fun w =>
    let (found, w') := w.onService service.name fun s =>
      if runId ∈ s.jobs then (true, { s with jobs := s.jobs.erase runId }) else (false, s)
    (.ok found, w')

/-- `_completed`. -/
def completed (runId : UUID) : Proc Unit :=
  .op (.completed service.name runId) fun w =>
    let (_, w') := w.onService service.name fun s =>
      ((), { s with submitted := s.submitted.filter (· ≠ runId) })
    (.ok (), w')

/-- One job of the pool, with its done callback. -/
def worker (runId attemptId : UUID) (source : SourceStage) : Proc Unit := do
  let taken ← service.take runId
  if taken then do
    service.executeRun runId attemptId source
    service.completed runId
  else return ()

end LocalRunnerService

end SmartTest.System
