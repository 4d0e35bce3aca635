import SmartTest.System.LocalRunner

/-!
# The calls of the run system

The routes that create, execute and cancel, and every component call as one program. A
fixed `fingerprint` digests requests, and `refs` answers for the other repositories.
-/

open SmartTest.Lib SmartTest.Run SmartTest.Plan

namespace SmartTest.System

variable (fingerprint : Engine → Dict String Json → String) (refs : References)

/-! ## Routes -/

/-- `uuid4` draws identifiers that are not in use, so a call that drew others does not happen. -/
def usedIdentifier : Exn := ⟨.other "RuntimeError", "uuid4 drew a used identifier"⟩

def createOrGet (newId : UUID) (engine : Engine) (parameters : Dict String Json) (key : Option String) :
    Proc (RunRecord × Bool) :=
  .op (.createOrGet newId) (World.onRuns fun w =>
    if (w.runs.runs.get? newId).isSome || (w.plans.specsByRun.get? newId).isSome then .error usedIdentifier
    else RunRepository.createOrGet fingerprint w.runs newId w.clock engine parameters key)

/-- The `create_run` route. -/
def createRun (newId : UUID) (engine : Engine) (parameters : Dict String Json) (key : Option String)
    (autoDispatch : Bool) (dispatcher : Dispatcher) : Proc RunRecord :=
  if key.any (strip · = "") then
    throw ⟨.other "RequestValidationError", "Idempotency-Key must not be blank"⟩
  else do
    let (run, replayed) ← createOrGet fingerprint newId engine parameters key
    if ¬ replayed ∧ autoDispatch then do
      let run ← transition .route run.id .queued
      (dispatch dispatcher run.id).handle fun _ => do
        let _ ← transition .route run.id .infraError
        throw ⟨.other "DispatchUnavailable", "run could not be dispatched"⟩
      return run
    else return run

/-- The identifiers of a new batch are not in use. -/
def unusedBatch (w : World) (batch : ExecutionBatchRecord) : Bool :=
  (w.plans.batches.get? batch.id).isNone && batch.runIds.Nodup &&
    batch.runIds.all fun runId =>
      (w.runs.runs.get? runId).isNone && (w.plans.specsByRun.get? runId).isNone

structure PlanCall where
  planId : UUID
  idempotencyKey : String
  sourceOverride : Option (String × String)
  drawn : Drawn

def storePlanRuns (call : PlanCall) (w : World) : Except Exn (ExecutionBatchRecord × Bool) × World :=
  match w.plans.execute refs call.drawn w.clock call.sourceOverride w.runs call.planId call.idempotencyKey with
  | .error e => (.error e, w)
  | .ok ((batch, replayed), plans, runs) =>
    if !replayed && !unusedBatch w batch then (.error usedIdentifier, w)
    else (.ok (batch, replayed), { w with plans := plans, runs := runs })

/-- The `execute_test_plan` route. -/
def executeTestPlan (call : PlanCall) (autoDispatch : Bool) (dispatcher : Dispatcher) :
    Proc ExecutionBatchRecord :=
  if strip call.idempotencyKey = "" then
    throw ⟨.other "RequestValidationError", "Idempotency-Key must not be blank"⟩
  else do
    let (batch, replayed) ← .op (.executePlan call.drawn.batchId) (storePlanRuns refs call)
    if ¬ replayed ∧ autoDispatch then do
      let result ← dispatchAvailable dispatcher batch.id
      if result.failed ≠ [] then
        throw ⟨.other "DispatchUnavailable", "one or more plan runs could not be dispatched"⟩
      else return batch
    else return batch

/-! ## Calls -/

inductive Call where
  | createRun (newId : UUID) (engine : Engine) (parameters : Dict String Json) (key : Option String)
      (autoDispatch : Bool) (dispatcher : Dispatcher)
  | executeTestPlan (call : PlanCall) (autoDispatch : Bool) (dispatcher : Dispatcher)
  | cancel (runId : UUID)
  | dispatch (dispatcher : Dispatcher) (runId : UUID)
  | prepareRun (runId : UUID)
  | retryRun (runId : UUID)
  | recoverLostAttempts (now : Option Instant)
  | dispatchAvailable (dispatcher : Dispatcher) (batchId : UUID)
  | onRunFinished (dispatcher : Dispatcher) (runId : UUID)
  | pollOnce (service : LocalRunnerService) (fails : UUID → Option Exn)
  | worker (service : LocalRunnerService) (runId attemptId : UUID) (source : SourceStage)
  /-- A `RunnerManager` that is used by itself, on the task of the run's spec. -/
  | manage (manager : Manager) (runId attemptId : UUID) (executor : TaskEnvelope → Behaviour)

def manage (manager : Manager) (runId attemptId : UUID) (executor : TaskEnvelope → Behaviour) :
    Proc ResultEnvelope := do
  let task ← materializeTask runId attemptId
  manager.execute task (executor task)

/-- A call whose answer nobody uses here. -/
def silent {α : Type} (p : Proc α) : Proc Unit := p >>= fun _ => pure ()

def Call.program : Call → Proc Unit
  | .createRun newId engine parameters key autoDispatch dispatcher =>
    silent (System.createRun fingerprint newId engine parameters key autoDispatch dispatcher)
  | .executeTestPlan call autoDispatch dispatcher =>
    silent (System.executeTestPlan refs call autoDispatch dispatcher)
  | .cancel runId => silent (System.cancel runId)
  | .dispatch dispatcher runId => System.dispatch dispatcher runId
  | .prepareRun runId => silent (System.prepareRun runId)
  | .retryRun runId => silent (System.retryRun runId)
  | .recoverLostAttempts now => silent (System.recoverLostAttempts now)
  | .dispatchAvailable dispatcher batchId => silent (System.dispatchAvailable dispatcher batchId)
  | .onRunFinished dispatcher runId => silent (System.onRunFinished dispatcher runId)
  | .pollOnce service fails => silent (service.pollOnce fails)
  | .worker service runId attemptId source => service.worker runId attemptId source
  | .manage manager runId attemptId executor => silent (System.manage manager runId attemptId executor)

end SmartTest.System
