import SmartTest.System.World

/-!
# Dispatching

`services/api/dispatcher.py`, `services/api/execution_coordinator.py` and the Celery tasks
of `workers/tasks.py`.
-/

open SmartTest.Lib SmartTest.Run SmartTest.Plan

namespace SmartTest.System

/-! ## Dispatchers -/

/-- A `RunDispatcher`. `fails` says what `send_task` raises for a run, if anything. -/
inductive Dispatcher where
  | database
  | celery (fails : UUID → Option Exn)

/-- The body that `DatabaseRunDispatcher.dispatch` and `prepare_run` share. -/
def advance (site : Site) (message : String) (runId : UUID) : Proc RunRecord := do
  let current ← get runId
  if current.state = .created then throw ⟨.invalidTransition, message⟩
  else if current.state ≠ .queued then return current
  else
    (transition site runId .dispatching).handle fun e =>
      if e.kind ≠ .invalidTransition then throw e
      else do
        let current ← get runId
        if current.state ≠ .queued then return current else throw e

/-- `send_task("smarttest.prepare_run", ...)`. -/
def sendTask (runId : UUID) (failure : Option Exn) : Proc Unit :=
  .op (.send runId) (World.reading fun _ =>
    match failure with
    | some e => .error e
    | none => .ok ())

def dispatch (dispatcher : Dispatcher) (runId : UUID) : Proc Unit :=
  match dispatcher with
  | .database => do
    let _ ← advance .dispatcher "cannot dispatch a run that has not been queued" runId
  | .celery fails => sendTask runId (fails runId)

/-! ## Worker tasks -/

def prepareRun (runId : UUID) : Proc RunRecord :=
  advance .worker "cannot prepare a run that has not been queued" runId

def retryRun (runId : UUID) : Proc RunRecord := do
  let current ← get runId
  if current.state ≠ .retryWait then return current
  else do
    let _ ← transition .worker runId .queued
    prepareRun runId

/-- `recover_lost_attempts`; without a `now` it takes the current time. -/
def recoverLostAttempts (now : Option Instant) : Proc Nat := do
  let cutoff ← match now with
    | some instant => pure instant
    | none => utcnow
  let lost ← expireAttemptLeases cutoff
  return lost.length

/-! ## Batches -/

structure DispatchResult where
  dispatched : List UUID
  failed : List UUID
  deriving DecidableEq, Repr

/-- The body of the loop over the claimed runs; `false` when the dispatch failed. -/
def dispatchOne (dispatcher : Dispatcher) (runId : UUID) : Proc Bool :=
  (dispatch dispatcher runId >>= fun _ => pure true).handle fun _ => do
    let _ ← transition .coordinator runId .infraError
    return false

def dispatchClaimed (dispatcher : Dispatcher) : List UUID → Proc DispatchResult
  | [] => return ⟨[], []⟩
  | runId :: rest => do
    let sent ← dispatchOne dispatcher runId
    let result ← dispatchClaimed dispatcher rest
    if sent then return { result with dispatched := runId :: result.dispatched }
    else return { result with failed := runId :: result.failed }

def outOfRounds : Exn := ⟨.other "RuntimeError", "more claims than runs"⟩

/-- The `while` loop, from a claim on. Every claim takes a run out of `CREATED`, so the number of runs
bounds the rounds. -/
def dispatchRounds (dispatcher : Dispatcher) (batchId : UUID) :
    (rounds : Nat) → (claimed dispatched failed : List UUID) → Proc DispatchResult
  | _, [], dispatched, failed => return ⟨dispatched, failed⟩
  | 0, _ :: _, _, _ => throw outOfRounds
  | rounds + 1, runId :: rest, dispatched, failed => do
    let result ← dispatchClaimed dispatcher (runId :: rest)
    if result.failed = [] then return ⟨dispatched ++ result.dispatched, failed⟩
    else do
      let (claimed, _) ← claimAvailableRuns batchId
      dispatchRounds dispatcher batchId rounds claimed (dispatched ++ result.dispatched)
        (failed ++ result.failed)

def dispatchAvailable (dispatcher : Dispatcher) (batchId : UUID) : Proc DispatchResult := do
  let (claimed, size) ← claimAvailableRuns batchId
  dispatchRounds dispatcher batchId size claimed [] []

def onRunFinished (dispatcher : Dispatcher) (runId : UUID) : Proc DispatchResult := do
  let spec ← .op (.finished runId) (World.reading fun w => w.plans.getRunSpec runId)
  dispatchAvailable dispatcher spec.batchId

end SmartTest.System
