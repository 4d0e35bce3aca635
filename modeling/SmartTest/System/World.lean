import SmartTest.Lib.Prog
import SmartTest.Plan.Sql

/-!
# The shared state of the run system

The repositories, the clock and the local runner services, with each repository call as
one atomic step of a program.
-/

open SmartTest.Lib SmartTest.Run SmartTest.Plan

namespace SmartTest.System

/-- The state of a `LocalRunnerService` that others can see: `_submitted`, and the jobs handed to its
pool that no worker has taken yet. -/
structure Service where
  submitted : List UUID
  jobs : List UUID

structure World where
  runs : RunRepository
  plans : TestPlanRepository
  clock : Instant
  services : Dict String Service
  /-- Whether plans are kept in SQL. -/
  sql : Bool

/-- Which component asks for a run transition. -/
inductive Site where
  | route | dispatcher | worker | coordinator | manager | convergence
  deriving DecidableEq, Repr

inductive Label where
  | read
  | createOrGet (newId : UUID)
  | executePlan (batchId : UUID)
  | claim (batchId : UUID)
  | transition (site : Site) (runId : UUID) (target : RunState)
  | cancel (runId : UUID)
  | beginAttempt (runId attemptId : UUID)
  | transitionAttempt (attemptId : UUID) (target : AttemptState)
  | completeAttempt (task : TaskEnvelope) (result : ResultEnvelope) (target : AttemptState) (scheduler : Bool)
  | renewAttemptLease (attemptId : UUID)
  | appendEvent (event : EventEnvelope)
  | schedule (runId : UUID) (fails : Bool)
  | send (runId : UUID)
  | finished (runId : UUID)
  | expireAttemptLeases (cutoff : Instant)
  | mark (service : String) (runId : UUID)
  | submit (service : String) (runId : UUID) (fails : Bool)
  | unmark (service : String) (runId : UUID)
  | take (service : String) (runId : UUID)
  | converge (runId : UUID)
  | completed (service : String) (runId : UUID)

abbrev Proc (α : Type) := Prog Label World Exn α

/-! ## Repository calls -/

namespace World

/-- A call that only reads. -/
def reading {α : Type} (f : World → Except Exn α) (w : World) : Except Exn α × World := (f w, w)

def onRuns {α : Type} (f : World → Except Exn (α × RunRepository)) (w : World) : Except Exn α × World :=
  match f w with
  | .ok (a, runs) => (.ok a, { w with runs := runs })
  | .error e => (.error e, w)

def onService {α : Type} (name : String) (f : Service → α × Service) (w : World) : α × World :=
  let (a, service) := f ((w.services.get? name).getD ⟨[], []⟩)
  (a, { w with services := w.services.set name service })

end World

open World

def get (runId : UUID) : Proc RunRecord := .op .read (reading fun w => w.runs.get runId)

/-- `datetime.now(UTC)`. -/
def utcnow : Proc Instant := .op .read (reading fun w => .ok w.clock)

def list : Proc (List RunRecord) := .op .read (reading fun w => .ok w.runs.list)

def getAttempt (attemptId : UUID) : Proc AttemptRecord :=
  .op .read (reading fun w => w.runs.getAttempt attemptId)

def listAttempts (runId : UUID) : Proc (List AttemptRecord) :=
  .op .read (reading fun w => w.runs.listAttempts runId)

def getRunSpec (runId : UUID) : Proc RunSpecRecord := .op .read (reading fun w => w.plans.getRunSpec runId)

def materializeTask (runId attemptId : UUID) : Proc TaskEnvelope :=
  .op .read (reading fun w => materialize w.plans runId attemptId)

def transition (site : Site) (runId : UUID) (target : RunState) : Proc RunRecord :=
  .op (.transition site runId target) (onRuns fun w => w.runs.transition runId target)

def cancel (runId : UUID) : Proc RunRecord := .op (.cancel runId) (onRuns fun w => w.runs.cancel runId)

def beginAttempt (runId attemptId : UUID) (runnerId : String) (leaseSeconds : Int) :
    Proc (RunRecord × AttemptRecord) :=
  .op (.beginAttempt runId attemptId)
    (onRuns fun w => w.runs.beginAttempt runId attemptId runnerId leaseSeconds w.clock)

def transitionAttempt (attemptId : UUID) (target : AttemptState) : Proc AttemptRecord :=
  .op (.transitionAttempt attemptId target) (onRuns fun w => w.runs.transitionAttempt attemptId target)

def completeAttempt (task : TaskEnvelope) (result : ResultEnvelope) (target : AttemptState)
    (scheduler : Bool) : Proc AttemptRecord :=
  .op (.completeAttempt task result target scheduler)
    (onRuns fun w => w.runs.completeAttempt task.attemptId target result)

def renewAttemptLease (attemptId : UUID) (runnerId : String) (leaseSeconds : Int) : Proc AttemptRecord :=
  .op (.renewAttemptLease attemptId)
    (onRuns fun w => w.runs.renewAttemptLease attemptId runnerId leaseSeconds w.clock)

def appendEvent (event : EventEnvelope) : Proc EventRecord :=
  .op (.appendEvent event) (onRuns fun w => w.runs.appendEvent event)

def expireAttemptLeases (cutoff : Instant) : Proc (List AttemptRecord) :=
  .op (.expireAttemptLeases cutoff) fun w =>
    let (answer, runs) := w.runs.expireAttemptLeases cutoff
    (answer, { w with runs := runs })

/-- `claim_available_runs` of either implementation, with the number of runs of the batch. -/
def claimRuns (w : World) (batchId : UUID) : Except Exn ((List UUID × Nat) × RunRepository) := do
  let batch ← w.plans.getExecutionBatch batchId
  let (claimed, runs) ← if w.sql then sqlClaimAvailableRuns w.plans w.runs batchId
    else w.plans.claimAvailableRuns w.runs batchId
  return ((claimed, batch.runIds.length), runs)

def claimAvailableRuns (batchId : UUID) : Proc (List UUID × Nat) :=
  .op (.claim batchId) (onRuns fun w => claimRuns w batchId)

end SmartTest.System
