import SmartTest.System.Steps
import SmartTest.Lib.Pool

/-!
# The run system

All calls at once, with a history of what each of them did. The history is read by no
call; it only says, in the statements about runs, which call began an attempt, which runs
a call still has to see to, and which batches it still has to refill.
-/

open SmartTest.Lib SmartTest.Run SmartTest.Run.RunRepository SmartTest.Plan

namespace SmartTest.System

/-! ## What a step did -/

def runState? (w : World) (runId : UUID) : Option RunState := (w.runs.runs.get? runId).map (·.state)

def isTerminal (w : World) (runId : UUID) : Bool := (runState? w runId).any (·.terminal)

def isCancelling (w : World) (runId : UUID) : Bool := runState? w runId = some .cancelling

def batchOfRun? (w : World) (runId : UUID) : Option UUID := (w.plans.specsByRun.get? runId).map (·.batchId)

abbrev SystemStep := Seen Label World

/-- The runs of batches that the step took to a terminal state. -/
def endedRuns (seen : SystemStep) : List UUID :=
  seen.before.runs.runs.keys.filter fun r =>
    !isTerminal seen.before r && isTerminal seen.after r && (batchOfRun? seen.before r).isSome

def claimedRuns (seen : SystemStep) : List UUID :=
  match seen.label with
  | .claim batchId => match claimRuns seen.before batchId with
    | .ok ((claimed, _), _) => claimed
    | .error _ => []
  | _ => []

/-- A manager that completes an attempt so can end the run whatever is cancelled from then on: it asks
neither for `SUCCEEDED` nor for a retry next, and for `CANCELLING` only if the run is there. -/
def endsRun (w : World) (task : TaskEnvelope) (result : ResultEnvelope) (scheduler : Bool) : Bool :=
  result.outcome ≠ .succeeded && (result.outcome ≠ .cancelled || isCancelling w task.runId) &&
    !((decideRetry task result (w.runs.attemptsOf task.runId).length).shouldRetry && scheduler)

def serviceOf (w : World) (name : String) : Service := (w.services.get? name).getD ⟨[], []⟩

/-! ## Notes on one call -/

structure Notes where
  /-- The run and the attempt that the call began. -/
  begun : Option (UUID × UUID)
  /-- The run for which it stands between the read and the write of `_converge_infra_error`. -/
  converging : Option UUID
  /-- Its job is done. -/
  completed : Bool
  /-- The runs it has taken on itself. -/
  duty : List UUID
  /-- The runs it ended and has not reported with `on_run_finished`. -/
  unreported : List UUID
  /-- The batches it made or of which it ended a run, without a claim since. -/
  owed : List UUID
  /-- It ended a batch's run by lease expiry, or recorded a failed dispatch of a run that was over. -/
  excused : Bool

namespace Notes

def fresh : Notes := ⟨none, none, false, [], [], [], false⟩

def nextBegun (seen : SystemStep) (begun : Option (UUID × UUID)) : Option (UUID × UUID) :=
  match seen.label with
  | .beginAttempt runId attemptId =>
    if (seen.before.runs.attempts.get? attemptId).isNone && (seen.after.runs.attempts.get? attemptId).isSome then
      some (runId, attemptId)
    else begun
  | _ => begun

def nextConverging (seen : SystemStep) (converging : Option UUID) : Option UUID :=
  match seen.label with
  | .converge runId =>
    if (runState? seen.before runId).any fun s => !s.terminal && s ≠ .created then some runId else none
  | .transition .convergence _ _ => none
  | _ => converging

def nextDuty (seen : SystemStep) (duty : List UUID) : List UUID :=
  match seen.label with
  | .take service runId => if runId ∈ (serviceOf seen.before service).jobs then duty ++ [runId] else duty
  | .mark service runId =>
    if runId ∈ (serviceOf seen.before service).submitted then duty else duty ++ [runId]
  | .submit _ runId fails => if fails then duty else duty.filter (· ≠ runId)
  | .completeAttempt task result _ scheduler =>
    if endsRun seen.before task result scheduler then duty ++ [task.runId] else duty
  | .transition .manager runId .cancelling =>
    if !isCancelling seen.before runId && isCancelling seen.after runId then duty ++ [runId] else duty
  | _ => duty

def nextUnreported (seen : SystemStep) (unreported : List UUID) : List UUID :=
  match seen.label with
  | .transition .coordinator _ _ => unreported
  | .finished runId => unreported.filter (· ≠ runId)
  | _ => unreported ++ endedRuns seen

def nextOwed (seen : SystemStep) (owed : List UUID) : List UUID :=
  match seen.label with
  | .claim batchId => if (seen.before.plans.batches.get? batchId).isSome then owed.filter (· ≠ batchId) else owed
  | .executePlan batchId =>
    if (seen.before.plans.batches.get? batchId).isNone && (seen.after.plans.batches.get? batchId).isSome then
      owed ++ [batchId]
    else owed
  | _ => owed ++ (endedRuns seen).filterMap (batchOfRun? seen.before)

def nextExcused (seen : SystemStep) (excused : Bool) : Bool :=
  match seen.label with
  | .transition .coordinator runId _ => excused || isTerminal seen.before runId
  | .expireAttemptLeases _ => excused || endedRuns seen ≠ []
  | _ => excused

def observe (seen : SystemStep) (notes : Notes) : Notes where
  begun := nextBegun seen notes.begun
  converging := nextConverging seen notes.converging
  completed := notes.completed || seen.label matches .completed _ _
  duty := nextDuty seen notes.duty
  unreported := nextUnreported seen notes.unreported
  owed := nextOwed seen notes.owed
  excused := nextExcused seen notes.excused

end Notes

/-! ## The whole history -/

structure History where
  notes : Nat → Notes
  /-- The runs that were claimed, in the order of the claims. -/
  claims : List UUID
  /-- The runs that were ever in `RETRY_WAIT`. -/
  retried : List UUID

namespace History

def empty : History := ⟨fun _ => .fresh, [], []⟩

def nextRetried (seen : SystemStep) (retried : List UUID) : List UUID :=
  match seen.label with
  | .transition _ runId .retryWait =>
    if runState? seen.after runId = some .retryWait then retried ++ [runId] else retried
  | _ => retried

def observe (pid : Nat) (seen : SystemStep) (history : History) : History where
  notes := Function.update history.notes pid ((history.notes pid).observe seen)
  claims := history.claims ++ claimedRuns seen
  retried := nextRetried seen history.retried

end History

/-! ## The machine -/

/-- What happens outside the calls: time passes, and plans are created and edited. -/
inductive Outside where
  | tick (micros : Nat)
  | editPlan (planId : UUID) (plan : TestPlanRecord)

def Outside.apply (event : Outside) (w : World) : World :=
  match event with
  | .tick micros => { w with clock := w.clock + micros }
  | .editPlan planId plan => { w with plans := { w.plans with plans := w.plans.plans.set planId plan } }

def machine (fingerprint : Engine → Dict String Json → String) (refs : References) :
    Machine Call Label World History Outside Exn where
  program := Call.program fingerprint refs
  outside := Outside.apply
  obs pid _ seen history := history.observe pid seen

abbrev Cluster := Pool Call Label World History Exn

def World.initial (clock : Instant) (sql : Bool) : World where
  runs := .empty
  plans := ⟨.empty, .empty, .empty, .empty⟩
  clock := clock
  services := .empty
  sql := sql

def Cluster.initial (clock : Instant) (sql : Bool) : Cluster := ⟨World.initial clock sql, .empty, fun _ => none⟩

end SmartTest.System
