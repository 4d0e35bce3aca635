import SmartTest.Lib.Except
import SmartTest.Run.Protocol

/-!
# Runs and attempts

The state machines and records of `services/api/domain.py`. `updated_at` is left out: no
operation reads it.
-/

open SmartTest.Lib

namespace SmartTest.Run

inductive RunState where
  | created | queued | dispatching | running | retryWait | cancelling
  | succeeded | failed | cancelled | timedOut | infraError
  deriving DecidableEq, Repr

inductive AttemptState where
  | pending | claimed | preparing | running | collecting
  | succeeded | failed | cancelled | timedOut | infraError | lost
  deriving DecidableEq, Repr

def RunState.value : RunState → String
  | .created => "CREATED"
  | .queued => "QUEUED"
  | .dispatching => "DISPATCHING"
  | .running => "RUNNING"
  | .retryWait => "RETRY_WAIT"
  | .cancelling => "CANCELLING"
  | .succeeded => "SUCCEEDED"
  | .failed => "FAILED"
  | .cancelled => "CANCELLED"
  | .timedOut => "TIMED_OUT"
  | .infraError => "INFRA_ERROR"

def AttemptState.value : AttemptState → String
  | .pending => "PENDING"
  | .claimed => "CLAIMED"
  | .preparing => "PREPARING"
  | .running => "RUNNING"
  | .collecting => "COLLECTING"
  | .succeeded => "SUCCEEDED"
  | .failed => "FAILED"
  | .cancelled => "CANCELLED"
  | .timedOut => "TIMED_OUT"
  | .infraError => "INFRA_ERROR"
  | .lost => "LOST"

def RUN_TERMINAL : List RunState := [.succeeded, .failed, .cancelled, .timedOut, .infraError]

def ATTEMPT_TERMINAL : List AttemptState := [.succeeded, .failed, .cancelled, .timedOut, .infraError, .lost]

def ATTEMPT_LEASED : List AttemptState := [.claimed, .preparing, .running, .collecting]

def RUN_TRANSITIONS : RunState → List RunState
  | .created => [.queued, .cancelling]
  | .queued => [.dispatching, .cancelling, .failed, .timedOut, .infraError]
  | .dispatching => [.running, .cancelling, .failed, .timedOut, .infraError]
  | .running => [.cancelling, .succeeded, .failed, .timedOut, .infraError, .retryWait]
  | .retryWait => [.queued, .cancelling, .infraError]
  | .cancelling => [.cancelled, .failed, .timedOut, .infraError]
  | _ => []

def ATTEMPT_TRANSITIONS : AttemptState → List AttemptState
  | .pending => [.claimed, .cancelled]
  | .claimed => [.preparing, .cancelled, .infraError, .lost]
  | .preparing => [.running, .cancelled, .infraError, .lost]
  | .running => [.collecting, .cancelled, .failed, .timedOut, .infraError, .lost]
  | .collecting => ATTEMPT_TERMINAL
  | _ => []

def RunState.terminal (state : RunState) : Bool := state ∈ RUN_TERMINAL

def AttemptState.terminal (state : AttemptState) : Bool := state ∈ ATTEMPT_TERMINAL

def AttemptState.leased (state : AttemptState) : Bool := state ∈ ATTEMPT_LEASED

theorem run_transitions_terminal {s t : RunState} (h : s.terminal = true) : t ∉ RUN_TRANSITIONS s := by
  cases s <;> simp_all [RunState.terminal, RUN_TERMINAL, RUN_TRANSITIONS]

theorem attempt_transitions_terminal {s t : AttemptState} (h : s.terminal = true) :
    t ∉ ATTEMPT_TRANSITIONS s := by
  cases s <;> simp_all [AttemptState.terminal, ATTEMPT_TERMINAL, ATTEMPT_TRANSITIONS]

theorem terminal_of_leased {s : AttemptState} (h : s.leased = true) : s.terminal = false := by
  revert h
  cases s <;> simp [AttemptState.leased, ATTEMPT_LEASED, AttemptState.terminal, ATTEMPT_TERMINAL]

theorem terminal_not_leased {s : AttemptState} (h : s.terminal = true) : s.leased = false := by
  revert h
  cases s <;> simp [AttemptState.leased, ATTEMPT_LEASED, AttemptState.terminal, ATTEMPT_TERMINAL]

/-! ## Exceptions -/

inductive ExnKind where
  | invalidTransition | runNotFound | attemptNotFound | attemptConflict | terminalRunConflict
  | idempotencyConflict | eventConflict | runnerIdentityError | testPlanNotFound | runSpecNotFound
  | testPlanConflict | integrityError | keyError | valueError
  | other (name : String)
  deriving DecidableEq, Repr

/-- `type(exc).__name__`. -/
def ExnKind.name : ExnKind → String
  | .invalidTransition => "InvalidTransition"
  | .runNotFound => "RunNotFound"
  | .attemptNotFound => "AttemptNotFound"
  | .attemptConflict => "AttemptConflict"
  | .terminalRunConflict => "TerminalRunConflict"
  | .idempotencyConflict => "IdempotencyConflict"
  | .eventConflict => "EventConflict"
  | .runnerIdentityError => "RunnerIdentityError"
  | .testPlanNotFound => "TestPlanNotFound"
  | .runSpecNotFound => "RunSpecNotFound"
  | .testPlanConflict => "TestPlanConflict"
  | .integrityError => "IntegrityError"
  | .keyError => "KeyError"
  | .valueError => "ValueError"
  | .other name => name

structure Exn where
  kind : ExnKind
  message : String
  deriving DecidableEq, Repr

/-- `_transition`. -/
def transitionBy {State : Type} [DecidableEq State] (value : State → String) (rules : State → List State)
    (current target : State) : Except Exn State :=
  if target ∈ rules current then .ok target
  else .error ⟨.invalidTransition,
    "cannot transition from " ++ value current ++ " to " ++ value target⟩

def transitionRun : RunState → RunState → Except Exn RunState :=
  transitionBy RunState.value RUN_TRANSITIONS

def transitionAttempt : AttemptState → AttemptState → Except Exn AttemptState :=
  transitionBy AttemptState.value ATTEMPT_TRANSITIONS

theorem transitionBy_ok_iff {State : Type} [DecidableEq State] {value : State → String}
    {rules : State → List State} {current target next : State} :
    transitionBy value rules current target = .ok next ↔ target ∈ rules current ∧ next = target := by
  unfold transitionBy
  split <;> simp_all [eq_comm]

/-! ## Records -/

structure RunRecord where
  id : UUID
  engine : Engine
  parameters : Dict String Json
  state : RunState
  createdAt : Instant
  stateVersion : Nat

def RunRecord.moved (run : RunRecord) (state : RunState) : RunRecord :=
  { run with state := state, stateVersion := run.stateVersion + 1 }

def RunRecord.withState (run : RunRecord) (state : RunState) : Except Exn RunRecord := do
  let next ← transitionRun run.state state
  return run.moved next

theorem RunRecord.withState_ok_iff {run updated : RunRecord} {state : RunState} :
    run.withState state = .ok updated ↔ state ∈ RUN_TRANSITIONS run.state ∧ updated = run.moved state := by
  simp only [withState, bind_eq_ok_iff, transitionRun, transitionBy_ok_iff, pure_eq_ok_iff]
  constructor
  · rintro ⟨_, ⟨hmem, rfl⟩, rfl⟩
    exact ⟨hmem, rfl⟩
  · rintro ⟨hmem, rfl⟩
    exact ⟨state, ⟨hmem, rfl⟩, rfl⟩

structure AttemptRecord where
  id : UUID
  runId : UUID
  state : AttemptState
  createdAt : Instant
  stateVersion : Nat
  outcome : Option ResultOutcome
  durationMs : Option Nat
  summary : Option (Dict String Json)
  completedAt : Option Instant
  runnerId : Option String
  heartbeatAt : Option Instant
  leaseExpiresAt : Option Instant

namespace AttemptRecord

/-- `AttemptRecord(id, run_id, PENDING, now, now)`. -/
def fresh (id runId : UUID) (now : Instant) : AttemptRecord where
  id := id
  runId := runId
  state := .pending
  createdAt := now
  stateVersion := 0
  outcome := none
  durationMs := none
  summary := none
  completedAt := none
  runnerId := none
  heartbeatAt := none
  leaseExpiresAt := none

def moved (attempt : AttemptRecord) (state : AttemptState) : AttemptRecord :=
  { attempt with state := state, stateVersion := attempt.stateVersion + 1 }

def withState (attempt : AttemptRecord) (state : AttemptState) : Except Exn AttemptRecord := do
  let next ← transitionAttempt attempt.state state
  return attempt.moved next

def withResult (attempt : AttemptRecord) (state : AttemptState) (result : ResultEnvelope) :
    Except Exn AttemptRecord := do
  if result.attemptId ≠ attempt.id ∨ result.runId ≠ attempt.runId then
    .error ⟨.valueError, "result identity does not match the attempt"⟩
  let next ← transitionAttempt attempt.state state
  return { attempt.moved next with
    outcome := some result.outcome
    durationMs := some result.durationMs
    summary := some result.summary
    completedAt := some result.completedAt }

def claimed (attempt : AttemptRecord) (runnerId : String) (leaseSeconds : Int) (now : Instant) :
    Except Exn AttemptRecord := do
  let identity := strip runnerId
  if identity = "" ∨ identity.length > 255 then
    .error ⟨.valueError, "runner_id must contain 1 to 255 characters"⟩
  if leaseSeconds ≤ 0 then .error ⟨.valueError, "lease_seconds must be positive"⟩
  let next ← attempt.withState .claimed
  return { next with
    runnerId := some identity
    heartbeatAt := some now
    leaseExpiresAt := some (now.addSeconds leaseSeconds) }

def withHeartbeat (attempt : AttemptRecord) (runnerId : String) (leaseSeconds : Int) (now : Instant) :
    Except Exn AttemptRecord := do
  if !attempt.state.leased then
    .error ⟨.invalidTransition, "attempt is already " ++ attempt.state.value⟩
  if attempt.runnerId ≠ some runnerId then
    .error ⟨.valueError, "runner identity does not own this attempt"⟩
  if attempt.leaseExpiresAt.all (· ≤ now) then .error ⟨.invalidTransition, "attempt lease has expired"⟩
  if leaseSeconds ≤ 0 then .error ⟨.valueError, "lease_seconds must be positive"⟩
  return { attempt with heartbeatAt := some now, leaseExpiresAt := some (now.addSeconds leaseSeconds) }

def lost (attempt : AttemptRecord) (now : Instant) : Except Exn AttemptRecord := do
  let next ← attempt.withState .lost
  return { next with
    outcome := some .infraError
    summary := some (Dict.empty.set "reason" (.str "runner_lease_expired"))
    completedAt := some now }

end AttemptRecord

structure EventRecord where
  cursor : Nat
  eventId : UUID
  runId : UUID
  attemptId : UUID
  engine : Engine
  seq : Nat
  occurredAt : Instant
  type : EventType
  payload : Dict String Json

end SmartTest.Run
