import Mathlib.Algebra.GroupWithZero.Nat
import SmartTest.Lib.Dict
import SmartTest.Lib.Json
import SmartTest.Lib.Text
import SmartTest.Lib.Uuid

/-!
# The runner protocol

The envelopes of `packages/protocol/models.py`, with the fields the run system reads. A
UUID is its canonical text, an instant a number of microseconds.
-/

open SmartTest.Lib

namespace SmartTest.Run

structure UUID where
  text : String
  deriving DecidableEq, Repr

/-- The text is that of 128 bits. -/
def UUID.Spelled (id : UUID) : Prop := ∃ value < 16 ^ 32, id.text = .ofList (uuidText value)

abbrev Instant := Int

def Instant.addSeconds (t : Instant) (seconds : Int) : Instant := t + seconds * 1000000

inductive Engine where
  | http | pytest | playwright
  deriving DecidableEq, Repr

def Engine.value : Engine → String
  | .http => "http"
  | .pytest => "pytest"
  | .playwright => "playwright"

inductive EventType where
  | started | progress | log | assertion | extraction | screenshot | error | heartbeat | artifact | finished
  deriving DecidableEq, Repr

def EventType.value : EventType → String
  | .started => "started"
  | .progress => "progress"
  | .log => "log"
  | .assertion => "assertion"
  | .extraction => "extraction"
  | .screenshot => "screenshot"
  | .error => "error"
  | .heartbeat => "heartbeat"
  | .artifact => "artifact"
  | .finished => "finished"

inductive ResultOutcome where
  | succeeded | failed | cancelled | timedOut | infraError
  deriving DecidableEq, Repr

def ResultOutcome.value : ResultOutcome → String
  | .succeeded => "succeeded"
  | .failed => "failed"
  | .cancelled => "cancelled"
  | .timedOut => "timed_out"
  | .infraError => "infra_error"

/-- An accepted `RetryPolicy`: the proofs are what its validators check. -/
structure RetryPolicy where
  maxAttempts : Nat
  retryOn : List ResultOutcome
  backoffSeconds : Nat
  maxBackoffSeconds : Nat
  allowNonIdempotentHttp : Bool
  maxAttempts_pos : 1 ≤ maxAttempts
  maxAttempts_le : maxAttempts ≤ 5
  backoff_le : backoffSeconds ≤ 300
  maxBackoff_le : maxBackoffSeconds ≤ 600
  retryOn_nodup : retryOn.Nodup
  not_succeeded : .succeeded ∉ retryOn
  not_cancelled : .cancelled ∉ retryOn
  backoff_le_max : backoffSeconds ≤ maxBackoffSeconds

def RetryPolicy.default : RetryPolicy where
  maxAttempts := 1
  retryOn := [.infraError, .timedOut]
  backoffSeconds := 1
  maxBackoffSeconds := 60
  allowNonIdempotentHttp := false
  maxAttempts_pos := by decide
  maxAttempts_le := by decide
  backoff_le := by decide
  maxBackoff_le := by decide
  retryOn_nodup := by decide
  not_succeeded := by decide
  not_cancelled := by decide
  backoff_le_max := by decide

inductive ConfigurationCategory where
  | environmentVariable | commonParameter
  deriving DecidableEq, Repr

def ConfigurationCategory.value : ConfigurationCategory → String
  | .environmentVariable => "environment_variable"
  | .commonParameter => "common_parameter"

structure SecretReference where
  category : ConfigurationCategory
  name : String
  secretRef : UUID
  deriving DecidableEq, Repr

/-! ## Rules and steps -/

inductive AssertionSource where
  | statusCode | header | jsonPath | body | responseTimeMs
  deriving DecidableEq, Repr

def AssertionSource.value : AssertionSource → String
  | .statusCode => "status_code"
  | .header => "header"
  | .jsonPath => "json_path"
  | .body => "body"
  | .responseTimeMs => "response_time_ms"

def AssertionSource.takesExpression (source : AssertionSource) : Bool := source = .header || source = .jsonPath

inductive Operator where
  | eq | ne | gt | gte | lt | lte | contains | matches
  deriving DecidableEq, Repr

def Operator.value : Operator → String
  | .eq => "eq"
  | .ne => "ne"
  | .gt => "gt"
  | .gte => "gte"
  | .lt => "lt"
  | .lte => "lte"
  | .contains => "contains"
  | .matches => "matches"

/-- An accepted `AssertionRule`: exactly the rules on headers and paths have an expression. -/
structure AssertionRule where
  source : AssertionSource
  expression : Option String
  operator : Operator
  expected : Json
  expression_le : ∀ e ∈ expression, e.length ≤ 1024
  expression_iff : if source.takesExpression then expression.any (· ≠ "") else expression = none

inductive ExtractionSource where
  | header | jsonPath | regex | cookie
  deriving DecidableEq, Repr

def ExtractionSource.value : ExtractionSource → String
  | .header => "header"
  | .jsonPath => "json_path"
  | .regex => "regex"
  | .cookie => "cookie"

/-- `ENVIRONMENT_NAME_PATTERN`: a letter or `_`, then up to 127 letters, digits or `_`. -/
def isEnvironmentName (name : String) : Bool :=
  match name.toList with
  | [] => false
  | c :: rest => (c.isAlpha || c = '_') && rest.all (fun d => d.isAlphanum || d = '_') && rest.length ≤ 127

structure ExtractionRule where
  name : String
  source : ExtractionSource
  expression : String
  required : Bool
  name_ok : isEnvironmentName name = true
  expression_pos : 1 ≤ expression.length
  expression_le : expression.length ≤ 1024

structure HttpStep where
  name : String
  request : Dict String Json
  assertions : List AssertionRule
  extractions : List ExtractionRule
  required : Bool
  name_pos : 1 ≤ name.length
  name_le : name.length ≤ 128
  assertions_le : assertions.length ≤ 50
  extractions_le : extractions.length ≤ 50

/-- An accepted `ExecutionPolicy`: no two of its extractions share a name. -/
structure ExecutionPolicy where
  beforeSteps : List HttpStep
  assertions : List AssertionRule
  extractions : List ExtractionRule
  afterSteps : List HttpStep
  retry : RetryPolicy
  before_le : beforeSteps.length ≤ 20
  assertions_le : assertions.length ≤ 50
  extractions_le : extractions.length ≤ 50
  after_le : afterSteps.length ≤ 20
  names_nodup :
    ((extractions ++ (beforeSteps ++ afterSteps).flatMap HttpStep.extractions).map ExtractionRule.name).Nodup

/-- The policy without steps or rules. -/
def ExecutionPolicy.plain (retry : RetryPolicy) : ExecutionPolicy where
  beforeSteps := []
  assertions := []
  extractions := []
  afterSteps := []
  retry := retry
  before_le := by simp
  assertions_le := by simp
  extractions_le := by simp
  after_le := by simp
  names_nodup := by simp

/-- Whether a policy has something only the HTTP engine can run. -/
def ExecutionPolicy.needsHttp (policy : ExecutionPolicy) : Bool :=
  !(policy.beforeSteps.isEmpty && policy.afterSteps.isEmpty && policy.assertions.isEmpty &&
    policy.extractions.isEmpty)

/-! ## Envelopes -/

/-- The fields of a task that the run system reads. -/
structure TaskEnvelope where
  runId : UUID
  attemptId : UUID
  engine : Engine
  parameters : Dict String Json
  executionPolicy : ExecutionPolicy

structure EventEnvelope where
  runId : UUID
  attemptId : UUID
  engine : Engine
  eventId : UUID
  seq : Nat
  occurredAt : Instant
  type : EventType
  payload : Dict String Json

structure ResultEnvelope where
  runId : UUID
  attemptId : UUID
  engine : Engine
  outcome : ResultOutcome
  completedAt : Instant
  durationMs : Nat
  summary : Dict String Json

/-! ## Retry decisions -/

structure RetryDecision where
  shouldRetry : Bool
  delaySeconds : Nat
  reason : String
  deriving DecidableEq, Repr

/-- `str.upper` on the characters that can end up in one of the six methods. -/
def upperChar (c : Char) : Char :=
  if c = 'ı' then 'I' else if c = 'ſ' then 'S' else c.toUpper

/-- `str(request.get("method", "GET")).upper()`, or `none` where that is no method: the text of a
number, of `None` or of a container never spells one. -/
def requestMethod (request : List (String × Json)) : Option String :=
  match request.lookup "method" with
  | none => some "GET"
  | some (.str text) => some (String.ofList (text.toList.map upperChar))
  | some _ => none

def IDEMPOTENT_METHODS : List String := ["GET", "HEAD", "OPTIONS", "TRACE", "PUT", "DELETE"]

/-- Only a mapping has a method. -/
def isIdempotent : Json → Bool
  | .obj request => (requestMethod request).any (· ∈ IDEMPOTENT_METHODS)
  | _ => false

def retryRequests (task : TaskEnvelope) : List Json :=
  let steps := task.executionPolicy.beforeSteps ++ task.executionPolicy.afterSteps
  (task.parameters.get? "request").getD (.obj []) :: steps.map fun step => .obj step.request.entries

def decideRetry (task : TaskEnvelope) (result : ResultEnvelope) (attemptNumber : Nat) : RetryDecision :=
  let policy := task.executionPolicy.retry
  if attemptNumber ≥ policy.maxAttempts then ⟨false, 0, "max_attempts_reached"⟩
  else if result.outcome ∉ policy.retryOn then ⟨false, 0, "outcome_not_retryable"⟩
  else if task.engine = .http && !policy.allowNonIdempotentHttp && !(retryRequests task).all isIdempotent then
    ⟨false, 0, "non_idempotent_http"⟩
  else
    let delay := min (policy.backoffSeconds * 2 ^ (attemptNumber - 1)) policy.maxBackoffSeconds
    ⟨true, delay, "retryable_" ++ result.outcome.value⟩

/-- A retry is decided only below the attempt limit, for an outcome the policy names. -/
theorem decideRetry_shouldRetry {task : TaskEnvelope} {result : ResultEnvelope} {n : Nat}
    (h : (decideRetry task result n).shouldRetry = true) :
    n < task.executionPolicy.retry.maxAttempts ∧ result.outcome ∈ task.executionPolicy.retry.retryOn := by
  simp only [decideRetry] at h
  split at h
  · simp at h
  · split at h
    · simp at h
    · next hlt hin => exact ⟨by omega, by simpa using hin⟩

theorem not_retried {task : TaskEnvelope} {result : ResultEnvelope} {n : Nat}
    (h : result.outcome = .succeeded ∨ result.outcome = .cancelled) :
    (decideRetry task result n).shouldRetry = false := by
  rw [← Bool.not_eq_true]
  intro hretry
  have hin := (decideRetry_shouldRetry hretry).2
  rcases h with h | h
  · exact task.executionPolicy.retry.not_succeeded (h ▸ hin)
  · exact task.executionPolicy.retry.not_cancelled (h ▸ hin)

end SmartTest.Run
