import SmartTest.Run.Domain

/-!
# Load tests

The records of `services/api/load_test_domain.py`, with targets as `LoadTestTarget` of
`services/api/load_test_schemas.py` accepts them, and the counters of
`services/api/load_test_executor.py`. Latencies, start times and descriptions are left out:
nothing here reads them.
-/

open SmartTest.Lib SmartTest.Run

namespace SmartTest.Load

inductive LoadTestMode where
  | count | duration
  deriving DecidableEq, Repr

inductive LoadTestTrafficMode where
  | requests | scenario
  deriving DecidableEq, Repr

inductive LoadTestRunStatus where
  | running | succeeded | failed
  deriving DecidableEq, Repr

def HTTP_METHODS : List String := ["GET", "POST", "PUT", "PATCH", "DELETE", "HEAD", "OPTIONS"]

/-- `VARIABLE_PATTERN` is the pattern the protocol has for the names of environment variables. -/
def isVariableName (name : String) : Bool := isEnvironmentName name

/-- An accepted `LoadTestTarget`. -/
structure LoadTestTarget where
  name : String
  method : String
  url : String
  headers : Dict String Json
  query : Dict String Json
  body : Json
  expectedStatuses : List Int
  extractors : Dict String String
  thinkTimeMs : Nat
  name_plain : strip name = name ∧ 1 ≤ name.length ∧ name.length ≤ 255
  method_known : method ∈ HTTP_METHODS
  url_length : 1 ≤ url.length ∧ url.length ≤ 8192
  statuses_known : ∀ code ∈ expectedStatuses, 100 ≤ code ∧ code ≤ 599
  statuses_nodup : expectedStatuses.Nodup
  extractors_named : ∀ e ∈ extractors.entries, isVariableName e.1 = true ∧ e.2.length ≤ 1024 ∧
    ∀ part ∈ e.2.toList.splitOn '.', part ≠ []
  counts_le : headers.entries.length ≤ 100 ∧ query.entries.length ≤ 100 ∧ extractors.entries.length ≤ 100 ∧
    1 ≤ expectedStatuses.length ∧ expectedStatuses.length ≤ 500
  thinkTime_le : thinkTimeMs ≤ 60000

/-- A `LoadTestRecord`. What `validate_settings` and `normalize_targets` have checked is what its fields
say of it. -/
structure LoadTestRecord where
  id : UUID
  projectId : UUID
  name : String
  targets : List LoadTestTarget
  mode : LoadTestMode
  requestCount : Nat
  durationSeconds : Nat
  concurrency : Nat
  intervalMs : Nat
  stateVersion : Nat
  trafficMode : LoadTestTrafficMode
  initialVariables : Dict String Json
  stopOnFailure : Bool
  targets_count : 1 ≤ targets.length ∧ targets.length ≤ 20
  targets_nodup : (targets.map (·.name)).Nodup
  requestCount_range : 1 ≤ requestCount ∧ requestCount ≤ 10000
  concurrency_range : 1 ≤ concurrency ∧ concurrency ≤ 100

def LoadTestRecord.targetNames (record : LoadTestRecord) : List String := record.targets.map (·.name)

/-! ## Counters -/

/-- `_MetricValues`. -/
structure MetricValues where
  total : Nat
  successful : Nat
  failed : Nat
  statuses : Dict Int Nat
  errors : Dict String Nat

/-- `counter[key] += 1`. -/
def tick {κ : Type} [DecidableEq κ] (counter : Dict κ Nat) (key : κ) : Dict κ Nat :=
  counter.set key ((counter.get? key).getD 0 + 1)

namespace MetricValues

def empty : MetricValues := ⟨0, 0, 0, .empty, .empty⟩

def add (values : MetricValues) (success : Bool) (status : Option Int) (error : Option String) : MetricValues where
  total := values.total + 1
  successful := values.successful + success.toNat
  failed := values.failed + (!success).toNat
  statuses := status.elim values.statuses (tick values.statuses)
  errors := error.elim values.errors (tick values.errors)

end MetricValues

/-- `_Metrics`, and a snapshot of it. -/
structure Metrics where
  all : MetricValues
  targets : Dict String MetricValues
  scenarios : MetricValues

namespace Metrics

/-- `empty_metrics(target_names)`, also what `_Metrics` starts with. -/
def empty (targetNames : List String) : Metrics where
  all := .empty
  targets := targetNames.foldl (fun targets name => targets.set name .empty) .empty
  scenarios := .empty

def totalRequests (metrics : Metrics) : Nat := metrics.all.total

/-- `_Metrics.add`: the total it returns is `totalRequests` afterwards. -/
def add (metrics : Metrics) (name : String) (success : Bool) (status : Option Int) (error : Option String) :
    Metrics where
  all := metrics.all.add success status error
  targets := metrics.targets.set name (((metrics.targets.get? name).getD .empty).add success status error)
  scenarios := metrics.scenarios

def addScenario (metrics : Metrics) (success : Bool) : Metrics :=
  { metrics with scenarios := metrics.scenarios.add success none none }

@[simp] theorem totalRequests_empty (names : List String) : (empty names).totalRequests = 0 := rfl

@[simp] theorem totalRequests_add (metrics : Metrics) (name : String) (success : Bool) (status : Option Int)
    (error : Option String) :
    (metrics.add name success status error).totalRequests = metrics.totalRequests + 1 := rfl

@[simp] theorem totalRequests_addScenario (metrics : Metrics) (success : Bool) :
    (metrics.addScenario success).totalRequests = metrics.totalRequests := rfl

end Metrics

/-! ## Runs and responses -/

structure LoadTestRunRecord where
  id : UUID
  loadTestId : UUID
  status : LoadTestRunStatus
  mode : LoadTestMode
  finishedAt : Option Instant
  metrics : Metrics
  errorMessage : Option String

/-- What `_read_captured_body` and `_response_details` say of a body. -/
structure ResponseDetails where
  body : Option String
  bodyKind : String
  truncated : Bool
  bodyBytes : Nat
  deriving DecidableEq, Repr

def ResponseDetails.unavailable : ResponseDetails := ⟨none, "unavailable", false, 0⟩

/-- A response as the executor hands it over and as it is stored. -/
structure LoadTestResponse extends ResponseDetails where
  sequence : Nat
  target : String
  successful : Bool
  status : Option Int
  error : Option String
  deriving DecidableEq, Repr

end SmartTest.Load
