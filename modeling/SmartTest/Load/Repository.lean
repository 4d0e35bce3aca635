import Mathlib.Data.List.Sort
import SmartTest.Load.Domain

/-!
# The load test repository

`services/api/load_test_repository.py`, on bodies that `LoadTestUpdate` accepts. Each call
holds the lock, so it is one step.
-/

open SmartTest.Lib SmartTest.Run

namespace SmartTest.Load

def loadTestNotFound (id : UUID) : Exn := ⟨.other "LoadTestNotFound", "load test " ++ id.text ++ " was not found"⟩

def runNotFound (id : UUID) : Exn := ⟨.other "LoadTestRunNotFound", "load test run " ++ id.text ++ " was not found"⟩

/-- The fields of an accepted `LoadTestUpdate`, its name stripped. -/
structure LoadTestBody where
  name : String
  targets : List LoadTestTarget
  mode : LoadTestMode
  requestCount : Nat
  durationSeconds : Nat
  concurrency : Nat
  intervalMs : Nat
  trafficMode : LoadTestTrafficMode
  initialVariables : Dict String Json
  stopOnFailure : Bool
  targets_count : 1 ≤ targets.length ∧ targets.length ≤ 20
  targets_nodup : (targets.map (·.name)).Nodup
  requestCount_range : 1 ≤ requestCount ∧ requestCount ≤ 10000
  concurrency_range : 1 ≤ concurrency ∧ concurrency ≤ 100

/-- `LoadTestRecord.updated`. -/
def LoadTestRecord.updated (record : LoadTestRecord) (body : LoadTestBody) : LoadTestRecord where
  id := record.id
  projectId := record.projectId
  name := body.name
  targets := body.targets
  mode := body.mode
  requestCount := body.requestCount
  durationSeconds := body.durationSeconds
  concurrency := body.concurrency
  intervalMs := body.intervalMs
  stateVersion := record.stateVersion + 1
  trafficMode := body.trafficMode
  initialVariables := body.initialVariables
  stopOnFailure := body.stopOnFailure
  targets_count := body.targets_count
  targets_nodup := body.targets_nodup
  requestCount_range := body.requestCount_range
  concurrency_range := body.concurrency_range

structure LoadTestRepository where
  definitions : Dict UUID LoadTestRecord
  names : Dict (UUID × String) UUID
  runs : Dict UUID LoadTestRunRecord
  responses : Dict UUID (List LoadTestResponse)

namespace LoadTestRepository

variable (repo : LoadTestRepository)

def getLoadTest (loadTestId : UUID) : Except Exn LoadTestRecord :=
  match repo.definitions.get? loadTestId with
  | some record => .ok record
  | none => .error (loadTestNotFound loadTestId)

def updateLoadTest (loadTestId : UUID) (body : LoadTestBody) (expectedVersion : Nat) :
    Except Exn LoadTestRepository := do
  let current ← repo.getLoadTest loadTestId
  if current.stateVersion ≠ expectedVersion then
    .error ⟨.other "LoadTestVersionConflict", "load test state version mismatch"⟩
  if (repo.names.get? (current.projectId, body.name)).any (· ≠ loadTestId) then
    .error ⟨.other "LoadTestNameConflict", "a load test with this project and name exists"⟩
  return { repo with
    definitions := repo.definitions.set loadTestId (current.updated body)
    names := (repo.names.erase (current.projectId, current.name)).set (current.projectId, body.name) loadTestId }

/-- `_active_run`. -/
def activeRun (loadTestId : UUID) : Option LoadTestRunRecord :=
  repo.runs.values.find? fun run => run.loadTestId = loadTestId && run.status = .running

def deleteLoadTest (loadTestId : UUID) : Except Exn LoadTestRepository := do
  let current ← repo.getLoadTest loadTestId
  if (repo.activeRun loadTestId).isSome then
    .error ⟨.other "LoadTestActiveRunConflict", "load test has an active run"⟩
  let removed := (repo.runs.entries.filter (·.2.loadTestId = loadTestId)).map Prod.fst
  return {
    definitions := repo.definitions.erase loadTestId
    names := repo.names.erase (current.projectId, current.name)
    runs := removed.foldl Dict.erase repo.runs
    responses := removed.foldl Dict.erase repo.responses }

/-- `create_run`; the id is from `uuid4`. -/
def createRun (newId loadTestId : UUID) : Except Exn (LoadTestRunRecord × LoadTestRepository) := do
  let definition ← repo.getLoadTest loadTestId
  if (repo.activeRun loadTestId).isSome then
    .error ⟨.other "LoadTestActiveRunConflict", "load test already has an active run"⟩
  let record : LoadTestRunRecord :=
    ⟨newId, loadTestId, .running, definition.mode, none, .empty definition.targetNames, none⟩
  return (record, { repo with runs := repo.runs.set newId record, responses := repo.responses.set newId [] })

def getRun (runId : UUID) : Except Exn LoadTestRunRecord :=
  match repo.runs.get? runId with
  | some run => .ok run
  | none => .error (runNotFound runId)

/-- `add_run_responses`: the responses of a run are kept in the order of their sequence. -/
def addRunResponses (runId : UUID) (responses : List LoadTestResponse) : Except Exn LoadTestRepository := do
  let _ ← repo.getRun runId
  let stored := (repo.responses.get? runId).getD [] ++ responses
  return { repo with
    responses := repo.responses.set runId (stored.insertionSort fun a b => a.sequence ≤ b.sequence) }

/-- `update_run`: a run that is no longer running stays as it is. -/
def updateRun (runId : UUID) (status : LoadTestRunStatus) (metrics : Metrics) (errorMessage : Option String)
    (finishedAt : Option Instant) : Except Exn LoadTestRepository := do
  let current ← repo.getRun runId
  if current.status ≠ .running then return repo
  return { repo with
    runs := repo.runs.set runId
      { current with
        status := status, metrics := metrics, errorMessage := errorMessage, finishedAt := finishedAt } }

end LoadTestRepository

end SmartTest.Load
