import SmartTest.Lib.Except
import SmartTest.Plan.Domain

/-!
# The plan repository

`services/api/test_plan_repository.py`. Arguments of `create_plan` and `update_plan` stand
as `normalize_plan_items` and `_validate_references` leave them; a call these refuse
changes nothing.
-/

open SmartTest.Lib SmartTest.Run SmartTest.Environment

namespace SmartTest.Plan

def MAX_JSON_MAP_BYTES : Nat := 65536

abbrev Scope := UUID × UUID × String

def ExecutionBatchRecord.scope (batch : ExecutionBatchRecord) : Scope :=
  (batch.tenantId, batch.projectId, batch.idempotencyKey)

structure TestPlanRepository where
  plans : Dict UUID TestPlanRecord
  batches : Dict UUID ExecutionBatchRecord
  specsByRun : Dict UUID RunSpecRecord
  idempotency : Dict Scope (UUID × Nat × UUID)

/-! ## Expansion -/

/-- The common parameters, environment variables and secrets an environment revision gives. -/
structure EnvironmentSnapshot where
  environmentVariables : Dict String Json
  common : Dict String Json
  secrets : List SecretReference

def addValue (snapshot : EnvironmentSnapshot) (value : ConfigurationValue) :
    Except Exn EnvironmentSnapshot :=
  if value.secret then
    match value.secretRef with
    | none => .error ⟨.testPlanConflict, "environment secret reference is invalid"⟩
    | some ref => .ok { snapshot with secrets := snapshot.secrets ++ [⟨value.category, value.name, ref⟩] }
  else if value.category = .environmentVariable then
    .ok { snapshot with environmentVariables := snapshot.environmentVariables.set value.name value.value }
  else .ok { snapshot with common := snapshot.common.set value.name value.value }

def environmentSnapshot (refs : References) (item : TestPlanItem) : Except Exn EnvironmentSnapshot :=
  match item.environmentId, item.environmentRevision with
  | some environmentId, some revision => do
    (← refs.environment environmentId revision).foldlM addValue ⟨.empty, .empty, []⟩
  | _, _ => .ok ⟨.empty, .empty, []⟩

/-- `_json_object`; every `Json` is a JSON value, so only the size is left to check. -/
def jsonObject (refs : References) (value : Dict String Json) (label : String) :
    Except Exn (Dict String Json) :=
  if refs.encodedSize value > MAX_JSON_MAP_BYTES then
    .error ⟨.valueError, label ++ " cannot exceed " ++ toString MAX_JSON_MAP_BYTES ++ " bytes"⟩
  else .ok value

variable (refs : References) (drawn : Drawn) (now : Instant) (plan : TestPlanRecord)
  (sourceOverride : Option (String × String))

/-- The run and the spec of one data row, the `index`-th of the batch. -/
def expandRow (item : TestPlanItem) (script : AutomationScriptRecord) (snapshot : EnvironmentSnapshot)
    (index : Nat) (row : TestPlanDataRow) : Except Exn (RunRecord × RunSpecRecord) := do
  let parameters ← jsonObject refs ((snapshot.common.update item.defaultParameters).update row.values)
    "final parameters"
  let (sourceRef, contentDigest) := sourceOverride.getD (script.sourceRef, script.contentDigest)
  let run : RunRecord := ⟨drawn.runId index, script.engine, parameters, .created, now, 0⟩
  return (run, {
    id := drawn.specId index, runId := drawn.runId index, batchId := drawn.batchId
    tenantId := plan.tenantId, projectId := plan.projectId, planId := plan.id, planRevision := plan.revision
    itemId := item.itemId, rowKey := row.rowKey, engine := script.engine
    scriptId := script.id, scriptRevision := script.revision
    sourceRef := sourceRef, contentDigest := contentDigest
    entrypoint := script.entrypoint, timeoutSeconds := script.timeoutSeconds
    environmentId := item.environmentId, environmentRevision := item.environmentRevision
    environmentVariables := snapshot.environmentVariables, parameters := parameters
    secretReferences := snapshot.secrets, executionPolicy := item.executionPolicy })

def expandRows (item : TestPlanItem) (script : AutomationScriptRecord) (snapshot : EnvironmentSnapshot) :
    (index : Nat) → List TestPlanDataRow → Except Exn (List (RunRecord × RunSpecRecord))
  | _, [] => .ok []
  | index, row :: rest => do
    let pair ← expandRow refs drawn now plan sourceOverride item script snapshot index row
    let pairs ← expandRows item script snapshot (index + 1) rest
    return pair :: pairs

def expandItems : (index : Nat) → List TestPlanItem → Except Exn (List (RunRecord × RunSpecRecord))
  | _, [] => .ok []
  | index, item :: rest => do
    let script ← refs.script item.scriptId item.scriptRevision
    let snapshot ← environmentSnapshot refs item
    let pairs ← expandRows refs drawn now plan sourceOverride item script snapshot index item.dataRows
    let others ← expandItems (index + pairs.length) rest
    return pairs ++ others

/-- `_expand`, as pairs in batch order. -/
def expand : Except Exn (List (RunRecord × RunSpecRecord)) :=
  expandItems refs drawn now plan sourceOverride 0 plan.items

def batchOf (key : String) (pairs : List (RunRecord × RunSpecRecord)) : ExecutionBatchRecord where
  id := drawn.batchId
  tenantId := plan.tenantId
  projectId := plan.projectId
  planId := plan.id
  planRevision := plan.revision
  idempotencyKey := key
  maxParallel := plan.maxParallel
  runIds := pairs.map (·.1.id)

namespace TestPlanRepository

def getPlan (repo : TestPlanRepository) (planId : UUID) : Except Exn TestPlanRecord :=
  match repo.plans.get? planId with
  | some plan => .ok plan
  | none => .error ⟨.testPlanNotFound, "test plan " ++ planId.text ++ " was not found"⟩

def createPlan (repo : TestPlanRepository) (newId tenantId projectId : UUID) (items : List TestPlanItem)
    (maxParallel : Nat) : TestPlanRecord × TestPlanRepository :=
  let plan : TestPlanRecord := ⟨newId, tenantId, projectId, items, maxParallel, .draft, 1, 0⟩
  (plan, { repo with plans := repo.plans.set newId plan })

def updatePlan (repo : TestPlanRepository) (planId : UUID) (expectedVersion : Nat)
    (items : List TestPlanItem) (status : TestPlanStatus) (maxParallel : Nat) :
    Except Exn (TestPlanRecord × TestPlanRepository) := do
  let current ← repo.getPlan planId
  if current.stateVersion ≠ expectedVersion then
    .error ⟨.other "TestPlanVersionConflict", "state version mismatch: expected "
      ++ toString expectedVersion ++ ", current " ++ toString current.stateVersion⟩
  let updated ← current.update items maxParallel status
  return (updated, { repo with plans := repo.plans.set planId updated })

def checkKey (idempotencyKey : String) : Except Exn String :=
  let key := strip idempotencyKey
  if key = "" ∨ key.length > 255 then
    .error ⟨.valueError, "Idempotency-Key must contain 1 to 255 characters"⟩
  else .ok key

def keyConflict : Exn := ⟨.testPlanConflict, "idempotency key was used for another plan revision"⟩

def notActive : Exn := ⟨.testPlanConflict, "only an active test plan revision can be executed"⟩

/-- The writes of `execute`: the runs go to the run repository. -/
def storeBatch (repo : TestPlanRepository) (runs : RunRepository) (batch : ExecutionBatchRecord)
    (pairs : List (RunRecord × RunSpecRecord)) : TestPlanRepository × RunRepository :=
  ({ repo with
      batches := repo.batches.set batch.id batch
      specsByRun := pairs.foldl (fun specs p => specs.set p.2.runId p.2) repo.specsByRun
      idempotency := repo.idempotency.set batch.scope (batch.planId, batch.planRevision, batch.id) },
    { runs with runs := pairs.foldl (fun table p => table.set p.1.id p.1) runs.runs })

/-- `execute`: the batch, and whether it is a replay. -/
def execute (repo : TestPlanRepository) (runs : RunRepository) (planId : UUID) (idempotencyKey : String) :
    Except Exn ((ExecutionBatchRecord × Bool) × TestPlanRepository × RunRepository) := do
  let key ← checkKey idempotencyKey
  let plan ← repo.getPlan planId
  match repo.idempotency.get? (plan.tenantId, plan.projectId, key) with
  | some (savedPlan, savedRevision, batchId) =>
    if (savedPlan, savedRevision) ≠ (plan.id, plan.revision) then .error keyConflict
    let some batch := repo.batches.get? batchId | .error ⟨.keyError, batchId.text⟩
    return ((batch, true), repo, runs)
  | none =>
    if plan.status ≠ .active then .error notActive
    let pairs ← expand refs drawn now plan sourceOverride
    let batch := batchOf drawn plan key pairs
    return ((batch, false), repo.storeBatch runs batch pairs)

/-! ## Batches and specs -/

def getExecutionBatch (repo : TestPlanRepository) (batchId : UUID) : Except Exn ExecutionBatchRecord :=
  match repo.batches.get? batchId with
  | some batch => .ok batch
  | none => .error ⟨.testPlanNotFound, "execution batch " ++ batchId.text ++ " was not found"⟩

def getRunSpec (repo : TestPlanRepository) (runId : UUID) : Except Exn RunSpecRecord :=
  match repo.specsByRun.get? runId with
  | some spec => .ok spec
  | none => .error ⟨.runSpecNotFound, "run spec for run " ++ runId.text ++ " was not found"⟩

def OCCUPIED_STATES : List RunState := [.queued, .dispatching, .running, .cancelling, .retryWait]

/-- The loop over the records: claims `CREATED` runs while there is room. -/
def claimLoop : (available : Nat) → List RunRecord → RunRepository → Except Exn (List UUID × RunRepository)
  | _, [], runs => .ok ([], runs)
  | available, record :: rest, runs =>
    if available = 0 then .ok ([], runs)
    else if record.state ≠ .created then claimLoop available rest runs
    else do
      let queued ← record.withState .queued
      let (claimed, runs) ← claimLoop (available - 1) rest { runs with runs := runs.runs.set record.id queued }
      return (record.id :: claimed, runs)

/-- `claim_available_runs`; `max(0, limit - occupied)` is subtraction on `Nat`. -/
def claimAvailableRuns (repo : TestPlanRepository) (runs : RunRepository) (batchId : UUID) :
    Except Exn (List UUID × RunRepository) := do
  let batch ← repo.getExecutionBatch batchId
  let records ← batch.runIds.mapM runs.getLocked
  let occupied := records.countP fun record => record.state ∈ OCCUPIED_STATES
  claimLoop (batch.maxParallel - occupied) records runs

end TestPlanRepository

/-- `RunSpecTaskMaterializer.materialize`. -/
def materialize (repo : TestPlanRepository) (runId attemptId : UUID) : Except Exn TaskEnvelope := do
  let spec ← repo.getRunSpec runId
  return ⟨runId, attemptId, spec.engine, spec.parameters, spec.executionPolicy⟩

end SmartTest.Plan
