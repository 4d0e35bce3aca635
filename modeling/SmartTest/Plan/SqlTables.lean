import Mathlib.Data.List.Sort
import SmartTest.Plan.Reachable

/-!
# Scripts, environments and plans on SQL

`automation_sql_repository.py`, `environment_sql_repository.py` and the plan calls of
`test_plan_sql_repository.py`, each transaction one step. A JSON column gives back the
value it was given; the seven columns of a seal are one value.
-/

open SmartTest.Lib SmartTest.Run SmartTest.Environment

namespace SmartTest.Plan

/-! ## The tables -/

/-- The columns that scripts and their revisions share, as `_values` names them. -/
structure ScriptValues where
  entrypoint : String
  sourceRef : String
  contentDigest : String
  timeoutSeconds : Nat
  status : AutomationScriptStatus

structure AutomationScriptModel extends ScriptValues where
  projectId : UUID
  engine : Engine
  currentRevision : Nat
  stateVersion : Nat

structure EnvironmentModel where
  projectId : UUID
  name : String
  status : EnvironmentStatus
  currentRevision : Nat
  stateVersion : Nat

structure EnvironmentRevisionModel where
  name : String
  status : EnvironmentStatus

structure EnvironmentValueModel where
  environmentId : UUID
  revision : Nat
  category : ConfigurationCategory
  name : String
  position : Nat
  isSecret : Bool
  publicValue : Json
  secretRef : Option UUID
  encrypted : Option EncryptedSecret

structure RunSpecModel extends RunSpecRecord where
  position : Nat

structure ExecutionBatchModel where
  id : UUID
  tenantId : UUID
  projectId : UUID
  planId : UUID
  planRevision : Nat
  idempotencyKey : String
  maxParallel : Nat

def ExecutionBatchModel.scope (batch : ExecutionBatchModel) : Scope :=
  (batch.tenantId, batch.projectId, batch.idempotencyKey)

structure Tables where
  scripts : Dict UUID AutomationScriptModel
  scriptRevisions : Dict (UUID × Nat) ScriptValues
  environments : Dict UUID EnvironmentModel
  environmentRevisions : Dict (UUID × Nat) EnvironmentRevisionModel
  environmentValues : List EnvironmentValueModel
  plans : Dict UUID TestPlanRecord
  batches : Dict UUID ExecutionBatchModel
  specs : Dict UUID RunSpecModel
  runs : Dict UUID RunRecord

namespace Tables

def empty : Tables := ⟨.empty, .empty, .empty, .empty, [], .empty, .empty, .empty, .empty⟩

variable (tables : Tables)

/-! ## Scripts -/

/-- `_values`. -/
def scriptValues (record : ScriptRecord) : ScriptValues :=
  ⟨record.entrypoint, record.sourceRef, record.contentDigest, record.timeoutSeconds, record.status⟩

def scriptModel (record : ScriptRecord) : AutomationScriptModel where
  toScriptValues := scriptValues record
  projectId := record.projectId
  engine := record.engine
  currentRevision := record.revision
  stateVersion := record.stateVersion

/-- The `_record` of a script. -/
def scriptRecord (scriptId : UUID) (model : AutomationScriptModel) : ScriptRecord where
  id := scriptId
  revision := model.currentRevision
  engine := model.engine
  entrypoint := model.entrypoint
  sourceRef := model.sourceRef
  contentDigest := model.contentDigest
  timeoutSeconds := model.timeoutSeconds
  projectId := model.projectId
  status := model.status
  stateVersion := model.stateVersion

/-- The rows a script and its new revision are written to. -/
def putScript (record : ScriptRecord) : Tables :=
  { tables with
    scripts := tables.scripts.set record.id (scriptModel record)
    scriptRevisions := tables.scriptRevisions.set (record.id, record.revision) (scriptValues record) }

def createScript (newId projectId : UUID) (engine : Engine) (body : ScriptBody) : Tables :=
  tables.putScript
    { id := newId, revision := 1, engine := engine, entrypoint := body.entrypoint, sourceRef := body.sourceRef
      contentDigest := body.contentDigest, timeoutSeconds := body.timeoutSeconds, projectId := projectId
      status := .draft, stateVersion := 0 }

def updateScript (scriptId : UUID) (expectedVersion : Nat) (body : ScriptBody) (status : AutomationScriptStatus) :
    Except Exn Tables := do
  let some model := tables.scripts.get? scriptId
    | .error (AutomationRepository.scriptNotFound ("automation script " ++ scriptId.text ++ " was not found"))
  let current := scriptRecord scriptId model
  if current.stateVersion ≠ expectedVersion then
    .error ⟨.other "AssetVersionConflict", "state version mismatch: expected " ++ toString expectedVersion
      ++ ", current " ++ toString current.stateVersion⟩
  let updated ← current.update body status
  return tables.putScript updated

/-! ## Environments -/

def valueRow (record : EnvironmentRecord) (position : Nat) (value : ConfigurationValue) : EnvironmentValueModel where
  environmentId := record.id
  revision := record.revision
  category := value.category
  name := value.name
  position := position
  isSecret := value.secret
  publicValue := if value.secret then .null else value.value
  secretRef := value.secretRef
  encrypted := value.encrypted

/-- The loop of `_add_revision`, with the next position of each category. -/
def valueRows (record : EnvironmentRecord) :
    (positions : ConfigurationCategory → Nat) → List ConfigurationValue → List EnvironmentValueModel
  | _, [] => []
  | positions, value :: rest =>
    valueRow record (positions value.category) value ::
      valueRows record (Function.update positions value.category (positions value.category + 1)) rest

def environmentModel (record : EnvironmentRecord) : EnvironmentModel :=
  ⟨record.projectId, record.name, record.status, record.revision, record.stateVersion⟩

/-- The row of an environment and `_add_revision`. -/
def putEnvironment (record : EnvironmentRecord) : Tables :=
  { tables with
    environments := tables.environments.set record.id (environmentModel record)
    environmentRevisions :=
      tables.environmentRevisions.set (record.id, record.revision) ⟨record.name, record.status⟩
    environmentValues := tables.environmentValues ++ valueRows record (fun _ => 0) record.values }

/-- `ORDER BY category DESC, position`. -/
def rowBefore (a b : EnvironmentValueModel) : Prop :=
  b.category.value < a.category.value ∨ a.category = b.category ∧ a.position ≤ b.position

instance : DecidableRel rowBefore := fun _ _ => inferInstanceAs (Decidable (_ ∨ _))

/-- The rows of a revision, in the order of the query. -/
def revisionRows (environmentId : UUID) (revision : Nat) : List EnvironmentValueModel :=
  (tables.environmentValues.filter fun row =>
    row.environmentId = environmentId && row.revision = revision).insertionSort rowBefore

def configurationValue (row : EnvironmentValueModel) : Except Exn ConfigurationValue :=
  if row.isSecret && row.encrypted.isNone then
    .error (Environment.notFound "environment secret data was not found")
  else .ok {
    category := row.category
    name := row.name
    secret := row.isSecret
    value := if row.isSecret then .null else row.publicValue
    secretRef := row.secretRef
    encrypted := if row.isSecret then row.encrypted else none }

/-- `_values` of a revision. -/
def environmentValuesOf (environmentId : UUID) (revision : Nat) : Except Exn (List ConfigurationValue) :=
  (tables.revisionRows environmentId revision).mapM configurationValue

/-- `_current_record`. -/
def currentRecord (environmentId : UUID) (model : EnvironmentModel) : Except Exn EnvironmentRecord := do
  let some _ := tables.environmentRevisions.get? (environmentId, model.currentRevision)
    | .error (Environment.notFound "environment revision data was not found")
  let values ← tables.environmentValuesOf environmentId model.currentRevision
  return ⟨environmentId, model.projectId, model.name, model.status, model.currentRevision, model.stateVersion,
    values⟩

/-- The unique constraint on project and name. -/
def nameTaken (environmentId projectId : UUID) (name : String) : Bool :=
  tables.environments.entries.any fun e => e.1 ≠ environmentId && e.2.projectId = projectId && e.2.name = name

variable (floatRepr : Rat → List Char) (encryptor : SecretEncryptor) (draws : Draws)

def createEnvironment (projectId environmentId : UUID) (name : String)
    (environmentVariables commonParameters : List ConfigurationValueInput) : Except Exn Tables := do
  let normalizedName ← validateEnvironmentName name
  let values ← buildConfigurationValues floatRepr encryptor draws projectId environmentId 1 none
    environmentVariables commonParameters
  if tables.nameTaken environmentId projectId normalizedName then .error EnvironmentRepository.duplicateName
  return tables.putEnvironment ⟨environmentId, projectId, normalizedName, .draft, 1, 0, values⟩

def updateEnvironment (environmentId : UUID) (expectedVersion : Nat) (name : String) (status : EnvironmentStatus)
    (environmentVariables commonParameters : List ConfigurationValueInput) : Except Exn Tables := do
  let normalizedName ← validateEnvironmentName name
  let some model := tables.environments.get? environmentId
    | .error (Environment.notFound ("environment " ++ environmentId.text ++ " was not found"))
  let current ← tables.currentRecord environmentId model
  if current.stateVersion ≠ expectedVersion then
    .error ⟨.other "EnvironmentVersionConflict", "state version mismatch: expected "
      ++ toString expectedVersion ++ ", current " ++ toString current.stateVersion⟩
  validateEnvironmentTransition current.status status
  let values ← buildConfigurationValues floatRepr encryptor draws current.projectId current.id
    (current.revision + 1) (some current) environmentVariables commonParameters
  let updated ← current.update normalizedName status values
  if tables.nameTaken environmentId current.projectId normalizedName then
    .error EnvironmentRepository.duplicateName
  return tables.putEnvironment updated

/-! ## Plans -/

def conflict (message : String) : Exn := ⟨.testPlanConflict, message⟩

/-- `_script_revision`. -/
def scriptRevision (projectId scriptId : UUID) (revision : Nat) : Except Exn (AutomationScriptModel × ScriptValues) :=
  match tables.scripts.get? scriptId, tables.scriptRevisions.get? (scriptId, revision) with
  | some parent, some script => do
    if parent.projectId ≠ projectId then .error (conflict "automation script belongs to a different project")
    if script.status ≠ .active then .error (conflict "automation script revision must be active")
    return (parent, script)
  | _, _ => .error (conflict "automation script revision was not found")

/-- `_environment_revision`. -/
def environmentRevision (projectId environmentId : UUID) (revision : Nat) : Except Exn EnvironmentRevisionModel :=
  match tables.environments.get? environmentId, tables.environmentRevisions.get? (environmentId, revision) with
  | some parent, some environment => do
    if parent.projectId ≠ projectId then .error (conflict "environment belongs to a different project")
    if environment.status ≠ .active then .error (conflict "environment revision must be active")
    return environment
  | _, _ => .error (conflict "environment revision was not found")

/-- `_validate_references` on one item. -/
def validateItem (projectId : UUID) (item : TestPlanItem) : Except Exn Unit := do
  let (script, _) ← tables.scriptRevision projectId item.scriptId item.scriptRevision
  if script.engine ≠ .http ∧ item.executionPolicy.needsHttp = true then
    .error (conflict "HTTP steps, assertions, and extractions require an HTTP script")
  match item.environmentId, item.environmentRevision with
  | none, _ => .ok ()
  | some _, none => .error ⟨.other "AssertionError", ""⟩
  | some environmentId, some revision =>
    let _ ← tables.environmentRevision projectId environmentId revision

def validateReferences (projectId : UUID) : List TestPlanItem → Except Exn Unit
  | [] => .ok ()
  | item :: rest => do
    tables.validateItem projectId item
    validateReferences projectId rest

def createPlan (newId tenantId projectId : UUID) (items : List TestPlanItem) (maxParallel : Int) :
    Except Exn Tables := do
  let normalized ← normalizePlanItems floatRepr items
  let maxParallel ← checkMaxParallel maxParallel
  tables.validateReferences projectId normalized
  let plan : TestPlanRecord := ⟨newId, tenantId, projectId, normalized, maxParallel, .draft, 1, 0⟩
  return { tables with plans := tables.plans.set newId plan }

def updatePlan (planId : UUID) (expectedVersion : Nat) (items : List TestPlanItem) (status : TestPlanStatus)
    (maxParallel : Int) : Except Exn Tables := do
  let normalized ← normalizePlanItems floatRepr items
  let maxParallel ← checkMaxParallel maxParallel
  let some current := tables.plans.get? planId | .error (SqlTestPlanStore.notFound planId)
  if current.stateVersion ≠ expectedVersion then
    .error ⟨.other "TestPlanVersionConflict", "state version mismatch: expected "
      ++ toString expectedVersion ++ ", current " ++ toString current.stateVersion⟩
  tables.validateReferences current.projectId normalized
  let updated ← current.update normalized maxParallel status
  return { tables with plans := tables.plans.set planId updated }

/-! ## Executing -/

def addRow (snapshot : EnvironmentSnapshot) (row : EnvironmentValueModel) : Except Exn EnvironmentSnapshot :=
  if row.isSecret then
    match row.secretRef with
    | none => .error (conflict "environment secret reference is invalid")
    | some ref => .ok { snapshot with secrets := snapshot.secrets ++ [⟨row.category, row.name, ref⟩] }
  else if row.category = .environmentVariable then
    .ok { snapshot with environmentVariables := snapshot.environmentVariables.set row.name row.publicValue }
  else .ok { snapshot with common := snapshot.common.set row.name row.publicValue }

/-- `_environment_snapshot`. -/
def environmentSnapshot (projectId : UUID) (item : TestPlanItem) : Except Exn EnvironmentSnapshot :=
  match item.environmentId, item.environmentRevision with
  | some environmentId, some revision => do
    let _ ← tables.environmentRevision projectId environmentId revision
    (tables.revisionRows environmentId revision).foldlM addRow ⟨.empty, .empty, []⟩
  | _, _ => .ok ⟨.empty, .empty, []⟩

/-- What a session has written is in the tables until the transaction ends. -/
abbrev Session := Call Exn Tables

section Expand

variable (drawn : Drawn) (clock : Nat → Instant) (plan : TestPlanRecord) (batchId : UUID)
  (sourceOverride : Option (String × String))

/-- The rows of the run and the spec at a position. -/
def addRowPair (item : TestPlanItem) (parent : AutomationScriptModel) (script : ScriptValues)
    (snapshot : EnvironmentSnapshot) (position : Nat) (row : TestPlanDataRow) : Session Unit := do
  let parameters ← ofExcept (checkedObject floatRepr
    ((snapshot.common.update item.defaultParameters).update row.values) "final parameters")
  let runId := drawn.runId position
  let run : RunRecord := ⟨runId, parent.engine, parameters, .created, clock position, 0⟩
  modify fun tables => { tables with runs := tables.runs.set runId run }
  let (sourceRef, contentDigest) := sourceOverride.getD (script.sourceRef, script.contentDigest)
  let spec : RunSpecModel := {
    id := drawn.specId position, runId := runId, batchId := batchId, position := position
    tenantId := plan.tenantId, projectId := plan.projectId, planId := plan.id, planRevision := plan.revision
    itemId := item.itemId, rowKey := row.rowKey, engine := parent.engine
    scriptId := item.scriptId, scriptRevision := item.scriptRevision
    sourceRef := sourceRef, contentDigest := contentDigest
    entrypoint := script.entrypoint, timeoutSeconds := script.timeoutSeconds
    environmentId := item.environmentId, environmentRevision := item.environmentRevision
    environmentVariables := snapshot.environmentVariables, parameters := parameters
    secretReferences := snapshot.secrets, executionPolicy := item.executionPolicy }
  modify fun tables => { tables with specs := tables.specs.set spec.id spec }

/-- The loop over the rows of an item; the answer is the next position. -/
def addRowPairs (item : TestPlanItem) (parent : AutomationScriptModel) (script : ScriptValues)
    (snapshot : EnvironmentSnapshot) : (position : Nat) → List TestPlanDataRow → Session Nat
  | position, [] => return position
  | position, row :: rest => do
    addRowPair floatRepr drawn clock plan batchId sourceOverride item parent script snapshot position row
    addRowPairs item parent script snapshot (position + 1) rest

/-- `_expand`. -/
def expandItems : (position : Nat) → List TestPlanItem → Session Unit
  | _, [] => return ()
  | position, item :: rest => do
    let (parent, script) ← ofExcept ((← get).scriptRevision plan.projectId item.scriptId item.scriptRevision)
    let snapshot ← ofExcept ((← get).environmentSnapshot plan.projectId item)
    let position ← addRowPairs floatRepr drawn clock plan batchId sourceOverride item parent script snapshot
      position item.dataRows
    expandItems position rest

end Expand

/-- `_batch_by_key`. -/
def batchByKey (scope : Scope) : Option ExecutionBatchModel :=
  tables.batches.values.find? (·.scope = scope)

/-- `_batch_record`: the runs of a batch are those of its specs, by position. -/
def batchRecord (batch : ExecutionBatchModel) : ExecutionBatchRecord where
  id := batch.id
  tenantId := batch.tenantId
  projectId := batch.projectId
  planId := batch.planId
  planRevision := batch.planRevision
  idempotencyKey := batch.idempotencyKey
  maxParallel := batch.maxParallel
  runIds := ((tables.specs.values.filter (·.batchId = batch.id)).insertionSort
    fun a b => a.position ≤ b.position).map (·.runId)

/-- The transaction of `execute` that nothing comes between; other calls are in `SqlTestPlanStore`. Ids are
new, so no insert breaks a primary key. -/
def executeBody (drawn : Drawn) (clock : Nat → Instant) (sourceOverride : Option (String × String)) (planId : UUID)
    (idempotencyKey : String) : Session (ExecutionBatchRecord × Bool) := do
  let key ← ofExcept (TestPlanRepository.checkKey idempotencyKey)
  let some plan := (← get).plans.get? planId | throw (SqlTestPlanStore.notFound planId)
  match (← get).batchByKey (plan.tenantId, plan.projectId, key) with
  | some existing =>
    if (existing.planId, existing.planRevision) ≠ (plan.id, plan.revision) then
      throw TestPlanRepository.keyConflict
    return ((← get).batchRecord existing, true)
  | none =>
    if plan.status ≠ .active then throw TestPlanRepository.notActive
    let batch : ExecutionBatchModel :=
      ⟨drawn.batchId, plan.tenantId, plan.projectId, plan.id, plan.revision, key, plan.maxParallel⟩
    modify fun tables => { tables with batches := tables.batches.set batch.id batch }
    expandItems floatRepr drawn clock plan batch.id sourceOverride 0 plan.items
    return ((← get).batchRecord batch, false)

def execute (drawn : Drawn) (clock : Nat → Instant) (sourceOverride : Option (String × String)) (planId : UUID)
    (idempotencyKey : String) : Except Exn (ExecutionBatchRecord × Bool) × Tables :=
  (executeBody floatRepr drawn clock sourceOverride planId idempotencyKey).transaction tables

end Tables

end SmartTest.Plan
