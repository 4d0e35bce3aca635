import Mathlib.Algebra.GroupWithZero.Nat
import SmartTest.Environment.Repository
import SmartTest.Plan.Repository
import SmartTest.Plan.Scripts

/-!
# Scripts, environments and plans together

The repositories a test plan is made from, and the calls that change them: every stored
plan went through `normalize_plan_items` and `_validate_references`.
-/

open SmartTest.Lib SmartTest.Run SmartTest.Environment

namespace SmartTest.Plan

def MAX_PLAN_ITEMS : Nat := 100

def MAX_PLAN_ROWS : Nat := 1000

def planError (message : String) : Exn := ⟨.valueError, message⟩

/-! ## Normalising items -/

variable (floatRepr : Rat → List Char)

/-- The size of a JSON object in `_json_object`. -/
def objectSize (value : Dict String Json) : Nat := encodedLength floatRepr (.obj value.entries)

/-- `_json_object`. -/
def checkedObject (value : Dict String Json) (label : String) : Except Exn (Dict String Json) :=
  if objectSize floatRepr value > MAX_JSON_MAP_BYTES then
    .error (planError (label ++ " cannot exceed " ++ toString MAX_JSON_MAP_BYTES ++ " bytes"))
  else .ok value

/-- The loop over the rows of an item, with the keys it has seen. -/
def normalizeRows : (rowKeys : List String) → List TestPlanDataRow → Except Exn (List TestPlanDataRow)
  | _, [] => .ok []
  | rowKeys, row :: rest => do
    let key := strip row.rowKey
    if key = "" ∨ key.length > 255 then .error (planError "row_key must contain 1 to 255 characters")
    if key ∈ rowKeys then .error (planError ("duplicate row_key: " ++ key))
    let values ← checkedObject floatRepr row.values "row values"
    let others ← normalizeRows (key :: rowKeys) rest
    return ⟨key, values⟩ :: others

/-- `item.data_rows or (TestPlanDataRow("default", {}),)`. -/
def rowsOrDefault (rows : List TestPlanDataRow) : List TestPlanDataRow :=
  if rows = [] then [⟨"default", .empty⟩] else rows

/-- The loop over the items, with the ids it has seen. -/
def normalizeItems : (itemIds : List UUID) → List TestPlanItem → Except Exn (List TestPlanItem)
  | _, [] => .ok []
  | itemIds, item :: rest => do
    if item.itemId ∈ itemIds then .error (planError "test plan item IDs must be unique")
    if item.scriptRevision < 1 then .error (planError "script_revision must be positive")
    if item.environmentId.isNone ≠ item.environmentRevision.isNone then
      .error (planError "environment_id and environment_revision must be provided together")
    if item.environmentRevision.any (· < 1) then .error (planError "environment_revision must be positive")
    let rows ← normalizeRows floatRepr [] (rowsOrDefault item.dataRows)
    let defaultParameters ← checkedObject floatRepr item.defaultParameters "default_parameters"
    let others ← normalizeItems (item.itemId :: itemIds) rest
    return { item with defaultParameters := defaultParameters, dataRows := rows } :: others

def normalizePlanItems (items : List TestPlanItem) : Except Exn (List TestPlanItem) := do
  if items = [] then .error (planError "a test plan must contain at least one item")
  if items.length > MAX_PLAN_ITEMS then
    .error (planError ("at most " ++ toString MAX_PLAN_ITEMS ++ " test plan items are allowed"))
  let normalized ← normalizeItems floatRepr [] items
  if (normalized.map (·.dataRows.length)).sum > MAX_PLAN_ROWS then
    .error (planError ("at most " ++ toString MAX_PLAN_ROWS ++ " data rows are allowed per test plan"))
  return normalized

def checkMaxParallel (value : Int) : Except Exn Nat :=
  if value < 1 ∨ value > 100 then .error (planError "max_parallel must be an integer from 1 to 100")
  else .ok value.toNat

/-! ## The catalog -/

structure Catalog where
  scripts : AutomationRepository
  environments : EnvironmentRepository
  plans : TestPlanRepository
  runs : RunRepository

namespace Catalog

variable (catalog : Catalog)

def empty : Catalog := ⟨.empty, .empty, ⟨.empty, .empty, .empty, .empty⟩, .empty⟩

/-- `_validate_references` on one item. -/
def validateItem (projectId : UUID) (item : TestPlanItem) : Except Exn Unit := do
  let script ← catalog.scripts.getRevision item.scriptId item.scriptRevision
  if script.projectId ≠ projectId then
    .error ⟨.testPlanConflict, "automation script belongs to a different project"⟩
  if script.status ≠ .active then .error ⟨.testPlanConflict, "automation script revision must be active"⟩
  if script.engine ≠ .http ∧ item.executionPolicy.needsHttp = true then
    .error ⟨.testPlanConflict, "HTTP steps, assertions, and extractions require an HTTP script"⟩
  match item.environmentId, item.environmentRevision with
  | some environmentId, some revision =>
    let environment ← catalog.environments.getRevision environmentId revision
    if environment.projectId ≠ projectId then
      .error ⟨.testPlanConflict, "environment belongs to a different project"⟩
    if environment.status ≠ .active then .error ⟨.testPlanConflict, "environment revision must be active"⟩
  | _, _ => .ok ()

def validateReferences (projectId : UUID) : List TestPlanItem → Except Exn Unit
  | [] => .ok ()
  | item :: rest => do
    catalog.validateItem projectId item
    validateReferences projectId rest

/-- What the plan repository reads of the others. -/
def references : References where
  script id revision := (catalog.scripts.getRevision id revision).map ScriptRecord.toAutomationScriptRecord
  environment id revision := (catalog.environments.getRevision id revision).map EnvironmentRecord.values
  encodedSize := objectSize floatRepr

/-! ## Calls -/

def createPlan (newId tenantId projectId : UUID) (items : List TestPlanItem) (maxParallel : Int) :
    Except Exn Catalog := do
  let normalized ← normalizePlanItems floatRepr items
  let maxParallel ← checkMaxParallel maxParallel
  catalog.validateReferences projectId normalized
  return { catalog with plans := (catalog.plans.createPlan newId tenantId projectId normalized maxParallel).2 }

def updatePlan (planId : UUID) (expectedVersion : Nat) (items : List TestPlanItem) (status : TestPlanStatus)
    (maxParallel : Int) : Except Exn Catalog := do
  let normalized ← normalizePlanItems floatRepr items
  let maxParallel ← checkMaxParallel maxParallel
  let current ← catalog.plans.getPlan planId
  -- A stale version is reported before the references are looked at.
  if current.stateVersion = expectedVersion then catalog.validateReferences current.projectId normalized
  let (_, plans) ← catalog.plans.updatePlan planId expectedVersion normalized status maxParallel
  return { catalog with plans := plans }

def executePlan (drawn : Drawn) (now : Instant) (sourceOverride : Option (String × String)) (planId : UUID)
    (idempotencyKey : String) : Except Exn ((ExecutionBatchRecord × Bool) × Catalog) := do
  let (answer, plans, runs) ← catalog.plans.execute (catalog.references floatRepr) drawn now sourceOverride
    catalog.runs planId idempotencyKey
  return (answer, { catalog with plans := plans, runs := runs })

end Catalog

end SmartTest.Plan
