import SmartTest.Environment.Domain
import SmartTest.Run.Repository

/-!
# Test plans and execution batches

The records of `test_plan_domain.py`, with what plan expansion reads of scripts and
environments. Names, descriptions and timestamps of plans are left out: no operation here
reads them.
-/

open SmartTest.Lib SmartTest.Run SmartTest.Environment

namespace SmartTest.Plan

inductive TestPlanStatus where
  | draft | active | archived
  deriving DecidableEq, Repr

def TestPlanStatus.value : TestPlanStatus → String
  | .draft => "DRAFT"
  | .active => "ACTIVE"
  | .archived => "ARCHIVED"

def PLAN_TRANSITIONS : TestPlanStatus → List TestPlanStatus
  | .draft => [.active]
  | .active => [.archived]
  | .archived => []

def validatePlanTransition (current target : TestPlanStatus) : Except Exn Unit := do
  if current = .archived then
    .error ⟨.other "InvalidTestPlanTransition", "an archived test plan cannot be modified"⟩
  if target ≠ current ∧ target ∉ PLAN_TRANSITIONS current then
    .error ⟨.other "InvalidTestPlanTransition",
      "cannot transition test plan from " ++ current.value ++ " to " ++ target.value⟩

structure TestPlanDataRow where
  rowKey : String
  values : Dict String Json

structure TestPlanItem where
  itemId : UUID
  scriptId : UUID
  scriptRevision : Nat
  environmentId : Option UUID
  environmentRevision : Option Nat
  defaultParameters : Dict String Json
  dataRows : List TestPlanDataRow
  executionPolicy : ExecutionPolicy

structure TestPlanRecord where
  id : UUID
  tenantId : UUID
  projectId : UUID
  items : List TestPlanItem
  maxParallel : Nat
  status : TestPlanStatus
  revision : Nat
  stateVersion : Nat

def TestPlanRecord.update (plan : TestPlanRecord) (items : List TestPlanItem) (maxParallel : Nat)
    (status : TestPlanStatus) : Except Exn TestPlanRecord := do
  validatePlanTransition plan.status status
  return { plan with
    items := items
    maxParallel := maxParallel
    status := status
    revision := plan.revision + 1
    stateVersion := plan.stateVersion + 1 }

structure RunSpecRecord where
  id : UUID
  runId : UUID
  batchId : UUID
  tenantId : UUID
  projectId : UUID
  planId : UUID
  planRevision : Nat
  itemId : UUID
  rowKey : String
  engine : Engine
  scriptId : UUID
  scriptRevision : Nat
  sourceRef : String
  contentDigest : String
  entrypoint : String
  timeoutSeconds : Nat
  environmentId : Option UUID
  environmentRevision : Option Nat
  environmentVariables : Dict String Json
  parameters : Dict String Json
  secretReferences : List SecretReference
  executionPolicy : ExecutionPolicy

structure ExecutionBatchRecord where
  id : UUID
  tenantId : UUID
  projectId : UUID
  planId : UUID
  planRevision : Nat
  idempotencyKey : String
  maxParallel : Nat
  runIds : List UUID
  deriving DecidableEq, Repr

/-- What the expansion of a plan reads of a script revision. -/
structure AutomationScriptRecord where
  id : UUID
  revision : Nat
  engine : Engine
  entrypoint : String
  sourceRef : String
  contentDigest : String
  timeoutSeconds : Nat

/-- The other repositories a plan repository reads, and the encoded size of a JSON object. -/
structure References where
  script : UUID → Nat → Except Exn AutomationScriptRecord
  environment : UUID → Nat → Except Exn (List ConfigurationValue)
  encodedSize : Dict String Json → Nat

/-- What the `uuid4` calls of one `execute` draw. -/
structure Drawn where
  batchId : UUID
  runId : Nat → UUID
  specId : Nat → UUID

end SmartTest.Plan
