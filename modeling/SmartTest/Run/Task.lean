import SmartTest.Run.Domain

/-!
# Tasks

The whole `TaskEnvelope` of `packages/protocol/models.py` and what its validation checks.
pydantic looks at every field before it runs `deadline_follows_creation`.
-/

open SmartTest.Lib

namespace SmartTest.Run

structure FullTaskEnvelope extends TaskEnvelope where
  taskId : UUID
  tenantId : UUID
  projectId : UUID
  idempotencyKey : String
  createdAt : Instant
  deadline : Instant
  entrypoint : String
  runSpecId : Option UUID
  sourceRef : Option String
  contentDigest : Option String
  environmentVariables : Dict String Json
  environmentId : Option UUID
  environmentRevision : Option Nat
  secretReferences : List SecretReference

/-- `^[0-9a-f]{64}$`. -/
def isContentDigest (text : String) : Bool :=
  text.length = 64 && text.toList.all fun c => c.isDigit || ('a' ≤ c && c ≤ 'f')

namespace FullTaskEnvelope

/-- Each constrained field, and whether the value meets its constraint. -/
def fields (task : FullTaskEnvelope) : List (String × Bool) :=
  [("idempotency_key", 1 ≤ task.idempotencyKey.length && task.idempotencyKey.length ≤ 255),
   ("entrypoint", 1 ≤ task.entrypoint.length && task.entrypoint.length ≤ 512),
   ("source_ref", task.sourceRef.all fun ref => 1 ≤ ref.length && ref.length ≤ 512),
   ("content_digest", task.contentDigest.all isContentDigest),
   ("environment_revision", task.environmentRevision.all (1 ≤ ·))]

/-- The fields that a `ValidationError` names. -/
def fieldErrors (task : FullTaskEnvelope) : List String := (task.fields.filter (!·.2)).map Prod.fst

def deadlineFollowsCreation (task : FullTaskEnvelope) : Except Exn Unit := do
  if task.deadline ≤ task.createdAt then .error ⟨.valueError, "deadline must be after created_at"⟩
  if task.environmentId.isNone ≠ task.environmentRevision.isNone then
    .error ⟨.valueError, "environment_id and environment_revision must be provided together"⟩
  if task.secretReferences ≠ [] ∧ task.environmentId = none then
    .error ⟨.valueError, "secret references require an environment"⟩
  if task.environmentVariables.entries.any fun e => !isEnvironmentName e.1 || !(e.2 matches .str _) then
    .error ⟨.valueError, "environment variables must have valid names and string values"⟩
  if ¬ (task.secretReferences.map fun item => (item.category, item.name)).Nodup then
    .error ⟨.valueError, "secret references must be unique"⟩
  if ¬ (task.secretReferences.map (·.secretRef)).Nodup then
    .error ⟨.valueError, "secret reference IDs must be unique"⟩
  if task.engine ≠ .http ∧ task.executionPolicy.needsHttp = true then
    .error ⟨.valueError, "HTTP steps, assertions, and extractions require the HTTP engine"⟩

/-- `TaskEnvelope(...)` on these values: the key is stripped before it is measured. -/
def validate (task : FullTaskEnvelope) : Except Exn FullTaskEnvelope := do
  if strip task.idempotencyKey = "" then .error ⟨.valueError, "idempotency_key must not be blank"⟩
  let task := { task with idempotencyKey := strip task.idempotencyKey }
  if task.fieldErrors ≠ [] then
    .error ⟨.other "ValidationError", ", ".intercalate task.fieldErrors⟩
  task.deadlineFollowsCreation
  return task

end FullTaskEnvelope

end SmartTest.Run
