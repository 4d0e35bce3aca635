import SmartTest.Broker.Steps

/-!
# The grant store on SQL

`services/api/secret_grant_sql_repository.py` on the table `secret_capability_grants`. A call
is one transaction, and whatever it raises becomes `CapabilityRejected`. The constraints of
the table decide whether a statement goes through. A column of times keeps the instant it is
given, as SQLite's do and MySQL's, of whole seconds, do not, and the manifest column the objects
of texts it is given. Attempts and environment revisions are never deleted, so no grant goes
with one.
-/

open SmartTest.Lib SmartTest.Run

namespace SmartTest.Broker

/-! ## Rows -/

/-- The columns of `run_attempts` that the store reads. -/
structure AttemptModel where
  runId : String
  state : String
  runnerId : Option String
  leaseExpiresAt : Option Instant

def AttemptModel.of (attempt : AttemptRecord) : AttemptModel :=
  ⟨attempt.runId.text, attempt.state.value, attempt.runnerId, attempt.leaseExpiresAt⟩

/-- A list of objects of texts. -/
abbrev Manifest := List (List (String × String))

structure SecretCapabilityGrantModel where
  id : String
  tokenDigest : String
  taskId : String
  tenantId : String
  projectId : String
  runId : String
  attemptId : String
  runnerId : String
  environmentId : String
  environmentRevision : Nat
  referenceManifest : Manifest
  issuedAt : Instant
  expiresAt : Instant
  consumedAt : Option Instant
  revokedAt : Option Instant

/-- `_manifest`. -/
def manifest (binding : SecretGrantBinding) : Manifest :=
  binding.secretReferences.map fun item =>
    [("category", item.category.value), ("name", item.name), ("secret_ref", item.secretRef.text)]

/-- `_to_model`. -/
def toModel (record : SecretGrantRecord) : SecretCapabilityGrantModel where
  id := record.id.text
  tokenDigest := record.tokenDigest
  taskId := record.binding.taskId.text
  tenantId := record.binding.tenantId.text
  projectId := record.binding.projectId.text
  runId := record.binding.runId.text
  attemptId := record.binding.attemptId.text
  runnerId := record.binding.runnerId
  environmentId := record.binding.environmentId.text
  environmentRevision := record.binding.environmentRevision
  referenceManifest := manifest record.binding
  issuedAt := record.issuedAt
  expiresAt := record.expiresAt
  consumedAt := record.consumedAt
  revokedAt := record.revokedAt

/-- The length that the field `name` of a `SecretReference` has. -/
def nameFits (name : String) : Bool := 1 ≤ name.length && name.length ≤ 128

def categoryNamed (text : String) : Option ConfigurationCategory :=
  [ConfigurationCategory.environmentVariable, .commonParameter].find? (·.value = text)

/-- `SecretReference.model_validate`, which takes no other field. -/
def modelValidate (item : List (String × String)) : Option SecretReference := do
  guard (item.all (·.1 ∈ ["category", "name", "secret_ref"]))
  let category ← (item.lookup "category").bind categoryNamed
  let name ← item.lookup "name"
  guard (nameFits name)
  let secretRef ← item.lookup "secret_ref"
  return ⟨category, name, ⟨secretRef⟩⟩

/-- `_to_record`. -/
def toRecord (model : SecretCapabilityGrantModel) : Except Exn SecretGrantRecord :=
  match model.referenceManifest.mapM modelValidate with
  | none => .error capabilityRejected
  | some references => .ok
    { id := ⟨model.id⟩, tokenDigest := model.tokenDigest
      binding := ⟨⟨model.taskId⟩, ⟨model.tenantId⟩, ⟨model.projectId⟩, ⟨model.runId⟩, ⟨model.attemptId⟩,
        model.runnerId, ⟨model.environmentId⟩, model.environmentRevision, references⟩
      issuedAt := model.issuedAt, expiresAt := model.expiresAt
      consumedAt := model.consumedAt, revokedAt := model.revokedAt }

/-! ## Statements -/

/-- Whether the columns of the database hold a row: the widths of its texts and numbers. -/
abbrev Columns := SecretCapabilityGrantModel → Bool

/-- The other tables, and the runs that the store in memory reads. -/
structure Scene where
  runs : RunRepository
  environmentRevisions : List (String × Nat)

/-- `session.scalar(select(AttemptModel).where(AttemptModel.id == ...))`. -/
def Scene.attemptRow (scene : Scene) (id : String) : Option AttemptModel :=
  (scene.runs.attempts.get? ⟨id⟩).map .of

abbrev GrantTable := List SecretCapabilityGrantModel

/-- The four `CheckConstraint`s of the table. -/
def checked (row : SecretCapabilityGrantModel) : Bool :=
  row.issuedAt < row.expiresAt && row.consumedAt.all (row.issuedAt ≤ ·) && row.revokedAt.all (row.issuedAt ≤ ·) &&
    (row.consumedAt.isNone || row.revokedAt.isNone)

def integrityError : Exn := ⟨.integrityError, "a constraint failed"⟩

namespace GrantTable

variable (columns : Columns) (scene : Scene) (table : GrantTable)

/-- The insert of `session.flush()`: the primary key, the unique digest, the foreign keys and the checks. -/
def insert (row : SecretCapabilityGrantModel) : Except Exn GrantTable := do
  if table.any fun other => other.id = row.id || other.tokenDigest = row.tokenDigest then .error integrityError
  if (scene.attemptRow row.attemptId).isNone ||
      (row.environmentId, row.environmentRevision) ∉ scene.environmentRevisions then
    .error integrityError
  if !checked row || !columns row then .error integrityError
  return table ++ [row]

/-- `UPDATE ... WHERE` with its `rowcount`. -/
def update (chosen : SecretCapabilityGrantModel → Bool)
    (change : SecretCapabilityGrantModel → SecretCapabilityGrantModel) : Except Exn (Nat × GrantTable) := do
  if (table.filter chosen).any fun row => !checked (change row) then .error integrityError
  return (table.countP chosen, table.map fun row => if chosen row then change row else row)

/-! ## Calls -/

/-- `_valid_attempt`. -/
def validAttempt (binding : SecretGrantBinding) (now : Instant) : Except Exn AttemptModel :=
  match scene.attemptRow binding.attemptId.text with
  | none => .error capabilityRejected
  | some attempt =>
    if attempt.runId ≠ binding.runId.text ∨ attempt.runnerId ≠ some binding.runnerId ∨
        attempt.state ∉ ACTIVE_SECRET_STATES.map (·.value) ∨ attempt.leaseExpiresAt.all (· ≤ now) then
      .error capabilityRejected
    else .ok attempt

/-- `except Exception: raise CapabilityRejected() from None`. -/
def rejecting {α : Type} : Except Exn α → Except Exn α
  | .ok a => .ok a
  | .error _ => .error capabilityRejected

def issue (record : SecretGrantRecord) (now : Instant) : Except Exn (SecretGrantRecord × GrantTable) := rejecting do
  let attempt ← validAttempt scene record.binding now
  let some leaseExpiresAt := attempt.leaseExpiresAt | .error capabilityRejected
  let expiresAt := min record.expiresAt leaseExpiresAt
  if expiresAt ≤ now then .error capabilityRejected
  let stored : SecretGrantRecord :=
    { id := record.id, tokenDigest := record.tokenDigest, binding := record.binding
      issuedAt := record.issuedAt, expiresAt := expiresAt }
  let table ← insert columns scene table (toModel stored)
  return (stored, table)

/-- The conditions of the `UPDATE` of `consume`. -/
def redeemable (tokenDigest : String) (binding : SecretGrantBinding) (now : Instant)
    (row : SecretCapabilityGrantModel) : Bool :=
  row.tokenDigest = tokenDigest && row.taskId = binding.taskId.text && row.tenantId = binding.tenantId.text &&
    row.projectId = binding.projectId.text && row.runId = binding.runId.text &&
    row.attemptId = binding.attemptId.text && row.runnerId = binding.runnerId &&
    row.environmentId = binding.environmentId.text && row.environmentRevision = binding.environmentRevision &&
    row.referenceManifest = manifest binding && row.expiresAt > now && row.consumedAt.isNone && row.revokedAt.isNone

def consume (tokenDigest : String) (binding : SecretGrantBinding) (now : Instant) :
    Except Exn (SecretGrantRecord × GrantTable) := rejecting do
  let _ ← validAttempt scene binding now
  let (rowcount, table) ← update table (redeemable tokenDigest binding now) ({ · with consumedAt := some now })
  if rowcount ≠ 1 then .error capabilityRejected
  let some model := table.find? (·.tokenDigest = tokenDigest) | .error capabilityRejected
  let record ← toRecord model
  return (record, table)

def revoke (tokenDigest : String) (now : Instant) : Except Exn GrantTable := rejecting do
  let (_, table) ← update table
    (fun row => row.tokenDigest = tokenDigest && row.consumedAt.isNone && row.revokedAt.isNone)
    ({ · with revokedAt := some now })
  return table

def revokeAttempt (attemptId : UUID) (now : Instant) : Except Exn (Nat × GrantTable) := rejecting do
  update table (fun row => row.attemptId = attemptId.text && row.consumedAt.isNone && row.revokedAt.isNone)
    ({ · with revokedAt := some now })

end GrantTable

/-! ## The two stores call by call -/

inductive GrantCall where
  | issue (record : SecretGrantRecord) (now : Instant)
  | consume (tokenDigest : String) (binding : SecretGrantBinding) (now : Instant)
  | revoke (tokenDigest : String) (now : Instant)
  | revokeAttempt (attemptId : UUID) (now : Instant)

inductive GrantAnswer where
  | grant (record : SecretGrantRecord)
  | nothing
  | count (count : Nat)

/-- The grant that a call has just stored, which it returns. -/
def Grants.stored (grants : Grants) (tokenDigest : String) : Except Exn GrantAnswer :=
  match grants.get? tokenDigest with
  | some record => .ok (.grant record)
  | none => .error capabilityRejected

/-- A call of the store in memory. -/
def Grants.call (scene : Scene) (grants : Grants) : GrantCall → Except Exn GrantAnswer × Grants
  | .issue record now =>
    match grants.issue record now (scene.runs.getAttempt record.binding.attemptId) with
    | .ok grants' => (grants'.stored record.tokenDigest, grants')
    | .error e => (.error e, grants)
  | .consume tokenDigest binding now =>
    match grants.consume tokenDigest binding now (scene.runs.getAttempt binding.attemptId) with
    | .ok grants' => (grants'.stored tokenDigest, grants')
    | .error e => (.error e, grants)
  | .revoke tokenDigest now => (.ok .nothing, grants.revoke tokenDigest now)
  | .revokeAttempt attemptId now =>
    let (grants, count) := grants.revokeAttempt attemptId now
    (.ok (.count count), grants)

/-- A call of the store on SQL: what raises is rolled back. -/
def GrantTable.call (columns : Columns) (scene : Scene) (table : GrantTable) :
    GrantCall → Except Exn GrantAnswer × GrantTable
  | .issue record now =>
    match GrantTable.issue columns scene table record now with
    | .ok (stored, table') => (.ok (.grant stored), table')
    | .error e => (.error e, table)
  | .consume tokenDigest binding now =>
    match GrantTable.consume scene table tokenDigest binding now with
    | .ok (consumed, table') => (.ok (.grant consumed), table')
    | .error e => (.error e, table)
  | .revoke tokenDigest now =>
    match GrantTable.revoke table tokenDigest now with
    | .ok table' => (.ok .nothing, table')
    | .error e => (.error e, table)
  | .revokeAttempt attemptId now =>
    match GrantTable.revokeAttempt table attemptId now with
    | .ok (count, table') => (.ok (.count count), table')
    | .error e => (.error e, table)

/-- What a store answers to one call after the other, each in the scene of its time. -/
def answers {S : Type} (call : Scene → S → GrantCall → Except Exn GrantAnswer × S) :
    S → List (Scene × GrantCall) → List (Except Exn GrantAnswer)
  | _, [] => []
  | store, (scene, next) :: rest => (call scene store next).1 :: answers call (call scene store next).2 rest

end SmartTest.Broker
