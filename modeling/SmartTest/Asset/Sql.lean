import SmartTest.Asset.Repository

/-!
# Assets in SQL

`services/api/quality_sql_repository.py` and `services/api/automation_sql_repository.py`, one
call at a time. A table of current rows and a table of revision rows for each family, and a
table for each kind of link.
-/

open SmartTest.Lib SmartTest.Run SmartTest.Plan

namespace SmartTest.Asset

/-- What the database does with times: a column may round what is stored in it, and `ORDER BY` leaves the order of
equal keys open. The other columns hold what they are given. -/
structure Database where
  keep : Instant → Instant
  keep_keep : ∀ t, keep (keep t) = keep t
  orderBy : {ρ : Type} → (ρ → Instant) → List ρ → List ρ
  orderBy_perm : ∀ {ρ : Type} (key : ρ → Instant) (rows : List ρ), (orderBy key rows).Perm rows
  orderBy_sorted : ∀ {ρ : Type} (key : ρ → Instant) (rows : List ρ),
    (orderBy key rows).Pairwise fun a b => key a ≤ key b

variable {Fixed Copied Values Status : Type}

/-- A record with its times as the columns keep them. -/
def Record.kept (db : Database) (record : Record Fixed Values Status) : Record Fixed Values Status :=
  { record with createdAt := db.keep record.createdAt, updatedAt := db.keep record.updatedAt }

def LinkRecord.kept (db : Database) (link : LinkRecord) : LinkRecord :=
  { link with createdAt := db.keep link.createdAt }

/-- A row of a revision table; its key is the id and the number of the revision. -/
structure RevisionRow (Copied Values Status : Type) where
  copied : Copied
  values : Values
  status : Status
  createdAt : Instant

/-- What a revision row has of the part that updates leave alone, and what is read back of it. -/
structure Columns (Fixed Copied : Type) where
  copy : Fixed → Copied
  restore : Fixed → Copied → Fixed
  restore_copy : ∀ fixed, restore fixed (copy fixed) = fixed

def requirementColumns : Columns Unit Unit := ⟨fun _ => (), fun fixed _ => fixed, fun _ => rfl⟩

/-- The source of a test case is read from the revision row. -/
def testCaseColumns : Columns TestCaseSource TestCaseSource := ⟨fun source => source, fun _ source => source, fun _ => rfl⟩

/-- The engine of a script is read from its current row. -/
def scriptColumns : Columns Engine Unit := ⟨fun _ => (), fun engine _ => engine, fun _ => rfl⟩

/-! ## One family -/

structure SqlStore (Fixed Copied Values Status : Type) where
  rows : Dict UUID (Record Fixed Values Status)
  revisions : Dict (UUID × Nat) (RevisionRow Copied Values Status)

/-- An `IntegrityError` that nothing handles. -/
def integrityError : Exn := ⟨.integrityError, ""⟩

namespace SqlStore

def empty : SqlStore Fixed Copied Values Status := ⟨.empty, .empty⟩

variable (db : Database) (columns : Columns Fixed Copied) (kind : Kind Status)
  (store : SqlStore Fixed Copied Values Status)

/-- `_requirement_revision`, or the revision model of a test case or a script. -/
def revisionRow (record : Record Fixed Values Status) : RevisionRow Copied Values Status :=
  ⟨columns.copy record.fixed, record.values, record.status, db.keep record.updatedAt⟩

/-- `_revision_record`. -/
def revisionRecord (current : Record Fixed Values Status) (revision : Nat) (row : RevisionRow Copied Values Status) :
    Record Fixed Values Status :=
  ⟨current.id, current.projectId, columns.restore current.fixed row.copied, row.values, row.status, revision,
    revision - 1, current.createdAt, row.createdAt⟩

/-- A row and its revision, in one transaction. -/
def insert (record : Record Fixed Values Status) : Except Exn (SqlStore Fixed Copied Values Status) :=
  if (store.revisions.get? (record.id, record.revision)).isSome then .error integrityError
  else .ok ⟨store.rows.set record.id (record.kept db),
    store.revisions.set (record.id, record.revision) (revisionRow db columns record)⟩

def create (newId projectId : UUID) (fixed : Fixed) (values : Values) (now : Instant) :
    Except Exn (Record Fixed Values Status × SqlStore Fixed Copied Values Status) := do
  let record := kind.first newId projectId fixed values now
  if (store.rows.get? newId).isSome then .error integrityError
  let after ← store.insert db columns record
  return (record, after)

def get (id : UUID) : Except Exn (Record Fixed Values Status) :=
  match store.rows.get? id with
  | some record => .ok record
  | none => .error (kind.missing id)

def list (projectId : Option UUID) : List (Record Fixed Values Status) :=
  db.orderBy (·.createdAt) (store.rows.values.filter fun record => projectId.all (record.projectId = ·))

/-- The row is locked, read, changed and written with its revision. -/
def update (id : UUID) (expectedVersion : Nat) (values : Values) (status : Status) (now : Instant) :
    Except Exn (Record Fixed Values Status × SqlStore Fixed Copied Values Status) := do
  let current ← store.get kind id
  checkVersion current.stateVersion expectedVersion
  let updated ← current.update kind values status now
  let after ← store.insert db columns updated
  return (updated, after)

def listRevisions (id : UUID) : Except Exn (List (Record Fixed Values Status)) := do
  let current ← store.get kind id
  let models := (store.revisions.entries.filter (·.1.1 = id)).mergeSort fun a b => a.1.2 ≤ b.1.2
  return models.map fun model => revisionRecord columns current model.1.2 model.2

def getRevision (id : UUID) (revision : Int) : Except Exn (Record Fixed Values Status) := do
  let current ← store.get kind id
  match if revision < 0 then none else store.revisions.get? (id, revision.toNat) with
  | some model => .ok (revisionRecord columns current revision.toNat model)
  | none => .error (kind.missingRevision id revision)

/-- The rows that a link table joins to an id. -/
def linked (links : Dict (UUID × UUID) LinkRecord) (id : UUID) : List (Record Fixed Values Status) :=
  db.orderBy (·.createdAt) ((linkedTo links id).filterMap store.rows.get?)

end SqlStore

/-! ## The link tables -/

/-- A link is looked for, checked and inserted; the second value says whether it was there. -/
def linkRows (db : Database) (links : Dict (UUID × UUID) LinkRecord) (key : UUID × UUID) (linkable : Except Exn Unit)
    (now : Instant) : Except Exn ((LinkRecord × Bool) × Dict (UUID × UUID) LinkRecord) :=
  match links.get? key with
  | some link => .ok ((link, true), links)
  | none => do
    linkable
    return ((⟨key, now⟩, false), links.set key (LinkRecord.kept db ⟨key, now⟩))

structure SqlAssets where
  requirements : SqlStore Unit Unit RequirementValues RequirementStatus
  testCases : SqlStore TestCaseSource TestCaseSource TestCaseValues TestCaseStatus
  scripts : SqlStore Engine Unit ScriptValues AutomationScriptStatus
  traceLinks : Dict (UUID × UUID) LinkRecord
  scriptLinks : Dict (UUID × UUID) LinkRecord

namespace SqlAssets

def empty : SqlAssets := ⟨.empty, .empty, .empty, .empty, .empty⟩

variable (db : Database) (sql : SqlAssets)

def createRequirement (newId projectId : UUID) (values : RequirementValues) (now : Instant) :
    Except Exn (RequirementRecord × SqlAssets) := do
  let (record, requirements) ← sql.requirements.create db requirementColumns requirementKind newId projectId () values now
  return (record, { sql with requirements := requirements })

def updateRequirement (requirementId : UUID) (values : RequirementValues) (status : RequirementStatus)
    (expectedVersion : Nat) (now : Instant) : Except Exn (RequirementRecord × SqlAssets) := do
  let (record, requirements) ← sql.requirements.update db requirementColumns requirementKind requirementId
    expectedVersion values status now
  return (record, { sql with requirements := requirements })

def createTestCase (newId projectId : UUID) (values : TestCaseValues) (source : TestCaseSource) (now : Instant) :
    Except Exn (TestCaseRecord × SqlAssets) := do
  let (record, testCases) ← sql.testCases.create db testCaseColumns testCaseKind newId projectId source values now
  return (record, { sql with testCases := testCases })

def updateTestCase (testCaseId : UUID) (expectedVersion : Nat) (values : TestCaseValues) (status : TestCaseStatus)
    (now : Instant) : Except Exn (TestCaseRecord × SqlAssets) := do
  let (record, testCases) ← sql.testCases.update db testCaseColumns testCaseKind testCaseId expectedVersion values
    status now
  return (record, { sql with testCases := testCases })

def linkRequirementTestCase (requirementId testCaseId : UUID) (now : Instant) :
    Except Exn ((LinkRecord × Bool) × SqlAssets) := do
  let requirement ← sql.requirements.get requirementKind requirementId
  let testCase ← sql.testCases.get testCaseKind testCaseId
  if requirement.projectId ≠ testCase.projectId then .error differentProjects
  let (answer, links) ← linkRows db sql.traceLinks (requirementId, testCaseId) (.ok ()) now
  return (answer, { sql with traceLinks := links })

def listRequirementTestCases (requirementId : UUID) : Except Exn (List TestCaseRecord) := do
  let _ ← sql.requirements.get requirementKind requirementId
  return sql.testCases.linked db sql.traceLinks requirementId

def createScript (newId projectId : UUID) (engine : Engine) (values : ScriptValues) (now : Instant) :
    Except Exn (AutomationScriptRecord × SqlAssets) := do
  let (record, scripts) ← sql.scripts.create db scriptColumns scriptKind newId projectId engine values now
  return (record, { sql with scripts := scripts })

def updateScript (scriptId : UUID) (expectedVersion : Nat) (values : ScriptValues) (status : AutomationScriptStatus)
    (now : Instant) : Except Exn (AutomationScriptRecord × SqlAssets) := do
  let (record, scripts) ← sql.scripts.update db scriptColumns scriptKind scriptId expectedVersion values status now
  return (record, { sql with scripts := scripts })

def linkTestCase (testCaseId scriptId : UUID) (now : Instant) : Except Exn ((LinkRecord × Bool) × SqlAssets) := do
  let testCase ← sql.testCases.get testCaseKind testCaseId
  let script ← sql.scripts.get scriptKind scriptId
  validateProject testCase script
  let (answer, links) ← linkRows db sql.scriptLinks (testCaseId, scriptId) (validateLinkable testCase script) now
  return (answer, { sql with scriptLinks := links })

def listTestCaseScripts (testCaseId : UUID) : Except Exn (List AutomationScriptRecord) := do
  let _ ← sql.testCases.get testCaseKind testCaseId
  return sql.scripts.linked db sql.scriptLinks testCaseId

/-- A transaction that raises is rolled back. -/
def onCall {α : Type} (call : Except Exn (α × SqlAssets)) (answer : α → AssetAnswer) : Except Exn AssetAnswer × SqlAssets :=
  let (a, after) := written sql call
  (a.map answer, after)

def on : AssetCall → Except Exn AssetAnswer × SqlAssets
  | .createRequirement newId projectId values now =>
    sql.onCall (sql.createRequirement db newId projectId values now) .requirement
  | .getRequirement requirementId => ((sql.requirements.get requirementKind requirementId).map .requirement, sql)
  | .listRequirements projectId => (.ok (.requirements (sql.requirements.list db projectId)), sql)
  | .updateRequirement requirementId values status expectedVersion now =>
    sql.onCall (sql.updateRequirement db requirementId values status expectedVersion now) .requirement
  | .listRequirementRevisions requirementId =>
    ((sql.requirements.listRevisions requirementColumns requirementKind requirementId).map .requirementRevisions, sql)
  | .createTestCase newId projectId values source now =>
    sql.onCall (sql.createTestCase db newId projectId values source now) .testCase
  | .getTestCase testCaseId => ((sql.testCases.get testCaseKind testCaseId).map .testCase, sql)
  | .listTestCases projectId => (.ok (.testCases (sql.testCases.list db projectId)), sql)
  | .updateTestCase testCaseId expectedVersion values status now =>
    sql.onCall (sql.updateTestCase db testCaseId expectedVersion values status now) .testCase
  | .listTestCaseRevisions testCaseId =>
    ((sql.testCases.listRevisions testCaseColumns testCaseKind testCaseId).map .testCaseRevisions, sql)
  | .linkRequirementTestCase requirementId testCaseId now =>
    sql.onCall (sql.linkRequirementTestCase db requirementId testCaseId now) fun a => .link a.1 a.2
  | .listRequirementTestCases requirementId =>
    ((sql.listRequirementTestCases db requirementId).map .testCases, sql)
  | .createScript newId projectId engine values now =>
    sql.onCall (sql.createScript db newId projectId engine values now) .script
  | .getScript scriptId => ((sql.scripts.get scriptKind scriptId).map .script, sql)
  | .listScripts projectId => (.ok (.scripts (sql.scripts.list db (some projectId))), sql)
  | .updateScript scriptId expectedVersion values status now =>
    sql.onCall (sql.updateScript db scriptId expectedVersion values status now) .script
  | .listRevisions scriptId => ((sql.scripts.listRevisions scriptColumns scriptKind scriptId).map .scriptRevisions, sql)
  | .getRevision scriptId revision => ((sql.scripts.getRevision scriptColumns scriptKind scriptId revision).map .script, sql)
  | .linkTestCase testCaseId scriptId now =>
    sql.onCall (sql.linkTestCase db testCaseId scriptId now) fun a => .link a.1 a.2
  | .listTestCaseScripts testCaseId => ((sql.listTestCaseScripts db testCaseId).map .scripts, sql)

end SqlAssets

end SmartTest.Asset
