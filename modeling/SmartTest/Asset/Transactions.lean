import SmartTest.Asset.Sql
import SmartTest.Lib.Transactions

/-!
# Asset calls side by side

The methods of `SqlQualityRepository` and `SqlAutomationRepository` as transactions that run side
by side. A row that is read `WITH FOR UPDATE` is locked to the end of its transaction, and so is
the key of an inserted link; every other read sees what is committed then. The locks of foreign
keys are left out: they only make a transaction wait.
-/

open SmartTest.Lib SmartTest.Run SmartTest.Plan

namespace SmartTest.Asset

variable {Fixed Copied Values Status : Type}

/-! ## The parts of a method -/

namespace SqlStore

variable (columns : Columns Fixed Copied) (kind : Kind Status) (store : SqlStore Fixed Copied Values Status)

/-- What an update makes of the row that it has locked. -/
def changed (id : UUID) (expectedVersion : Nat) (values : Values) (status : Status) (now : Instant) :
    Except Exn (Record Fixed Values Status) := do
  let current ← store.get kind id
  checkVersion current.stateVersion expectedVersion
  current.update kind values status now

/-- The revisions of an asset that another session has read. -/
def revisionsOf (current : Record Fixed Values Status) (id : UUID) : List (Record Fixed Values Status) :=
  ((store.revisions.entries.filter (·.1.1 = id)).mergeSort fun a b => a.1.2 ≤ b.1.2).map fun model =>
    revisionRecord columns current model.1.2 model.2

def revisionOf (current : Record Fixed Values Status) (id : UUID) (revision : Int) :
    Except Exn (Record Fixed Values Status) :=
  match if revision < 0 then none else store.revisions.get? (id, revision.toNat) with
  | some model => .ok (revisionRecord columns current revision.toNat model)
  | none => .error (kind.missingRevision id revision)

end SqlStore

inductive Row where
  | requirement (requirementId : UUID)
  | testCase (testCaseId : UUID)
  | script (scriptId : UUID)
  | traceLink (key : UUID × UUID)
  | scriptLink (key : UUID × UUID)
  deriving DecidableEq

/-- How far a call has come. -/
inductive Progress where
  | begun
  /-- The row is locked, and this is what the commit writes. -/
  | requirementChanged (updated : RequirementRecord)
  | testCaseChanged (updated : TestCaseRecord)
  | scriptChanged (updated : AutomationScriptRecord)
  /-- The asset is read; the rest is for another read. -/
  | requirementRead (current : RequirementRecord)
  | testCaseRead (current : TestCaseRecord)
  | scriptRead (current : AutomationScriptRecord)
  /-- Both ends of a link are read, and are of one project. -/
  | traceEnds
  | scriptEnds (testCase : TestCaseRecord) (script : AutomationScriptRecord)
  /-- No link is there, and the ends allow one. -/
  | unlinked
  | inserted
  /-- The insert raised an `IntegrityError`, and the transaction is rolled back. -/
  | rejected

structure Transaction where
  call : AssetCall
  progress : Progress

/-- The rows that a transaction keeps locked. -/
def Transaction.locks (transaction : Transaction) : List Row :=
  match transaction.call, transaction.progress with
  | .updateRequirement requirementId .., .requirementChanged _ => [.requirement requirementId]
  | .updateTestCase testCaseId .., .testCaseChanged _ => [.testCase testCaseId]
  | .updateScript scriptId .., .scriptChanged _ => [.script scriptId]
  | .linkRequirementTestCase requirementId testCaseId _, .inserted => [.traceLink (requirementId, testCaseId)]
  | .linkTestCase testCaseId _ _, .testCaseRead _ => [.testCase testCaseId]
  | .linkTestCase testCaseId scriptId _, .scriptEnds _ _ => [.testCase testCaseId, .script scriptId]
  | .linkTestCase testCaseId scriptId _, .unlinked => [.testCase testCaseId, .script scriptId]
  | .linkTestCase testCaseId scriptId _, .inserted =>
    [.testCase testCaseId, .script scriptId, .scriptLink (testCaseId, scriptId)]
  | _, _ => []

inductive Outcome where
  | waits
  | goesOn (progress : Progress)
  /-- The call returns or raises, on these tables. -/
  | answers (answer : Except Exn AssetAnswer) (sql : SqlAssets)

/-! ## One operation -/

namespace SqlAssets

variable (db : Database) (sql : SqlAssets) (free : Row → Bool)

/-- A read that raises ends the call. -/
def reading {α : Type} (read : Except Exn α) (next : α → Progress) : Outcome :=
  match read with
  | .ok a => .goesOn (next a)
  | .error e => .answers (.error e) sql

/-- A row is locked before it is read. -/
def locking {α : Type} (row : Row) (read : Except Exn α) (next : α → Progress) : Outcome :=
  if free row then sql.reading read next else .waits

/-- A write that raises is rolled back. -/
def committing (write : Except Exn SqlAssets) (answer : AssetAnswer) : Outcome :=
  match write with
  | .ok sql' => .answers (.ok answer) sql'
  | .error e => .answers (.error e) sql

/-- A link that is there is the answer; else the method goes on. -/
def existing (links : Dict (UUID × UUID) LinkRecord) (key : UUID × UUID) (otherwise : Outcome) : Outcome :=
  match links.get? key with
  | some link => .answers (.ok (.link link true)) sql
  | none => otherwise

/-- The insert waits for another one at the same key, and is checked against the links and the ends. -/
def inserting (row : Row) (links : Dict (UUID × UUID) LinkRecord) (key : UUID × UUID) (endsThere : Bool) : Outcome :=
  if free row then
    if (links.get? key).isSome ∨ endsThere = false then .goesOn .rejected else .goesOn .inserted
  else .waits

def linkRequirementTestCaseStep (requirementId testCaseId : UUID) (now : Instant) : Progress → Outcome
  | .begun => sql.reading (sql.requirements.get requirementKind requirementId) .requirementRead
  | .requirementRead requirement =>
    sql.reading (do
      let testCase ← sql.testCases.get testCaseKind testCaseId
      if requirement.projectId ≠ testCase.projectId then .error differentProjects else .ok ()) fun _ => .traceEnds
  | .traceEnds => sql.existing sql.traceLinks (requirementId, testCaseId) (.goesOn .unlinked)
  | .unlinked => inserting free (.traceLink (requirementId, testCaseId)) sql.traceLinks (requirementId, testCaseId)
      ((sql.requirements.rows.get? requirementId).isSome && (sql.testCases.rows.get? testCaseId).isSome)
  | .inserted =>
    let link : LinkRecord := ⟨(requirementId, testCaseId), now⟩
    .answers (.ok (.link link false))
      { sql with traceLinks := sql.traceLinks.set (requirementId, testCaseId) (link.kept db) }
  | .rejected => sql.existing sql.traceLinks (requirementId, testCaseId)
      (.answers (.error (linkConflict "TraceLinkConflict"
        "requirement or test case changed while creating the link")) sql)
  | _ => .waits

def linkTestCaseStep (testCaseId scriptId : UUID) (now : Instant) : Progress → Outcome
  | .begun => sql.locking free (.testCase testCaseId) (sql.testCases.get testCaseKind testCaseId) .testCaseRead
  | .testCaseRead testCase =>
    sql.locking free (.script scriptId) (do
      let script ← sql.scripts.get scriptKind scriptId
      validateProject testCase script
      return script) (.scriptEnds testCase)
  | .scriptEnds testCase script =>
    sql.existing sql.scriptLinks (testCaseId, scriptId)
      (sql.reading (validateLinkable testCase script) fun _ => .unlinked)
  | .unlinked => inserting free (.scriptLink (testCaseId, scriptId)) sql.scriptLinks (testCaseId, scriptId)
      ((sql.testCases.rows.get? testCaseId).isSome && (sql.scripts.rows.get? scriptId).isSome)
  | .inserted =>
    let link : LinkRecord := ⟨(testCaseId, scriptId), now⟩
    .answers (.ok (.link link false))
      { sql with scriptLinks := sql.scriptLinks.set (testCaseId, scriptId) (link.kept db) }
  | .rejected => sql.existing sql.scriptLinks (testCaseId, scriptId)
      (.answers (.error (linkConflict "ScriptLinkConflict"
        "test case or automation script changed while creating the link")) sql)
  | _ => .waits

/-- The next operation of a call. A method of one read or one insert is one operation. -/
def next : AssetCall → Progress → Outcome
  | .updateRequirement requirementId values status expectedVersion now, .begun =>
    sql.locking free (.requirement requirementId)
      (sql.requirements.changed requirementKind requirementId expectedVersion values status now) .requirementChanged
  | .updateRequirement .., .requirementChanged updated =>
    sql.committing ((sql.requirements.insert db requirementColumns updated).map fun rows =>
      { sql with requirements := rows }) (.requirement updated)
  | .updateTestCase testCaseId expectedVersion values status now, .begun =>
    sql.locking free (.testCase testCaseId)
      (sql.testCases.changed testCaseKind testCaseId expectedVersion values status now) .testCaseChanged
  | .updateTestCase .., .testCaseChanged updated =>
    sql.committing ((sql.testCases.insert db testCaseColumns updated).map fun rows => { sql with testCases := rows })
      (.testCase updated)
  | .updateScript scriptId expectedVersion values status now, .begun =>
    sql.locking free (.script scriptId)
      (sql.scripts.changed scriptKind scriptId expectedVersion values status now) .scriptChanged
  | .updateScript .., .scriptChanged updated =>
    sql.committing ((sql.scripts.insert db scriptColumns updated).map fun rows => { sql with scripts := rows })
      (.script updated)
  | .linkRequirementTestCase requirementId testCaseId now, progress =>
    sql.linkRequirementTestCaseStep db free requirementId testCaseId now progress
  | .linkTestCase testCaseId scriptId now, progress => sql.linkTestCaseStep db free testCaseId scriptId now progress
  | .listRequirementRevisions requirementId, .begun =>
    sql.reading (sql.requirements.get requirementKind requirementId) .requirementRead
  | .listRequirementRevisions requirementId, .requirementRead current =>
    .answers (.ok (.requirementRevisions (sql.requirements.revisionsOf requirementColumns current requirementId))) sql
  | .listTestCaseRevisions testCaseId, .begun =>
    sql.reading (sql.testCases.get testCaseKind testCaseId) .testCaseRead
  | .listTestCaseRevisions testCaseId, .testCaseRead current =>
    .answers (.ok (.testCaseRevisions (sql.testCases.revisionsOf testCaseColumns current testCaseId))) sql
  | .listRevisions scriptId, .begun => sql.reading (sql.scripts.get scriptKind scriptId) .scriptRead
  | .listRevisions scriptId, .scriptRead current =>
    .answers (.ok (.scriptRevisions (sql.scripts.revisionsOf scriptColumns current scriptId))) sql
  | .getRevision scriptId _, .begun => sql.reading (sql.scripts.get scriptKind scriptId) .scriptRead
  | .getRevision scriptId revision, .scriptRead current =>
    .answers ((sql.scripts.revisionOf scriptColumns scriptKind current scriptId revision).map .script) sql
  | .listRequirementTestCases requirementId, .begun =>
    sql.reading (sql.requirements.get requirementKind requirementId) .requirementRead
  | .listRequirementTestCases requirementId, .requirementRead _ =>
    .answers (.ok (.testCases (sql.testCases.linked db sql.traceLinks requirementId))) sql
  | .listTestCaseScripts testCaseId, .begun =>
    sql.reading (sql.testCases.get testCaseKind testCaseId) .testCaseRead
  | .listTestCaseScripts testCaseId, .testCaseRead _ =>
    .answers (.ok (.scripts (sql.scripts.linked db sql.scriptLinks testCaseId))) sql
  | call, .begun => .answers (sql.on db call).1 (sql.on db call).2
  | _, _ => .waits

end SqlAssets

/-! ## The machine -/

/-- The committed tables, the calls that are under way, and those that were answered, in their order. -/
structure Service where
  sql : SqlAssets
  active : Dict Nat Transaction
  done : List (AssetCall × Except Exn AssetAnswer)

namespace Service

def start : Service := ⟨.empty, .empty, []⟩

inductive Event where
  /-- A call begins, as number `t`. -/
  | call (t : Nat) (call : AssetCall)
  /-- Call `t` takes its next operation. -/
  | go (t : Nat)
  /-- Call `t` is lost: its process, its connection or a deadlock. -/
  | lose (t : Nat)

/-- One event. A transaction that waits for a lock does not go on. -/
def step (db : Database) (service : Service) : Event → Option Service
  | .call t call =>
    if (service.active.get? t).isSome then none
    else some { service with active := service.active.set t ⟨call, .begun⟩ }
  | .go t =>
    match service.active.get? t with
    | none => none
    | some transaction =>
      match service.sql.next db (rowFree Transaction.locks service.active t) transaction.call transaction.progress with
      | .waits => none
      | .goesOn progress => some { service with active := service.active.set t ⟨transaction.call, progress⟩ }
      | .answers answer sql => some ⟨sql, service.active.erase t, service.done ++ [(transaction.call, answer)]⟩
  | .lose t =>
    if (service.active.get? t).isNone then none else some { service with active := service.active.erase t }

end Service

end SmartTest.Asset
