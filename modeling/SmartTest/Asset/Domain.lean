import SmartTest.Plan.Scripts

/-!
# Requirements, test cases and scripts

`services/api/quality_domain.py` and `services/api/automation_domain.py`. The three families of
assets are one record, over what an update leaves alone, what it writes, and the status.
-/

open SmartTest.Lib SmartTest.Run SmartTest.Plan

namespace SmartTest.Asset

inductive RequirementStatus where
  | draft | active | archived
  deriving DecidableEq, Repr

def RequirementStatus.value : RequirementStatus → String
  | .draft => "DRAFT"
  | .active => "ACTIVE"
  | .archived => "ARCHIVED"

inductive TestCaseStatus where
  | draft | ready | archived
  deriving DecidableEq, Repr

def TestCaseStatus.value : TestCaseStatus → String
  | .draft => "DRAFT"
  | .ready => "READY"
  | .archived => "ARCHIVED"

inductive TestCasePriority where
  | low | medium | high | critical
  deriving DecidableEq, Repr

inductive TestCaseSource where
  | manual | ai
  deriving DecidableEq, Repr

/-- A status that the dictionary does not have is terminal. -/
def REQUIREMENT_TRANSITIONS : RequirementStatus → Option (List RequirementStatus)
  | .draft => some [.active]
  | .active => some [.archived]
  | .archived => none

def TEST_CASE_TRANSITIONS : TestCaseStatus → Option (List TestCaseStatus)
  | .draft => some [.ready]
  | .ready => some [.archived]
  | .archived => none

def invalidAssetTransition (message : String) : Exn := ⟨.other "InvalidAssetTransition", message⟩

/-- `_next_status`. -/
def nextStatus {Status : Type} [DecidableEq Status] (value : Status → String)
    (rules : Status → Option (List Status)) (current target : Status) : Except Exn Status :=
  if current = target then
    if (rules current).isNone then
      .error (invalidAssetTransition ("cannot modify an asset in terminal state " ++ value current))
    else .ok current
  else if target ∉ (rules current).getD [] then
    .error (invalidAssetTransition ("cannot transition from " ++ value current ++ " to " ++ value target))
  else .ok target

structure CaseStepRecord where
  order : Int
  action : String
  expectedResult : String
  deriving DecidableEq, Repr

/-! ## Records -/

structure Record (Fixed Values Status : Type) where
  id : UUID
  projectId : UUID
  fixed : Fixed
  values : Values
  status : Status
  revision : Nat
  stateVersion : Nat
  createdAt : Instant
  updatedAt : Instant

structure RequirementValues where
  title : String
  description : String
  deriving DecidableEq, Repr

structure TestCaseValues where
  title : String
  description : String
  preconditions : String
  priority : TestCasePriority
  steps : List CaseStepRecord
  deriving DecidableEq, Repr

structure ScriptValues where
  name : String
  description : String
  entrypoint : String
  sourceRef : String
  contentDigest : String
  timeoutSeconds : Nat
  deriving DecidableEq, Repr

abbrev RequirementRecord := Record Unit RequirementValues RequirementStatus

/-- An update leaves the source of a test case as it is. -/
abbrev TestCaseRecord := Record TestCaseSource TestCaseValues TestCaseStatus

/-- An update leaves the engine of a script as it is. -/
abbrev AutomationScriptRecord := Record Engine ScriptValues AutomationScriptStatus

/-- A `TraceLinkRecord` or a `TestCaseScriptLinkRecord`, with its two ids in their order. -/
structure LinkRecord where
  ends : UUID × UUID
  createdAt : Instant
  deriving DecidableEq, Repr

/-! ## The families -/

/-- A family of assets: its first status, what an update may make of a status, and its `LookupError`. -/
structure Kind (Status : Type) where
  draft : Status
  next : Status → Status → Except Exn Status
  notFound : String → Exn
  label : String

def requirementKind : Kind RequirementStatus where
  draft := .draft
  next := nextStatus RequirementStatus.value REQUIREMENT_TRANSITIONS
  notFound := fun message => ⟨.other "RequirementNotFound", message⟩
  label := "requirement"

def testCaseKind : Kind TestCaseStatus where
  draft := .draft
  next := nextStatus TestCaseStatus.value TEST_CASE_TRANSITIONS
  notFound := fun message => ⟨.other "TestCaseNotFound", message⟩
  label := "test case"

def scriptKind : Kind AutomationScriptStatus where
  draft := .draft
  next := nextScriptStatus
  notFound := fun message => ⟨.other "ScriptNotFound", message⟩
  label := "automation script"

variable {Fixed Values Status : Type}

/-- The record that a `create_…` stores. -/
def Kind.first (kind : Kind Status) (newId projectId : UUID) (fixed : Fixed) (values : Values) (now : Instant) :
    Record Fixed Values Status :=
  ⟨newId, projectId, fixed, values, kind.draft, 1, 0, now, now⟩

/-- The `update` of the record. -/
def Record.update (kind : Kind Status) (record : Record Fixed Values Status) (values : Values) (status : Status)
    (now : Instant) : Except Exn (Record Fixed Values Status) := do
  let next ← kind.next record.status status
  return { record with
    values := values
    status := next
    revision := record.revision + 1
    stateVersion := record.stateVersion + 1
    updatedAt := now }

/-- `_check_version`. -/
def checkVersion (current expected : Nat) : Except Exn Unit :=
  if current ≠ expected then
    .error ⟨.other "AssetVersionConflict",
      "state version mismatch: expected " ++ toString expected ++ ", current " ++ toString current⟩
  else .ok ()

def Kind.missing (kind : Kind Status) (id : UUID) : Exn :=
  kind.notFound (kind.label ++ " " ++ id.text ++ " was not found")

def Kind.missingRevision (kind : Kind Status) (id : UUID) (revision : Int) : Exn :=
  kind.notFound (kind.label ++ " " ++ id.text ++ " revision " ++ toString revision ++ " was not found")

def linkConflict (name message : String) : Exn := ⟨.other name, message⟩

def differentProjects : Exn := linkConflict "TraceLinkConflict" "requirement and test case belong to different projects"

/-- `_validate_project` of the scripts. -/
def validateProject (testCase : TestCaseRecord) (script : AutomationScriptRecord) : Except Exn Unit :=
  if testCase.projectId ≠ script.projectId then
    .error (linkConflict "ScriptLinkConflict" "test case and automation script belong to different projects")
  else .ok ()

/-- `_validate_linkable`. -/
def validateLinkable (testCase : TestCaseRecord) (script : AutomationScriptRecord) : Except Exn Unit :=
  if testCase.status = .archived then
    .error (linkConflict "ScriptLinkConflict" "an archived test case cannot receive new script links")
  else if script.status = .archived then
    .error (linkConflict "ScriptLinkConflict" "an archived automation script cannot be linked")
  else .ok ()

/-! ## What an update may do -/

theorem Record.update_ok_iff {kind : Kind Status} {record updated : Record Fixed Values Status} {values : Values}
    {status : Status} {now : Instant} :
    record.update kind values status now = .ok updated ↔ ∃ next, kind.next record.status status = .ok next ∧
      { record with values := values, status := next, revision := record.revision + 1,
                    stateVersion := record.stateVersion + 1, updatedAt := now } = updated := by
  unfold Record.update
  simp only [bind_eq_ok_iff, pure_eq_ok_iff]

theorem checkVersion_ok_iff {current expected : Nat} : checkVersion current expected = .ok () ↔ current = expected := by
  unfold checkVersion
  split <;> simp_all

theorem nextStatus_ok_iff {Status : Type} [DecidableEq Status] {value : Status → String}
    {rules : Status → Option (List Status)} {current target next : Status} :
    nextStatus value rules current target = .ok next ↔
      next = target ∧ ((current = target ∧ (rules current).isSome) ∨
        (current ≠ target ∧ target ∈ (rules current).getD [])) := by
  unfold nextStatus
  by_cases hsame : current = target
  · subst hsame
    cases rules current with
    | none => simp
    | some targets => simp [@eq_comm _ current]
  · by_cases hmem : target ∈ (rules current).getD []
    · simp [hsame, hmem, @eq_comm _ target]
    · simp [hsame, hmem]

theorem nextScriptStatus_ok_iff {current target next : AutomationScriptStatus} :
    nextScriptStatus current target = .ok next ↔
      next = target ∧ ((current = target ∧ current ≠ .archived) ∨
        (current ≠ target ∧ target ∈ SCRIPT_TRANSITIONS current)) := by
  unfold nextScriptStatus
  by_cases hsame : current = target
  · subst hsame
    by_cases harchived : current = .archived
    · simp [harchived]
    · simp [harchived, @eq_comm _ current]
  · by_cases hmem : target ∈ SCRIPT_TRANSITIONS current
    · simp [hsame, hmem, @eq_comm _ target]
    · simp [hsame, hmem]

end SmartTest.Asset
