import Mathlib.Data.List.Sort
import SmartTest.Asset.Domain

/-!
# Assets in memory

`services/api/quality_repository.py` and `services/api/automation_repository.py`. Every method
holds the lock of its repository, so one call is one step.
-/

open SmartTest.Lib SmartTest.Run SmartTest.Plan

namespace SmartTest.Asset

variable {Fixed Values Status : Type}

/-! ## One family -/

/-- The two dictionaries of a family: the current records, and all revisions of each. -/
structure Store (Fixed Values Status : Type) where
  records : Dict UUID (Record Fixed Values Status)
  revisions : Dict UUID (List (Record Fixed Values Status))

namespace Store

def empty : Store Fixed Values Status := ⟨.empty, .empty⟩

variable (kind : Kind Status) (store : Store Fixed Values Status)

/-- `create_…`. -/
def create (newId projectId : UUID) (fixed : Fixed) (values : Values) (now : Instant) :
    Record Fixed Values Status × Store Fixed Values Status :=
  let record := kind.first newId projectId fixed values now
  (record, ⟨store.records.set newId record, store.revisions.set newId [record]⟩)

/-- `get_…`. -/
def get (id : UUID) : Except Exn (Record Fixed Values Status) :=
  match store.records.get? id with
  | some record => .ok record
  | none => .error (kind.missing id)

/-- `list_…`: Python's sort is stable. -/
def list (projectId : Option UUID) : List (Record Fixed Values Status) :=
  (store.records.values.filter fun record => projectId.all (record.projectId = ·)).mergeSort
    fun a b => a.createdAt ≤ b.createdAt

/-- `update_…`. -/
def update (id : UUID) (expectedVersion : Nat) (values : Values) (status : Status) (now : Instant) :
    Except Exn (Record Fixed Values Status × Store Fixed Values Status) := do
  let current ← store.get kind id
  checkVersion current.stateVersion expectedVersion
  let updated ← current.update kind values status now
  let some revisions := store.revisions.get? id | .error ⟨.keyError, id.text⟩
  return (updated, ⟨store.records.set id updated, store.revisions.set id (revisions ++ [updated])⟩)

/-- `list_…_revisions`. -/
def listRevisions (id : UUID) : Except Exn (List (Record Fixed Values Status)) := do
  let _ ← store.get kind id
  match store.revisions.get? id with
  | some revisions => .ok revisions
  | none => .error ⟨.keyError, id.text⟩

/-- `get_revision`. -/
def getRevision (id : UUID) (revision : Int) : Except Exn (Record Fixed Values Status) := do
  let revisions ← store.listRevisions kind id
  if revision < 1 ∨ revision > revisions.length then .error (kind.missingRevision id revision)
  match revisions[revision.toNat - 1]? with
  | some record => .ok record
  | none => .error ⟨.other "IndexError", "list index out of range"⟩

/-- The dictionary at an id. -/
def recordAt (id : UUID) : Except Exn (Record Fixed Values Status) :=
  match store.records.get? id with
  | some record => .ok record
  | none => .error ⟨.keyError, id.text⟩

/-- The records of some ids, as the lists of linked assets have them. -/
def linked (ids : List UUID) : Except Exn (List (Record Fixed Values Status)) := do
  let records ← ids.mapM store.recordAt
  return records.mergeSort fun a b => a.createdAt ≤ b.createdAt

end Store

/-! ## The two repositories -/

structure QualityRepository where
  requirements : Store Unit RequirementValues RequirementStatus
  testCases : Store TestCaseSource TestCaseValues TestCaseStatus
  links : Dict (UUID × UUID) LinkRecord

structure AutomationRepository where
  scripts : Store Engine ScriptValues AutomationScriptStatus
  links : Dict (UUID × UUID) LinkRecord

/-- A call that raises leaves its repository as it was. -/
def written {α σ : Type} (before : σ) (answer : Except Exn (α × σ)) : Except Exn α × σ :=
  match answer with
  | .ok (a, after) => (.ok a, after)
  | .error e => (.error e, before)

/-- The second id of each link from `id`. -/
def linkedTo (links : Dict (UUID × UUID) LinkRecord) (id : UUID) : List UUID :=
  (links.keys.filter fun key => key.1 = id).map (·.2)

namespace QualityRepository

variable (repo : QualityRepository)

def empty : QualityRepository := ⟨.empty, .empty, .empty⟩

def createRequirement (newId projectId : UUID) (values : RequirementValues) (now : Instant) :
    RequirementRecord × QualityRepository :=
  let (record, requirements) := repo.requirements.create requirementKind newId projectId () values now
  (record, { repo with requirements := requirements })

def getRequirement (requirementId : UUID) : Except Exn RequirementRecord :=
  repo.requirements.get requirementKind requirementId

def listRequirements (projectId : Option UUID) : List RequirementRecord := repo.requirements.list projectId

def updateRequirement (requirementId : UUID) (values : RequirementValues) (status : RequirementStatus)
    (expectedVersion : Nat) (now : Instant) : Except Exn (RequirementRecord × QualityRepository) := do
  let (record, requirements) ← repo.requirements.update requirementKind requirementId expectedVersion values status now
  return (record, { repo with requirements := requirements })

def listRequirementRevisions (requirementId : UUID) : Except Exn (List RequirementRecord) :=
  repo.requirements.listRevisions requirementKind requirementId

def createTestCase (newId projectId : UUID) (values : TestCaseValues) (source : TestCaseSource) (now : Instant) :
    TestCaseRecord × QualityRepository :=
  let (record, testCases) := repo.testCases.create testCaseKind newId projectId source values now
  (record, { repo with testCases := testCases })

def getTestCase (testCaseId : UUID) : Except Exn TestCaseRecord := repo.testCases.get testCaseKind testCaseId

def listTestCases (projectId : Option UUID) : List TestCaseRecord := repo.testCases.list projectId

def updateTestCase (testCaseId : UUID) (expectedVersion : Nat) (values : TestCaseValues) (status : TestCaseStatus)
    (now : Instant) : Except Exn (TestCaseRecord × QualityRepository) := do
  let (record, testCases) ← repo.testCases.update testCaseKind testCaseId expectedVersion values status now
  return (record, { repo with testCases := testCases })

def listTestCaseRevisions (testCaseId : UUID) : Except Exn (List TestCaseRecord) :=
  repo.testCases.listRevisions testCaseKind testCaseId

def linkRequirementTestCase (requirementId testCaseId : UUID) (now : Instant) :
    Except Exn ((LinkRecord × Bool) × QualityRepository) := do
  let requirement ← repo.getRequirement requirementId
  let testCase ← repo.getTestCase testCaseId
  if requirement.projectId ≠ testCase.projectId then .error differentProjects
  match repo.links.get? (requirementId, testCaseId) with
  | some link => return ((link, true), repo)
  | none =>
    let link : LinkRecord := ⟨(requirementId, testCaseId), now⟩
    return ((link, false), { repo with links := repo.links.set (requirementId, testCaseId) link })

def listRequirementTestCases (requirementId : UUID) : Except Exn (List TestCaseRecord) := do
  let _ ← repo.getRequirement requirementId
  repo.testCases.linked (linkedTo repo.links requirementId)

end QualityRepository

namespace AutomationRepository

variable (repo : AutomationRepository)

def empty : AutomationRepository := ⟨.empty, .empty⟩

def createScript (newId projectId : UUID) (engine : Engine) (values : ScriptValues) (now : Instant) :
    AutomationScriptRecord × AutomationRepository :=
  let (record, scripts) := repo.scripts.create scriptKind newId projectId engine values now
  (record, { repo with scripts := scripts })

def getScript (scriptId : UUID) : Except Exn AutomationScriptRecord := repo.scripts.get scriptKind scriptId

def listScripts (projectId : UUID) : List AutomationScriptRecord := repo.scripts.list (some projectId)

def updateScript (scriptId : UUID) (expectedVersion : Nat) (values : ScriptValues) (status : AutomationScriptStatus)
    (now : Instant) : Except Exn (AutomationScriptRecord × AutomationRepository) := do
  let (record, scripts) ← repo.scripts.update scriptKind scriptId expectedVersion values status now
  return (record, { repo with scripts := scripts })

def listRevisions (scriptId : UUID) : Except Exn (List AutomationScriptRecord) :=
  repo.scripts.listRevisions scriptKind scriptId

def getRevision (scriptId : UUID) (revision : Int) : Except Exn AutomationScriptRecord :=
  repo.scripts.getRevision scriptKind scriptId revision

variable (testCases : QualityRepository)

/-- `link_test_case`: a link that is there is returned even if its ends are archived. -/
def linkTestCase (testCaseId scriptId : UUID) (now : Instant) :
    Except Exn ((LinkRecord × Bool) × AutomationRepository) := do
  let testCase ← testCases.getTestCase testCaseId
  let script ← repo.getScript scriptId
  validateProject testCase script
  match repo.links.get? (testCaseId, scriptId) with
  | some link => return ((link, true), repo)
  | none =>
    validateLinkable testCase script
    let link : LinkRecord := ⟨(testCaseId, scriptId), now⟩
    return ((link, false), { repo with links := repo.links.set (testCaseId, scriptId) link })

def listTestCaseScripts (testCaseId : UUID) : Except Exn (List AutomationScriptRecord) := do
  let _ ← testCases.getTestCase testCaseId
  repo.scripts.linked (linkedTo repo.links testCaseId)

end AutomationRepository

/-! ## Calls -/

inductive AssetCall where
  | createRequirement (newId projectId : UUID) (values : RequirementValues) (now : Instant)
  | getRequirement (requirementId : UUID)
  | listRequirements (projectId : Option UUID)
  | updateRequirement (requirementId : UUID) (values : RequirementValues) (status : RequirementStatus)
      (expectedVersion : Nat) (now : Instant)
  | listRequirementRevisions (requirementId : UUID)
  | createTestCase (newId projectId : UUID) (values : TestCaseValues) (source : TestCaseSource) (now : Instant)
  | getTestCase (testCaseId : UUID)
  | listTestCases (projectId : Option UUID)
  | updateTestCase (testCaseId : UUID) (expectedVersion : Nat) (values : TestCaseValues) (status : TestCaseStatus)
      (now : Instant)
  | listTestCaseRevisions (testCaseId : UUID)
  | linkRequirementTestCase (requirementId testCaseId : UUID) (now : Instant)
  | listRequirementTestCases (requirementId : UUID)
  | createScript (newId projectId : UUID) (engine : Engine) (values : ScriptValues) (now : Instant)
  | getScript (scriptId : UUID)
  | listScripts (projectId : UUID)
  | updateScript (scriptId : UUID) (expectedVersion : Nat) (values : ScriptValues) (status : AutomationScriptStatus)
      (now : Instant)
  | listRevisions (scriptId : UUID)
  | getRevision (scriptId : UUID) (revision : Int)
  | linkTestCase (testCaseId scriptId : UUID) (now : Instant)
  | listTestCaseScripts (testCaseId : UUID)

inductive AssetAnswer where
  | requirement (record : RequirementRecord)
  | requirements (records : List RequirementRecord)
  | requirementRevisions (records : List RequirementRecord)
  | testCase (record : TestCaseRecord)
  | testCases (records : List TestCaseRecord)
  | testCaseRevisions (records : List TestCaseRecord)
  | script (record : AutomationScriptRecord)
  | scripts (records : List AutomationScriptRecord)
  | scriptRevisions (records : List AutomationScriptRecord)
  | link (record : LinkRecord) (existed : Bool)

/-- The repositories of one process; the scripts read the test cases. -/
structure Assets where
  quality : QualityRepository
  automation : AutomationRepository

namespace Assets

def empty : Assets := ⟨.empty, .empty⟩

variable (assets : Assets)

def onQuality {α : Type} (call : Except Exn (α × QualityRepository)) (answer : α → AssetAnswer) :
    Except Exn AssetAnswer × Assets :=
  let (a, quality) := written assets.quality call
  (a.map answer, { assets with quality := quality })

def onAutomation {α : Type} (call : Except Exn (α × AutomationRepository)) (answer : α → AssetAnswer) :
    Except Exn AssetAnswer × Assets :=
  let (a, automation) := written assets.automation call
  (a.map answer, { assets with automation := automation })

def on : AssetCall → Except Exn AssetAnswer × Assets
  | .createRequirement newId projectId values now =>
    assets.onQuality (.ok (assets.quality.createRequirement newId projectId values now)) .requirement
  | .getRequirement requirementId => ((assets.quality.getRequirement requirementId).map .requirement, assets)
  | .listRequirements projectId => (.ok (.requirements (assets.quality.listRequirements projectId)), assets)
  | .updateRequirement requirementId values status expectedVersion now =>
    assets.onQuality (assets.quality.updateRequirement requirementId values status expectedVersion now) .requirement
  | .listRequirementRevisions requirementId =>
    ((assets.quality.listRequirementRevisions requirementId).map .requirementRevisions, assets)
  | .createTestCase newId projectId values source now =>
    assets.onQuality (.ok (assets.quality.createTestCase newId projectId values source now)) .testCase
  | .getTestCase testCaseId => ((assets.quality.getTestCase testCaseId).map .testCase, assets)
  | .listTestCases projectId => (.ok (.testCases (assets.quality.listTestCases projectId)), assets)
  | .updateTestCase testCaseId expectedVersion values status now =>
    assets.onQuality (assets.quality.updateTestCase testCaseId expectedVersion values status now) .testCase
  | .listTestCaseRevisions testCaseId =>
    ((assets.quality.listTestCaseRevisions testCaseId).map .testCaseRevisions, assets)
  | .linkRequirementTestCase requirementId testCaseId now =>
    assets.onQuality (assets.quality.linkRequirementTestCase requirementId testCaseId now) fun a => .link a.1 a.2
  | .listRequirementTestCases requirementId =>
    ((assets.quality.listRequirementTestCases requirementId).map .testCases, assets)
  | .createScript newId projectId engine values now =>
    assets.onAutomation (.ok (assets.automation.createScript newId projectId engine values now)) .script
  | .getScript scriptId => ((assets.automation.getScript scriptId).map .script, assets)
  | .listScripts projectId => (.ok (.scripts (assets.automation.listScripts projectId)), assets)
  | .updateScript scriptId expectedVersion values status now =>
    assets.onAutomation (assets.automation.updateScript scriptId expectedVersion values status now) .script
  | .listRevisions scriptId => ((assets.automation.listRevisions scriptId).map .scriptRevisions, assets)
  | .getRevision scriptId revision => ((assets.automation.getRevision scriptId revision).map .script, assets)
  | .linkTestCase testCaseId scriptId now =>
    assets.onAutomation (assets.automation.linkTestCase assets.quality testCaseId scriptId now) fun a => .link a.1 a.2
  | .listTestCaseScripts testCaseId =>
    ((assets.automation.listTestCaseScripts assets.quality testCaseId).map .scripts, assets)

end Assets

namespace Assets

theorem onQuality_cases (assets : Assets) {α : Type} (call : Except Exn (α × QualityRepository))
    (answer : α → AssetAnswer) :
    (∃ e, call = .error e ∧ assets.onQuality call answer = (.error e, assets)) ∨
      ∃ a quality, call = .ok (a, quality) ∧
        assets.onQuality call answer = (.ok (answer a), { assets with quality := quality }) := by
  cases call with
  | error e => exact .inl ⟨e, rfl, rfl⟩
  | ok a => exact .inr ⟨a.1, a.2, rfl, rfl⟩

theorem onAutomation_cases (assets : Assets) {α : Type} (call : Except Exn (α × AutomationRepository))
    (answer : α → AssetAnswer) :
    (∃ e, call = .error e ∧ assets.onAutomation call answer = (.error e, assets)) ∨
      ∃ a automation, call = .ok (a, automation) ∧
        assets.onAutomation call answer = (.ok (answer a), { assets with automation := automation }) := by
  cases call with
  | error e => exact .inl ⟨e, rfl, rfl⟩
  | ok a => exact .inr ⟨a.1, a.2, rfl, rfl⟩

end Assets

/-- The id that a call draws. -/
def AssetCall.draws : AssetCall → Option UUID
  | .createRequirement newId .. | .createTestCase newId .. | .createScript newId .. => some newId
  | _ => none

end SmartTest.Asset
