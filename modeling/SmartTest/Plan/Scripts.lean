import SmartTest.Lib.Except
import SmartTest.Plan.Domain
import SmartTest.Run.Task

/-!
# Automation scripts

`services/api/automation_domain.py` and `services/api/automation_repository.py`, on bodies
that `services/api/automation_schemas.py` accepts. Names, descriptions, timestamps and the
links to test cases are left out: no operation here reads them.
-/

open SmartTest.Lib SmartTest.Run

namespace SmartTest.Plan

inductive AutomationScriptStatus where
  | draft | active | archived
  deriving DecidableEq, Repr

def AutomationScriptStatus.value : AutomationScriptStatus → String
  | .draft => "DRAFT"
  | .active => "ACTIVE"
  | .archived => "ARCHIVED"

def SCRIPT_TRANSITIONS : AutomationScriptStatus → List AutomationScriptStatus
  | .draft => [.active]
  | .active => [.archived]
  | .archived => [.active]

/-- `_next_script_status`. -/
def nextScriptStatus (current target : AutomationScriptStatus) : Except Exn AutomationScriptStatus :=
  if current = target then
    if current = .archived then
      .error ⟨.other "InvalidAssetTransition", "cannot modify a script while it is archived"⟩
    else .ok current
  else if target ∉ SCRIPT_TRANSITIONS current then
    .error ⟨.other "InvalidAssetTransition",
      "cannot transition script from " ++ current.value ++ " to " ++ target.value⟩
  else .ok target

/-- An accepted `_ScriptBody`. The entrypoint is also a safe relative path, which nothing here needs. -/
structure ScriptBody where
  entrypoint : String
  sourceRef : String
  contentDigest : String
  timeoutSeconds : Nat
  entrypoint_length : 1 ≤ entrypoint.length ∧ entrypoint.length ≤ 512
  sourceRef_length : 1 ≤ sourceRef.length ∧ sourceRef.length ≤ 512
  contentDigest_hex : isContentDigest contentDigest = true
  timeoutSeconds_range : 1 ≤ timeoutSeconds ∧ timeoutSeconds ≤ 3600

/-- An `AutomationScriptRecord` with the fields that plan validation reads as well. -/
structure ScriptRecord extends AutomationScriptRecord where
  projectId : UUID
  status : AutomationScriptStatus
  stateVersion : Nat

def ScriptRecord.update (record : ScriptRecord) (body : ScriptBody) (status : AutomationScriptStatus) :
    Except Exn ScriptRecord := do
  let status ← nextScriptStatus record.status status
  return { record with
    entrypoint := body.entrypoint
    sourceRef := body.sourceRef
    contentDigest := body.contentDigest
    timeoutSeconds := body.timeoutSeconds
    status := status
    revision := record.revision + 1
    stateVersion := record.stateVersion + 1 }

structure AutomationRepository where
  scripts : Dict UUID ScriptRecord
  revisions : Dict UUID (List ScriptRecord)

namespace AutomationRepository

def empty : AutomationRepository := ⟨.empty, .empty⟩

variable (repo : AutomationRepository)

/-- The writes of `create_script`. -/
def createScript (newId projectId : UUID) (engine : Engine) (body : ScriptBody) :
    ScriptRecord × AutomationRepository :=
  let record : ScriptRecord :=
    { id := newId, revision := 1, engine := engine, entrypoint := body.entrypoint, sourceRef := body.sourceRef
      contentDigest := body.contentDigest, timeoutSeconds := body.timeoutSeconds, projectId := projectId
      status := .draft, stateVersion := 0 }
  (record, ⟨repo.scripts.set newId record, repo.revisions.set newId [record]⟩)

def scriptNotFound (message : String) : Exn := ⟨.other "ScriptNotFound", message⟩

def getScript (scriptId : UUID) : Except Exn ScriptRecord :=
  match repo.scripts.get? scriptId with
  | some record => .ok record
  | none => .error (scriptNotFound ("automation script " ++ scriptId.text ++ " was not found"))

def updateScript (scriptId : UUID) (expectedVersion : Nat) (body : ScriptBody)
    (status : AutomationScriptStatus) : Except Exn (ScriptRecord × AutomationRepository) := do
  let current ← repo.getScript scriptId
  if current.stateVersion ≠ expectedVersion then
    .error ⟨.other "AssetVersionConflict", "state version mismatch: expected " ++ toString expectedVersion
      ++ ", current " ++ toString current.stateVersion⟩
  let updated ← current.update body status
  let some revisions := repo.revisions.get? scriptId | .error ⟨.keyError, scriptId.text⟩
  return (updated, ⟨repo.scripts.set scriptId updated, repo.revisions.set scriptId (revisions ++ [updated])⟩)

def getRevision (scriptId : UUID) (revision : Nat) : Except Exn ScriptRecord := do
  let _ ← repo.getScript scriptId
  let some revisions := repo.revisions.get? scriptId | .error ⟨.keyError, scriptId.text⟩
  if revision < 1 ∨ revision > revisions.length then
    .error (scriptNotFound ("automation script " ++ scriptId.text ++ " revision " ++ toString revision
      ++ " was not found"))
  let some record := revisions[revision - 1]? | .error ⟨.other "IndexError", "list index out of range"⟩
  return record

end AutomationRepository

end SmartTest.Plan
