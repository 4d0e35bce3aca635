import Mathlib.Data.Char
import SmartTest.Lib.Index
import SmartTest.Parameter.Domain

/-!
# The parameter repository

`ParameterRepository` of `services/api/parameter_repository.py`. A call that raises leaves
what it had written by then.
-/

open SmartTest.Lib SmartTest.Run

namespace SmartTest.Parameter

structure ParameterRepository where
  enums : Dict UUID ParameterEnumSetRecord
  names : Dict (UUID × String) UUID
  parameters : Dict UUID (List ScriptParameterDefinition)

def enumNotFound (enumSetId : UUID) : Exn :=
  ⟨.other "ParameterEnumNotFound", "parameter enum " ++ enumSetId.text ++ " was not found"⟩

def enumConflict (message : String) : Exn := ⟨.other "ParameterEnumConflict", message⟩

def nameTaken : Exn := enumConflict "an enum set with this project and name exists"

def ParameterEnumSetRecord.key (record : ParameterEnumSetRecord) : UUID × String := (record.projectId, record.name)

namespace ParameterRepository

def empty : ParameterRepository := ⟨.empty, .empty, .empty⟩

variable (repo : ParameterRepository)

def getEnumSet (enumSetId : UUID) : Except Exn ParameterEnumSetRecord :=
  match repo.enums.get? enumSetId with
  | some record => .ok record
  | none => .error (enumNotFound enumSetId)

/-- `_validate_existing_defaults` on the parameters of one script. -/
def validateDefaults (enumSetId : UUID) (options : List ParameterEnumOption) :
    List ScriptParameterDefinition → Except Exn Unit
  | [] => .ok ()
  | item :: rest => do
    if item.enumSetId = some enumSetId then
      let found ← offered options item.defaultValue
      if found = false then .error (enumConflict "enum options cannot invalidate a referenced default")
    validateDefaults enumSetId options rest

def validateExistingDefaults (enumSetId : UUID) (options : List ParameterEnumOption) : Except Exn Unit :=
  validateDefaults enumSetId options repo.parameters.values.flatten

/-- `_validate_parameter_enums`. -/
def validateParameterEnums (projectId : UUID) : List ScriptParameterDefinition → Except Exn Unit
  | [] => .ok ()
  | item :: rest => do
    match item.enumSetId with
    | none => pure ()
    | some enumSetId =>
      match repo.getEnumSet enumSetId with
      | .error _ => .error (parameterConflict "parameter enum was not found")
      | .ok enumSet =>
        if enumSet.projectId ≠ projectId then
          .error (parameterConflict "parameter enum belongs to a different project")
        let found ← offered enumSet.options item.defaultValue
        if found = false then .error (parameterConflict "enum default_value must match an enum option")
    validateParameterEnums projectId rest

/-- `create_enum_set`; the id is from `uuid4`. -/
def createEnumSet (newId projectId : UUID) (name description : String) (options : List ParameterEnumOption) :
    Except Exn ParameterEnumSetRecord × ParameterRepository :=
  match validateEnumValues name options with
  | .error e => (.error e, repo)
  | .ok (normalized, validated) =>
    if (repo.names.get? (projectId, normalized)).isSome then (.error nameTaken, repo)
    else
      let record : ParameterEnumSetRecord := ⟨newId, projectId, normalized, description, validated, 0⟩
      (.ok record, { repo with
        enums := repo.enums.set newId record, names := repo.names.set (projectId, normalized) newId })

/-- The checks of `update_enum_set`. -/
def prepareUpdate (enumSetId : UUID) (expectedVersion : Nat) (name description : String)
    (options : List ParameterEnumOption) : Except Exn (ParameterEnumSetRecord × ParameterEnumSetRecord) := do
  let (normalized, validated) ← validateEnumValues name options
  let current ← repo.getEnumSet enumSetId
  if current.stateVersion ≠ expectedVersion then
    .error ⟨.other "ParameterEnumVersionConflict", "state version mismatch: expected " ++ toString expectedVersion ++
      ", current " ++ toString current.stateVersion⟩
  if (repo.names.get? (current.projectId, normalized)).any (· ≠ enumSetId) then .error nameTaken
  repo.validateExistingDefaults enumSetId validated
  return (current, current.update normalized description validated)

/-- The writes of `update_enum_set`, in their order. -/
def writeUpdate (enumSetId : UUID) (current updated : ParameterEnumSetRecord) :
    Except Exn ParameterEnumSetRecord × ParameterRepository :=
  if current.name = updated.name then (.ok updated, { repo with enums := repo.enums.set enumSetId updated })
  else if (repo.names.get? current.key).isNone then (.error ⟨.keyError, current.name⟩, repo)
  else (.ok updated, { repo with
    names := (repo.names.erase current.key).set (current.projectId, updated.name) enumSetId
    enums := repo.enums.set enumSetId updated })

def updateEnumSet (enumSetId : UUID) (expectedVersion : Nat) (name description : String)
    (options : List ParameterEnumOption) : Except Exn ParameterEnumSetRecord × ParameterRepository :=
  match repo.prepareUpdate enumSetId expectedVersion name description options with
  | .error e => (.error e, repo)
  | .ok (current, updated) => repo.writeUpdate enumSetId current updated

/-- `delete_enum_set`: the record goes first, then the name. -/
def deleteEnumSet (enumSetId : UUID) : Except Exn Unit × ParameterRepository :=
  match repo.getEnumSet enumSetId with
  | .error e => (.error e, repo)
  | .ok current =>
    if repo.parameters.values.flatten.any (·.enumSetId = some enumSetId) then
      (.error (enumConflict "parameter enum is referenced by a script parameter"), repo)
    else
      let removed := { repo with enums := repo.enums.erase enumSetId }
      if (removed.names.get? current.key).isNone then (.error ⟨.keyError, current.name⟩, removed)
      else (.ok (), { removed with names := removed.names.erase current.key })

/-- `replace_script_parameters`. `project` is the project of the script that `get_script` finds. -/
def replaceScriptParameters (scriptId : UUID) (project : Option UUID) (definitions : List ScriptParameterDefinition) :
    Except Exn (List ScriptParameterDefinition) × ParameterRepository :=
  match validateParameterDefinitions definitions with
  | .error e => (.error e, repo)
  | .ok validated =>
    match project with
    | none => (.error ⟨.other "ScriptNotFound", "automation script " ++ scriptId.text ++ " was not found"⟩, repo)
    | some projectId =>
      match repo.validateParameterEnums projectId validated with
      | .error e => (.error e, repo)
      | .ok _ => (.ok validated, { repo with parameters := repo.parameters.set scriptId validated })

end ParameterRepository

end SmartTest.Parameter
