import Mathlib.Data.Prod.Lex
import Mathlib.Data.String.Basic
import SmartTest.Environment.Crypto

/-!
# The environment repository

`services/api/environment_repository.py`. Each call holds the lock, so it is one step; its
answer comes with the repository as the call leaves it, also when it raises. The ids and
the randomness a call draws are arguments, and `floatRepr` is how Python writes a float.
-/

open SmartTest.Lib SmartTest.Run

namespace SmartTest.Environment

def MAX_VALUES_PER_CATEGORY : Nat := 100

def MAX_VALUE_BYTES : Nat := 65536

def conflict (message : String) : Exn := ⟨.other "EnvironmentConflict", message⟩

def notFound (message : String) : Exn := ⟨.other "EnvironmentNotFound", message⟩

def valueError (message : String) : Exn := ⟨.valueError, message⟩

/-! ## Validation -/

def validateEnvironmentName (name : String) : Except Exn String :=
  let normalized := strip name
  if normalized = "" ∨ normalized.length > 255 then
    .error (valueError "environment name must contain 1 to 255 characters")
  else .ok normalized

/-- `KEY_PATTERN`, which takes `.` and `-` as well. -/
def isKey (name : String) : Bool :=
  match name.toList with
  | [] => false
  | c :: rest => (c.isAlpha || c = '_') &&
      rest.all (fun d => d.isAlphanum || d = '_' || d = '.' || d = '-') && rest.length ≤ 127

/-- `ENV_KEY_PATTERN` is the pattern the protocol has for the names of environment variables. -/
def keyPattern : ConfigurationCategory → String → Bool
  | .environmentVariable => isEnvironmentName
  | .commonParameter => isKey

variable (floatRepr : Rat → List Char)

/-- `len(json.dumps(value, ensure_ascii=False, ...).encode("utf-8"))`. -/
def encodedLength (value : Json) : Nat := utf8Length (value.write (utf8Spelling floatRepr))

/-- The checks on one input, apart from those on its name. -/
def validateInput (category : ConfigurationCategory) (item : ConfigurationValueInput) : Except Exn Unit := do
  if item.secret then
    if item.secretRef = none ∧ ¬ item.value matches .str _ then
      .error (valueError "secret values must be strings")
    if item.secretRef ≠ none ∧ ¬ item.value matches .null then
      .error (valueError "secret value and secret_ref are mutually exclusive")
  else
    if item.secretRef ≠ none then .error (valueError "public values cannot use secret_ref")
    if category = .environmentVariable ∧ ¬ item.value matches .str _ then
      .error (valueError "environment variable values must be strings")
  if encodedLength floatRepr item.value > MAX_VALUE_BYTES then
    .error (valueError ("configuration values cannot exceed " ++ toString MAX_VALUE_BYTES ++ " bytes"))

/-- The loop of `validate_inputs`, with the names it has seen. The key in a message is quoted as `repr`
quotes it when there is nothing to escape. -/
def validateFrom (category : ConfigurationCategory) : (names : List String) →
    List ConfigurationValueInput → Except Exn Unit
  | _, [] => .ok ()
  | names, item :: rest => do
    if keyPattern category item.name = false then
      .error (valueError ("invalid configuration key: '" ++ item.name ++ "'"))
    if item.name ∈ names then .error (valueError ("duplicate configuration key: " ++ item.name))
    validateInput floatRepr category item
    validateFrom category (item.name :: names) rest

def validateInputs (category : ConfigurationCategory) (values : List ConfigurationValueInput) :
    Except Exn Unit := do
  if values.length > MAX_VALUES_PER_CATEGORY then
    .error (valueError ("at most " ++ toString MAX_VALUES_PER_CATEGORY ++ " values are allowed per category"))
  validateFrom floatRepr category [] values

/-! ## Building a revision -/

/-- What `build_configuration_values` draws for the secret at each place of a category. -/
structure Draws where
  random : ConfigurationCategory → Nat → Randomness
  secretRef : ConfigurationCategory → Nat → UUID

/-- The secret of the revision before that an input carries over. -/
def carriedSource (previous : EnvironmentRecord) (category : ConfigurationCategory) (name : String) (ref : UUID) :
    Option ConfigurationValue :=
  previous.values.find? fun value =>
    value.category = category && value.name = name && value.secretRef = some ref && value.secret

variable (encryptor : SecretEncryptor)

/-- The text of a secret: given, or opened under the revision before. -/
def plaintextOf (previous : Option EnvironmentRecord) (category : ConfigurationCategory)
    (item : ConfigurationValueInput) : Except Exn String :=
  match item.secretRef with
  | none =>
    match item.value with
    | .str text => .ok text
    | _ => .error ⟨.other "AttributeError", "value has no attribute 'encode'"⟩
  | some ref => do
    let some previous := previous | .error (conflict "secret_ref cannot be used during creation")
    let mismatch := conflict "secret reference does not match the current revision"
    let some source := carriedSource previous category item.name ref | .error mismatch
    let some encrypted := source.encrypted | .error mismatch
    encryptor.decrypt encrypted previous.projectId previous.id previous.revision source.category source.name

variable (draws : Draws) (projectId environmentId : UUID) (revision : Nat) (previous : Option EnvironmentRecord)

def buildValue (category : ConfigurationCategory) (index : Nat) (item : ConfigurationValueInput) :
    Except Exn ConfigurationValue :=
  if !item.secret then .ok ⟨category, item.name, false, item.value, none, none⟩
  else do
    let plaintext ← plaintextOf encryptor previous category item
    let encrypted ← encryptor.encrypt (draws.random category index) plaintext projectId environmentId revision
      category item.name
    return ⟨category, item.name, true, .null, some (draws.secretRef category index), some encrypted⟩

def buildFrom (category : ConfigurationCategory) :
    (index : Nat) → List ConfigurationValueInput → Except Exn (List ConfigurationValue)
  | _, [] => .ok []
  | index, item :: rest => do
    let value ← buildValue encryptor draws projectId environmentId revision previous category index item
    let values ← buildFrom category (index + 1) rest
    return value :: values

def buildConfigurationValues (environmentVariables commonParameters : List ConfigurationValueInput) :
    Except Exn (List ConfigurationValue) := do
  validateInputs floatRepr .environmentVariable environmentVariables
  let variableValues ←
    buildFrom encryptor draws projectId environmentId revision previous .environmentVariable 0 environmentVariables
  validateInputs floatRepr .commonParameter commonParameters
  let parameterValues ←
    buildFrom encryptor draws projectId environmentId revision previous .commonParameter 0 commonParameters
  return variableValues ++ parameterValues

/-! ## The repository -/

structure EnvironmentRepository where
  environments : Dict UUID EnvironmentRecord
  revisions : Dict UUID (List EnvironmentRecord)
  names : Dict (UUID × String) UUID

/-- An answer, and the repository after the call. -/
abbrev Answered (α : Type) := Except Exn α × EnvironmentRepository

namespace EnvironmentRepository

def empty : EnvironmentRepository := ⟨.empty, .empty, .empty⟩

def duplicateName : Exn := conflict "an environment with this project and name exists"

variable (repo : EnvironmentRepository)

/-- The part of `create_environment` that may refuse the call. -/
def prepareCreate (name : String) (environmentVariables commonParameters : List ConfigurationValueInput) :
    Except Exn EnvironmentRecord := do
  let normalizedName ← validateEnvironmentName name
  if (repo.names.get? (projectId, normalizedName)).isSome then .error duplicateName
  let values ← buildConfigurationValues floatRepr encryptor draws projectId environmentId 1 none
    environmentVariables commonParameters
  return ⟨environmentId, projectId, normalizedName, .draft, 1, 0, values⟩

def createEnvironment (name : String) (environmentVariables commonParameters : List ConfigurationValueInput) :
    Answered EnvironmentRecord :=
  match repo.prepareCreate floatRepr encryptor draws projectId environmentId name environmentVariables
      commonParameters with
  | .error e => (.error e, repo)
  | .ok record => (.ok record, {
      environments := repo.environments.set environmentId record
      revisions := repo.revisions.set environmentId [record]
      names := repo.names.set (projectId, record.name) environmentId })

def getEnvironment : Except Exn EnvironmentRecord :=
  match repo.environments.get? environmentId with
  | some record => .ok record
  | none => .error (notFound ("environment " ++ environmentId.text ++ " was not found"))

/-- The part of `update_environment` that may refuse the call: the record as it is and as it will be. -/
def prepareUpdate (expectedVersion : Nat) (name : String) (status : EnvironmentStatus)
    (environmentVariables commonParameters : List ConfigurationValueInput) :
    Except Exn (EnvironmentRecord × EnvironmentRecord) := do
  let normalizedName ← validateEnvironmentName name
  let current ← repo.getEnvironment environmentId
  if current.stateVersion ≠ expectedVersion then
    .error ⟨.other "EnvironmentVersionConflict", "state version mismatch: expected "
      ++ toString expectedVersion ++ ", current " ++ toString current.stateVersion⟩
  validateEnvironmentTransition current.status status
  if (repo.names.get? (current.projectId, normalizedName)).any (· ≠ environmentId) then .error duplicateName
  let values ← buildConfigurationValues floatRepr encryptor draws current.projectId current.id
    (current.revision + 1) (some current) environmentVariables commonParameters
  let updated ← current.update normalizedName status values
  return (current, updated)

/-- The writes of `update_environment`, in their order. -/
def writeUpdate (current updated : EnvironmentRecord) : Answered EnvironmentRecord :=
  let renamed : Except Exn (Dict (UUID × String) UUID) :=
    if updated.name = current.name then .ok repo.names
    else if (repo.names.get? (current.projectId, current.name)).isNone then .error ⟨.keyError, current.name⟩
    else .ok ((repo.names.erase (current.projectId, current.name)).set (current.projectId, updated.name)
      environmentId)
  match renamed with
  | .error e => (.error e, repo)
  | .ok names =>
    let repo := { repo with names := names, environments := repo.environments.set environmentId updated }
    match repo.revisions.get? environmentId with
    | none => (.error ⟨.keyError, environmentId.text⟩, repo)
    | some revisions =>
      (.ok updated, { repo with revisions := repo.revisions.set environmentId (revisions ++ [updated]) })

def updateEnvironment (expectedVersion : Nat) (name : String) (status : EnvironmentStatus)
    (environmentVariables commonParameters : List ConfigurationValueInput) : Answered EnvironmentRecord :=
  match repo.prepareUpdate floatRepr encryptor draws environmentId expectedVersion name status
      environmentVariables commonParameters with
  | .error e => (.error e, repo)
  | .ok (current, updated) => repo.writeUpdate environmentId current updated

def getRevision : Except Exn EnvironmentRecord := do
  let _ ← repo.getEnvironment environmentId
  let some revisions := repo.revisions.get? environmentId | .error ⟨.keyError, environmentId.text⟩
  if revision < 1 ∨ revision > revisions.length then
    .error (notFound ("environment " ++ environmentId.text ++ " revision " ++ toString revision
      ++ " was not found"))
  let some record := revisions[revision - 1]? | .error ⟨.other "IndexError", "list index out of range"⟩
  return record

end EnvironmentRepository

/-! ## Resolving secrets -/

structure ResolvedSecretValue where
  category : ConfigurationCategory
  name : String
  secretRef : UUID
  value : String
  deriving DecidableEq, Repr

def ResolvedSecretValue.reference (resolved : ResolvedSecretValue) : SecretReference :=
  ⟨resolved.category, resolved.name, resolved.secretRef⟩

/-- The key `canonical_secret_references` sorts by. -/
def sortKey (reference : SecretReference) : String ×ₗ String ×ₗ String :=
  toLex (reference.category.value, toLex (reference.name, reference.secretRef.text))

def canonicalSecretReferences (references : List SecretReference) : Except Exn (List SecretReference) :=
  if ¬ references.Nodup then .error (conflict "secret references must be unique")
  else .ok (references.insertionSort fun a b => sortKey a ≤ sortKey b)

/-- Whether a stored value is the secret a reference names. -/
def ConfigurationValue.answers (value : ConfigurationValue) (reference : SecretReference) : Bool :=
  value.secret && value.encrypted.isSome && value.category = reference.category &&
    value.name = reference.name && value.secretRef = some reference.secretRef

def referenceMismatch : Exn := conflict "secret reference does not match the pinned revision"

variable (repo : EnvironmentRepository) (references : List SecretReference)

/-- `_validated_record`. -/
def validatedRecord : Except Exn (EnvironmentRecord × List SecretReference) := do
  let record ← repo.getRevision environmentId revision
  if record.projectId ≠ projectId then
    .error (notFound ("environment " ++ environmentId.text ++ " was not found"))
  if record.status ≠ .active then .error (conflict "only an active environment revision can be resolved")
  let canonical ← canonicalSecretReferences references
  return (record, canonical)

def validateSecretReferences : Except Exn (List SecretReference) := do
  let (record, canonical) ← validatedRecord projectId environmentId revision repo references
  if ¬ canonical.all (fun reference => record.values.any (·.answers reference)) ∨ ¬ canonical.Nodup then
    .error referenceMismatch
  return canonical

/-- The secret of one reference; of several values with one key the dictionary has the last. -/
def resolveReference (record : EnvironmentRecord) (reference : SecretReference) :
    Except Exn ResolvedSecretValue := do
  let some value := (record.values.filter (·.answers reference)).getLast? | .error referenceMismatch
  let some encrypted := value.encrypted | .error referenceMismatch
  let text ← encryptor.decrypt encrypted record.projectId record.id record.revision value.category value.name
  return ⟨value.category, value.name, reference.secretRef, text⟩

def resolveSecretValues : Except Exn (List ResolvedSecretValue) := do
  let (record, canonical) ← validatedRecord projectId environmentId revision repo references
  if canonical.any (fun reference => !record.values.any (·.answers reference)) then .error referenceMismatch
  canonical.mapM (resolveReference encryptor record)

end SmartTest.Environment
