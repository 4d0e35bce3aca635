import SmartTest.Environment.Crypto
import SmartTest.Lib.Except
import SmartTest.Lib.Index
import SmartTest.Lib.Text

/-!
# Connectors

`ConnectorRepository` of `services/api/connector_repository.py` and `SqlConnectorRepository`
of `services/api/connector_sql_repository.py`. The two check a call in the same order and
make the same record of it; they differ in how they look for the owner of a name.
-/

open SmartTest.Lib SmartTest.Run SmartTest.Environment

namespace SmartTest.Connector

inductive ConnectorKind where
  | mcp | http
  deriving DecidableEq, Repr

inductive ConnectorAuthType where
  | none | bearer | apiKey
  deriving DecidableEq, Repr

structure ConnectorTool where
  name : String
  description : String
  inputSchema : Json

/-- The fields a caller gives in every create and update. -/
structure ConnectorFields where
  name : String
  description : String
  kind : ConnectorKind
  baseUrl : String
  authType : ConnectorAuthType
  authHeader : String
  timeoutSeconds : Int

/-- `ConnectorRecord` without its times. -/
structure ConnectorRecord extends ConnectorFields where
  id : UUID
  enabled : Bool
  stateVersion : Nat
  secretRevision : Nat
  credential : Option EncryptedSecret
  tools : List ConnectorTool
  lastTestSuccess : Option Bool
  lastError : Option String

/-! ## Checks -/

def connectorNotFound (connectorId : UUID) : Exn :=
  ⟨.other "ConnectorNotFound", "connector " ++ connectorId.text ++ " was not found"⟩

def nameConflict : Exn := ⟨.other "ConnectorNameConflict", "a connector with this name already exists"⟩

def credentialRequired (message : String) : Exn := ⟨.other "ConnectorCredentialRequired", message⟩

def validateConnectorName (name : String) : Except Exn String :=
  if strip name = "" ∨ (strip name).length > 255 then
    .error ⟨.valueError, "connector name must contain 1 to 255 characters"⟩
  else .ok (strip name)

def validateCredential (authType : ConnectorAuthType) (credential : Option String) : Except Exn Unit :=
  if authType = .none then .ok ()
  else if credential.getD "" = "" ∨ (credential.getD "").length > 65536 then
    .error (credentialRequired "a non-empty credential is required for this auth type")
  else .ok ()

def checkVersion (record : ConnectorRecord) (expected : Nat) : Except Exn Unit :=
  if record.stateVersion ≠ expected then
    .error ⟨.other "ConnectorVersionConflict", "state version mismatch: expected " ++ toString expected ++
      ", current " ++ toString record.stateVersion⟩
  else .ok ()

/-- The credential and its revision after an update. -/
def nextCredential (encryptor : SecretEncryptor) (random : Randomness) (connectorId : UUID)
    (current : ConnectorRecord) (authType : ConnectorAuthType) (credential : Option String) (credentialProvided : Bool) :
    Except Exn (Option EncryptedSecret × Nat) := do
  if authType = .none then return (none, current.secretRevision + current.credential.isSome.toNat)
  else if credentialProvided then
    validateCredential authType credential
    let revision := current.secretRevision + 1
    let encrypted ← encryptor.encryptConnector random (credential.getD "") connectorId revision
    return (some encrypted, revision)
  else if current.credential.isNone then
    .error (credentialRequired "a credential is required for this auth type")
  else return (current.credential, current.secretRevision)

/-- The first credential of a connector: it is encrypted before its name is looked for. -/
def firstCredential (encryptor : SecretEncryptor) (random : Randomness) (newId : UUID) (fields : ConnectorFields)
    (credential : Option String) : Except Exn (String × Option EncryptedSecret) := do
  let name ← validateConnectorName fields.name
  validateCredential fields.authType credential
  if fields.authType = .none then return (name, none)
  let encrypted ← encryptor.encryptConnector random (credential.getD "") newId 1
  return (name, some encrypted)

/-- `create_connector` up to its writes; `owner` looks for the owner of a name. -/
def prepareCreate (encryptor : SecretEncryptor) (owner : String → Option UUID) (random : Randomness) (newId : UUID)
    (fields : ConnectorFields) (credential : Option String) (enabled : Bool) : Except Exn ConnectorRecord := do
  let (name, encrypted) ← firstCredential encryptor random newId fields credential
  if (owner name).isSome then .error nameConflict
  return {
    toConnectorFields := { fields with name := name }
    id := newId
    enabled := enabled
    stateVersion := 0
    secretRevision := if encrypted.isSome then 1 else 0
    credential := encrypted
    tools := []
    lastTestSuccess := none
    lastError := none }

/-- `update_connector` on the record it finds, up to its writes. -/
def prepareUpdate (encryptor : SecretEncryptor) (owner : String → Option UUID) (random : Randomness)
    (connectorId : UUID) (current : ConnectorRecord) (expectedVersion : Nat) (fields : ConnectorFields) (name : String)
    (credential : Option String) (credentialProvided : Bool) (enabled : Option Bool) :
    Except Exn ConnectorRecord := do
  checkVersion current expectedVersion
  if (owner name).any (· ≠ connectorId) then .error nameConflict
  let (encrypted, revision) ←
    nextCredential encryptor random connectorId current fields.authType credential credentialProvided
  return { current with
    toConnectorFields := { fields with name := name }
    credential := encrypted
    secretRevision := revision
    enabled := enabled.getD current.enabled
    stateVersion := current.stateVersion + 1 }

def setEnabled (current : ConnectorRecord) (enabled : Bool) (expectedVersion : Nat) : Except Exn ConnectorRecord := do
  checkVersion current expectedVersion
  return { current with enabled := enabled, stateVersion := current.stateVersion + 1 }

def recordTest (current : ConnectorRecord) (expectedVersion : Nat) (success : Bool) (tools : List ConnectorTool)
    (error : Option String) : Except Exn ConnectorRecord := do
  checkVersion current expectedVersion
  return { current with
    tools := tools
    lastTestSuccess := some success
    lastError := error
    stateVersion := current.stateVersion + 1 }

inductive ConnectorCall where
  | create (random : Randomness) (newId : UUID) (fields : ConnectorFields) (credential : Option String) (enabled : Bool)
  | update (random : Randomness) (connectorId : UUID) (expectedVersion : Nat) (fields : ConnectorFields)
      (credential : Option String) (credentialProvided : Bool) (enabled : Option Bool)
  | setEnabled (connectorId : UUID) (enabled : Bool) (expectedVersion : Nat)
  | recordTest (connectorId : UUID) (expectedVersion : Nat) (success : Bool) (tools : List ConnectorTool)
      (error : Option String)
  | delete (connectorId : UUID)

/-! ## In memory -/

structure ConnectorRepository where
  records : Dict UUID ConnectorRecord
  names : Dict String UUID

namespace ConnectorRepository

def empty : ConnectorRepository := ⟨.empty, .empty⟩

variable (encryptor : SecretEncryptor) (casefold : String → String) (repo : ConnectorRepository)

def getConnector (connectorId : UUID) : Except Exn ConnectorRecord :=
  match repo.records.get? connectorId with
  | some record => .ok record
  | none => .error (connectorNotFound connectorId)

def nameOwner (name : String) : Option UUID := repo.names.get? (casefold name)

def createConnector (random : Randomness) (newId : UUID) (fields : ConnectorFields) (credential : Option String)
    (enabled : Bool) : Except Exn ConnectorRecord × ConnectorRepository :=
  match prepareCreate encryptor (repo.nameOwner casefold) random newId fields credential enabled with
  | .error e => (.error e, repo)
  | .ok record => (.ok record, {
      records := repo.records.set newId record
      names := repo.names.set (casefold record.name) newId })

/-- The writes of `update_connector`, in their order. -/
def writeUpdate (connectorId : UUID) (current updated : ConnectorRecord) :
    Except Exn ConnectorRecord × ConnectorRepository :=
  if casefold updated.name = casefold current.name then
    (.ok updated, { repo with records := repo.records.set connectorId updated })
  else if (repo.names.get? (casefold current.name)).isNone then (.error ⟨.keyError, casefold current.name⟩, repo)
  else (.ok updated, {
    names := (repo.names.erase (casefold current.name)).set (casefold updated.name) connectorId
    records := repo.records.set connectorId updated })

def updateConnector (random : Randomness) (connectorId : UUID) (expectedVersion : Nat) (fields : ConnectorFields)
    (credential : Option String) (credentialProvided : Bool) (enabled : Option Bool) :
    Except Exn ConnectorRecord × ConnectorRepository :=
  let prepared := do
    let name ← validateConnectorName fields.name
    let current ← repo.getConnector connectorId
    let updated ← prepareUpdate encryptor (repo.nameOwner casefold) random connectorId current expectedVersion fields
      name credential credentialProvided enabled
    return (current, updated)
  match prepared with
  | .error e => (.error e, repo)
  | .ok (current, updated) => repo.writeUpdate casefold connectorId current updated

/-- `set_enabled` and `record_test`: one record is written. -/
def change (connectorId : UUID) (f : ConnectorRecord → Except Exn ConnectorRecord) :
    Except Exn ConnectorRecord × ConnectorRepository :=
  match repo.getConnector connectorId >>= f with
  | .error e => (.error e, repo)
  | .ok updated => (.ok updated, { repo with records := repo.records.set connectorId updated })

/-- `delete_connector`: the record goes first, then the name. -/
def deleteConnector (connectorId : UUID) : Except Exn ConnectorRecord × ConnectorRepository :=
  match repo.getConnector connectorId with
  | .error e => (.error e, repo)
  | .ok current =>
    let removed := { repo with records := repo.records.erase connectorId }
    if (removed.names.get? (casefold current.name)).isNone then
      (.error ⟨.keyError, casefold current.name⟩, removed)
    else (.ok current, { removed with names := removed.names.erase (casefold current.name) })

/-- A call, with the record it made, changed or deleted. -/
def on : ConnectorCall → Except Exn ConnectorRecord × ConnectorRepository
  | .create random newId fields credential enabled =>
    repo.createConnector encryptor casefold random newId fields credential enabled
  | .update random connectorId expectedVersion fields credential credentialProvided enabled =>
    repo.updateConnector encryptor casefold random connectorId expectedVersion fields credential credentialProvided
      enabled
  | .setEnabled connectorId enabled expectedVersion =>
    repo.change connectorId fun current => Connector.setEnabled current enabled expectedVersion
  | .recordTest connectorId expectedVersion success tools error =>
    repo.change connectorId fun current => Connector.recordTest current expectedVersion success tools error
  | .delete connectorId => repo.deleteConnector casefold connectorId

end ConnectorRepository

/-! ## In SQL -/

/-- The rows of `ConnectorModel`. -/
structure SqlConnectorRepository where
  rows : Dict UUID ConnectorRecord

namespace SqlConnectorRepository

def empty : SqlConnectorRepository := ⟨.empty⟩

variable (encryptor : SecretEncryptor) (lower : String → String) (repo : SqlConnectorRepository)

/-- `_locked`. -/
def locked (connectorId : UUID) : Except Exn ConnectorRecord :=
  match repo.rows.get? connectorId with
  | some record => .ok record
  | none => .error (connectorNotFound connectorId)

/-- `_name_owner`: a row whose name is the same in lower case. -/
def nameOwner (name : String) : Option UUID :=
  (repo.rows.entries.find? fun row => lower row.2.name = lower name).map Prod.fst

/-- The check constraints of the table. -/
def constraintsHold (record : ConnectorRecord) : Bool :=
  1 ≤ record.timeoutSeconds && record.timeoutSeconds ≤ 60 &&
    decide (record.authType = .none) == record.credential.isNone

/-- A row is written. The name column is unique, and every `IntegrityError` is read as a taken name. -/
def write (connectorId : UUID) (record : ConnectorRecord) :
    Except Exn ConnectorRecord × SqlConnectorRepository :=
  if repo.rows.entries.any fun row => row.1 ≠ connectorId && row.2.name = record.name then (.error nameConflict, repo)
  else if !constraintsHold record then (.error nameConflict, repo)
  else (.ok record, ⟨repo.rows.set connectorId record⟩)

def createConnector (random : Randomness) (newId : UUID) (fields : ConnectorFields) (credential : Option String)
    (enabled : Bool) : Except Exn ConnectorRecord × SqlConnectorRepository :=
  match prepareCreate encryptor (repo.nameOwner lower) random newId fields credential enabled with
  | .error e => (.error e, repo)
  | .ok record => repo.write newId record

def updateConnector (random : Randomness) (connectorId : UUID) (expectedVersion : Nat) (fields : ConnectorFields)
    (credential : Option String) (credentialProvided : Bool) (enabled : Option Bool) :
    Except Exn ConnectorRecord × SqlConnectorRepository :=
  let prepared := do
    let name ← validateConnectorName fields.name
    let current ← repo.locked connectorId
    prepareUpdate encryptor (repo.nameOwner lower) random connectorId current expectedVersion fields name credential
      credentialProvided enabled
  match prepared with
  | .error e => (.error e, repo)
  | .ok updated => repo.write connectorId updated

def change (connectorId : UUID) (f : ConnectorRecord → Except Exn ConnectorRecord) :
    Except Exn ConnectorRecord × SqlConnectorRepository :=
  match repo.locked connectorId >>= f with
  | .error e => (.error e, repo)
  | .ok updated => (.ok updated, ⟨repo.rows.set connectorId updated⟩)

/-- `delete_connector` counts the rows it has deleted. -/
def deleteConnector (connectorId : UUID) : Except Exn ConnectorRecord × SqlConnectorRepository :=
  match repo.rows.get? connectorId with
  | none => (.error (connectorNotFound connectorId), repo)
  | some current => (.ok current, ⟨repo.rows.erase connectorId⟩)

def on : ConnectorCall → Except Exn ConnectorRecord × SqlConnectorRepository
  | .create random newId fields credential enabled =>
    repo.createConnector encryptor lower random newId fields credential enabled
  | .update random connectorId expectedVersion fields credential credentialProvided enabled =>
    repo.updateConnector encryptor lower random connectorId expectedVersion fields credential credentialProvided enabled
  | .setEnabled connectorId enabled expectedVersion =>
    repo.change connectorId fun current => Connector.setEnabled current enabled expectedVersion
  | .recordTest connectorId expectedVersion success tools error =>
    repo.change connectorId fun current => Connector.recordTest current expectedVersion success tools error
  | .delete connectorId => repo.deleteConnector connectorId

end SqlConnectorRepository

end SmartTest.Connector
