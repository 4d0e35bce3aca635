import SmartTest.Run.Domain

/-!
# Environments

The records of `services/api/environment_domain.py`. Timestamps are left out: nothing
reads them.
-/

open SmartTest.Lib SmartTest.Run

namespace SmartTest.Environment

inductive EnvironmentStatus where
  | draft | active | archived
  deriving DecidableEq, Repr

def EnvironmentStatus.value : EnvironmentStatus → String
  | .draft => "DRAFT"
  | .active => "ACTIVE"
  | .archived => "ARCHIVED"

def ENVIRONMENT_TRANSITIONS : EnvironmentStatus → List EnvironmentStatus
  | .draft => [.active]
  | .active => [.archived]
  | .archived => []

def validateEnvironmentTransition (current target : EnvironmentStatus) : Except Exn Unit := do
  if current = .archived then
    .error ⟨.other "InvalidEnvironmentTransition", "an archived environment cannot be modified"⟩
  if target ≠ current ∧ target ∉ ENVIRONMENT_TRANSITIONS current then
    .error ⟨.other "InvalidEnvironmentTransition",
      "cannot transition environment from " ++ current.value ++ " to " ++ target.value⟩

structure EncryptedSecret where
  ciphertext : ByteArray
  tag : ByteArray
  nonce : ByteArray
  wrappedDek : ByteArray
  wrapNonce : ByteArray
  keyId : String
  algorithm : String

/-- What a caller gives for one name. -/
structure ConfigurationValueInput where
  name : String
  value : Json
  secret : Bool
  secretRef : Option UUID

structure ConfigurationValue where
  category : ConfigurationCategory
  name : String
  secret : Bool
  value : Json
  secretRef : Option UUID
  encrypted : Option EncryptedSecret

structure EnvironmentRecord where
  id : UUID
  projectId : UUID
  name : String
  status : EnvironmentStatus
  revision : Nat
  stateVersion : Nat
  values : List ConfigurationValue

def EnvironmentRecord.update (record : EnvironmentRecord) (name : String) (status : EnvironmentStatus)
    (values : List ConfigurationValue) : Except Exn EnvironmentRecord := do
  validateEnvironmentTransition record.status status
  return { record with
    name := name
    status := status
    revision := record.revision + 1
    stateVersion := record.stateVersion + 1
    values := values }

end SmartTest.Environment
