import Mathlib.Data.List.Sort
import SmartTest.Environment.Domain
import SmartTest.Lib.JsonRead

/-!
# Envelope encryption of secrets

`services/api/environment_crypto.py`. A secret is sealed under a key of its own, and that
key under the configured one. Both seals bind associated data that names the slot the
secret is for, and the second seal a suffix as well.
-/

open SmartTest.Lib SmartTest.Run

namespace SmartTest.Environment

def AAD_VERSION : Int := 1

def ALGORITHM : String := "AES-256-GCM"

/-! ## Associated data -/

/-- The objects written here hold no floats. -/
def flatSpelling : Spelling := asciiSpelling fun _ => []

/-- `json.dumps` of a flat object with `sort_keys` and compact separators, encoded. -/
def dumpsSorted (fields : List (String × Json)) : ByteArray :=
  (String.ofList ((Json.obj (fields.insertionSort (·.1 ≤ ·.1))).write flatSpelling)).toByteArray

def canonicalAad (projectId environmentId : UUID) (revision : Int) (category : ConfigurationCategory)
    (name : String) : ByteArray :=
  dumpsSorted [("aad_version", .int AAD_VERSION), ("category", .str category.value),
    ("environment_id", .str environmentId.text), ("name", .str name), ("project_id", .str projectId.text),
    ("revision", .int revision)]

def canonicalConnectorAad (connectorId : UUID) (secretRevision : Int) : ByteArray :=
  dumpsSorted [("aad_version", .int AAD_VERSION), ("connector_id", .str connectorId.text),
    ("purpose", .str "connector-credential"), ("secret_revision", .int secretRevision)]

/-- The associated data of the wrapped key. -/
def dekWrap (aad : ByteArray) : ByteArray := aad ++ "|dek-wrap".toByteArray

/-! ## The encryptor -/

/-- `AESGCM`: a seal, and an opening that fails where the tag does not fit. -/
structure Aead where
  encrypt : (key nonce data aad : ByteArray) → ByteArray
  decrypt : (key nonce sealed aad : ByteArray) → Option ByteArray

/-- What one encryption draws: the data key and two nonces. -/
structure Randomness where
  dek : ByteArray
  nonce : ByteArray
  wrapNonce : ByteArray

/-- `SecretEncryptor`, with its key and key id if they are configured. -/
structure SecretEncryptor where
  aead : Aead
  key : Option (ByteArray × String)

def decryptionError : Exn := ⟨.other "SecretDecryptionError", "secret value is unavailable"⟩

namespace SecretEncryptor

variable (encryptor : SecretEncryptor)

/-- `_require_key`. -/
def requireKey : Except Exn (ByteArray × String) :=
  match encryptor.key with
  | some key => .ok key
  | none => .error ⟨.other "SecretEncryptionUnavailable", "secret encryption is unavailable"⟩

/-- The body of `encrypt` and `encrypt_connector`, which differ in the associated data alone. -/
def encryptUnder (random : Randomness) (value : String) (aad : ByteArray) : Except Exn EncryptedSecret := do
  let (key, keyId) ← encryptor.requireKey
  let sealed := encryptor.aead.encrypt random.dek random.nonce value.toByteArray aad
  let wrapped := encryptor.aead.encrypt key random.wrapNonce random.dek (dekWrap aad)
  return {
    ciphertext := sealed.extract 0 (sealed.size - 16)
    tag := sealed.extract (sealed.size - 16) sealed.size
    nonce := random.nonce
    wrappedDek := wrapped
    wrapNonce := random.wrapNonce
    keyId := keyId
    algorithm := ALGORITHM }

/-- The body of `decrypt` and `decrypt_connector`. -/
def decryptUnder (encrypted : EncryptedSecret) (aad : ByteArray) : Except Exn String := do
  let (key, keyId) ← encryptor.requireKey
  if encrypted.keyId ≠ keyId ∨ encrypted.algorithm ≠ ALGORITHM then .error decryptionError
  let some dek := encryptor.aead.decrypt key encrypted.wrapNonce encrypted.wrappedDek (dekWrap aad)
    | .error decryptionError
  let some plaintext := encryptor.aead.decrypt dek encrypted.nonce (encrypted.ciphertext ++ encrypted.tag) aad
    | .error decryptionError
  let some text := String.fromUTF8? plaintext | .error decryptionError
  return text

def encrypt (random : Randomness) (value : String) (projectId environmentId : UUID) (revision : Int)
    (category : ConfigurationCategory) (name : String) : Except Exn EncryptedSecret :=
  encryptor.encryptUnder random value (canonicalAad projectId environmentId revision category name)

def decrypt (encrypted : EncryptedSecret) (projectId environmentId : UUID) (revision : Int)
    (category : ConfigurationCategory) (name : String) : Except Exn String :=
  encryptor.decryptUnder encrypted (canonicalAad projectId environmentId revision category name)

def encryptConnector (random : Randomness) (value : String) (connectorId : UUID) (secretRevision : Int) :
    Except Exn EncryptedSecret :=
  encryptor.encryptUnder random value (canonicalConnectorAad connectorId secretRevision)

def decryptConnector (encrypted : EncryptedSecret) (connectorId : UUID) (secretRevision : Int) :
    Except Exn String :=
  encryptor.decryptUnder encrypted (canonicalConnectorAad connectorId secretRevision)

end SecretEncryptor

end SmartTest.Environment
