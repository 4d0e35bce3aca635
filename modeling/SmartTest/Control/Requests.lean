import SmartTest.Lib.JsonRead
import SmartTest.Lib.JsonSize
import SmartTest.Run.Protocol

/-!
# Restart requests

The request file as `ServiceControlService` of `services/api/service_control_service.py` writes
it and `parse_control_request` of `scripts/platform_supervisor.py` reads it, and the heartbeat
in the other direction.
-/

open SmartTest.Lib SmartTest.Run

namespace SmartTest.Control

def SCHEMA_VERSION : Int := 1

def MAX_CONTROL_FILE_BYTES : Nat := 4096

def HEARTBEAT_MAX_AGE_SECONDS : Int := 5

def RESTART_DELAY_SECONDS : Int := 2

/-! ## Texts of the standard library -/

/-- What `datetime.fromisoformat` makes of a text: the time it shows, and the offset from UTC if it has one. -/
structure IsoTime where
  shown : Instant
  offset : Option Int

/-- Python's texts of floats, UUIDs and times in UTC. -/
structure Codec where
  floatText : Rat → List Char
  readFloat : List Char → Option Rat
  readUuid : String → Option UUID
  /-- The instants a `datetime` in UTC can be. -/
  inCalendar : Instant → Bool
  isoformat : Instant → String
  fromisoformat : String → Option IsoTime

/-- `str.replace("Z", "+00:00")`. -/
def replaceZ (text : String) : String :=
  .ofList (text.toList.flatMap fun c => if c = 'Z' then ['+', '0', '0', ':', '0', '0'] else [c])

/-- What is written is read back. -/
structure Codec.Faithful (codec : Codec) : Prop where
  uuid : ∀ id : UUID, id.Spelled → codec.readUuid id.text = some id
  time : ∀ t, codec.inCalendar t = true → codec.fromisoformat (replaceZ (codec.isoformat t)) = some ⟨t, some 0⟩

/-! ## Requests -/

inductive Service where
  | frontend | backend
  deriving DecidableEq, Repr

inductive ServiceTarget where
  | frontend | backend | all
  deriving DecidableEq, Repr

namespace ServiceTarget

def value : ServiceTarget → String
  | .frontend => "frontend"
  | .backend => "backend"
  | .all => "all"

/-- `ServiceTarget(target)`, and the check against `TARGETS`. -/
def ofValue (text : String) : Option ServiceTarget :=
  if text = "frontend" then some .frontend
  else if text = "backend" then some .backend
  else if text = "all" then some .all
  else none

/-- The services `_restart` goes through, in its order. -/
def services : ServiceTarget → List Service
  | .frontend => [.frontend]
  | .backend => [.backend]
  | .all => [.frontend, .backend]

theorem ofValue_value (target : ServiceTarget) : ofValue target.value = some target := by
  cases target <;> rfl

end ServiceTarget

/-- `RestartRequest` and `ControlRequest`; the version is always 1. -/
structure ControlRequest where
  target : ServiceTarget
  requestId : UUID
  requestedAt : Instant
  notBefore : Instant
  deriving DecidableEq

section Files

variable (codec : Codec)

/-- The payload of `_write_request_unlocked`. -/
def ControlRequest.payload (request : ControlRequest) : Json :=
  .obj [("schema_version", .int SCHEMA_VERSION), ("target", .str request.target.value),
    ("request_id", .str request.requestId.text), ("requested_at", .str (codec.isoformat request.requestedAt)),
    ("not_before", .str (codec.isoformat request.notBefore))]

def ControlRequest.encoded (request : ControlRequest) : List Char :=
  (request.payload codec).write (asciiSpelling codec.floatText)

/-- `_read_json` and `_read_json_object`. -/
def readObject (file : Option (List Char)) : Option (List (String × Json)) := do
  let raw ← file
  if utf8Length raw > MAX_CONTROL_FILE_BYTES then none
  match readJson codec.readFloat raw with
  | some (.obj fields) => some fields
  | _ => none

/-- `_parse_timestamp`. -/
def parseTimestamp : Json → Option Instant
  | .str text => do
    let parsed ← codec.fromisoformat (replaceZ text)
    let offset ← parsed.offset
    return parsed.shown - offset
  | _ => none

/-- `set(payload) == keys`. -/
def hasExactly (keys : List String) (fields : List (String × Json)) : Bool :=
  keys.all (fun key => key ∈ fields.map Prod.fst) && (fields.map Prod.fst).all (· ∈ keys)

/-- An integer, and no boolean, that is the version. -/
def isSchemaVersion : Option Json → Bool
  | some (.int n) => n = SCHEMA_VERSION
  | _ => false

def parseControlRequest (file : Option (List Char)) : Option ControlRequest := do
  let payload ← readObject codec file
  if !hasExactly ["schema_version", "target", "request_id", "requested_at", "not_before"] payload then none
  if !isSchemaVersion (payload.lookup "schema_version") then none
  let some (.str targetText) := payload.lookup "target" | none
  let target ← ServiceTarget.ofValue targetText
  let some (.str requestIdText) := payload.lookup "request_id" | none
  let requestId ← codec.readUuid requestIdText
  if requestId.text ≠ requestIdText then none
  let requestedAt ← (payload.lookup "requested_at").bind (parseTimestamp codec)
  let notBefore ← (payload.lookup "not_before").bind (parseTimestamp codec)
  if notBefore - requestedAt ≠ RESTART_DELAY_SECONDS * 1000000 then none
  return ⟨target, requestId, requestedAt, notBefore⟩

/-- `_write_heartbeat`. -/
def heartbeatText (now : Instant) : List Char :=
  Json.write (asciiSpelling codec.floatText)
    (.obj [("schema_version", .int SCHEMA_VERSION), ("heartbeat_at", .str (codec.isoformat now))])

/-- `_supervisor_online_unlocked`. -/
def supervisorOnline (heartbeat : Option (List Char)) (now : Instant) : Bool :=
  match readObject codec heartbeat with
  | none => false
  | some payload =>
    hasExactly ["schema_version", "heartbeat_at"] payload &&
      isSchemaVersion (payload.lookup "schema_version") &&
      ((payload.lookup "heartbeat_at").bind (parseTimestamp codec)).any fun heartbeatAt =>
        0 ≤ now - heartbeatAt && now - heartbeatAt ≤ HEARTBEAT_MAX_AGE_SECONDS * 1000000

/-! ## The round trip -/

variable {codec}

theorem parseTimestamp_isoformat (hcodec : codec.Faithful) {t : Instant} (ht : codec.inCalendar t = true) :
    parseTimestamp codec (.str (codec.isoformat t)) = some t := by
  simp [parseTimestamp, hcodec.time t ht]

theorem readJson_encoded (request : ControlRequest) :
    readJson codec.readFloat (request.encoded codec) = some (request.payload codec) := by
  apply readJson_write (asciiSpelling_faithful _ _)
  simp [ControlRequest.payload, Json.WellFormed, Json.WellFormedFields]

/-- The supervisor reads the request that was written. -/
theorem parseControlRequest_encoded (hcodec : codec.Faithful) {request : ControlRequest}
    (hid : request.requestId.Spelled) (hat : codec.inCalendar request.requestedAt = true)
    (hbefore : codec.inCalendar request.notBefore = true)
    (hsize : utf8Length (request.encoded codec) ≤ MAX_CONTROL_FILE_BYTES)
    (hdelay : request.notBefore = request.requestedAt.addSeconds RESTART_DELAY_SECONDS) :
    parseControlRequest codec (some (request.encoded codec)) = some request := by
  have hread : readObject codec (some (request.encoded codec)) =
      some [("schema_version", .int SCHEMA_VERSION), ("target", .str request.target.value),
        ("request_id", .str request.requestId.text), ("requested_at", .str (codec.isoformat request.requestedAt)),
        ("not_before", .str (codec.isoformat request.notBefore))] := by
    simp [readObject, Nat.not_lt.mpr hsize, readJson_encoded, ControlRequest.payload]
  have hwait : request.notBefore - request.requestedAt = RESTART_DELAY_SECONDS * 1000000 := by
    simp [hdelay, Instant.addSeconds]
  simp [parseControlRequest, hread, hasExactly, List.lookup_cons, isSchemaVersion, ServiceTarget.ofValue_value,
    hcodec.uuid _ hid, parseTimestamp_isoformat hcodec hat, parseTimestamp_isoformat hcodec hbefore, hwait]

end Files

end SmartTest.Control
