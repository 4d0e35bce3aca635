import SmartTest.Control.Requests
import SmartTest.Lib.DateTime
import SmartTest.Lib.Except

/-!
# The restart request on disk

What `ServiceControlService.request_restart` writes and `parse_control_request` reads, down to
the texts of times and ids.
-/

open SmartTest.Lib

namespace SmartTest.Control.RequestFile

/-! ## Ids -/

/-- A UUID by its 128 bits. -/
structure RequestId where
  value : Nat
  lt : value < 16 ^ 32
  deriving DecidableEq

/-- `str(id)`. -/
def RequestId.text (id : RequestId) : List Char := uuidText id.value

/-! ## The library -/

/-- What Python makes of texts that the service never writes: floats, and other spellings of ids and times. -/
structure Library where
  floatText : Rat → List Char
  readFloat : List Char → Option Rat
  otherUuid : List Char → Option RequestId
  otherTime : List Char → Option (DateTime × Option Int)

variable (lib : Library)

/-- `UUID(text)`: dashes do not count, and 32 digits are left. -/
def readUuid (text : List Char) : Option RequestId :=
  let digits := text.filter (· ≠ '-')
  match readHex 0 digits with
  | some value => if h : digits.length = 32 ∧ value < 16 ^ 32 then some ⟨value, h.2⟩ else lib.otherUuid text
  | none => lib.otherUuid text

/-- `datetime.fromisoformat(text)`: the time it shows, and the offset from UTC if it has one. -/
def fromisoformat (text : List Char) : Option (DateTime × Option Int) :=
  match DateTime.readIso text with
  | some time => some (time, some 0)
  | none => lib.otherTime text

/-! ## Writing -/

/-- An aware `datetime`: what it shows, and its offset from UTC in microseconds. -/
structure AwareTime where
  shown : DateTime
  offset : Int
  offset_lt : -86400000000 < offset ∧ offset < 86400000000

inductive Failure where
  | unavailable | overflow

/-- `time + timedelta(microseconds=delta)`. -/
def plus (time : DateTime) (delta : Int) : Except Failure DateTime :=
  match time.add delta with
  | some sum => .ok sum
  | none => .error .overflow

/-- `astimezone(timezone.utc)`: an offset that leads out of the calendar raises. -/
def inUtc (shown : DateTime) (offset : Int) : Except Failure DateTime :=
  plus shown (-offset)

structure RestartRequest where
  target : ServiceTarget
  requestId : RequestId
  requestedAt : DateTime
  notBefore : DateTime
  deriving DecidableEq

def RestartRequest.payload (request : RestartRequest) : List (String × Json) :=
  [("schema_version", .int SCHEMA_VERSION), ("target", .str request.target.value),
    ("request_id", .str (.ofList request.requestId.text)), ("requested_at", .str (.ofList request.requestedAt.isoformat)),
    ("not_before", .str (.ofList request.notBefore.isoformat))]

def RestartRequest.encoded (request : RestartRequest) : List Char :=
  (Json.obj request.payload).write (asciiSpelling lib.floatText)

/-- `request_restart`, with the file it leaves. `online` is what it finds of the supervisor, and `writable`
whether the file system lets it write. -/
def requestRestart (online writable : Bool) (clock : AwareTime) (target : ServiceTarget) (id : RequestId) :
    Except Failure (RestartRequest × List Char) :=
  if !online then .error .unavailable
  else do
    let now ← inUtc clock.shown clock.offset
    let notBefore ← plus now (RESTART_DELAY_SECONDS * 1000000)
    let request : RestartRequest := ⟨target, id, now, notBefore⟩
    if utf8Length (request.encoded lib) > MAX_CONTROL_FILE_BYTES || !writable then .error .unavailable
    else .ok (request, request.encoded lib)

/-! ## Reading -/

/-- `_read_json`. -/
def readPayload (file : Option (List Char)) : Option (List (String × Json)) := do
  let raw ← file
  if utf8Length raw > MAX_CONTROL_FILE_BYTES then none
  match readJson lib.readFloat raw with
  | some (.obj fields) => some fields
  | _ => none

/-- `_parse_timestamp`. -/
def parseTimestamp : Option Json → Except Failure (Option DateTime)
  | some (.str text) =>
    match fromisoformat lib (text.toList.flatMap fun c => if c = 'Z' then ['+', '0', '0', ':', '0', '0'] else [c]) with
    | some (shown, some offset) => (inUtc shown offset).map some
    | _ => .ok none
  | _ => .ok none

def parseControlRequest (file : Option (List Char)) : Except Failure (Option RestartRequest) :=
  match readPayload lib file with
  | none => .ok none
  | some payload =>
    if !hasExactly ["schema_version", "target", "request_id", "requested_at", "not_before"] payload then .ok none
    else if !isSchemaVersion (payload.lookup "schema_version") then .ok none
    else match payload.lookup "target", payload.lookup "request_id" with
      | some (.str targetText), some (.str requestIdText) =>
        match ServiceTarget.ofValue targetText, readUuid lib requestIdText.toList with
        | some target, some requestId =>
          if requestId.text ≠ requestIdText.toList then .ok none
          else do
            let requestedAt ← parseTimestamp lib (payload.lookup "requested_at")
            let notBefore ← parseTimestamp lib (payload.lookup "not_before")
            match requestedAt, notBefore with
            | some requestedAt, some notBefore =>
              if (notBefore.micros : Int) - requestedAt.micros ≠ RESTART_DELAY_SECONDS * 1000000 then .ok none
              else .ok (some ⟨target, requestId, requestedAt, notBefore⟩)
            | _, _ => .ok none
        | _, _ => .ok none
      | _, _ => .ok none

/-! ## Ids are read back -/

theorem readUuid_text (id : RequestId) : readUuid lib id.text = some id := by
  have hvalue := readHex_uuidText id.lt
  unfold readUuid RequestId.text
  simp only [hvalue]
  rw [dif_pos ⟨length_filter_uuidText id.value, id.lt⟩]

/-! ## Times are read back -/

theorem isoformat_plain {time : DateTime} {c : Char} (h : c ∈ time.isoformat) :
    c ≠ 'Z' ∧ 0x23 ≤ c.toNat ∧ c.toNat < 0x7f ∧ c.toNat ≠ 0x5c := by
  rcases DateTime.mem_isoformat h with ⟨d, hd, rfl⟩ | hc
  · have hdigits : ∀ d < 10, d.digitChar ≠ 'Z' ∧ 0x23 ≤ d.digitChar.toNat ∧ d.digitChar.toNat < 0x7f ∧
        d.digitChar.toNat ≠ 0x5c := by decide
    exact hdigits d hd
  · exact forall_mem_of_all (p := fun c => c ≠ 'Z' ∧ 0x23 ≤ c.toNat ∧ c.toNat < 0x7f ∧ c.toNat ≠ 0x5c) (by decide) c hc

theorem replaceZ_isoformat (time : DateTime) :
    (time.isoformat.flatMap fun c => if c = 'Z' then ['+', '0', '0', ':', '0', '0'] else [c]) = time.isoformat := by
  have hchars : ∀ c ∈ time.isoformat, (if c = 'Z' then ['+', '0', '0', ':', '0', '0'] else [c]) = [c] :=
    fun c hc => if_neg (isoformat_plain hc).1
  rw [List.flatMap_congr hchars]
  exact List.flatMap_singleton' _

theorem fromisoformat_isoformat (time : DateTime) : fromisoformat lib time.isoformat = some (time, some 0) := by
  rw [fromisoformat, DateTime.readIso_isoformat]

theorem plus_ok_iff {time sum : DateTime} {delta : Int} :
    plus time delta = .ok sum ↔ (sum.micros : Int) = time.micros + delta := by
  rw [← DateTime.add_eq_some, plus]
  cases time.add delta with
  | none => simp
  | some sum' => simp

theorem parseTimestamp_isoformat (time : DateTime) :
    parseTimestamp lib (some (.str (.ofList time.isoformat))) = .ok (some time) := by
  have hutc : inUtc time 0 = .ok time := plus_ok_iff.mpr (by simp)
  rw [parseTimestamp, String.toList_ofList, replaceZ_isoformat, fromisoformat_isoformat]
  dsimp only
  rw [hutc]
  rfl

/-! ## The file -/

variable {lib}

theorem plainChar_ascii {c : Char} (hlow : 0x23 ≤ c.toNat) (hhigh : c.toNat < 0x7f) (hslash : c.toNat ≠ 0x5c) :
    PlainChar (asciiSpelling lib.floatText) c := by
  refine plainChar_of_raw ?_ hlow (by omega) hslash
  simp only [asciiSpelling, Bool.and_eq_true, decide_eq_true_eq]
  omega

theorem bytes_str_ascii {text : List Char} (h : ∀ c ∈ text, 0x23 ≤ c.toNat ∧ c.toNat < 0x7f ∧ c.toNat ≠ 0x5c) :
    (Json.str (.ofList text)).bytes (asciiSpelling lib.floatText) = text.length + 2 := by
  rw [bytes_str_plain, String.length_ofList]
  intro c hc
  rw [String.toList_ofList] at hc
  exact plainChar_ascii (h c hc).1 (h c hc).2.1 (h c hc).2.2

theorem digitChar_plain : ∀ n < 16, 0x23 ≤ n.digitChar.toNat ∧ n.digitChar.toNat < 0x7f ∧
    n.digitChar.toNat ≠ 0x5c := by decide

theorem bytes_id (id : RequestId) : (Json.str (.ofList id.text)).bytes (asciiSpelling lib.floatText) = 38 := by
  have hlength : id.text.length = 36 := length_uuidText id.value
  rw [bytes_str_ascii, hlength]
  intro c hc
  rcases mem_uuidText hc with rfl | ⟨d, hd, rfl⟩
  · decide
  · exact digitChar_plain d hd

theorem bytes_time (time : DateTime) : (Json.str (.ofList time.isoformat)).bytes (asciiSpelling lib.floatText) ≤ 34 := by
  rw [bytes_str_ascii fun c hc => (isoformat_plain hc).2]
  have hlength := time.length_isoformat
  omega

theorem payload_keys (request : RestartRequest) : request.payload.map Prod.fst =
    ["schema_version", "target", "request_id", "requested_at", "not_before"] := rfl

/-- A request is never too large. -/
theorem utf8Length_encoded (request : RestartRequest) : utf8Length (request.encoded lib) ≤ MAX_CONTROL_FILE_BYTES := by
  have hplain : ∀ text ∈ ["schema_version", "target", "request_id", "requested_at", "not_before", "frontend", "backend", "all"],
      ∀ c ∈ text.toList, 0x23 ≤ c.toNat ∧ c.toNat < 0x7f ∧ c.toNat ≠ 0x5c := by
    simp only [List.forall_mem_cons]
    exact ⟨forall_mem_of_all (by decide), forall_mem_of_all (by decide), forall_mem_of_all (by decide),
      forall_mem_of_all (by decide), forall_mem_of_all (by decide), forall_mem_of_all (by decide),
      forall_mem_of_all (by decide), forall_mem_of_all (by decide), by simp⟩
  have hkeys : ∀ key ∈ request.payload.map Prod.fst, ∀ c ∈ key.toList, PlainChar (asciiSpelling lib.floatText) c := by
    intro key hkey c hc
    rw [payload_keys] at hkey
    obtain ⟨hlow, hhigh, hslash⟩ := hplain key (List.mem_append_left ["frontend", "backend", "all"] hkey) c hc
    exact plainChar_ascii hlow hhigh hslash
  have hversion : (Json.int SCHEMA_VERSION).bytes (asciiSpelling lib.floatText) = 1 := by rfl
  have htarget : (Json.str request.target.value).bytes (asciiSpelling lib.floatText) ≤ 10 := by
    have htext := hplain request.target.value (by cases request.target <;> simp [ServiceTarget.value])
    have hlength : request.target.value.length ≤ 8 := by cases request.target <;> decide
    have hbytes := @bytes_str_ascii lib _ htext
    rw [String.ofList_toList, String.length_toList] at hbytes
    omega
  have hid := @bytes_id lib request.requestId
  have hrequested := @bytes_time lib request.requestedAt
  have hbefore := @bytes_time lib request.notBefore
  have htotal := @bytes_obj_plain (asciiSpelling lib.floatText) request.payload (by simp [RestartRequest.payload]) hkeys
  have hnames : ((request.payload.map Prod.fst).map fun key => key.length + 4).sum = 72 := by
    rw [payload_keys]
    decide
  have hvalues : (request.payload.map fun e => e.2.bytes (asciiSpelling lib.floatText)).sum ≤ 117 := by
    simp only [RestartRequest.payload, List.map_cons, List.map_nil, List.sum_cons, List.sum_nil, hversion, hid]
    omega
  have hbytes : utf8Length (request.encoded lib) = (Json.obj request.payload).bytes (asciiSpelling lib.floatText) := rfl
  rw [hbytes, htotal, hnames]
  unfold MAX_CONTROL_FILE_BYTES
  omega

theorem readPayload_encoded (request : RestartRequest) :
    readPayload lib (some (request.encoded lib)) = some request.payload := by
  have hread : readJson lib.readFloat (request.encoded lib) = some (.obj request.payload) := by
    apply readJson_write (asciiSpelling_faithful _ _)
    simp [RestartRequest.payload, Json.WellFormed, Json.WellFormedFields]
  simp [readPayload, Nat.not_lt.mpr (utf8Length_encoded request), hread]

/-- The supervisor reads the request that was written. -/
theorem parseControlRequest_encoded {request : RestartRequest}
    (hdelay : plus request.requestedAt (RESTART_DELAY_SECONDS * 1000000) = .ok request.notBefore) :
    parseControlRequest lib (some (request.encoded lib)) = .ok (some request) := by
  have hwait : (request.notBefore.micros : Int) - request.requestedAt.micros = RESTART_DELAY_SECONDS * 1000000 := by
    rw [plus_ok_iff.mp hdelay]
    omega
  unfold parseControlRequest
  rw [readPayload_encoded]
  simp [RestartRequest.payload, hasExactly, List.lookup_cons, isSchemaVersion, ServiceTarget.ofValue_value, readUuid_text,
    parseTimestamp_isoformat, hwait, bind, Except.bind]

theorem requestRestart_ok {online writable : Bool} {clock : AwareTime} {target : ServiceTarget} {id : RequestId}
    {request : RestartRequest} {file : List Char}
    (h : requestRestart lib online writable clock target id = .ok (request, file)) :
    request.target = target ∧ request.requestId = id ∧ inUtc clock.shown clock.offset = .ok request.requestedAt ∧
      plus request.requestedAt (RESTART_DELAY_SECONDS * 1000000) = .ok request.notBefore ∧ file = request.encoded lib := by
  unfold requestRestart at h
  split at h
  · cases h
  · obtain ⟨now, hnow, h⟩ := (bind_eq_ok_iff _ _ _).mp h
    obtain ⟨notBefore, hbefore, h⟩ := (bind_eq_ok_iff _ _ _).mp h
    dsimp only at h
    split at h
    · cases h
    · cases h
      exact ⟨rfl, rfl, hnow, hbefore, rfl⟩

theorem requestRestart_written {clock : AwareTime} {now notBefore : DateTime}
    (hnow : inUtc clock.shown clock.offset = .ok now) (hbefore : plus now (RESTART_DELAY_SECONDS * 1000000) = .ok notBefore)
    (target : ServiceTarget) (id : RequestId) : requestRestart lib true true clock target id =
      .ok (⟨target, id, now, notBefore⟩, RestartRequest.encoded lib ⟨target, id, now, notBefore⟩) := by
  have hsize := @utf8Length_encoded lib ⟨target, id, now, notBefore⟩
  unfold requestRestart
  rw [hnow, ok_bind, hbefore, ok_bind]
  simp [Nat.not_lt.mpr hsize]

theorem delay_of_parsed {file : Option (List Char)} {request : RestartRequest}
    (h : parseControlRequest lib file = .ok (some request)) :
    (request.notBefore.micros : Int) - request.requestedAt.micros = RESTART_DELAY_SECONDS * 1000000 := by
  unfold parseControlRequest at h
  split at h
  · cases h
  · split at h
    · cases h
    · split at h
      · cases h
      · split at h
        · split at h
          · split at h
            · cases h
            · obtain ⟨requestedAt, -, h⟩ := (bind_eq_ok_iff _ _ _).mp h
              obtain ⟨notBefore, -, h⟩ := (bind_eq_ok_iff _ _ _).mp h
              split at h
              · split at h
                · cases h
                · next hdelay =>
                  cases h
                  exact not_not.mp hdelay
              · cases h
          · cases h
        · cases h

variable (lib)

/-- What is written is read back the same, it is written whenever the two seconds fit into the calendar, and
whatever is read has its delay. -/
theorem restart_request_codec :
    (∀ online writable clock target id request file, requestRestart lib online writable clock target id = .ok (request, file) →
      request.target = target ∧ request.requestId = id ∧ inUtc clock.shown clock.offset = .ok request.requestedAt ∧
        plus request.requestedAt (RESTART_DELAY_SECONDS * 1000000) = .ok request.notBefore ∧
        parseControlRequest lib (some file) = .ok (some request)) ∧
      (∀ (clock : AwareTime) target id now notBefore, inUtc clock.shown clock.offset = .ok now →
        plus now (RESTART_DELAY_SECONDS * 1000000) = .ok notBefore →
        ∃ file, requestRestart lib true true clock target id = .ok (⟨target, id, now, notBefore⟩, file)) ∧
      ∀ file request, parseControlRequest lib file = .ok (some request) →
        (request.notBefore.micros : Int) - request.requestedAt.micros = RESTART_DELAY_SECONDS * 1000000 := by
  refine ⟨fun online writable clock target id request file h => ?_, fun clock target id now notBefore hnow hbefore => ?_,
    fun file request h => delay_of_parsed h⟩
  · obtain ⟨htarget, hid, hnow, hbefore, rfl⟩ := requestRestart_ok h
    exact ⟨htarget, hid, hnow, hbefore, parseControlRequest_encoded hbefore⟩
  · exact ⟨_, requestRestart_written hnow hbefore target id⟩

end SmartTest.Control.RequestFile
