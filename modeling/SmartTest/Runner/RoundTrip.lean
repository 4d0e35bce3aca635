import SmartTest.Runner.Transport

/-!
# What the runner writes arrives

Every envelope is read back from its line as it was, and the lines of a run are consumed in
their order.
-/

open SmartTest.Lib SmartTest.Run

namespace SmartTest.Runner

variable {codec : Codec} {isFloat : Rat → Prop}

/-! ## One envelope -/

theorem fieldOr_of_lookup {α : Type} {fields : List (String × Json)} {name : String} {read : Json → Option α}
    {absent : Option α} {value : Json} {a : α} (hvalue : fields.lookup name = some value)
    (hread : read value = some a) : fieldOr fields name read absent = .ok a := by
  simp [fieldOr, hvalue, hread]

theorem readEngine_value (engine : Engine) : readEngine (.str engine.value) = some engine := by
  cases engine <;> rfl

theorem readEventType_value (type : EventType) : readEventType (.str type.value) = some type := by
  cases type <;> rfl

theorem readOutcome_value (outcome : ResultOutcome) : readOutcome (.str outcome.value) = some outcome := by
  cases outcome <;> rfl

theorem readNat_int (hcodec : codec.Faithful isFloat) (n : Nat) : readNat codec (.int n) = some n := by
  simp [readNat, hcodec.int]

/-- What a thawed payload is for JSON. -/
theorem json?_freezeMapping (values : List (String × Json)) :
    (freezeMapping values).deepThaw.json? = some (.obj values) := by
  rw [freezeMapping, PyValue.deepThaw_deepFreeze, PyValue.json?_plain]

theorem readHeader_dump (hcodec : codec.Faithful isFloat) {header : Header} (hrunId : header.runId.Spelled)
    (hattemptId : header.attemptId.Spelled) (rest : List (String × Json)) :
    readHeader codec (header.dump ++ rest) = .ok header := by
  have hversion : fieldOr (header.dump ++ rest) "protocol_version" readVersion (some ()) = .ok () :=
    fieldOr_of_lookup rfl rfl
  have hrun : fieldOr (header.dump ++ rest) "run_id" codec.readUuid none = .ok header.runId :=
    fieldOr_of_lookup rfl (hcodec.uuid _ hrunId)
  have hattempt : fieldOr (header.dump ++ rest) "attempt_id" codec.readUuid none = .ok header.attemptId :=
    fieldOr_of_lookup rfl (hcodec.uuid _ hattemptId)
  have hengine : fieldOr (header.dump ++ rest) "engine" readEngine none = .ok header.engine :=
    fieldOr_of_lookup rfl (readEngine_value _)
  rw [readHeader, hversion, ok_bind, hrun, ok_bind, hattempt, ok_bind, hengine]
  rfl

variable (codec) in
/-- The data of an event on its line. -/
def eventData (event : EventEnvelope) : Json :=
  .obj ((eventObject event).toHeader.dump ++
    [("event_id", .str event.eventId.text), ("seq", .int event.seq),
     ("occurred_at", .str (codec.instantText event.occurredAt)), ("type", .str event.type.value),
     ("payload", .obj event.payload.entries)])

variable (codec) in
def resultData (result : ResultEnvelope) : Json :=
  .obj ((resultObject result).toHeader.dump ++
    [("outcome", .str result.outcome.value), ("completed_at", .str (codec.instantText result.completedAt)),
     ("duration_ms", .int result.durationMs), ("summary", .obj result.summary.entries)])

theorem dump_eventObject (event : EventEnvelope) : (eventObject event).dump codec = some (eventData codec event) := by
  simp only [EventObject.dump, eventObject, json?_freezeMapping]
  rfl

theorem dump_resultObject (result : ResultEnvelope) :
    (resultObject result).dump codec = some (resultData codec result) := by
  simp only [ResultObject.dump, resultObject, json?_freezeMapping]
  rfl

def eventIds (event : EventEnvelope) : List UUID := [event.runId, event.attemptId, event.eventId]

def resultIds (result : ResultEnvelope) : List UUID := [result.runId, result.attemptId]

/-- `model_validate(json.loads(model_dump_json(e))) = e`, past the text. -/
theorem validateEvent_eventData (hcodec : codec.Faithful isFloat) (now : Instant) {event : EventEnvelope}
    (hids : ∀ id ∈ eventIds event, id.Spelled) :
    validateEvent codec now (eventData codec event) = .ok (eventObject event) := by
  unfold eventData
  generalize hfields : (eventObject event).toHeader.dump ++ _ = fields
  have hid : fieldOr fields "event_id" codec.readUuid none = .ok event.eventId :=
    fieldOr_of_lookup (hfields ▸ rfl) (hcodec.uuid _ (hids _ (by simp [eventIds])))
  have hseq : fieldOr fields "seq" (readNat codec) none = .ok event.seq :=
    fieldOr_of_lookup (hfields ▸ rfl) (readNat_int hcodec _)
  have hat : fieldOr fields "occurred_at" codec.readInstant (some now) = .ok event.occurredAt :=
    fieldOr_of_lookup (hfields ▸ rfl) (hcodec.instant _)
  have htype : fieldOr fields "type" readEventType none = .ok event.type :=
    fieldOr_of_lookup (hfields ▸ rfl) (readEventType_value _)
  have hlast : fields.lookup "payload" = some (.obj event.payload.entries) := hfields ▸ rfl
  have hpayload : fieldOr fields "payload" readMapping (some (freezeMapping [])) =
      .ok (freezeMapping event.payload.entries) := fieldOr_of_lookup hlast rfl
  have hheader : readHeader codec fields = .ok (eventObject event).toHeader :=
    hfields ▸ readHeader_dump hcodec (hids _ (by simp [eventIds, eventObject])) (hids _ (by simp [eventIds, eventObject])) _
  have hknown : knownFields (headerNames ++ ["event_id", "seq", "occurred_at", "type", "payload"])
      (.obj fields) = .ok fields := by
    rw [← hfields]
    rfl
  rw [validateEvent, hknown, ok_bind, hheader, ok_bind, hid, ok_bind, hseq, ok_bind, hat, ok_bind, htype, ok_bind,
    hpayload]
  rfl

theorem validateResult_resultData (hcodec : codec.Faithful isFloat) (now : Instant) {result : ResultEnvelope}
    (hids : ∀ id ∈ resultIds result, id.Spelled) :
    validateResult codec now (resultData codec result) = .ok (resultObject result) := by
  unfold resultData
  generalize hfields : (resultObject result).toHeader.dump ++ _ = fields
  have houtcome : fieldOr fields "outcome" readOutcome none = .ok result.outcome :=
    fieldOr_of_lookup (hfields ▸ rfl) (readOutcome_value _)
  have hat : fieldOr fields "completed_at" codec.readInstant (some now) = .ok result.completedAt :=
    fieldOr_of_lookup (hfields ▸ rfl) (hcodec.instant _)
  have hduration : fieldOr fields "duration_ms" (readNat codec) none = .ok result.durationMs :=
    fieldOr_of_lookup (hfields ▸ rfl) (readNat_int hcodec _)
  have hlast : fields.lookup "summary" = some (.obj result.summary.entries) := hfields ▸ rfl
  have hsummary : fieldOr fields "summary" readMapping (some (freezeMapping [])) =
      .ok (freezeMapping result.summary.entries) := fieldOr_of_lookup hlast rfl
  have hheader : readHeader codec fields = .ok (resultObject result).toHeader :=
    hfields ▸
      readHeader_dump hcodec (hids _ (by simp [resultIds, resultObject])) (hids _ (by simp [resultIds, resultObject])) _
  have hknown : knownFields (headerNames ++ ["outcome", "completed_at", "duration_ms", "summary"])
      (.obj fields) = .ok fields := by
    rw [← hfields]
    rfl
  rw [validateResult, hknown, ok_bind, hheader, ok_bind, houtcome, ok_bind, hat, ok_bind, hduration, ok_bind,
    hsummary]
  rfl

/-! ## One line -/

/-- The message that a line spells. -/
def message (kind : String) (data : Json) : Json := .obj [("kind", .str kind), ("data", data)]

theorem transportLine_eq {kind : String} (hkind : kind = "event" ∨ kind = "result") (data : Json) :
    transportLine kind (dumpJson codec data) = (message kind data).write (utf8Spelling codec.floatText) := by
  have hname : writeString (utf8Spelling codec.floatText).raw "kind" =
      ['\x22', 'k', 'i', 'n', 'd', '\x22'] := rfl
  have hdata : writeString (utf8Spelling codec.floatText).raw "data" =
      ['\x22', 'd', 'a', 't', 'a', '\x22'] := rfl
  have hvalue : writeString Environment.flatSpelling.raw kind =
      writeString (utf8Spelling codec.floatText).raw kind := by
    rcases hkind with rfl | rfl <;> rfl
  simp only [transportLine, message, Json.write, Json.writeFields, hvalue, hname, hdata, dumpJson]
  simp

/-- The payload of an event, or the summary of a result, has finite numbers only. -/
def FiniteNumbers (isFloat : Rat → Prop) (values : Dict String Json) : Prop :=
  Json.WellFormedFields isFloat values.entries

theorem wellFormed_mapping {values : Dict String Json} (h : FiniteNumbers isFloat values) :
    (Json.obj values.entries).WellFormed isFloat := ⟨values.nodup, h⟩

theorem wellFormed_message {kind : String} {data : Json} (h : data.WellFormed isFloat) :
    (message kind data).WellFormed isFloat := by
  simp [message, Json.WellFormed, Json.WellFormedFields, h]

theorem wellFormed_event {event : EventEnvelope} (h : FiniteNumbers isFloat event.payload) :
    (eventData codec event).WellFormed isFloat := by
  refine ⟨?_, ?_⟩
  · simp [Header.dump]
  · simp only [Header.dump, List.cons_append, List.nil_append, Json.WellFormedFields]
    simp [Json.WellFormed, (wellFormed_mapping h).2, event.payload.nodup]

theorem wellFormed_result {result : ResultEnvelope} (h : FiniteNumbers isFloat result.summary) :
    (resultData codec result).WellFormed isFloat := by
  refine ⟨?_, ?_⟩
  · simp [Header.dump]
  · simp only [Header.dump, List.cons_append, List.nil_append, Json.WellFormedFields]
    simp [Json.WellFormed, (wellFormed_mapping h).2, result.summary.nodup]

/-- A line that fits is consumed as the message it spells. -/
theorem consume_line (hcodec : codec.Faithful isFloat) {kind : String} (hkind : kind = "event" ∨ kind = "result")
    {data : Json} (hdata : data.WellFormed isFloat)
    (hfits : (transportLine kind (dumpJson codec data)).length ≤ MAX_LINE) (now : Instant) (received : Received) :
    consume codec now received (transportLine kind (dumpJson codec data)) =
      if kind = "event" then do
        let event ← validateEvent codec now data
        return { received with events := received.events ++ [event] }
      else if received.result = none then do
        let result ← validateResult codec now data
        return { received with result := some result }
      else .error (transportError "Runner transport message kind is invalid or duplicated") := by
  have hread : readJson codec.readFloat (transportLine kind (dumpJson codec data)) = some (message kind data) := by
    rw [transportLine_eq hkind, readJson_write hcodec.spelling (wellFormed_message hdata)]
  have hguard : ¬ (transportLine kind (dumpJson codec data) = [] ∨
      (transportLine kind (dumpJson codec data)).length > MAX_LINE) := by
    simp only [not_or, not_lt]
    exact ⟨by simp [transportLine], hfits⟩
  have hfields : kindAndData (message kind data) = some (.str kind, data) := rfl
  rw [consume, if_neg hguard, hread, Option.bind_some, hfields]
  rcases hkind with rfl | rfl
  · simp [Json.pyEq]
  · simp [Json.pyEq]

/-! ## A whole run -/

variable (codec) in
def eventLine (event : EventEnvelope) : List Char := transportLine "event" (dumpJson codec (eventData codec event))

variable (codec) in
def resultLine (result : ResultEnvelope) : List Char :=
  transportLine "result" (dumpJson codec (resultData codec result))

theorem writeLines_eq (events : List EventEnvelope) (result : ResultEnvelope) :
    writeLines codec (events.map eventObject) (resultObject result) =
      some (events.map (eventLine codec) ++ [resultLine codec result]) := by
  have hevents : (events.map eventObject).mapM (writeEvent codec) = some (events.map (eventLine codec)) := by
    induction events with
    | nil => rfl
    | cons event rest ih =>
      rw [List.map_cons, List.mapM_cons, ih, writeEvent, dump_eventObject]
      rfl
  have hresult : writeResult codec (resultObject result) = some (resultLine codec result) := by
    rw [writeResult, dump_resultObject]
    rfl
  rw [writeLines, hevents, hresult]
  rfl

theorem printable_line (hcodec : codec.Faithful isFloat) {kind : String}
    (hkind : kind = "event" ∨ kind = "result") {data : Json} (hdata : data.WellFormed isFloat) :
    Printable (transportLine kind (dumpJson codec data)) := by
  rw [transportLine_eq hkind]
  exact printable_write hcodec.spelling _ (wellFormed_message hdata)

/-- The events of a run reach the sink one after the other, and what follows them is read next. -/
theorem readLines_events (hcodec : codec.Faithful isFloat) (now : Instant) (events : List EventEnvelope)
    (hids : ∀ event ∈ events, ∀ id ∈ eventIds event, id.Spelled)
    (hfinite : ∀ event ∈ events, FiniteNumbers isFloat event.payload)
    (hfits : ∀ event ∈ events, (eventLine codec event).length ≤ MAX_LINE) (received : Received)
    (rest : List (List Char)) :
    readLines codec now received (events.map (eventLine codec) ++ rest) =
      readLines codec now { received with events := received.events ++ events.map eventObject } rest := by
  induction events generalizing received with
  | nil => simp
  | cons event others ih =>
    obtain ⟨hid, hotherIds⟩ := List.forall_mem_cons.mp hids
    obtain ⟨hevent, hothers⟩ := List.forall_mem_cons.mp hfinite
    obtain ⟨hline, hlines⟩ := List.forall_mem_cons.mp hfits
    have hconsume : consume codec now received (eventLine codec event) =
        .ok { received with events := received.events ++ [eventObject event] } := by
      rw [eventLine, consume_line hcodec (.inl rfl) (wellFormed_event hevent) hline, if_pos rfl,
        validateEvent_eventData hcodec now hid, ok_bind]
      rfl
    rw [List.map_cons, List.cons_append, readLines, hconsume]
    simp only
    rw [ih hotherIds hothers hlines]
    simp

/-- A run's events arrive in their order, and then its result, exactly as they were written. Each envelope
is read back from its own text, and thawing undoes freezing. -/
theorem transport_round_trip (codec : Codec) (isFloat : Rat → Prop) (hcodec : codec.Faithful isFloat)
    (now : Instant) :
    (∀ (events : List EventEnvelope) (result : ResultEnvelope),
      (∀ event ∈ events, ∀ id ∈ eventIds event, id.Spelled) → (∀ id ∈ resultIds result, id.Spelled) →
      (∀ event ∈ events, FiniteNumbers isFloat event.payload) → FiniteNumbers isFloat result.summary →
      ∃ lines, writeLines codec (events.map eventObject) (resultObject result) = some lines ∧
        ((∀ line ∈ lines, line.length ≤ MAX_LINE) →
          readStandardOutput codec now (standardOutput lines) =
            (⟨events.map eventObject, some (resultObject result)⟩, none))) ∧
    (∀ event : EventEnvelope, (∀ id ∈ eventIds event, id.Spelled) → FiniteNumbers isFloat event.payload →
      ∃ dumped, (eventObject event).dump codec = some dumped ∧
        ∃ data, readJson codec.readFloat (dumpJson codec dumped) = some data ∧
          validateEvent codec now data = .ok (eventObject event)) ∧
    (∀ result : ResultEnvelope, (∀ id ∈ resultIds result, id.Spelled) → FiniteNumbers isFloat result.summary →
      ∃ dumped, (resultObject result).dump codec = some dumped ∧
        ∃ data, readJson codec.readFloat (dumpJson codec dumped) = some data ∧
          validateResult codec now data = .ok (resultObject result)) ∧
    ∀ value : Json, (PyValue.plain value).deepFreeze.deepThaw = PyValue.plain value := by
  refine ⟨?_, ?_, ?_, PyValue.deepThaw_deepFreeze⟩
  · intro events result heventIds hresultIds hevents hresult
    refine ⟨_, writeLines_eq events result, fun hfits => ?_⟩
    have hprintable : ∀ line ∈ events.map (eventLine codec) ++ [resultLine codec result], Printable line := by
      intro line hline
      rcases List.mem_append.mp hline with hline | hline
      · obtain ⟨event, hevent, rfl⟩ := List.mem_map.mp hline
        exact printable_line hcodec (.inl rfl) (wellFormed_event (hevents event hevent))
      · rw [List.mem_singleton.mp hline]
        exact printable_line hcodec (.inr rfl) (wellFormed_result hresult)
    have hlines : ∀ event ∈ events, (eventLine codec event).length ≤ MAX_LINE := fun event hevent =>
      hfits _ (List.mem_append_left _ (List.mem_map_of_mem hevent))
    have hlast : (resultLine codec result).length ≤ MAX_LINE := hfits _ (by simp)
    have hconsume : consume codec now ⟨events.map eventObject, none⟩ (resultLine codec result) =
        .ok ⟨events.map eventObject, some (resultObject result)⟩ := by
      rw [resultLine, consume_line hcodec (.inr rfl) (wellFormed_result hresult) hlast, if_neg (by decide),
        if_pos rfl, validateResult_resultData hcodec now hresultIds, ok_bind]
      rfl
    rw [readStandardOutput, standardOutput, splitLines_written hprintable,
      readLines_events hcodec now events heventIds hevents hlines, List.nil_append, readLines, hconsume]
    rfl
  · intro event hids hevent
    exact ⟨_, dump_eventObject event, _, readJson_write hcodec.spelling (wellFormed_event hevent),
      validateEvent_eventData hcodec now hids⟩
  · intro result hids hresult
    exact ⟨_, dump_resultObject result, _, readJson_write hcodec.spelling (wellFormed_result hresult),
      validateResult_resultData hcodec now hids⟩

/-! ## A run with one event -/

/-- The texts of one half and of the epoch as pydantic writes them; other instants by their number. -/
def epochCodec : Codec where
  floatText _ := ['0', '.', '5']
  readFloat text := if text = ['0', '.', '5'] then some (1 / 2) else none
  instantText t := if t = 0 then "1970-01-01T00:00:00Z" else String.ofList (writeInt t)
  readInt value := match value with
    | .int n => some n
    | _ => none
  readUuid value := match value with
    | .str text =>
      let digits := text.toList.filter (· ≠ '-')
      (readHex 0 digits).bind fun value => if digits.length = 32 then some ⟨.ofList (uuidText value)⟩ else none
    | _ => none
  readInstant value := match value with
    | .str text => some (if text = "1970-01-01T00:00:00Z" then 0 else readInt text.toList)
    | _ => none

theorem writeInt_ne_epoch (n : Int) : String.ofList (writeInt n) ≠ "1970-01-01T00:00:00Z" := by
  intro h
  have hlist : writeInt n = "1970-01-01T00:00:00Z".toList := by rw [← h, String.toList_ofList]
  exact writeInt_ne (c := 'T') (by decide) (by decide) (by decide) hlist

theorem epochCodec_faithful : epochCodec.Faithful (· = 1 / 2) where
  spelling := ⟨fun c h => by simpa [utf8Spelling] using h, fun q _ => rfl, fun q hq => by
    simp [utf8Spelling, epochCodec, hq]⟩
  int _ := rfl
  uuid := by
    rintro ⟨text⟩ ⟨value, hlt, rfl⟩
    simp only [epochCodec, String.toList_ofList, readHex_uuidText hlt, Option.bind_some]
    rw [if_pos (length_filter_uuidText value)]
  instant t := by
    by_cases ht : t = 0
    · simp [epochCodec, ht]
    · simp [epochCodec, ht, writeInt_ne_epoch, readInt_writeInt]

def halfEvent : EventEnvelope where
  runId := ⟨"5b0f5d1e-8f4e-4f0c-9d55-0c8a8d2b7a01"⟩
  attemptId := ⟨"5b0f5d1e-8f4e-4f0c-9d55-0c8a8d2b7a02"⟩
  engine := .http
  eventId := ⟨"5b0f5d1e-8f4e-4f0c-9d55-0c8a8d2b7a03"⟩
  seq := 1
  occurredAt := 0
  type := .progress
  payload := ⟨[("steps", .arr [.float (1 / 2), .obj [("line\n", .bool true)]])], by decide⟩

def halfResult : ResultEnvelope where
  runId := halfEvent.runId
  attemptId := halfEvent.attemptId
  engine := .http
  outcome := .succeeded
  completedAt := 0
  durationMs := 12
  summary := .empty

theorem halfIds : ∀ id ∈ eventIds halfEvent, id.Spelled := by
  simp only [eventIds, List.forall_mem_cons]
  exact ⟨⟨0x5b0f5d1e8f4e4f0c9d550c8a8d2b7a01, by decide, by decide⟩,
    ⟨0x5b0f5d1e8f4e4f0c9d550c8a8d2b7a02, by decide, by decide⟩,
    ⟨0x5b0f5d1e8f4e4f0c9d550c8a8d2b7a03, by decide, by decide⟩, by simp⟩

/-- Whether every line of that run is short enough. -/
def halfFits : Bool :=
  (writeLines epochCodec [eventObject halfEvent] (resultObject halfResult)).all
    (·.all fun line => decide (line.length ≤ MAX_LINE))

theorem half_event_arrives : ∃ lines,
    writeLines epochCodec [eventObject halfEvent] (resultObject halfResult) = some lines ∧
      readStandardOutput epochCodec 0 (standardOutput lines) =
        (⟨[eventObject halfEvent], some (resultObject halfResult)⟩, none) := by
  obtain ⟨lines, hlines, hread⟩ := (transport_round_trip epochCodec (· = 1 / 2) epochCodec_faithful 0).1 [halfEvent]
    halfResult (by simpa using halfIds) (fun id hid => halfIds id (List.mem_append_left [halfEvent.eventId] hid))
    (by simp [FiniteNumbers, halfEvent, Json.WellFormedFields, Json.WellFormed, Json.WellFormedItems])
    trivial
  refine ⟨lines, hlines, hread ?_⟩
  have hfits : halfFits = true := by decide +kernel
  rw [halfFits, show [eventObject halfEvent] = [halfEvent].map eventObject from rfl, hlines] at hfits
  simpa using hfits

end SmartTest.Runner
