import SmartTest.Lib.Except
import SmartTest.Web.Client

/-!
# What the browser reads

The lists of states and of event types in `runs.ts` lack one member each. A list of runs is read
as it was sent exactly if no run waits for a retry, a list or a stream of events exactly if no
event is an extraction, as far as the numbers in them are doubles.
-/

open SmartTest.Lib SmartTest.Run

namespace SmartTest.Web

variable {texts : Texts} {isFloat : Rat → Prop}

/-! ## One run, one event -/

/-- The run as the client should have it. -/
def RunResponse.view (texts : Texts) (run : RunResponse) : RunView where
  id := run.id.text
  engine := run.engine.value
  parameters := .obj (Json.toJsFields exactly run.parameters.entries)
  state := run.state.value
  createdAt := texts.instantText run.createdAt
  updatedAt := texts.instantText run.updatedAt
  stateVersion := ((run.stateVersion : Int) : Rat)

/-- The event as the client should have it. -/
def eventView (texts : Texts) (event : EventRecord) : EventView where
  cursor := ((event.cursor : Int) : Rat)
  eventId := event.eventId.text
  runId := event.runId.text
  attemptId := event.attemptId.text
  engine := event.engine.value
  seq := ((event.seq : Int) : Rat)
  occurredAt := texts.instantText event.occurredAt
  type := event.type.value
  payload := .obj (Json.toJsFields exactly event.payload.entries)

/-- The run does not wait for a retry, and its integers are doubles. -/
def RunResponse.Readable (texts : Texts) (run : RunResponse) : Prop :=
  run.state ≠ .retryWait ∧ texts.double run.stateVersion = exactly run.stateVersion ∧
    Json.ExactFields texts.double run.parameters.entries

/-- The event is no extraction, and its integers are doubles. -/
def EventReadable (texts : Texts) (event : EventRecord) : Prop :=
  event.type ≠ .extraction ∧ texts.double event.cursor = exactly event.cursor ∧
    texts.double event.seq = exactly event.seq ∧ Json.ExactFields texts.double event.payload.entries

/-- What every UUID has. -/
def FilledIds (event : EventRecord) : Prop :=
  event.eventId.text ≠ "" ∧ event.runId.text ≠ "" ∧ event.attemptId.text ≠ ""

theorem isOneOf_engine (engine : Engine) : isOneOf engines (some (.str engine.value)) = some engine.value := by
  cases engine <;> rfl

/-- One state is missing. -/
theorem isOneOf_runStates (state : RunState) :
    isOneOf runStates (some (.str state.value)) = if state = .retryWait then none else some state.value := by
  cases state <;> rfl

/-- One type is missing. -/
theorem isOneOf_runEventTypes (type : EventType) :
    isOneOf runEventTypes (some (.str type.value)) = if type = .extraction then none else some type.value := by
  cases type <;> rfl

theorem isDateTime_instantText (htexts : texts.Faithful isFloat) (t : Instant) :
    isDateTime texts (some (.str (texts.instantText t))) = some (texts.instantText t) := by
  simp [isDateTime, isString, htexts.date]

theorem isCount_toJs {double : Int → Option Rat} (n : Nat) :
    isCount (some ((Json.int n).toJs double)) = some ((n : Int) : Rat) ↔ double n = exactly n := by
  simp only [Json.toJs]
  cases hdouble : double n with
  | none => simp [isCount]
  | some q =>
    simp only [Option.map_some, Option.getD_some, isCount, exactly, Option.some.injEq]
    constructor
    · intro h
      split at h
      · simpa using h
      · cases h
    · rintro rfl
      have hnonneg : (0 : Rat) ≤ ((n : Int) : Rat) := by exact_mod_cast Int.natCast_nonneg n
      exact if_pos ⟨Rat.den_intCast n, hnonneg⟩

theorem parseRun_dump (htexts : texts.Faithful isFloat) (run : RunResponse) :
    parseRun texts ((run.dump texts).toJs texts.double) =
      (if run.state = .retryWait then none else some run.state.value).bind fun state =>
        (isCount (some ((Json.int run.stateVersion).toJs texts.double))).bind fun stateVersion =>
          some { run.view texts with
            parameters := .obj (Json.toJsFields texts.double run.parameters.entries)
            state := state
            stateVersion := stateVersion } := by
  have hfields : (run.dump texts).toJs texts.double = .obj [("id", .str run.id.text),
      ("engine", .str run.engine.value), ("parameters", .obj (Json.toJsFields texts.double run.parameters.entries)),
      ("state", .str run.state.value), ("created_at", .str (texts.instantText run.createdAt)),
      ("updated_at", .str (texts.instantText run.updatedAt)),
      ("state_version", (Json.int run.stateVersion).toJs texts.double)] := by
    simp [RunResponse.dump, Json.toJs, Json.toJsFields]
  simp only [hfields, parseRun, isRecord, isString, List.lookup_cons, Option.bind_eq_bind, Option.bind_some,
    isOneOf_engine, isOneOf_runStates, isDateTime_instantText htexts, String.reduceBEq]
  rfl

theorem parseRun_dump_iff (htexts : texts.Faithful isFloat) (run : RunResponse) :
    parseRun texts ((run.dump texts).toJs texts.double) = some (run.view texts) ↔ run.Readable texts := by
  rw [parseRun_dump htexts, RunResponse.Readable, ← isCount_toJs, ← toJsFields_eq_exact_iff]
  by_cases hstate : run.state = .retryWait
  · simp [hstate]
  · rw [if_neg hstate, Option.bind_some, Option.bind_eq_some_iff]
    constructor
    · rintro ⟨version, hversion, heq⟩
      obtain ⟨-, -, hparameters, -, -, -, rfl⟩ := RunView.mk.inj (Option.some.inj heq)
      exact ⟨hstate, hversion, Js.obj.inj hparameters⟩
    · rintro ⟨-, hversion, hparameters⟩
      exact ⟨_, hversion, by rw [hparameters]; rfl⟩

theorem parseRunEvent_dump (htexts : texts.Faithful isFloat) {event : EventRecord} (hids : FilledIds event) :
    parseRunEvent texts ((eventDump texts event).toJs texts.double) =
      (isCount (some ((Json.int event.cursor).toJs texts.double))).bind fun cursor =>
        (isCount (some ((Json.int event.seq).toJs texts.double))).bind fun seq =>
          (if event.type = .extraction then none else some event.type.value).bind fun type =>
            some { eventView texts event with
              cursor := cursor
              seq := seq
              type := type
              payload := .obj (Json.toJsFields texts.double event.payload.entries) } := by
  have hfields : (eventDump texts event).toJs texts.double = .obj [
      ("cursor", (Json.int event.cursor).toJs texts.double), ("event_id", .str event.eventId.text),
      ("run_id", .str event.runId.text), ("attempt_id", .str event.attemptId.text),
      ("engine", .str event.engine.value), ("seq", (Json.int event.seq).toJs texts.double),
      ("occurred_at", .str (texts.instantText event.occurredAt)), ("type", .str event.type.value),
      ("payload", .obj (Json.toJsFields texts.double event.payload.entries))] := by
    simp [eventDump, Json.toJs, Json.toJsFields]
  have hfilled : ∀ text : String, text ≠ "" → isFilled (some (.str text)) = some text := by
    intro text htext
    simp [isFilled, isString, htext]
  simp only [hfields, parseRunEvent, isRecord, List.lookup_cons, Option.bind_eq_bind, Option.bind_some, hfilled _ hids.1,
    hfilled _ hids.2.1, hfilled _ hids.2.2, isOneOf_engine, isOneOf_runEventTypes, isDateTime_instantText htexts,
    String.reduceBEq]
  rfl

theorem parseRunEvent_dump_iff (htexts : texts.Faithful isFloat) {event : EventRecord} (hids : FilledIds event) :
    parseRunEvent texts ((eventDump texts event).toJs texts.double) = some (eventView texts event) ↔
      EventReadable texts event := by
  rw [parseRunEvent_dump htexts hids, EventReadable, ← isCount_toJs, ← isCount_toJs, ← toJsFields_eq_exact_iff]
  by_cases htype : event.type = .extraction
  · simp [htype]
  · simp only [if_neg htype, Option.bind_some, Option.bind_eq_some_iff]
    constructor
    · rintro ⟨cursor, hcursor, seq, hseq, heq⟩
      obtain ⟨rfl, -, -, -, -, rfl, -, -, hpayload⟩ := EventView.mk.inj (Option.some.inj heq)
      exact ⟨htype, hcursor, hseq, Js.obj.inj hpayload⟩
    · rintro ⟨-, hcursor, hseq, hpayload⟩
      exact ⟨_, hcursor, _, hseq, by rw [hpayload]; rfl⟩

/-! ## Lists -/

theorem parseItems_map_iff {α β : Type} {parse : Js → Option β} {message : String} {f : α → Js} {g : α → β}
    {l : List α} : parseItems parse message (l.map f) = .ok (l.map g) ↔ ∀ a ∈ l, parse (f a) = some (g a) := by
  unfold parseItems
  split
  · next hnull =>
    simp only [reduceCtorEq, false_iff, not_forall]
    obtain ⟨parsed, hparsed, hnone⟩ := List.any_eq_true.mp hnull
    simp only [List.map_map, List.mem_map, Function.comp_apply] at hparsed
    obtain ⟨a, ha, rfl⟩ := hparsed
    refine ⟨a, ha, ?_⟩
    rw [Option.isNone_iff_eq_none.mp hnone]
    simp
  · rw [Except.ok.injEq, List.filterMap_map, List.filterMap_eq_map_iff_forall_eq_some]
    rfl

/-- The client takes the number of the items for one. -/
def Texts.Counts (texts : Texts) (n : Nat) : Prop := (isCount (some ((Json.int n).toJs texts.double))).isSome = true

theorem wellFormed_items {α : Type} {f : α → Json} {l : List α} (h : ∀ a ∈ l, (f a).WellFormed isFloat) :
    Json.WellFormedItems isFloat (l.map f) := by
  induction l with
  | nil => trivial
  | cons a rest ih =>
    obtain ⟨ha, hrest⟩ := List.forall_mem_cons.mp h
    exact ⟨ha, ih hrest⟩

theorem wellFormed_run {run : RunResponse} (h : Json.WellFormedFields isFloat run.parameters.entries) :
    (run.dump texts).WellFormed isFloat := by
  have hnodup := run.parameters.nodup
  simp [RunResponse.dump, Json.WellFormed, Json.WellFormedFields, h, hnodup]

theorem wellFormed_event {event : EventRecord} (h : Json.WellFormedFields isFloat event.payload.entries) :
    (eventDump texts event).WellFormed isFloat := by
  have hnodup := event.payload.nodup
  simp [eventDump, Json.WellFormed, Json.WellFormedFields, h, hnodup]

theorem isList_total {double : Int → Option Rat} (items : List Json) (total : Nat) :
    isList ["total"] (Json.toJs double (.obj [("items", .arr items), ("total", .int total)])) =
      (isCount (some ((Json.int total).toJs double))).map fun q => (Json.toJsItems double items, [q]) := by
  have hfields : Json.toJs double (.obj [("items", .arr items), ("total", .int total)]) =
      .obj [("items", .arr (Json.toJsItems double items)), ("total", (Json.int total).toJs double)] := by
    simp [Json.toJs, Json.toJsFields]
  rw [hfields]
  simp only [isList, isRecord, Option.bind_eq_bind, Option.bind_some, List.lookup_cons, String.reduceBEq, List.mapM_cons,
    List.mapM_nil]
  cases isCount (some ((Json.int total).toJs double)) <;> rfl

theorem isList_cursor {double : Int → Option Rat} (items : List Json) (total cursor : Nat) :
    isList ["total", "next_cursor"]
      (Json.toJs double (.obj [("items", .arr items), ("total", .int total), ("next_cursor", .int cursor)])) =
      (isCount (some ((Json.int total).toJs double))).bind fun q =>
        (isCount (some ((Json.int cursor).toJs double))).map fun next =>
          (Json.toJsItems double items, [q, next]) := by
  have hfields : Json.toJs double (.obj [("items", .arr items), ("total", .int total), ("next_cursor", .int cursor)]) =
      .obj [("items", .arr (Json.toJsItems double items)), ("total", (Json.int total).toJs double),
        ("next_cursor", (Json.int cursor).toJs double)] := by
    simp [Json.toJs, Json.toJsFields]
  rw [hfields]
  simp only [isList, isRecord, Option.bind_eq_bind, Option.bind_some, List.lookup_cons, String.reduceBEq, List.mapM_cons,
    List.mapM_nil]
  cases isCount (some ((Json.int total).toJs double)) with
  | none => rfl
  | some q => cases isCount (some ((Json.int cursor).toJs double)) <;> rfl

theorem fetchRuns_iff (htexts : texts.Faithful isFloat) {runs : List RunResponse}
    (hfinite : ∀ run ∈ runs, Json.WellFormedFields isFloat run.parameters.entries) :
    fetchRuns texts (listRuns texts runs) = .ok (runs.map (RunResponse.view texts)) ↔
      texts.Counts runs.length ∧ ∀ run ∈ runs, run.Readable texts := by
  have hbody : Json.WellFormed isFloat
      (.obj [("items", .arr (runs.map (RunResponse.dump texts))), ("total", .int runs.length)]) := by
    have hitems := wellFormed_items (f := RunResponse.dump texts) fun run hrun => wellFormed_run (hfinite run hrun)
    simp [Json.WellFormed, Json.WellFormedFields, hitems]
  unfold fetchRuns
  rw [listRuns, parseJs_write htexts.body hbody]
  simp only [isList_total, Texts.Counts]
  cases isCount (some ((Json.int runs.length).toJs texts.double)) with
  | none => simp
  | some q =>
    simp only [Option.map_some, Option.isSome_some, true_and, toJsItems_map]
    rw [parseItems_map_iff]
    exact forall₂_congr fun run _ => parseRun_dump_iff htexts run

theorem fetchRunEvents_iff (htexts : texts.Faithful isFloat) {runId : UUID} {events : List EventRecord}
    (hrun : ∀ event ∈ events, event.runId = runId) (hids : ∀ event ∈ events, FilledIds event)
    (hfinite : ∀ event ∈ events, Json.WellFormedFields isFloat event.payload.entries) :
    fetchRunEvents texts runId.text (listEvents texts events) =
        .ok ⟨events.map (eventView texts), [((events.length : Int) : Rat), ((nextCursor events : Int) : Rat)]⟩ ↔
      texts.double events.length = exactly events.length ∧
        texts.double (nextCursor events) = exactly (nextCursor events) ∧
        ∀ event ∈ events, EventReadable texts event := by
  have hbody : Json.WellFormed isFloat (.obj [("items", .arr (events.map (eventDump texts))),
      ("total", .int events.length), ("next_cursor", .int (nextCursor events))]) := by
    have hitems := wellFormed_items (f := eventDump texts) fun event hevent => wellFormed_event (hfinite event hevent)
    simp [Json.WellFormed, Json.WellFormedFields, hitems]
  have hitems : parseItems (parseRunEvent texts) "运行事件字段格式暂不支持"
      (events.map fun event => (eventDump texts event).toJs texts.double) = .ok (events.map (eventView texts)) ↔
      ∀ event ∈ events, EventReadable texts event := by
    rw [parseItems_map_iff]
    exact forall₂_congr fun event hevent => parseRunEvent_dump_iff htexts (hids event hevent)
  have hsame : (events.map (eventView texts)).any (·.runId ≠ runId.text) = false := by
    rw [List.any_eq_false]
    intro view hview
    obtain ⟨event, hevent, rfl⟩ := List.mem_map.mp hview
    simp [eventView, hrun event hevent]
  unfold fetchRunEvents
  rw [listEvents, parseJs_write htexts.body hbody, ← hitems, ← isCount_toJs, ← isCount_toJs]
  simp only [isList_cursor]
  cases htotal : isCount (some ((Json.int events.length).toJs texts.double)) with
  | none => simp
  | some total =>
    cases hcursor : isCount (some ((Json.int (nextCursor events)).toJs texts.double)) with
    | none => simp
    | some cursor =>
      simp only [Option.bind_some, Option.map_some, toJsItems_map, bind_eq_ok_iff, error_bind, ite_error_eq_ok_iff,
        pure_eq_ok_iff, Option.some.injEq]
      constructor
      · rintro ⟨items, hparsed, -, heq⟩
        obtain ⟨rfl, hcounts⟩ := RunEventsResponse.mk.inj heq
        obtain ⟨rfl, hrest⟩ := List.cons.inj hcounts
        obtain ⟨rfl, -⟩ := List.cons.inj hrest
        exact ⟨rfl, rfl, hparsed⟩
      · rintro ⟨rfl, rfl, hparsed⟩
        exact ⟨_, hparsed, by rw [hsame]; simp, rfl⟩

/-! ## Streams -/

/-- The message of an event. -/
def messageOf (texts : Texts) (event : EventRecord) : Message where
  lastEventId := writeInt event.cursor
  type := event.type.value.toList
  data := (eventDump texts event).write (asciiSpelling texts.floatText)

theorem not_mem_writeInt {n : Int} {c : Char} (hdash : c ≠ '-') (hdigit : c.isDigit = false) : c ∉ writeInt n :=
  fun hmem => writeInt_ne hmem hdash hdigit rfl

theorem printable_writeInt (n : Int) : Printable (writeInt n) := printable_scanNumber (scanNumber_writeInt n)

theorem eventType_value_plain (type : EventType) : type.value.toList ≠ [] ∧ Printable type.value.toList := by
  refine ⟨?_, forall_mem_of_all ?_⟩
  · cases type <;> decide
  · cases type <;> decide

theorem printable_yielded (htexts : texts.Faithful isFloat) {item : Option EventRecord}
    (hfinite : ∀ event, item = some event → Json.WellFormedFields isFloat event.payload.entries) :
    ∀ line ∈ yielded texts item, Printable line := by
  cases item with
  | none =>
    intro line hline
    simp only [yielded, List.mem_cons, List.not_mem_nil, or_false] at hline
    rcases hline with rfl | rfl
    · exact forall_mem_of_all (by decide)
    · simp [Printable]
  | some event =>
    have hdata := printable_write htexts.stream (eventDump texts event) (wellFormed_event (hfinite event rfl))
    intro line hline
    simp only [yielded, formatSse, EventSource.frame, List.mem_cons, List.not_mem_nil, or_false] at hline
    rcases hline with rfl | rfl | rfl | rfl
    · simp only [printable_cons]
      exact ⟨by decide, by decide, by decide, by decide, printable_writeInt _⟩
    · simp only [printable_cons]
      exact ⟨by decide, by decide, by decide, by decide, by decide, by decide, by decide,
        (eventType_value_plain event.type).2⟩
    · simp only [printable_cons]
      exact ⟨by decide, by decide, by decide, by decide, by decide, by decide, hdata⟩
    · simp [Printable]

/-- The stream comes apart into the messages of the events; heartbeats leave nothing. -/
theorem messages_eventStream (htexts : texts.Faithful isFloat) {items : List (Option EventRecord)}
    (hfinite : ∀ event, some event ∈ items → Json.WellFormedFields isFloat event.payload.entries) :
    EventSource.messages (eventStream texts items) = (items.filterMap id).map (messageOf texts) := by
  have hlines : ∀ line ∈ items.flatMap (yielded texts), Printable line := by
    intro line hline
    obtain ⟨item, hitem, hyielded⟩ := List.mem_flatMap.mp hline
    exact printable_yielded htexts (fun event heq => hfinite event (heq ▸ hitem)) line hyielded
  have hdispatch : ∀ (rest : List (Option EventRecord)) (lastId : List Char),
      EventSource.dispatch ⟨[], [], lastId⟩ (rest.flatMap (yielded texts)) =
        (rest.filterMap id).map (messageOf texts) := by
    intro rest
    induction rest with
    | nil => exact fun _ => rfl
    | cons item rest ih =>
      intro lastId
      rw [List.flatMap_cons]
      cases item with
      | none => exact (EventSource.dispatch_comment _ _ _).trans (ih lastId)
      | some event =>
        rw [yielded, formatSse, EventSource.dispatch_frame (not_mem_writeInt (by decide) (by decide))
          (eventType_value_plain event.type).1, ih]
        rfl
  rw [EventSource.messages, eventStream, splitLines_written hlines, hdispatch]

/-- What the listeners make of a message. -/
def heard (texts : Texts) (runId : String) (message : Message) : Option (Except String EventView) :=
  (runEventTypes.find? fun type => type.toList = message.type).map fun type => listener texts runId type message

/-- Messages of one type have no listener. -/
theorem find_runEventTypes (type : EventType) : (runEventTypes.find? fun name => name.toList = type.value.toList) =
    if type = .extraction then none else some type.value := by
  cases type <;> decide

theorem heard_iff (htexts : texts.Faithful isFloat) {event : EventRecord} (hids : FilledIds event)
    (hfinite : Json.WellFormedFields isFloat event.payload.entries) :
    heard texts event.runId.text (messageOf texts event) = some (.ok (eventView texts event)) ↔
      EventReadable texts event ∧ texts.numberText ((event.cursor : Int) : Rat) = writeInt event.cursor := by
  have hparsed : parseJs texts.double texts.readFloat (messageOf texts event).data =
      some ((eventDump texts event).toJs texts.double) := parseJs_write htexts.stream (wellFormed_event hfinite)
  have hid : writeInt (event.cursor : Int) ≠ [] := by
    intro hnil
    have hscan := scanNumber_writeInt (event.cursor : Int)
    rw [hnil] at hscan
    cases hscan
  unfold heard
  rw [show (messageOf texts event).type = event.type.value.toList from rfl, find_runEventTypes]
  by_cases htype : event.type = .extraction
  · simp [htype, EventReadable]
  · rw [if_neg htype, Option.map_some, Option.some.injEq, ← parseRunEvent_dump_iff htexts hids]
    unfold listener
    rw [hparsed]
    dsimp only
    cases parseRunEvent texts ((eventDump texts event).toJs texts.double) with
    | none => simp
    | some view =>
      simp only [Option.some.injEq]
      constructor
      · intro h
        split at h
        · cases h
        · next hsame =>
          obtain rfl := Except.ok.inj h
          refine ⟨rfl, ?_⟩
          by_contra hne
          exact hsame (.inr (.inr ⟨hid, hne⟩))
      · rintro ⟨rfl, htext⟩
        rw [if_neg]
        rintro (hrun | htype' | ⟨-, hne⟩)
        · exact hrun rfl
        · exact htype' rfl
        · exact hne htext

theorem subscribe_iff (htexts : texts.Faithful isFloat) {runId : UUID} {items : List (Option EventRecord)}
    (hrun : ∀ event, some event ∈ items → event.runId = runId)
    (hids : ∀ event, some event ∈ items → FilledIds event)
    (hfinite : ∀ event, some event ∈ items → Json.WellFormedFields isFloat event.payload.entries) :
    subscribeToRunEvents texts runId.text (eventStream texts items) =
        (items.filterMap id).map (fun event => .ok (eventView texts event)) ↔
      ∀ event, some event ∈ items →
        EventReadable texts event ∧ texts.numberText ((event.cursor : Int) : Rat) = writeInt event.cursor := by
  have hheard : subscribeToRunEvents texts runId.text (eventStream texts items) =
      (items.filterMap id).filterMap fun event => heard texts runId.text (messageOf texts event) := by
    rw [subscribeToRunEvents, messages_eventStream htexts hfinite, List.filterMap_map]
    rfl
  have hmem : ∀ event, event ∈ items.filterMap id ↔ some event ∈ items := by simp
  rw [hheard, List.filterMap_eq_map_iff_forall_eq_some]
  refine forall_congr' fun event => ?_
  rw [hmem event]
  refine forall_congr' fun hevent => ?_
  rw [← hrun event hevent]
  exact heard_iff htexts (hids event hevent) (hfinite event hevent)

/-- The client reads the runs, the events and the stream the server sends, all of them and in their order, exactly if
no run waits for a retry, no event is an extraction, and the numbers are JavaScript's. -/
theorem client_reads_iff (htexts : texts.Faithful isFloat) :
    (∀ runs : List RunResponse, (∀ run ∈ runs, Json.WellFormedFields isFloat run.parameters.entries) →
      (fetchRuns texts (listRuns texts runs) = .ok (runs.map (RunResponse.view texts)) ↔
        texts.Counts runs.length ∧ ∀ run ∈ runs, run.Readable texts)) ∧
    (∀ (runId : UUID) (events : List EventRecord), (∀ event ∈ events, event.runId = runId) →
      (∀ event ∈ events, FilledIds event) →
      (∀ event ∈ events, Json.WellFormedFields isFloat event.payload.entries) →
      (fetchRunEvents texts runId.text (listEvents texts events) =
          .ok ⟨events.map (eventView texts), [((events.length : Int) : Rat), ((nextCursor events : Int) : Rat)]⟩ ↔
        texts.double events.length = exactly events.length ∧
          texts.double (nextCursor events) = exactly (nextCursor events) ∧
          ∀ event ∈ events, EventReadable texts event)) ∧
    (∀ (runId : UUID) (items : List (Option EventRecord)), (∀ event, some event ∈ items → event.runId = runId) →
      (∀ event, some event ∈ items → FilledIds event) →
      (∀ event, some event ∈ items → Json.WellFormedFields isFloat event.payload.entries) →
      (subscribeToRunEvents texts runId.text (eventStream texts items) =
          (items.filterMap id).map (fun event => .ok (eventView texts event)) ↔
        ∀ event, some event ∈ items →
          EventReadable texts event ∧ texts.numberText ((event.cursor : Int) : Rat) = writeInt event.cursor)) :=
  ⟨fun _ hfinite => fetchRuns_iff htexts hfinite,
    fun _ _ hrun hids hfinite => fetchRunEvents_iff htexts hrun hids hfinite,
    fun _ _ hrun hids hfinite => subscribe_iff htexts hrun hids hfinite⟩

/-! ## One run and one event -/

/-- The texts of one half and of the epoch; small integers are doubles. -/
def epochTexts : Texts where
  floatText _ := ['0', '.', '5']
  instantText t := if t = 0 then "1970-01-01T00:00:00Z" else .ofList (writeInt t)
  readFloat text := if text = ['0', '.', '5'] then some (1 / 2) else none
  double n := some n
  numberText q := writeInt q.num
  isDate _ := true

theorem epochTexts_faithful : epochTexts.Faithful (· = 1 / 2) where
  body := ⟨fun c h => by simpa [utf8Spelling] using h, fun q _ => rfl, fun q hq => by
    simp [utf8Spelling, epochTexts, hq]⟩
  stream := ⟨asciiSpelling_sound _, fun q _ => rfl, fun q hq => by simp [asciiSpelling, epochTexts, hq]⟩
  date _ := rfl

/-- A run in a state, with a number, a text and a list among its parameters. -/
def runIn (state : RunState) : RunResponse where
  id := ⟨"5b0f5d1e-8f4e-4f0c-9d55-0c8a8d2b7a01"⟩
  engine := .http
  parameters := ⟨[("timeout", .int 30), ("tags", .arr [.str "slow", .float (1 / 2)])], by decide⟩
  state := state
  createdAt := 0
  updatedAt := 0
  stateVersion := 3

def eventOf (type : EventType) : EventRecord where
  cursor := 7
  eventId := ⟨"5b0f5d1e-8f4e-4f0c-9d55-0c8a8d2b7a03"⟩
  runId := (runIn .running).id
  attemptId := ⟨"5b0f5d1e-8f4e-4f0c-9d55-0c8a8d2b7a02"⟩
  engine := .http
  seq := 2
  occurredAt := 0
  type := type
  payload := ⟨[("status", .int 200)], by decide⟩

theorem runIn_finite (state : RunState) :
    Json.WellFormedFields (· = 1 / 2) (runIn state).parameters.entries := by
  simp [runIn, Json.WellFormedFields, Json.WellFormed, Json.WellFormedItems]

theorem eventOf_finite (type : EventType) : Json.WellFormedFields (· = 1 / 2) (eventOf type).payload.entries := by
  simp [eventOf, Json.WellFormedFields, Json.WellFormed]

theorem eventOf_filled (type : EventType) : FilledIds (eventOf type) := by
  simp [FilledIds, eventOf, runIn]

theorem runIn_readable_iff (state : RunState) : (runIn state).Readable epochTexts ↔ state ≠ .retryWait := by
  simp [RunResponse.Readable, runIn, epochTexts, Json.ExactFields, Json.Exact, Json.ExactItems]

theorem eventOf_readable_iff (type : EventType) : EventReadable epochTexts (eventOf type) ↔ type ≠ .extraction := by
  simp [EventReadable, eventOf, epochTexts, Json.ExactFields, Json.Exact]

/-- A run that is queued is read. -/
theorem queued_run_read : fetchRuns epochTexts (listRuns epochTexts [runIn .queued]) =
    .ok [(runIn .queued).view epochTexts] := by
  refine ((client_reads_iff epochTexts_faithful).1 [runIn .queued] ?_).mpr ⟨?_, ?_⟩
  · exact List.forall_mem_singleton.mpr (runIn_finite .queued)
  · rfl
  · exact List.forall_mem_singleton.mpr ((runIn_readable_iff .queued).mpr (by decide))

/-- A run that waits for a retry makes the list unreadable, and an extraction the list of events; in the stream it is
not heard. -/
theorem waiting_run_unread :
    fetchRuns epochTexts (listRuns epochTexts [runIn .queued, runIn .retryWait]) ≠
      .ok [(runIn .queued).view epochTexts, (runIn .retryWait).view epochTexts] ∧
    fetchRunEvents epochTexts (runIn .running).id.text (listEvents epochTexts [eventOf .started, eventOf .extraction]) ≠
      .ok ⟨[eventView epochTexts (eventOf .started), eventView epochTexts (eventOf .extraction)], [2, 7]⟩ ∧
    subscribeToRunEvents epochTexts (runIn .running).id.text
        (eventStream epochTexts [some (eventOf .started), some (eventOf .extraction)]) ≠
      [.ok (eventView epochTexts (eventOf .started)), .ok (eventView epochTexts (eventOf .extraction))] := by
  refine ⟨?_, ?_, ?_⟩
  · intro hread
    have hfinite : ∀ run ∈ [runIn .queued, runIn .retryWait],
        Json.WellFormedFields (· = 1 / 2) run.parameters.entries :=
      List.forall_mem_cons.mpr ⟨runIn_finite _, List.forall_mem_singleton.mpr (runIn_finite _)⟩
    have hreadable := ((fetchRuns_iff epochTexts_faithful hfinite).mp hread).2
    exact (runIn_readable_iff .retryWait).mp (hreadable _ (by simp)) rfl
  · intro hread
    have hrun : ∀ event ∈ [eventOf .started, eventOf .extraction], event.runId = (runIn .running).id := by
      simp [eventOf]
    have hfinite : ∀ event ∈ [eventOf .started, eventOf .extraction],
        Json.WellFormedFields (· = 1 / 2) event.payload.entries :=
      List.forall_mem_cons.mpr ⟨eventOf_finite _, List.forall_mem_singleton.mpr (eventOf_finite _)⟩
    have hreadable := ((fetchRunEvents_iff epochTexts_faithful hrun (by simp [eventOf_filled]) hfinite).mp hread).2.2
    exact (eventOf_readable_iff .extraction).mp (hreadable _ (by simp)) rfl
  · intro hread
    have hrun : ∀ event, some event ∈ [some (eventOf .started), some (eventOf .extraction)] →
        event.runId = (runIn .running).id := by simp [eventOf]
    have hfinite : ∀ event, some event ∈ [some (eventOf .started), some (eventOf .extraction)] →
        Json.WellFormedFields (· = 1 / 2) event.payload.entries := by
      intro event hmem
      obtain rfl | rfl : event = eventOf .started ∨ event = eventOf .extraction := by simpa using hmem
      · exact eventOf_finite _
      · exact eventOf_finite _
    have hreadable := (subscribe_iff epochTexts_faithful hrun (by simp [eventOf_filled]) hfinite).mp hread
    exact (eventOf_readable_iff .extraction).mp (hreadable _ (by simp)).1 rfl

end SmartTest.Web
