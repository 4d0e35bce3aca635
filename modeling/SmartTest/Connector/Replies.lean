import SmartTest.Lib.EventSource
import SmartTest.Lib.Except
import SmartTest.Lib.Text
import SmartTest.Lib.Utf8

/-!
# Replies to MCP requests

`ConnectorClient._rpc` and `_parse_mcp_payload` of `services/api/connector_client.py`: a reply
is one JSON text, or a message of an event stream. Only the stream is searched for the id of
the request; a JSON text with another id is taken as it is.
-/

open SmartTest.Lib

namespace SmartTest.Connector

/-! ## The client -/

/-- What `json.loads` does with a text. -/
inductive Loads where
  | value (value : Json)
  | decodeError
  | valueError
  | raises

/-- `json.loads` and `str.lower`. -/
structure McpLibrary where
  loads : List Char → Loads
  lower : String → String

structure Response where
  statusCode : Int
  headers : List (String × String)
  chunks : List (List UInt8)

/-- A `ConnectorConnectionError`, or what `json.loads` raises otherwise. -/
inductive RpcError where
  | connection (message : String)
  | raises
  deriving DecidableEq

def BODY_LIMIT : Nat := 1048576

def requireSuccess (statusCode : Int) : Except RpcError Unit :=
  if 300 ≤ statusCode ∧ statusCode < 400 then .error (.connection "Connector redirects are not allowed")
  else if statusCode < 200 ∨ statusCode ≥ 300 then
    .error (.connection "Connector returned a non-success status")
  else .ok ()

/-- The loop of `_read_body`. -/
def readChunks (size : Nat) (chunks : List UInt8) : List (List UInt8) → Except RpcError (List UInt8)
  | [] => .ok chunks
  | chunk :: source =>
    if chunk = [] then readChunks size chunks source
    else if size + chunk.length > BODY_LIMIT then
      .error (.connection "Connector response exceeded its size limit")
    else readChunks (size + chunk.length) (chunks ++ chunk) source

def readBody (response : Response) : Except RpcError (List UInt8) := readChunks 0 [] response.chunks

variable (lib : McpLibrary)

/-- `_header`. -/
def headerOf (headers : List (String × String)) (name : String) : Option String :=
  (headers.find? fun header => lib.lower header.1 = lib.lower name).map Prod.snd

def isEventStream (contentType : Option String) : Bool :=
  contentType.any fun value =>
    value ≠ "" && lib.lower (strip (String.ofList (value.toList.takeWhile (· ≠ ';')))) = "text/event-stream"

/-- `re.split(r"\n\n+", text)`; with `within` a run of breaks has ended an event just before. -/
def splitEvents : (within : Bool) → List Char → List (List Char)
  | _, [] => [[]]
  | true, '\n' :: rest => splitEvents true rest
  | false, '\n' :: '\n' :: rest => [] :: splitEvents true rest
  | _, c :: rest => (splitEvents false rest).modifyHead (c :: ·)

/-- The value that a line of an event adds. -/
def dataValue (line : List Char) : Option (List Char) :=
  if line = [] ∨ line.head? = some ':' then none
  else
    let field := line.takeWhile (· ≠ ':')
    let value := (line.dropWhile (· ≠ ':')).drop 1
    if field ≠ ['d', 'a', 't', 'a'] then none
    else if value.head? = some ' ' then some (value.drop 1)
    else some value

def eventValues (event : List Char) : List (List Char) := (event.splitOn '\n').filterMap dataValue

/-- A dictionary with `"jsonrpc": "2.0"`. -/
def isMessage : Json → Bool
  | .obj fields => (fields.lookup "jsonrpc").any fun version => version.pyEq (.str "2.0")
  | _ => false

/-- `payload.get("id") == expected_id`. -/
def hasId (expectedId : Int) : Json → Bool
  | .obj fields => (fields.lookup "id").any fun id => id.pyEq (.int expectedId)
  | _ => false

def hasError : Json → Bool
  | .obj fields => (fields.lookup "error").isSome
  | _ => false

/-- Whether a payload of a stream is returned. -/
def isSought (expectedId : Option Int) (payload : Json) : Bool :=
  isMessage payload && expectedId.all fun id => hasId id payload

/-- The loop over the events, as the data of each; `none` when it returns nothing. -/
def searchEvents (expectedId : Option Int) : List (List (List Char)) → Except RpcError (Option Json)
  | [] => .ok none
  | values :: rest =>
    if values = [] then searchEvents expectedId rest
    else
      match lib.loads (['\n'].intercalate values) with
      | .value payload => if isSought expectedId payload then .ok (some payload) else searchEvents expectedId rest
      | .decodeError => searchEvents expectedId rest
      | .valueError => .error (.connection "MCP response is invalid")
      | .raises => .error .raises

/-- `_parse_mcp_payload`; `None` is `null`, which `json.loads` also gives. -/
def parseMcpPayload (raw : List UInt8) (contentType : Option String) (expectedId : Option Int) :
    Except RpcError Json :=
  match Utf8.decode raw with
  | none => .error (.connection "MCP response is invalid")
  | some text =>
    if isEventStream lib contentType then do
      let events := (splitEvents false (universalNewlines text)).map eventValues
      match ← searchEvents lib expectedId events with
      | some payload => .ok payload
      | none => if events.all (· = []) then .ok .null else .error (.connection "MCP response is invalid")
    else
      match lib.loads text with
      | .value payload => .ok payload
      | .raises => .error .raises
      | _ => .error (.connection "MCP response is invalid")

/-- `_rpc` on the response to a request. -/
def rpc (response : Response) (expectedId : Option Int) (requirePayload : Bool) :
    Except RpcError (Json × List (String × String)) := do
  requireSuccess response.statusCode
  let raw ← readBody response
  if raw = [] ∧ requirePayload = false then return (.obj [], response.headers)
  let payload ← parseMcpPayload lib raw (headerOf lib response.headers "Content-Type") expectedId
  if (payload matches .null) ∧ requirePayload = false then return (.obj [], response.headers)
  if isMessage payload = false ∨ hasError payload = true then .error (.connection "MCP response is invalid")
  return (payload, response.headers)

/-! ## The events of a stream -/

theorem dataValue_eq (line : List Char) : dataValue line = EventSource.dataOf line := by
  unfold dataValue EventSource.dataOf
  split
  · next h =>
    rcases h with rfl | h
    · rfl
    · cases line with
      | nil => rfl
      | cons c rest =>
        obtain rfl : c = ':' := by simpa using h
        rfl
  · next h =>
    rw [not_or] at h
    split
    · exact absurd rfl h.1
    · exact absurd rfl h.2
    · generalize (line.dropWhile (· ≠ ':')).drop 1 = value
      by_cases hfield : line.takeWhile (· ≠ ':') = ['d', 'a', 't', 'a']
      · rw [if_neg (not_not.mpr hfield), if_pos hfield]
        unfold EventSource.fieldValue
        split
        · next hblank =>
          split
          · rfl
          · next hother =>
            cases value with
            | nil => simp at hblank
            | cons c rest =>
              obtain rfl : c = ' ' := by simpa using hblank
              exact absurd rfl (hother rest)
        · next hplain =>
          split
          · simp at hplain
          · rfl
      · rw [if_pos hfield, if_neg hfield]

theorem dataBlocks_line (values : List (List Char)) {line : List Char} (h : line ≠ []) (rest : List (List Char)) :
    EventSource.dataBlocks values (line :: rest) =
      EventSource.dataBlocks (values ++ (EventSource.dataOf line).toList) rest := by
  cases line with
  | nil => exact absurd rfl h
  | cons c tail => rfl

theorem eventValues_break {line : List Char} (h : '\n' ∉ line) (rest : List Char) :
    eventValues (line ++ '\n' :: rest) = (EventSource.dataOf line).toList ++ eventValues rest := by
  unfold eventValues
  rw [splitOn_terminated h, List.filterMap_cons, dataValue_eq]
  cases EventSource.dataOf line <;> rfl

theorem eventValues_line {line : List Char} (h : '\n' ∉ line) :
    eventValues line = (EventSource.dataOf line).toList := by
  have hsplit := splitOn_prepend h []
  rw [List.append_nil] at hsplit
  unfold eventValues
  rw [hsplit]
  cases hdata : EventSource.dataOf line <;> simp [dataValue_eq, hdata]

/-- The values of the events, where `values` and `line` come before the first. -/
def openBlocks (values : List (List Char)) (line : List Char) : List (List Char) → List (List (List Char))
  | [] => []
  | event :: rest => ((values ++ eventValues (line ++ event)) :: rest.map eventValues).filter (· ≠ [])

theorem openBlocks_modifyHead (values : List (List Char)) (line more : List Char) (events : List (List Char)) :
    openBlocks values line (events.modifyHead (more ++ ·)) = openBlocks values (line ++ more) events := by
  cases events with
  | nil => rfl
  | cons event rest => simp [openBlocks]

/-- A break after a line ends it. -/
theorem openBlocks_break (values : List (List Char)) {line : List Char} (h : '\n' ∉ line)
    (events : List (List Char)) :
    openBlocks values line (events.modifyHead ('\n' :: ·)) =
      openBlocks (values ++ (EventSource.dataOf line).toList) [] events := by
  cases events with
  | nil => rfl
  | cons event rest => simp [openBlocks, eventValues_break h]

theorem filter_block (block : List (List Char)) (rest : List (List (List Char))) :
    (block :: rest).filter (· ≠ []) = (if block = [] then [] else [block]) ++ rest.filter (· ≠ []) := by
  by_cases h : block = [] <;> simp [h]

/-- An event that ends with a line. -/
theorem openBlocks_ended (values : List (List Char)) {line : List Char} (h : '\n' ∉ line)
    (events : List (List Char)) :
    openBlocks values line ([] :: events) =
      (if values ++ (EventSource.dataOf line).toList = [] then [] else [values ++ (EventSource.dataOf line).toList]) ++
        (events.map eventValues).filter (· ≠ []) := by
  rw [openBlocks, List.append_nil, eventValues_line h, filter_block]

/-- What the events of a text give, in the middle of a line and after an event has ended. -/
structure SplitAlike (text : List Char) : Prop where
  within (values : List (List Char)) (line : List Char) (hline : line ≠ []) (hbreak : '\n' ∉ line) :
    openBlocks values line (splitEvents false text) =
      EventSource.dataBlocks values ((text.splitOn '\n').modifyHead (line ++ ·))
  after : ((splitEvents true text).map eventValues).filter (· ≠ []) = EventSource.dataBlocks [] (text.splitOn '\n')

theorem splitOn_break (text : List Char) : ('\n' :: text).splitOn '\n' = [] :: text.splitOn '\n' := by
  simp [List.splitOn_cons_eq_if_modifyHead]

theorem splitOn_char {c : Char} (h : c ≠ '\n') (text : List Char) :
    (c :: text).splitOn '\n' = (text.splitOn '\n').modifyHead ([c] ++ ·) := by
  simp [List.splitOn_cons_eq_if_modifyHead, h]

theorem splitEvents_char {c : Char} (h : c ≠ '\n') (within : Bool) (text : List Char) :
    splitEvents within (c :: text) = (splitEvents false text).modifyHead ([c] ++ ·) := by
  rw [splitEvents]
  · rfl
  · rintro - rfl
    exact h rfl
  · rintro _ - rfl
    exact absurd rfl h

example : splitEvents false ['a', '\n', '\n', 'b'] = [['a'], ['b']] := by simp [splitEvents]

theorem SplitAlike.char {c : Char} {text : List Char} (h : SplitAlike text) (hc : c ≠ '\n') :
    SplitAlike (c :: text) where
  within values line hline hbreak := by
    have hmore := h.within values (line ++ [c]) (by simp) (by simpa using ⟨hbreak, hc.symm⟩)
    have hjoin : ((line ++ ·) ∘ ([c] ++ ·) : List Char → List Char) = (line ++ [c] ++ ·) := by
      funext rest
      simp
    rw [splitEvents_char hc, splitOn_char hc, openBlocks_modifyHead, hmore, List.modifyHead_modifyHead, hjoin]
  after := by
    have hmore := h.within [] [c] (by simp) (by simpa using hc.symm)
    rw [splitEvents_char hc, splitOn_char hc, ← hmore]
    cases splitEvents false text <;> simp [openBlocks]

theorem splitAlike_nil : SplitAlike [] where
  within values line hline hbreak := by
    rw [splitEvents, openBlocks_ended _ hbreak, List.splitOn_nil, List.modifyHead_cons, List.append_nil,
      dataBlocks_line _ hline, EventSource.dataBlocks]
    simp
  after := by
    rw [splitEvents, List.splitOn_nil, EventSource.dataBlocks_blank]
    rfl

/-- Two breaks end an event. -/
theorem SplitAlike.breaks {text : List Char} (h : SplitAlike text) : SplitAlike ('\n' :: '\n' :: text) where
  within values line hline hbreak := by
    rw [splitEvents, openBlocks_ended _ hbreak, h.after, splitOn_break, splitOn_break, List.modifyHead_cons,
      List.append_nil, dataBlocks_line _ hline, EventSource.dataBlocks_blank]
  after := by
    rw [splitEvents, splitEvents, h.after, splitOn_break, splitOn_break, EventSource.dataBlocks_blank,
      EventSource.dataBlocks_blank]
    rfl

theorem splitEvents_break {text : List Char} (hnext : text.head? ≠ some '\n') :
    splitEvents false ('\n' :: text) = (splitEvents false text).modifyHead ('\n' :: ·) := by
  rw [splitEvents]
  · rintro ⟨⟩
  · rintro more - - rfl
    simp at hnext

theorem splitAlike_break : SplitAlike ['\n'] where
  within values line hline hbreak := by
    rw [splitEvents_break (by simp), openBlocks_break _ hbreak, splitEvents, openBlocks_ended _ (by simp), splitOn_break,
      List.modifyHead_cons, List.append_nil, dataBlocks_line _ hline, List.splitOn_nil,
      EventSource.dataBlocks_blank]
    simp [EventSource.dataOf, EventSource.dataBlocks]
  after := by
    rw [splitEvents, splitEvents, splitOn_break, List.splitOn_nil, EventSource.dataBlocks_blank,
      EventSource.dataBlocks_blank]
    rfl

/-- One break ends a line. -/
theorem SplitAlike.lineBreak {c : Char} {text : List Char} (h : SplitAlike text) (hc : c ≠ '\n') :
    SplitAlike ('\n' :: c :: text) where
  within values line hline hbreak := by
    have hmore := h.within (values ++ (EventSource.dataOf line).toList) [c] (by simp) (by simpa using hc.symm)
    rw [splitEvents_break (by simpa using hc), openBlocks_break _ hbreak, splitEvents_char hc, openBlocks_modifyHead,
      List.nil_append, hmore, splitOn_break, List.modifyHead_cons, List.append_nil, dataBlocks_line _ hline,
      splitOn_char hc]
  after := by
    rw [splitEvents, (h.char hc).after, splitOn_break, EventSource.dataBlocks_blank]
    rfl

theorem splitAlike : ∀ text : List Char, SplitAlike text
  | [] => splitAlike_nil
  | [c] => by
    by_cases hc : c = '\n'
    · rw [hc]
      exact splitAlike_break
    · exact splitAlike_nil.char hc
  | c :: d :: text => by
    by_cases hc : c = '\n'
    · subst hc
      by_cases hd : d = '\n'
      · subst hd
        exact (splitAlike text).breaks
      · exact (splitAlike text).lineBreak hd
    · exact (splitAlike (d :: text)).char hc

/-- The values of the events are the data lines of the blocks between empty lines. -/
theorem eventValues_splitEvents (text : List Char) :
    ((splitEvents false text).map eventValues).filter (· ≠ []) =
      EventSource.dataBlocks [] (text.splitOn '\n') := by
  cases text with
  | nil => exact (splitAlike []).after
  | cons c rest =>
    by_cases hc : c = '\n'
    · subst hc
      -- a break in front adds an empty line to the first event
      rw [splitOn_break, EventSource.dataBlocks_blank, if_pos rfl, List.nil_append, ← (splitAlike rest).after]
      cases rest with
      | nil => rfl
      | cons d more =>
        by_cases hd : d = '\n'
        · subst hd
          rw [splitEvents, splitEvents, List.map_cons, filter_block]
          rfl
        · rw [splitEvents_break (by simpa using hd), splitEvents_char hd, splitEvents_char hd]
          cases splitEvents false more with
          | nil => rfl
          | cons event events =>
            have hempty : eventValues ('\n' :: ([d] ++ event)) = eventValues ([d] ++ event) :=
              @eventValues_break [] (by simp) _
            simp only [List.modifyHead_cons, List.map_cons, hempty]
    · rw [← (splitAlike (c :: rest)).after, splitEvents_char hc, splitEvents_char hc]

theorem dataBlocks_closed (values lines : List (List Char)) :
    EventSource.dataBlocks values (lines ++ [[]]) = EventSource.dataBlocks values lines := by
  induction lines generalizing values with
  | nil =>
    rw [List.nil_append, EventSource.dataBlocks_blank, EventSource.dataBlocks, EventSource.dataBlocks, if_pos rfl,
      List.append_nil]
  | cons line rest ih =>
    rw [List.cons_append]
    cases line with
    | nil => rw [EventSource.dataBlocks_blank, EventSource.dataBlocks_blank, ih]
    | cons c tail => rw [dataBlocks_line _ (by simp), dataBlocks_line _ (by simp), ih]

theorem splitLines_eq_nil {text : List Char} : splitLines text = [] ↔ text = [] := by
  cases text with
  | nil => simp [splitLines]
  | cons c rest =>
    unfold splitLines
    split
    · simp
    · split <;> simp

/-- A last break ends a line for `splitLines` and begins an empty one for `splitOn`. -/
theorem splitOn_cases (text : List Char) :
    text.splitOn '\n' = splitLines text ∨ text.splitOn '\n' = splitLines text ++ [[]] := by
  induction text with
  | nil => exact .inr rfl
  | cons c rest ih =>
    by_cases hc : c = '\n'
    · subst hc
      rw [splitOn_break, splitLines, if_pos rfl]
      exact ih.imp (congrArg _) (congrArg _)
    · rw [splitOn_char hc, splitLines, if_neg hc]
      cases hlines : splitLines rest with
      | nil =>
        rw [splitLines_eq_nil.mp hlines]
        exact .inl rfl
      | cons line lines =>
        rw [hlines] at ih
        rcases ih with heq | heq
        · rw [heq]
          exact .inl rfl
        · rw [heq]
          exact .inr rfl

/-- The data of the events that have any. -/
def eventData (text : List Char) : List (List Char) :=
  (((splitEvents false (universalNewlines text)).map eventValues).filter (· ≠ [])).map (['\n'].intercalate ·)

/-- The client sees the events that the format defines, the last one closed. -/
theorem eventData_eq (text : List Char) :
    eventData text = (EventSource.allMessages text).map Message.data := by
  have hlines : EventSource.dataBlocks [] ((universalNewlines text).splitOn '\n') =
      EventSource.dataBlocks [] (splitLines (universalNewlines text)) := by
    rcases splitOn_cases (universalNewlines text) with heq | heq
    · rw [heq]
    · rw [heq, dataBlocks_closed]
  unfold eventData EventSource.allMessages
  rw [eventValues_splitEvents, hlines, EventSource.dispatch_data _ _ [] rfl]

/-! ## The search -/

/-- Whether the search ends at an event. -/
def decides (expectedId : Option Int) (data : List Char) : Bool :=
  match lib.loads data with
  | .value payload => isSought expectedId payload
  | .decodeError => false
  | _ => true

theorem searchEvents_eq (expectedId : Option Int) (events : List (List (List Char))) :
    searchEvents lib expectedId events =
      match ((events.filter (· ≠ [])).map (['\n'].intercalate ·)).find? (decides lib expectedId) with
      | none => .ok none
      | some data =>
        match lib.loads data with
        | .value payload => .ok (some payload)
        | .valueError => .error (.connection "MCP response is invalid")
        | .raises => .error .raises
        | .decodeError => .ok none := by
  induction events with
  | nil => rfl
  | cons values rest ih =>
    unfold searchEvents
    by_cases hvalues : values = []
    · rw [if_pos hvalues, ih, filter_block, if_pos hvalues, List.nil_append]
    · rw [if_neg hvalues, filter_block, if_neg hvalues, List.singleton_append, List.map_cons, List.find?_cons]
      cases hloads : lib.loads (['\n'].intercalate values) with
      | value payload =>
        by_cases hsought : isSought expectedId payload = true
        · simp [decides, hloads, hsought]
        · simp [decides, hloads, hsought, ih]
      | decodeError => simp [decides, hloads, ih]
      | valueError => simp [decides, hloads]
      | raises => simp [decides, hloads]

/-- The payload that the loop returns. -/
theorem searchEvents_ok_some {expectedId : Option Int} {text : List Char} {payload : Json} :
    searchEvents lib expectedId ((splitEvents false (universalNewlines text)).map eventValues) = .ok (some payload) ↔
      ∃ data, (eventData text).find? (decides lib expectedId) = some data ∧ lib.loads data = .value payload := by
  rw [searchEvents_eq, ← eventData]
  cases (eventData text).find? (decides lib expectedId) with
  | none => simp
  | some data => cases hloads : lib.loads data <;> simp [hloads]

/-! ## Replies -/

/-- A number of JSON that is `id`. -/
def SameNumber (id : Int) : Json → Prop
  | .int n => n = id
  | .float q => q = id
  | _ => False

/-- A JSON-RPC 2.0 message with the id of the request and no error. -/
structure IsReply (id : Int) (fields : List (String × Json)) : Prop where
  version : fields.lookup "jsonrpc" = some (.str "2.0")
  own : ∃ value, fields.lookup "id" = some value ∧ SameNumber id value
  noError : fields.lookup "error" = none

def Reply (id : Int) (payload : Json) : Prop := ∃ fields, payload = .obj fields ∧ IsReply id fields

theorem isMessage_obj {fields : List (String × Json)} :
    isMessage (.obj fields) = true ↔ fields.lookup "jsonrpc" = some (.str "2.0") := by
  rw [isMessage]
  generalize fields.lookup "jsonrpc" = found
  cases found with
  | none => simp
  | some value => cases value <;> simp [Json.pyEq, Json.number?]

theorem SameNumber.pyEq {id : Int} {value : Json} (h : SameNumber id value) : value.pyEq (.int id) = true := by
  cases value with
  | int n =>
    obtain rfl : n = id := h
    simp [Json.pyEq, Json.number?]
  | float q =>
    have hq : q = id := h
    simp [Json.pyEq, Json.number?, hq]
  | _ => exact h.elim

theorem Reply.isMessage {id : Int} {payload : Json} (h : Reply id payload) : isMessage payload = true := by
  obtain ⟨fields, rfl, hreply⟩ := h
  exact isMessage_obj.mpr hreply.version

theorem Reply.noError {id : Int} {payload : Json} (h : Reply id payload) : hasError payload = false := by
  obtain ⟨fields, rfl, hreply⟩ := h
  simp [hasError, hreply.noError]

theorem Reply.isSought {id : Int} {payload : Json} (h : Reply id payload) : isSought (some id) payload = true := by
  have hmessage := h.isMessage
  obtain ⟨fields, rfl, hreply⟩ := h
  obtain ⟨value, hlookup, hsame⟩ := hreply.own
  simp [Connector.isSought, hmessage, hasId, hlookup, hsame.pyEq]

/-! ## What the client accepts -/

theorem rpc_ok_iff {response : Response} {id : Int} {answer : Json × List (String × String)} :
    rpc lib response (some id) true = .ok answer ↔
      requireSuccess response.statusCode = .ok () ∧ ∃ raw, readBody response = .ok raw ∧
        parseMcpPayload lib raw (headerOf lib response.headers "Content-Type") (some id) = .ok answer.1 ∧
        isMessage answer.1 = true ∧ hasError answer.1 = false ∧ answer.2 = response.headers := by
  unfold rpc
  simp only [Bool.true_eq_false, and_false, if_false, bind_eq_ok_iff, error_bind, ite_error_eq_ok_iff, pure_eq_ok_iff,
    not_or, Bool.not_eq_false, Bool.not_eq_true]
  constructor
  · rintro ⟨_, hsuccess, raw, hbody, payload, hparse, ⟨hmessage, herror⟩, rfl⟩
    exact ⟨hsuccess, raw, hbody, hparse, hmessage, herror, rfl⟩
  · rintro ⟨hsuccess, raw, hbody, hparse, hmessage, herror, hheaders⟩
    exact ⟨(), hsuccess, raw, hbody, answer.1, hparse, ⟨hmessage, herror⟩, by rw [← hheaders]⟩

theorem parseMcpPayload_text {response : Response} {raw : List UInt8} {text : List Char} {id : Int} {payload : Json}
    (htext : Utf8.decode raw = some text)
    (hstream : isEventStream lib (headerOf lib response.headers "Content-Type") = false) :
    parseMcpPayload lib raw (headerOf lib response.headers "Content-Type") (some id) = .ok payload ↔
      lib.loads text = .value payload := by
  unfold parseMcpPayload
  simp only [htext, hstream, Bool.false_eq_true, if_false]
  cases lib.loads text <;> simp

/-- A stream is accepted with the payload its search ends at. -/
theorem parseMcpPayload_stream {response : Response} {raw : List UInt8} {text : List Char} {id : Int}
    {payload : Json} (htext : Utf8.decode raw = some text)
    (hstream : isEventStream lib (headerOf lib response.headers "Content-Type") = true)
    (hmessage : isMessage payload = true) :
    parseMcpPayload lib raw (headerOf lib response.headers "Content-Type") (some id) = .ok payload ↔
      ∃ data, (eventData text).find? (decides lib (some id)) = some data ∧ lib.loads data = .value payload := by
  rw [← searchEvents_ok_some]
  unfold parseMcpPayload
  simp only [htext, hstream, if_true]
  cases searchEvents lib (some id) ((splitEvents false (universalNewlines text)).map eventValues) with
  | error e => simp [error_bind]
  | ok found =>
    rw [ok_bind]
    cases found with
    | some payload' => simp
    | none =>
      have hnull : payload ≠ .null := by
        rintro rfl
        simp [isMessage] at hmessage
      dsimp only
      split <;> simp [hnull.symm]

/-- What the client promises of the replies to one request. -/
structure RepliesMatched (response : Response) (id : Int) : Prop where
  accepted : ∀ answer, rpc lib response (some id) true = .ok answer → Reply id answer.1
  found : ∀ raw text, requireSuccess response.statusCode = .ok () → readBody response = .ok raw →
    Utf8.decode raw = some text → isEventStream lib (headerOf lib response.headers "Content-Type") = true →
    ∀ message ∈ EventSource.allMessages text, ∀ payload, lib.loads message.data = .value payload →
      Reply id payload → ∃ answer, rpc lib response (some id) true = .ok answer

/-- A text that is no error-free message of another request; a stream whose search ends at a reply, or at
an error or a text that `json.loads` gives up on where no event is a reply. -/
def Unmistakable (response : Response) (id : Int) : Prop :=
  ∀ raw text, requireSuccess response.statusCode = .ok () → readBody response = .ok raw →
    Utf8.decode raw = some text →
    if isEventStream lib (headerOf lib response.headers "Content-Type") then
      ∀ data, (eventData text).find? (decides lib (some id)) = some data →
        (∃ payload, lib.loads data = .value payload ∧ Reply id payload) ∨
        ((∀ payload, lib.loads data = .value payload → hasError payload = true) ∧
          ∀ other ∈ eventData text, ∀ payload, lib.loads other = .value payload → ¬ Reply id payload)
    else ∀ payload, lib.loads text = .value payload → isMessage payload = true → hasError payload = false →
      Reply id payload

theorem decides_of_reply {id : Int} {data : List Char} {payload : Json} (hloads : lib.loads data = .value payload)
    (h : Reply id payload) : decides lib (some id) data = true := by
  unfold decides
  rw [hloads]
  exact h.isSought

theorem isMessage_of_decides {id : Int} {data : List Char} {payload : Json}
    (hloads : lib.loads data = .value payload) (h : decides lib (some id) data = true) : isMessage payload = true := by
  unfold decides at h
  rw [hloads] at h
  exact (Bool.and_eq_true_iff.mp h).1

/-- The client matches replies to a request exactly where no other message can be mistaken for one. -/
theorem replies_matched_iff (response : Response) (id : Int) :
    RepliesMatched lib response id ↔ Unmistakable lib response id := by
  constructor
  · intro h raw text hsuccess hbody htext
    have hrpc (payload : Json)
        (hparse : parseMcpPayload lib raw (headerOf lib response.headers "Content-Type") (some id) = .ok payload)
        (hmessage : isMessage payload = true) (herror : hasError payload = false) : Reply id payload :=
      h.accepted (payload, response.headers)
        ((rpc_ok_iff lib).mpr ⟨hsuccess, raw, hbody, hparse, hmessage, herror, rfl⟩)
    split
    · next hstream =>
      intro data hfind
      have hdecides := List.find?_some hfind
      by_cases hgood : ∃ payload, lib.loads data = .value payload ∧ hasError payload = false
      · obtain ⟨payload, hloads, herror⟩ := hgood
        have hmessage := isMessage_of_decides lib hloads hdecides
        exact .inl ⟨payload, hloads,
          hrpc payload ((parseMcpPayload_stream lib htext hstream hmessage).mpr ⟨data, hfind, hloads⟩) hmessage herror⟩
      · refine .inr ⟨fun payload hloads => ?_, fun other hother payload hloads hreply => hgood ?_⟩
        · by_contra herror
          exact hgood ⟨payload, hloads, by simpa using herror⟩
        · -- a reply is accepted, and what is accepted is where the search ends
          rw [eventData_eq, List.mem_map] at hother
          obtain ⟨message, hmem, rfl⟩ := hother
          obtain ⟨answer, hanswer⟩ := h.found raw text hsuccess hbody htext hstream message hmem payload hloads hreply
          obtain ⟨-, raw', hbody', hparse, hmessage, herror, -⟩ := (rpc_ok_iff lib).mp hanswer
          obtain rfl : raw = raw' := by simpa [hbody] using hbody'
          obtain ⟨data', hfind', hloads'⟩ := (parseMcpPayload_stream lib htext hstream hmessage).mp hparse
          obtain rfl : data = data' := Option.some.inj (hfind.symm.trans hfind')
          exact ⟨answer.1, hloads', herror⟩
    · next hstream =>
      intro payload hloads hmessage herror
      exact hrpc payload ((parseMcpPayload_text lib htext (Bool.not_eq_true _ ▸ hstream)).mpr hloads) hmessage herror
  · intro h
    constructor
    · intro answer hanswer
      obtain ⟨hsuccess, raw, hbody, hparse, hmessage, herror, -⟩ := (rpc_ok_iff lib).mp hanswer
      cases htext : Utf8.decode raw with
      | none => simp [parseMcpPayload, htext] at hparse
      | some text =>
        have hclear := h raw text hsuccess hbody htext
        split at hclear
        · next hstream =>
          obtain ⟨data, hfind, hloads⟩ := (parseMcpPayload_stream lib htext hstream hmessage).mp hparse
          rcases hclear data hfind with ⟨payload, hpayload, hreply⟩ | ⟨herrors, -⟩
          · obtain rfl : answer.1 = payload := by simpa [hloads] using hpayload
            exact hreply
          · rw [herrors answer.1 hloads] at herror
            cases herror
        · next hstream =>
          exact hclear answer.1 ((parseMcpPayload_text lib htext (Bool.not_eq_true _ ▸ hstream)).mp hparse) hmessage
            herror
    · intro raw text hsuccess hbody htext hstream message hmem payload hloads hreply
      have hdata : message.data ∈ eventData text := eventData_eq text ▸ List.mem_map_of_mem hmem
      have hclear := h raw text hsuccess hbody htext
      rw [if_pos hstream] at hclear
      cases hfind : (eventData text).find? (decides lib (some id)) with
      | none =>
        have hnone := List.find?_eq_none.mp hfind message.data hdata
        exact absurd (decides_of_reply lib hloads hreply) hnone
      | some data =>
        rcases hclear data hfind with ⟨own, hown, hfirst⟩ | ⟨-, hnone⟩
        · exact ⟨(own, response.headers), (rpc_ok_iff lib).mpr ⟨hsuccess, raw, hbody,
            (parseMcpPayload_stream lib htext hstream hfirst.isMessage).mpr ⟨data, hfind, hown⟩, hfirst.isMessage,
            hfirst.noError, rfl⟩⟩
        · exact absurd hreply (hnone message.data hdata payload hloads)

/-! ## A reply to another request -/

def foreignReply : Json := .obj [("jsonrpc", .str "2.0"), ("id", .int 2), ("result", .obj [])]

/-- `json.loads` on texts without floats. -/
def plainLibrary : McpLibrary where
  loads text := ((readJson (fun _ => none) text).map Loads.value).getD .decodeError
  lower text := String.ofList (text.toList.map Char.toLower)

/-- A response whose one chunk is the text of `foreignReply`. -/
def foreignResponse : Response :=
  ⟨200, [("Content-Type", "application/json")], [Utf8.encode (foreignReply.write (utf8Spelling fun _ => []))]⟩

theorem foreign_reply_accepted : ¬ RepliesMatched plainLibrary foreignResponse 1 := by
  have hspelling : (utf8Spelling fun _ => []).Faithful (fun _ => none) (fun _ => False) :=
    ⟨fun c h => by simpa [utf8Spelling] using h, fun _ h => h.elim, fun _ h => h.elim⟩
  have hloads : plainLibrary.loads (foreignReply.write (utf8Spelling fun _ => [])) = .value foreignReply := by
    have hwf : foreignReply.WellFormed fun _ => False := by
      simp [foreignReply, Json.WellFormed, Json.WellFormedFields]
    simp [plainLibrary, readJson_write hspelling hwf]
  have hbody : readBody foreignResponse = .ok (Utf8.encode (foreignReply.write (utf8Spelling fun _ => []))) := by
    decide +kernel
  have hstream : isEventStream plainLibrary (headerOf plainLibrary foreignResponse.headers "Content-Type") = false := by
    decide +kernel
  intro h
  have haccepted := h.accepted (foreignReply, foreignResponse.headers) ((rpc_ok_iff plainLibrary).mpr
    ⟨rfl, _, hbody, (parseMcpPayload_text plainLibrary (Utf8.decode_encode _) hstream).mpr hloads, by decide,
      by decide, rfl⟩)
  obtain ⟨fields, hfields, hreply⟩ := haccepted
  obtain ⟨value, hvalue, hsame⟩ := hreply.own
  obtain rfl := Json.obj.inj hfields
  obtain rfl : Json.int 2 = value := Option.some.inj hvalue
  exact absurd hsame (by simp [SameNumber])

end SmartTest.Connector
