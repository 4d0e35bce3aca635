import SmartTest.Connector.Replies
import SmartTest.Connector.Repository
import SmartTest.Lib.JsonSize

/-!
# Discovery of tools

`ConnectorClient._test_mcp` of `services/api/connector_client.py` against an arbitrary server. What
it gives are the tools of the server's pages, each page asked for with the cursor of the one before.
-/

open SmartTest.Lib

namespace SmartTest.Connector

/-! ## The client -/

/-- What a request says, in its body and in the two headers that are not the same in all requests. -/
structure McpRequest where
  id : Option Int
  method : String
  cursor : Option String
  protocol : Option String
  session : Option String

/-- A server answers a request as it likes, by all the requests before; or the request fails. -/
abbrev McpServer := List McpRequest → McpRequest → Except RpcError Response

def TOOLS_SIZE_LIMIT : Nat := 4 * 1048576

def PROTOCOLS : List String := ["2025-11-25", "2025-03-26", "2024-11-05"]

def toolsInvalid : RpcError := .connection "MCP tools response is invalid"

mutual

/-- How many commas and colons a text has between its values, each with a blank after it by default. -/
def separators : Json → Nat
  | .arr items => items.length - 1 + separatorsItems items
  | .obj fields => fields.length - 1 + fields.length + separatorsFields fields
  | _ => 0

def separatorsItems : List Json → Nat
  | [] => 0
  | value :: rest => separators value + separatorsItems rest

def separatorsFields : List (String × Json) → Nat
  | [] => 0
  | (_, value) :: rest => separators value + separatorsFields rest

end

variable (lib : McpLibrary) (float : Rat → List Char) (server : McpServer)

/-- `_safe_tool`. -/
def safeTool : Json → Except RpcError ConnectorTool
  | .obj fields =>
    match fields.lookup "name", (fields.lookup "description").getD (.str ""),
        (fields.lookup "inputSchema").getD (.obj []) with
    | some (.str name), .str description, .obj schema =>
      if strip name = "" ∨ name.length > 255 ∨ description.length > 10000 then .error toolsInvalid
      else if Json.bytes (utf8Spelling float) (.obj schema) + separators (.obj schema) > 65536 then .error toolsInvalid
      else .ok ⟨strip name, description, .obj schema⟩
    | _, _, _ => .error toolsInvalid
  | _ => .error toolsInvalid

/-- The bytes of a tool, as they are counted. -/
def toolBytes (tool : ConnectorTool) : Nat :=
  Json.bytes (utf8Spelling float)
    (.obj [("name", .str tool.name), ("description", .str tool.description), ("inputSchema", tool.inputSchema)])

/-- The loop over the tools of a page. -/
def addTools (tools : List ConnectorTool) (serializedSize : Nat) :
    List Json → Except RpcError (List ConnectorTool × Nat)
  | [] => .ok (tools, serializedSize)
  | item :: rest => do
    let tool ← safeTool float item
    if serializedSize + toolBytes float tool > TOOLS_SIZE_LIMIT then
      .error (.connection "MCP tool discovery exceeded its aggregate size limit")
    addTools (tools ++ [tool]) (serializedSize + toolBytes float tool) rest

/-- `payload["result"]["tools"]` and the `nextCursor` beside it. -/
def pageOf : Json → Option (List Json × Json)
  | .obj fields =>
    match fields.lookup "result" with
    | some (.obj page) =>
      match page.lookup "tools" with
      | some (.arr items) => some (items, (page.lookup "nextCursor").getD .null)
      | _ => none
    | _ => none
  | _ => none

def cursorOf : Json → Except RpcError (Option String)
  | .null => .ok none
  | .str next => if next = "" ∨ next.length > 2048 then .error toolsInvalid else .ok (some next)
  | _ => .error toolsInvalid

/-- A request and its reply. -/
def call (earlier : List McpRequest) (request : McpRequest) (requirePayload : Bool) :
    Except RpcError (Json × List (String × String)) := do
  let response ← server earlier request
  rpc lib response request.id requirePayload

variable (protocol : String) (session : Option String)

def listRequest (cursor : Option String) (id : Int) : McpRequest :=
  ⟨some id, "tools/list", cursor, some protocol, session⟩

/-- The loop over the pages, for the ids that are left. -/
def listTools (earlier : List McpRequest) (cursor : Option String) (tools : List ConnectorTool) (serializedSize : Nat) :
    List Int → Except RpcError (List ConnectorTool)
  | [] => .error (.connection "MCP tool discovery exceeded its page limit")
  | id :: ids => do
    let (payload, _) ← call lib server earlier (listRequest protocol session cursor id) true
    match pageOf payload with
    | none => .error toolsInvalid
    | some (items, last) => do
      let (tools, serializedSize) ← addTools float tools serializedSize items
      if tools.length > 1000 then .error (.connection "MCP tool discovery exceeded its limit")
      match ← cursorOf last with
      | none => .ok tools
      | some next =>
        listTools (earlier ++ [listRequest protocol session cursor id]) (some next) tools serializedSize ids

def initializeRequest : McpRequest := ⟨some 1, "initialize", none, none, none⟩

def initializedNotification : McpRequest := ⟨none, "notifications/initialized", none, some protocol, session⟩

/-- `initialized["result"]["protocolVersion"]`. A list or a dictionary has no hash to be looked up with. -/
def protocolOf : Json → Except RpcError String
  | .obj fields =>
    match fields.lookup "result" with
    | some (.obj result) =>
      match result.lookup "protocolVersion" with
      | some (.str version) =>
        if version ∈ PROTOCOLS then .ok version else .error (.connection "MCP initialize response is invalid")
      | some (.arr _) | some (.obj _) => .error .raises
      | _ => .error (.connection "MCP initialize response is invalid")
    | _ => .error (.connection "MCP initialize response is invalid")
  | _ => .error (.connection "MCP initialize response is invalid")

/-- The ids of the requests for pages, 2 to 101. -/
def pageIds : List Int := (List.range 100).map fun n => (n : Int) + 2

/-- `_test_mcp`. -/
def testMcp : Except RpcError (List ConnectorTool) := do
  let (initialized, headers) ← call lib server [] initializeRequest true
  let protocol ← protocolOf initialized
  let session := (headerOf lib headers "Mcp-Session-Id").filter (· ≠ "")
  let _ ← call lib server [initializeRequest] (initializedNotification protocol session) false
  listTools lib float server protocol session [initializeRequest, initializedNotification protocol session] none [] 0
    pageIds

/-! ## One page -/

variable {lib float server protocol session}

theorem addTools_ok_iff {tools : List ConnectorTool} {size : Nat} (hsize : size ≤ TOOLS_SIZE_LIMIT) {items : List Json}
    {tools' : List ConnectorTool} {size' : Nat} : addTools float tools size items = .ok (tools', size') ↔
      ∃ added, List.Forall₂ (fun item tool => safeTool float item = .ok tool) items added ∧ tools' = tools ++ added ∧
        size' = size + (added.map (toolBytes float)).sum ∧ size' ≤ TOOLS_SIZE_LIMIT := by
  induction items generalizing tools size with
  | nil =>
    simp only [addTools, Except.ok.injEq, Prod.mk.injEq, List.forall₂_nil_left_iff]
    constructor
    · rintro ⟨rfl, rfl⟩
      exact ⟨[], rfl, by simp, by simp, hsize⟩
    · rintro ⟨_, rfl, rfl, rfl, -⟩
      simp
  | cons item rest ih =>
    simp only [addTools, bind_eq_ok_iff, error_bind, ite_error_eq_ok_iff, List.forall₂_cons_left_iff]
    constructor
    · rintro ⟨tool, htool, hfits, hrest⟩
      obtain ⟨added, hadded, rfl, rfl, hlimit⟩ := (ih (not_lt.mp hfits)).mp hrest
      exact ⟨tool :: added, ⟨tool, added, htool, hadded, rfl⟩, by simp, by simp [Nat.add_assoc], hlimit⟩
    · rintro ⟨_, ⟨tool, added, htool, hadded, rfl⟩, rfl, rfl, hlimit⟩
      have hsum : size + ((tool :: added).map (toolBytes float)).sum =
          size + toolBytes float tool + (added.map (toolBytes float)).sum := by
        rw [List.map_cons, List.sum_cons, Nat.add_assoc]
      have hfits : size + toolBytes float tool ≤ TOOLS_SIZE_LIMIT := by
        rw [hsum] at hlimit
        exact le_trans (Nat.le_add_right _ _) hlimit
      exact ⟨tool, htool, Nat.not_lt.mpr hfits, (ih hfits).mpr ⟨added, hadded, by simp, hsum, hlimit⟩⟩

variable (lib float server protocol session)

/-- The server answers the request with a page: these tools, and this cursor for the next one. -/
def ReadsPage (earlier : List McpRequest) (request : McpRequest) (added : List ConnectorTool) (next : Option String) :
    Prop :=
  ∃ payload headers items last, call lib server earlier request true = .ok (payload, headers) ∧
    pageOf payload = some (items, last) ∧
    List.Forall₂ (fun item tool => safeTool float item = .ok tool) items added ∧ cursorOf last = .ok next

/-- The pages of a server from a cursor on, up to the one without a cursor. -/
inductive Pages : List McpRequest → Option String → List Int → List (List ConnectorTool) → Prop where
  | last {earlier : List McpRequest} {cursor : Option String} {id : Int} {ids : List Int} {added : List ConnectorTool} :
      ReadsPage lib float server earlier (listRequest protocol session cursor id) added none →
      Pages earlier cursor (id :: ids) [added]
  | more {earlier : List McpRequest} {cursor : Option String} {id : Int} {ids : List Int} {added : List ConnectorTool}
      {next : String} {pages : List (List ConnectorTool)} :
      ReadsPage lib float server earlier (listRequest protocol session cursor id) added (some next) →
      Pages (earlier ++ [listRequest protocol session cursor id]) (some next) ids pages →
      Pages earlier cursor (id :: ids) (added :: pages)

variable {lib float server protocol session}

/-- No page is asked for twice, and none beyond the ids. -/
theorem Pages.length_le {earlier : List McpRequest} {cursor : Option String} {ids : List Int}
    {pages : List (List ConnectorTool)} (h : Pages lib float server protocol session earlier cursor ids pages) :
    pages.length ≤ ids.length := by
  induction h with
  | last _ => simp
  | more _ _ ih =>
    rw [List.length_cons, List.length_cons]
    omega

/-! ## All pages -/

theorem listTools_ok_iff {earlier : List McpRequest} {cursor : Option String} {tools : List ConnectorTool} {size : Nat}
    {ids : List Int} {result : List ConnectorTool} (hsize : size ≤ TOOLS_SIZE_LIMIT) :
    listTools lib float server protocol session earlier cursor tools size ids = .ok result ↔
      ∃ pages, Pages lib float server protocol session earlier cursor ids pages ∧ result = tools ++ pages.flatten ∧
        result.length ≤ 1000 ∧ size + (pages.flatten.map (toolBytes float)).sum ≤ TOOLS_SIZE_LIMIT := by
  induction ids generalizing earlier cursor tools size with
  | nil =>
    simp only [listTools, reduceCtorEq, false_iff]
    rintro ⟨pages, hpages, -⟩
    cases hpages
  | cons id ids ih =>
    unfold listTools
    rw [bind_eq_ok_iff]
    constructor
    · rintro ⟨⟨payload, headers⟩, hcall, h⟩
      simp only at h
      cases hpage : pageOf payload with
      | none => simp [hpage] at h
      | some page =>
        obtain ⟨items, last⟩ := page
        simp only [hpage, bind_eq_ok_iff, error_bind, ite_error_eq_ok_iff] at h
        obtain ⟨⟨tools', size'⟩, hadd, hlength, next, hcursor, h⟩ := h
        obtain ⟨added, hadded, rfl, rfl, hlimit⟩ := (addTools_ok_iff hsize).mp hadd
        have hreads : ReadsPage lib float server earlier (listRequest protocol session cursor id) added next :=
          ⟨payload, headers, items, last, hcall, hpage, hadded, hcursor⟩
        cases next with
        | none =>
          obtain rfl := Except.ok.inj h
          exact ⟨[added], .last hreads, by simp, not_lt.mp hlength, by simpa using hlimit⟩
        | some next =>
          obtain ⟨pages, hpages, rfl, htotal, hbytes⟩ := (ih hlimit).mp h
          exact ⟨added :: pages, .more hreads hpages, by simp, htotal, by simpa [Nat.add_assoc] using hbytes⟩
    · rintro ⟨pages, hpages, rfl, htotal, hbytes⟩
      cases hpages with
      | @last _ _ _ _ added hreads =>
        obtain ⟨payload, headers, items, last, hcall, hpage, hadded, hcursor⟩ := hreads
        simp only [List.flatten_cons, List.flatten_nil, List.append_nil] at htotal hbytes
        refine ⟨(payload, headers), hcall, ?_⟩
        simp only [hpage, bind_eq_ok_iff, error_bind, ite_error_eq_ok_iff]
        exact ⟨_, (addTools_ok_iff hsize).mpr ⟨added, hadded, rfl, rfl, hbytes⟩, not_lt.mpr htotal, none, hcursor,
          by simp⟩
      | @more _ _ _ _ added next pages hreads hpages =>
        obtain ⟨payload, headers, items, last, hcall, hpage, hadded, hcursor⟩ := hreads
        simp only [List.flatten_cons, List.map_append, List.sum_append, ← Nat.add_assoc] at htotal hbytes
        have hfits : size + (added.map (toolBytes float)).sum ≤ TOOLS_SIZE_LIMIT :=
          le_trans (Nat.le_add_right _ _) hbytes
        refine ⟨(payload, headers), hcall, ?_⟩
        simp only [hpage, bind_eq_ok_iff, error_bind, ite_error_eq_ok_iff]
        refine ⟨_, (addTools_ok_iff hsize).mpr ⟨added, hadded, rfl, rfl, hfits⟩, ?_, some next, hcursor, ?_⟩
        · simp only [List.length_append] at htotal ⊢
          omega
        · exact (ih hfits).mpr ⟨pages, hpages, by simp, htotal, hbytes⟩

variable (lib server) in
/-- What the first two requests agree on. -/
def Handshake (protocol : String) (session : Option String) : Prop :=
  ∃ initialized headers answer, call lib server [] initializeRequest true = .ok (initialized, headers) ∧
    protocolOf initialized = .ok protocol ∧ session = (headerOf lib headers "Mcp-Session-Id").filter (· ≠ "") ∧
    call lib server [initializeRequest] (initializedNotification protocol session) false = .ok answer

/-- Discovery gives tools exactly when they are those of the server's pages in order, at most a hundred of them, and
stay in both limits. -/
theorem discovery_ok_iff (lib : McpLibrary) (float : Rat → List Char) (server : McpServer)
    (tools : List ConnectorTool) : testMcp lib float server = .ok tools ↔
      ∃ protocol session pages, Handshake lib server protocol session ∧
        Pages lib float server protocol session [initializeRequest, initializedNotification protocol session] none
          pageIds pages ∧
        pages.length ≤ 100 ∧ tools = pages.flatten ∧ tools.length ≤ 1000 ∧
        (tools.map (toolBytes float)).sum ≤ TOOLS_SIZE_LIMIT := by
  simp only [testMcp, bind_eq_ok_iff, listTools_ok_iff (Nat.zero_le _), List.nil_append, Nat.zero_add]
  constructor
  · rintro ⟨⟨initialized, headers⟩, hinitialized, protocol, hprotocol, answer, hnotified, pages, hpages, rfl, hlength,
      hbytes⟩
    exact ⟨protocol, _, pages, ⟨initialized, headers, answer, hinitialized, hprotocol, rfl, hnotified⟩, hpages,
      hpages.length_le, rfl, hlength, hbytes⟩
  · rintro ⟨protocol, _, pages, ⟨initialized, headers, answer, hinitialized, hprotocol, rfl, hnotified⟩, hpages, -, rfl,
      hlength, hbytes⟩
    exact ⟨(initialized, headers), hinitialized, protocol, hprotocol, answer, hnotified, pages, hpages, rfl, hlength,
      hbytes⟩

end SmartTest.Connector
