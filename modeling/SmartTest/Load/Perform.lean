import SmartTest.Load.Executor
import SmartTest.Load.Templates

/-!
# One step of a scenario

The body of the `try` in `worker` of `_execute_scenarios`, with its handlers: the target is
rendered, prepared, checked and sent. Two exceptions pass the handlers: `urlsplit` raises
`AttributeError` on a number that is not zero, and a value that nests deeper than the stack
has room for ends in `RecursionError`, be it a variable, a response or what is extracted of it.
-/

open SmartTest.Lib SmartTest.Run

namespace SmartTest.Load

/-- What the code asks the libraries: `urlsplit` of a text (scheme and netloc, or `ValueError`), `urljoin`, the
number that the digits of a path are, whether `_validate_public_url` lets a URL through (it makes
`LoadTestExecutionError` of every exception), and how a float is spelled. -/
structure Web where
  split : String → Option (String × String)
  join : String → String → Option String
  index : String → Option Nat
  allowed : String → Bool
  floatText : Rat → List Char

/-- The fields of `LoadTestAuthConfiguration` that a step reads. -/
structure LoadTestAuthConfiguration where
  baseUrl : Option String
  authHeader : String
  authPrefix : String

/-- What `json.loads` makes of a body: no JSON, a value, or `RecursionError` there or in `_redact_response`. -/
inductive Payload where
  | notJson
  | json (value : Json)
  | tooDeep

/-- What comes of a request: one of the exceptions `_request_scenario_target` takes, or a response with what was
captured of it. -/
inductive Reply where
  | failed
  | answered (status : Int) (details : ResponseDetails) (payload : Payload)

/-- How deep a value may nest for the stack to have room: one that takes the place of a token in a text, where it is
copied and goes through what walks over the target after that, and one that an extractor copies. -/
structure Room where
  texts : String → Nat
  extracted : Nat

structure StepDraws where
  dynamic : DynamicDraws
  room : Room
  reply : Reply

/-- A target on its way: a dict of the same fields. -/
structure TargetDict where
  name : Json
  method : Json
  url : Json
  headers : List (String × Json)
  query : List (String × Json)
  body : Json
  extractors : List (String × Json)

/-! ## Rendering -/

def LoadTestTarget.asDict (target : LoadTestTarget) : TargetDict where
  name := .str target.name
  method := .str target.method
  url := .str target.url
  headers := target.headers.entries
  query := target.query.entries
  body := target.body
  extractors := target.extractors.entries.map fun e => (e.1, .str e.2)

variable (web : Web)

/-- The four fields that `_render_scenario_target` renders. -/
def renderTexts (text : String → Except StepError Json) (target : TargetDict) : Except StepError TargetDict := do
  let url ← renderJson text target.url
  let headers ← renderFields text target.headers
  let query ← renderFields text target.query
  let body ← renderJson text target.body
  return { target with url := url, headers := headers, query := query, body := body }

/-- `_render_scenario_target` with room for every value. -/
def renderScenarioTarget (target : TargetDict) (vars : Dict String Json) : Except StepError TargetDict :=
  renderTexts (renderText matchTemplate (templateValue vars) (stringifyTemplateValue web.floatText)) target

/-- `render_dynamic_templates(target, scenario_sequence)`. The statuses and the think time are numbers. -/
def renderDynamicTarget (target : TargetDict) (draws : DynamicDraws) (sequence : Nat) : Except StepError TargetDict := do
  let text := renderText matchDynamic (fun expression => generateDynamicValue draws expression sequence)
    (stringifyTemplateValue web.floatText)
  let name ← renderJson text target.name
  let method ← renderJson text target.method
  let url ← renderJson text target.url
  let headers ← renderFields text target.headers
  let query ← renderFields text target.query
  let body ← renderJson text target.body
  let extractors ← renderFields text target.extractors
  return ⟨name, method, url, headers, query, body, extractors⟩

/-- Both renderings of a target. What is drawn is flat. -/
def renderTarget (room : Room) (target : LoadTestTarget) (vars : Dict String Json) (sequence : Nat)
    (draws : DynamicDraws) : Except StepError TargetDict := do
  let rendered ← renderTexts (renderHeld web.floatText room.texts vars) target.asDict
  renderDynamicTarget web rendered draws sequence

/-! ## Preparing -/

def isHeaderChar (c : Char) : Bool := c.isAlphanum || "!#$%&'*+-.^_`|~".toList.contains c

/-- A line break in `str(value)`: the text of anything but a string has none. -/
def breaksLine : Json → Bool
  | .str s => s.toList.any fun c => c = '\r' || c = '\n'
  | _ => false

def headerAllowed (header : String × Json) : Bool :=
  header.1.length ≥ 1 && header.1.toList.all isHeaderChar && !breaksLine header.2

/-- `_validated_headers`; a value stands for its text. -/
def validatedHeaders (headers : List (String × Json)) : Except StepError (List (String × Json)) :=
  if headers.all headerAllowed then .ok headers
  else .error (.valueError "HTTP request header is not allowed")

/-- `True` and the numbers that are not zero. -/
def isNonzeroNumber : Json → Bool
  | .bool b => b
  | .int n => n ≠ 0
  | .float q => q ≠ 0
  | _ => false

def destinationError : StepError := .valueError "HTTP destination is not allowed"

def rstripSlash (text : String) : String := .ofList (text.toList.reverse.dropWhile (· = '/')).reverse

/-- `urlsplit` takes what is not true for an empty text of bytes, cannot hash a list or a dict, and asks any other
value to decode itself. -/
def urlsplit (url : Json) : Except StepError (String × String) :=
  match url with
  | .str text => match web.split text with
    | some parsed => .ok parsed
    | none => .error (.valueError "Invalid URL")
  | .arr _ | .obj _ => .error .typeError
  | value => if isNonzeroNumber value then .error .attributeError else .ok ("", "")

/-- `urljoin`, which returns the base for what is not true. -/
def urljoin (base : String) (url : Json) : Except StepError String :=
  match url with
  | .str text => match web.join base text with
    | some joined => .ok joined
    | none => .error (.valueError "Invalid URL")
  | _ => .ok base

/-- `_resolve_url`; only a text has a scheme. -/
def resolveUrl (url : Json) (baseUrl : Option String) : Except StepError String := do
  let parsed ← urlsplit web url
  if parsed.1 ≠ "" then return .ofList (stringifyTemplateValue web.floatText url)
  if parsed.2 ≠ "" ∨ baseUrl.getD "" = "" then .error destinationError
  urljoin web (rstripSlash (baseUrl.getD "") ++ "/") url

structure Prepared where
  url : String
  headers : List (String × Json)
  query : List (String × Json)
  body : Json
  extractors : List (String × Json)

def prepareTarget (target : TargetDict) (config : Option LoadTestAuthConfiguration) : Except StepError Prepared := do
  let headers ← validatedHeaders target.headers
  let url ← resolveUrl web target.url (config.bind (·.baseUrl))
  return ⟨url, headers, target.query, target.body, target.extractors⟩

def injectAuth (target : Prepared) (config : LoadTestAuthConfiguration) (token : String) : Except StepError Prepared := do
  let headers := target.headers.filter fun h => h.1.toLower ≠ config.authHeader.toLower
  let authPrefix := strip config.authPrefix
  let value := if authPrefix = "" then token else authPrefix ++ " " ++ token
  let auth ← validatedHeaders [(config.authHeader, .str value)]
  return { target with headers := headers ++ auth }

def validatePublicUrl (url : String) : Except StepError Unit :=
  if web.allowed url then .ok () else .error destinationError

/-- `_inject_auth` where there is a token. -/
def authenticated (config : Option LoadTestAuthConfiguration) (token : Option String) (target : Prepared) :
    Except StepError Prepared :=
  match config, token with
  | some config, some token => injectAuth target config token
  | _, _ => .ok target

/-- The step up to its request. -/
def prepareStep (config : Option LoadTestAuthConfiguration) (token : Option String) (room : Room)
    (target : LoadTestTarget) (vars : Dict String Json) (sequence : Nat) (draws : DynamicDraws) :
    Except StepError Prepared := do
  let rendered ← renderTarget web room target vars sequence draws
  let prepared ← prepareTarget web rendered config
  let prepared ← authenticated config token prepared
  validatePublicUrl web prepared.url
  return prepared

/-! ## The request -/

/-- `\[([0-9]+)\]` at the start of a text. -/
def matchIndex : List Char → Option (String × List Char)
  | '[' :: rest =>
    let digits := rest.takeWhile Char.isDigit
    match rest.dropWhile Char.isDigit with
    | ']' :: after => if digits = [] then none else some (.ofList digits, after)
    | _ => none
  | _ => none

/-- `[3]` becomes `.3`. -/
def normalizePath (path : List Char) : List Char :=
  match substitute matchIndex (fun digits => .ok ('.' :: digits.toList)) 0 path with
  | .ok normalized => normalized
  | .error _ => path

/-- One part of a path. -/
def follow (value : Json) (part : String) : Option Json :=
  match value with
  | .obj fields => fields.lookup part
  | .arr items => (web.index part).bind fun i => items[i]?
  | _ => none

/-- `_extract_token`; no path is what raises `ValueError` or `TypeError`. -/
def extractToken (payload path : Json) : Option Json :=
  match path with
  | .str path =>
    let parts := (normalizePath path.toList).splitOn '.'
    if parts.any (· = []) then none
    else parts.foldlM (fun value part => follow web value (.ofList part)) payload
  | _ => none

def requestError : Answer := ⟨false, none, some "request_error", .unavailable⟩

def Payload.isDeep : Payload → Bool
  | .tooDeep => true
  | _ => false

/-- One extractor: `deepcopy` of what its path leads to. -/
def extractItem (room : Nat) (payload : Json) (extractor : String × Json) : Except StepError (String × Json) :=
  match extractToken web payload extractor.2 with
  | some found => if found.depth ≤ room then .ok (extractor.1, found) else .error .recursionError
  | none => .error (.valueError "")

/-- What is made of a response whose body has been walked through. -/
def answerTo (room : Nat) (expectedStatuses : List Int) (target : Prepared) (status : Int) (details : ResponseDetails)
    (payload : Payload) : Except StepError (Answer × Dict String Json) :=
  let extractorError : Answer := ⟨false, some status, some "extractor_error", details⟩
  if status ∉ expectedStatuses then .ok (⟨false, some status, some "unexpected_status", details⟩, .empty)
  else if target.extractors = [] then .ok (⟨true, some status, none, details⟩, .empty)
  else if details.truncated then .ok (extractorError, .empty)
  else match payload with
    | .json value =>
      match target.extractors.mapM (extractItem web room value) with
      | .ok extracted => .ok (⟨true, some status, none, details⟩, extracted.foldl (fun d e => d.set e.1 e.2) .empty)
      | .error .recursionError => .error .recursionError
      | .error _ => .ok (extractorError, .empty)
    | .notJson | .tooDeep => .ok (extractorError, .empty)

/-- `_request_scenario_target`: the body is walked through before the status is looked at. -/
def requestScenarioTarget (room : Nat) (expectedStatuses : List Int) (target : Prepared) :
    Reply → Except StepError (Answer × Dict String Json)
  | .failed => .ok (requestError, .empty)
  | .answered status details payload =>
    if details.truncated = false ∧ payload.isDeep then .error .recursionError
    else answerTo web room expectedStatuses target status details payload

/-- A step with the handlers of the worker. -/
def perform (config : Option LoadTestAuthConfiguration) (token : Option String) (target : LoadTestTarget)
    (vars : Dict String Json) (sequence : Nat) (draws : StepDraws) : Except Raised (Answer × Dict String Json) :=
  let answered := do
    let prepared ← prepareStep web config token draws.room target vars sequence draws.dynamic
    requestScenarioTarget web draws.room.extracted target.expectedStatuses prepared draws.reply
  match answered with
  | .ok result => .ok result
  | .error (.workflowExecutionError _) => .ok (⟨false, none, some "template_error", .unavailable⟩, .empty)
  | .error (.valueError _) | .error .typeError => .ok (requestError, .empty)
  | .error .attributeError | .error .recursionError => .error .exception

/-! ## What passes the handlers -/

/-- Whether a handler of the worker takes it. -/
def StepError.taken : StepError → Bool
  | .workflowExecutionError _ | .valueError _ | .typeError => true
  | .attributeError | .recursionError => false

theorem StepError.OfTemplate.taken {e : StepError} (h : e.OfTemplate) : e.taken = true := by
  obtain ⟨message, rfl⟩ := h
  rfl

section Taken

variable {web} {e : StepError}

theorem renderDynamicTarget_taken {target : TargetDict} {draws : DynamicDraws} {sequence : Nat}
    (h : renderDynamicTarget web target draws sequence = .error e) : e.taken = true := by
  have htext : ∀ s e, renderText matchDynamic (fun expression => generateDynamicValue draws expression sequence)
      (stringifyTemplateValue web.floatText) s = .error e → e.OfTemplate :=
    fun s e => renderText_error (fun _ _ => generateDynamicValue_error)
  simp only [renderDynamicTarget, bind_eq_error_iff] at h
  rcases h with h | ⟨_, -, h | ⟨_, -, h | ⟨_, -, h | ⟨_, -, h | ⟨_, -, h | ⟨_, -, h | ⟨_, -, h⟩⟩⟩⟩⟩⟩⟩
  · exact (renderJson_error htext _ e h).taken
  · exact (renderJson_error htext _ e h).taken
  · exact (renderJson_error htext _ e h).taken
  · exact (renderFields_error htext _ e h).taken
  · exact (renderFields_error htext _ e h).taken
  · exact (renderJson_error htext _ e h).taken
  · exact (renderFields_error htext _ e h).taken
  · cases h

theorem validatedHeaders_taken {headers : List (String × Json)} (h : validatedHeaders headers = .error e) :
    e.taken = true := by
  unfold validatedHeaders at h
  split at h
  · cases h
  · obtain rfl := Except.error.inj h
    rfl

/-- Of all URLs only the numbers that are not zero raise something that is not taken. -/
theorem urlsplit_error {url : Json} (h : urlsplit web url = .error e) :
    e.taken = true ∨ e = .attributeError ∧ isNonzeroNumber url = true := by
  unfold urlsplit at h
  split at h
  · split at h
    · cases h
    · obtain rfl := Except.error.inj h
      exact .inl rfl
  · obtain rfl := Except.error.inj h
    exact .inl rfl
  · obtain rfl := Except.error.inj h
    exact .inl rfl
  · split at h
    · next hnonzero =>
      obtain rfl := Except.error.inj h
      exact .inr ⟨rfl, hnonzero⟩
    · cases h

theorem urlsplit_nonzero {url : Json} (h : isNonzeroNumber url = true) :
    urlsplit web url = .error .attributeError := by
  cases url with
  | bool b => simp [urlsplit, h]
  | int n => simp [urlsplit, h]
  | float q => simp [urlsplit, h]
  | _ => simp [isNonzeroNumber] at h

theorem urljoin_taken {base : String} {url : Json} (h : urljoin web base url = .error e) : e.taken = true := by
  unfold urljoin at h
  split at h
  · split at h
    · cases h
    · obtain rfl := Except.error.inj h
      rfl
  · cases h

theorem resolveUrl_error {url : Json} {baseUrl : Option String} (h : resolveUrl web url baseUrl = .error e) :
    e.taken = true ∨ e = .attributeError ∧ isNonzeroNumber url = true := by
  simp only [resolveUrl, bind_eq_error_iff] at h
  rcases h with h | ⟨parsed, -, h⟩
  · exact urlsplit_error h
  · split at h
    · cases h
    · split at h
      · obtain rfl := Except.error.inj h
        exact .inl rfl
      · exact .inl (urljoin_taken h)

theorem injectAuth_taken {target : Prepared} {config : LoadTestAuthConfiguration} {token : String}
    (h : injectAuth target config token = .error e) : e.taken = true := by
  simp only [injectAuth, bind_eq_error_iff] at h
  rcases h with h | ⟨headers, -, h⟩
  · exact validatedHeaders_taken h
  · cases h

theorem authenticated_taken {config : Option LoadTestAuthConfiguration} {token : Option String} {target : Prepared}
    (h : authenticated config token target = .error e) : e.taken = true := by
  unfold authenticated at h
  split at h
  · exact injectAuth_taken h
  · cases h

theorem validatePublicUrl_taken {url : String} (h : validatePublicUrl web url = .error e) : e.taken = true := by
  unfold validatePublicUrl at h
  split at h
  · cases h
  · obtain rfl := Except.error.inj h
    rfl

end Taken

/-! ## Variables that nest too deep -/

/-- The texts of a target that `_render_scenario_target` renders, in its order. -/
def LoadTestTarget.texts (target : LoadTestTarget) : List String :=
  target.url :: (textsOfFields target.headers.entries ++ (textsOfFields target.query.entries ++ textsOf target.body))

/-- The tokens of a target, each with the text it stands in. -/
def LoadTestTarget.tokens (target : LoadTestTarget) : List (String × String) :=
  target.texts.flatMap fun text => (tokensIn matchTemplate 0 text.toList).map fun name => (text, name)

/-- The first token of the target that cannot be replaced has a variable that nests too deep. -/
def DeepVariable (room : Room) (target : LoadTestTarget) (vars : Dict String Json) : Prop :=
  ∃ before text name after, target.tokens = before ++ (text, name) :: after ∧
    (∀ t ∈ before, ∃ value, vars.get? t.2 = some value ∧ value.depth ≤ room.texts t.1) ∧
    ∃ value, vars.get? name = some value ∧ room.texts text < value.depth

section Deep

variable {web} {room : Room} {target : LoadTestTarget} {vars : Dict String Json}

theorem renderTexts_raises (text : String → Except StepError Json) (target : LoadTestTarget) :
    RaisesAlike (renderTexts text target.asDict) (target.texts.mapM text) := by
  unfold renderTexts LoadTestTarget.texts
  rw [List.mapM_cons]
  refine (RaisesAlike.refl _).bind fun _ _ _ _ => ?_
  refine RaisesAlike.trans ?_ (RaisesAlike.bind_pure (.refl _) _).symm
  refine RaisesAlike.trans ?_ (RaisesAlike.mapM_append text _ _).symm
  refine (renderFields_raises target.headers.entries).bind fun _ _ _ _ => ?_
  refine RaisesAlike.trans ?_ (RaisesAlike.mapM_append text _ _).symm
  refine (renderFields_raises target.query.entries).bind fun _ _ _ _ => ?_
  exact (renderJson_raises target.body).bind_pure _

theorem renderHeld_texts_raises (floatText : Rat → List Char) :
    RaisesAlike (renderTexts (renderHeld floatText room.texts vars) target.asDict)
      (target.tokens.mapM fun t => heldValue (room.texts t.1) vars t.2) := by
  refine (renderTexts_raises _ target).trans ?_
  refine RaisesAlike.trans ?_ (RaisesAlike.mapM_flatMap _ _ _).symm
  exact RaisesAlike.mapM fun s _ => renderHeld_raises floatText room.texts s

/-- With room for every variable the target is rendered as `renderScenarioTarget` renders it. -/
theorem renderTexts_held {target : TargetDict}
    (hroom : ∀ name value, vars.get? name = some value → ∀ s, value.depth ≤ room.texts s) :
    renderTexts (renderHeld web.floatText room.texts vars) target = renderScenarioTarget web target vars := by
  have hvalue : ∀ s, heldValue (room.texts s) vars = templateValue vars := by
    intro s
    funext name
    unfold heldValue templateValue
    cases hget : vars.get? name with
    | none => rfl
    | some value => simp [ok_bind, hroom name value hget s, pure, Except.pure]
  unfold renderScenarioTarget
  congr 1
  funext s
  rw [renderHeld, hvalue]

theorem deepVariable_iff : DeepVariable room target vars ↔
    target.tokens.mapM (fun t => heldValue (room.texts t.1) vars t.2) = .error .recursionError := by
  simp only [mapM_eq_error_iff, heldValue_ok_iff, heldValue_recursion_iff, Prod.exists, DeepVariable]

theorem renderTarget_error {sequence : Nat} {draws : DynamicDraws} {e : StepError}
    (h : renderTarget web room target vars sequence draws = .error e) :
    e.taken = true ∨ e = .recursionError ∧ DeepVariable room target vars := by
  simp only [renderTarget, bind_eq_error_iff] at h
  rcases h with h | ⟨rendered, -, h⟩
  · have hfirst := (renderHeld_texts_raises web.floatText e).mp h
    obtain ⟨_, _, _, _, _, hvalue⟩ := mapM_eq_error_iff.mp hfirst
    rcases heldValue_error hvalue with htemplate | rfl
    · exact .inl htemplate.taken
    · exact .inr ⟨rfl, deepVariable_iff.mpr hfirst⟩
  · exact .inl (renderDynamicTarget_taken h)

theorem DeepVariable.renderTarget {sequence : Nat} {draws : DynamicDraws} (h : DeepVariable room target vars) :
    renderTarget web room target vars sequence draws = .error .recursionError := by
  rw [Load.renderTarget, (renderHeld_texts_raises web.floatText _).mpr (deepVariable_iff.mp h)]
  rfl

end Deep

section Breaks

variable (config : Option LoadTestAuthConfiguration) (token : Option String) (target : LoadTestTarget)
  (vars : Dict String Json) (sequence : Nat) (draws : StepDraws)

/-- The target renders, its headers are allowed, and its URL is `True` or a number that is not zero. -/
def NumberUrl : Prop :=
  ∃ rendered, renderTarget web draws.room target vars sequence draws.dynamic = .ok rendered ∧
    rendered.headers.all headerAllowed = true ∧ isNonzeroNumber rendered.url = true

/-- The first of the extractors that does not extract finds a value that nests too deep. -/
def DeepExtract (room : Nat) (extractors : List (String × Json)) (value : Json) : Prop :=
  ∃ before extractor after found, extractors = before ++ extractor :: after ∧
    (∀ e ∈ before, ∃ earlier, extractToken web value e.2 = some earlier ∧ earlier.depth ≤ room) ∧
    extractToken web value extractor.2 = some found ∧ room < found.depth

/-- The request is sent, and its response nests too deep: for `json.loads` or for what redacts it, or, if it is the one
that is expected, for the copy of what is extracted. -/
def DeepResponse : Prop :=
  ∃ prepared status details payload,
    prepareStep web config token draws.room target vars sequence draws.dynamic = .ok prepared ∧
    draws.reply = .answered status details payload ∧ details.truncated = false ∧
    (payload = .tooDeep ∨ ∃ value, payload = .json value ∧ status ∈ target.expectedStatuses ∧
      DeepExtract web draws.room.extracted prepared.extractors value)

variable {web config token target vars sequence draws}

theorem prepareStep_error {e : StepError}
    (h : prepareStep web config token draws.room target vars sequence draws.dynamic = .error e) :
    e.taken = true ∨ e = .attributeError ∧ NumberUrl web target vars sequence draws ∨
      e = .recursionError ∧ DeepVariable draws.room target vars := by
  simp only [prepareStep, prepareTarget, bind_eq_error_iff] at h
  rcases h with h | ⟨rendered, hrendered, h⟩
  · exact (renderTarget_error h).imp_right .inr
  rcases h with (h | ⟨headers, hheaders, h | ⟨url, -, h⟩⟩) | ⟨prepared, -, h | ⟨auth, -, h | ⟨_, -, h⟩⟩⟩
  · exact .inl (validatedHeaders_taken h)
  · rcases resolveUrl_error h with htaken | ⟨rfl, hnonzero⟩
    · exact .inl htaken
    · refine .inr (.inl ⟨rfl, rendered, hrendered, ?_, hnonzero⟩)
      unfold validatedHeaders at hheaders
      split at hheaders
      · assumption
      · cases hheaders
  · cases h
  · exact .inl (authenticated_taken h)
  · exact .inl (validatePublicUrl_taken h)
  · cases h

theorem NumberUrl.prepareStep (h : NumberUrl web target vars sequence draws) :
    prepareStep web config token draws.room target vars sequence draws.dynamic = .error .attributeError := by
  obtain ⟨rendered, hrendered, hheaders, hnonzero⟩ := h
  simp only [Load.prepareStep, hrendered, prepareTarget, validatedHeaders, hheaders, if_true, resolveUrl,
    urlsplit_nonzero hnonzero, ok_bind, error_bind]

theorem DeepVariable.prepareStep (h : DeepVariable draws.room target vars) :
    prepareStep web config token draws.room target vars sequence draws.dynamic = .error .recursionError := by
  rw [Load.prepareStep, h.renderTarget]
  rfl

theorem extractItem_ok_iff {room : Nat} {value : Json} {extractor : String × Json} :
    (∃ out, extractItem web room value extractor = .ok out) ↔
      ∃ found, extractToken web value extractor.2 = some found ∧ found.depth ≤ room := by
  unfold extractItem
  cases extractToken web value extractor.2 with
  | none => simp
  | some found =>
    simp only [Option.some.injEq, exists_eq_left']
    split
    · next hfits => exact iff_of_true ⟨_, rfl⟩ hfits
    · next hdeep => simp [hdeep]

theorem extractItem_recursion_iff {room : Nat} {value : Json} {extractor : String × Json} :
    extractItem web room value extractor = .error .recursionError ↔
      ∃ found, extractToken web value extractor.2 = some found ∧ room < found.depth := by
  unfold extractItem
  cases extractToken web value extractor.2 with
  | none => simp
  | some found =>
    simp only [Option.some.injEq, exists_eq_left']
    split
    · next hfits => simp [hfits]
    · next hdeep => simpa using hdeep

theorem deepExtract_iff {room : Nat} {extractors : List (String × Json)} {value : Json} :
    DeepExtract web room extractors value ↔
      extractors.mapM (extractItem web room value) = .error .recursionError := by
  simp only [mapM_eq_error_iff, extractItem_ok_iff, extractItem_recursion_iff, DeepExtract]
  constructor
  · rintro ⟨before, extractor, after, found, hsplit, hbefore, hfound⟩
    exact ⟨before, extractor, after, hsplit, hbefore, found, hfound⟩
  · rintro ⟨before, extractor, after, hsplit, hbefore, found, hfound⟩
    exact ⟨before, extractor, after, found, hsplit, hbefore, hfound⟩

theorem answerTo_raises_iff {room : Nat} {statuses : List Int} {prepared : Prepared} {status : Int}
    {details : ResponseDetails} {payload : Payload} :
    (∃ e, answerTo web room statuses prepared status details payload = .error e) ↔
      details.truncated = false ∧ ∃ value, payload = .json value ∧ status ∈ statuses ∧
        DeepExtract web room prepared.extractors value := by
  unfold answerTo
  by_cases hstatus : status ∈ statuses
  · by_cases hnone : prepared.extractors = []
    · simp [hstatus, hnone, DeepExtract]
    · cases htruncated : details.truncated with
      | true => simp [hstatus, hnone]
      | false =>
        cases payload with
        | json value =>
          simp only [hstatus, hnone, deepExtract_iff, Payload.json.injEq, exists_eq_left', not_true_eq_false, if_false,
            Bool.false_eq_true, true_and]
          split
          · next hextracted => simp [hextracted]
          · next hextracted => simp [hextracted]
          · next e hother hextracted => simpa [hextracted] using hother
        | notJson => simp [hstatus, hnone]
        | tooDeep => simp [hstatus, hnone]
  · simp [hstatus]

theorem requestScenarioTarget_error {room : Nat} {statuses : List Int} {prepared : Prepared} {reply : Reply}
    {e : StepError} (h : requestScenarioTarget web room statuses prepared reply = .error e) : e = .recursionError := by
  cases reply with
  | failed => cases h
  | answered status details payload =>
    simp only [requestScenarioTarget, answerTo] at h
    split at h
    · exact (Except.error.inj h).symm
    split at h
    · cases h
    split at h
    · cases h
    split at h
    · cases h
    split at h
    · split at h
      · cases h
      · exact (Except.error.inj h).symm
      · cases h
    · cases h
    · cases h

/-- A response raises where it nests too deep. -/
theorem requestScenarioTarget_raises_iff {room : Nat} {statuses : List Int} {prepared : Prepared} {reply : Reply} :
    (∃ e, requestScenarioTarget web room statuses prepared reply = .error e) ↔
      ∃ status details payload, reply = .answered status details payload ∧ details.truncated = false ∧
        (payload = .tooDeep ∨ ∃ value, payload = .json value ∧ status ∈ statuses ∧
          DeepExtract web room prepared.extractors value) := by
  cases reply with
  | failed => simp [requestScenarioTarget]
  | answered status details payload =>
    simp only [requestScenarioTarget]
    by_cases hdeep : details.truncated = false ∧ payload.isDeep = true
    · rw [if_pos hdeep]
      refine iff_of_true ⟨_, rfl⟩ ⟨status, details, payload, rfl, hdeep.1, .inl ?_⟩
      cases payload with
      | tooDeep => rfl
      | _ => simp [Payload.isDeep] at hdeep
    · rw [if_neg hdeep, answerTo_raises_iff]
      constructor
      · rintro ⟨htruncated, hjson⟩
        exact ⟨status, details, payload, rfl, htruncated, .inr hjson⟩
      · rintro ⟨_, _, _, hreply, htruncated, rfl | hjson⟩
        · obtain ⟨rfl, rfl, rfl⟩ := Reply.answered.inj hreply
          exact absurd ⟨htruncated, rfl⟩ hdeep
        · obtain ⟨rfl, rfl, rfl⟩ := Reply.answered.inj hreply
          exact ⟨htruncated, hjson⟩

/-- An exception leaves the worker in three cases only. -/
theorem perform_raises_iff : (∃ e, perform web config token target vars sequence draws = .error e) ↔
    NumberUrl web target vars sequence draws ∨ DeepVariable draws.room target vars ∨
      DeepResponse web config token target vars sequence draws := by
  constructor
  · rintro ⟨e, he⟩
    unfold perform at he
    cases hprepared : prepareStep web config token draws.room target vars sequence draws.dynamic with
    | error e' =>
      rcases prepareStep_error hprepared with htaken | ⟨-, hnumber⟩ | ⟨-, hvariable⟩
      · simp only [hprepared, error_bind] at he
        cases e' <;> simp [StepError.taken] at htaken he
      · exact .inl hnumber
      · exact .inr (.inl hvariable)
    | ok prepared =>
      simp only [hprepared, ok_bind] at he
      cases hreply : requestScenarioTarget web draws.room.extracted target.expectedStatuses prepared draws.reply with
      | ok result =>
        rw [hreply] at he
        cases he
      | error e' =>
        obtain ⟨status, details, payload, hanswered, htruncated, hdeep⟩ :=
          requestScenarioTarget_raises_iff.mp ⟨e', hreply⟩
        exact .inr (.inr ⟨prepared, status, details, payload, hprepared, hanswered, htruncated, hdeep⟩)
  · rintro (hnumber | hvariable | ⟨prepared, status, details, payload, hprepared, hanswered, htruncated, hdeep⟩)
    · exact ⟨.exception, by simp [perform, hnumber.prepareStep, error_bind]⟩
    · exact ⟨.exception, by simp [perform, hvariable.prepareStep, error_bind]⟩
    · obtain ⟨e, he⟩ : ∃ e, requestScenarioTarget web draws.room.extracted target.expectedStatuses prepared draws.reply =
          .error e :=
        requestScenarioTarget_raises_iff.mpr ⟨status, details, payload, hanswered, htruncated, hdeep⟩
      obtain rfl := requestScenarioTarget_error he
      exact ⟨.exception, by simp [perform, hprepared, ok_bind, he]⟩

end Breaks

end SmartTest.Load
