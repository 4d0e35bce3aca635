import Mathlib.Algebra.Order.Ring.Unbundled.Rat
import Mathlib.Data.List.Dedup
import Mathlib.Data.List.Sort
import SmartTest.Run.Frozen
import SmartTest.Run.Protocol

/-!
# The HTTP adapter

`HTTPAdapter` of `runner/adapters/http.py`. The task's values are frozen when the adapter
reads them, and what a server sends is plain. The session, the resolver, the clock, the
regular expressions and Python's conversions of a value to a text or a number are the
parameter `HttpWorld`.
-/

open SmartTest.Lib SmartTest.Run

namespace SmartTest.Runner

/-- An exception, by the class a handler asks for. -/
inductive PyError where
  | keyError | indexError | typeError | valueError | osError | timeoutError | overflowError | regexError
  deriving DecidableEq, Repr

/-! ## Python values -/

namespace PyValue

def isMapping : PyValue → Bool
  | .dict _ | .frozen _ => true
  | _ => false

def number? : PyValue → Option Rat
  | .bool b => some (if b then 1 else 0)
  | .int n => some n
  | .float q => some q
  | _ => none

mutual

/-- `==`: a list is never a tuple, and a mapping is compared by its items. -/
def pyEq : PyValue → PyValue → Bool
  | .none, .none => true
  | .str a, .str b => a = b
  | .list a, .list b => pyEqItems a b
  | .tuple a, .tuple b => pyEqItems a b
  | .dict a, .dict b | .dict a, .frozen b | .frozen a, .dict b | .frozen a, .frozen b =>
    a.length = b.length && pyEqFields a b
  | .bool a, b => number? b = some (if a then 1 else 0)
  | .int a, b => number? b = some a
  | .float a, b => number? b = some a
  | _, _ => false

def pyEqItems : List PyValue → List PyValue → Bool
  | [], [] => true
  | a :: as, b :: bs => pyEq a b && pyEqItems as bs
  | _, _ => false

def pyEqFields : List (String × PyValue) → List (String × PyValue) → Bool
  | [], _ => true
  | (key, a) :: rest, other =>
    (match other.lookup key with
      | some b => pyEq a b
      | none => false) && pyEqFields rest other

end

mutual

/-- `<`: numbers, texts, and two lists or two tuples by their first difference. -/
def pyLt : PyValue → PyValue → Except PyError Bool
  | .str a, .str b => .ok (a < b)
  | .list a, .list b => pyLtItems a b
  | .tuple a, .tuple b => pyLtItems a b
  | a, b =>
    match number? a, number? b with
    | some x, some y => .ok (x < y)
    | _, _ => .error .typeError

def pyLtItems : List PyValue → List PyValue → Except PyError Bool
  | [], bs => .ok (!bs.isEmpty)
  | _ :: _, [] => .ok false
  | a :: as, b :: bs => if pyEq a b then pyLtItems as bs else pyLt a b

end

mutual

/-- Whether a value can be looked up among the keys of a mapping. -/
def hashable : PyValue → Bool
  | .list _ | .dict _ | .frozen _ => false
  | .tuple items => hashableItems items
  | _ => true

def hashableItems : List PyValue → Bool
  | [] => true
  | item :: rest => hashable item && hashableItems rest

end

/-- `expected in actual`. -/
def contains (actual expected : PyValue) : Except PyError Bool :=
  match actual with
  | .str text =>
    match expected with
    | .str part => .ok (text.toList.tails.any (part.toList.isPrefixOf ·))
    | _ => .error .typeError
  | .list items | .tuple items => .ok (items.any (pyEq · expected))
  | .dict fields | .frozen fields =>
    if !hashable expected then .error .typeError
    else match expected with
      | .str key => .ok (fields.lookup key).isSome
      | _ => .ok false
  | _ => .error .typeError

/-- `value[key]`. -/
def item (value : PyValue) (key : String) : Except PyError PyValue :=
  match value with
  | .dict fields | .frozen fields =>
    match fields.lookup key with
    | some v => .ok v
    | none => .error .keyError
  | _ => .error .typeError

/-- `value[index]` for an integer. -/
def index (value : PyValue) (i : Nat) : Except PyError PyValue :=
  match value with
  | .list items | .tuple items =>
    match items[i]? with
    | some v => .ok v
    | none => .error .indexError
  | .str text =>
    match text.toList[i]? with
    | some c => .ok (.str (.ofList [c]))
    | none => .error .indexError
  | .dict _ | .frozen _ => .error .keyError
  | _ => .error .typeError

end PyValue

/-! ## Requests and responses -/

/-- The arguments of `session.request`. -/
structure HttpRequest where
  method : String
  url : String
  headers : PyValue
  params : Option PyValue
  json : Option PyValue
  data : Option PyValue
  timeout : Rat

structure HttpResponse where
  statusCode : Int
  headers : String → Option String
  cookies : String → Option String
  /-- What `response.json()` answers; it raises a `ValueError` on a body that is no JSON. -/
  json : Option Json
  text : String

inductive RequestFailure where
  | timeout
  | requestException (errorType : String)

/-- What the adapter cannot decide itself; the first argument counts the steps executed before. -/
structure HttpWorld where
  str : PyValue → String
  float : PyValue → Except PyError Rat
  int : PyValue → Except PyError Int
  validateUrl : Nat → String → Except PyError Unit
  remaining : Nat → Except PyError Rat
  respond : Nat → HttpRequest → Except RequestFailure HttpResponse
  elapsedMs : Nat → Nat
  /-- `re.search`: the first group, or the whole match where there is none. -/
  search : String → String → Except PyError (Option PyValue)

/-- The result of a step: an outcome, a message, details, and whether it timed out. -/
structure StepResult where
  outcome : ResultOutcome
  message : String
  details : List (String × PyValue)
  timedOut : Bool

structure Checked where
  source : String
  operator : String
  passed : Bool

namespace HttpWorld

variable (world : HttpWorld)

/-- `str(value)`. -/
def text : PyValue → String
  | .str s => s
  | value => world.str value

/-! ## Templates -/

def isNameChar (c : Char) : Bool := c.isAlphanum || c = '_'

/-- `TEMPLATE_PATTERN` at the start of a text. -/
def matchTemplate : List Char → Option (String × List Char)
  | '$' :: '\x7b' :: rest =>
    let name := String.ofList (rest.takeWhile isNameChar)
    match rest.dropWhile isNameChar with
    | '\x7d' :: after => if isEnvironmentName name then some (name, after) else none
    | _ => none
  | _ => none

def resolve (context : Dict String PyValue) (name : String) : Except PyError PyValue :=
  match context.get? name with
  | none => .error .keyError
  | some .none => .error .valueError
  | some value => .ok value

/-- `TEMPLATE_PATTERN.sub(replace, value)`; `skip` characters are left of the last token. -/
def replaceTemplates (context : Dict String PyValue) : Nat → List Char → Except PyError (List Char)
  | _, [] => .ok []
  | skip + 1, _ :: rest => replaceTemplates context skip rest
  | 0, c :: rest =>
    match matchTemplate (c :: rest) with
    | some (name, after) => do
      let resolved ← resolve context name
      let tail ← replaceTemplates context (rest.length - after.length) rest
      return (world.text resolved).toList ++ tail
    | none => do
      let tail ← replaceTemplates context 0 rest
      return c :: tail

def substituteText (context : Dict String PyValue) (value : String) : Except PyError PyValue :=
  match matchTemplate value.toList with
  | some (name, []) => resolve context name
  | _ => do
    let chars ← world.replaceTemplates context 0 value.toList
    return .str (.ofList chars)

mutual

/-- `_substitute`. -/
def substitute (context : Dict String PyValue) : PyValue → Except PyError PyValue
  | .dict fields | .frozen fields => (substituteFields context fields).map .dict
  | .list items | .tuple items => (substituteItems context items).map .list
  | .str value => world.substituteText context value
  | value => .ok value

def substituteItems (context : Dict String PyValue) : List PyValue → Except PyError (List PyValue)
  | [] => .ok []
  | item :: rest => do
    let item ← substitute context item
    let rest ← substituteItems context rest
    return item :: rest

def substituteFields (context : Dict String PyValue) :
    List (String × PyValue) → Except PyError (List (String × PyValue))
  | [] => .ok []
  | (key, item) :: rest => do
    let item ← substitute context item
    let rest ← substituteFields context rest
    return (key, item) :: rest

end

/-! ## Reading a response -/

/-- One token of a path: a name, and an index in brackets. -/
def pathToken (token : List Char) : Option (String × Option Nat) :=
  let name := token.takeWhile fun c => c ≠ '[' && c ≠ ']'
  if name.isEmpty then none
  else match token.dropWhile fun c => c ≠ '[' && c ≠ ']' with
    | [] => some (.ofList name, none)
    | '[' :: rest =>
      let digits := rest.takeWhile Char.isDigit
      if digits.isEmpty || rest.dropWhile Char.isDigit ≠ [']'] then none
      else some (.ofList name, (String.ofList digits).toNat?)
    | _ => none

def followPath (current : PyValue) : List (List Char) → Except PyError PyValue
  | [] => .ok current
  | token :: rest =>
    match pathToken token with
    | none => .error .valueError
    | some (name, index) => do
      if !PyValue.isMapping current then .error .valueError
      let current ← PyValue.item current name
      let current ← match index with
        | none => .ok current
        | some i => PyValue.index current i
      followPath current rest

/-- `_json_path`. -/
def jsonPath (value : PyValue) (path : String) : Except PyError PyValue :=
  if path = "$" then .ok value
  else match path.toList with
    | '$' :: '.' :: rest => followPath value (rest.splitOn '.')
    | _ => .error .valueError

inductive ValueSource where
  | statusCode | responseTimeMs | header | cookie | jsonPath | regex | body
  deriving DecidableEq

def MAX_BODY : Nat := 65536

def optionText : Option String → PyValue
  | some s => .str s
  | none => .none

/-- `_source_value`. -/
def sourceValue (response : HttpResponse) (elapsedMs : Nat) (source : ValueSource) (expression : Option String) :
    Except PyError PyValue :=
  let expression := expression.getD "None"
  match source with
  | .statusCode => .ok (.int response.statusCode)
  | .responseTimeMs => .ok (.int elapsedMs)
  | .header => .ok (optionText (response.headers expression))
  | .cookie => .ok (optionText (response.cookies expression))
  | .jsonPath =>
    match response.json with
    | some value => jsonPath (PyValue.plain value) expression
    | none => .error .valueError
  | .regex => do
    match ← world.search expression (.ofList (response.text.toList.take MAX_BODY)) with
    | some found => .ok found
    | none => .error .valueError
  | .body => .ok (.str (.ofList (response.text.toList.take MAX_BODY)))

def AssertionSource.valueSource : AssertionSource → ValueSource
  | .statusCode => .statusCode
  | .header => .header
  | .jsonPath => .jsonPath
  | .body => .body
  | .responseTimeMs => .responseTimeMs

def ExtractionSource.valueSource : ExtractionSource → ValueSource
  | .header => .header
  | .jsonPath => .jsonPath
  | .regex => .regex
  | .cookie => .cookie

/-- `_compare`. -/
def compare (actual expected : PyValue) : Operator → Except PyError Bool
  | .eq => .ok (PyValue.pyEq actual expected)
  | .ne => .ok (!PyValue.pyEq actual expected)
  | .gt => PyValue.pyLt expected actual
  | .gte => do return (← PyValue.pyLt expected actual) || PyValue.pyEq actual expected
  | .lt => PyValue.pyLt actual expected
  | .lte => do return (← PyValue.pyLt actual expected) || PyValue.pyEq actual expected
  | .contains => PyValue.contains actual expected
  | .matches => do
    let found ← world.search (world.text expected) (.ofList ((world.text actual).toList.take MAX_BODY))
    return found.isSome

/-- `except (KeyError, TypeError, ValueError, re.error)`. -/
def PyError.rejected : PyError → Bool
  | .keyError | .typeError | .valueError | .regexError => true
  | _ => false

/-- `_assert`. -/
def assert (response : HttpResponse) (elapsedMs : Nat) (rule : AssertionRule) : Except PyError Checked :=
  let evaluated := do
    let actual ← world.sourceValue response elapsedMs (AssertionSource.valueSource rule.source) rule.expression
    world.compare actual (PyValue.freeze rule.expected) rule.operator
  match evaluated with
  | .ok passed => .ok ⟨rule.source.value, rule.operator.value, passed⟩
  | .error e => if PyError.rejected e then .ok ⟨rule.source.value, rule.operator.value, false⟩ else .error e

/-- `_extract`. -/
def extract (response : HttpResponse) (rule : ExtractionRule) : Except PyError (Option PyValue) :=
  match world.sourceValue response 0 (ExtractionSource.valueSource rule.source) rule.expression with
  | .error e => if PyError.rejected e && !rule.required then .ok none else .error e
  | .ok .none => if rule.required then .error .valueError else .ok none
  | .ok value => .ok (some value)

def extractAll (response : HttpResponse) : List ExtractionRule → Dict String PyValue →
    Except PyError (Dict String PyValue)
  | [], extracted => .ok extracted
  | rule :: rest, extracted => do
    match ← world.extract response rule with
    | some value => extractAll response rest (extracted.set rule.name value)
    | none => extractAll response rest extracted

/-- `_expected_codes`. -/
def expectedCodes (value : PyValue) : Except PyError (List Int) := do
  let values := match value with
    | .list items | .tuple items => items
    | .dict fields | .frozen fields => fields.map fun (e : String × PyValue) => .str e.1
    | value => [value]
  let codes ← values.mapM world.int
  if codes.isEmpty || codes.any fun code => code < 100 || code > 599 then .error .valueError
  return codes.dedup

/-! ## One step -/

/-- `str(request.get("method", "GET")).upper()`. -/
def method (request : List (String × PyValue)) : String :=
  .ofList ((world.text ((request.lookup "method").getD (.str "GET"))).toList.map upperChar)

/-- The first `try` block of `_execute`. -/
def prepare (turn : Nat) (spec : Option PyValue) (context : Dict String PyValue) :
    Except PyError (HttpRequest × List Int) := do
  let fields ← match spec with
    | some (.dict fields) | some (.frozen fields) => .ok fields
    | _ => .error .valueError
  let request ← world.substituteFields context fields
  let some url := request.lookup "url" | .error .keyError
  world.validateUrl turn (world.text url)
  let headers := (request.lookup "headers").getD (.dict [])
  if !PyValue.isMapping headers then .error .valueError
  let timeout ← match request.lookup "timeout" with
    | some value => world.float value
    | none => .ok 30
  if timeout ≤ 0 then .error .valueError
  let remaining ← world.remaining turn
  let codes ← world.expectedCodes ((request.lookup "expected_status").getD (.int 200))
  return ({ method := world.method request
            url := world.text url
            headers := headers
            params := request.lookup "params"
            json := request.lookup "json"
            data := request.lookup "data"
            timeout := min timeout remaining }, codes)

def deadlineExceeded : StepResult := ⟨.timedOut, "Task deadline has passed", [("timed_out", .bool true)], true⟩

/-- What `_execute` returns. -/
structure Executed where
  result : StepResult
  extracted : Dict String PyValue
  checked : List Checked

/-- The part of `_execute` after the response. -/
def judge (turn : Nat) (codes : List Int) (assertions : List AssertionRule)
    (extractions : List ExtractionRule) (name : String) (response : HttpResponse) : Except PyError Executed := do
  let status : Checked := ⟨"status_code", "in", response.statusCode ∈ codes⟩
  let rules ← assertions.mapM (world.assert response (world.elapsedMs turn))
  let checked := status :: rules
  let passed := checked.all (·.passed)
  match world.extractAll response extractions .empty with
  | .error e =>
    if PyError.rejected e then
      return ⟨⟨.failed, "Required extraction failed in HTTP step " ++ name,
        [("status_code", .int response.statusCode)], false⟩, .empty, checked⟩
    else .error e
  | .ok extracted =>
    return ⟨⟨if passed then .succeeded else .failed,
      if passed then "HTTP assertions passed" else "HTTP assertion failed",
      [("status_code", .int response.statusCode),
        ("expected_status", .list ((codes.insertionSort (· ≤ ·)).map .int))], false⟩, extracted, checked⟩

/-- `_execute`, with the request it sent. An exception that no handler takes goes through to the caller. -/
def execute (turn : Nat) (spec : Option PyValue) (assertions : List AssertionRule)
    (extractions : List ExtractionRule) (context : Dict String PyValue) (name phase : String) :
    List HttpRequest × Except PyError Executed :=
  match world.prepare turn spec context with
  | .error .timeoutError => ([], .ok ⟨deadlineExceeded, .empty, []⟩)
  | .error .keyError | .error .osError | .error .typeError | .error .valueError =>
    ([], .ok ⟨⟨.failed, "Invalid HTTP " ++ phase ++ " step", [], false⟩, .empty, []⟩)
  | .error e => ([], .error e)
  | .ok (request, codes) =>
    ([request],
      match world.respond turn request with
      | .error .timeout =>
        .ok ⟨⟨.timedOut, "HTTP step " ++ name ++ " timed out", [("timed_out", .bool true)], true⟩, .empty, []⟩
      | .error (.requestException errorType) =>
        .ok ⟨⟨.infraError, "HTTP step " ++ name ++ " failed", [("error_type", .str errorType)], false⟩, .empty, []⟩
      | .ok response => world.judge turn codes assertions extractions name response)

/-! ## The task -/

structure StepSummary where
  name : String
  phase : String
  outcome : ResultOutcome

/-- The local variables of `run`, and what it has sent. -/
structure Progress where
  turn : Nat
  context : Dict String PyValue
  summaries : List StepSummary
  assertions : List Checked
  extractionNames : List String
  sent : List HttpRequest

/-- One step, and what `run` does with its value. -/
def perform (p : Progress) (spec : Option PyValue) (assertions : List AssertionRule)
    (extractions : List ExtractionRule) (name phase : String) : Progress × Except PyError StepResult :=
  let (sent, answer) := world.execute p.turn spec assertions extractions p.context name phase
  match answer with
  | .error e => ({ p with sent := p.sent ++ sent }, .error e)
  | .ok done =>
    ({ turn := p.turn + 1
       context := p.context.update done.extracted
       summaries := p.summaries ++ [⟨name, phase, done.result.outcome⟩]
       assertions := p.assertions ++ done.checked
       extractionNames := p.extractionNames ++ done.extracted.keys
       sent := p.sent ++ sent }, .ok done.result)

def performStep (p : Progress) (phase : String) (step : HttpStep) : Progress × Except PyError StepResult :=
  world.perform p (some (PyValue.freeze (.obj step.request.entries))) step.assertions step.extractions step.name phase

/-- The first loop of `run`: the result of a required step that did not succeed. -/
def beforeLoop : List HttpStep → Progress → Progress × Except PyError (Option StepResult)
  | [], p => (p, .ok none)
  | step :: rest, p =>
    match world.performStep p "before" step with
    | (p, .error e) => (p, .error e)
    | (p, .ok result) =>
      if result.outcome ≠ .succeeded ∧ step.required then (p, .ok (some result)) else beforeLoop rest p

/-- The last loop of `run`. -/
def afterLoop : List HttpStep → StepResult → Progress → Progress × Except PyError StepResult
  | [], primary, p => (p, .ok primary)
  | step :: rest, primary, p =>
    match world.performStep p "after" step with
    | (p, .error e) => (p, .error e)
    | (p, .ok result) =>
      let primary := if result.outcome ≠ .succeeded ∧ step.required ∧ primary.outcome = .succeeded then result else primary
      afterLoop rest primary p

/-- The parameters without the request, as the adapter reads them. -/
def initialContext (task : TaskEnvelope) : Dict String PyValue :=
  (task.parameters.erase "request").mapValues PyValue.freeze

def performMain (task : TaskEnvelope) (p : Progress) : Progress × Except PyError StepResult :=
  world.perform p ((task.parameters.get? "request").map PyValue.freeze) task.executionPolicy.assertions
    task.executionPolicy.extractions "request" "main"

/-- `run`: what was sent, and the result with the step summaries, assertions and extraction names. -/
def run (task : TaskEnvelope) : Progress × Except PyError StepResult :=
  let p : Progress := ⟨1, initialContext task, [], [], [], []⟩
  match world.remaining 0 with
  | .error .timeoutError => (p, .ok deadlineExceeded)
  | .error e => (p, .error e)
  | .ok _ =>
    match world.beforeLoop task.executionPolicy.beforeSteps p with
    | (p, .error e) => (p, .error e)
    | (p, .ok (some primary)) => world.afterLoop task.executionPolicy.afterSteps primary p
    | (p, .ok none) =>
      match world.performMain task p with
      | (p, .error e) => (p, .error e)
      | (p, .ok primary) => world.afterLoop task.executionPolicy.afterSteps primary p

end HttpWorld

end SmartTest.Runner
