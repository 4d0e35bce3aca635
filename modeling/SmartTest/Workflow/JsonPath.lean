import SmartTest.Lib.Except
import SmartTest.Lib.JsonPath
import SmartTest.Lib.Text
import SmartTest.Workflow.Executor

/-!
# JSON paths of the Data Factory

`JSON_PATH_PATTERN` of `services/api/data_factory_schemas.py`, `extract_json_path` and the end
of `_execute_http` of `services/api/data_factory_executor.py`. `deepcopy` recurses into what it
copies, so it raises `RecursionError` for a value that nests deeper than the stack has room for.
-/

open SmartTest.Lib

namespace SmartTest.Workflow

/-! ## The pattern -/

def isNameStart (c : Char) : Bool := c.isAlpha || c = '_'

def isNameRest (c : Char) : Bool := c.isAlphanum || c = '_' || c = '-'

/-- `\.[A-Za-z_][A-Za-z0-9_-]*(?:\[[0-9]+\])?` -/
structure Segment where
  first : Char
  rest : List Char
  index : Option (List Char)
  first_start : isNameStart first = true
  rest_name : ∀ c ∈ rest, isNameRest c = true
  index_digits : ∀ digits ∈ index, digits ≠ [] ∧ ∀ c ∈ digits, c.isDigit = true

namespace Segment

def name (s : Segment) : List Char := s.first :: s.rest

def indexText : Option (List Char) → List Char
  | some digits => '[' :: (digits ++ [']'])
  | none => []

def text (s : Segment) : List Char := s.name ++ indexText s.index

end Segment

/-- The texts that `JSON_PATH_PATTERN` matches, by what its group matches. -/
def pathText (segments : List Segment) : String := .ofList ('$' :: segments.flatMap fun s => '.' :: s.text)

/-! ## The code -/

inductive HttpError where
  | keyError (key : String)
  | indexError
  | valueError (message : String)
  | unicodeError
  | recursionError
  deriving DecidableEq, Repr

/-- `KeyError`, `IndexError` or `ValueError`. -/
def HttpError.Listed : HttpError → Prop
  | .keyError _ | .indexError | .valueError _ => True
  | .unicodeError | .recursionError => False

/-- `sys.get_int_max_str_digits()`. -/
def INT_MAX_STR_DIGITS : Nat := 4300

def digitsValue (digits : List Char) : Nat := digits.foldl (fun n c => n * 10 + (c.toNat - 48)) 0

/-- `int` of decimal digits. -/
def pyInt (digits : List Char) : Except HttpError Nat :=
  if digits.length ≤ INT_MAX_STR_DIGITS then .ok (digitsValue digits)
  else .error (.valueError "Exceeds the limit (4300 digits) for integer string conversion")

def deepcopy (room : Nat) (value : Json) : Except HttpError Json :=
  if value.depth ≤ room then .ok value else .error .recursionError

def isNotBracket (c : Char) : Bool := c ≠ '[' && c ≠ ']'

/-- `re.fullmatch(r"([^\[\]]+)(?:\[([0-9]+)\])?", token)`. -/
def matchToken (token : List Char) : Option (String × Option (List Char)) :=
  let name := token.takeWhile isNotBracket
  match name, token.dropWhile isNotBracket with
  | [], _ => none
  | _ :: _, [] => some (.ofList name, none)
  | _ :: _, '[' :: inner =>
    let digits := inner.takeWhile Char.isDigit
    if digits ≠ [] ∧ inner.dropWhile Char.isDigit = [']'] then some (.ofList name, some digits) else none
  | _, _ => none

def pathError : HttpError := .valueError "invalid JSON path"

/-- One turn of the loop. -/
def followToken (current : Json) (token : List Char) : Except HttpError Json :=
  match matchToken token, current with
  | some (name, index), .obj fields =>
    match fields.lookup name, index with
    | none, _ => .error (.keyError name)
    | some found, none => .ok found
    | some (.arr items), some digits => do
      let i ← pyInt digits
      match items[i]? with
      | some item => .ok item
      | none => .error .indexError
    | some _, some _ => .error pathError
  | _, _ => .error pathError

def extractJsonPath (room : Nat) (value : Json) (path : String) : Except HttpError Json :=
  match path.toList with
  | ['$'] => deepcopy room value
  | '$' :: '.' :: rest => do
    let current ← (rest.splitOn '.').foldlM followToken value
    deepcopy room current
  | _ => .error pathError

def failedHttp : NodeOutcome Json := ⟨false, none, Dict.empty.set "error" (.str "HTTP request failed"), .empty⟩

/-- The exceptions that `_execute_http` takes. -/
def HttpError.taken : HttpError → Bool
  | .recursionError => false
  | _ => true

/-- What the rules find in a payload. -/
def extractRules (room : Nat) (value : Json) (rules : List (String × String)) : Except HttpError (List (String × Json)) :=
  rules.mapM fun rule => (extractJsonPath room value rule.2).map fun found => (rule.1, found)

/-- `_execute_http` after the response, with what `json.loads` makes of the body and how much room there is for the
copy of all that was found. -/
def finishHttp (room outer : Nat) (expected : List Int) (statusCode size : Int) (rules : List (String × String))
    (payload : Except HttpError Json) : Except HttpError (NodeOutcome Json) :=
  let extracted : Except HttpError (List (String × Json)) :=
    if rules = [] then .ok [] else payload.bind fun value => extractRules room value rules
  let finished : Except HttpError (NodeOutcome Json) := do
    let extracted ← extracted
    let copied ← deepcopy outer (.obj extracted)
    let details := ((Dict.empty.set "status_code" (.int statusCode)).set "response_size_bytes" (.int size)).set
      "extractions" copied
    return ⟨decide (statusCode ∈ expected), none, details, extracted.foldl (fun d e => d.set e.1 e.2) .empty⟩
  match finished with
  | .ok outcome => .ok outcome
  | .error e => if e.taken then .ok failedHttp else .error e

/-! ## Segments -/

namespace Segment

/-- The field, and the item if there is an index. -/
def steps (s : Segment) : List Step := .field (.ofList s.name) :: (s.index.toList.map fun digits => .item (digitsValue digits))

/-- `int` takes the index. -/
def Short (s : Segment) : Prop := ∀ digits ∈ s.index, digits.length ≤ INT_MAX_STR_DIGITS

theorem name_plain (s : Segment) : ∀ c ∈ s.name, c ≠ '[' ∧ c ≠ ']' ∧ c ≠ '.' := by
  have hall : ∀ c : Char, isNameRest c = true → c ≠ '[' ∧ c ≠ ']' ∧ c ≠ '.' := by
    intro c hc
    refine ⟨?_, ?_, ?_⟩ <;> rintro rfl <;> exact absurd hc (by decide)
  intro c hc
  rcases List.mem_cons.mp hc with rfl | hc
  · apply hall
    have hstart := s.first_start
    unfold isNameStart at hstart
    unfold isNameRest Char.isAlphanum
    simp only [Bool.or_eq_true] at hstart ⊢
    rcases hstart with hletter | hunderscore
    · exact .inl (.inl (.inl hletter))
    · exact .inl (.inr hunderscore)
  · exact hall c (s.rest_name c hc)

theorem matchToken_text (s : Segment) : matchToken s.text = some (.ofList s.name, s.index) := by
  have hplain : ∀ c ∈ s.name, isNotBracket c = true := by
    intro c hc
    obtain ⟨hopen, hclose, -⟩ := s.name_plain c hc
    simp [isNotBracket, hopen, hclose]
  unfold matchToken text
  cases hindex : s.index with
  | none =>
    simp only [indexText, List.append_nil]
    rw [List.takeWhile_eq_self_iff.mpr hplain, List.dropWhile_eq_nil_iff.mpr hplain]
    rfl
  | some digits =>
    obtain ⟨hsome, hdigits⟩ := s.index_digits digits hindex
    have hopen : isNotBracket '[' = false := by decide
    have hclose : Char.isDigit ']' = false := by decide
    obtain ⟨hname, hrest⟩ := takeWhile_append_stop (digits ++ [']']) hplain hopen
    obtain ⟨htaken, hleft⟩ := takeWhile_append_stop [] hdigits hclose
    simp only [indexText, hname, hrest]
    simp only [name, htaken, hleft, hsome, ne_eq, not_false_eq_true, and_self, if_true]

theorem not_dot_mem_text (s : Segment) : '.' ∉ s.text := by
  unfold text indexText
  rw [List.mem_append, not_or]
  refine ⟨fun h => (s.name_plain _ h).2.2 rfl, ?_⟩
  cases hindex : s.index with
  | none => simp
  | some digits =>
    obtain ⟨-, hdigits⟩ := s.index_digits digits hindex
    intro h
    simp only [List.mem_cons, List.mem_append, List.not_mem_nil, or_false] at h
    rcases h with h | h | h
    · cases h
    · exact absurd (hdigits _ h) (by decide)
    · cases h

end Segment

/-- After `$.` the path splits into its segments. -/
theorem splitOn_segments (s : Segment) (rest : List Segment) :
    (s.text ++ rest.flatMap fun s => '.' :: s.text).splitOn '.' = (s :: rest).map Segment.text := by
  have hjoin : s.text ++ (rest.flatMap fun s => '.' :: s.text) = ['.'].intercalate ((s :: rest).map Segment.text) := by
    induction rest generalizing s with
    | nil => simp
    | cons second rest ih =>
      rw [List.flatMap_cons, List.cons_append, ih second]
      simp [List.intercalate]
  rw [hjoin, List.splitOn_intercalate]
  · intro l hl
    obtain ⟨s, -, rfl⟩ := List.mem_map.mp hl
    exact s.not_dot_mem_text
  · simp

/-! ## The loop -/

theorem pyInt_ok_iff {digits : List Char} {i : Nat} :
    pyInt digits = .ok i ↔ digits.length ≤ INT_MAX_STR_DIGITS ∧ i = digitsValue digits := by
  unfold pyInt
  split
  · next h => simp [h, eq_comm]
  · next h => simp [h]

theorem pyInt_error {digits : List Char} {e : HttpError} (h : pyInt digits = .error e) : e.Listed := by
  unfold pyInt at h
  split at h
  · cases h
  · cases h
    trivial

/-- One turn takes the steps of a segment. -/
theorem followToken_ok_iff (current found : Json) (s : Segment) :
    followToken current s.text = .ok found ↔ current.at? s.steps = some found ∧ s.Short := by
  unfold followToken Segment.steps Segment.Short
  rw [s.matchToken_text, Json.at?_cons]
  cases current with
  | obj fields =>
    simp only [Json.child?]
    cases hlookup : fields.lookup (String.ofList s.name) with
    | none => simp
    | some value =>
      cases hindex : s.index with
      | none => simp
      | some digits =>
        simp only [Option.bind_some, Option.toList_some, List.map_cons, List.map_nil, Json.at?_cons, Json.at?_nil,
          Option.mem_def, Option.some.injEq, forall_eq']
        cases value with
        | arr items =>
          simp only [Json.child?, bind_eq_ok_iff, pyInt_ok_iff]
          constructor
          · rintro ⟨i, ⟨hshort, rfl⟩, h⟩
            refine ⟨?_, hshort⟩
            cases hitem : items[digitsValue digits]? with
            | none =>
              rw [hitem] at h
              cases h
            | some item =>
              rw [hitem] at h
              rw [Option.bind_some, Except.ok.inj h]
          · rintro ⟨hfound, hshort⟩
            refine ⟨_, ⟨hshort, rfl⟩, ?_⟩
            cases hitem : items[digitsValue digits]? with
            | none =>
              rw [hitem] at hfound
              cases hfound
            | some item =>
              rw [hitem, Option.bind_some] at hfound
              rw [Option.some.inj hfound]
        | _ => simp [Json.child?, pathError]
  | _ => simp [Json.child?, pathError]

theorem followToken_error {current : Json} {token : List Char} {e : HttpError} (h : followToken current token = .error e) :
    e.Listed := by
  unfold followToken at h
  split at h
  · split at h
    · cases h
      trivial
    · cases h
    · rcases (bind_eq_error_iff _ _ _).mp h with hint | ⟨i, -, h⟩
      · exact pyInt_error hint
      · split at h
        · cases h
        · cases h
          trivial
    · cases h
      trivial
  · cases h
    trivial

/-- The loop takes the steps of all segments. -/
theorem foldlM_followToken_ok_iff (value found : Json) (segments : List Segment) :
    (segments.map Segment.text).foldlM followToken value = .ok found ↔
      value.at? (segments.flatMap Segment.steps) = some found ∧ ∀ s ∈ segments, s.Short := by
  induction segments generalizing value with
  | nil => simp [pure_eq_ok_iff]
  | cons s rest ih =>
    simp only [List.map_cons, List.foldlM_cons, bind_eq_ok_iff, followToken_ok_iff, ih, List.flatMap_cons,
      Json.at?_append_eq_some, List.forall_mem_cons]
    constructor
    · rintro ⟨mid, ⟨hmid, hshort⟩, hfound, hrest⟩
      exact ⟨⟨mid, hmid, hfound⟩, hshort, hrest⟩
    · rintro ⟨⟨mid, hmid, hfound⟩, hshort, hrest⟩
      exact ⟨mid, ⟨hmid, hshort⟩, hfound, hrest⟩

theorem foldlM_followToken_error {value : Json} {tokens : List (List Char)} {e : HttpError}
    (h : tokens.foldlM followToken value = .error e) : e.Listed := by
  induction tokens generalizing value with
  | nil => cases h
  | cons token rest ih =>
    rw [List.foldlM_cons] at h
    rcases (bind_eq_error_iff _ _ _).mp h with h | ⟨mid, -, h⟩
    · exact followToken_error h
    · exact ih h

theorem deepcopy_ok_iff {room : Nat} {value copied : Json} :
    deepcopy room value = .ok copied ↔ copied = value ∧ value.depth ≤ room := by
  unfold deepcopy
  split
  · next h => simp [h, eq_comm]
  · next h => simp [h]

/-! ## A path that the pattern matches -/

section Path

variable {room : Nat} {value : Json}

/-- What the loop finds is copied. -/
theorem extractJsonPath_eq (segments : List Segment) : extractJsonPath room value (pathText segments) =
    ((segments.map Segment.text).foldlM followToken value >>= deepcopy room) := by
  unfold extractJsonPath pathText
  rw [String.toList_ofList]
  cases segments with
  | nil => rfl
  | cons s rest =>
    simp only [List.flatMap_cons, List.cons_append]
    rw [splitOn_segments]

theorem extractJsonPath_ok_iff (segments : List Segment) (found : Json) :
    extractJsonPath room value (pathText segments) = .ok found ↔
      value.at? (segments.flatMap Segment.steps) = some found ∧ (∀ s ∈ segments, s.Short) ∧ found.depth ≤ room := by
  rw [extractJsonPath_eq]
  simp only [bind_eq_ok_iff, foldlM_followToken_ok_iff, deepcopy_ok_iff]
  constructor
  · rintro ⟨_, ⟨hfound, hshort⟩, rfl, hroom⟩
    exact ⟨hfound, hshort, hroom⟩
  · rintro ⟨hfound, hshort, hroom⟩
    exact ⟨found, ⟨hfound, hshort⟩, rfl, hroom⟩

/-- Only the copy raises another error. -/
theorem extractJsonPath_error {segments : List Segment} {e : HttpError}
    (h : extractJsonPath room value (pathText segments) = .error e) :
    e.Listed ∨ e = .recursionError ∧ ∃ found, value.at? (segments.flatMap Segment.steps) = some found := by
  rw [extractJsonPath_eq] at h
  rcases (bind_eq_error_iff _ _ _).mp h with h | ⟨found, hfound, h⟩
  · exact .inl (foldlM_followToken_error h)
  · refine .inr ⟨?_, found, ((foldlM_followToken_ok_iff _ _ _).mp hfound).1⟩
    unfold deepcopy at h
    split at h
    · cases h
    · exact (Except.error.inj h).symm

/-- The path gives exactly the value it leads to, and one of the three errors where it leads to none. -/
def Exact (room : Nat) (value : Json) (segments : List Segment) : Prop :=
  match value.at? (segments.flatMap Segment.steps) with
  | some found => extractJsonPath room value (pathText segments) = .ok found
  | none => ∃ e, extractJsonPath room value (pathText segments) = .error e ∧ e.Listed

theorem exact_iff (segments : List Segment) : Exact room value segments ↔
    ∀ found, value.at? (segments.flatMap Segment.steps) = some found →
      (∀ s ∈ segments, s.Short) ∧ found.depth ≤ room := by
  unfold Exact
  cases hat : value.at? (segments.flatMap Segment.steps) with
  | some found => simp [extractJsonPath_ok_iff, hat]
  | none =>
    simp only [reduceCtorEq, false_implies, implies_true, iff_true]
    cases hextract : extractJsonPath room value (pathText segments) with
    | ok found =>
      rw [extractJsonPath_ok_iff, hat] at hextract
      cases hextract.1
    | error e =>
      rcases extractJsonPath_error hextract with hlisted | ⟨-, found, hfound⟩
      · exact ⟨e, rfl, hlisted⟩
      · rw [hat] at hfound
        cases hfound

/-- A path of at most 1024 characters has no index too long for `int`. -/
theorem short_of_length {segments : List Segment} (h : (pathText segments).length ≤ 1024) : ∀ s ∈ segments, s.Short := by
  intro s hs digits hdigits
  unfold pathText at h
  rw [String.length_ofList, List.length_cons] at h
  have htext : s.text.length + 1 ≤ (segments.flatMap fun s => '.' :: s.text).length := by
    have hsub := List.sublist_flatten_of_mem (List.mem_map_of_mem (f := fun s : Segment => '.' :: s.text) hs)
    exact hsub.length_le
  have hlength : digits.length ≤ s.text.length := by
    simp only [Segment.text, Option.mem_def.mp hdigits, Segment.indexText, List.length_append, List.length_cons]
    omega
  unfold INT_MAX_STR_DIGITS
  omega

end Path

/-! ## The node -/

section Node

variable {room outer : Nat} {value : Json} {expected : List Int} {statusCode size : Int}

theorem HttpError.Listed.taken {e : HttpError} (h : e.Listed) : e.taken = true := by
  cases e with
  | recursionError => exact absurd h id
  | _ => rfl

/-- A rule that raises one of the three errors fails the node, and nothing is extracted. -/
theorem finishHttp_failed {rules : List (String × String)}
    (hlisted : ∀ rule ∈ rules, ∀ e, extractJsonPath room value rule.2 = .error e → e.Listed)
    (hfails : ∃ rule ∈ rules, ∃ e, extractJsonPath room value rule.2 = .error e) :
    finishHttp room outer expected statusCode size rules (.ok value) = .ok failedHttp := by
  have hextract : ∃ e, extractRules room value rules = .error e ∧ e.Listed := by
    unfold extractRules
    induction rules with
    | nil =>
      obtain ⟨rule, hrule, -⟩ := hfails
      cases hrule
    | cons first rest ih =>
      obtain ⟨hfirst, hrest⟩ := List.forall_mem_cons.mp hlisted
      rw [List.mapM_cons]
      cases hfound : extractJsonPath room value first.2 with
      | error e => exact ⟨e, rfl, hfirst e hfound⟩
      | ok found =>
        obtain ⟨rule, hrule, e, he⟩ := hfails
        rcases List.mem_cons.mp hrule with rfl | hrule
        · rw [hfound] at he
          cases he
        · obtain ⟨e, he, hl⟩ := ih hrest ⟨rule, hrule, e, he⟩
          exact ⟨e, by rw [he]; rfl, hl⟩
  obtain ⟨e, he, hl⟩ := hextract
  have hsome : rules ≠ [] := by
    rintro rfl
    obtain ⟨rule, hrule, -⟩ := hfails
    cases hrule
  unfold finishHttp
  simp only [if_neg hsome, Except.bind, he, error_bind, hl.taken, if_true]

end Node

/-- `extract_json_path` and the patterns of its paths agree, unless a copy needs more room than there is or an index is
too long for `int`; and its errors end in a failed node. -/
theorem extractJsonPath_exact_iff (room : Nat) (value : Json) :
    (∀ segments, Exact room value segments ↔ ∀ found, value.at? (segments.flatMap Segment.steps) = some found →
      (∀ s ∈ segments, s.Short) ∧ found.depth ≤ room) ∧
    ∀ (outer : Nat) (expected : List Int) (statusCode size : Int) (rules : List (String × String)),
      (∀ rule ∈ rules, ∀ e, extractJsonPath room value rule.2 = .error e → e.Listed) →
      (∃ rule ∈ rules, ∃ e, extractJsonPath room value rule.2 = .error e) →
      finishHttp room outer expected statusCode size rules (.ok value) = .ok failedHttp ∧
        failedHttp.succeeded = false ∧ failedHttp.extracted = .empty :=
  ⟨exact_iff, fun _ _ _ _ _ hlisted hfails => ⟨finishHttp_failed hlisted hfails, rfl, rfl⟩⟩

/-- `{"items": [7]}` -/
def itemsPayload : Json := .obj [("items", .arr [.int 7])]

/-- `items[0]` -/
def firstItem : Segment where
  first := 'i'
  rest := ['t', 'e', 'm', 's']
  index := some ['0']
  first_start := by decide
  rest_name := forall_mem_of_all (by decide)
  index_digits := by
    intro digits hdigits
    obtain rfl := Option.some.inj hdigits
    exact ⟨List.cons_ne_nil _ _, forall_mem_of_all (by decide)⟩

theorem items_extracted : Exact 480 itemsPayload [firstItem] ∧
    extractJsonPath 480 itemsPayload "$.items[0]" = .ok (.int 7) ∧
    finishHttp 480 480 [200] 200 13 [("first", "$.items[0]"), ("other", "$.other")] (.ok itemsPayload) =
      .ok failedHttp := by
  obtain ⟨hexact, hfails⟩ := extractJsonPath_exact_iff 480 itemsPayload
  have hmissing : extractJsonPath 480 itemsPayload "$.other" = .error (.keyError "other") := rfl
  have hfirst : extractJsonPath 480 itemsPayload "$.items[0]" = .ok (.int 7) := rfl
  refine ⟨(hexact [firstItem]).mpr ?_, hfirst, (hfails 480 [200] 200 13 _ ?_ ?_).1⟩
  · intro found hfound
    obtain rfl : Json.int 7 = found := Option.some.inj hfound
    refine ⟨short_of_length (by decide), by decide⟩
  · intro rule hrule e he
    rcases List.mem_cons.mp hrule with rfl | hrule
    · rw [hfirst] at he
      cases he
    · obtain rfl := List.mem_singleton.mp hrule
      rw [hmissing] at he
      cases he
      trivial
  · exact ⟨("other", "$.other"), by simp, _, hmissing⟩

/-! ## A payload that nests too deep -/

def nested : Nat → Json
  | 0 => .null
  | n + 1 => .arr [nested n]

theorem depth_nested (n : Nat) : (nested n).depth = n := by
  induction n with
  | zero => rfl
  | succ n ih => simp [nested, Json.depth, Json.depthItems, ih]

/-- The whole payload is asked for, and the error passes the handlers of the node. -/
theorem nested_payload_escapes : (nested 600).at? ([].flatMap Segment.steps) = some (nested 600) ∧
    extractJsonPath 480 (nested 600) (pathText []) = .error .recursionError ∧
    finishHttp 480 480 [200] 200 1200 [("all", "$")] (.ok (nested 600)) = .error .recursionError := by
  have hraises : extractJsonPath 480 (nested 600) "$" = .error .recursionError := by
    have hdeep : ¬ (nested 600).depth ≤ 480 := by
      rw [depth_nested]
      omega
    change deepcopy 480 (nested 600) = _
    unfold deepcopy
    exact if_neg hdeep
  refine ⟨rfl, hraises, ?_⟩
  simp [finishHttp, extractRules, Except.bind, hraises, Except.map, error_bind, HttpError.taken]

end SmartTest.Workflow
