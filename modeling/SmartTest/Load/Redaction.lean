import SmartTest.Lib.Scan
import SmartTest.Lib.Text
import SmartTest.Load.Templates

/-!
# What is stored of a response

`_response_details` of `services/api/load_test_executor.py` with its two redactions. A JSON
body is redacted by the keys of its objects, any other text by one regular expression.
-/

open SmartTest.Lib SmartTest.Run

namespace SmartTest.Load

def SENSITIVE_RESPONSE_KEYS : List String := ["authorization", "cookie", "password", "passwd", "secret", "token"]

def REDACTED : String := "[REDACTED]"

/-! ## JSON -/

/-- `marker in text`. -/
def contains (marker : List Char) : List Char → Bool
  | [] => marker.isEmpty
  | c :: rest => marker.isPrefixOf (c :: rest) || contains marker rest

section Json

variable (lower : String → String)

/-- `any(marker in key.lower() for marker in _SENSITIVE_RESPONSE_KEYS)`. -/
def isSensitive (key : String) : Bool :=
  SENSITIVE_RESPONSE_KEYS.any fun marker => contains marker.toList (lower key).toList

mutual

def redactResponse : Json → Json
  | .obj fields => .obj (redactFields fields)
  | .arr items => .arr (redactItems items)
  | .null => .null
  | .bool b => .bool b
  | .int n => .int n
  | .float q => .float q
  | .str s => .str s

def redactItems : List Json → List Json
  | [] => []
  | item :: rest => redactResponse item :: redactItems rest

def redactFields : List (String × Json) → List (String × Json)
  | [] => []
  | (key, item) :: rest =>
    (key, if isSensitive lower key then .str REDACTED else redactResponse item) :: redactFields rest

end

end Json

/-! ## Text -/

/-- The ASCII letter that `(?i)` takes a character for: its lower case, and four letters that are not ASCII. -/
def foldCase (c : Char) : Char :=
  if 'A' ≤ c ∧ c ≤ 'Z' then Char.ofNat (c.toNat + 32)
  else if c.toNat = 0x212a then 'k'
  else if c.toNat = 0x17f then 's'
  else if c.toNat = 0x130 ∨ c.toNat = 0x131 then 'i'
  else c

/-- A word at the start of a text, in any case. -/
def takeWord (word text : List Char) : Option (List Char × List Char) :=
  if (text.take word.length).map foldCase = word then some (text.take word.length, text.drop word.length) else none

/-- `(authorization|cookie|password|passwd|secret|token)`; none of the words starts another. -/
def takeKey (text : List Char) : Option (List Char × List Char) :=
  SENSITIVE_RESPONSE_KEYS.findSome? fun word => takeWord word.toList text

/-- `[^\s,;&]`. -/
def isValueChar (c : Char) : Bool := !isSpace c && c ≠ ',' && c ≠ ';' && c ≠ '&'

def isSeparator (c : Char) : Bool := c = '=' || c = ':'

/-- The pattern of `_redact_text` at the start of a text: what its first two groups are, and what is after it. -/
def matchSecret (text : List Char) : Option (List Char × List Char) := do
  let (key, rest) ← takeKey text
  match rest.dropWhile isSpace with
  | [] => none
  | separator :: after =>
    if isSeparator separator ∧ (after.dropWhile isSpace).takeWhile isValueChar ≠ [] then
      return (key ++ rest.takeWhile isSpace ++ separator :: after.takeWhile isSpace,
        (after.dropWhile isSpace).dropWhile isValueChar)
    else none

/-- `\1\2[REDACTED]`. -/
def redactPiece : Piece Char (List Char) → List Char
  | .plain c => [c]
  | .token kept => kept ++ REDACTED.toList

def redactText (text : String) : String := .ofList ((scan matchSecret 0 text.toList).flatMap redactPiece)

/-! ## Details -/

/-- `"\n"` and the indent of the level. -/
def newline (depth : Nat) : List Char := '\n' :: List.replicate (2 * depth) ' '

mutual

/-- `json.dumps(value, ensure_ascii=False, indent=2)`. -/
def writeIndented (spelling : Spelling) (depth : Nat) : Json → List Char
  | .arr [] => ['[', ']']
  | .arr (item :: rest) =>
    '[' :: newline (depth + 1) ++ writeIndented spelling (depth + 1) item ++
      writeIndentedItems spelling (depth + 1) rest ++ newline depth ++ [']']
  | .obj [] => ['\x7b', '\x7d']
  | .obj ((key, item) :: rest) =>
    '\x7b' :: newline (depth + 1) ++ writeString spelling.raw key ++ [':', ' '] ++
      writeIndented spelling (depth + 1) item ++ writeIndentedFields spelling (depth + 1) rest ++ newline depth ++
      ['\x7d']
  | value => value.write spelling

def writeIndentedItems (spelling : Spelling) (depth : Nat) : List Json → List Char
  | [] => []
  | item :: rest =>
    ',' :: newline depth ++ writeIndented spelling depth item ++ writeIndentedItems spelling depth rest

def writeIndentedFields (spelling : Spelling) (depth : Nat) : List (String × Json) → List Char
  | [] => []
  | (key, item) :: rest =>
    ',' :: newline depth ++ writeString spelling.raw key ++ [':', ' '] ++ writeIndented spelling depth item ++
      writeIndentedFields spelling depth rest

end

/-- What `json.loads` makes of a text: a value, `JSONDecodeError`, or something else that it raises. -/
inductive Loaded where
  | value (value : Json)
  | notJson
  | raises (e : StepError)

/-- What the code asks the libraries: `decode("utf-8")`, `json.loads`, `str.lower` and how a float is spelled. -/
structure Readers where
  decode : List UInt8 → Option String
  loads : String → Loaded
  lower : String → String
  floatText : Rat → List Char

/-- The details of a response, with the body that a sample of the metrics holds. -/
structure CapturedDetails extends ResponseDetails where
  sampleBody : Option Json

section Details

variable (readers : Readers)

/-- The payload of a text, where `null` is none. -/
def payloadOf (text : String) (truncated : Bool) : Except StepError (Option Json) :=
  if truncated then .ok none
  else match readers.loads text with
    | .value .null | .notJson => .ok none
    | .value value => .ok (some value)
    | .raises e => .error e

/-- `_response_details`. -/
def responseDetails (raw : List UInt8) (truncated : Bool) (bodyBytes : Nat) : Except StepError CapturedDetails :=
  if raw = [] then .ok ⟨⟨none, "empty", truncated, bodyBytes⟩, none⟩
  else match readers.decode raw with
    | none => .ok ⟨⟨none, "binary", truncated, bodyBytes⟩, none⟩
    | some text => do
      match ← payloadOf readers text truncated with
      | none => return ⟨⟨some (redactText text), "text", truncated, bodyBytes⟩, none⟩
      | some payload =>
        let redacted := redactResponse readers.lower payload
        return ⟨⟨some (.ofList (writeIndented (utf8Spelling readers.floatText) 0 redacted)), "json", false, bodyBytes⟩,
          some redacted⟩

end Details

/-! ## What a redacted payload shows -/

section Shown

variable (lower : String → String)

mutual

/-- Two values that differ only in what stands under sensitive keys. -/
def SameShown : Json → Json → Prop
  | .obj fields, .obj others => SameShownFields fields others
  | .arr items, .arr others => SameShownItems items others
  | value, other => value = other

def SameShownItems : List Json → List Json → Prop
  | [], [] => True
  | item :: rest, other :: others => SameShown item other ∧ SameShownItems rest others
  | _, _ => False

def SameShownFields : List (String × Json) → List (String × Json) → Prop
  | [], [] => True
  | (key, item) :: rest, (key', other) :: others =>
    key = key' ∧ (isSensitive lower key = true ∨ SameShown item other) ∧ SameShownFields rest others
  | _, _ => False

end

variable {lower}

mutual

/-- Redaction shows nothing of what stands under a sensitive key. -/
theorem redactResponse_congr : ∀ {value other : Json}, SameShown lower value other →
    redactResponse lower value = redactResponse lower other
  | .obj fields, other, h => by
    cases other with
    | obj others =>
      unfold SameShown at h
      unfold redactResponse
      rw [redactFields_congr h]
    | _ => simp [SameShown] at h
  | .arr items, other, h => by
    cases other with
    | arr others =>
      unfold SameShown at h
      unfold redactResponse
      rw [redactItems_congr h]
    | _ => simp [SameShown] at h
  | .null, other, h | .bool _, other, h | .int _, other, h | .float _, other, h | .str _, other, h => by
    simp only [SameShown] at h
    rw [h]

theorem redactItems_congr : ∀ {items others : List Json}, SameShownItems lower items others →
    redactItems lower items = redactItems lower others
  | [], others, h => by
    cases others with
    | nil => rfl
    | cons _ _ => simp [SameShownItems] at h
  | item :: rest, others, h => by
    cases others with
    | nil => simp [SameShownItems] at h
    | cons other others =>
      simp only [SameShownItems] at h
      unfold redactItems
      rw [redactResponse_congr h.1, redactItems_congr h.2]

theorem redactFields_congr : ∀ {fields others : List (String × Json)}, SameShownFields lower fields others →
    redactFields lower fields = redactFields lower others
  | [], others, h => by
    cases others with
    | nil => rfl
    | cons _ _ => simp [SameShownFields] at h
  | (key, item) :: rest, others, h => by
    cases others with
    | nil => simp [SameShownFields] at h
    | cons other others =>
      obtain ⟨key', other⟩ := other
      simp only [SameShownFields] at h
      obtain ⟨rfl, hitem, hrest⟩ := h
      unfold redactFields
      rw [redactFields_congr hrest]
      rcases hitem with hsensitive | hitem
      · simp only [hsensitive, if_true]
      · rw [redactResponse_congr hitem]

end

mutual

/-- What is not under a sensitive key stays as it is. -/
theorem sameShown_redactResponse : ∀ value : Json, SameShown lower value (redactResponse lower value)
  | .obj fields => by
    simp only [redactResponse, SameShown]
    exact sameShown_redactFields fields
  | .arr items => by
    simp only [redactResponse, SameShown]
    exact sameShown_redactItems items
  | .null | .bool _ | .int _ | .float _ | .str _ => by simp only [redactResponse, SameShown]

theorem sameShown_redactItems : ∀ items : List Json, SameShownItems lower items (redactItems lower items)
  | [] => by simp only [redactItems, SameShownItems]
  | item :: rest => by
    simp only [redactItems, SameShownItems]
    exact ⟨sameShown_redactResponse item, sameShown_redactItems rest⟩

theorem sameShown_redactFields : ∀ fields : List (String × Json),
    SameShownFields lower fields (redactFields lower fields)
  | [] => by simp only [redactFields, SameShownFields]
  | (key, item) :: rest => by
    simp only [redactFields, SameShownFields, true_and]
    refine ⟨?_, sameShown_redactFields rest⟩
    by_cases hsensitive : isSensitive lower key = true
    · exact .inl hsensitive
    · rw [if_neg hsensitive]
      exact .inr (sameShown_redactResponse item)

end

/-- A second redaction finds what the first has left. -/
theorem redactResponse_idem (value : Json) :
    redactResponse lower (redactResponse lower value) = redactResponse lower value :=
  (redactResponse_congr (sameShown_redactResponse value)).symm

end Shown

def IsContainer : Json → Prop
  | .obj _ | .arr _ => True
  | _ => False

theorem responseDetails_json {readers : Readers} {raw : List UInt8} {bodyBytes : Nat} {text : String} {value : Json}
    (hraw : raw ≠ []) (htext : readers.decode raw = some text) (hvalue : readers.loads text = .value value)
    (hcontainer : IsContainer value) : responseDetails readers raw false bodyBytes =
      .ok ⟨⟨some (.ofList (writeIndented (utf8Spelling readers.floatText) 0 (redactResponse readers.lower value))),
        "json", false, bodyBytes⟩, some (redactResponse readers.lower value)⟩ := by
  have hpayload : payloadOf readers text false = .ok (some value) := by
    unfold payloadOf
    rw [hvalue]
    cases value with
    | obj fields => rfl
    | arr items => rfl
    | _ => cases hcontainer
  unfold responseDetails
  rw [if_neg hraw, htext]
  simp only [hpayload]
  rfl

/-- Of two JSON bodies that differ only under sensitive keys the same is stored, and redaction changes nothing
else. -/
theorem redaction_noninterfering (readers : Readers) :
    (∀ value other, SameShown readers.lower value other →
      redactResponse readers.lower value = redactResponse readers.lower other) ∧
    (∀ raw raw' text text' value other bodyBytes bodyBytes', raw ≠ [] → raw' ≠ [] →
      readers.decode raw = some text → readers.decode raw' = some text' →
      readers.loads text = .value value → readers.loads text' = .value other →
      IsContainer value → SameShown readers.lower value other →
      ∃ details details', responseDetails readers raw false bodyBytes = .ok details ∧
        responseDetails readers raw' false bodyBytes' = .ok details' ∧
        details.body = details'.body ∧ details.sampleBody = details'.sampleBody) ∧
    (∀ value, SameShown readers.lower value (redactResponse readers.lower value)) ∧
    ∀ value, redactResponse readers.lower (redactResponse readers.lower value) = redactResponse readers.lower value := by
  refine ⟨fun value other => redactResponse_congr, ?_, sameShown_redactResponse, redactResponse_idem⟩
  intro raw raw' text text' value other bodyBytes bodyBytes' hraw hraw' htext htext' hvalue hother hcontainer hsame
  have hcontainer' : IsContainer other := by
    cases value with
    | obj _ => cases other with
      | obj _ => trivial
      | _ => simp [SameShown] at hsame
    | arr _ => cases other with
      | arr _ => trivial
      | _ => simp [SameShown] at hsame
    | _ => cases hcontainer
  refine ⟨_, _, responseDetails_json hraw htext hvalue hcontainer, responseDetails_json hraw' htext' hother hcontainer',
    ?_, ?_⟩
  · rw [redactResponse_congr hsame]
  · rw [redactResponse_congr hsame]

end SmartTest.Load
