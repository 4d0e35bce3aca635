import SmartTest.Lib.Except
import SmartTest.Lib.JsonPath
import SmartTest.Lib.JsonText
import SmartTest.Load.Domain

/-!
# Templates

`render_templates` of `services/api/data_factory_executor.py` and `render_dynamic_templates`
of `services/api/load_test_executor.py`. A text that is one token becomes the value of the
token, with its JSON type; in any other text the tokens are written out.
-/

open SmartTest.Lib SmartTest.Run

namespace SmartTest.Load

/-- What a step of a scenario raises, by the class a handler asks for. `LoadTestExecutionError` is a `ValueError`. -/
inductive StepError where
  | workflowExecutionError (message : String)
  | valueError (message : String)
  | typeError
  | attributeError
  | recursionError
  deriving DecidableEq, Repr

/-! ## Tokens in a text -/

/-- The text with every token replaced, from left to right. `skip` characters are left of the last token. -/
def substitute (token : List Char → Option (String × List Char)) (value : String → Except StepError (List Char)) :
    Nat → List Char → Except StepError (List Char)
  | _, [] => .ok []
  | skip + 1, _ :: rest => substitute token value skip rest
  | 0, c :: rest =>
    match token (c :: rest) with
    | some (name, after) => do
      let text ← value name
      let tail ← substitute token value (rest.length - after.length) rest
      return text ++ tail
    | none => do
      let tail ← substitute token value 0 rest
      return c :: tail

/-- A text that is one token, or one with tokens in it. -/
def renderText (token : List Char → Option (String × List Char)) (value : String → Except StepError Json)
    (stringify : Json → List Char) (text : String) : Except StepError Json :=
  match token text.toList with
  | some (name, []) => value name
  | _ => do
    let chars ← substitute token (fun name => (value name).map stringify) 0 text.toList
    return .str (.ofList chars)

mutual

/-- Every text in a value. -/
def renderJson (text : String → Except StepError Json) : Json → Except StepError Json
  | .str s => text s
  | .arr items => (renderItems text items).map .arr
  | .obj fields => (renderFields text fields).map .obj
  | .null => .ok .null
  | .bool b => .ok (.bool b)
  | .int n => .ok (.int n)
  | .float q => .ok (.float q)

def renderItems (text : String → Except StepError Json) : List Json → Except StepError (List Json)
  | [] => .ok []
  | item :: rest => do
    let item ← renderJson text item
    let rest ← renderItems text rest
    return item :: rest

def renderFields (text : String → Except StepError Json) :
    List (String × Json) → Except StepError (List (String × Json))
  | [] => .ok []
  | (key, item) :: rest => do
    let item ← renderJson text item
    let rest ← renderFields text rest
    return (key, item) :: rest

end

/-- `json.dumps(value, ensure_ascii=False, separators=(",", ":"))`, or the text itself. -/
def stringifyTemplateValue (floatText : Rat → List Char) : Json → List Char
  | .str s => s.toList
  | value => value.write (utf8Spelling floatText)

/-! ## Variables -/

def isNameChar (c : Char) : Bool := c.isAlphanum || c = '_'

/-- `_TEMPLATE` at the start of a text. -/
def matchTemplate : List Char → Option (String × List Char)
  | '\x7b' :: '\x7b' :: rest =>
    let name := String.ofList (rest.takeWhile isNameChar)
    match rest.dropWhile isNameChar with
    | '\x7d' :: '\x7d' :: after => if isVariableName name then some (name, after) else none
    | _ => none
  | _ => none

def templateValue (vars : Dict String Json) (name : String) : Except StepError Json :=
  match vars.get? name with
  | some value => .ok value
  | none => .error (.workflowExecutionError "a required template variable is missing")

/-- A variable that takes the place of a token, by `deepcopy` or `json.dumps`: it may nest `room` deep. -/
def heldValue (room : Nat) (vars : Dict String Json) (name : String) : Except StepError Json := do
  let value ← templateValue vars name
  if value.depth ≤ room then return value else .error .recursionError

/-- `renderTemplates` on one text, with the room that there is for the values in it. -/
def renderHeld (floatText : Rat → List Char) (room : String → Nat) (vars : Dict String Json) (text : String) :
    Except StepError Json :=
  renderText matchTemplate (heldValue (room text) vars) (stringifyTemplateValue floatText) text

/-! ## Dynamic values -/

/-- What the code draws: a UUID, the time, and random numbers for each expression. -/
structure DynamicDraws where
  uuid : String
  seconds : Int
  milliseconds : Int
  number : String → Nat → Nat

def LOWERCASE : List Char := "abcdefghijklmnopqrstuvwxyz".toList
def UPPERCASE : List Char := "ABCDEFGHIJKLMNOPQRSTUVWXYZ".toList
def DIGITS : List Char := "0123456789".toList

def dynamicError : StepError := .workflowExecutionError "a dynamic template is invalid"

namespace DynamicDraws

variable (draws : DynamicDraws) (expression : String)

/-- `secrets.randbelow(bound)`. -/
def below (i bound : Nat) : Nat := draws.number expression i % bound

/-- `length` choices from the alphabet, after the first `start` draws. -/
def text (start length : Nat) (alphabet : List Char) : List Char :=
  (List.range length).map fun i => alphabet.getD (draws.below expression (start + i) alphabet.length) '0'

end DynamicDraws

/-- The argument of `name(...)`. -/
def argumentOf (name expression : String) : Option (List Char) :=
  let opening := name.toList ++ ['(']
  if opening.isPrefixOf expression.toList && (expression.toList.drop opening.length).getLast? = some ')' then
    some (expression.toList.drop opening.length).dropLast
  else none

/-- `[0-9]{1,limit}`. -/
def readDigits (limit : Nat) (text : List Char) : Option Nat :=
  if 1 ≤ text.length ∧ text.length ≤ limit ∧ text.all Char.isDigit then
    some (text.foldl (fun n c => n * 10 + (c.toNat - 48)) 0)
  else none

/-- `-?[0-9]{1,10}`. -/
def readSigned : List Char → Option Int
  | '-' :: rest => (readDigits 10 rest).map fun n => -(n : Int)
  | text => (readDigits 10 text).map fun n => (n : Int)

def trim (text : List Char) : List Char := (strip (.ofList text)).toList

/-- `randomInt(minimum, maximum)`. -/
def randomInt (draws : DynamicDraws) (expression : String) : Option (Except StepError Json) := do
  let argument ← argumentOf "randomInt" expression
  match argument.splitOn ',' with
  | [first, second] =>
    let minimum ← readSigned (trim first)
    let maximum ← readSigned (trim second)
    if minimum < -1000000000 ∨ maximum > 1000000000 ∨ minimum > maximum then return .error dynamicError
    return .ok (.int (minimum + draws.below expression 0 (maximum - minimum + 1).toNat))
  | _ => none

/-- `randomString(length)` and `randomDigits(length)`. -/
def randomSized (draws : DynamicDraws) (expression name : String) (alphabet : List Char) :
    Option (Except StepError Json) := do
  let argument ← argumentOf name expression
  let length ← readDigits 3 (trim argument)
  if 1 ≤ length ∧ length ≤ 128 then return .ok (.str (.ofList (draws.text expression 0 length alphabet)))
  return .error dynamicError

/-- `randomChoice(first,second,...)`. -/
def randomChoice (draws : DynamicDraws) (expression : String) : Option (Except StepError Json) := do
  let argument ← argumentOf "randomChoice" expression
  if argument.any fun c => c = '(' || c = ')' then none
  let options := (argument.splitOn ',').map trim
  if options.length < 2 ∨ options.length > 20 ∨ options.any fun item => item = [] || item.length > 128 then
    return .error dynamicError
  return .ok (.str (.ofList (options.getD (draws.below expression 0 options.length) [])))

def generateDynamicValue (draws : DynamicDraws) (expression : String) (sequence : Nat) : Except StepError Json :=
  if expression = "uuid" then .ok (.str draws.uuid)
  else if expression = "sequence" then .ok (.int sequence)
  else if expression = "timestamp" then .ok (.int draws.seconds)
  else if expression = "timestampMs" then .ok (.int draws.milliseconds)
  else if expression = "randomBoolean" then .ok (.bool (draws.below expression 0 2 = 1))
  else if expression = "randomPhone" then
    .ok (.str (.ofList ('1' :: (draws.text expression 0 1 "3456789".toList ++ draws.text expression 1 9 DIGITS))))
  else if expression = "randomEmail" then
    .ok (.str ("test_" ++ .ofList (draws.text expression 0 10 (LOWERCASE ++ DIGITS)) ++ "@example.com"))
  else
    ((randomInt draws expression).or <| (randomSized draws expression "randomString"
      (LOWERCASE ++ UPPERCASE ++ DIGITS)).or <| (randomSized draws expression "randomDigits" DIGITS).or <|
      randomChoice draws expression).getD (.error dynamicError)

/-- `_DYNAMIC_TEMPLATE` at the start of a text. -/
def matchDynamic : List Char → Option (String × List Char)
  | '\x7b' :: '\x7b' :: '$' :: first :: more =>
    let rest := first :: more
    if first.isAlpha then
      let name := rest.takeWhile Char.isAlphanum
      match rest.dropWhile Char.isAlphanum with
      | '\x7d' :: '\x7d' :: after => some (.ofList name, after)
      | '(' :: inner =>
        let plain := fun c => c ≠ '\x7b' ∧ c ≠ '\x7d'
        let argument := inner.takeWhile plain
        match inner.dropWhile plain with
        | '\x7d' :: '\x7d' :: after =>
          -- The last of the plain characters is the closing parenthesis.
          if argument.getLast? = some ')' ∧ argument.length ≤ 129 then some (.ofList (name ++ '(' :: argument), after)
          else none
        | _ => none
      | _ => none
    else none
  | _ => none

def renderDynamicTemplates (floatText : Rat → List Char) (draws : DynamicDraws) (sequence : Nat) :
    Json → Except StepError Json :=
  renderJson (renderText matchDynamic (fun expression => generateDynamicValue draws expression sequence)
    (stringifyTemplateValue floatText))

theorem substitute_plain {token : List Char → Option (String × List Char)}
    {value : String → Except StepError (List Char)} {c : Char} {rest : List Char} (h : token (c :: rest) = none) :
    substitute token value 0 (c :: rest) = (substitute token value 0 rest).map (c :: ·) := by
  simp only [substitute, h]
  cases substitute token value 0 rest <;> rfl

/-! ## What rendering raises -/

/-- The errors of the templates themselves. -/
def StepError.OfTemplate (e : StepError) : Prop := ∃ message, e = .workflowExecutionError message

theorem substitute_error {token : List Char → Option (String × List Char)}
    {value : String → Except StepError (List Char)} (hvalue : ∀ name e, value name = .error e → e.OfTemplate)
    {skip : Nat} {text : List Char} {e : StepError} (h : substitute token value skip text = .error e) :
    e.OfTemplate := by
  induction text generalizing skip with
  | nil => cases skip <;> cases h
  | cons c rest ih =>
    cases skip with
    | succ skip => exact ih h
    | zero =>
      simp only [substitute] at h
      split at h
      · next name after _ =>
        rcases (bind_eq_error_iff _ _ _).mp h with hname | ⟨chars, -, h⟩
        · exact hvalue name e hname
        · rcases (bind_eq_error_iff _ _ _).mp h with htail | ⟨tail, -, h⟩
          · exact ih htail
          · cases h
      · rcases (bind_eq_error_iff _ _ _).mp h with htail | ⟨tail, -, h⟩
        · exact ih htail
        · cases h

theorem renderText_error {token : List Char → Option (String × List Char)} {value : String → Except StepError Json}
    (hvalue : ∀ name e, value name = .error e → e.OfTemplate) {stringify : Json → List Char} {text : String}
    {e : StepError} (h : renderText token value stringify text = .error e) : e.OfTemplate := by
  unfold renderText at h
  split at h
  · exact hvalue _ e h
  · rcases (bind_eq_error_iff _ _ _).mp h with hchars | ⟨chars, -, h⟩
    · refine substitute_error ?_ hchars
      intro name e hname
      exact hvalue name e ((map_eq_error_iff _ _ _).mp hname)
    · cases h

section Render

variable {text : String → Except StepError Json}

mutual

theorem renderJson_error (htext : ∀ s e, text s = .error e → e.OfTemplate) :
    ∀ (value : Json) (e : StepError), renderJson text value = .error e → e.OfTemplate
  | .str s, e, h => htext s e (by simpa only [renderJson] using h)
  | .arr items, e, h => renderItems_error htext items e ((map_eq_error_iff _ _ _).mp (by simpa only [renderJson] using h))
  | .obj fields, e, h => renderFields_error htext fields e ((map_eq_error_iff _ _ _).mp (by simpa only [renderJson] using h))
  | .null, e, h | .bool _, e, h | .int _, e, h | .float _, e, h => by simp [renderJson] at h

theorem renderItems_error (htext : ∀ s e, text s = .error e → e.OfTemplate) :
    ∀ (items : List Json) (e : StepError), renderItems text items = .error e → e.OfTemplate
  | [], e, h => by simp [renderItems] at h
  | item :: rest, e, h => by
    simp only [renderItems] at h
    rcases (bind_eq_error_iff _ _ _).mp h with hitem | ⟨item', -, h⟩
    · exact renderJson_error htext item e hitem
    · rcases (bind_eq_error_iff _ _ _).mp h with hrest | ⟨rest', -, h⟩
      · exact renderItems_error htext rest e hrest
      · cases h

theorem renderFields_error (htext : ∀ s e, text s = .error e → e.OfTemplate) :
    ∀ (fields : List (String × Json)) (e : StepError), renderFields text fields = .error e → e.OfTemplate
  | [], e, h => by simp [renderFields] at h
  | (key, item) :: rest, e, h => by
    simp only [renderFields] at h
    rcases (bind_eq_error_iff _ _ _).mp h with hitem | ⟨item', -, h⟩
    · exact renderJson_error htext item e hitem
    · rcases (bind_eq_error_iff _ _ _).mp h with hrest | ⟨rest', -, h⟩
      · exact renderFields_error htext rest e hrest
      · cases h

end

end Render

theorem templateValue_error {vars : Dict String Json} {name : String} {e : StepError}
    (h : templateValue vars name = .error e) : e.OfTemplate := by
  unfold templateValue at h
  split at h
  · cases h
  · exact ⟨_, (Except.error.inj h).symm⟩

theorem randomInt_error {draws : DynamicDraws} {expression : String} {e : StepError}
    (h : randomInt draws expression = some (.error e)) : e.OfTemplate := by
  simp only [randomInt, Option.bind_eq_bind, Option.bind_eq_some_iff] at h
  obtain ⟨argument, -, h⟩ := h
  split at h
  · simp only [Option.bind_eq_some_iff] at h
    obtain ⟨minimum, -, maximum, -, h⟩ := h
    split at h
    · exact ⟨_, (Except.error.inj (Option.some.inj h)).symm⟩
    · cases h
  · cases h

theorem randomSized_error {draws : DynamicDraws} {expression name : String} {alphabet : List Char} {e : StepError}
    (h : randomSized draws expression name alphabet = some (.error e)) : e.OfTemplate := by
  simp only [randomSized, Option.bind_eq_bind, Option.bind_eq_some_iff] at h
  obtain ⟨argument, -, length, -, h⟩ := h
  split at h
  · cases h
  · exact ⟨_, (Except.error.inj (Option.some.inj h)).symm⟩

theorem randomChoice_error {draws : DynamicDraws} {expression : String} {e : StepError}
    (h : randomChoice draws expression = some (.error e)) : e.OfTemplate := by
  simp only [randomChoice, Option.bind_eq_bind, Option.bind_eq_some_iff] at h
  obtain ⟨argument, -, h⟩ := h
  split at h
  · cases h
  · split at h
    · exact ⟨_, (Except.error.inj (Option.some.inj h)).symm⟩
    · cases h

theorem generateDynamicValue_error {draws : DynamicDraws} {expression : String} {sequence : Nat} {e : StepError}
    (h : generateDynamicValue draws expression sequence = .error e) : e.OfTemplate := by
  unfold generateDynamicValue at h
  iterate 7
    split at h
    · cases h
  cases hint : randomInt draws expression with
  | some result =>
    rw [hint] at h
    exact randomInt_error (hint.trans (congrArg some h))
  | none =>
    cases htext : randomSized draws expression "randomString" (LOWERCASE ++ UPPERCASE ++ DIGITS) with
    | some result =>
      rw [hint, htext] at h
      exact randomSized_error (htext.trans (congrArg some h))
    | none =>
      cases hdigits : randomSized draws expression "randomDigits" DIGITS with
      | some result =>
        rw [hint, htext, hdigits] at h
        exact randomSized_error (hdigits.trans (congrArg some h))
      | none =>
        rw [hint, htext, hdigits] at h
        cases hchoice : randomChoice draws expression with
        | some result =>
          rw [hchoice] at h
          exact randomChoice_error (hchoice.trans (congrArg some h))
        | none =>
          rw [hchoice] at h
          exact ⟨_, (Except.error.inj h).symm⟩

/-! ## What is raised first -/

mutual

/-- The texts that are values somewhere in a tree. -/
def textsOf : Json → List String
  | .str s => [s]
  | .arr items => textsOfItems items
  | .obj fields => textsOfFields fields
  | .null | .bool _ | .int _ | .float _ => []

def textsOfItems : List Json → List String
  | [] => []
  | item :: rest => textsOf item ++ textsOfItems rest

def textsOfFields : List (String × Json) → List String
  | [] => []
  | (_, item) :: rest => textsOf item ++ textsOfFields rest

end

/-- The tokens of a text, as `substitute` comes to them. -/
def tokensIn (token : List Char → Option (String × List Char)) : Nat → List Char → List String
  | _, [] => []
  | skip + 1, _ :: rest => tokensIn token skip rest
  | 0, c :: rest =>
    match token (c :: rest) with
    | some (name, after) => name :: tokensIn token (rest.length - after.length) rest
    | none => tokensIn token 0 rest

section First

variable {token : List Char → Option (String × List Char)} {value : String → Except StepError Json}
  {stringify : Json → List Char} {text : String → Except StepError Json}

theorem tokensIn_length (token : List Char → Option (String × List Char)) (s : List Char) :
    tokensIn token s.length s = [] := by
  induction s with
  | nil => rfl
  | cons c rest ih => exact ih

theorem substitute_raises (skip : Nat) (s : List Char) :
    RaisesAlike (substitute token (fun name => (value name).map stringify) skip s)
      ((tokensIn token skip s).mapM value) := by
  induction s generalizing skip with
  | nil => cases skip <;> exact .ok [] []
  | cons c rest ih =>
    cases skip with
    | succ skip => exact ih skip
    | zero =>
      simp only [substitute, tokensIn]
      split
      · rw [List.mapM_cons]
        refine (RaisesAlike.map _ _).bind fun _ _ _ _ => ?_
        exact (ih _).bind fun _ _ _ _ => .ok _ _
      · exact (ih 0).bind_pure _

theorem renderText_raises (hempty : token [] = none) (s : String) :
    RaisesAlike (renderText token value stringify s) ((tokensIn token 0 s.toList).mapM value) := by
  unfold renderText
  split
  · next name hwhole =>
    cases hs : s.toList with
    | nil =>
      rw [hs, hempty] at hwhole
      cases hwhole
    | cons c rest =>
      rw [hs] at hwhole
      simp only [tokensIn, hwhole, List.length_nil, Nat.sub_zero, tokensIn_length, List.mapM_cons, List.mapM_nil]
      exact (RaisesAlike.bind_pure (.refl _) _).symm
  · exact (substitute_raises 0 s.toList).bind_pure _

mutual

theorem renderJson_raises : ∀ tree : Json, RaisesAlike (renderJson text tree) ((textsOf tree).mapM text)
  | .str s => by
    rw [renderJson, textsOf, List.mapM_cons, List.mapM_nil]
    exact (RaisesAlike.bind_pure (.refl _) _).symm
  | .arr items => (RaisesAlike.map _ _).trans (renderItems_raises items)
  | .obj fields => (RaisesAlike.map _ _).trans (renderFields_raises fields)
  | .null | .bool _ | .int _ | .float _ => .ok _ _

theorem renderItems_raises : ∀ items : List Json,
    RaisesAlike (renderItems text items) ((textsOfItems items).mapM text)
  | [] => .ok _ _
  | item :: rest => by
    rw [renderItems, textsOfItems]
    refine RaisesAlike.trans ?_ (RaisesAlike.mapM_append text _ _).symm
    refine (renderJson_raises item).bind fun _ _ _ _ => ?_
    exact (renderItems_raises rest).bind_pure _

theorem renderFields_raises : ∀ fields : List (String × Json),
    RaisesAlike (renderFields text fields) ((textsOfFields fields).mapM text)
  | [] => .ok _ _
  | (key, item) :: rest => by
    rw [renderFields, textsOfFields]
    refine RaisesAlike.trans ?_ (RaisesAlike.mapM_append text _ _).symm
    refine (renderJson_raises item).bind fun _ _ _ _ => ?_
    exact (renderFields_raises rest).bind_pure _

end

end First

/-! ## Variables that nest too deep -/

section Held

variable {room : Nat} {vars : Dict String Json} {name : String}

theorem heldValue_ok_iff : (∃ out, heldValue room vars name = .ok out) ↔
    ∃ value, vars.get? name = some value ∧ value.depth ≤ room := by
  unfold heldValue templateValue
  cases vars.get? name with
  | none => simp [error_bind]
  | some value =>
    simp only [ok_bind, Option.some.injEq, exists_eq_left']
    split
    · next hfits => exact iff_of_true ⟨value, rfl⟩ hfits
    · next hdeep => simp [hdeep]

theorem heldValue_recursion_iff : heldValue room vars name = .error .recursionError ↔
    ∃ value, vars.get? name = some value ∧ room < value.depth := by
  unfold heldValue templateValue
  cases vars.get? name with
  | none => simp [error_bind]
  | some value =>
    simp only [ok_bind, Option.some.injEq, exists_eq_left']
    split
    · next hfits => simp [hfits, pure, Except.pure]
    · next hdeep => simpa using hdeep

theorem heldValue_error {e : StepError} (h : heldValue room vars name = .error e) :
    e.OfTemplate ∨ e = .recursionError := by
  simp only [heldValue, bind_eq_error_iff] at h
  rcases h with h | ⟨value, -, h⟩
  · exact .inl (templateValue_error h)
  · split at h
    · cases h
    · exact .inr (Except.error.inj h).symm

theorem renderHeld_raises (floatText : Rat → List Char) (room : String → Nat) (s : String) :
    RaisesAlike (renderHeld floatText room vars s)
      (((tokensIn matchTemplate 0 s.toList).map fun name => (s, name)).mapM fun t => heldValue (room t.1) vars t.2) := by
  rw [List.mapM_map]
  exact renderText_raises rfl s

end Held

end SmartTest.Load
