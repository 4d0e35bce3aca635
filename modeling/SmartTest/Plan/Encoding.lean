import SmartTest.Plan.Catalog
import SmartTest.Runner.Payload

/-!
# Plans in a JSON column

`_definition` and `_items` of `services/api/test_plan_sql_repository.py`. An execution policy
is a pydantic model of `packages/protocol/models.py`: its requests and expected values are
frozen when it is built and thawed when it is dumped.
-/

open SmartTest.Lib SmartTest.Run SmartTest.Runner

namespace SmartTest.Plan

/-! ## Policies as Python holds them -/

structure AssertionObject where
  source : AssertionSource
  expression : Option String
  operator : Operator
  expected : PyValue

structure StepObject where
  name : String
  request : PyValue
  assertions : List AssertionObject
  extractions : List ExtractionRule
  required : Bool

structure PolicyObject where
  beforeSteps : List StepObject
  assertions : List AssertionObject
  extractions : List ExtractionRule
  afterSteps : List StepObject
  retry : RetryPolicy

/-- A `TestPlanItem` with its policy. -/
structure ItemObject where
  itemId : UUID
  scriptId : UUID
  scriptRevision : Nat
  environmentId : Option UUID
  environmentRevision : Option Nat
  defaultParameters : Dict String Json
  dataRows : List TestPlanDataRow
  executionPolicy : PolicyObject

def assertionObject (rule : AssertionRule) : AssertionObject :=
  ⟨rule.source, rule.expression, rule.operator, PyValue.freeze rule.expected⟩

def stepObject (step : HttpStep) : StepObject :=
  ⟨step.name, freezeMapping step.request.entries, step.assertions.map assertionObject, step.extractions, step.required⟩

def policyObject (policy : ExecutionPolicy) : PolicyObject where
  beforeSteps := policy.beforeSteps.map stepObject
  assertions := policy.assertions.map assertionObject
  extractions := policy.extractions
  afterSteps := policy.afterSteps.map stepObject
  retry := policy.retry

def itemObject (item : TestPlanItem) : ItemObject where
  itemId := item.itemId
  scriptId := item.scriptId
  scriptRevision := item.scriptRevision
  environmentId := item.environmentId
  environmentRevision := item.environmentRevision
  defaultParameters := item.defaultParameters
  dataRows := item.dataRows
  executionPolicy := policyObject item.executionPolicy

/-! ## `model_dump(mode="json")` -/

def AssertionObject.dump (rule : AssertionObject) : Option Json := do
  let expected ← rule.expected.deepThaw.json?
  return .obj [("source", .str rule.source.value), ("expression", orNull .str rule.expression),
    ("operator", .str rule.operator.value), ("expected", expected)]

def StepObject.dump (step : StepObject) : Option Json := do
  let request ← step.request.deepThaw.json?
  let assertions ← step.assertions.mapM AssertionObject.dump
  return .obj [("name", .str step.name), ("request", request), ("assertions", .arr assertions),
    ("extractions", .arr (step.extractions.map extractionJson)), ("required", .bool step.required)]

def PolicyObject.dump (policy : PolicyObject) : Option Json := do
  let beforeSteps ← policy.beforeSteps.mapM StepObject.dump
  let assertions ← policy.assertions.mapM AssertionObject.dump
  let afterSteps ← policy.afterSteps.mapM StepObject.dump
  return .obj [("before_steps", .arr beforeSteps), ("assertions", .arr assertions),
    ("extractions", .arr (policy.extractions.map extractionJson)), ("after_steps", .arr afterSteps),
    ("retry", retryJson policy.retry)]

/-! ## `model_validate` -/

/-- What pydantic takes for a `bool`. -/
def readBool : Json → Option Bool
  | .bool b => some b
  | .int n => if n = 0 then some false else if n = 1 then some true else none
  | .float q => if q = 0 then some false else if q = 1 then some true else none
  | .str text =>
    if text.toLower ∈ ["0", "off", "f", "false", "n", "no"] then some false
    else if text.toLower ∈ ["1", "on", "t", "true", "y", "yes"] then some true
    else none
  | _ => none

def readText : Json → Option String
  | .str text => some text
  | _ => none

def readNullable {α : Type} (read : Json → Option α) : Json → Option (Option α)
  | .null => some none
  | value => (read value).map some

/-- A tuple, with `max_length` where the field has one. -/
def readTuple {α : Type} (maxLength : Option Nat) (read : Json → Option α) : Json → Option (List α)
  | .arr items => if maxLength.any (· < items.length) then none else items.mapM read
  | _ => none

def readAssertionSource : Json → Option AssertionSource :=
  readEnum [.statusCode, .header, .jsonPath, .body, .responseTimeMs] AssertionSource.value

def readOperator : Json → Option Operator :=
  readEnum [.eq, .ne, .gt, .gte, .lt, .lte, .contains, .matches] Operator.value

def readExtractionSource : Json → Option ExtractionSource :=
  readEnum [.header, .jsonPath, .regex, .cookie] ExtractionSource.value

/-- `ImmutableValue`. -/
def readFrozen (value : Json) : Option PyValue := some (PyValue.freeze value)

/-- `AssertionRule`, with `validate_expression` at its end. -/
def validateAssertion (data : Json) : Except Exn AssertionObject := do
  let fields ← knownFields ["source", "expression", "operator", "expected"] data
  let source ← fieldOr fields "source" readAssertionSource none
  let expression ← fieldOr fields "expression"
    (readNullable fun value => (readText value).filter (·.length ≤ 1024)) (some none)
  let operator ← fieldOr fields "operator" readOperator (some .eq)
  let expected ← fieldOr fields "expected" readFrozen none
  if source.takesExpression ∧ expression.getD "" = "" then
    .error (invalid (source.value ++ " assertions require an expression"))
  if ¬ source.takesExpression ∧ expression.isSome then
    .error (invalid (source.value ++ " assertions do not accept an expression"))
  return ⟨source, expression, operator, expected⟩

def validateExtraction (data : Json) : Except Exn ExtractionRule := do
  let fields ← knownFields ["name", "source", "expression", "required"] data
  let name ← fieldOr fields "name" readText none
  let source ← fieldOr fields "source" readExtractionSource none
  let expression ← fieldOr fields "expression" readText none
  let required ← fieldOr fields "required" readBool (some true)
  if hname : isEnvironmentName name = true then
    if hexpression : 1 ≤ expression.length ∧ expression.length ≤ 1024 then
      return ⟨name, source, expression, required, hname, hexpression.1, hexpression.2⟩
    else .error (invalid "expression")
  else .error (invalid "name")

def validateStep (data : Json) : Except Exn StepObject := do
  let fields ← knownFields ["name", "request", "assertions", "extractions", "required"] data
  let name ← fieldOr fields "name" (fun value => (readText value).filter fun s => 1 ≤ s.length ∧ s.length ≤ 128) none
  let request ← fieldOr fields "request" readMapping none
  let assertions ← fieldOr fields "assertions"
    (readTuple (some 50) fun value => (validateAssertion value).toOption) (some [])
  let extractions ← fieldOr fields "extractions"
    (readTuple (some 50) fun value => (validateExtraction value).toOption) (some [])
  let required ← fieldOr fields "required" readBool (some true)
  return ⟨name, request, assertions, extractions, required⟩

section Codec

variable (codec : Codec)

/-- `RetryPolicy`, with `validate_retry_outcomes` at its end. -/
def validateRetry (data : Json) : Except Exn RetryPolicy := do
  let fields ← knownFields
    ["max_attempts", "retry_on", "backoff_seconds", "max_backoff_seconds", "allow_non_idempotent_http"] data
  let maxAttempts ← fieldOr fields "max_attempts" (readNat codec) (some 1)
  let retryOn ← fieldOr fields "retry_on" (readTuple none readOutcome) (some [.infraError, .timedOut])
  let backoffSeconds ← fieldOr fields "backoff_seconds" (readNat codec) (some 1)
  let maxBackoffSeconds ← fieldOr fields "max_backoff_seconds" (readNat codec) (some 60)
  let allowNonIdempotentHttp ← fieldOr fields "allow_non_idempotent_http" readBool (some false)
  if hattempts : 1 ≤ maxAttempts ∧ maxAttempts ≤ 5 then
    if hbackoff : backoffSeconds ≤ 300 ∧ maxBackoffSeconds ≤ 600 then
      if hnodup : retryOn.Nodup then
        if houtcomes : .succeeded ∉ retryOn ∧ .cancelled ∉ retryOn then
          if hmax : backoffSeconds ≤ maxBackoffSeconds then
            return ⟨maxAttempts, retryOn, backoffSeconds, maxBackoffSeconds, allowNonIdempotentHttp, hattempts.1,
              hattempts.2, hbackoff.1, hbackoff.2, hnodup, houtcomes.1, houtcomes.2, hmax⟩
          else .error (invalid "max_backoff_seconds cannot be less than backoff_seconds")
        else .error (invalid "successful or cancelled results cannot be retried")
      else .error (invalid "retry outcomes must be unique")
    else .error (invalid "backoff_seconds")
  else .error (invalid "max_attempts")

/-- The names of all extractions of a policy. -/
def PolicyObject.extractionNames (policy : PolicyObject) : List String :=
  (policy.extractions ++ (policy.beforeSteps ++ policy.afterSteps).flatMap StepObject.extractions).map (·.name)

/-- `ExecutionPolicy`, with `validate_extraction_names` at its end. -/
def validatePolicy (data : Json) : Except Exn PolicyObject := do
  let fields ← knownFields ["before_steps", "assertions", "extractions", "after_steps", "retry"] data
  let beforeSteps ← fieldOr fields "before_steps"
    (readTuple (some 20) fun value => (validateStep value).toOption) (some [])
  let assertions ← fieldOr fields "assertions"
    (readTuple (some 50) fun value => (validateAssertion value).toOption) (some [])
  let extractions ← fieldOr fields "extractions"
    (readTuple (some 50) fun value => (validateExtraction value).toOption) (some [])
  let afterSteps ← fieldOr fields "after_steps"
    (readTuple (some 20) fun value => (validateStep value).toOption) (some [])
  let retry ← fieldOr fields "retry" (fun value => (validateRetry codec value).toOption) (some .default)
  let policy : PolicyObject := ⟨beforeSteps, assertions, extractions, afterSteps, retry⟩
  if ¬ policy.extractionNames.Nodup then
    .error (invalid "extraction names must be unique across an execution policy")
  return policy

end Codec

/-! ## `_definition` -/

def rowJson (row : TestPlanDataRow) : Json := .obj [("row_key", .str row.rowKey), ("values", .obj row.values.entries)]

def itemDefinition (item : ItemObject) : Option Json := do
  let policy ← item.executionPolicy.dump
  return .obj [("item_id", uuidJson item.itemId), ("script_id", uuidJson item.scriptId),
    ("script_revision", .int item.scriptRevision), ("environment_id", orNull uuidJson item.environmentId),
    ("environment_revision", orNull (fun n : Nat => .int n) item.environmentRevision),
    ("default_parameters", .obj item.defaultParameters.entries), ("data_rows", .arr (item.dataRows.map rowJson)),
    ("execution_policy", policy)]

/-- `_definition`. -/
def planDefinition (items : List ItemObject) : Option (List Json) := items.mapM itemDefinition

/-! ## `_items` -/

/-- `UUID(text)`. -/
def uuidOf : Json → Option UUID
  | .str text => some ⟨text⟩
  | _ => none

/-- `UUID(value) if value else None`. -/
def uuidIfAny : Json → Option (Option UUID)
  | .null => some none
  | .str text => if text = "" then some none else some (some ⟨text⟩)
  | _ => none

/-- A number of a revision. -/
def revisionOf : Json → Option Nat
  | .int n => if 0 ≤ n then some n.toNat else none
  | _ => none

/-- An object, of which JSON has each key once. -/
def dictOf : Json → Option (Dict String Json)
  | .obj fields => if h : (fields.map Prod.fst).Nodup then some ⟨fields, h⟩ else none
  | _ => none

def rowOf : Json → Option TestPlanDataRow
  | .obj fields => do
    let rowKey ← (fields.lookup "row_key").bind readText
    let values ← (fields.lookup "values").bind dictOf
    return ⟨rowKey, values⟩
  | _ => none

variable (codec : Codec)

/-- One item. What `_definition` has not written raises, here always the same exception. -/
def itemOf (data : Json) : Except Exn ItemObject := do
  let .obj fields := data | .error (invalid "definition")
  let itemId ← fieldOr fields "item_id" uuidOf none
  let scriptId ← fieldOr fields "script_id" uuidOf none
  let scriptRevision ← fieldOr fields "script_revision" revisionOf none
  let environmentId ← fieldOr fields "environment_id" uuidIfAny (some none)
  let environmentRevision ← fieldOr fields "environment_revision" (readNullable revisionOf) (some none)
  let defaultParameters ← fieldOr fields "default_parameters" dictOf none
  let dataRows ← fieldOr fields "data_rows" (readTuple none rowOf) none
  let executionPolicy ← validatePolicy codec ((fields.lookup "execution_policy").getD (.obj []))
  return ⟨itemId, scriptId, scriptRevision, environmentId, environmentRevision, defaultParameters, dataRows,
    executionPolicy⟩

/-- `_items`. -/
def planItems (definition : List Json) : Except Exn (List ItemObject) := definition.mapM (itemOf codec)

/-! ## Nothing is lost -/

section Tuples

variable {α β γ : Type} {encode : α → β} {hold : α → γ} {l : List α}

theorem mapM_map_some {f : β → Option γ} (h : ∀ a ∈ l, f (encode a) = some (hold a)) :
    (l.map encode).mapM f = some (l.map hold) := by
  induction l with
  | nil => rfl
  | cons a rest ih =>
    obtain ⟨ha, hrest⟩ := List.forall_mem_cons.mp h
    simp [ha, ih hrest]

theorem mapM_map_ok {ε : Type} {f : β → Except ε γ} (h : ∀ a ∈ l, f (encode a) = .ok (hold a)) :
    (l.map encode).mapM f = .ok (l.map hold) := by
  induction l with
  | nil => rfl
  | cons a rest ih =>
    obtain ⟨ha, hrest⟩ := List.forall_mem_cons.mp h
    rw [List.map_cons, List.mapM_cons, ha, ok_bind, ih hrest]
    rfl

theorem readTuple_map {encode : α → Json} {maxLength : Option Nat} {read : Json → Option γ}
    (hlength : ∀ n ∈ maxLength, l.length ≤ n) (h : ∀ a ∈ l, read (encode a) = some (hold a)) :
    readTuple maxLength read (.arr (l.map encode)) = some (l.map hold) := by
  have hfits : (maxLength.any fun n => n < (l.map encode).length) = false := by
    rw [List.length_map]
    cases maxLength with
    | none => rfl
    | some n => simpa using hlength n rfl
  simp only [readTuple, hfits, Bool.false_eq_true, if_false]
  exact mapM_map_some h

theorem readTuple_map_self {encode : α → Json} {maxLength : Option Nat} {read : Json → Option α}
    (hlength : ∀ n ∈ maxLength, l.length ≤ n) (h : ∀ a ∈ l, read (encode a) = some a) :
    readTuple maxLength read (.arr (l.map encode)) = some l := by
  have hread : readTuple maxLength read (.arr (l.map encode)) = some (l.map id) := readTuple_map hlength h
  rwa [List.map_id] at hread

end Tuples

theorem dump_assertionObject (rule : AssertionRule) : (assertionObject rule).dump = some (assertionJson rule) := by
  simp only [AssertionObject.dump, assertionObject, PyValue.freeze, PyValue.deepThaw_deepFreeze, PyValue.json?_plain]
  rfl

theorem dump_stepObject (step : HttpStep) : (stepObject step).dump = some (stepJson step) := by
  have hassertions : (step.assertions.map assertionObject).mapM AssertionObject.dump =
      some (step.assertions.map assertionJson) := mapM_map_some fun rule _ => dump_assertionObject rule
  simp only [StepObject.dump, stepObject, json?_freezeMapping, hassertions]
  rfl

theorem dump_policyObject (policy : ExecutionPolicy) : (policyObject policy).dump = some (policyJson policy) := by
  have hsteps : ∀ steps : List HttpStep, (steps.map stepObject).mapM StepObject.dump = some (steps.map stepJson) :=
    fun steps => mapM_map_some fun step _ => dump_stepObject step
  have hassertions : (policy.assertions.map assertionObject).mapM AssertionObject.dump =
      some (policy.assertions.map assertionJson) := mapM_map_some fun rule _ => dump_assertionObject rule
  simp only [PolicyObject.dump, policyObject, hsteps, hassertions]
  rfl

theorem readAssertionSource_value (source : AssertionSource) :
    readAssertionSource (.str source.value) = some source := by
  cases source <;> rfl

theorem readOperator_value (operator : Operator) : readOperator (.str operator.value) = some operator := by
  cases operator <;> rfl

theorem readExtractionSource_value (source : ExtractionSource) :
    readExtractionSource (.str source.value) = some source := by
  cases source <;> rfl

/-- An optional value that is read back when it is there is read back. -/
theorem readNullable_orNull {α : Type} {dump : α → Json} {read : Json → Option α} {value : Option α}
    (hnull : ∀ a ∈ value, dump a ≠ .null) (h : ∀ a ∈ value, read (dump a) = some a) :
    readNullable read (orNull dump value) = some value := by
  cases value with
  | none => rfl
  | some a =>
    have hread := h a rfl
    have hnotNull := hnull a rfl
    unfold readNullable orNull
    dsimp only
    split
    · next hdumped => exact absurd hdumped hnotNull
    · rw [hread]
      rfl

theorem validateAssertion_json (rule : AssertionRule) :
    validateAssertion (assertionJson rule) = .ok (assertionObject rule) := by
  unfold assertionJson
  generalize hfields : [("source", Json.str rule.source.value), _, _, _] = fields
  have hsource : fieldOr fields "source" readAssertionSource none = .ok rule.source :=
    fieldOr_of_lookup (hfields ▸ rfl) (readAssertionSource_value _)
  have hexpression : fieldOr fields "expression"
      (readNullable fun value => (readText value).filter (·.length ≤ 1024)) (some none) = .ok rule.expression := by
    have hlookup : fields.lookup "expression" = some (orNull .str rule.expression) := hfields ▸ rfl
    refine fieldOr_of_lookup hlookup (readNullable_orNull (by simp) ?_)
    intro text htext
    simp [readText, Option.filter, rule.expression_le text htext]
  have hoperator : fieldOr fields "operator" readOperator (some .eq) = .ok rule.operator :=
    fieldOr_of_lookup (hfields ▸ rfl) (readOperator_value _)
  have hexpected : fieldOr fields "expected" readFrozen none = .ok (PyValue.freeze rule.expected) :=
    fieldOr_of_lookup (hfields ▸ rfl) rfl
  have hknown : knownFields ["source", "expression", "operator", "expected"] (.obj fields) = .ok fields := by
    rw [← hfields]
    rfl
  have hrequired : ¬ (rule.source.takesExpression = true ∧ rule.expression.getD "" = "") := by
    rintro ⟨htakes, hempty⟩
    have hsome := rule.expression_iff
    rw [if_pos htakes] at hsome
    cases hcase : rule.expression with
    | none => simp [hcase] at hsome
    | some text => simp [hcase] at hsome hempty; exact hsome hempty
  have hrefused : ¬ (¬ rule.source.takesExpression = true ∧ rule.expression.isSome = true) := by
    rintro ⟨htakes, hsome⟩
    have hnone := rule.expression_iff
    rw [if_neg htakes] at hnone
    rw [hnone] at hsome
    cases hsome
  rw [validateAssertion, hknown, ok_bind, hsource, ok_bind, hexpression, ok_bind, hoperator, ok_bind, hexpected,
    ok_bind, if_neg hrequired, if_neg hrefused]
  rfl

theorem validateExtraction_json (rule : ExtractionRule) : validateExtraction (extractionJson rule) = .ok rule := by
  unfold extractionJson
  generalize hfields : [("name", Json.str rule.name), _, _, _] = fields
  have htexts : fields.lookup "name" = some (.str rule.name) ∧ fields.lookup "expression" = some (.str rule.expression) ∧
      fields.lookup "required" = some (.bool rule.required) := hfields ▸ ⟨rfl, rfl, rfl⟩
  have hname : fieldOr fields "name" readText none = .ok rule.name := fieldOr_of_lookup htexts.1 rfl
  have hsource : fieldOr fields "source" readExtractionSource none = .ok rule.source :=
    fieldOr_of_lookup (hfields ▸ rfl) (readExtractionSource_value _)
  have hexpression : fieldOr fields "expression" readText none = .ok rule.expression :=
    fieldOr_of_lookup htexts.2.1 rfl
  have hrequired : fieldOr fields "required" readBool (some true) = .ok rule.required :=
    fieldOr_of_lookup htexts.2.2 rfl
  have hknown : knownFields ["name", "source", "expression", "required"] (.obj fields) = .ok fields := by
    rw [← hfields]
    rfl
  rw [validateExtraction, hknown, ok_bind, hname, ok_bind, hsource, ok_bind, hexpression, ok_bind, hrequired, ok_bind,
    dif_pos rule.name_ok, dif_pos ⟨rule.expression_pos, rule.expression_le⟩]
  rfl

theorem validateStep_json (step : HttpStep) : validateStep (stepJson step) = .ok (stepObject step) := by
  unfold stepJson
  generalize hfields : [("name", Json.str step.name), _, _, _, _] = fields
  have hnamed : fields.lookup "name" = some (.str step.name) ∧
      fields.lookup "request" = some (.obj step.request.entries) ∧
      fields.lookup "required" = some (.bool step.required) := hfields ▸ ⟨rfl, rfl, rfl⟩
  have hlisted : fields.lookup "assertions" = some (.arr (step.assertions.map assertionJson)) ∧
      fields.lookup "extractions" = some (.arr (step.extractions.map extractionJson)) := hfields ▸ ⟨rfl, rfl⟩
  have hname : fieldOr fields "name"
      (fun value => (readText value).filter fun s => 1 ≤ s.length ∧ s.length ≤ 128) none = .ok step.name := by
    refine fieldOr_of_lookup hnamed.1 ?_
    simp [readText, Option.filter, step.name_pos, step.name_le]
  have hrequest : fieldOr fields "request" readMapping none = .ok (freezeMapping step.request.entries) :=
    fieldOr_of_lookup hnamed.2.1 rfl
  have hassertions : fieldOr fields "assertions"
      (readTuple (some 50) fun value => (validateAssertion value).toOption) (some []) =
      .ok (step.assertions.map assertionObject) := by
    refine fieldOr_of_lookup hlisted.1 (readTuple_map (by simpa using step.assertions_le) ?_)
    intro rule _
    rw [validateAssertion_json]
    rfl
  have hextractions : fieldOr fields "extractions"
      (readTuple (some 50) fun value => (validateExtraction value).toOption) (some []) = .ok step.extractions := by
    refine fieldOr_of_lookup hlisted.2 ?_
    refine readTuple_map_self (by simpa using step.extractions_le) ?_
    intro rule _
    rw [validateExtraction_json]
    rfl
  have hrequired : fieldOr fields "required" readBool (some true) = .ok step.required :=
    fieldOr_of_lookup hnamed.2.2 rfl
  have hknown : knownFields ["name", "request", "assertions", "extractions", "required"] (.obj fields) =
      .ok fields := by
    rw [← hfields]
    rfl
  rw [validateStep, hknown, ok_bind, hname, ok_bind, hrequest, ok_bind, hassertions, ok_bind, hextractions, ok_bind,
    hrequired, ok_bind]
  rfl

variable {codec}

theorem validateRetry_json (hint : ∀ n, codec.readInt (.int n) = some n) (retry : RetryPolicy) :
    validateRetry codec (retryJson retry) = .ok retry := by
  have hnat : ∀ n : Nat, readNat codec (.int n) = some n := fun n => by simp [readNat, hint]
  unfold retryJson
  generalize hfields : [("max_attempts", Json.int retry.maxAttempts), _, _, _, _] = fields
  have hnumbers : fields.lookup "max_attempts" = some (.int retry.maxAttempts) ∧
      fields.lookup "backoff_seconds" = some (.int retry.backoffSeconds) ∧
      fields.lookup "max_backoff_seconds" = some (.int retry.maxBackoffSeconds) := hfields ▸ ⟨rfl, rfl, rfl⟩
  have hothers : fields.lookup "retry_on" = some (.arr (retry.retryOn.map fun o => .str o.value)) ∧
      fields.lookup "allow_non_idempotent_http" = some (.bool retry.allowNonIdempotentHttp) := hfields ▸ ⟨rfl, rfl⟩
  have hattempts : fieldOr fields "max_attempts" (readNat codec) (some 1) = .ok retry.maxAttempts :=
    fieldOr_of_lookup hnumbers.1 (hnat _)
  have hon : fieldOr fields "retry_on" (readTuple none readOutcome) (some [.infraError, .timedOut]) =
      .ok retry.retryOn :=
    fieldOr_of_lookup hothers.1 (readTuple_map_self (by simp) fun outcome _ => readOutcome_value outcome)
  have hbackoff : fieldOr fields "backoff_seconds" (readNat codec) (some 1) = .ok retry.backoffSeconds :=
    fieldOr_of_lookup hnumbers.2.1 (hnat _)
  have hmax : fieldOr fields "max_backoff_seconds" (readNat codec) (some 60) = .ok retry.maxBackoffSeconds :=
    fieldOr_of_lookup hnumbers.2.2 (hnat _)
  have hallow : fieldOr fields "allow_non_idempotent_http" readBool (some false) =
      .ok retry.allowNonIdempotentHttp := fieldOr_of_lookup hothers.2 rfl
  have hknown : knownFields
      ["max_attempts", "retry_on", "backoff_seconds", "max_backoff_seconds", "allow_non_idempotent_http"]
      (.obj fields) = .ok fields := by
    rw [← hfields]
    rfl
  rw [validateRetry, hknown, ok_bind, hattempts, ok_bind, hon, ok_bind, hbackoff, ok_bind, hmax, ok_bind, hallow,
    ok_bind, dif_pos ⟨retry.maxAttempts_pos, retry.maxAttempts_le⟩, dif_pos ⟨retry.backoff_le, retry.maxBackoff_le⟩,
    dif_pos retry.retryOn_nodup, dif_pos ⟨retry.not_succeeded, retry.not_cancelled⟩, dif_pos retry.backoff_le_max]
  rfl

theorem extractionNames_policyObject (policy : ExecutionPolicy) : (policyObject policy).extractionNames =
    (policy.extractions ++ (policy.beforeSteps ++ policy.afterSteps).flatMap HttpStep.extractions).map
      ExtractionRule.name := by
  unfold PolicyObject.extractionNames policyObject
  dsimp only
  rw [← List.map_append, List.flatMap_map]
  rfl

theorem validatePolicy_json (hint : ∀ n, codec.readInt (.int n) = some n) (policy : ExecutionPolicy) :
    validatePolicy codec (policyJson policy) = .ok (policyObject policy) := by
  have hsteps : ∀ steps : List HttpStep, steps.length ≤ 20 →
      readTuple (some 20) (fun value => (validateStep value).toOption) (.arr (steps.map stepJson)) =
        some (steps.map stepObject) := by
    intro steps hlength
    refine readTuple_map (by simpa using hlength) ?_
    intro step _
    rw [validateStep_json]
    rfl
  unfold policyJson
  generalize hfields : [("before_steps", Json.arr (policy.beforeSteps.map stepJson)), _, _, _, _] = fields
  have hstepped : fields.lookup "before_steps" = some (.arr (policy.beforeSteps.map stepJson)) ∧
      fields.lookup "after_steps" = some (.arr (policy.afterSteps.map stepJson)) ∧
      fields.lookup "retry" = some (retryJson policy.retry) := hfields ▸ ⟨rfl, rfl, rfl⟩
  have hlisted : fields.lookup "assertions" = some (.arr (policy.assertions.map assertionJson)) ∧
      fields.lookup "extractions" = some (.arr (policy.extractions.map extractionJson)) := hfields ▸ ⟨rfl, rfl⟩
  have hbefore : fieldOr fields "before_steps"
      (readTuple (some 20) fun value => (validateStep value).toOption) (some []) =
      .ok (policy.beforeSteps.map stepObject) := fieldOr_of_lookup hstepped.1 (hsteps _ policy.before_le)
  have hassertions : fieldOr fields "assertions"
      (readTuple (some 50) fun value => (validateAssertion value).toOption) (some []) =
      .ok (policy.assertions.map assertionObject) := by
    refine fieldOr_of_lookup hlisted.1 (readTuple_map (by simpa using policy.assertions_le) ?_)
    intro rule _
    rw [validateAssertion_json]
    rfl
  have hextractions : fieldOr fields "extractions"
      (readTuple (some 50) fun value => (validateExtraction value).toOption) (some []) = .ok policy.extractions := by
    refine fieldOr_of_lookup hlisted.2 (readTuple_map_self (by simpa using policy.extractions_le) ?_)
    intro rule _
    rw [validateExtraction_json]
    rfl
  have hafter : fieldOr fields "after_steps"
      (readTuple (some 20) fun value => (validateStep value).toOption) (some []) =
      .ok (policy.afterSteps.map stepObject) := fieldOr_of_lookup hstepped.2.1 (hsteps _ policy.after_le)
  have hretry : fieldOr fields "retry" (fun value => (validateRetry codec value).toOption) (some .default) =
      .ok policy.retry := by
    refine fieldOr_of_lookup hstepped.2.2 ?_
    rw [validateRetry_json hint]
    rfl
  have hknown : knownFields ["before_steps", "assertions", "extractions", "after_steps", "retry"] (.obj fields) =
      .ok fields := by
    rw [← hfields]
    rfl
  have hnames : ¬ ¬ (policyObject policy).extractionNames.Nodup := by
    rw [extractionNames_policyObject]
    exact not_not.mpr policy.names_nodup
  rw [validatePolicy, hknown, ok_bind, hbefore, ok_bind, hassertions, ok_bind, hextractions, ok_bind, hafter, ok_bind,
    hretry, ok_bind]
  exact if_neg hnames

theorem dictOf_entries (values : Dict String Json) : dictOf (.obj values.entries) = some values := by
  simp [dictOf, values.nodup]

theorem rowOf_json (row : TestPlanDataRow) : rowOf (rowJson row) = some row := by
  have hvalues : dictOf (.obj row.values.entries) = some row.values := dictOf_entries row.values
  simp [rowOf, rowJson, readText, List.lookup_cons, hvalues]

/-- What `_definition` writes for an item. -/
def itemJson (item : TestPlanItem) : Json :=
  .obj [("item_id", uuidJson item.itemId), ("script_id", uuidJson item.scriptId),
    ("script_revision", .int item.scriptRevision), ("environment_id", orNull uuidJson item.environmentId),
    ("environment_revision", orNull (fun n : Nat => .int n) item.environmentRevision),
    ("default_parameters", .obj item.defaultParameters.entries), ("data_rows", .arr (item.dataRows.map rowJson)),
    ("execution_policy", policyJson item.executionPolicy)]

theorem itemDefinition_itemObject (item : TestPlanItem) : itemDefinition (itemObject item) = some (itemJson item) := by
  simp only [itemDefinition, itemObject, dump_policyObject]
  rfl

theorem uuidIfAny_orNull {id : Option UUID} (h : ∀ uuid ∈ id, uuid.text ≠ "") :
    uuidIfAny (orNull uuidJson id) = some id := by
  cases id with
  | none => rfl
  | some uuid => simp [orNull, uuidJson, uuidIfAny, h uuid rfl]

/-- One item, written and read. No UUID is spelled by an empty text. -/
theorem itemOf_json (hint : ∀ n, codec.readInt (.int n) = some n) {item : TestPlanItem}
    (hid : ∀ id ∈ item.environmentId, id.text ≠ "") : itemOf codec (itemJson item) = .ok (itemObject item) := by
  unfold itemJson
  generalize hfields : [("item_id", uuidJson item.itemId), _, _, _, _, _, _, _] = fields
  have hids : fields.lookup "item_id" = some (uuidJson item.itemId) ∧
      fields.lookup "script_id" = some (uuidJson item.scriptId) ∧
      fields.lookup "script_revision" = some (.int item.scriptRevision) := hfields ▸ ⟨rfl, rfl, rfl⟩
  have hplaces : fields.lookup "environment_id" = some (orNull uuidJson item.environmentId) ∧
      fields.lookup "environment_revision" = some (orNull (fun n : Nat => .int n) item.environmentRevision) :=
    hfields ▸ ⟨rfl, rfl⟩
  have hcontent : fields.lookup "default_parameters" = some (.obj item.defaultParameters.entries) ∧
      fields.lookup "data_rows" = some (.arr (item.dataRows.map rowJson)) ∧
      fields.lookup "execution_policy" = some (policyJson item.executionPolicy) := hfields ▸ ⟨rfl, rfl, rfl⟩
  have hitem : fieldOr fields "item_id" uuidOf none = .ok item.itemId := fieldOr_of_lookup hids.1 rfl
  have hscript : fieldOr fields "script_id" uuidOf none = .ok item.scriptId := fieldOr_of_lookup hids.2.1 rfl
  have hrevision : fieldOr fields "script_revision" revisionOf none = .ok item.scriptRevision :=
    fieldOr_of_lookup hids.2.2 (by simp [revisionOf])
  have henvironment : fieldOr fields "environment_id" uuidIfAny (some none) = .ok item.environmentId :=
    fieldOr_of_lookup hplaces.1 (uuidIfAny_orNull hid)
  have hnumber : fieldOr fields "environment_revision" (readNullable revisionOf) (some none) =
      .ok item.environmentRevision :=
    fieldOr_of_lookup hplaces.2 (readNullable_orNull (by simp) fun n _ => by simp [revisionOf])
  have hparameters : fieldOr fields "default_parameters" dictOf none = .ok item.defaultParameters :=
    fieldOr_of_lookup hcontent.1 (dictOf_entries _)
  have hrows : fieldOr fields "data_rows" (readTuple none rowOf) none = .ok item.dataRows :=
    fieldOr_of_lookup hcontent.2.1 (readTuple_map_self (by simp) fun row _ => rowOf_json row)
  have hpolicy : validatePolicy codec ((fields.lookup "execution_policy").getD (.obj [])) =
      .ok (policyObject item.executionPolicy) := by
    rw [hcontent.2.2, Option.getD_some, validatePolicy_json hint]
  rw [itemOf, hitem, ok_bind, hscript, ok_bind, hrevision, ok_bind, henvironment, ok_bind, hnumber, ok_bind,
    hparameters, ok_bind, hrows, ok_bind, hpolicy, ok_bind]
  rfl

/-- `_items(_definition(items)) = items`. -/
theorem planItems_planDefinition (hint : ∀ n, codec.readInt (.int n) = some n) {items : List TestPlanItem}
    (hids : ∀ item ∈ items, ∀ id ∈ item.environmentId, id.text ≠ "") :
    ∃ definition, planDefinition (items.map itemObject) = some definition ∧
      planItems codec definition = .ok (items.map itemObject) :=
  ⟨items.map itemJson, mapM_map_some fun item _ => itemDefinition_itemObject item,
    mapM_map_ok fun item hitem => itemOf_json hint (hids item hitem)⟩

end SmartTest.Plan
