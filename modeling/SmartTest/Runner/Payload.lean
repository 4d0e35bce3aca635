import Mathlib.Tactic.Ring
import SmartTest.Lib.JsonSize
import SmartTest.Plan.Materialize
import SmartTest.Runner.RoundTrip

/-!
# The task on standard input

`DockerExecutor._run_container` writes a task as one line, and `main` of
`runner/container_entrypoint.py` refuses more than a mebibyte. What is frozen is thawed for
JSON, which gives back the value it was made from.
-/

open SmartTest.Lib SmartTest.Run SmartTest.Environment SmartTest.Plan

namespace SmartTest.Runner

def MAX_TASK_BYTES : Nat := 1048576

/-! ## `model_dump_json` of a task -/

def orNull {α : Type} (dump : α → Json) : Option α → Json
  | none => .null
  | some a => dump a

def uuidJson (id : UUID) : Json := .str id.text

def secretReferenceJson (reference : SecretReference) : Json :=
  .obj [("category", .str reference.category.value), ("name", .str reference.name),
    ("secret_ref", uuidJson reference.secretRef)]

def assertionJson (rule : AssertionRule) : Json :=
  .obj [("source", .str rule.source.value), ("expression", orNull .str rule.expression),
    ("operator", .str rule.operator.value), ("expected", rule.expected)]

def extractionJson (rule : ExtractionRule) : Json :=
  .obj [("name", .str rule.name), ("source", .str rule.source.value), ("expression", .str rule.expression),
    ("required", .bool rule.required)]

def stepJson (step : HttpStep) : Json :=
  .obj [("name", .str step.name), ("request", .obj step.request.entries),
    ("assertions", .arr (step.assertions.map assertionJson)),
    ("extractions", .arr (step.extractions.map extractionJson)), ("required", .bool step.required)]

def retryJson (retry : RetryPolicy) : Json :=
  .obj [("max_attempts", .int retry.maxAttempts), ("retry_on", .arr (retry.retryOn.map fun o => .str o.value)),
    ("backoff_seconds", .int retry.backoffSeconds), ("max_backoff_seconds", .int retry.maxBackoffSeconds),
    ("allow_non_idempotent_http", .bool retry.allowNonIdempotentHttp)]

def policyJson (policy : ExecutionPolicy) : Json :=
  .obj [("before_steps", .arr (policy.beforeSteps.map stepJson)),
    ("assertions", .arr (policy.assertions.map assertionJson)),
    ("extractions", .arr (policy.extractions.map extractionJson)),
    ("after_steps", .arr (policy.afterSteps.map stepJson)), ("retry", retryJson policy.retry)]

variable (codec : Codec)

def taskFields (task : FullTaskEnvelope) : List (String × Json) :=
  [("protocol_version", .str "1.0"), ("run_id", uuidJson task.runId), ("attempt_id", uuidJson task.attemptId),
    ("engine", .str task.engine.value), ("task_id", uuidJson task.taskId), ("tenant_id", uuidJson task.tenantId),
    ("project_id", uuidJson task.projectId), ("idempotency_key", .str task.idempotencyKey),
    ("created_at", .str (codec.instantText task.createdAt)), ("deadline", .str (codec.instantText task.deadline)),
    ("entrypoint", .str task.entrypoint), ("parameters", .obj task.parameters.entries),
    ("run_spec_id", orNull uuidJson task.runSpecId), ("source_ref", orNull .str task.sourceRef),
    ("content_digest", orNull .str task.contentDigest),
    ("environment_variables", .obj task.environmentVariables.entries),
    ("environment_id", orNull uuidJson task.environmentId),
    ("environment_revision", orNull (fun n : Nat => .int n) task.environmentRevision),
    ("secret_references", .arr (task.secretReferences.map secretReferenceJson)),
    ("execution_policy", policyJson task.executionPolicy)]

def taskJson (task : FullTaskEnvelope) : Json := .obj (taskFields codec task)

/-- `task.model_dump_json() + "\n"`. -/
def stdinPayload (task : FullTaskEnvelope) : List Char := dumpJson codec (taskJson codec task) ++ ['\n']

/-- `main` up to the parse: at most one byte more than the limit is read. -/
def readTask (payload : List Char) : Except String Nat :=
  let raw := min (utf8Length payload) (MAX_TASK_BYTES + 1)
  if raw = 0 ∨ raw > MAX_TASK_BYTES then .error "task envelope is empty or too large\n" else .ok raw

/-! ## Its size -/

/-- The bytes of a value in the texts of pydantic. -/
def sizeOf (value : Json) : Nat := value.bytes (utf8Spelling codec.floatText)

/-- The bytes of the parts of a task that a spec leaves open. -/
def contentBytes (spec : RunSpecRecord) : Nat :=
  sizeOf codec (.obj spec.environmentVariables.entries) + sizeOf codec (.obj spec.parameters.entries) +
    sizeOf codec (policyJson spec.executionPolicy) +
    sizeOf codec (.arr (spec.secretReferences.map secretReferenceJson)) +
    sizeOf codec (.str spec.entrypoint) + sizeOf codec (.str spec.sourceRef) +
    sizeOf codec (.str spec.engine.value) + sizeOf codec (orNull uuidJson spec.environmentId) +
    sizeOf codec (orNull (fun n : Nat => .int n) spec.environmentRevision)

/-- The bytes of the two times of a task. -/
def timeBytes (spec : RunSpecRecord) (now : Instant) : Nat :=
  sizeOf codec (.str (codec.instantText now)) +
    sizeOf codec (.str (codec.instantText (now.addSeconds spec.timeoutSeconds)))

/-- The names of the fields, the ids, the key, the digest and the end of the line. -/
def FRAME_BYTES : Nat := 713

variable {codec : Codec}

theorem plainChar_of_range {float : Rat → List Char} {c : Char} (hlow : 45 ≤ c.toNat) (hhigh : c.toNat ≤ 122)
    (hslash : c.toNat ≠ 92) : PlainChar (utf8Spelling float) c := by
  refine plainChar_of_raw ?_ (by omega) (by omega) hslash
  simp only [utf8Spelling, decide_eq_true_eq]
  omega

theorem sizeOf_hex {text : String} (h : ∀ c ∈ text.toList, c.isDigit = true ∨ ('a' ≤ c ∧ c ≤ 'f') ∨ c = '-') :
    sizeOf codec (.str text) = text.length + 2 := by
  apply bytes_str_plain
  intro c hc
  obtain ⟨hlow, hhigh, hslash⟩ := isHex_range (h c hc)
  exact plainChar_of_range hlow (by omega) hslash

theorem sizeOf_uuid {id : UUID} (h : Canonical id) : sizeOf codec (uuidJson id) = 38 := by
  rw [uuidJson, sizeOf_hex h.hex, h.length]

theorem sizeOf_digest {text : String} (h : isContentDigest text = true) : sizeOf codec (.str text) = 66 := by
  simp only [isContentDigest, Bool.and_eq_true, decide_eq_true_eq, List.all_eq_true, Bool.or_eq_true] at h
  rw [sizeOf_hex, h.1]
  intro c hc
  rcases h.2 c hc with hdigit | hletter
  · exact .inl hdigit
  · exact .inr (.inl hletter)

theorem sizeOf_taskKey {spec : RunSpecRecord} {attemptId : UUID} (hspec : Canonical spec.id)
    (hattempt : Canonical attemptId) : sizeOf codec (.str (taskKey spec attemptId)) = 92 := by
  have hword : ∀ c : Char, 45 ≤ c.toNat ∧ c.toNat ≤ 122 ∧ c.toNat ≠ 92 →
      PlainChar (utf8Spelling codec.floatText) c := fun c hc => plainChar_of_range hc.1 hc.2.1 hc.2.2
  rw [sizeOf, bytes_str_plain, (taskKey_plain hspec hattempt).2]
  intro c hc
  apply hword
  simp only [taskKey, String.toList_append, List.mem_append] at hc
  rcases hc with ((hc | hc) | hc) | hc
  · revert c
    exact forall_mem_of_all (by decide)
  · have hrange := isHex_range (hspec.hex c hc)
    omega
  · revert c
    exact forall_mem_of_all (by decide)
  · have hrange := isHex_range (hattempt.hex c hc)
    omega

/-- The bytes of the line, part by part. -/
theorem utf8Length_stdinPayload {uuid5 : String → UUID} {spec : RunSpecRecord} {runId attemptId : UUID}
    (now : Instant) (hok : SpecOk spec) (hids : ∀ id ∈ [spec.id, spec.tenantId, spec.projectId, runId, attemptId,
      uuid5 (spec.id.text ++ ":" ++ attemptId.text)], Canonical id) :
    utf8Length (stdinPayload codec (taskOf uuid5 spec runId attemptId now)) =
      FRAME_BYTES + timeBytes codec spec now + contentBytes codec spec := by
  simp only [List.forall_mem_cons, List.not_mem_nil, false_imp_iff, implies_true, and_true] at hids
  obtain ⟨hspec, htenant, hproject, hrun, hattempt, htask⟩ := hids
  have hnames : ∀ key ∈ (taskFields codec (taskOf uuid5 spec runId attemptId now)).map Prod.fst,
      ∀ c ∈ key.toList, PlainChar (utf8Spelling codec.floatText) c := by
    have hrange : ∀ key ∈ (taskFields codec (taskOf uuid5 spec runId attemptId now)).map Prod.fst,
        key.toList.all (fun c => decide (45 ≤ c.toNat ∧ c.toNat ≤ 122 ∧ c.toNat ≠ 92)) = true := by
      simp only [taskFields, List.map_cons, List.map_nil]
      exact forall_mem_of_all (by rfl)
    intro key hkey c hc
    obtain ⟨hlow, hhigh, hslash⟩ := forall_mem_of_all (hrange key hkey) c hc
    exact plainChar_of_range hlow hhigh hslash
  have hobject : sizeOf codec (taskJson codec (taskOf uuid5 spec runId attemptId now)) = 1 +
      (((taskFields codec (taskOf uuid5 spec runId attemptId now)).map Prod.fst).map fun key => key.length + 4).sum +
      ((taskFields codec (taskOf uuid5 spec runId attemptId now)).map fun e => sizeOf codec e.2).sum :=
    bytes_obj_plain (by simp [taskFields]) hnames
  have hkeys : (((taskFields codec (taskOf uuid5 spec runId attemptId now)).map Prod.fst).map
      fun key => key.length + 4).sum = 320 := by
    simp only [taskFields, List.map_cons, List.map_nil]
    rfl
  have hversion : sizeOf codec (.str "1.0") = 5 := by
    have hrange : ∀ c ∈ "1.0".toList, 45 ≤ c.toNat ∧ c.toNat ≤ 122 ∧ c.toNat ≠ 92 :=
      forall_mem_of_all (by decide)
    exact bytes_str_plain fun c hc => plainChar_of_range (hrange c hc).1 (hrange c hc).2.1 (hrange c hc).2.2
  have hline : utf8Length ['\n'] = 1 := by decide
  have hdump : utf8Length (dumpJson codec (taskJson codec (taskOf uuid5 spec runId attemptId now))) =
      sizeOf codec (taskJson codec (taskOf uuid5 spec runId attemptId now)) := rfl
  have hvalues : ((taskFields codec (taskOf uuid5 spec runId attemptId now)).map fun e => sizeOf codec e.2).sum =
      391 + timeBytes codec spec now + contentBytes codec spec := by
    simp only [taskFields, taskOf, orNull, List.map_cons, List.map_nil, List.sum_cons, List.sum_nil, hversion,
      sizeOf_uuid hspec, sizeOf_uuid htenant, sizeOf_uuid hproject, sizeOf_uuid hrun, sizeOf_uuid hattempt,
      sizeOf_uuid htask, sizeOf_taskKey hspec hattempt, sizeOf_digest hok.source.contentDigest, timeBytes,
      contentBytes]
    ring
  rw [stdinPayload, utf8Length_append, hline, hdump, hobject, hkeys, hvalues, FRAME_BYTES]
  omega

/-! ## What the container accepts -/

theorem readTask_ok_iff (payload : List Char) :
    (∃ size, readTask payload = .ok size) ↔ 0 < utf8Length payload ∧ utf8Length payload ≤ MAX_TASK_BYTES := by
  simp only [readTask, ite_error_eq_ok_iff, Except.ok.injEq, exists_and_left, exists_eq', and_true]
  omega

theorem fits_iff {task : FullTaskEnvelope} :
    (utf8Length (stdinPayload codec task) ≤ MAX_TASK_BYTES ∧ ∃ size, readTask (stdinPayload codec task) = .ok size) ↔
      utf8Length (stdinPayload codec task) ≤ MAX_TASK_BYTES := by
  have hline : utf8Length ['\n'] = 1 := by decide
  rw [readTask_ok_iff]
  constructor
  · exact fun h => h.1
  · intro h
    refine ⟨h, ?_, h⟩
    rw [stdinPayload, utf8Length_append, hline]
    omega

/-- The container takes the task of a stored spec exactly when the parts that the spec leaves open are small
enough together: its environment variables, parameters, policy, references, path and source. -/
theorem task_accepted_iff {floatRepr : Rat → List Char} {encryptor : SecretEncryptor} {catalog : Catalog}
    (hcatalog : catalog.Reaches floatRepr encryptor) {runId : UUID} {spec : RunSpecRecord}
    (hstored : catalog.plans.specsByRun.get? runId = some spec) (uuid5 : String → UUID) (attemptId : UUID)
    (hids : ∀ id ∈ [spec.id, spec.tenantId, spec.projectId, runId, attemptId,
      uuid5 (spec.id.text ++ ":" ++ attemptId.text)], Canonical id) (codec : Codec) (now : Instant) :
    ∃ task, materializeTask uuid5 catalog.plans runId attemptId now = .ok task ∧
      ((utf8Length (stdinPayload codec task) ≤ MAX_TASK_BYTES ∧
          ∃ size, readTask (stdinPayload codec task) = .ok size) ↔
        FRAME_BYTES + timeBytes codec spec now + contentBytes codec spec ≤ MAX_TASK_BYTES) := by
  have hok := (catalogOk_of_reaches hcatalog).specs runId spec hstored
  have hspec : Canonical spec.id := hids _ (by simp)
  have hattempt : Canonical attemptId := hids _ (by simp)
  refine ⟨taskOf uuid5 spec runId attemptId now, ?_, ?_⟩
  · rw [materializeTask, getRunSpec_ok_iff.mpr hstored, ok_bind]
    exact taskOf_validates hok hspec hattempt
  · rw [fits_iff, utf8Length_stdinPayload now hok hids]

/-! ## Seventeen variables of full size -/

/-- With its quotes, as long as a value may be. -/
def fullText : String := String.ofList (List.replicate 65534 'x')

theorem bytes_replicate {float : Rat → List Char} (n : Nat) :
    (Json.str (String.ofList (List.replicate n 'x'))).bytes (utf8Spelling float) = n + 2 := by
  rw [bytes_str_plain, String.length_ofList, List.length_replicate]
  intro c hc
  rw [String.toList_ofList] at hc
  obtain rfl := List.eq_of_mem_replicate hc
  exact plainChar_of_range (by decide) (by decide) (by decide)

theorem bytes_fullText {float : Rat → List Char} : (Json.str fullText).bytes (utf8Spelling float) = 65536 :=
  bytes_replicate 65534

def fullVariables : List ConfigurationValueInput :=
  (List.range 17).map fun i => ⟨(tally 'V' i).text, .str fullText, false, none⟩

def fullValues : List ConfigurationValue :=
  (List.range 17).map fun i => ⟨.environmentVariable, (tally 'V' i).text, false, .str fullText, none, none⟩

theorem fullVariables_valid : validateInputs zeroRepr .environmentVariable fullVariables = .ok () := by
  rw [validateInputs_ok_iff]
  refine ⟨by simp [fullVariables, MAX_VALUES_PER_CATEGORY], ?_, ?_⟩
  · intro item hitem
    simp only [fullVariables, List.mem_map] at hitem
    obtain ⟨i, hi, rfl⟩ := hitem
    have hnames : ∀ i ∈ List.range 17, keyPattern .environmentVariable (tally 'V' i).text = true := by decide
    refine ⟨hnames i hi, ?_⟩
    have hsize : encodedLength zeroRepr (.str fullText) = 65536 := bytes_fullText
    simp [validateInput, hsize, MAX_VALUE_BYTES]
    rfl
  · simp only [fullVariables, List.map_map]
    decide

theorem fullVariables_build (draws : Draws) (revision : Nat) (previous : Option EnvironmentRecord) :
    buildConfigurationValues zeroRepr sizeTagEncryptor draws someId someId revision previous fullVariables [] =
      .ok fullValues := by
  rw [buildConfigurationValues, fullVariables_valid, ok_bind, buildFrom_public, ok_bind,
    validateInputs_ok_iff.mpr (by simp), ok_bind, buildFrom, ok_bind]
  · simp [fullVariables, fullValues]
    rfl
  · simp [fullVariables]

def fullRecord (status : EnvironmentStatus) (version : Nat) : EnvironmentRecord :=
  ⟨someId, someId, "full", status, version + 1, version, fullValues⟩

def fullHost : EnvironmentRepository :=
  ⟨Dict.empty.set someId (fullRecord .draft 0), Dict.empty.set someId [fullRecord .draft 0],
    Dict.empty.set (someId, "full") someId⟩

def fullHostActive : EnvironmentRepository :=
  ⟨fullHost.environments.set someId (fullRecord .active 1),
    fullHost.revisions.set someId [fullRecord .draft 0, fullRecord .active 1], fullHost.names⟩

theorem fullHost_created : EnvironmentRepository.empty.createEnvironment zeroRepr sizeTagEncryptor loginDraws someId
    someId "full" fullVariables [] = (.ok (fullRecord .draft 0), fullHost) := by
  rw [EnvironmentRepository.createEnvironment, EnvironmentRepository.prepareCreate, fullVariables_build]
  rfl

theorem fullHost_updated : fullHost.updateEnvironment zeroRepr sizeTagEncryptor loginDraws someId 0 "full" .active
    fullVariables [] = (.ok (fullRecord .active 1), fullHostActive) := by
  have hprepare : fullHost.prepareUpdate zeroRepr sizeTagEncryptor loginDraws someId 0 "full" .active fullVariables
      [] = .ok (fullRecord .draft 0, fullRecord .active 1) := by
    have hcurrent : fullHost.getEnvironment someId = .ok (fullRecord .draft 0) := rfl
    have hname : validateEnvironmentName "full" = .ok "full" := by rfl
    rw [EnvironmentRepository.prepareUpdate, hname, ok_bind, hcurrent, ok_bind]
    simp only [fullRecord, fullVariables_build, ok_bind]
    rfl
  rw [EnvironmentRepository.updateEnvironment, hprepare]
  rfl

def fullScript : ScriptRecord × AutomationRepository :=
  AutomationRepository.empty.createScript someId someId .pytest loginBody

def fullScriptActive : ScriptRecord × AutomationRepository :=
  accepted fullScript (fullScript.2.updateScript someId 0 loginBody .active)

def fullReferences : Catalog := ⟨fullScriptActive.2, fullHostActive, .empty, .empty⟩

def fullItem : TestPlanItem where
  itemId := someId
  scriptId := someId
  scriptRevision := 2
  environmentId := some someId
  environmentRevision := some 2
  defaultParameters := .empty
  dataRows := []
  executionPolicy := .plain .default

def fullPlan : Catalog :=
  accepted fullReferences (fullReferences.createPlan zeroRepr someId someId someId [fullItem] 1)

def fullPlanActive : Catalog := accepted fullPlan (fullPlan.updatePlan zeroRepr someId 0 [fullItem] .active 1)

theorem fullPlanActive_reaches : fullPlanActive.Reaches zeroRepr sizeTagEncryptor := by
  have hscript : Catalog.Reaches zeroRepr sizeTagEncryptor ⟨fullScript.2, .empty, .empty, .empty⟩ :=
    .createScript .empty someId someId .pytest loginBody rfl
  have hscripted : Catalog.Reaches zeroRepr sizeTagEncryptor ⟨fullScriptActive.2, .empty, .empty, .empty⟩ :=
    .updateScript hscript someId 0 loginBody .active fullScriptActive.1 fullScriptActive.2
      (eq_ok_accepted fullScript rfl)
  have hhosted : Catalog.Reaches zeroRepr sizeTagEncryptor ⟨fullScriptActive.2, fullHost, .empty, .empty⟩ :=
    .createEnvironment hscripted loginDraws someId someId "full" fullVariables [] _ _ loginDraws_distinct rfl
      fullHost_created
  have hreferences : fullReferences.Reaches zeroRepr sizeTagEncryptor :=
    .updateEnvironment hhosted loginDraws someId 0 "full" .active fullVariables [] _ _ loginDraws_distinct
      fullHost_updated
  have hplanned : fullPlan.Reaches zeroRepr sizeTagEncryptor :=
    .createPlan hreferences someId someId someId [fullItem] 1 rfl
      (eq_ok_accepted fullReferences rfl)
  exact .updatePlan hplanned someId 0 [fullItem] .active 1 (eq_ok_accepted fullPlan rfl)

def fullExecution : Except Exn ((ExecutionBatchRecord × Bool) × Catalog) :=
  fullPlanActive.executePlan zeroRepr ⟨someId, fun _ => someId, fun _ => someId⟩ 0 none someId "full"

def fullSpec : Option RunSpecRecord :=
  fullExecution.toOption.bind fun result => result.2.plans.specsByRun.get? someId

theorem fullSpec_eq : fullSpec.map (fun spec => (spec.id, spec.tenantId, spec.projectId)) =
    some (someId, someId, someId) := by
  rfl

theorem fullSpec_variables : fullSpec.map (fun spec => spec.environmentVariables.entries) =
    some ((List.range 17).map fun i => ((tally 'V' i).text, .str fullText)) := by
  rfl

/-- The catalog after the execution, and the spec in it. -/
theorem fullSpec_stored : ∃ (catalog : Catalog) (spec : RunSpecRecord), catalog.Reaches zeroRepr sizeTagEncryptor ∧
    catalog.plans.specsByRun.get? someId = some spec ∧
    (spec.id = someId ∧ spec.tenantId = someId ∧ spec.projectId = someId) ∧
    spec.environmentVariables.entries = (List.range 17).map fun i => ((tally 'V' i).text, .str fullText) := by
  obtain ⟨spec, hspec, hfields⟩ := Option.map_eq_some_iff.mp fullSpec_eq
  simp only [Prod.mk.injEq] at hfields
  obtain ⟨⟨answer, catalog⟩, hresult, hstored⟩ := Option.bind_eq_some_iff.mp hspec
  have hok : fullExecution = .ok (answer, catalog) := by
    cases hcase : fullExecution with
    | error e => simp [hcase, Except.toOption] at hresult
    | ok found => simpa [hcase, Except.toOption] using hresult
  refine ⟨catalog, spec, .executePlan fullPlanActive_reaches _ 0 none someId "full" answer (by simp) hok, hstored,
    hfields, ?_⟩
  have hvariables := fullSpec_variables
  rw [hspec, Option.map_some, Option.some.injEq] at hvariables
  exact hvariables

/-- The variables alone are more than the container takes. -/
theorem fullSpec_content {spec : RunSpecRecord}
    (h : spec.environmentVariables.entries = (List.range 17).map fun i => ((tally 'V' i).text, .str fullText)) :
    MAX_TASK_BYTES < contentBytes codec spec := by
  have hvalues : (spec.environmentVariables.entries.map fun e => e.2.bytes (utf8Spelling codec.floatText)).sum =
      17 * 65536 := by
    have hconst : ∀ i ∈ List.range 17, ((fun e : String × Json => e.2.bytes (utf8Spelling codec.floatText)) ∘
        fun i => ((tally 'V' i).text, Json.str fullText)) i = 65536 := by
      intro i _
      rw [Function.comp_apply]
      exact bytes_fullText
    rw [h, List.map_map, List.map_eq_replicate_iff.mpr hconst, List.sum_replicate, List.length_range, nsmul_eq_mul, Nat.cast_ofNat]
  have hobject : 17 * 65536 ≤ sizeOf codec (.obj spec.environmentVariables.entries) :=
    hvalues ▸ sum_bytes_le_obj spec.environmentVariables.entries
  rw [contentBytes, MAX_TASK_BYTES]
  simp only [Nat.add_assoc]
  exact Nat.lt_of_lt_of_le (by omega) (hobject.trans (Nat.le_add_right _ _))

theorem full_ids {spec : RunSpecRecord} (h : spec.id = someId ∧ spec.tenantId = someId ∧ spec.projectId = someId) :
    ∀ id ∈ [spec.id, spec.tenantId, spec.projectId, someId, someId,
      someUuid5 (spec.id.text ++ ":" ++ someId.text)], Canonical id := by
  have hdrawn : ∀ name, Canonical (someUuid5 name) := by
    intro name
    constructor
    · show (someUuid5 "").text.length = 36
      rfl
    · show ∀ c ∈ (someUuid5 "").text.toList, _
      exact forall_mem_of_all (by rfl)
  simp only [h.1, h.2.1, h.2.2, List.forall_mem_cons, List.not_mem_nil, false_imp_iff, implies_true, and_true]
  exact ⟨someId_canonical, someId_canonical, someId_canonical, someId_canonical, someId_canonical, hdrawn _⟩

theorem full_task_refused : ∃ (catalog : Catalog) (task : FullTaskEnvelope),
    catalog.Reaches zeroRepr sizeTagEncryptor ∧
      materializeTask someUuid5 catalog.plans someId someId 0 = .ok task ∧
      MAX_TASK_BYTES < utf8Length (stdinPayload epochCodec task) ∧
      readTask (stdinPayload epochCodec task) = .error "task envelope is empty or too large\n" := by
  obtain ⟨catalog, spec, hreaches, hstored, hids, hvariables⟩ := fullSpec_stored
  have hok := (catalogOk_of_reaches hreaches).specs someId spec hstored
  have hsize := @utf8Length_stdinPayload epochCodec someUuid5 spec someId someId 0 hok (full_ids hids)
  have hlarge : MAX_TASK_BYTES < utf8Length (stdinPayload epochCodec (taskOf someUuid5 spec someId someId 0)) := by
    rw [hsize]
    exact lt_of_lt_of_le (fullSpec_content hvariables) (Nat.le_add_left _ _)
  refine ⟨catalog, taskOf someUuid5 spec someId someId 0, hreaches, ?_, hlarge, ?_⟩
  · rw [materializeTask, getRunSpec_ok_iff.mpr hstored, ok_bind]
    exact taskOf_validates hok (hids.1 ▸ someId_canonical) someId_canonical
  · rw [readTask, if_pos]
    right
    omega

theorem full_task_measured : ∃ (catalog : Catalog) (spec : RunSpecRecord) (task : FullTaskEnvelope),
    catalog.plans.specsByRun.get? someId = some spec ∧
      materializeTask someUuid5 catalog.plans someId someId 0 = .ok task ∧
      ((utf8Length (stdinPayload epochCodec task) ≤ MAX_TASK_BYTES ∧
          ∃ size, readTask (stdinPayload epochCodec task) = .ok size) ↔
        FRAME_BYTES + timeBytes epochCodec spec 0 + contentBytes epochCodec spec ≤ MAX_TASK_BYTES) := by
  obtain ⟨catalog, spec, hreaches, hstored, hids, -⟩ := fullSpec_stored
  obtain ⟨task, htask, hiff⟩ := task_accepted_iff hreaches hstored someUuid5 someId (full_ids hids) epochCodec 0
  exact ⟨catalog, spec, task, hstored, htask, hiff⟩

end SmartTest.Runner
