import SmartTest.Plan.Claim
import SmartTest.Plan.SqlExpansion

/-!
# Tasks from stored specs

`RunSpecTaskMaterializer.materialize` with all that it puts into the task. What
`TaskEnvelope` checks again was checked where the parts of the spec came in.
-/

open SmartTest.Lib SmartTest.Run SmartTest.Environment

namespace SmartTest.Plan

/-- The text of a UUID: 36 hexadecimal digits and dashes. -/
structure Canonical (id : UUID) : Prop where
  length : id.text.length = 36
  hex : ∀ c ∈ id.text.toList, c.isDigit = true ∨ ('a' ≤ c ∧ c ≤ 'f') ∨ c = '-'

theorem digitChar_hex : ∀ n < 16, n.digitChar.isDigit = true ∨ ('a' ≤ n.digitChar ∧ n.digitChar ≤ 'f') := by decide

/-- The text of 128 bits is one. -/
theorem Canonical.of_spelled {id : UUID} (h : id.Spelled) : Canonical id := by
  obtain ⟨value, -, htext⟩ := h
  constructor
  · rw [htext, String.length_ofList, length_uuidText]
  · intro c hc
    rw [htext, String.toList_ofList] at hc
    rcases mem_uuidText hc with rfl | ⟨digit, hdigit, rfl⟩
    · exact .inr (.inr rfl)
    · rcases digitChar_hex digit hdigit with hdecimal | hletter
      · exact .inl hdecimal
      · exact .inr (.inl hletter)

/-- What a digest or the text of a UUID is made of is ASCII from the dash on. -/
theorem isHex_range {c : Char} (h : c.isDigit = true ∨ ('a' ≤ c ∧ c ≤ 'f') ∨ c = '-') :
    45 ≤ c.toNat ∧ c.toNat ≤ 102 ∧ c.toNat ≠ 92 := by
  rcases h with h | ⟨hlow, hhigh⟩ | rfl
  · simp only [Char.isDigit, Bool.and_eq_true, decide_eq_true_eq] at h
    have hlow : 48 ≤ c.toNat := h.1
    have hhigh : c.toNat ≤ 57 := h.2
    omega
  · have hlow : 97 ≤ c.toNat := hlow
    have hhigh : c.toNat ≤ 102 := hhigh
    omega
  · decide

theorem isHex_plain {c : Char} (h : c.isDigit = true ∨ ('a' ≤ c ∧ c ≤ 'f') ∨ c = '-') : isSpace c = false := by
  obtain ⟨hlow, hhigh, -⟩ := isHex_range h
  simp only [isSpace, Bool.or_eq_false_iff, Bool.and_eq_false_iff, decide_eq_false_iff_not]
  omega

def taskKey (spec : RunSpecRecord) (attemptId : UUID) : String :=
  "run-spec:" ++ spec.id.text ++ ":attempt:" ++ attemptId.text

/-- The arguments of `TaskEnvelope`; `uuid5` is that of the URL namespace. -/
def taskOf (uuid5 : String → UUID) (spec : RunSpecRecord) (runId attemptId : UUID) (now : Instant) :
    FullTaskEnvelope where
  runId := runId
  attemptId := attemptId
  engine := spec.engine
  parameters := spec.parameters
  executionPolicy := spec.executionPolicy
  taskId := uuid5 (spec.id.text ++ ":" ++ attemptId.text)
  tenantId := spec.tenantId
  projectId := spec.projectId
  idempotencyKey := taskKey spec attemptId
  createdAt := now
  deadline := now.addSeconds spec.timeoutSeconds
  entrypoint := spec.entrypoint
  runSpecId := some spec.id
  sourceRef := some spec.sourceRef
  contentDigest := some spec.contentDigest
  environmentVariables := spec.environmentVariables
  environmentId := spec.environmentId
  environmentRevision := spec.environmentRevision
  secretReferences := spec.secretReferences

/-- `materialize`, with the validation of the task it builds. -/
def materializeTask (uuid5 : String → UUID) (repo : TestPlanRepository) (runId attemptId : UUID) (now : Instant) :
    Except Exn FullTaskEnvelope := do
  let spec ← repo.getRunSpec runId
  (taskOf uuid5 spec runId attemptId now).validate

/-! ## The checks on a task -/

theorem taskKey_plain {spec : RunSpecRecord} {attemptId : UUID} (hspec : Canonical spec.id)
    (hattempt : Canonical attemptId) :
    strip (taskKey spec attemptId) = taskKey spec attemptId ∧ (taskKey spec attemptId).length = 90 := by
  constructor
  · apply strip_eq_self
    intro c hc
    simp only [taskKey, String.toList_append, List.mem_append] at hc
    rcases hc with ((hc | hc) | hc) | hc
    · revert c
      exact forall_mem_of_all (by decide)
    · exact isHex_plain (hspec.hex c hc)
    · revert c
      exact forall_mem_of_all (by decide)
    · exact isHex_plain (hattempt.hex c hc)
  · simp only [taskKey, String.length_append, hspec.length, hattempt.length]
    decide

theorem taskOf_fields {uuid5 : String → UUID} {spec : RunSpecRecord} {runId attemptId : UUID} {now : Instant}
    (h : SpecOk spec) (hspec : Canonical spec.id) (hattempt : Canonical attemptId) :
    (taskOf uuid5 spec runId attemptId now).fieldErrors = [] := by
  have hkey := (taskKey_plain hspec hattempt).2
  have hrevision : (spec.environmentRevision.all (1 ≤ ·)) = true := by
    rw [Option.all_eq_true]
    intro revision hsome
    simpa using h.revision revision hsome
  simp [FullTaskEnvelope.fieldErrors, FullTaskEnvelope.fields, taskOf, hkey, h.entrypoint, h.source.sourceRef,
    h.source.contentDigest, hrevision]

theorem taskOf_checks {uuid5 : String → UUID} {spec : RunSpecRecord} {runId attemptId : UUID} {now : Instant}
    (h : SpecOk spec) : (taskOf uuid5 spec runId attemptId now).deadlineFollowsCreation = .ok () := by
  have hdeadline : ¬ now.addSeconds spec.timeoutSeconds ≤ now := by
    have hpos : (1 : Int) ≤ spec.timeoutSeconds := by exact_mod_cast h.timeoutSeconds
    have hlater : (0 : Int) < spec.timeoutSeconds * 1000000 := by omega
    exact not_le.mpr (Int.lt_add_of_pos_right now hlater)
  have hpinned : ¬ (spec.secretReferences ≠ [] ∧ spec.environmentId = none) := fun hno => h.pinned hno.1 hno.2
  have hengine : ¬ (spec.engine ≠ .http ∧ spec.executionPolicy.needsHttp = true) := by
    rintro ⟨hother, hneeds⟩
    rcases h.engine with hhttp | hplain
    · exact hother hhttp
    · simp [hplain] at hneeds
  simp only [FullTaskEnvelope.deadlineFollowsCreation, error_bind, ite_error_eq_ok_iff]
  refine ⟨hdeadline, not_not.mpr h.paired, hpinned, ?_, not_not.mpr h.slots, not_not.mpr h.refs, hengine, rfl⟩
  rw [List.any_eq_true]
  rintro ⟨e, he, hbad⟩
  obtain ⟨hname, text, htext⟩ := h.variableNames e he
  simp [hname, htext] at hbad

theorem taskOf_validates {uuid5 : String → UUID} {spec : RunSpecRecord} {runId attemptId : UUID} {now : Instant}
    (h : SpecOk spec) (hspec : Canonical spec.id) (hattempt : Canonical attemptId) :
    (taskOf uuid5 spec runId attemptId now).validate = .ok (taskOf uuid5 spec runId attemptId now) := by
  obtain ⟨hstrip, hlength⟩ := taskKey_plain hspec hattempt
  have hkey : strip (taskOf uuid5 spec runId attemptId now).idempotencyKey =
      (taskOf uuid5 spec runId attemptId now).idempotencyKey := hstrip
  have hblank : ¬ (taskOf uuid5 spec runId attemptId now).idempotencyKey = "" := by
    intro hempty
    have hzero : (taskKey spec attemptId).length = 0 := congrArg String.length hempty
    omega
  simp only [FullTaskEnvelope.validate, hkey, error_bind, ite_error_eq_ok_iff]
  refine ⟨hblank, not_not.mpr (taskOf_fields h hspec hattempt), ?_⟩
  rw [bind_eq_ok_iff]
  exact ⟨(), taskOf_checks h, rfl⟩

/-- The run system reads a part of the task that is materialized. -/
theorem materializeTask_eq {uuid5 : String → UUID} {repo : TestPlanRepository} {runId attemptId : UUID}
    {now : Instant} {task : FullTaskEnvelope} (h : materializeTask uuid5 repo runId attemptId now = .ok task) :
    materialize repo runId attemptId = .ok task.toTaskEnvelope := by
  simp only [materializeTask, bind_eq_ok_iff] at h
  obtain ⟨spec, hspec, hvalid⟩ := h
  simp only [FullTaskEnvelope.validate, error_bind, ite_error_eq_ok_iff, bind_eq_ok_iff, pure_eq_ok_iff] at hvalid
  obtain ⟨-, -, _, -, rfl⟩ := hvalid
  rw [materialize, hspec, ok_bind]
  rfl

/-- Every spec that is ever stored becomes a task, for every attempt and at any time. -/
theorem stored_spec_materializes {floatRepr : Rat → List Char} {encryptor : SecretEncryptor} {catalog : Catalog}
    (hcatalog : catalog.Reaches floatRepr encryptor) {runId : UUID} {spec : RunSpecRecord}
    (hstored : catalog.plans.specsByRun.get? runId = some spec) (hspec : Canonical spec.id) {attemptId : UUID}
    (hattempt : Canonical attemptId) (uuid5 : String → UUID) (now : Instant) :
    materializeTask uuid5 catalog.plans runId attemptId now = .ok (taskOf uuid5 spec runId attemptId now) := by
  have hok := (catalogOk_of_reaches hcatalog).specs runId spec hstored
  rw [materializeTask, getRunSpec_ok_iff.mpr hstored, ok_bind]
  exact taskOf_validates hok hspec hattempt

/-! ## The task of the first row -/

def someId : UUID := ⟨"5f0f7a5e-6a0d-4f43-9d21-0c4f8b1a2e33"⟩

theorem someId_canonical : Canonical someId :=
  .of_spelled ⟨0x5f0f7a5e6a0d4f439d210c4f8b1a2e33, by decide, by decide⟩

def loginExecution : Except Exn ((ExecutionBatchRecord × Bool) × Catalog) :=
  loginCatalog.executePlan zeroRepr ⟨⟨"batch"⟩, tally 'r', fun _ => someId⟩ 0 none ⟨"n"⟩ "nightly"

def loginSpec : Option RunSpecRecord :=
  loginExecution.toOption.bind fun result => result.2.plans.specsByRun.get? (tally 'r' 0)

theorem loginSpec_eq : loginSpec.map (fun spec => (spec.id, spec.rowKey, spec.timeoutSeconds)) =
    some (someId, "plain", 60) := by
  decide +kernel

/-- `uuid5` at the one name of the example. -/
def someUuid5 : String → UUID := fun _ => ⟨"af6f35b6-a97e-5b8c-9da9-8ea070df6a91"⟩

theorem login_task_materializes : ∃ (catalog : Catalog) (task : FullTaskEnvelope),
    catalog.Reaches zeroRepr sizeTagEncryptor ∧
      materializeTask someUuid5 catalog.plans (tally 'r' 0) someId 5 = .ok task ∧ task.deadline = 60000005 := by
  obtain ⟨spec, hspec, hfields⟩ := Option.map_eq_some_iff.mp loginSpec_eq
  simp only [Prod.mk.injEq] at hfields
  obtain ⟨hid, -, htimeout⟩ := hfields
  obtain ⟨result, hresult, hstored⟩ := Option.bind_eq_some_iff.mp hspec
  obtain ⟨answer, catalog⟩ := result
  have hok : loginExecution = .ok (answer, catalog) := by
    cases hcase : loginExecution with
    | error e => simp [hcase, Except.toOption] at hresult
    | ok found => simpa [hcase, Except.toOption] using hresult
  have hreaches : catalog.Reaches zeroRepr sizeTagEncryptor :=
    .executePlan login_mirrors.reaches _ 0 none ⟨"n"⟩ "nightly" answer (by simp) hok
  refine ⟨catalog, _, hreaches, stored_spec_materializes hreaches hstored (hid ▸ someId_canonical) someId_canonical
    someUuid5 5, ?_⟩
  simp [taskOf, htimeout, Instant.addSeconds]

end SmartTest.Plan
