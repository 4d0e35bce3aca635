import SmartTest.Lib.Except
import SmartTest.Runner.Http

/-!
# Retries are safe

`decide_retry` looks at the methods of the request templates, and the adapter sends what
the templates become. A template whose method is one of the six idempotent ones has no
token in it, so it is sent as it stands.
-/

open SmartTest.Lib SmartTest.Run

namespace SmartTest.Runner

variable {world : HttpWorld} {context : Dict String PyValue}

/-! ## A text without tokens -/

theorem matchTemplate_eq_none {text : List Char} (h : '$' ∉ text) : HttpWorld.matchTemplate text = none := by
  unfold HttpWorld.matchTemplate
  split
  · simp at h
  · rfl

theorem replaceTemplates_eq {text : List Char} (h : '$' ∉ text) : world.replaceTemplates context 0 text = .ok text := by
  induction text with
  | nil => rfl
  | cons c rest ih =>
    simp only [HttpWorld.replaceTemplates, matchTemplate_eq_none h, ih (fun hin => h (List.mem_cons_of_mem _ hin))]
    rfl

theorem substituteText_eq {text : String} (h : '$' ∉ text.toList) :
    world.substituteText context text = .ok (.str text) := by
  simp only [HttpWorld.substituteText, matchTemplate_eq_none h, replaceTemplates_eq h, ok_bind]
  rw [String.ofList_toList]
  rfl

/-! ## The method of a request -/

/-- The fields of a request keep their names. -/
theorem lookup_substituteFields {fields request : List (String × PyValue)}
    (h : world.substituteFields context fields = .ok request) (key : String) :
    (fields.lookup key = none ∧ request.lookup key = none) ∨
      ∃ value sent, fields.lookup key = some value ∧ world.substitute context value = .ok sent ∧
        request.lookup key = some sent := by
  induction fields generalizing request with
  | nil =>
    cases h
    exact .inl ⟨rfl, rfl⟩
  | cons field rest ih =>
    obtain ⟨name, value⟩ := field
    simp only [HttpWorld.substituteFields, bind_eq_ok_iff, pure_eq_ok_iff] at h
    obtain ⟨sent, hsent, others, hothers, rfl⟩ := h
    simp only [Dict.lookup_cons_ite]
    by_cases hkey : key = name
    · exact .inr ⟨value, sent, by simp [hkey], hsent, by simp [hkey]⟩
    · simpa [hkey] using ih hothers

theorem lookup_freeze (fields : List (String × Json)) (key : String) :
    (PyValue.deepFreezeFields (PyValue.plainFields fields)).lookup key = (fields.lookup key).map PyValue.freeze := by
  induction fields with
  | nil => rfl
  | cons field rest ih =>
    obtain ⟨name, value⟩ := field
    simp only [PyValue.plainFields, PyValue.deepFreezeFields, Dict.lookup_cons_ite, ih]
    split <;> rfl

/-- No idempotent method has a token in it, however it is spelled. -/
theorem no_token_of_idempotent {text : String}
    (h : String.ofList (text.toList.map upperChar) ∈ IDEMPOTENT_METHODS) : '$' ∉ text.toList := by
  intro hin
  have hupper : '$' ∈ text.toList.map upperChar := List.mem_map.mpr ⟨'$', hin, by decide⟩
  have hnone : ∀ method ∈ IDEMPOTENT_METHODS, '$' ∉ method.toList := by decide
  exact hnone _ h (by simpa using hupper)

/-- What a template with an idempotent method becomes has one. -/
theorem method_of_idempotent {fields : List (String × Json)} {request : List (String × PyValue)}
    (hidem : isIdempotent (.obj fields) = true)
    (h : world.substituteFields context (PyValue.deepFreezeFields (PyValue.plainFields fields)) = .ok request) :
    world.method request ∈ IDEMPOTENT_METHODS := by
  have hmethod := lookup_substituteFields h "method"
  rw [lookup_freeze] at hmethod
  simp only [isIdempotent, Option.any_eq_true, requestMethod, decide_eq_true_eq] at hidem
  obtain ⟨method, hmethod', hin⟩ := hidem
  unfold HttpWorld.method
  split at hmethod'
  · next hnone =>
    rw [hnone] at hmethod
    rcases hmethod with ⟨-, hsent⟩ | ⟨_, _, hsome, -⟩
    · rw [hsent]
      show String.ofList ("GET".toList.map upperChar) ∈ IDEMPOTENT_METHODS
      decide
    · cases hsome
  · next text htext =>
    cases hmethod'
    rw [htext] at hmethod
    rcases hmethod with ⟨hnone, -⟩ | ⟨value, sent, hvalue, hsubst, hsent⟩
    · cases hnone
    · cases hvalue
      have hplain : world.substitute context (PyValue.freeze (.str text)) = .ok (.str text) := by
        simp only [PyValue.freeze, PyValue.plain, PyValue.deepFreeze, HttpWorld.substitute]
        exact substituteText_eq (no_token_of_idempotent hin)
      rw [hplain] at hsubst
      cases hsubst
      rw [hsent]
      exact hin
  · cases hmethod'

/-! ## What the adapter sends -/

def Idempotent (sent : List HttpRequest) : Prop := ∀ request ∈ sent, request.method ∈ IDEMPOTENT_METHODS

theorem prepare_idempotent {turn : Nat} {template : Json} {request : HttpRequest} {codes : List Int}
    (hidem : isIdempotent template = true)
    (h : world.prepare turn (some (PyValue.freeze template)) context = .ok (request, codes)) :
    request.method ∈ IDEMPOTENT_METHODS := by
  cases template with
  | obj fields =>
    simp only [HttpWorld.prepare, PyValue.freeze, PyValue.plain, PyValue.deepFreeze, ok_bind, bind_eq_ok_iff] at h
    obtain ⟨substituted, hsubst, h⟩ := h
    split at h
    · simp only [bind_eq_ok_iff, error_bind, ite_error_eq_ok_iff] at h
      obtain ⟨-, -, -, h⟩ := h
      split at h
      all_goals
        simp only [bind_eq_ok_iff, ite_error_eq_ok_iff, pure_eq_ok_iff, Prod.mk.injEq] at h
      · obtain ⟨-, -, -, -, -, -, -, rfl, -⟩ := h
        exact method_of_idempotent hidem hsubst
      · obtain ⟨-, -, -, -, -, rfl, -⟩ := h
        exact method_of_idempotent hidem hsubst
    · cases h
  | _ => simp [isIdempotent] at hidem

theorem prepare_none {turn : Nat} : world.prepare turn none context = .error .valueError := rfl

theorem execute_sent (turn : Nat) (spec : Option PyValue) (assertions : List AssertionRule)
    (extractions : List ExtractionRule) (name phase : String) :
    (∀ request codes, world.prepare turn spec context = .ok (request, codes) → request.method ∈ IDEMPOTENT_METHODS) →
    Idempotent (world.execute turn spec assertions extractions context name phase).1 := by
  intro h
  unfold HttpWorld.execute
  split
  case h_7 request codes hprepared => simpa [Idempotent] using h request codes hprepared
  all_goals simp [Idempotent]

theorem perform_sent {p : HttpWorld.Progress} {spec : Option PyValue} (assertions : List AssertionRule)
    (extractions : List ExtractionRule) (name phase : String) (hp : Idempotent p.sent)
    (hspec : ∀ template, spec = some template → ∃ json, template = PyValue.freeze json ∧ isIdempotent json = true) :
    Idempotent (world.perform p spec assertions extractions name phase).1.sent := by
  have hsent : Idempotent (world.execute p.turn spec assertions extractions p.context name phase).1 := by
    apply execute_sent
    intro request codes hprepared
    cases spec with
    | none => simp [prepare_none] at hprepared
    | some template =>
      obtain ⟨json, rfl, hidem⟩ := hspec template rfl
      exact prepare_idempotent hidem hprepared
  have hboth : Idempotent (p.sent ++ (world.execute p.turn spec assertions extractions p.context name phase).1) :=
    List.forall_mem_append.mpr ⟨hp, hsent⟩
  simp only [HttpWorld.perform]
  split
  · exact hboth
  · exact hboth

def stepTemplate (step : HttpStep) : Json := .obj step.request.entries

theorem performStep_sent (world : HttpWorld) {p : HttpWorld.Progress} (phase : String) {step : HttpStep} (hp : Idempotent p.sent)
    (hstep : isIdempotent (stepTemplate step) = true) : Idempotent (world.performStep p phase step).1.sent := by
  apply perform_sent _ _ _ _ hp
  rintro _ ⟨⟩
  exact ⟨_, rfl, hstep⟩

theorem beforeLoop_sent (world : HttpWorld) {steps : List HttpStep} {p : HttpWorld.Progress} (hp : Idempotent p.sent)
    (hsteps : ∀ step ∈ steps, isIdempotent (stepTemplate step) = true) :
    Idempotent (world.beforeLoop steps p).1.sent := by
  induction steps generalizing p with
  | nil => exact hp
  | cons step rest ih =>
    obtain ⟨hstep, hrest⟩ := List.forall_mem_cons.mp hsteps
    have hsent := performStep_sent world "before" hp hstep
    unfold HttpWorld.beforeLoop
    split
    · next heq =>
      rw [heq] at hsent
      exact hsent
    · next heq =>
      rw [heq] at hsent
      split
      · exact hsent
      · exact ih hsent hrest

theorem afterLoop_sent {steps : List HttpStep} {primary : StepResult} {p : HttpWorld.Progress}
    (hp : Idempotent p.sent) (hsteps : ∀ step ∈ steps, isIdempotent (stepTemplate step) = true) :
    Idempotent (world.afterLoop steps primary p).1.sent := by
  induction steps generalizing p primary with
  | nil => exact hp
  | cons step rest ih =>
    obtain ⟨hstep, hrest⟩ := List.forall_mem_cons.mp hsteps
    have hsent := performStep_sent world "after" hp hstep
    unfold HttpWorld.afterLoop
    split
    · next heq =>
      rw [heq] at hsent
      exact hsent
    · next heq =>
      rw [heq] at hsent
      exact ih hsent hrest

theorem run_sent {task : TaskEnvelope} (h : ∀ template ∈ retryRequests task, isIdempotent template = true) :
    Idempotent (world.run task).1.sent := by
  obtain ⟨hmain, hsteps⟩ := List.forall_mem_cons.mp h
  rw [List.forall_mem_map] at hsteps
  obtain ⟨hbefore, hafter⟩ := List.forall_mem_append.mp hsteps
  have hnone : Idempotent [] := by simp [Idempotent]
  simp only [HttpWorld.run]
  split
  · exact hnone
  · exact hnone
  · have hloop := beforeLoop_sent world (p := ⟨1, HttpWorld.initialContext task, [], [], [], []⟩) hnone hbefore
    split
    · next heq =>
      rw [heq] at hloop
      exact hloop
    · next heq =>
      rw [heq] at hloop
      exact afterLoop_sent hloop hafter
    · next p heq =>
      rw [heq] at hloop
      have hrequest : Idempotent (world.performMain task p).1.sent := by
        apply perform_sent _ _ _ _ hloop
        intro template htemplate
        obtain ⟨json, hjson, rfl⟩ := Option.map_eq_some_iff.mp htemplate
        exact ⟨json, rfl, by simpa [hjson] using hmain⟩
      split
      · next heq =>
        rw [heq] at hrequest
        exact hrequest
      · next heq =>
        rw [heq] at hrequest
        exact afterLoop_sent hrequest hafter

/-! ## Decisions -/

variable {task : TaskEnvelope} {result : ResultEnvelope} {n : Nat}

/-- The delay before the attempt after attempt `n`. -/
def backoff (policy : RetryPolicy) (n : Nat) : Nat :=
  min (policy.backoffSeconds * 2 ^ (n - 1)) policy.maxBackoffSeconds

theorem backoff_mono (policy : RetryPolicy) {m n : Nat} (h : m ≤ n) : backoff policy m ≤ backoff policy n := by
  have hpow : 2 ^ (m - 1) ≤ 2 ^ (n - 1) := Nat.pow_le_pow_right (by omega) (by omega)
  have hmul := Nat.mul_le_mul_left policy.backoffSeconds hpow
  unfold backoff
  omega

/-- The condition for a retry, apart from the attempt number. -/
def Retryable (task : TaskEnvelope) (result : ResultEnvelope) : Prop :=
  result.outcome ∈ task.executionPolicy.retry.retryOn ∧
    ¬ (task.engine = .http && !task.executionPolicy.retry.allowNonIdempotentHttp &&
      !(retryRequests task).all isIdempotent) = true

theorem decideRetry_iff :
    (decideRetry task result n).shouldRetry = true ↔
      n < task.executionPolicy.retry.maxAttempts ∧ Retryable task result := by
  simp only [decideRetry, Retryable]
  by_cases hmax : n ≥ task.executionPolicy.retry.maxAttempts
  · simp [hmax]
  · rw [if_neg hmax]
    by_cases hin : result.outcome ∈ task.executionPolicy.retry.retryOn
    · rw [if_neg (by simpa using hin)]
      split <;> simp_all
    · simp [hin]

theorem decideRetry_delay :
    (decideRetry task result n).delaySeconds =
      if (decideRetry task result n).shouldRetry then backoff task.executionPolicy.retry n else 0 := by
  simp only [decideRetry]
  split
  · rfl
  · split
    · rfl
    · split <;> rfl

theorem idempotent_of_retryable (h : Retryable task result) (hengine : task.engine = .http)
    (hpolicy : task.executionPolicy.retry.allowNonIdempotentHttp = false) :
    ∀ template ∈ retryRequests task, isIdempotent template = true := by
  have hall := h.2
  simpa [hengine, hpolicy, List.all_eq_true] using hall

/-- A retry is safe and bounded, and waits no shorter than an earlier one. -/
theorem retries_safe (task : TaskEnvelope) (result : ResultEnvelope) (n : Nat) :
    ((decideRetry task result n).shouldRetry = true → task.engine = .http →
      task.executionPolicy.retry.allowNonIdempotentHttp = false →
      ∀ world : HttpWorld, ∀ request ∈ (world.run task).1.sent, request.method ∈ IDEMPOTENT_METHODS) ∧
    ((decideRetry task result n).shouldRetry = true → n < task.executionPolicy.retry.maxAttempts ∧
      result.outcome ≠ .succeeded ∧ result.outcome ≠ .cancelled) ∧
    (decideRetry task result n).delaySeconds ≤ task.executionPolicy.retry.maxBackoffSeconds ∧
    ∀ m ≤ n, (decideRetry task result n).shouldRetry = true → (decideRetry task result m).shouldRetry = true ∧
      (decideRetry task result m).delaySeconds ≤ (decideRetry task result n).delaySeconds := by
  refine ⟨?_, ?_, ?_, ?_⟩
  · intro hretry hengine hpolicy world
    exact run_sent (idempotent_of_retryable (decideRetry_iff.mp hretry).2 hengine hpolicy)
  · intro hretry
    have hfinal : ∀ outcome, outcome = .succeeded ∨ outcome = .cancelled → result.outcome ≠ outcome := by
      rintro outcome hover rfl
      rw [not_retried hover] at hretry
      cases hretry
    exact ⟨(decideRetry_iff.mp hretry).1, hfinal _ (.inl rfl), hfinal _ (.inr rfl)⟩
  · rw [decideRetry_delay]
    unfold backoff
    split <;> omega
  · intro m hle hretry
    obtain ⟨hlt, hretryable⟩ := decideRetry_iff.mp hretry
    have hearlier : (decideRetry task result m).shouldRetry = true := decideRetry_iff.mpr ⟨by omega, hretryable⟩
    rw [decideRetry_delay, decideRetry_delay, hretry, hearlier]
    exact ⟨rfl, backoff_mono _ hle⟩

end SmartTest.Runner
