import SmartTest.Plan.Sql

/-!
# Reusing an idempotency key

Both implementations keep one batch for each tenant, project and key. Both compare the
plan and its revision when a key comes back, and neither compares the source override.
-/

open SmartTest.Lib SmartTest.Run

namespace SmartTest.Plan

/-- The whole request behind a call of `execute` on the plan as it stands. -/
structure PlanRequest where
  planId : UUID
  planRevision : Nat
  sourceOverride : Option (String × String)
  deriving DecidableEq

/-- What is asked of an answer while `existing` holds the key, if anything does: the same request
gets the batch again, and any other one a conflict. -/
def AnsweredWell (existing : Option (ExecutionBatchRecord × PlanRequest)) (request : PlanRequest)
    (answer : Except Exn (ExecutionBatchRecord × Bool)) : Prop :=
  match existing with
  | none => ∀ batch, answer ≠ .ok (batch, true)
  | some (batch, created) =>
    if created = request then answer = .ok (batch, true)
    else ∃ e, answer = .error e ∧ e.kind = .testPlanConflict

/-- The key was not used before for the same plan revision with another source override. -/
def OverrideAgrees (existing : Option (ExecutionBatchRecord × PlanRequest)) (request : PlanRequest) : Prop :=
  ∀ batch created, existing = some (batch, created) → created.planId = request.planId →
    created.planRevision = request.planRevision → created.sourceOverride = request.sourceOverride

/-- The comparison that both implementations make decides the answer. -/
theorem resolveBatch_well_iff (batch : ExecutionBatchRecord) (plan : TestPlanRecord)
    (created override : Option (String × String)) :
    AnsweredWell (some (batch, ⟨batch.planId, batch.planRevision, created⟩))
        ⟨plan.id, plan.revision, override⟩ (SqlTestPlanStore.resolveBatch batch plan) ↔
      OverrideAgrees (some (batch, ⟨batch.planId, batch.planRevision, created⟩))
        ⟨plan.id, plan.revision, override⟩ := by
  simp only [AnsweredWell, OverrideAgrees, SqlTestPlanStore.resolveBatch]
  by_cases hsame : (batch.planId, batch.planRevision) = (plan.id, plan.revision)
  · rw [if_neg (not_not.mpr hsame)]
    simp only [Prod.mk.injEq] at hsame
    by_cases hover : created = override
    · rw [if_pos (by rw [hsame.1, hsame.2, hover])]
      refine ⟨fun _ => ?_, fun _ => rfl⟩
      rintro _ _ ⟨⟩ - -
      exact hover
    · rw [if_neg (by simp [hover])]
      constructor
      · rintro ⟨e, he, -⟩
        cases he
      · intro h
        exact absurd (h _ _ rfl hsame.1 hsame.2) hover
  · rw [if_pos hsame, if_neg (by simp only [PlanRequest.mk.injEq]; rintro ⟨h1, h2, -⟩; exact hsame (by rw [h1, h2]))]
    refine ⟨fun _ => ?_, fun _ => ⟨_, rfl, rfl⟩⟩
    rintro _ _ ⟨⟩ h1 h2
    exact absurd (by simp_all) hsame

/-- No two batches share tenant, project and key. -/
def OneBatchPerKey (batches : Dict UUID ExecutionBatchRecord) : Prop :=
  ∀ a ∈ batches.values, ∀ b ∈ batches.values, a.scope = b.scope → a = b

theorem getPlan_ok_iff {repo : TestPlanRepository} {planId : UUID} {plan : TestPlanRecord} :
    repo.getPlan planId = .ok plan ↔ repo.plans.get? planId = some plan := by
  unfold TestPlanRepository.getPlan
  split <;> simp_all

/-- An update writes one plan, and moves only its contents, status and revision. -/
theorem updatePlan_ok {repo repo' : TestPlanRepository} {planId : UUID} {expectedVersion : Nat}
    {items : List TestPlanItem} {status : TestPlanStatus} {maxParallel : Nat} {updated : TestPlanRecord}
    (h : repo.updatePlan planId expectedVersion items status maxParallel = .ok (updated, repo')) :
    ∃ current, repo.plans.get? planId = some current ∧ updated.id = current.id ∧
      updated.tenantId = current.tenantId ∧ updated.projectId = current.projectId ∧
      repo' = { repo with plans := repo.plans.set planId updated } := by
  simp only [TestPlanRepository.updatePlan, bind_eq_ok_iff, error_bind, ite_error_eq_ok_iff,
    getPlan_ok_iff, pure_eq_ok_iff, Prod.mk.injEq, TestPlanRecord.update] at h
  obtain ⟨current, hget, -, _, ⟨_, _, rfl⟩, rfl, rfl⟩ := h
  exact ⟨current, hget, rfl, rfl, rfl, rfl⟩

/-! ## In memory -/

section Memory

/-- The repository with a history variable: the source override that made each batch. -/
structure MemoryPlans where
  plans : TestPlanRepository
  overrides : Dict UUID (Option (String × String))

def TestPlanRepository.empty : TestPlanRepository := ⟨.empty, .empty, .empty, .empty⟩

/-- One call of `execute`. -/
structure ExecuteCall where
  planId : UUID
  idempotencyKey : String
  sourceOverride : Option (String × String)
  drawn : Drawn
  now : Instant

variable (refs : References)

def MemoryPlans.execute (s : MemoryPlans) (runs : RunRepository) (call : ExecuteCall) :
    Except Exn ((ExecutionBatchRecord × Bool) × TestPlanRepository × RunRepository) :=
  s.plans.execute refs call.drawn call.now call.sourceOverride runs call.planId call.idempotencyKey

/-- Any sequence of accepted plan changes and `execute` calls. -/
inductive MemoryReaches : MemoryPlans → Prop
  | empty : MemoryReaches ⟨.empty, .empty⟩
  | createPlan {s : MemoryPlans} (h : MemoryReaches s) (newId tenantId projectId : UUID)
      (items : List TestPlanItem) (maxParallel : Nat) (hnew : s.plans.plans.get? newId = none) :
      MemoryReaches { s with plans := (s.plans.createPlan newId tenantId projectId items maxParallel).2 }
  | updatePlan {s : MemoryPlans} (h : MemoryReaches s) (planId : UUID) (expectedVersion : Nat)
      (items : List TestPlanItem) (status : TestPlanStatus) (maxParallel : Nat) (updated : TestPlanRecord)
      (plans : TestPlanRepository)
      (hok : s.plans.updatePlan planId expectedVersion items status maxParallel = .ok (updated, plans)) :
      MemoryReaches { s with plans := plans }
  | replay {s : MemoryPlans} (h : MemoryReaches s) (runs runs' : RunRepository) (call : ExecuteCall)
      (batch : ExecutionBatchRecord) (plans : TestPlanRepository)
      (hok : s.execute refs runs call = .ok ((batch, true), plans, runs')) :
      MemoryReaches { s with plans := plans }
  | create {s : MemoryPlans} (h : MemoryReaches s) (runs runs' : RunRepository) (call : ExecuteCall)
      (batch : ExecutionBatchRecord) (plans : TestPlanRepository)
      (hnew : s.plans.batches.get? call.drawn.batchId = none)
      (hok : s.execute refs runs call = .ok ((batch, false), plans, runs')) :
      MemoryReaches ⟨plans, s.overrides.set batch.id call.sourceOverride⟩

def MemoryPlans.createdBy (s : MemoryPlans) (batch : ExecutionBatchRecord) : PlanRequest :=
  ⟨batch.planId, batch.planRevision, (s.overrides.get? batch.id).getD none⟩

/-- The batch that holds the key, with the request that made it. -/
def MemoryPlans.existing (s : MemoryPlans) (scope : Scope) : Option (ExecutionBatchRecord × PlanRequest) :=
  (s.plans.batches.values.find? (·.scope = scope)).map fun b => (b, s.createdBy b)

structure MemoryInv (s : MemoryPlans) : Prop where
  filed : ∀ planId plan, s.plans.plans.get? planId = some plan → plan.id = planId
  batch_id : ∀ id batch, s.plans.batches.get? id = some batch → batch.id = id
  keyed : ∀ id batch, s.plans.batches.get? id = some batch →
    s.plans.idempotency.get? batch.scope = some (batch.planId, batch.planRevision, id)
  stored : ∀ scope planId revision id, s.plans.idempotency.get? scope = some (planId, revision, id) →
    ∃ batch, s.plans.batches.get? id = some batch ∧ batch.scope = scope

variable {refs} {s : MemoryPlans}

/-- The two ways in which `execute` answers. -/
theorem execute_ok {repo : TestPlanRepository} {drawn : Drawn} {now : Instant}
    {override : Option (String × String)} {runs : RunRepository} {planId : UUID} {idempotencyKey : String}
    {answer : ExecutionBatchRecord × Bool} {state : TestPlanRepository × RunRepository}
    (h : repo.execute refs drawn now override runs planId idempotencyKey = .ok (answer, state)) :
    ∃ key plan, TestPlanRepository.checkKey idempotencyKey = .ok key ∧ repo.plans.get? planId = some plan ∧
      ((∃ batch, repo.idempotency.get? (plan.tenantId, plan.projectId, key) =
            some (plan.id, plan.revision, batch) ∧ repo.batches.get? batch = some answer.1 ∧
          answer.2 = true ∧ state = (repo, runs)) ∨
        (∃ pairs, repo.idempotency.get? (plan.tenantId, plan.projectId, key) = none ∧
          expand refs drawn now plan override = .ok pairs ∧ answer = (batchOf drawn plan key pairs, false) ∧
          state = repo.storeBatch runs (batchOf drawn plan key pairs) pairs)) := by
  simp only [TestPlanRepository.execute, bind_eq_ok_iff] at h
  obtain ⟨key, hkey, plan, hplan, h⟩ := h
  refine ⟨key, plan, hkey, getPlan_ok_iff.mp hplan, ?_⟩
  split at h
  · next savedPlan savedRevision batchId hsome =>
    simp only [error_bind, ite_error_eq_ok_iff, ne_eq, not_not, Prod.mk.injEq] at h
    obtain ⟨⟨rfl, rfl⟩, h⟩ := h
    split at h
    · next batch hbatch =>
      simp only [pure_eq_ok_iff, Prod.mk.injEq] at h
      obtain ⟨rfl, rfl⟩ := h
      exact .inl ⟨batchId, hsome, hbatch, rfl, rfl⟩
    · simp at h
  · next hnone =>
    simp only [bind_eq_ok_iff, error_bind, ite_error_eq_ok_iff, pure_eq_ok_iff, Prod.mk.injEq] at h
    obtain ⟨-, pairs, hpairs, rfl, rfl⟩ := h
    exact .inr ⟨pairs, hnone, hpairs, rfl, rfl⟩

theorem memoryInv_of_reaches (h : MemoryReaches refs s) : MemoryInv s := by
  induction h with
  | empty =>
    constructor <;> simp [TestPlanRepository.empty]
  | createPlan _ newId tenantId projectId items maxParallel hnew ih =>
    refine ⟨?_, ih.batch_id, ih.keyed, ih.stored⟩
    intro planId plan hplan
    simp only [TestPlanRepository.createPlan, Dict.get?_set] at hplan
    split at hplan
    · next heq =>
      cases hplan
      exact heq.symm
    · exact ih.filed planId plan hplan
  | updatePlan _ planId expectedVersion items status maxParallel updated plans hok ih =>
    obtain ⟨current, hcur, hid, -, -, rfl⟩ := updatePlan_ok hok
    refine ⟨?_, ih.batch_id, ih.keyed, ih.stored⟩
    intro id plan hplan
    simp only [Dict.get?_set] at hplan
    split at hplan
    · next heq =>
      cases hplan
      rw [hid, heq]
      exact ih.filed _ _ hcur
    · exact ih.filed id plan hplan
  | replay _ runs runs' call batch plans hok ih =>
    obtain ⟨key, plan, -, -, ⟨_, -, -, -, hstate⟩ | ⟨pairs, -, -, hanswer, -⟩⟩ := execute_ok hok
    · cases hstate
      exact ih
    · simp at hanswer
  | create _ runs runs' call batch plans hnew hok ih =>
    obtain ⟨key, plan, -, hplan, ⟨_, -, -, hfalse, -⟩ | ⟨pairs, hfree, -, hanswer, hstate⟩⟩ := execute_ok hok
    · simp at hfalse
    · simp only [TestPlanRepository.storeBatch, Prod.mk.injEq] at hstate hanswer
      obtain ⟨rfl, -⟩ := hstate
      obtain ⟨rfl, -⟩ := hanswer
      refine ⟨ih.filed, ?_, ?_, ?_⟩
      · intro id b hb
        simp only [Dict.get?_set] at hb
        split at hb
        · next heq =>
          cases hb
          exact heq.symm
        · exact ih.batch_id id b hb
      · intro id b hb
        simp only [Dict.get?_set] at hb ⊢
        split at hb
        · next heq =>
          cases hb
          rw [if_pos rfl, heq]
        · rw [if_neg]
          · exact ih.keyed id b hb
          · -- The key of an older batch is taken, and the new one was free.
            intro heq
            have := ih.keyed id b hb
            rw [heq] at this
            exact absurd (this.symm.trans hfree) (by simp)
      · intro scope planId revision id hid
        simp only [Dict.get?_set] at hid ⊢
        split at hid
        · next heq =>
          simp only [Option.some.injEq, Prod.mk.injEq] at hid
          obtain ⟨-, -, rfl⟩ := hid
          exact ⟨_, if_pos rfl, heq.symm⟩
        · obtain ⟨b, hb, hscope⟩ := ih.stored scope planId revision id hid
          refine ⟨b, ?_, hscope⟩
          rw [if_neg]
          · exact hb
          · rintro rfl
            exact absurd (hb.symm.trans hnew) (by simp)

theorem MemoryInv.unique (h : MemoryInv s) {a b : ExecutionBatchRecord} (ha : a ∈ s.plans.batches.values)
    (hb : b ∈ s.plans.batches.values) (hscope : a.scope = b.scope) : a = b := by
  obtain ⟨i, hi⟩ := (Dict.mem_values_iff _ _).mp ha
  obtain ⟨j, hj⟩ := (Dict.mem_values_iff _ _).mp hb
  have hia := h.keyed i a hi
  rw [hscope, h.keyed j b hj] at hia
  simp only [Option.some.injEq, Prod.mk.injEq] at hia
  obtain ⟨-, -, rfl⟩ := hia
  exact Option.some.inj (hi.symm.trans hj)

/-- The batch table and the key table tell the same story. -/
theorem MemoryInv.existing_eq (h : MemoryInv s) {scope : Scope} {planId : UUID} {revision : Nat} {id : UUID}
    {batch : ExecutionBatchRecord} (hkey : s.plans.idempotency.get? scope = some (planId, revision, id))
    (hbatch : s.plans.batches.get? id = some batch) :
    s.existing scope = some (batch, s.createdBy batch) ∧ batch.planId = planId ∧
      batch.planRevision = revision := by
  obtain ⟨b, hb, hscope⟩ := h.stored scope planId revision id hkey
  obtain rfl : b = batch := Option.some.inj (hb.symm.trans hbatch)
  have hin : b ∈ s.plans.batches.values := (Dict.mem_values_iff _ _).mpr ⟨id, hb⟩
  obtain ⟨c, hfind⟩ : ∃ c, s.plans.batches.values.find? (·.scope = scope) = some c := by
    rw [← Option.isSome_iff_exists, List.find?_isSome]
    exact ⟨b, hin, by simpa using hscope⟩
  have hcs : c.scope = scope := by simpa using List.find?_some hfind
  rw [h.unique (List.mem_of_find?_eq_some hfind) hin (hcs.trans hscope.symm)] at hfind
  have hkeyed := h.keyed id b hb
  rw [hscope, hkey] at hkeyed
  simp only [Option.some.injEq, Prod.mk.injEq] at hkeyed
  exact ⟨by rw [MemoryPlans.existing, hfind]; rfl, hkeyed.1.symm, hkeyed.2.1.symm⟩

theorem MemoryInv.existing_none (h : MemoryInv s) {scope : Scope}
    (hkey : s.plans.idempotency.get? scope = none) : s.existing scope = none := by
  rw [MemoryPlans.existing, Option.map_eq_none_iff, List.find?_eq_none]
  intro b hb
  obtain ⟨id, hid⟩ := (Dict.mem_values_iff _ _).mp hb
  have hkeyed := h.keyed id b hid
  simp only [decide_eq_true_eq]
  rintro rfl
  rw [hkey] at hkeyed
  cases hkeyed

/-- One call in a reachable state. -/
theorem memory_answer (h : MemoryReaches refs s) (runs : RunRepository) (call : ExecuteCall) {key : String}
    {plan : TestPlanRecord} (hkey : TestPlanRepository.checkKey call.idempotencyKey = .ok key)
    (hplan : s.plans.plans.get? call.planId = some plan) :
    let existing := s.existing (plan.tenantId, plan.projectId, key)
    let request : PlanRequest := ⟨plan.id, plan.revision, call.sourceOverride⟩
    (AnsweredWell existing request ((s.execute refs runs call).map (·.1)) ↔ OverrideAgrees existing request) ∧
      (existing.isSome → ∀ answer state, s.execute refs runs call = .ok (answer, state) →
        state = (s.plans, runs)) := by
  intro existing request
  have hinv := memoryInv_of_reaches h
  have hget := getPlan_ok_iff.mpr hplan
  cases hid : s.plans.idempotency.get? (plan.tenantId, plan.projectId, key) with
  | none =>
    have hnone : existing = none := hinv.existing_none hid
    simp only [hnone, AnsweredWell, OverrideAgrees, Option.isSome_none, Bool.false_eq_true, false_implies,
      reduceCtorEq, implies_true, and_true, iff_true]
    intro batch hanswer
    -- A free key is answered with a new batch or an error.
    cases hexec : s.execute refs runs call with
    | error e => simp [hexec, Except.map] at hanswer
    | ok r =>
      obtain ⟨answer, state⟩ := r
      rw [hexec] at hanswer
      simp only [Except.map, Except.ok.injEq] at hanswer
      subst hanswer
      obtain ⟨key', plan', hkey', hplan', ⟨_, hsome, -⟩ | ⟨pairs, -, -, hfalse, -⟩⟩ := execute_ok hexec
      · rw [hkey] at hkey'
        rw [hplan] at hplan'
        cases hkey'
        cases hplan'
        rw [hid] at hsome
        cases hsome
      · simp at hfalse
  | some entry =>
    obtain ⟨savedPlan, savedRevision, batchId⟩ := entry
    obtain ⟨batch, hbatch, -⟩ := hinv.stored _ _ _ _ hid
    obtain ⟨hexist, hp, hr⟩ := hinv.existing_eq hid hbatch
    have hexec : s.execute refs runs call =
        (SqlTestPlanStore.resolveBatch batch plan).map fun answer => (answer, s.plans, runs) := by
      simp only [MemoryPlans.execute, TestPlanRepository.execute, hkey, hget, bind, Except.bind, hid,
        SqlTestPlanStore.resolveBatch, hp, hr]
      split
      · rfl
      · simp only [hbatch]
        rfl
    have hmap : (s.execute refs runs call).map (·.1) = SqlTestPlanStore.resolveBatch batch plan := by
      rw [hexec]
      cases SqlTestPlanStore.resolveBatch batch plan <;> rfl
    refine ⟨?_, ?_⟩
    · rw [hmap]
      show AnsweredWell (s.existing _) _ _ ↔ OverrideAgrees (s.existing _) _
      rw [hexist]
      exact resolveBatch_well_iff batch plan _ _
    · rintro - answer state hok
      rw [hexec] at hok
      cases hres : SqlTestPlanStore.resolveBatch batch plan with
      | error e => simp [hres, Except.map] at hok
      | ok r =>
        simp only [hres, Except.map, Except.ok.injEq, Prod.mk.injEq] at hok
        exact hok.2.symm

end Memory

/-! ## On SQL -/

section Sql

open SqlTestPlanStore

/-- The tables, the calls under way, and the source override that made each batch. -/
structure SqlPlans where
  store : SqlTestPlanStore
  overrides : Dict UUID (Option (String × String))
  calls : List Call

/-- The override is noted when a call is answered with a batch of its own. -/
def noteOverride (overrides : Dict UUID (Option (String × String))) (call : Call) :
    Dict UUID (Option (String × String)) :=
  match call.phase with
  | .done (.ok (batch, false)) => overrides.set batch.id call.sourceOverride
  | _ => overrides

variable (refs : References)

/-- Any interleaving of plan changes and the steps of any number of calls. -/
inductive SqlReaches : SqlPlans → Prop
  | empty : SqlReaches ⟨⟨.empty, .empty, .empty⟩, .empty, []⟩
  | createPlan {s : SqlPlans} (h : SqlReaches s) (plan : TestPlanRecord)
      (hnew : s.store.plans.get? plan.id = none) :
      SqlReaches { s with store := { s.store with plans := s.store.plans.set plan.id plan } }
  | updatePlan {s : SqlPlans} (h : SqlReaches s) (planId : UUID) (current : TestPlanRecord)
      (items : List TestPlanItem) (status : TestPlanStatus) (maxParallel : Nat) (updated : TestPlanRecord)
      (hcurrent : s.store.plans.get? planId = some current)
      (hok : current.update items maxParallel status = .ok updated) :
      SqlReaches { s with store := { s.store with plans := s.store.plans.set planId updated } }
  | call {s : SqlPlans} (h : SqlReaches s) (call : Call) (hstart : call.phase = .start) :
      SqlReaches { s with calls := s.calls ++ [call] }
  | step {s : SqlPlans} (h : SqlReaches s) (i : Nat) (call : Call) (hcall : s.calls[i]? = some call)
      (hopen : call.answered = false) (hnew : s.store.batches.get? call.drawn.batchId = none) :
      SqlReaches ⟨(s.store.step refs call).1, noteOverride s.overrides (s.store.step refs call).2,
        s.calls.set i (s.store.step refs call).2⟩

def SqlPlans.existing (s : SqlPlans) (scope : Scope) : Option (ExecutionBatchRecord × PlanRequest) :=
  (s.store.batchByKey scope).map fun b => (b, ⟨b.planId, b.planRevision, (s.overrides.get? b.id).getD none⟩)

structure SqlInv (s : SqlPlans) : Prop where
  unique : OneBatchPerKey s.store.batches
  /-- Tenant and project of a plan never change. -/
  inserting : ∀ call ∈ s.calls, ∀ plan, call.phase = .insert plan →
    ∃ current, s.store.plans.get? call.planId = some current ∧ plan.tenantId = current.tenantId ∧
      plan.projectId = current.projectId

variable {refs} {s : SqlPlans}

theorem oneBatchPerKey_set {batches : Dict UUID ExecutionBatchRecord} (h : OneBatchPerKey batches)
    {batch : ExecutionBatchRecord} (hnew : batches.get? batch.id = none)
    (hfree : batches.values.find? (·.scope = batch.scope) = none) : OneBatchPerKey (batches.set batch.id batch) := by
  have hother : ∀ b ∈ batches.values, b.scope ≠ batch.scope := by
    intro b hb
    simpa using List.find?_eq_none.mp hfree b hb
  intro a ha b hb hscope
  rw [Dict.values_set_new _ _ _ hnew, List.mem_append, List.mem_singleton] at ha hb
  rcases ha with ha | rfl <;> rcases hb with hb | rfl
  · exact h a ha b hb hscope
  · exact absurd hscope (hother a ha)
  · exact absurd hscope.symm (hother b hb)
  · rfl

theorem TestPlanRecord.update_ok {plan updated : TestPlanRecord} {items : List TestPlanItem}
    {maxParallel : Nat} {status : TestPlanStatus} (h : plan.update items maxParallel status = .ok updated) :
    updated.tenantId = plan.tenantId ∧ updated.projectId = plan.projectId := by
  simp only [TestPlanRecord.update, bind_eq_ok_iff, pure_eq_ok_iff] at h
  obtain ⟨_, _, rfl⟩ := h
  exact ⟨rfl, rfl⟩

/-- A step of one call: the phases it can lead to, and the one write. -/
theorem step_cases (store : SqlTestPlanStore) (call : Call) :
    ((store.step refs call).1 = store ∧ ∀ plan, (store.step refs call).2.phase = .insert plan →
        (call.phase = .start ∧ store.plans.get? call.planId = some plan)) ∨
      ∃ plan batch specs, call.phase = .insert plan ∧ batch.id = call.drawn.batchId ∧
        batch.scope = (plan.tenantId, plan.projectId, strip call.idempotencyKey) ∧
        store.batchByKey batch.scope = none ∧
        (store.step refs call).1 = { store with batches := store.batches.set batch.id batch, specs := specs } ∧
        (store.step refs call).2 = call.answer (.ok (batch, false)) := by
  unfold step
  split
  · next hphase =>
    refine .inl ⟨rfl, fun plan hplan => ⟨hphase, ?_⟩⟩
    unfold lookup at hplan
    split at hplan
    · cases hplan
    · split at hplan
      · cases hplan
      · next hget =>
        split at hplan
        · cases hplan
        · split at hplan
          · cases hplan
          · cases hplan
            exact hget
  · next plan hphase =>
    unfold SqlTestPlanStore.insert
    dsimp only
    split
    · refine .inl ⟨rfl, fun plan hplan => by cases hplan⟩
    · next hfree =>
      split
      · refine .inl ⟨rfl, fun plan hplan => by cases hplan⟩
      · next pairs _ =>
        exact .inr ⟨plan, batchOf call.drawn plan (strip call.idempotencyKey) pairs, _, hphase, rfl, rfl,
          Option.not_isSome_iff_eq_none.mp hfree, rfl, rfl⟩
  · refine .inl ⟨rfl, fun plan hplan => ?_⟩
    unfold afterConflict at hplan
    split at hplan
    · cases hplan
    · split at hplan <;> cases hplan
  · next answer hphase =>
    exact .inl ⟨rfl, fun plan hplan => by rw [hphase] at hplan; cases hplan⟩

theorem sqlInv_of_reaches (h : SqlReaches refs s) : SqlInv s := by
  induction h with
  | empty => exact ⟨by intro a ha; simp at ha, by simp⟩
  | createPlan _ plan hnew ih =>
    refine ⟨ih.unique, fun call hcall snapshot hphase => ?_⟩
    obtain ⟨current, hcur, hsame⟩ := ih.inserting call hcall snapshot hphase
    refine ⟨current, ?_, hsame⟩
    rw [Dict.get?_set_ne _ _ (by rintro heq; rw [heq, hnew] at hcur; cases hcur)]
    exact hcur
  | updatePlan _ planId current items status maxParallel updated hcurrent hok ih =>
    refine ⟨ih.unique, fun call hcall snapshot hphase => ?_⟩
    obtain ⟨old, hold, ht, hp⟩ := ih.inserting call hcall snapshot hphase
    obtain ⟨hut, hup⟩ := TestPlanRecord.update_ok hok
    simp only [Dict.get?_set]
    split
    · next heq =>
      rw [heq, hcurrent] at hold
      cases hold
      exact ⟨updated, rfl, ht.trans hut.symm, hp.trans hup.symm⟩
    · exact ⟨old, hold, ht, hp⟩
  | call _ call hstart ih =>
    refine ⟨ih.unique, fun c hc snapshot hphase => ?_⟩
    rcases List.mem_append.mp hc with hc | hc
    · exact ih.inserting c hc snapshot hphase
    · rw [List.mem_singleton.mp hc, hstart] at hphase
      cases hphase
  | @step s _ i call hcall hopen hnew ih =>
    have hold : ∀ c ∈ s.calls, ∀ store : SqlTestPlanStore, store.plans = s.store.plans →
        ∀ snapshot, c.phase = .insert snapshot → ∃ current, store.plans.get? c.planId = some current ∧
          snapshot.tenantId = current.tenantId ∧ snapshot.projectId = current.projectId := by
      intro c hc store hplans snapshot hphase
      rw [hplans]
      exact ih.inserting c hc snapshot hphase
    rcases @step_cases refs s.store call with ⟨hstore, hinsert⟩ |
      ⟨plan, batch, specs, hphase, hid, -, hfree, hstore, hcall'⟩
    · rw [hstore]
      refine ⟨ih.unique, fun c hc snapshot hphase => ?_⟩
      rcases List.mem_or_eq_of_mem_set hc with hc | rfl
      · exact hold c hc s.store rfl snapshot hphase
      · obtain ⟨hstart, hplan⟩ := hinsert snapshot hphase
        refine ⟨snapshot, ?_, rfl, rfl⟩
        have : (s.store.step refs call).2.planId = call.planId := by
          simp only [SqlTestPlanStore.step, hstart, lookup]
          split
          · rfl
          · split
            · rfl
            · split
              · rfl
              · split <;> rfl
        rw [this]
        exact hplan
    · rw [hstore, hcall']
      refine ⟨oneBatchPerKey_set ih.unique (hid ▸ hnew) hfree, fun c hc snapshot hphase => ?_⟩
      rcases List.mem_or_eq_of_mem_set hc with hc | rfl
      · exact hold c hc _ rfl snapshot hphase
      · cases hphase

/-- The step with which a call is answered. -/
theorem sql_answer (h : SqlReaches refs s) {call : Call} (hcall : call ∈ s.calls)
    (hopen : call.answered = false) {answer : Except Exn (ExecutionBatchRecord × Bool)}
    (hdone : (s.store.step refs call).2.phase = .done answer) {key : String} {plan : TestPlanRecord}
    (hkey : TestPlanRepository.checkKey call.idempotencyKey = .ok key)
    (hplan : s.store.plans.get? call.planId = some plan) :
    let existing := s.existing (plan.tenantId, plan.projectId, key)
    let request : PlanRequest := ⟨plan.id, plan.revision, call.sourceOverride⟩
    (AnsweredWell existing request answer ↔ OverrideAgrees existing request) ∧
      (existing.isSome → (s.store.step refs call).1 = s.store) := by
  intro existing request
  have hstrip : strip call.idempotencyKey = key := by
    unfold TestPlanRepository.checkKey at hkey
    dsimp only at hkey
    split at hkey
    · cases hkey
    · exact Except.ok.inj hkey
  -- A batch under the key is resolved; a free key never gives a replay.
  have hresolved : ∀ batch, s.store.batchByKey (plan.tenantId, plan.projectId, key) = some batch →
      answer = resolveBatch batch plan → (AnsweredWell existing request answer ↔ OverrideAgrees existing request) := by
    rintro batch hbatch rfl
    show AnsweredWell (s.existing _) _ _ ↔ OverrideAgrees (s.existing _) _
    rw [SqlPlans.existing, hbatch]
    exact resolveBatch_well_iff batch plan _ _
  have hfree : s.store.batchByKey (plan.tenantId, plan.projectId, key) = none →
      (∀ batch, answer ≠ .ok (batch, true)) →
      (AnsweredWell existing request answer ↔ OverrideAgrees existing request) := by
    intro hnone hnot
    have : existing = none := by
      show s.existing _ = none
      rw [SqlPlans.existing, hnone]
      rfl
    rw [this]
    exact ⟨fun _ _ _ hsome => (by cases hsome), fun _ => hnot⟩
  unfold step at hdone ⊢
  split at hdone
  · next hphase =>
    simp only [lookup, hkey, hplan] at hdone
    refine ⟨?_, fun _ => rfl⟩
    cases hb : s.store.batchByKey (plan.tenantId, plan.projectId, key) with
    | some batch =>
      rw [hb] at hdone
      cases hdone
      exact hresolved batch hb rfl
    | none =>
      rw [hb] at hdone
      dsimp only at hdone
      split at hdone
      · cases hdone
        exact hfree hb (by simp)
      · cases hdone
  · next snapshot hphase =>
    obtain ⟨current, hcur, ht, hp⟩ := (sqlInv_of_reaches h).inserting call hcall snapshot hphase
    obtain rfl : current = plan := Option.some.inj (hcur.symm.trans hplan)
    simp only [SqlTestPlanStore.insert, hstrip, ht, hp] at hdone ⊢
    split at hdone
    · cases hdone
    · next hnone =>
      have hnone' : s.store.batchByKey (current.tenantId, current.projectId, key) = none := by
        simpa using hnone
      have hexist : existing = none := by
        show s.existing _ = none
        rw [SqlPlans.existing, hnone']
        rfl
      refine ⟨hfree hnone' ?_, fun hsome => by simp [hexist] at hsome⟩
      split at hdone <;> cases hdone <;> simp
  · next hphase =>
    simp only [afterConflict, hplan, hstrip] at hdone
    refine ⟨?_, fun _ => rfl⟩
    cases hb : s.store.batchByKey (plan.tenantId, plan.projectId, key) with
    | some batch =>
      rw [hb] at hdone
      cases hdone
      exact hresolved batch hb rfl
    | none =>
      rw [hb] at hdone
      cases hdone
      exact hfree hb (by simp)
  · next hphase => simp [Call.answered, hphase] at hopen

end Sql

/-! ## Both -/

/-- One batch for each key, always. Over both repositories a reused key is answered as it should be
exactly when the override agrees with that of the batch, and it changes nothing. -/
theorem plan_execution_idempotent_iff (refs : References) :
    (∀ s, MemoryReaches refs s → OneBatchPerKey s.plans.batches ∧
      ∀ (runs : RunRepository) (call : ExecuteCall) key plan,
        TestPlanRepository.checkKey call.idempotencyKey = .ok key →
        s.plans.plans.get? call.planId = some plan →
        let existing := s.existing (plan.tenantId, plan.projectId, key)
        let request : PlanRequest := ⟨plan.id, plan.revision, call.sourceOverride⟩
        (AnsweredWell existing request ((s.execute refs runs call).map (·.1)) ↔
            OverrideAgrees existing request) ∧
          (existing.isSome → ∀ answer state, s.execute refs runs call = .ok (answer, state) →
            state = (s.plans, runs))) ∧
    (∀ s, SqlReaches refs s → OneBatchPerKey s.store.batches ∧
      ∀ call ∈ s.calls, call.answered = false → ∀ answer key plan,
        (s.store.step refs call).2.phase = .done answer →
        TestPlanRepository.checkKey call.idempotencyKey = .ok key →
        s.store.plans.get? call.planId = some plan →
        let existing := s.existing (plan.tenantId, plan.projectId, key)
        let request : PlanRequest := ⟨plan.id, plan.revision, call.sourceOverride⟩
        (AnsweredWell existing request answer ↔ OverrideAgrees existing request) ∧
          (existing.isSome → (s.store.step refs call).1 = s.store)) := by
  constructor
  · intro s h
    have hinv := memoryInv_of_reaches h
    exact ⟨fun a ha b hb => hinv.unique ha hb, fun runs call key plan hkey hplan =>
      memory_answer h runs call hkey hplan⟩
  · intro s h
    exact ⟨(sqlInv_of_reaches h).unique, fun call hcall hopen answer key plan hdone hkey hplan =>
      sql_answer h hcall hopen hdone hkey hplan⟩

def oneScript : References where
  script _ _ := .ok ⟨⟨"s"⟩, 1, .pytest, "test_login.py", "archive:1", "d1", 60⟩
  environment _ _ := .ok []
  encodedSize _ := 2

def oneItem : List TestPlanItem :=
  [⟨⟨"i"⟩, ⟨"s"⟩, 1, none, none, .empty, [⟨"default", .empty⟩], .plain .default⟩]

/-- An active plan. -/
def activePlan : TestPlanRepository :=
  { TestPlanRepository.empty with
    plans := ((Dict.empty.set ⟨"p"⟩ ⟨⟨"p"⟩, ⟨"t"⟩, ⟨"j"⟩, oneItem, 1, .draft, 1, 0⟩).set ⟨"p"⟩
      ⟨⟨"p"⟩, ⟨"t"⟩, ⟨"j"⟩, oneItem, 1, .active, 2, 1⟩) }

def executeCall (batchId : String) (sourceOverride : Option (String × String)) : ExecuteCall :=
  ⟨⟨"p"⟩, " nightly ", sourceOverride, ⟨⟨batchId⟩, fun _ => ⟨"r"⟩, fun _ => ⟨"sp"⟩⟩, 0⟩

/-- `activePlan` after one execution without an override. -/
def executedOnce : MemoryPlans :=
  match activePlan.execute oneScript (executeCall "b" none).drawn 0 none .empty ⟨"p"⟩ " nightly " with
  | .ok ((batch, _), plans, _) => ⟨plans, Dict.empty.set batch.id none⟩
  | .error _ => ⟨.empty, .empty⟩

theorem executedOnce_reached : MemoryReaches oneScript executedOnce := by
  have hactive : MemoryReaches oneScript ⟨activePlan, .empty⟩ :=
    .updatePlan (.createPlan .empty ⟨"p"⟩ ⟨"t"⟩ ⟨"j"⟩ oneItem 1 rfl) ⟨"p"⟩ 0 oneItem .active 1 _ _ rfl
  exact .create hactive .empty _ (executeCall "b" none) _ _ rfl rfl

/-- The same request again gets the same batch. -/
theorem same_request_replayed :
    AnsweredWell (executedOnce.existing (⟨"t"⟩, ⟨"j"⟩, "nightly")) ⟨⟨"p"⟩, 2, none⟩
      ((executedOnce.execute oneScript .empty (executeCall "c" none)).map (·.1)) := by
  refine (((plan_execution_idempotent_iff oneScript).1 executedOnce executedOnce_reached).2 .empty
    (executeCall "c" none) "nightly" ⟨⟨"p"⟩, ⟨"t"⟩, ⟨"j"⟩, oneItem, 1, .active, 2, 1⟩ (by decide) rfl).1.mpr ?_
  rintro batch created hexist - -
  cases hexist
  rfl

/-- With the source on a host directory instead, the batch of the archive is replayed. -/
theorem other_override_replayed :
    MemoryReaches oneScript executedOnce ∧
      (executedOnce.existing (⟨"t"⟩, ⟨"j"⟩, "nightly")).map (·.2) = some ⟨⟨"p"⟩, 2, none⟩ ∧
      ((executedOnce.execute oneScript .empty (executeCall "c" (some ("host-source:1", "d2")))).map (·.1)).toOption
        = (executedOnce.existing (⟨"t"⟩, ⟨"j"⟩, "nightly")).map (fun e => (e.1, true)) ∧
      ¬ AnsweredWell (executedOnce.existing (⟨"t"⟩, ⟨"j"⟩, "nightly"))
        ⟨⟨"p"⟩, 2, some ("host-source:1", "d2")⟩
        ((executedOnce.execute oneScript .empty (executeCall "c" (some ("host-source:1", "d2")))).map (·.1)) := by
  refine ⟨executedOnce_reached, by decide, by decide, ?_⟩
  rintro ⟨e, he, -⟩
  cases he

end SmartTest.Plan
