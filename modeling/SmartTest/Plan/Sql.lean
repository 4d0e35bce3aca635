import SmartTest.Plan.Repository

/-!
# The plan repository on SQL

`services/api/test_plan_sql_repository.py`. One `execute` is up to three steps on the
tables: a transaction that looks the key up, the insert with which it commits, and after a
violation of the unique constraint on tenant, project and key a second transaction. The
row lock on the plan only takes interleavings away.
-/

open SmartTest.Lib SmartTest.Run

namespace SmartTest.Plan

/-- The tables, with the runs kept in the run repository. -/
structure SqlTestPlanStore where
  plans : Dict UUID TestPlanRecord
  batches : Dict UUID ExecutionBatchRecord
  specs : Dict UUID RunSpecRecord

namespace SqlTestPlanStore

def notFound (planId : UUID) : Exn := ⟨.testPlanNotFound, "test plan " ++ planId.text ++ " was not found"⟩

/-- `_batch_by_key`. -/
def batchByKey (store : SqlTestPlanStore) (scope : Scope) : Option ExecutionBatchRecord :=
  store.batches.values.find? (·.scope = scope)

/-- `_resolve_batch`. -/
def resolveBatch (batch : ExecutionBatchRecord) (plan : TestPlanRecord) :
    Except Exn (ExecutionBatchRecord × Bool) :=
  if (batch.planId, batch.planRevision) ≠ (plan.id, plan.revision) then
    .error TestPlanRepository.keyConflict
  else .ok (batch, true)

/-- Where a call of `execute` stands. -/
inductive Phase where
  | start
  /-- The key was free; the plan as it was read. -/
  | insert (plan : TestPlanRecord)
  /-- The insert broke the unique constraint. -/
  | conflict
  | done (answer : Except Exn (ExecutionBatchRecord × Bool))

structure Call where
  planId : UUID
  idempotencyKey : String
  sourceOverride : Option (String × String)
  drawn : Drawn
  now : Instant
  phase : Phase

def Call.answered (call : Call) : Bool := call.phase matches .done _

def Call.answer (call : Call) (answer : Except Exn (ExecutionBatchRecord × Bool)) : Call :=
  { call with phase := .done answer }

/-- The first transaction, up to the insert. -/
def lookup (store : SqlTestPlanStore) (call : Call) : Call :=
  match TestPlanRepository.checkKey call.idempotencyKey with
  | .error e => call.answer (.error e)
  | .ok key =>
    match store.plans.get? call.planId with
    | none => call.answer (.error (notFound call.planId))
    | some plan =>
      match store.batchByKey (plan.tenantId, plan.projectId, key) with
      | some batch => call.answer (resolveBatch batch plan)
      | none =>
        if plan.status ≠ .active then call.answer (.error TestPlanRepository.notActive)
        else { call with phase := .insert plan }

/-- The insert of the batch, flushed by the first query of the expansion, and of its specs. -/
def insert (refs : References) (store : SqlTestPlanStore) (call : Call) (plan : TestPlanRecord) :
    SqlTestPlanStore × Call :=
  let key := strip call.idempotencyKey
  if (store.batchByKey (plan.tenantId, plan.projectId, key)).isSome then
    (store, { call with phase := .conflict })
  else match expand refs call.drawn call.now plan call.sourceOverride with
    | .error e => (store, call.answer (.error e))
    | .ok pairs =>
      let batch := batchOf call.drawn plan key pairs
      ({ store with
          batches := store.batches.set batch.id batch
          specs := pairs.foldl (fun specs p => specs.set p.2.runId p.2) store.specs },
        call.answer (.ok (batch, false)))

/-- The transaction after an `IntegrityError`. -/
def afterConflict (store : SqlTestPlanStore) (call : Call) : Call :=
  match store.plans.get? call.planId with
  | none => call.answer (.error (notFound call.planId))
  | some plan =>
    match store.batchByKey (plan.tenantId, plan.projectId, strip call.idempotencyKey) with
    | none => call.answer (.error ⟨.integrityError, "UNIQUE constraint failed"⟩)
    | some batch => call.answer (resolveBatch batch plan)

/-- The next step of a call. -/
def step (refs : References) (store : SqlTestPlanStore) (call : Call) : SqlTestPlanStore × Call :=
  match call.phase with
  | .start => (store, store.lookup call)
  | .insert plan => store.insert refs call plan
  | .conflict => (store, store.afterConflict call)
  | .done _ => (store, call)

end SqlTestPlanStore

/-! ## Claiming -/

/-- The loop of the SQL `claim_available_runs`, which writes the state of each row it found `CREATED`. -/
def sqlClaimLoop : (available : Nat) → List RunRecord → RunRepository → List UUID × RunRepository
  | _, [], runs => ([], runs)
  | available, record :: rest, runs =>
    if available = 0 then ([], runs)
    else if record.state ≠ .created then sqlClaimLoop available rest runs
    else
      let (claimed, runs) := sqlClaimLoop (available - 1) rest
        { runs with runs := runs.runs.set record.id (record.moved .queued) }
      (record.id :: claimed, runs)

/-- The SQL `claim_available_runs`: `FOR UPDATE` makes the transaction one step. The rows are the runs
of the batch's specs, which are stored in the order of their positions. -/
def sqlClaimAvailableRuns (repo : TestPlanRepository) (runs : RunRepository) (batchId : UUID) :
    Except Exn (List UUID × RunRepository) := do
  let batch ← repo.getExecutionBatch batchId
  let specs := repo.specsByRun.values.filter (·.batchId = batch.id)
  let records := specs.filterMap fun spec => runs.runs.get? spec.runId
  let occupied := records.countP fun record => record.state ∈ TestPlanRepository.OCCUPIED_STATES
  return sqlClaimLoop (batch.maxParallel - occupied) records runs

end SmartTest.Plan
