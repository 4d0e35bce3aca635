import SmartTest.Plan.Sql
import SmartTest.Run.Actions

/-!
# What a claim does

Both implementations of `claim_available_runs` take the first `CREATED` records of a list,
as many as there is room for, and move each to `QUEUED`.
-/

open SmartTest.Lib SmartTest.Run

namespace SmartTest.Plan

/-- The records a claim takes. -/
def chosen (available : Nat) (records : List RunRecord) : List RunRecord :=
  (records.filter (·.state = .created)).take available

/-- The run table after the chosen records were queued. -/
def queueAll (table : Dict UUID RunRecord) (records : List RunRecord) : Dict UUID RunRecord :=
  records.foldl (fun table record => table.set record.id (record.moved .queued)) table

theorem sqlClaimLoop_eq (available : Nat) (records : List RunRecord) (runs : RunRepository) :
    sqlClaimLoop available records runs = ((chosen available records).map (·.id),
      { runs with runs := queueAll runs.runs (chosen available records) }) := by
  induction records generalizing available runs with
  | nil => simp [sqlClaimLoop, chosen, queueAll]
  | cons record rest ih =>
    simp only [sqlClaimLoop]
    split
    · next h => simp [h, chosen, queueAll]
    · next h =>
      obtain ⟨n, rfl⟩ := Nat.exists_eq_succ_of_ne_zero h
      split
      · next hstate =>
        rw [ih]
        simp [chosen, hstate]
      · next hstate =>
        simp only [ih, ne_eq, not_not] at hstate ⊢
        simp [chosen, hstate, queueAll]

/-- The in-memory loop raises nothing: only `CREATED` records are moved. -/
theorem claimLoop_eq (available : Nat) (records : List RunRecord) (runs : RunRepository) :
    TestPlanRepository.claimLoop available records runs = .ok (sqlClaimLoop available records runs) := by
  induction records generalizing available runs with
  | nil => rfl
  | cons record rest ih =>
    simp only [TestPlanRepository.claimLoop, sqlClaimLoop]
    split
    · rfl
    · split
      · exact ih _ _
      · next hstate =>
        have hmove : record.withState .queued = .ok (record.moved .queued) := by
          rw [RunRecord.withState_ok_iff]
          simp only [ne_eq, not_not] at hstate
          simp [hstate, RUN_TRANSITIONS]
        simp [hmove, ih, bind, Except.bind, pure, Except.pure]

theorem mem_chosen {available : Nat} {records : List RunRecord} {record : RunRecord}
    (h : record ∈ chosen available records) : record ∈ records ∧ record.state = .created := by
  simpa using List.mem_filter.mp (List.mem_of_mem_take h)

/-- Each run of the table is left alone, or was one of the records and is queued. -/
theorem queueAll_get? {table acc : Dict UUID RunRecord} {records : List RunRecord}
    (hfiled : ∀ record ∈ records, table.get? record.id = some record) (r : UUID) :
    (queueAll acc records).get? r = if r ∈ records.map (·.id) then
      (table.get? r).map (·.moved .queued) else acc.get? r := by
  induction records generalizing acc with
  | nil => simp [queueAll]
  | cons record rest ih =>
    obtain ⟨hhead, htail⟩ := List.forall_mem_cons.mp hfiled
    have hcons : queueAll acc (record :: rest) = queueAll (acc.set record.id (record.moved .queued)) rest := rfl
    rw [hcons, ih htail]
    simp only [List.map_cons, List.mem_cons]
    by_cases hmem : r ∈ rest.map (·.id)
    · simp [hmem]
    · by_cases heq : r = record.id
      · simp [heq, hhead]
      · simp [hmem, heq]

/-! ## The two implementations -/

theorem exists_of_forall₂ {α β : Type} {R : α → β → Prop} {l : List α} {l' : List β} (h : List.Forall₂ R l l')
    {b : β} (hb : b ∈ l') : ∃ a ∈ l, R a b := by
  induction h with
  | nil => cases hb
  | cons hab _ ih =>
    rcases List.mem_cons.mp hb with rfl | hb
    · exact ⟨_, List.mem_cons_self, hab⟩
    · obtain ⟨a, ha, hR⟩ := ih hb
      exact ⟨a, List.mem_cons_of_mem _ ha, hR⟩

theorem getExecutionBatch_ok_iff {repo : TestPlanRepository} {batchId : UUID} {batch : ExecutionBatchRecord} :
    repo.getExecutionBatch batchId = .ok batch ↔ repo.batches.get? batchId = some batch := by
  unfold TestPlanRepository.getExecutionBatch
  split <;> simp_all

theorem getRunSpec_ok_iff {repo : TestPlanRepository} {runId : UUID} {spec : RunSpecRecord} :
    repo.getRunSpec runId = .ok spec ↔ repo.specsByRun.get? runId = some spec := by
  unfold TestPlanRepository.getRunSpec
  split <;> simp_all

/-- The rows of a batch that the SQL claim reads. -/
def batchRows (repo : TestPlanRepository) (runs : RunRepository) (batchId : UUID) : List RunRecord :=
  (repo.specsByRun.values.filter (·.batchId = batchId)).filterMap fun spec => runs.runs.get? spec.runId

/-- The room a batch has, judged by its records. -/
def room (batch : ExecutionBatchRecord) (records : List RunRecord) : Nat :=
  batch.maxParallel - records.countP fun record => record.state ∈ TestPlanRepository.OCCUPIED_STATES

theorem claimAvailableRuns_ok_iff {repo : TestPlanRepository} {runs runs' : RunRepository} {batchId : UUID}
    {claimed : List UUID} :
    repo.claimAvailableRuns runs batchId = .ok (claimed, runs') ↔ ∃ batch records,
      repo.batches.get? batchId = some batch ∧
      List.Forall₂ (fun runId record => runs.runs.get? runId = some record) batch.runIds records ∧
      claimed = (chosen (room batch records) records).map (·.id) ∧
      runs' = { runs with runs := queueAll runs.runs (chosen (room batch records) records) } := by
  simp only [TestPlanRepository.claimAvailableRuns, bind_eq_ok_iff, getExecutionBatch_ok_iff, claimLoop_eq,
    sqlClaimLoop_eq, Except.ok.injEq, Prod.mk.injEq, mapM_eq_ok_iff, RunRepository.getLocked_ok_iff, room]
  constructor
  · rintro ⟨batch, hbatch, records, hrecords, rfl, rfl⟩
    exact ⟨batch, records, hbatch, hrecords, rfl, rfl⟩
  · rintro ⟨batch, records, hbatch, hrecords, rfl, rfl⟩
    exact ⟨batch, hbatch, records, hrecords, rfl, rfl⟩

theorem sqlClaimAvailableRuns_ok_iff {repo : TestPlanRepository} {runs runs' : RunRepository} {batchId : UUID}
    {claimed : List UUID} :
    sqlClaimAvailableRuns repo runs batchId = .ok (claimed, runs') ↔ ∃ batch,
      repo.batches.get? batchId = some batch ∧
      claimed = (chosen (room batch (batchRows repo runs batch.id)) (batchRows repo runs batch.id)).map (·.id) ∧
      runs' = { runs with
        runs := queueAll runs.runs
          (chosen (room batch (batchRows repo runs batch.id)) (batchRows repo runs batch.id)) } := by
  simp only [sqlClaimAvailableRuns, bind_eq_ok_iff, getExecutionBatch_ok_iff, sqlClaimLoop_eq, pure_eq_ok_iff,
    Prod.mk.injEq, room, batchRows]
  constructor
  · rintro ⟨batch, hbatch, rfl, rfl⟩
    exact ⟨batch, hbatch, rfl, rfl⟩
  · rintro ⟨batch, hbatch, rfl, rfl⟩
    exact ⟨batch, hbatch, rfl, rfl⟩

end SmartTest.Plan
