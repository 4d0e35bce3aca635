import SmartTest.Plan.Claim
import SmartTest.Run.Attempts
import SmartTest.System.Calls

/-!
# Single steps

What the operations of a program do to the shared state, and the steps a coordinator can
take.
-/

open SmartTest.Lib SmartTest.Lib.Prog SmartTest.Run SmartTest.Run.RunRepository SmartTest.Plan

namespace SmartTest.System

namespace World

theorem onRuns_cases {α : Type} (f : World → Except Exn (α × RunRepository)) (w : World) :
    (∃ e, f w = .error e ∧ onRuns f w = (.error e, w)) ∨
      ∃ a runs, f w = .ok (a, runs) ∧ onRuns f w = (.ok a, { w with runs := runs }) := by
  unfold onRuns
  cases f w with
  | error e => exact .inl ⟨e, rfl, rfl⟩
  | ok p => exact .inr ⟨p.1, p.2, rfl, rfl⟩

end World

open World

/-- The table after a run transition that may be refused. -/
def moveRun (runId : UUID) (target : RunState) (w : World) : World :=
  (onRuns (fun w => w.runs.transition runId target) w).2

def claimBatch (batchId : UUID) (w : World) : World := (onRuns (fun w => claimRuns w batchId) w).2

theorem moveRun_cases (runId : UUID) (target : RunState) (w : World) :
    moveRun runId target w = w ∨ ∃ run, w.runs.runs.get? runId = some run ∧
      target ∈ RUN_TRANSITIONS run.state ∧
      moveRun runId target w = { w with
        runs := { w.runs with runs := w.runs.runs.set runId (run.moved target) } } := by
  rcases onRuns_cases (fun w => w.runs.transition runId target) w with ⟨e, -, heq⟩ | ⟨a, runs, hok, heq⟩
  · left
    rw [moveRun, heq]
  · right
    obtain ⟨run, hrun, hmem, rfl, rfl⟩ := transition_ok hok
    exact ⟨run, hrun, hmem, by rw [moveRun, heq]⟩

/-- A claim reads records of the table and moves the chosen ones to `QUEUED`. -/
theorem claimRuns_ok {w : World} {batchId : UUID} {answer : List UUID × Nat} {runs : RunRepository}
    (h : claimRuns w batchId = .ok (answer, runs)) : ∃ batch records,
      w.plans.batches.get? batchId = some batch ∧
      (∀ record ∈ records, ∃ runId, w.runs.runs.get? runId = some record) ∧
      answer = ((chosen (room batch records) records).map (·.id), batch.runIds.length) ∧
      runs = { w.runs with runs := queueAll w.runs.runs (chosen (room batch records) records) } := by
  simp only [claimRuns, bind_eq_ok_iff, getExecutionBatch_ok_iff] at h
  obtain ⟨batch, hbatch, h⟩ := h
  split at h
  · simp only [bind_eq_ok_iff, pure_eq_ok_iff, Prod.mk.injEq] at h
    obtain ⟨⟨claimed, runs'⟩, hclaim, rfl, rfl⟩ := h
    obtain ⟨batch', hbatch', rfl, rfl⟩ := sqlClaimAvailableRuns_ok_iff.mp hclaim
    rw [hbatch] at hbatch'
    cases hbatch'
    refine ⟨batch, _, hbatch, ?_, rfl, rfl⟩
    intro record hrec
    obtain ⟨spec, -, hget⟩ := List.mem_filterMap.mp hrec
    exact ⟨spec.runId, hget⟩
  · simp only [bind_eq_ok_iff, pure_eq_ok_iff, Prod.mk.injEq] at h
    obtain ⟨⟨claimed, runs'⟩, hclaim, rfl, rfl⟩ := h
    obtain ⟨batch', records, hbatch', hrecords, rfl, rfl⟩ := claimAvailableRuns_ok_iff.mp hclaim
    rw [hbatch] at hbatch'
    cases hbatch'
    refine ⟨batch, records, hbatch, ?_, rfl, rfl⟩
    intro record hrec
    obtain ⟨runId, -, hget⟩ := exists_of_forall₂ hrecords hrec
    exact ⟨runId, hget⟩

/-- A claim leaves attempts alone, and every run that is not `CREATED`. -/
theorem claimBatch_cases (batchId : UUID) {w : World} (hf : Filed w.runs) :
    claimBatch batchId w = w ∨ ∃ table, claimBatch batchId w = { w with
        runs := { w.runs with runs := table } } ∧
      ∀ r, table.get? r = w.runs.runs.get? r ∨ ∃ run, w.runs.runs.get? r = some run ∧
        run.state = .created ∧ table.get? r = some (run.moved .queued) := by
  rcases onRuns_cases (fun w => claimRuns w batchId) w with ⟨e, -, heq⟩ | ⟨a, runs, hok, heq⟩
  · left
    rw [claimBatch, heq]
  · right
    obtain ⟨batch, records, -, hrecords, -, rfl⟩ := claimRuns_ok hok
    refine ⟨_, by rw [claimBatch, heq], fun r => ?_⟩
    have hfiled : ∀ record ∈ chosen (room batch records) records,
        w.runs.runs.get? record.id = some record := by
      intro record hrec
      obtain ⟨runId, hget⟩ := hrecords record (mem_chosen hrec).1
      rwa [hf runId record hget]
    rw [queueAll_get? hfiled]
    split
    · next hmem =>
      obtain ⟨record, hrec, rfl⟩ := List.mem_map.mp hmem
      right
      exact ⟨record, hfiled record hrec, (mem_chosen hrec).2, by simp [hfiled record hrec]⟩
    · exact .inl rfl

/-! ## The steps of a coordinator -/

/-- Each step that dispatching can take. -/
inductive CoordinatorStep : Label → (World → World) → Prop
  | read : CoordinatorStep .read id
  | send (runId : UUID) : CoordinatorStep (.send runId) id
  | finished (runId : UUID) : CoordinatorStep (.finished runId) id
  | move (site : Site) (hsite : site = .dispatcher ∨ site = .coordinator) (runId : UUID) (target : RunState)
      (htarget : target = .dispatching ∨ target = .infraError) :
      CoordinatorStep (.transition site runId target) (moveRun runId target)
  | claim (batchId : UUID) : CoordinatorStep (.claim batchId) (claimBatch batchId)

theorem advance_all (message : String) (runId : UUID) :
    All CoordinatorStep (advance .dispatcher message runId) := by
  have hget : All CoordinatorStep (get runId) := All.op .read
  refine hget.bind fun current => ?_
  split
  · exact All.raise _
  · split
    · exact All.ret _
    · refine (All.op (.move .dispatcher (.inl rfl) runId .dispatching (.inl rfl))).handle fun e => ?_
      split
      · exact All.raise _
      · refine hget.bind fun current => ?_
        split
        · exact All.ret _
        · exact All.raise _

theorem dispatch_all (dispatcher : Dispatcher) (runId : UUID) :
    All CoordinatorStep (dispatch dispatcher runId) := by
  cases dispatcher with
  | database => exact (advance_all _ runId).bind fun _ => All.ret _
  | celery fails => exact All.op (.send runId)

theorem dispatchClaimed_all (dispatcher : Dispatcher) (claimed : List UUID) :
    All CoordinatorStep (dispatchClaimed dispatcher claimed) := by
  induction claimed with
  | nil => exact All.ret _
  | cons runId rest ih =>
    have hone : All CoordinatorStep (dispatchOne dispatcher runId) := by
      refine ((dispatch_all dispatcher runId).bind fun _ => All.ret _).handle fun _ => ?_
      exact (All.op (.move .coordinator (.inr rfl) runId .infraError (.inr rfl))).bind fun _ => All.ret _
    refine hone.bind fun sent => ih.bind fun result => ?_
    split <;> exact All.ret _

theorem dispatchRounds_all (dispatcher : Dispatcher) (batchId : UUID) (rounds : Nat)
    (claimed dispatched failed : List UUID) :
    All CoordinatorStep (dispatchRounds dispatcher batchId rounds claimed dispatched failed) := by
  induction rounds generalizing claimed dispatched failed with
  | zero =>
    cases claimed with
    | nil => exact All.ret _
    | cons runId rest => exact All.raise _
  | succ rounds ih =>
    cases claimed with
    | nil => exact All.ret _
    | cons runId rest =>
      refine (dispatchClaimed_all dispatcher _).bind fun result => ?_
      split
      · exact All.ret _
      · exact (All.op (.claim batchId)).bind fun _ => ih _ _ _

theorem dispatchAvailable_all (dispatcher : Dispatcher) (batchId : UUID) :
    All CoordinatorStep (dispatchAvailable dispatcher batchId) :=
  (All.op (.claim batchId)).bind fun _ => dispatchRounds_all _ _ _ _ _ _

theorem onRunFinished_all (dispatcher : Dispatcher) (runId : UUID) :
    All CoordinatorStep (onRunFinished dispatcher runId) := by
  exact (All.op (.finished runId)).bind fun spec => dispatchAvailable_all _ _

/-! ## The steps of an executor -/

def renewLease (manager : Manager) (attemptId : UUID) (w : World) : World :=
  (onRuns (fun w => w.runs.renewAttemptLease attemptId manager.runnerId manager.leaseSeconds w.clock) w).2

def storeEvent (event : EventEnvelope) (w : World) : World :=
  (onRuns (fun w => w.runs.appendEvent event) w).2

/-- Each step the manager takes for its executor. -/
inductive ExecutorStep (manager : Manager) (task : TaskEnvelope) : Label → (World → World) → Prop
  | renew : ExecutorStep manager task (.renewAttemptLease task.attemptId) (renewLease manager task.attemptId)
  | append (event : EventEnvelope) : ExecutorStep manager task (.appendEvent event) (storeEvent event)

theorem renewLease_cases (manager : Manager) (attemptId : UUID) (w : World) :
    renewLease manager attemptId w = w ∨ ∃ attempt updated, w.runs.attempts.get? attemptId = some attempt ∧
      attempt.state.leased = true ∧ updated.state = attempt.state ∧
      AttemptRecord.SameIdentity attempt updated ∧ updated.leaseExpiresAt.isSome ∧
      renewLease manager attemptId w = { w with
        runs := { w.runs with attempts := w.runs.attempts.set attemptId updated } } := by
  unfold renewLease
  rcases onRuns_cases (fun w => w.runs.renewAttemptLease attemptId manager.runnerId manager.leaseSeconds
    w.clock) w with ⟨e, -, heq⟩ | ⟨updated, runs, hok, heq⟩
  · exact .inl (by rw [heq])
  · obtain ⟨attempt, hget, hleased, hstate, hsame, hlease, rfl⟩ := renewAttemptLease_ok hok
    exact .inr ⟨attempt, updated, hget, hleased, hstate, hsame, by simp [hlease], by rw [heq]⟩

/-- Storing an event leaves runs and attempts alone. -/
theorem storeEvent_cases (event : EventEnvelope) (w : World) :
    ∃ runs, storeEvent event w = { w with runs := runs } ∧ runs.runs = w.runs.runs ∧
      runs.attempts = w.runs.attempts ∧ runs.idempotency = w.runs.idempotency := by
  unfold storeEvent
  rcases onRuns_cases (fun w => w.runs.appendEvent event) w with ⟨e, -, heq⟩ | ⟨record, runs, hok, heq⟩
  · exact ⟨w.runs, by rw [heq], rfl, rfl, rfl⟩
  · refine ⟨runs, by rw [heq], ?_⟩
    rcases appendEvent_ok hok with rfl | ⟨-, -, -, rfl⟩
    · exact ⟨rfl, rfl, rfl⟩
    · exact ⟨rfl, rfl, rfl⟩

theorem validateIdentity_all {S : Label → (World → World) → Prop} (task : TaskEnvelope) (runId attemptId : UUID)
    (engine : Engine) (message : String) : All S (validateIdentity task runId attemptId engine message) := by
  unfold validateIdentity
  split
  · exact All.raise _
  · exact All.ret _

theorem persistEvent_all (manager : Manager) (task : TaskEnvelope) (event : EventEnvelope) :
    All (ExecutorStep manager task) (manager.persistEvent task event) := by
  refine (validateIdentity_all task _ _ _ _).bind fun _ => All.bind ?_ fun event => ?_
  · unfold Manager.collectArtifact
    split
    · split
      · exact All.raise _
      · split
        · exact All.ret _
        · exact All.raise _
    · exact All.ret _
  · refine All.bind ?_ fun _ => (All.op (.append event)).bind fun _ => All.ret _
    unfold Manager.renewOnHeartbeat
    split
    · exact (All.op .renew).bind fun _ => All.ret _
    · exact All.ret _

theorem runBehaviour_all (manager : Manager) (task : TaskEnvelope) (behaviour : Behaviour) :
    All (ExecutorStep manager task) (manager.runBehaviour task behaviour) := by
  induction behaviour with
  | returns result => exact All.ret _
  | raises e => exact All.raise _
  | emits event next ih =>
    refine All.bind ?_ fun seen => ih seen
    exact ((persistEvent_all manager task event).bind fun _ => All.ret _).handle fun e => All.ret _

end SmartTest.System
