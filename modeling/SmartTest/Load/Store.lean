import SmartTest.Lib.Index
import SmartTest.Lib.Steps
import SmartTest.Load.Start

/-!
# The four dictionaries of load tests

What each call of `LoadTestRepository` writes, and that the four dictionaries stay consistent
under it.
-/

open SmartTest.Lib SmartTest.Run

namespace SmartTest.Load

/-- The record of a body. -/
def LoadTestBody.record (body : LoadTestBody) (id projectId : UUID) : LoadTestRecord where
  id := id
  projectId := projectId
  name := body.name
  targets := body.targets
  mode := body.mode
  requestCount := body.requestCount
  durationSeconds := body.durationSeconds
  concurrency := body.concurrency
  intervalMs := body.intervalMs
  stateVersion := 0
  trafficMode := body.trafficMode
  initialVariables := body.initialVariables
  stopOnFailure := body.stopOnFailure
  targets_count := body.targets_count
  targets_nodup := body.targets_nodup
  requestCount_range := body.requestCount_range
  concurrency_range := body.concurrency_range

/-- As recovery leaves a run. -/
def LoadTestRunRecord.failedAt (run : LoadTestRunRecord) (message : String) (now : Instant) : LoadTestRunRecord :=
  { run with status := .failed, finishedAt := some now, errorMessage := some message }

namespace LoadTestRepository

variable (repo : LoadTestRepository)

def empty : LoadTestRepository := ⟨.empty, .empty, .empty, .empty⟩

/-- `create_load_test`; the id is from `uuid4`. -/
def createLoadTest (newId projectId : UUID) (body : LoadTestBody) : Except Exn LoadTestRepository := do
  if (repo.names.get? (projectId, body.name)).isSome then
    .error ⟨.other "LoadTestNameConflict", "a load test with this project and name exists"⟩
  return { repo with
    definitions := repo.definitions.set newId (body.record newId projectId)
    names := repo.names.set (projectId, body.name) newId }

/-- The ids of the runs that are running, in the order of the dictionary. -/
def runningIds : List UUID := (repo.runs.entries.filter (·.2.status = .running)).map Prod.fst

/-- The loop of `recover_running_runs` at one run. -/
def recoverRun (message : String) (now : Instant) (runId : UUID) : LoadTestRepository :=
  match repo.runs.get? runId with
  | some run => { repo with runs := repo.runs.set runId (run.failedAt message now) }
  | none => repo

end LoadTestRepository

/-! ## What holds of the dictionaries -/

namespace LoadTestRepository

/-- At most one run of a test is running, the index has the names of the definitions, runs have their definition and
responses their run, and responses are in order. -/
structure Consistent (repo : LoadTestRepository) : Prop where
  indexed : Indexed (fun record : LoadTestRecord => (record.projectId, record.name)) repo.definitions repo.names
  oneRunning : ∀ a b run run', repo.runs.get? a = some run → repo.runs.get? b = some run' →
    run.status = .running → run'.status = .running → run.loadTestId = run'.loadTestId → a = b
  owned : ∀ id run, repo.runs.get? id = some run → (repo.definitions.get? run.loadTestId).isSome
  answered : ∀ id responses, repo.responses.get? id = some responses → (repo.runs.get? id).isSome
  ordered : ∀ id responses, repo.responses.get? id = some responses →
    responses.Pairwise fun a b => a.sequence ≤ b.sequence

theorem Consistent.empty : Consistent .empty :=
  ⟨.empty _, by simp [LoadTestRepository.empty], by simp [LoadTestRepository.empty],
    by simp [LoadTestRepository.empty], by simp [LoadTestRepository.empty]⟩

variable {repo repo' : LoadTestRepository}

theorem getLoadTest_eq_ok {id : UUID} {record : LoadTestRecord} :
    repo.getLoadTest id = .ok record ↔ repo.definitions.get? id = some record := by
  unfold getLoadTest
  cases repo.definitions.get? id <;> simp

theorem getRun_eq_ok {id : UUID} {run : LoadTestRunRecord} :
    repo.getRun id = .ok run ↔ repo.runs.get? id = some run := by
  unfold getRun
  cases repo.runs.get? id <;> simp

theorem activeRun_eq_none {loadTestId : UUID} (h : repo.activeRun loadTestId = none) {id : UUID}
    {run : LoadTestRunRecord} (hrun : repo.runs.get? id = some run) (hstatus : run.status = .running) :
    run.loadTestId ≠ loadTestId := by
  have hall := List.find?_eq_none.mp h run ((Dict.mem_values_iff _ _).mpr ⟨id, hrun⟩)
  intro heq
  exact hall (by simp [heq, hstatus])

theorem Consistent.createLoadTest (h : Consistent repo) {newId projectId : UUID} {body : LoadTestBody}
    (hfresh : repo.definitions.get? newId = none) (hcall : repo.createLoadTest newId projectId body = .ok repo') :
    Consistent repo' := by
  simp only [LoadTestRepository.createLoadTest, error_bind, ite_error_eq_ok_iff, pure_eq_ok_iff] at hcall
  obtain ⟨hfree, rfl⟩ := hcall
  refine ⟨?_, h.oneRunning, ?_, h.answered, h.ordered⟩
  · have hnone : repo.names.get? (projectId, body.name) = none := by simpa using hfree
    have hindexed : ∀ record : LoadTestRecord, repo.names.get? (record.projectId, record.name) = none →
        Indexed (fun record : LoadTestRecord => (record.projectId, record.name)) (repo.definitions.set newId record)
          (repo.names.set (record.projectId, record.name) newId) := fun _ => h.indexed.insert hfresh
    exact hindexed (body.record newId projectId) hnone
  · intro id run hrun
    have howned := h.owned id run hrun
    rw [Dict.get?_set]
    split
    · rfl
    · exact howned

theorem Consistent.updateLoadTest (h : Consistent repo) {loadTestId : UUID} {body : LoadTestBody}
    {expectedVersion : Nat} (hcall : repo.updateLoadTest loadTestId body expectedVersion = .ok repo') :
    Consistent repo' := by
  simp only [LoadTestRepository.updateLoadTest, bind_eq_ok_iff, error_bind, ite_error_eq_ok_iff,
    pure_eq_ok_iff] at hcall
  obtain ⟨current, hcurrent, -, howner, rfl⟩ := hcall
  rw [getLoadTest_eq_ok] at hcurrent
  refine ⟨?_, h.oneRunning, ?_, h.answered, h.ordered⟩
  · apply h.indexed.replace hcurrent
    intro other hother
    by_contra hne
    apply howner
    have hname : repo.names.get? (current.projectId, body.name) = some other := hother
    simp [hname, hne]
  · intro id run hrun
    have howned := h.owned id run hrun
    rw [Dict.get?_set]
    split
    · rfl
    · exact howned

/-- What is removed with a definition: its runs. -/
theorem mem_removed {loadTestId id : UUID} :
    id ∈ (repo.runs.entries.filter (·.2.loadTestId = loadTestId)).map Prod.fst ↔
      ∃ run, repo.runs.get? id = some run ∧ run.loadTestId = loadTestId := by
  simp only [List.mem_map, List.mem_filter, decide_eq_true_eq, Prod.exists]
  constructor
  · rintro ⟨id', run, ⟨hmem, hid⟩, rfl⟩
    exact ⟨run, (Dict.get?_eq_some_iff _ _ _).mpr hmem, hid⟩
  · rintro ⟨run, hrun, hid⟩
    exact ⟨id, run, ⟨(Dict.get?_eq_some_iff _ _ _).mp hrun, hid⟩, rfl⟩

theorem deleteLoadTest_runs {loadTestId : UUID} (hcall : repo.deleteLoadTest loadTestId = .ok repo') {id : UUID}
    {run : LoadTestRunRecord} (hrun : repo'.runs.get? id = some run) :
    repo.runs.get? id = some run ∧ run.loadTestId ≠ loadTestId := by
  simp only [LoadTestRepository.deleteLoadTest, bind_eq_ok_iff, error_bind, ite_error_eq_ok_iff,
    pure_eq_ok_iff] at hcall
  obtain ⟨current, -, -, rfl⟩ := hcall
  rw [Dict.get?_foldl_erase] at hrun
  split at hrun
  · cases hrun
  · next hkept => exact ⟨hrun, fun heq => hkept (mem_removed.mpr ⟨run, hrun, heq⟩)⟩

theorem Consistent.deleteLoadTest (h : Consistent repo) {loadTestId : UUID}
    (hcall : repo.deleteLoadTest loadTestId = .ok repo') : Consistent repo' := by
  have hruns : ∀ id run, repo'.runs.get? id = some run → repo.runs.get? id = some run ∧ run.loadTestId ≠ loadTestId :=
    fun id run hrun => deleteLoadTest_runs hcall hrun
  simp only [LoadTestRepository.deleteLoadTest, bind_eq_ok_iff, error_bind, ite_error_eq_ok_iff,
    pure_eq_ok_iff] at hcall
  obtain ⟨current, hcurrent, -, rfl⟩ := hcall
  rw [getLoadTest_eq_ok] at hcurrent
  have hresponses : ∀ id responses, (((repo.runs.entries.filter (·.2.loadTestId = loadTestId)).map Prod.fst).foldl
      Dict.erase repo.responses).get? id = some responses →
      repo.responses.get? id = some responses ∧
        id ∉ (repo.runs.entries.filter (·.2.loadTestId = loadTestId)).map Prod.fst := by
    intro id responses hget
    rw [Dict.get?_foldl_erase] at hget
    split at hget
    · cases hget
    · next hkept => exact ⟨hget, hkept⟩
  refine ⟨h.indexed.remove hcurrent, ?_, ?_, ?_, ?_⟩
  · intro a b run run' ha hb
    exact h.oneRunning a b run run' (hruns a run ha).1 (hruns b run' hb).1
  · intro id run hrun
    obtain ⟨hbefore, hne⟩ := hruns id run hrun
    rw [Dict.get?_erase, if_neg hne]
    exact h.owned id run hbefore
  · intro id responses hget
    obtain ⟨hbefore, hkept⟩ := hresponses id responses hget
    rw [Dict.get?_foldl_erase, if_neg hkept]
    exact h.answered id responses hbefore
  · intro id responses hget
    exact h.ordered id responses (hresponses id responses hget).1

theorem Consistent.createRun (h : Consistent repo) {newId loadTestId : UUID} {run : LoadTestRunRecord}
    (hcall : repo.createRun newId loadTestId = .ok (run, repo')) :
    Consistent repo' := by
  simp only [LoadTestRepository.createRun, bind_eq_ok_iff, error_bind, ite_error_eq_ok_iff, pure_eq_ok_iff] at hcall
  obtain ⟨definition, hdefinition, hinactive, hcall⟩ := hcall
  obtain ⟨rfl, rfl⟩ := Prod.mk.inj hcall
  rw [getLoadTest_eq_ok] at hdefinition
  have hothers : ∀ id other, repo.runs.get? id = some other → other.status = .running →
      other.loadTestId ≠ loadTestId := by
    intro id other hother hstatus
    apply activeRun_eq_none _ hother hstatus
    simpa using hinactive
  refine ⟨h.indexed, ?_, ?_, ?_, ?_⟩
  · intro a b run run' ha hb hrunning hrunning' hsame
    rw [Dict.get?_set] at ha hb
    split at ha
    · next haid =>
      obtain rfl := Option.some.inj ha
      split at hb
      · next hbid => rw [haid, hbid]
      · exact absurd hsame.symm (hothers b run' hb hrunning')
    · split at hb
      · obtain rfl := Option.some.inj hb
        exact absurd hsame (hothers a run ha hrunning)
      · exact h.oneRunning a b run run' ha hb hrunning hrunning' hsame
  · intro id run hrun
    rw [Dict.get?_set] at hrun
    split at hrun
    · obtain rfl := Option.some.inj hrun
      simp [hdefinition]
    · exact h.owned id run hrun
  · intro id responses hget
    rw [Dict.get?_set] at hget ⊢
    split at hget
    · next heq => simp [heq]
    · next hne =>
      rw [if_neg hne]
      exact h.answered id responses hget
  · intro id responses hget
    rw [Dict.get?_set] at hget
    split at hget
    · obtain rfl := Option.some.inj hget
      exact .nil
    · exact h.ordered id responses hget

theorem Consistent.addRunResponses (h : Consistent repo) {runId : UUID} {responses : List LoadTestResponse}
    (hcall : repo.addRunResponses runId responses = .ok repo') : Consistent repo' := by
  simp only [LoadTestRepository.addRunResponses, bind_eq_ok_iff, pure_eq_ok_iff] at hcall
  obtain ⟨run, hrun, rfl⟩ := hcall
  rw [getRun_eq_ok] at hrun
  refine ⟨h.indexed, h.oneRunning, h.owned, ?_, ?_⟩
  · intro id stored hget
    rw [Dict.get?_set] at hget
    split at hget
    · next heq => simp [heq, hrun]
    · exact h.answered id stored hget
  · intro id stored hget
    rw [Dict.get?_set] at hget
    split at hget
    · obtain rfl := Option.some.inj hget
      exact List.pairwise_insertionSort _ _
    · exact h.ordered id stored hget

/-- Each run in its place, of its test, and running only if it was. -/
theorem Consistent.of_runs (h : Consistent repo) (hdefinitions : repo'.definitions = repo.definitions)
    (hnames : repo'.names = repo.names) (hresponses : repo'.responses = repo.responses)
    (hsame : ∀ id, (repo'.runs.get? id).isSome = (repo.runs.get? id).isSome)
    (hruns : ∀ id run', repo'.runs.get? id = some run' → ∃ run, repo.runs.get? id = some run ∧
      run'.loadTestId = run.loadTestId ∧ (run'.status = .running → run.status = .running)) : Consistent repo' := by
  refine ⟨?_, ?_, ?_, ?_, ?_⟩
  · rw [hdefinitions, hnames]
    exact h.indexed
  · intro a b run run' ha hb hrunning hrunning' hload
    obtain ⟨before, hbefore, hid, hstatus⟩ := hruns a run ha
    obtain ⟨before', hbefore', hid', hstatus'⟩ := hruns b run' hb
    apply h.oneRunning a b before before' hbefore hbefore' (hstatus hrunning) (hstatus' hrunning')
    rw [← hid, ← hid', hload]
  · intro id run hrun
    obtain ⟨before, hbefore, hid, -⟩ := hruns id run hrun
    rw [hdefinitions, hid]
    exact h.owned id before hbefore
  · intro id responses hget
    rw [hresponses] at hget
    rw [hsame]
    exact h.answered id responses hget
  · rw [hresponses]
    exact h.ordered

theorem updateRun_runs {runId : UUID} {status : LoadTestRunStatus} {metrics : Metrics} {errorMessage : Option String}
    {finishedAt : Option Instant} (hcall : repo.updateRun runId status metrics errorMessage finishedAt = .ok repo') :
    repo' = repo ∨ ∃ current, repo.runs.get? runId = some current ∧ current.status = .running ∧
      repo' = { repo with
        runs := repo.runs.set runId
          { current with
            status := status, metrics := metrics, errorMessage := errorMessage, finishedAt := finishedAt } } := by
  simp only [LoadTestRepository.updateRun, bind_eq_ok_iff] at hcall
  obtain ⟨current, hcurrent, hcall⟩ := hcall
  rw [getRun_eq_ok] at hcurrent
  split at hcall
  · exact .inl (Except.ok.inj hcall).symm
  · next hrunning => exact .inr ⟨current, hcurrent, by simpa using hrunning, (Except.ok.inj hcall).symm⟩

theorem Consistent.updateRun (h : Consistent repo) {runId : UUID} {status : LoadTestRunStatus} {metrics : Metrics}
    {errorMessage : Option String} {finishedAt : Option Instant}
    (hcall : repo.updateRun runId status metrics errorMessage finishedAt = .ok repo') : Consistent repo' := by
  rcases updateRun_runs hcall with rfl | ⟨current, hcurrent, hrunning, rfl⟩
  · exact h
  · refine h.of_runs rfl rfl rfl ?_ ?_
    · intro id
      rw [Dict.get?_set]
      split
      · next heq => simp [heq, hcurrent]
      · rfl
    · intro id run' hrun'
      rw [Dict.get?_set] at hrun'
      split at hrun'
      · next heq =>
        obtain rfl := Option.some.inj hrun'
        exact ⟨current, by rw [heq]; exact hcurrent, rfl, fun _ => hrunning⟩
      · exact ⟨run', hrun', rfl, fun hrunning => hrunning⟩

theorem mem_runningIds {id : UUID} :
    id ∈ repo.runningIds ↔ ∃ run, repo.runs.get? id = some run ∧ run.status = .running := by
  simp only [runningIds, List.mem_map, List.mem_filter, decide_eq_true_eq, Prod.exists]
  constructor
  · rintro ⟨id', run, ⟨hmem, hrunning⟩, rfl⟩
    exact ⟨run, (Dict.get?_eq_some_iff _ _ _).mpr hmem, hrunning⟩
  · rintro ⟨run, hrun, hrunning⟩
    exact ⟨id, run, ⟨(Dict.get?_eq_some_iff _ _ _).mp hrun, hrunning⟩, rfl⟩

theorem recoverRun_runs (message : String) (now : Instant) (runId id : UUID) :
    (repo.recoverRun message now runId).runs.get? id =
      (repo.runs.get? id).map fun run => if id = runId then run.failedAt message now else run := by
  unfold recoverRun
  split
  · next run hrun =>
    rw [Dict.get?_set]
    split
    · next heq => rw [heq, hrun, Option.map_some]
    · next hne => exact Option.map_id'.symm
  · next hnone =>
    by_cases heq : id = runId
    · rw [heq, hnone, Option.map_none]
    · simp only [heq, if_false]
      exact Option.map_id'.symm

/-- The runs of the list have failed, and nothing else has changed. -/
theorem recovered_runs (message : String) (now : Instant) (ids : List UUID) (id : UUID) :
    (ids.foldl (recoverRun · message now) repo).runs.get? id =
      (repo.runs.get? id).map fun run => if id ∈ ids then run.failedAt message now else run := by
  induction ids generalizing repo with
  | nil => simp
  | cons first rest ih =>
    rw [List.foldl_cons, ih, recoverRun_runs, Option.map_map]
    congr 1
    funext run
    by_cases hfirst : id = first
    · by_cases hrest : id ∈ rest <;> simp [hfirst, LoadTestRunRecord.failedAt]
    · by_cases hrest : id ∈ rest <;> simp [hfirst, hrest]

theorem recovered_rest (repo : LoadTestRepository) (message : String) (now : Instant) (ids : List UUID) :
    (ids.foldl (recoverRun · message now) repo).definitions = repo.definitions ∧
      (ids.foldl (recoverRun · message now) repo).names = repo.names ∧
      (ids.foldl (recoverRun · message now) repo).responses = repo.responses := by
  induction ids generalizing repo with
  | nil => exact ⟨rfl, rfl, rfl⟩
  | cons first rest ih =>
    obtain ⟨hdefinitions, hnames, hresponses⟩ := ih (repo.recoverRun message now first)
    rw [List.foldl_cons, hdefinitions, hnames, hresponses]
    unfold recoverRun
    split <;> exact ⟨rfl, rfl, rfl⟩

theorem Consistent.recovered (h : Consistent repo) (message : String) (now : Instant) (ids : List UUID) :
    Consistent (ids.foldl (recoverRun · message now) repo) := by
  obtain ⟨hdefinitions, hnames, hresponses⟩ := recovered_rest repo message now ids
  refine h.of_runs hdefinitions hnames hresponses ?_ ?_
  · intro id
    rw [recovered_runs, Option.isSome_map]
  · intro id run' hrun'
    rw [recovered_runs] at hrun'
    obtain ⟨run, hrun, rfl⟩ := Option.map_eq_some_iff.mp hrun'
    refine ⟨run, hrun, ?_, ?_⟩
    · split <;> rfl
    · split
      · rintro ⟨⟩
      · exact fun hrunning => hrunning

end LoadTestRepository

end SmartTest.Load
