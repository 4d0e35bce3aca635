import SmartTest.Lib.Call
import SmartTest.Lib.JsonPath
import SmartTest.Load.Store

/-!
# The calls of the load test repository

The seven calls of `LoadTestRepository` that write, with their copies. A call answers with a
`deepcopy` of what it has just stored, and `deepcopy` raises `RecursionError` for a value that
nests deeper than the stack has room for: what was stored then stays.
-/

open SmartTest.Lib SmartTest.Run

namespace SmartTest.Load

/-! ## How deep records nest -/

/-- Ids, times and records are copied as the list of their fields in an object: two levels. -/
def recordLevels : Nat := 2

/-- A target is a dict of its fields; its statuses are a list, its extractors a dict of texts. -/
def LoadTestTarget.nesting (target : LoadTestTarget) : Nat :=
  max (max (Json.obj target.headers.entries).depth (Json.obj target.query.entries).depth) target.body.depth + 1

def LoadTestRecord.nesting (record : LoadTestRecord) : Nat :=
  max (max ((record.targets.map (·.nesting)).foldr max 0 + 1) (Json.obj record.initialVariables.entries).depth)
    recordLevels + recordLevels

/-- `empty_metrics`: the counters of a target are dicts in its metrics, these in a dict of the metrics. -/
def emptyMetricsNesting (targetNames : List String) : Nat := if targetNames = [] then 3 else 4

/-- A run, by how deep its metrics nest. -/
def runNesting (metrics : Nat) : Nat := max metrics recordLevels + recordLevels

/-- A list of responses, which are flat. -/
def responsesNesting (responses : List LoadTestResponse) : Nat :=
  if responses = [] then 1 else recordLevels + recordLevels + 1

/-- How many levels the stack has room for: in the copies of the call itself, and in those of `get_load_test` and
`get_run`, which are called from there. -/
structure Stack where
  room : Nat
  inner : Nat
  inner_le : inner ≤ room

/-- The dictionaries, and how deep the metrics of each run nest: their samples hold the bodies of responses. -/
structure LoadTestStore where
  repo : LoadTestRepository
  nesting : Dict UUID Nat

namespace LoadTestStore

def empty : LoadTestStore := ⟨.empty, .empty⟩

def metricsNesting (store : LoadTestStore) (runId : UUID) : Nat := (store.nesting.get? runId).getD 0

/-! ## The calls -/

def recursionError : Exn := ⟨.other "RecursionError", "maximum recursion depth exceeded"⟩

/-- `deepcopy` of a value that nests so deep. -/
def deepcopy {α : Type} (room nesting : Nat) (value : α) : Except Exn α :=
  if nesting ≤ room then .ok value else .error recursionError

theorem deepcopy_ok {α : Type} {room nesting : Nat} {value copy : α} (h : deepcopy room nesting value = .ok copy) :
    copy = value := by
  unfold deepcopy at h
  split at h
  · exact (Except.ok.inj h).symm
  · cases h

variable (stack : Stack)

def getLoadTest (store : LoadTestStore) (loadTestId : UUID) : Except Exn LoadTestRecord := do
  let record ← store.repo.getLoadTest loadTestId
  deepcopy stack.inner record.nesting record

def getRun (store : LoadTestStore) (runId : UUID) : Except Exn LoadTestRunRecord := do
  let run ← store.repo.getRun runId
  deepcopy stack.inner (runNesting (store.metricsNesting runId)) run

abbrev StoreCall := Call Exn LoadTestStore

def modifyRepo (f : LoadTestRepository → LoadTestRepository) : StoreCall Unit :=
  modify fun store => { store with repo := f store.repo }

/-- `body` is what normalising and validating the arguments came to; the id is from `uuid4`. -/
def createLoadTest (newId projectId : UUID) (body : Except Exn LoadTestBody) : StoreCall LoadTestRecord := do
  let body ← ofExcept body
  let store ← get
  if (store.repo.names.get? (projectId, body.name)).isSome then
    throw ⟨.other "LoadTestNameConflict", "a load test with this project and name exists"⟩
  let record := body.record newId projectId
  modifyRepo fun repo => { repo with definitions := repo.definitions.set newId record }
  modifyRepo fun repo => { repo with names := repo.names.set (projectId, body.name) newId }
  ofExcept (deepcopy stack.room record.nesting record)

def updateLoadTest (loadTestId : UUID) (body : Except Exn LoadTestBody) (expectedVersion : Nat) :
    StoreCall LoadTestRecord := do
  let body ← ofExcept body
  let store ← get
  let current ← ofExcept (getLoadTest stack store loadTestId)
  if current.stateVersion ≠ expectedVersion then
    throw ⟨.other "LoadTestVersionConflict", "load test state version mismatch"⟩
  if (store.repo.names.get? (current.projectId, body.name)).any (· ≠ loadTestId) then
    throw ⟨.other "LoadTestNameConflict", "a load test with this project and name exists"⟩
  let updated := current.updated body
  modifyRepo fun repo => { repo with definitions := repo.definitions.set loadTestId updated }
  modifyRepo fun repo => { repo with names := repo.names.erase (current.projectId, current.name) }
  modifyRepo fun repo => { repo with names := repo.names.set (current.projectId, body.name) loadTestId }
  ofExcept (deepcopy stack.room updated.nesting updated)

def deleteLoadTest (loadTestId : UUID) : StoreCall Unit := do
  let store ← get
  let current ← ofExcept (getLoadTest stack store loadTestId)
  if (store.repo.activeRun loadTestId).isSome then
    throw ⟨.other "LoadTestActiveRunConflict", "load test has an active run"⟩
  modifyRepo fun repo => { repo with definitions := repo.definitions.erase loadTestId }
  modifyRepo fun repo => { repo with names := repo.names.erase (current.projectId, current.name) }
  let removed := (store.repo.runs.entries.filter (·.2.loadTestId = loadTestId)).map Prod.fst
  modify fun store => {
    repo := { store.repo with runs := removed.foldl Dict.erase store.repo.runs }
    nesting := removed.foldl Dict.erase store.nesting }
  modifyRepo fun repo => { repo with responses := removed.foldl Dict.erase repo.responses }

def createRun (newId loadTestId : UUID) : StoreCall LoadTestRunRecord := do
  let store ← get
  let definition ← ofExcept (getLoadTest stack store loadTestId)
  if (store.repo.activeRun loadTestId).isSome then
    throw ⟨.other "LoadTestActiveRunConflict", "load test already has an active run"⟩
  let record : LoadTestRunRecord :=
    ⟨newId, loadTestId, .running, definition.mode, none, .empty definition.targetNames, none⟩
  let nesting := emptyMetricsNesting definition.targetNames
  modify fun store => {
    repo := { store.repo with runs := store.repo.runs.set newId record }
    nesting := store.nesting.set newId nesting }
  modifyRepo fun repo => { repo with responses := repo.responses.set newId [] }
  ofExcept (deepcopy stack.room (runNesting nesting) record)

/-- `responses` are what each item was converted to. -/
def addRunResponses (runId : UUID) (responses : List (Except Exn LoadTestResponse)) :
    StoreCall (List LoadTestResponse) := do
  let store ← get
  let _ ← ofExcept (getRun stack store runId)
  let records ← ofExcept (responses.mapM id)
  modifyRepo fun repo =>
    { repo with responses := repo.responses.set runId ((repo.responses.get? runId).getD [] ++ records) }
  modifyRepo fun repo =>
    { repo with
      responses := repo.responses.set runId
        (((repo.responses.get? runId).getD []).insertionSort fun a b => a.sequence ≤ b.sequence) }
  ofExcept (deepcopy stack.room (responsesNesting records) records)

/-- `nesting` is how deep the metrics nest. -/
def updateRun (runId : UUID) (status : LoadTestRunStatus) (metrics : Metrics) (nesting : Nat)
    (errorMessage : Option String) (finishedAt : Option Instant) : StoreCall LoadTestRunRecord := do
  let store ← get
  let current ← ofExcept (getRun stack store runId)
  if current.status ≠ .running then return current
  let metrics ← ofExcept (deepcopy stack.room nesting metrics)
  let updated := { current with
    status := status, metrics := metrics, errorMessage := errorMessage, finishedAt := finishedAt }
  modify fun store => {
    repo := { store.repo with runs := store.repo.runs.set runId updated }
    nesting := store.nesting.set runId nesting }
  ofExcept (deepcopy stack.room (runNesting nesting) updated)

/-- The loop of `recover_running_runs` at one run. -/
def recoverRun (message : String) (now : Instant) (runId : UUID) : StoreCall Unit := do
  let store ← get
  ofExcept (deepcopy stack.room (store.metricsNesting runId) ())
  modifyRepo (·.recoverRun message now runId)

def recoverRunningRuns (message : String) (now : Instant) : StoreCall Nat := do
  let store ← get
  store.repo.runningIds.forM (recoverRun stack message now)
  return store.repo.runningIds.length

/-! ## What the calls come to -/

/-- A call that checks, and if the checks answer writes and answers. -/
def afterChecks {α β : Type} (store : LoadTestStore) (checks : Except Exn α) (answer : α → Except Exn β)
    (written : α → LoadTestStore) : Except Exn β × LoadTestStore :=
  match checks with
  | .error e => (.error e, store)
  | .ok a => (answer a, written a)

variable (store : LoadTestStore)

theorem createLoadTest_on (newId projectId : UUID) (body : Except Exn LoadTestBody) :
    (createLoadTest stack newId projectId body).on store =
      afterChecks store (do
          let body ← body
          let repo ← store.repo.createLoadTest newId projectId body
          return (body.record newId projectId, repo))
        (fun (record, _) => deepcopy stack.room record.nesting record)
        fun (_, repo) => { store with repo := repo } := by
  cases body with
  | error e => rfl
  | ok body =>
    simp only [createLoadTest, modifyRepo, Call.on_bind, Call.on_get, Call.on_ofExcept,
      LoadTestRepository.createLoadTest, ok_bind]
    split
    · rfl
    · simp only [Call.on_bind, Call.on_modify, Call.on_ofExcept]
      rfl

theorem updateLoadTest_on (loadTestId : UUID) (body : Except Exn LoadTestBody) (expectedVersion : Nat) :
    (updateLoadTest stack loadTestId body expectedVersion).on store =
      afterChecks store (do
          let body ← body
          let current ← getLoadTest stack store loadTestId
          let repo ← store.repo.updateLoadTest loadTestId body expectedVersion
          return (current.updated body, repo))
        (fun (updated, _) => deepcopy stack.room updated.nesting updated)
        fun (_, repo) => { store with repo := repo } := by
  cases body with
  | error e => rfl
  | ok body =>
    simp only [updateLoadTest, modifyRepo, Call.on_bind, Call.on_get, Call.on_ofExcept,
      LoadTestRepository.updateLoadTest, getLoadTest, ok_bind]
    cases store.repo.getLoadTest loadTestId with
    | error e => rfl
    | ok current =>
      simp only [ok_bind]
      cases hcopied : deepcopy stack.inner current.nesting current with
      | error e => rfl
      | ok copy =>
        obtain rfl := deepcopy_ok hcopied
        simp only [ok_bind]
        split
        · rfl
        · split
          · rfl
          · simp only [Call.on_bind, Call.on_modify, Call.on_ofExcept]
            rfl

theorem deleteLoadTest_on (loadTestId : UUID) :
    (deleteLoadTest stack loadTestId).on store =
      afterChecks store (do
          let _ ← getLoadTest stack store loadTestId
          store.repo.deleteLoadTest loadTestId)
        (fun _ => .ok ()) fun repo =>
          ⟨repo, ((store.repo.runs.entries.filter (·.2.loadTestId = loadTestId)).map Prod.fst).foldl Dict.erase
            store.nesting⟩ := by
  simp only [deleteLoadTest, modifyRepo, Call.on_bind, Call.on_get, Call.on_ofExcept,
    LoadTestRepository.deleteLoadTest, getLoadTest]
  cases store.repo.getLoadTest loadTestId with
  | error e => rfl
  | ok current =>
    simp only [ok_bind]
    cases hcopied : deepcopy stack.inner current.nesting current with
    | error e => rfl
    | ok copy =>
      obtain rfl := deepcopy_ok hcopied
      simp only [ok_bind]
      split
      · rfl
      · rfl

theorem createRun_on (newId loadTestId : UUID) :
    (createRun stack newId loadTestId).on store =
      afterChecks store (do
          let definition ← getLoadTest stack store loadTestId
          let (run, repo) ← store.repo.createRun newId loadTestId
          return (emptyMetricsNesting definition.targetNames, run, repo))
        (fun (nesting, run, _) => deepcopy stack.room (runNesting nesting) run)
        fun (nesting, _, repo) => ⟨repo, store.nesting.set newId nesting⟩ := by
  simp only [createRun, modifyRepo, Call.on_bind, Call.on_get, Call.on_ofExcept, LoadTestRepository.createRun,
    getLoadTest]
  cases store.repo.getLoadTest loadTestId with
  | error e => rfl
  | ok definition =>
    simp only [ok_bind]
    cases hcopied : deepcopy stack.inner definition.nesting definition with
    | error e => rfl
    | ok copy =>
      obtain rfl := deepcopy_ok hcopied
      simp only [ok_bind]
      split
      · rfl
      · simp only [Call.on_bind, Call.on_modify, Call.on_ofExcept]
        rfl

theorem addRunResponses_on (runId : UUID) (responses : List (Except Exn LoadTestResponse)) :
    (addRunResponses stack runId responses).on store =
      afterChecks store (do
          let _ ← getRun stack store runId
          let records ← responses.mapM id
          let repo ← store.repo.addRunResponses runId records
          return (records, repo))
        (fun (records, _) => deepcopy stack.room (responsesNesting records) records)
        fun (_, repo) => { store with repo := repo } := by
  simp only [addRunResponses, modifyRepo, Call.on_bind, Call.on_get, Call.on_ofExcept,
    LoadTestRepository.addRunResponses, getRun]
  cases store.repo.getRun runId with
  | error e => rfl
  | ok run =>
    simp only [ok_bind]
    cases deepcopy stack.inner (runNesting (store.metricsNesting runId)) run with
    | error e => rfl
    | ok copy =>
      simp only [ok_bind]
      cases responses.mapM id with
      | error e => rfl
      | ok records =>
        simp only [Call.on_modify, Dict.get?_set_self, Option.getD_some, Dict.set_set, ok_bind]
        rfl

theorem updateRun_on (runId : UUID) (status : LoadTestRunStatus) (metrics : Metrics) (nesting : Nat)
    (errorMessage : Option String) (finishedAt : Option Instant) :
    (updateRun stack runId status metrics nesting errorMessage finishedAt).on store =
      match getRun stack store runId with
      | .error e => (.error e, store)
      | .ok current =>
        if current.status ≠ .running then (.ok current, store)
        else afterChecks store (do
            let metrics ← deepcopy stack.room nesting metrics
            let updated := { current with
              status := status, metrics := metrics, errorMessage := errorMessage, finishedAt := finishedAt }
            let repo ← store.repo.updateRun runId status metrics errorMessage finishedAt
            return (updated, repo))
          (fun (updated, _) => deepcopy stack.room (runNesting nesting) updated)
          fun (_, repo) => ⟨repo, store.nesting.set runId nesting⟩ := by
  simp only [updateRun, Call.on_bind, Call.on_get, Call.on_ofExcept, LoadTestRepository.updateRun, getRun]
  cases store.repo.getRun runId with
  | error e => rfl
  | ok run =>
    simp only [ok_bind]
    cases hcopied : deepcopy stack.inner (runNesting (store.metricsNesting runId)) run with
    | error e => rfl
    | ok copy =>
      obtain rfl := deepcopy_ok hcopied
      simp only
      split
      · rfl
      · simp only [Call.on_bind, Call.on_modify, Call.on_ofExcept]
        cases deepcopy stack.room nesting metrics with
        | error e => rfl
        | ok metrics => rfl

/-- Runs are recovered in order, up to the first whose metrics cannot be copied. -/
theorem recoverRuns_on (message : String) (now : Instant) (ids : List UUID) :
    (ids.forM (recoverRun stack message now)).on store =
      (if ∀ id ∈ ids, store.metricsNesting id ≤ stack.room then .ok ⟨⟩ else .error recursionError,
        { store with
          repo := (ids.takeWhile fun id => store.metricsNesting id ≤ stack.room).foldl (·.recoverRun message now)
            store.repo }) := by
  induction ids generalizing store with
  | nil => rfl
  | cons first rest ih =>
    show (recoverRun stack message now first >>= fun _ => rest.forM (recoverRun stack message now)).on store = _
    simp only [recoverRun, modifyRepo, deepcopy, Call.on_bind, Call.on_get, Call.on_ofExcept, Call.on_modify]
    by_cases hfits : store.metricsNesting first ≤ stack.room
    · have hall : (∀ id ∈ first :: rest, store.metricsNesting id ≤ stack.room) ↔
          ∀ id ∈ rest, store.metricsNesting id ≤ stack.room := by simp [hfits]
      simp only [if_pos hfits]
      rw [List.takeWhile_cons_of_pos (by simpa using hfits), List.foldl_cons, if_congr hall rfl rfl]
      exact ih { store with repo := store.repo.recoverRun message now first }
    · simp [hfits]

theorem recoverRunningRuns_on (message : String) (now : Instant) :
    (recoverRunningRuns stack message now).on store =
      (if ∀ id ∈ store.repo.runningIds, store.metricsNesting id ≤ stack.room then .ok store.repo.runningIds.length
        else .error recursionError,
        { store with
          repo := (store.repo.runningIds.takeWhile fun id => store.metricsNesting id ≤ stack.room).foldl
            (·.recoverRun message now) store.repo }) := by
  simp only [recoverRunningRuns, Call.on_bind, Call.on_get, recoverRuns_on]
  by_cases hall : ∀ id ∈ store.repo.runningIds, store.metricsNesting id ≤ stack.room
  · simp only [if_pos hall]
    rfl
  · simp only [if_neg hall]

theorem deepcopy_error_iff {α : Type} {room nesting : Nat} {value : α} :
    (∃ e, deepcopy room nesting value = .error e) ↔ room < nesting := by
  unfold deepcopy
  split
  · next h => simp [h]
  · next h => simpa using h

variable {stack store}

theorem getLoadTest_ok_iff {loadTestId : UUID} {record : LoadTestRecord} :
    getLoadTest stack store loadTestId = .ok record ↔
      store.repo.definitions.get? loadTestId = some record ∧ record.nesting ≤ stack.inner := by
  simp only [getLoadTest, deepcopy, bind_eq_ok_iff, LoadTestRepository.getLoadTest_eq_ok]
  constructor
  · rintro ⟨found, hfound, h⟩
    split at h
    · next hfits =>
      obtain rfl := Except.ok.inj h
      exact ⟨hfound, hfits⟩
    · cases h
  · rintro ⟨hfound, hfits⟩
    exact ⟨record, hfound, if_pos hfits⟩

theorem getRun_ok_iff {runId : UUID} {run : LoadTestRunRecord} :
    getRun stack store runId = .ok run ↔
      store.repo.runs.get? runId = some run ∧ runNesting (store.metricsNesting runId) ≤ stack.inner := by
  simp only [getRun, deepcopy, bind_eq_ok_iff, LoadTestRepository.getRun_eq_ok]
  constructor
  · rintro ⟨found, hfound, h⟩
    split at h
    · next hfits =>
      obtain rfl := Except.ok.inj h
      exact ⟨hfound, hfits⟩
    · cases h
  · rintro ⟨hfound, hfits⟩
    exact ⟨run, hfound, if_pos hfits⟩

end LoadTestStore

/-! ## One call -/

inductive LoadTestCall where
  | createLoadTest (newId projectId : UUID) (body : Except Exn LoadTestBody)
  | updateLoadTest (loadTestId : UUID) (body : Except Exn LoadTestBody) (expectedVersion : Nat)
  | deleteLoadTest (loadTestId : UUID)
  | createRun (newId loadTestId : UUID)
  | addRunResponses (runId : UUID) (responses : List (Except Exn LoadTestResponse))
  | updateRun (runId : UUID) (status : LoadTestRunStatus) (metrics : Metrics) (nesting : Nat)
      (errorMessage : Option String) (finishedAt : Option Instant)
  | recoverRunningRuns (message : String) (now : Instant)

namespace LoadTestCall

open LoadTestStore

/-- What a call raises, if it raises, and the store it leaves. -/
def outcome {α : Type} (call : StoreCall α) (store : LoadTestStore) : Except Exn Unit × LoadTestStore :=
  ((call.on store).1.map fun _ => (), (call.on store).2)

def on (stack : Stack) (store : LoadTestStore) : LoadTestCall → Except Exn Unit × LoadTestStore
  | .createLoadTest newId projectId body => outcome (LoadTestStore.createLoadTest stack newId projectId body) store
  | .updateLoadTest loadTestId body expectedVersion =>
    outcome (LoadTestStore.updateLoadTest stack loadTestId body expectedVersion) store
  | .deleteLoadTest loadTestId => outcome (LoadTestStore.deleteLoadTest stack loadTestId) store
  | .createRun newId loadTestId => outcome (LoadTestStore.createRun stack newId loadTestId) store
  | .addRunResponses runId responses => outcome (LoadTestStore.addRunResponses stack runId responses) store
  | .updateRun runId status metrics nesting errorMessage finishedAt =>
    outcome (LoadTestStore.updateRun stack runId status metrics nesting errorMessage finishedAt) store
  | .recoverRunningRuns message now => outcome (LoadTestStore.recoverRunningRuns stack message now) store

/-- What the call draws from `uuid4`. -/
def draws : LoadTestCall → Option UUID
  | .createLoadTest newId _ _ | .createRun newId _ => some newId
  | _ => none

/-- What the call has written, if it has written. -/
def Writes (repo repo' : LoadTestRepository) : LoadTestCall → Prop
  | .createLoadTest newId projectId body => ∃ b, body = .ok b ∧ repo.createLoadTest newId projectId b = .ok repo'
  | .updateLoadTest loadTestId body expectedVersion =>
    ∃ b, body = .ok b ∧ repo.updateLoadTest loadTestId b expectedVersion = .ok repo'
  | .deleteLoadTest loadTestId => repo.deleteLoadTest loadTestId = .ok repo'
  | .createRun newId loadTestId => ∃ run, repo.createRun newId loadTestId = .ok (run, repo')
  | .addRunResponses runId responses =>
    ∃ records, responses.mapM id = .ok records ∧ repo.addRunResponses runId records = .ok repo'
  | .updateRun runId status metrics _ errorMessage finishedAt =>
    repo.updateRun runId status metrics errorMessage finishedAt = .ok repo'
  | .recoverRunningRuns message now =>
    ∃ ids : List UUID, (∀ id ∈ ids, id ∈ repo.runningIds) ∧ repo' = ids.foldl (·.recoverRun message now) repo

/-- A call that raises changes nothing. -/
def Atomic (stack : Stack) (store : LoadTestStore) (call : LoadTestCall) : Prop :=
  (∃ e, (call.on stack store).1 = .error e) → (call.on stack store).2 = store

/-- The call passes its checks and stores, and then has no room for the copy it answers with. For recovery: it recovers
the first run, and has no room for the metrics of another. -/
def Torn (stack : Stack) (store : LoadTestStore) : LoadTestCall → Prop
  | .createLoadTest newId projectId body =>
    ∃ b, body = .ok b ∧ store.repo.names.get? (projectId, b.name) = none ∧
      stack.room < (b.record newId projectId).nesting
  | .updateLoadTest loadTestId body expectedVersion =>
    ∃ b current, body = .ok b ∧ store.repo.definitions.get? loadTestId = some current ∧
      current.nesting ≤ stack.inner ∧ current.stateVersion = expectedVersion ∧
      (∀ other, store.repo.names.get? (current.projectId, b.name) = some other → other = loadTestId) ∧
      stack.room < (current.updated b).nesting
  | .deleteLoadTest _ => False
  | .createRun _ loadTestId =>
    ∃ definition, store.repo.definitions.get? loadTestId = some definition ∧ definition.nesting ≤ stack.inner ∧
      store.repo.activeRun loadTestId = none ∧ stack.room < runNesting (emptyMetricsNesting definition.targetNames)
  | .addRunResponses runId responses =>
    ∃ run records, store.repo.runs.get? runId = some run ∧ runNesting (store.metricsNesting runId) ≤ stack.inner ∧
      responses.mapM id = .ok records ∧ stack.room < responsesNesting records
  | .updateRun runId _ _ nesting _ _ =>
    ∃ run, store.repo.runs.get? runId = some run ∧ runNesting (store.metricsNesting runId) ≤ stack.inner ∧
      run.status = .running ∧ nesting ≤ stack.room ∧ stack.room < runNesting nesting
  | .recoverRunningRuns _ _ =>
    ∃ first, store.repo.runningIds.head? = some first ∧ store.metricsNesting first ≤ stack.room ∧
      ∃ later ∈ store.repo.runningIds, stack.room < store.metricsNesting later

variable {stack : Stack} {store : LoadTestStore} {repo repo' : LoadTestRepository} {call : LoadTestCall}

theorem outcome_cases {α β : Type} {c : StoreCall β} {checks : Except Exn α} {answer : α → Except Exn β}
    {written : α → LoadTestStore} (h : c.on store = afterChecks store checks answer written) :
    (∃ e, checks = .error e ∧ outcome c store = (.error e, store)) ∨
      ∃ a, checks = .ok a ∧ outcome c store = ((answer a).map fun _ => (), written a) := by
  unfold outcome
  rw [h]
  cases checks with
  | error e => exact .inl ⟨e, rfl, rfl⟩
  | ok a => exact .inr ⟨a, rfl, rfl⟩

/-- A call raises and leaves everything, or it has written. -/
theorem leaves (stack : Stack) (store : LoadTestStore) (call : LoadTestCall) :
    (call.on stack store).2 = store ∨ call.Writes store.repo (call.on stack store).2.repo := by
  cases call with
  | createLoadTest newId projectId body =>
    rcases outcome_cases (createLoadTest_on stack store newId projectId body) with ⟨e, -, hon⟩ | ⟨a, hchecks, hon⟩
    · exact .inl (congrArg Prod.snd hon)
    · simp only [bind_eq_ok_iff, pure_eq_ok_iff] at hchecks
      obtain ⟨b, hbody, repo', hrepo, rfl⟩ := hchecks
      exact .inr ⟨b, hbody, by rw [on, hon]; exact hrepo⟩
  | updateLoadTest loadTestId body expectedVersion =>
    rcases outcome_cases (updateLoadTest_on stack store loadTestId body expectedVersion) with
      ⟨e, -, hon⟩ | ⟨a, hchecks, hon⟩
    · exact .inl (congrArg Prod.snd hon)
    · simp only [bind_eq_ok_iff, pure_eq_ok_iff] at hchecks
      obtain ⟨b, hbody, current, -, repo', hrepo, rfl⟩ := hchecks
      exact .inr ⟨b, hbody, by rw [on, hon]; exact hrepo⟩
  | deleteLoadTest loadTestId =>
    rcases outcome_cases (deleteLoadTest_on stack store loadTestId) with ⟨e, -, hon⟩ | ⟨repo', hchecks, hon⟩
    · exact .inl (congrArg Prod.snd hon)
    · simp only [bind_eq_ok_iff] at hchecks
      obtain ⟨current, -, hrepo⟩ := hchecks
      refine .inr ?_
      simp only [on, hon, Writes]
      exact hrepo
  | createRun newId loadTestId =>
    rcases outcome_cases (createRun_on stack store newId loadTestId) with ⟨e, -, hon⟩ | ⟨a, hchecks, hon⟩
    · exact .inl (congrArg Prod.snd hon)
    · simp only [bind_eq_ok_iff, pure_eq_ok_iff, Prod.exists] at hchecks
      obtain ⟨definition, -, run, repo', hrepo, rfl⟩ := hchecks
      exact .inr ⟨run, by rw [on, hon]; exact hrepo⟩
  | addRunResponses runId responses =>
    rcases outcome_cases (addRunResponses_on stack store runId responses) with ⟨e, -, hon⟩ | ⟨a, hchecks, hon⟩
    · exact .inl (congrArg Prod.snd hon)
    · simp only [bind_eq_ok_iff, pure_eq_ok_iff] at hchecks
      obtain ⟨run, -, records, hrecords, repo', hrepo, rfl⟩ := hchecks
      exact .inr ⟨records, hrecords, by rw [on, hon]; exact hrepo⟩
  | updateRun runId status metrics nesting errorMessage finishedAt =>
    have hon := updateRun_on stack store runId status metrics nesting errorMessage finishedAt
    cases hrun : getRun stack store runId with
    | error e =>
      rw [hrun] at hon
      exact .inl (congrArg Prod.snd hon)
    | ok current =>
      simp only [hrun] at hon
      split at hon
      · exact .inl (congrArg Prod.snd hon)
      · rcases outcome_cases hon with ⟨e, -, hon⟩ | ⟨a, hchecks, hon⟩
        · exact .inl (congrArg Prod.snd hon)
        · simp only [bind_eq_ok_iff, pure_eq_ok_iff] at hchecks
          obtain ⟨copy, hcopied, repo', hrepo, rfl⟩ := hchecks
          obtain rfl := deepcopy_ok hcopied
          refine .inr ?_
          simp only [on, hon, Writes]
          exact hrepo
  | recoverRunningRuns message now =>
    refine .inr ⟨_, ?_, by rw [on, outcome, recoverRunningRuns_on]⟩
    intro id hid
    exact List.takeWhile_subset _ hid

/-- A call keeps all or nothing, unless it writes something new and its answer cannot be copied. -/
theorem unchanged_iff {α β : Type} {c : StoreCall β} {checks : Except Exn α} {answer : α → Except Exn β}
    {written : α → LoadTestStore} (h : c.on store = afterChecks store checks answer written)
    (hwritten : ∀ a, checks = .ok a → (∃ e, answer a = .error e) → written a ≠ store) :
    ((∃ e, (outcome c store).1 = .error e) → (outcome c store).2 = store) ↔
      ¬ ∃ a, checks = .ok a ∧ ∃ e, answer a = .error e := by
  rcases outcome_cases h with ⟨e, hchecks, hon⟩ | ⟨a, hchecks, hon⟩
  · simp [hon, hchecks]
  · simp only [hon, hchecks, map_eq_error_iff, Except.ok.injEq, exists_eq_left']
    constructor
    · rintro hkept herror
      exact hwritten a hchecks herror (hkept herror)
    · intro hnone herror
      exact absurd herror hnone

theorem createLoadTest_torn_iff (newId projectId : UUID) (body : Except Exn LoadTestBody) :
    (LoadTestCall.createLoadTest newId projectId body).Atomic stack store ↔
      ¬ (LoadTestCall.createLoadTest newId projectId body).Torn stack store := by
  refine (unchanged_iff (createLoadTest_on stack store newId projectId body) ?_).trans (not_congr ?_)
  · rintro ⟨record, repo'⟩ hchecks - hsame
    simp only [bind_eq_ok_iff, pure_eq_ok_iff, LoadTestRepository.createLoadTest, error_bind, ite_error_eq_ok_iff,
      Prod.mk.injEq] at hchecks
    obtain ⟨b, -, _, ⟨hfree, rfl⟩, -, rfl⟩ := hchecks
    have hname := congrArg (fun s : LoadTestStore => s.repo.names.get? (projectId, b.name)) hsame
    simp only [Dict.get?_set_self] at hname
    exact hfree (by rw [← hname]; rfl)
  · simp only [Torn, bind_eq_ok_iff, pure_eq_ok_iff, LoadTestRepository.createLoadTest, error_bind,
      ite_error_eq_ok_iff, Prod.exists, Prod.mk.injEq, deepcopy_error_iff]
    constructor
    · rintro ⟨record, repo', ⟨b, hbody, _, ⟨hfree, rfl⟩, rfl, rfl⟩, hdeep⟩
      exact ⟨b, hbody, by simpa using hfree, hdeep⟩
    · rintro ⟨b, hbody, hfree, hdeep⟩
      exact ⟨_, _, ⟨b, hbody, _, ⟨by simp [hfree], rfl⟩, rfl, rfl⟩, hdeep⟩

theorem updateLoadTest_torn_iff (loadTestId : UUID) (body : Except Exn LoadTestBody) (expectedVersion : Nat) :
    (LoadTestCall.updateLoadTest loadTestId body expectedVersion).Atomic stack store ↔
      ¬ (LoadTestCall.updateLoadTest loadTestId body expectedVersion).Torn stack store := by
  refine (unchanged_iff (updateLoadTest_on stack store loadTestId body expectedVersion) ?_).trans (not_congr ?_)
  · rintro ⟨record, repo'⟩ hchecks - hsame
    simp only [bind_eq_ok_iff, pure_eq_ok_iff, LoadTestRepository.updateLoadTest, LoadTestRepository.getLoadTest_eq_ok,
      error_bind, ite_error_eq_ok_iff, Prod.mk.injEq] at hchecks
    obtain ⟨b, -, _, -, _, ⟨current, hcurrent, -, -, rfl⟩, -, rfl⟩ := hchecks
    have hrecord := congrArg (fun s : LoadTestStore => s.repo.definitions.get? loadTestId) hsame
    simp only [Dict.get?_set_self, hcurrent, Option.some.injEq] at hrecord
    have hversion := congrArg LoadTestRecord.stateVersion hrecord
    simp [LoadTestRecord.updated] at hversion
  · simp only [Torn, bind_eq_ok_iff, pure_eq_ok_iff, LoadTestRepository.updateLoadTest,
      LoadTestRepository.getLoadTest_eq_ok, getLoadTest_ok_iff, error_bind, ite_error_eq_ok_iff, Prod.exists,
      Prod.mk.injEq, deepcopy_error_iff]
    constructor
    · rintro ⟨record, repo', ⟨b, hbody, current, ⟨hcurrent, hfits⟩, _, ⟨current', hcurrent', hversion, howner, rfl⟩,
        rfl, rfl⟩, hdeep⟩
      obtain rfl := Option.some.inj (hcurrent.symm.trans hcurrent')
      refine ⟨b, current, hbody, hcurrent, hfits, by simpa using hversion, ?_, hdeep⟩
      intro other hother
      by_contra hne
      exact howner (by simp [hother, hne])
    · rintro ⟨b, current, hbody, hcurrent, hfits, hversion, howner, hdeep⟩
      refine ⟨_, _, ⟨b, hbody, current, ⟨hcurrent, hfits⟩, _, ⟨current, hcurrent, by simpa using hversion, ?_, rfl⟩,
        rfl, rfl⟩, hdeep⟩
      rw [Option.any_eq_true]
      rintro ⟨other, hother, hne⟩
      exact absurd (howner other hother) (by simpa using hne)

theorem createRun_torn_iff (newId loadTestId : UUID) :
    (LoadTestCall.createRun newId loadTestId).Atomic stack store ↔
      ¬ (LoadTestCall.createRun newId loadTestId).Torn stack store := by
  refine (unchanged_iff (createRun_on stack store newId loadTestId) ?_).trans (not_congr ?_)
  · rintro ⟨nesting, run, repo'⟩ hchecks - hsame
    simp only [bind_eq_ok_iff, pure_eq_ok_iff, LoadTestRepository.createRun, LoadTestRepository.getLoadTest_eq_ok,
      error_bind, ite_error_eq_ok_iff, Prod.exists, Prod.mk.injEq] at hchecks
    obtain ⟨_, -, _, _, ⟨definition, -, hinactive, rfl, rfl⟩, -, rfl, rfl⟩ := hchecks
    -- Had the run been there before, it would have been an active one.
    have hrun := congrArg (fun s : LoadTestStore => s.repo.runs.get? newId) hsame
    simp only [Dict.get?_set_self] at hrun
    exact LoadTestRepository.activeRun_eq_none (by simpa using hinactive) hrun.symm rfl rfl
  · simp only [Torn, bind_eq_ok_iff, pure_eq_ok_iff, LoadTestRepository.createRun,
      LoadTestRepository.getLoadTest_eq_ok, getLoadTest_ok_iff, error_bind, ite_error_eq_ok_iff, Prod.exists,
      Prod.mk.injEq, deepcopy_error_iff]
    constructor
    · rintro ⟨nesting, run, repo', ⟨definition, ⟨hdefinition, hfits⟩, _, _, ⟨_, -, hinactive, rfl, rfl⟩, rfl, rfl, rfl⟩,
        hdeep⟩
      exact ⟨definition, hdefinition, hfits, by simpa using hinactive, hdeep⟩
    · rintro ⟨definition, hdefinition, hfits, hinactive, hdeep⟩
      exact ⟨_, _, _, ⟨definition, ⟨hdefinition, hfits⟩, _, _, ⟨definition, hdefinition, by simp [hinactive], rfl, rfl⟩,
        rfl, rfl, rfl⟩, hdeep⟩

theorem addRunResponses_torn_iff (runId : UUID) (responses : List (Except Exn LoadTestResponse)) :
    (LoadTestCall.addRunResponses runId responses).Atomic stack store ↔
      ¬ (LoadTestCall.addRunResponses runId responses).Torn stack store := by
  refine (unchanged_iff (addRunResponses_on stack store runId responses) ?_).trans (not_congr ?_)
  · rintro ⟨records, repo'⟩ hchecks hraises hsame
    simp only [bind_eq_ok_iff, pure_eq_ok_iff, LoadTestRepository.addRunResponses, getRun_ok_iff, Prod.mk.injEq]
      at hchecks
    obtain ⟨_, ⟨-, hfits⟩, records, -, _, ⟨_, -, rfl⟩, rfl, rfl⟩ := hchecks
    have hdeep := deepcopy_error_iff.mp hraises
    -- The copy of no responses takes less room than that of the run.
    have hsome : records ≠ [] := by
      rintro rfl
      have hinner := stack.inner_le
      simp only [responsesNesting, runNesting, recordLevels, if_true] at hdeep hfits
      omega
    have hstored := congrArg (fun s : LoadTestStore => ((s.repo.responses.get? runId).getD []).length) hsame
    simp only [Dict.get?_set_self, Option.getD_some, List.length_insertionSort, List.length_append] at hstored
    exact hsome (List.length_eq_zero_iff.mp (by omega))
  · simp only [Torn, bind_eq_ok_iff, pure_eq_ok_iff, LoadTestRepository.addRunResponses,
      LoadTestRepository.getRun_eq_ok, getRun_ok_iff, Prod.exists, Prod.mk.injEq, deepcopy_error_iff]
    constructor
    · rintro ⟨_, repo', ⟨run, ⟨hrun, hfits⟩, records, hrecords, _, -, rfl, rfl⟩, hdeep⟩
      exact ⟨run, records, hrun, hfits, hrecords, hdeep⟩
    · rintro ⟨run, records, hrun, hfits, hrecords, hdeep⟩
      exact ⟨_, _, ⟨run, ⟨hrun, hfits⟩, records, hrecords, _, ⟨run, hrun, rfl⟩, rfl, rfl⟩, hdeep⟩

theorem updateRun_torn_iff (runId : UUID) (status : LoadTestRunStatus) (metrics : Metrics) (nesting : Nat)
    (errorMessage : Option String) (finishedAt : Option Instant) :
    (LoadTestCall.updateRun runId status metrics nesting errorMessage finishedAt).Atomic stack store ↔
      ¬ (LoadTestCall.updateRun runId status metrics nesting errorMessage finishedAt).Torn stack store := by
  have hon := updateRun_on stack store runId status metrics nesting errorMessage finishedAt
  cases hrun : getRun stack store runId with
  | error e =>
    simp only [hrun] at hon
    have hkept : (outcome (LoadTestStore.updateRun stack runId status metrics nesting errorMessage finishedAt)
        store).2 = store := congrArg Prod.snd hon
    refine iff_of_true (fun _ => hkept) ?_
    rintro ⟨run, hfound, hfits, -⟩
    rw [getRun_ok_iff.mpr ⟨hfound, hfits⟩] at hrun
    cases hrun
  | ok current =>
    simp only [hrun] at hon
    obtain ⟨hfound, hfits⟩ := getRun_ok_iff.mp hrun
    split at hon
    · next hfinal =>
      have hkept : (outcome (LoadTestStore.updateRun stack runId status metrics nesting errorMessage finishedAt)
          store).2 = store := congrArg Prod.snd hon
      refine iff_of_true (fun _ => hkept) ?_
      rintro ⟨run, hfound', -, hrunning, -⟩
      obtain rfl := Option.some.inj (hfound.symm.trans hfound')
      exact hfinal hrunning
    · next hrunning =>
      have hstatus : current.status = .running := by simpa using hrunning
      refine (unchanged_iff hon ?_).trans (not_congr ?_)
      · rintro ⟨updated, repo'⟩ hchecks hraises hsame
        have hdeep := deepcopy_error_iff.mp hraises
        have hdepth := congrArg (fun s : LoadTestStore => s.metricsNesting runId) hsame
        simp only [metricsNesting, Dict.get?_set_self, Option.getD_some] at hdepth
        have hinner := stack.inner_le
        simp only [metricsNesting, ← hdepth] at hfits
        omega
      · simp only [Torn, bind_eq_ok_iff, pure_eq_ok_iff, Prod.exists, Prod.mk.injEq, deepcopy_error_iff]
        constructor
        · rintro ⟨_, _, ⟨copy, hcopied, _, -, -, -⟩, hdeep⟩
          refine ⟨current, hfound, hfits, hstatus, ?_, hdeep⟩
          by_contra hlarge
          have hraises : ∃ e, deepcopy stack.room nesting metrics = .error e :=
            deepcopy_error_iff.mpr (not_le.mp hlarge)
          obtain ⟨e, he⟩ := hraises
          rw [he] at hcopied
          cases hcopied
        · rintro ⟨_, -, -, -, hcopied, hdeep⟩
          have hstored : ∃ repo', store.repo.updateRun runId status metrics errorMessage finishedAt = .ok repo' := by
            simp only [LoadTestRepository.updateRun, LoadTestRepository.getRun_eq_ok.mpr hfound, ok_bind,
              if_neg hrunning]
            exact ⟨_, rfl⟩
          obtain ⟨repo', hrepo⟩ := hstored
          exact ⟨_, repo', ⟨metrics, if_pos hcopied, repo', hrepo, rfl, rfl⟩, hdeep⟩

theorem recoverRunningRuns_torn_iff (message : String) (now : Instant) :
    (LoadTestCall.recoverRunningRuns message now).Atomic stack store ↔
      ¬ (LoadTestCall.recoverRunningRuns message now).Torn stack store := by
  simp only [Atomic, on, outcome, recoverRunningRuns_on, Torn]
  cases hids : store.repo.runningIds with
  | nil => simp
  | cons first rest =>
    by_cases hfirst : store.metricsNesting first ≤ stack.room
    · rw [← hids]
      -- The first run is recovered, so the store is another.
      have hchanged : ({ store with
          repo := (store.repo.runningIds.takeWhile fun id => store.metricsNesting id ≤ stack.room).foldl
            (·.recoverRun message now) store.repo } : LoadTestStore) ≠ store := by
        intro hsame
        obtain ⟨run, hrun, hrunning⟩ := LoadTestRepository.mem_runningIds.mp (hids ▸ List.mem_cons_self)
        have hmem : first ∈ store.repo.runningIds.takeWhile fun id => store.metricsNesting id ≤ stack.room := by
          simp [hids, hfirst]
        have hafter := congrArg (fun s : LoadTestStore => s.repo.runs.get? first) hsame
        simp only [LoadTestRepository.recovered_runs, hmem, hrun, if_true, Option.map_some, Option.some.injEq] at hafter
        rw [← hafter] at hrunning
        cases hrunning
      constructor
      · rintro hkept ⟨_, -, -, later, hlater, hdeep⟩
        refine hchanged (hkept ⟨recursionError, ?_⟩)
        have hnot : ¬ ∀ id ∈ store.repo.runningIds, store.metricsNesting id ≤ stack.room :=
          fun h => absurd (h later hlater) (not_le.mpr hdeep)
        rw [if_neg hnot]
        rfl
      · rintro hfits ⟨e, he⟩
        split at he
        · cases he
        · next hsome =>
          push Not at hsome
          exact absurd ⟨first, by rw [hids]; rfl, hfirst, hsome⟩ hfits
    · simp [hfirst]

/-- A call that raises changes nothing, unless it is torn. -/
theorem torn_iff (stack : Stack) (store : LoadTestStore) (call : LoadTestCall) :
    call.Atomic stack store ↔ ¬ call.Torn stack store := by
  cases call with
  | createLoadTest newId projectId body => exact createLoadTest_torn_iff newId projectId body
  | updateLoadTest loadTestId body expectedVersion => exact updateLoadTest_torn_iff loadTestId body expectedVersion
  | deleteLoadTest loadTestId =>
    refine (unchanged_iff (deleteLoadTest_on stack store loadTestId) ?_).trans (not_congr ?_)
    · rintro a - ⟨e, ⟨⟩⟩
    · simp [Torn]
  | createRun newId loadTestId => exact createRun_torn_iff newId loadTestId
  | addRunResponses runId responses => exact addRunResponses_torn_iff runId responses
  | updateRun runId status metrics nesting errorMessage finishedAt =>
    exact updateRun_torn_iff runId status metrics nesting errorMessage finishedAt
  | recoverRunningRuns message now => exact recoverRunningRuns_torn_iff message now

end LoadTestCall

end SmartTest.Load
