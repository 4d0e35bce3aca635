import Mathlib.Logic.Relation
import SmartTest.Lib.Prog
import SmartTest.Load.Convergence

/-!
# Starting a load test run

`LoadTestService.start_run`. It reads the definition in one transaction and creates the run
in another, and edits of the load test may land between the two: the lock of the service
covers neither.
-/

open SmartTest.Lib SmartTest.Run

namespace SmartTest.Load

/-- `submitted` are the calls of `_execute` in the pool, with the definition each was handed. -/
structure LoadTestService where
  repo : LoadTestRepository
  cancellations : Dict UUID Bool
  stopped : Bool
  poolOpen : Bool
  submitted : List (UUID × LoadTestRecord)

inductive StartStep where
  | getLoadTest | checkStopped | createRun | submit | getRun | updateRun
  deriving DecidableEq

abbrev Start := Prog StartStep LoadTestService Exn

/-- A call of the repository that only reads. -/
def readRepo {α : Type} (label : StartStep) (f : LoadTestRepository → Except Exn α) : Start α :=
  .op label fun s => (f s.repo, s)

def checkStopped : Start Unit :=
  .op .checkStopped fun s =>
    (if s.stopped then .error ⟨.other "RuntimeError", "Load test execution unavailable"⟩ else .ok (), s)

def createRun (newId loadTestId : UUID) : Start LoadTestRunRecord :=
  .op .createRun fun s =>
    match s.repo.createRun newId loadTestId with
    | .ok (run, repo) => (.ok run, { s with repo := repo })
    | .error e => (.error e, s)

/-- The flag is registered and `_execute` is submitted; a pool that is shut down refuses it. -/
def submit (runId : UUID) (definition : LoadTestRecord) : Start Bool :=
  .op .submit fun s =>
    if s.poolOpen then
      (.ok true, { s with
        cancellations := s.cancellations.set runId false, submitted := s.submitted ++ [(runId, definition)] })
    else (.ok false, { s with cancellations := s.cancellations.erase runId })

/-- `_fail`. -/
def fail (runId : UUID) (message : String) (now : Instant) : Start Unit := do
  let run ← readRepo .getRun (·.getRun runId)
  .op .updateRun fun s =>
    match s.repo.updateRun runId .failed run.metrics (some message) (some now) with
    | .ok repo => (.ok (), { s with repo := repo })
    | .error e => (.error e, s)

def startRun (newId loadTestId : UUID) (now : Instant) : Start LoadTestRunRecord := do
  let definition ← readRepo .getLoadTest (·.getLoadTest loadTestId)
  checkStopped
  let run ← createRun newId loadTestId
  let submitted ← submit run.id definition
  if submitted then return run
  fail run.id "Load test execution unavailable" now
  readRepo .getRun (·.getRun run.id)

/-! ## Edits by others -/

/-- One accepted `update_load_test` or `delete_load_test`. -/
inductive Edit (loadTestId : UUID) (s : LoadTestService) : LoadTestService → Prop
  | update (body : LoadTestBody) (expectedVersion : Nat) (repo : LoadTestRepository)
      (h : s.repo.updateLoadTest loadTestId body expectedVersion = .ok repo) : Edit loadTestId s { s with repo := repo }
  | delete (repo : LoadTestRepository) (h : s.repo.deleteLoadTest loadTestId = .ok repo) :
      Edit loadTestId s { s with repo := repo }

/-- Any number of them. -/
def Edited (loadTestId : UUID) : LoadTestService → LoadTestService → Prop := Relation.ReflTransGen (Edit loadTestId)

theorem Edited.submitted {loadTestId : UUID} {s s' : LoadTestService} (h : Edited loadTestId s s') :
    s'.submitted = s.submitted := by
  induction h with
  | refl => rfl
  | tail _ hedit ih =>
    rw [← ih]
    cases hedit with
    | update | delete => rfl

/-! ## What the executor is handed -/

theorem keys_empty_targets {names : List String} (h : names.Nodup) : (Metrics.empty names).targets.keys = names := by
  have hentries := Dict.entries_foldl_set id (fun _ => MetricValues.empty) names (Dict.empty : Dict String MetricValues)
    (by simpa using h) (by simp)
  have hempty : (Dict.empty : Dict String MetricValues).entries = [] := rfl
  simp only [Metrics.empty, Dict.keys]
  simp only [id_eq] at hentries
  rw [hentries, hempty, List.nil_append, List.map_map]
  exact List.map_id names

theorem getLoadTest_ok {repo : LoadTestRepository} {loadTestId : UUID} {definition : LoadTestRecord}
    (h : repo.getLoadTest loadTestId = .ok definition) : repo.definitions.get? loadTestId = some definition := by
  unfold LoadTestRepository.getLoadTest at h
  split at h
  · next record hrecord => rw [hrecord, Except.ok.inj h]
  · cases h

theorem createRun_ok {repo repo' : LoadTestRepository} {newId loadTestId : UUID} {run : LoadTestRunRecord}
    (h : repo.createRun newId loadTestId = .ok (run, repo')) :
    ∃ definition, repo.definitions.get? loadTestId = some definition ∧ run.id = newId ∧
      run.mode = definition.mode ∧ run.metrics.targets.keys = definition.targetNames := by
  simp only [LoadTestRepository.createRun, bind_eq_ok_iff, error_bind, ite_error_eq_ok_iff, pure_eq_ok_iff,
    Prod.mk.injEq] at h
  obtain ⟨definition, hdefinition, -, rfl, -⟩ := h
  exact ⟨definition, getLoadTest_ok hdefinition, rfl, rfl, keys_empty_targets definition.targets_nodup⟩

/-- Where the pool refuses, nothing is submitted. -/
theorem refused_keeps (l : List (UUID × LoadTestRecord)) (runId : UUID) (now : Instant) :
    Prog.All (fun _ act => ∀ s : LoadTestService, s.submitted = l → (act s).submitted = l)
      ((do
        fail runId "Load test execution unavailable" now
        readRepo .getRun (·.getRun runId)) : Start LoadTestRunRecord) := by
  refine .bind (.bind (.op fun s hs => hs) fun run => .op fun s hs => ?_) fun _ => .op fun s hs => hs
  dsimp only
  split <;> exact hs

/-- A start that is accepted by the pool: it hands over what it read, and the run has the shape of what was
stored when it was created. -/
theorem startRun_runs {newId loadTestId : UUID} {now : Instant} {s s' : LoadTestService}
    {trace : List (Seen StartStep LoadTestService)} {run : LoadTestRunRecord}
    (h : Prog.Runs (Edited loadTestId) (startRun newId loadTestId now) s trace (.ok run) s')
    {definition : LoadTestRecord} (hnew : (newId, definition) ∉ s.submitted)
    (hhanded : (newId, definition) ∈ s'.submitted) :
    ∃ s₁ s₂ s₃ created, ⟨.getLoadTest, s₁, s₁⟩ ∈ trace ∧ ⟨.createRun, s₂, s₃⟩ ∈ trace ∧
      s₁.repo.definitions.get? loadTestId = some definition ∧ s₂.repo.definitions.get? loadTestId = some created ∧
      run.mode = created.mode ∧ run.metrics.targets.keys = created.targetNames := by
  obtain ⟨s₁, found, rest₁, hs₁, hread, rfl, h₁⟩ := Prog.Runs.op_bind h
  obtain ⟨u, _, rest₂, hu, -, rfl, h₂⟩ := Prog.Runs.op_bind h₁
  obtain ⟨s₂, created, rest₃, hs₂, hcreate, rfl, h₃⟩ := Prog.Runs.op_bind h₂
  obtain ⟨v, accepted, rest₄, hv, haccepted, rfl, h₄⟩ := Prog.Runs.op_bind h₃
  dsimp only at hread hcreate haccepted
  have hdefinition := getLoadTest_ok hread
  cases hok : s₂.repo.createRun newId loadTestId with
  | error e => simp [hok] at hcreate
  | ok pair =>
    obtain ⟨run', repo⟩ := pair
    simp only [hok, Except.ok.injEq] at hcreate hv
    subst hcreate
    obtain ⟨shape, hshape, hid, hmode, hkeys⟩ := createRun_ok hok
    have hsubmitted : v.submitted = s.submitted := by
      rw [hv.submitted]
      exact hs₂.submitted.trans (hu.submitted.trans hs₁.submitted)
    cases hopen : v.poolOpen with
    | true =>
      simp only [hopen, if_true, Except.ok.injEq] at haccepted h₄
      subst haccepted
      cases h₄ with
      | ret =>
        have hhere : definition = found := by
          simp only [hsubmitted, List.mem_append, List.mem_singleton, Prod.mk.injEq] at hhanded
          rcases hhanded with hold | ⟨-, heq⟩
          · exact absurd hold hnew
          · exact heq
        subst hhere
        exact ⟨s₁, s₂, _, shape, List.mem_cons_self,
          List.mem_cons_of_mem _ (List.mem_cons_of_mem _ List.mem_cons_self), hdefinition, hshape, hmode, hkeys⟩
    | false =>
      simp only [hopen, Bool.false_eq_true, if_false, Except.ok.injEq] at haccepted h₄
      subst haccepted
      have hkept : s'.submitted = s.submitted :=
        (refused_keeps s.submitted run'.id now).runs_keeps (fun _ _ hedit hl => hedit.submitted.trans hl) h₄ hsubmitted
      rw [hkept] at hhanded
      exact absurd hhanded hnew

/-- The executor is handed the definition the run was created from, by mode and target names, exactly if what
was stored has the same mode and names at the creation as at the read before it. -/
theorem handed_definition_iff {newId loadTestId : UUID} {now : Instant} {s s' : LoadTestService}
    {trace : List (Seen StartStep LoadTestService)} {run : LoadTestRunRecord}
    (h : Prog.Runs (Edited loadTestId) (startRun newId loadTestId now) s trace (.ok run) s')
    {definition : LoadTestRecord} (hnew : (newId, definition) ∉ s.submitted)
    (hhanded : (newId, definition) ∈ s'.submitted) :
    ∃ s₁ s₂ s₃ atRead atCreation, ⟨.getLoadTest, s₁, s₁⟩ ∈ trace ∧ ⟨.createRun, s₂, s₃⟩ ∈ trace ∧
      s₁.repo.definitions.get? loadTestId = some atRead ∧ s₂.repo.definitions.get? loadTestId = some atCreation ∧
      ((definition.mode = run.mode ∧ definition.targetNames = run.metrics.targets.keys) ↔
        (atRead.mode = atCreation.mode ∧ atRead.targetNames = atCreation.targetNames)) := by
  obtain ⟨s₁, s₂, s₃, created, hread, hcreate, hdefinition, hcreated, hmode, hkeys⟩ := startRun_runs h hnew hhanded
  refine ⟨s₁, s₂, s₃, definition, created, hread, hcreate, hdefinition, hcreated, ?_⟩
  rw [hmode, hkeys]

/-! ## An edit in between -/

def pingService : LoadTestService where
  repo := { Execution.pingRepo with runs := .empty, responses := .empty }
  cancellations := .empty
  stopped := false
  poolOpen := true
  submitted := []

def pongTarget : LoadTestTarget := { Execution.pingTarget with name := "pong", name_plain := by decide }

/-- The target gets another name. -/
def pongBody : LoadTestBody where
  name := "ping"
  targets := [pongTarget]
  mode := .duration
  requestCount := 2
  durationSeconds := 1
  concurrency := 1
  intervalMs := 0
  trafficMode := .requests
  initialVariables := .empty
  stopOnFailure := true
  targets_count := by decide
  targets_nodup := by decide
  requestCount_range := Execution.pingTest.requestCount_range
  concurrency_range := Execution.pingTest.concurrency_range

/-- `update_load_test` in a moment of its own. -/
def editAt (moment : Nat) (n : Nat) (s : LoadTestService) : LoadTestService :=
  if n = moment then
    match s.repo.updateLoadTest ⟨"t"⟩ pongBody 0 with
    | .ok repo => { s with repo := repo }
    | .error _ => s
  else s

theorem edited_editAt (moment n : Nat) (s : LoadTestService) : Edited ⟨"t"⟩ s (editAt moment n s) := by
  unfold editAt
  split
  · split
    · next repo h => exact .single (.update pongBody 0 repo h)
    · exact .refl
  · exact .refl

/-- The edit lands before the run is created: the run has the new shape, the executor the old definition. -/
theorem edited_between : ∃ trace run s' definition,
    Prog.Runs (Edited ⟨"t"⟩) (startRun ⟨"r"⟩ ⟨"t"⟩ 0) pingService trace (.ok run) s' ∧
      (⟨"r"⟩, definition) ∈ s'.submitted ∧ definition.mode = .count ∧ run.mode = .duration ∧
      definition.targetNames = ["ping"] ∧ run.metrics.targets.keys = ["pong"] := by
  have hrun := Prog.runs_runWith (edited_editAt 2) (startRun ⟨"r"⟩ ⟨"t"⟩ 0) 0 pingService
  exact ⟨_, _, _, Execution.pingTest, hrun, List.mem_singleton.mpr rfl, rfl, rfl, rfl, rfl⟩

/-- Without one, both have the same shape. -/
theorem unedited_start : ∃ trace run s', ∃ definition : LoadTestRecord,
    Prog.Runs (Edited ⟨"t"⟩) (startRun ⟨"r"⟩ ⟨"t"⟩ 0) pingService trace (.ok run) s' ∧
      ∃ s₁ s₂ s₃ atRead atCreation, ⟨.getLoadTest, s₁, s₁⟩ ∈ trace ∧ ⟨.createRun, s₂, s₃⟩ ∈ trace ∧
        s₁.repo.definitions.get? ⟨"t"⟩ = some atRead ∧ s₂.repo.definitions.get? ⟨"t"⟩ = some atCreation ∧
        ((definition.mode = run.mode ∧ definition.targetNames = run.metrics.targets.keys) ↔
          (atRead.mode = atCreation.mode ∧ atRead.targetNames = atCreation.targetNames)) := by
  have hrun := Prog.runs_runWith (edited_editAt 9) (startRun ⟨"r"⟩ ⟨"t"⟩ 0) 0 pingService
  exact ⟨_, _, _, Execution.pingTest, hrun,
    handed_definition_iff hrun (by simp [pingService]) (List.mem_singleton.mpr rfl)⟩

end SmartTest.Load
