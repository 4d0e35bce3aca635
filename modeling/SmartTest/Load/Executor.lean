import SmartTest.Lib.Crew
import SmartTest.Load.Service

/-!
# The workers of an execution

`LoadTestExecutor.execute` and `_execute_scenarios` of `services/api/load_test_executor.py`.
Both start workers that repeat: take a piece of work under the lock, send a request, count
it, hand the response to the service and now and then a snapshot. What a worker does between
two reports is its control; the report is the same for both.
-/

open SmartTest.Lib SmartTest.Run

namespace SmartTest.Load

/-- What a request came to: `status, success, error, response`. -/
structure Answer where
  success : Bool
  status : Option Int
  error : Option String
  details : ResponseDetails

/-- `_response_record`. -/
def responseRecord (sequence : Nat) (target : String) (answer : Answer) : LoadTestResponse where
  toResponseDetails := answer.details
  sequence := sequence
  target := target
  successful := answer.success
  status := answer.status
  error := answer.error

/-- Where a worker stands. With `k` it goes on after the report; `writing` holds `snapshot_lock`. -/
inductive Worker (κ : Type) where
  | own (k : κ)
  | counting (target : String) (answer : Answer) (k : κ)
  | responding (item : LoadTestResponse) (k : κ)
  | closing (success : Bool) (k : κ)
  | polling (k : κ)
  | snapping (metrics : Metrics) (k : κ)
  | writing (k : κ)
  | returned
  | escaped (e : Raised)

/-- What a worker does next of its own: go on, report a request, end a scenario, look whether a snapshot is due,
return, or let an exception through. -/
inductive Next (κ : Type) where
  | goto (k : κ)
  | report (target : String) (answer : Answer) (k : κ)
  | close (success : Bool) (k : κ)
  | poll (k : κ)
  | done
  | escape (e : Raised)

def Next.worker {κ : Type} : Next κ → Worker κ
  | .goto k => .own k
  | .report target answer k => .counting target answer k
  | .close success k => .closing success k
  | .poll k => .polling k
  | .done => .returned
  | .escape e => .escaped e

/-- The control of the workers: `γ` is what they share, `ι` what they do not decide. A step is told the number of
the worker and whether the flag is set. -/
structure Control (γ κ ι : Type) where
  start : κ
  step : Nat → Bool → γ → κ → ι → Option (γ × Next κ)

/-- The executor with the service it reports to. `workers` is `none` before the pool exists, and `recorded` are
the responses that have been counted. -/
structure Running (γ κ : Type) where
  service : Execution
  shared : γ
  metrics : Metrics
  workers : Option (List (Worker κ))
  recorded : List LoadTestResponse

/-- One move of one worker: its number, the choice of its control, and whether a second has passed since the last
snapshot. -/
structure Move (ι : Type) where
  worker : Nat
  choice : ι
  due : Bool

/-- Whether the repository raises in `responses`: what it raises goes through the worker that called. -/
def Execution.respondRaises (runId : UUID) (x : Execution) (item : LoadTestResponse) : Bool :=
  let pending := x.pending ++ [item]
  decide (pending.length ≥ FLUSH_AT) && (x.repo.addRunResponses runId pending).toOption.isNone

/-- Whether the repository raises in `snapshot`. -/
def Execution.snapshotRaises (runId : UUID) (x : Execution) : Bool :=
  x.checked.any fun metrics => (x.repo.updateRun runId .running metrics none none).toOption.isNone

namespace Running

variable {γ κ ι : Type} (control : Control γ κ ι) (runId : UUID)

/-- A worker in its new place. -/
def put (x : Running γ κ) (crew : List (Worker κ)) (i : Nat) (w : Worker κ) : Running γ κ :=
  { x with workers := some (crew.set i w) }

/-- The move of a worker that stands at `w`. -/
def moveAt (x : Running γ κ) (crew : List (Worker κ)) (m : Move ι) : Worker κ → Option (Running γ κ)
  | .own k => do
    let (shared, next) ← control.step m.worker x.service.cancelled x.shared k m.choice
    return { x.put crew m.worker next.worker with shared := shared }
  | .counting target answer k =>
    let metrics := x.metrics.add target answer.success answer.status answer.error
    let item := responseRecord metrics.totalRequests target answer
    some { x.put crew m.worker (.responding item k) with metrics := metrics, recorded := x.recorded ++ [item] }
  | .responding item k => do
    let service ← x.service.step runId (.respond item false)
    let next := if x.service.respondRaises runId item then .escaped .exception else .polling k
    return { x.put crew m.worker next with service := service }
  | .closing success k =>
    some { x.put crew m.worker (.polling k) with metrics := x.metrics.addScenario success }
  | .polling k => some (x.put crew m.worker (if m.due then .snapping x.metrics k else .own k))
  | .snapping metrics k => do
    let service ← x.service.step runId (.checkSnapshot metrics)
    return { x.put crew m.worker (if service.checked.isSome then .writing k else .own k) with service := service }
  | .writing k => do
    let service ← x.service.step runId .writeSnapshot
    let next := if x.service.snapshotRaises runId then .escaped .exception else .own k
    return { x.put crew m.worker next with service := service }
  | .returned | .escaped _ => none

/-- One move of one worker. -/
def move (x : Running γ κ) (m : Move ι) : Option (Running γ κ) := do
  let crew ← x.workers
  let w ← crew[m.worker]?
  x.moveAt control runId crew m w

def ended : Worker κ → Bool
  | .returned | .escaped _ => true
  | _ => false

variable {control runId}

/-- Everything a worker can do, by where it stands. -/
inductive Moved (control : Control γ κ ι) (runId : UUID) (x : Running γ κ) (crew : List (Worker κ)) (m : Move ι) :
    Worker κ → Running γ κ → Prop
  | own {k : κ} {shared : γ} {next : Next κ}
      (h : control.step m.worker x.service.cancelled x.shared k m.choice = some (shared, next)) :
      Moved control runId x crew m (.own k) { x.put crew m.worker next.worker with shared := shared }
  | count (target : String) (answer : Answer) (k : κ) (metrics : Metrics)
      (h : metrics = x.metrics.add target answer.success answer.status answer.error) :
      Moved control runId x crew m (.counting target answer k)
        { x.put crew m.worker (.responding (responseRecord metrics.totalRequests target answer) k) with
          metrics := metrics
          recorded := x.recorded ++ [responseRecord metrics.totalRequests target answer] }
  | respond (item : LoadTestResponse) (k : κ) (service : Execution)
      (h : x.service.step runId (.respond item false) = some service) :
      Moved control runId x crew m (.responding item k)
        { x.put crew m.worker (if x.service.respondRaises runId item then .escaped .exception else .polling k) with
          service := service }
  | close (success : Bool) (k : κ) : Moved control runId x crew m (.closing success k)
      { x.put crew m.worker (.polling k) with metrics := x.metrics.addScenario success }
  | poll (k : κ) : Moved control runId x crew m (.polling k)
      (x.put crew m.worker (if m.due then .snapping x.metrics k else .own k))
  | snap (metrics : Metrics) (k : κ) (service : Execution)
      (h : x.service.step runId (.checkSnapshot metrics) = some service) :
      Moved control runId x crew m (.snapping metrics k)
        { x.put crew m.worker (if service.checked.isSome then .writing k else .own k) with service := service }
  | write (k : κ) (service : Execution) (h : x.service.step runId .writeSnapshot = some service) :
      Moved control runId x crew m (.writing k)
        { x.put crew m.worker (if x.service.snapshotRaises runId then .escaped .exception else .own k) with
          service := service }

theorem move_cases {x y : Running γ κ} {m : Move ι} (h : x.move control runId m = some y) :
    ∃ crew w, x.workers = some crew ∧ crew[m.worker]? = some w ∧ Moved control runId x crew m w y := by
  simp only [move, Option.bind_eq_bind, Option.bind_eq_some_iff] at h
  obtain ⟨crew, hcrew, w, hw, h⟩ := h
  refine ⟨crew, w, hcrew, hw, ?_⟩
  cases w with
  | own k =>
    simp only [moveAt, Option.bind_eq_bind, Option.bind_eq_some_iff] at h
    obtain ⟨⟨shared, next⟩, hstep, h⟩ := h
    obtain rfl := Option.some.inj h
    exact .own hstep
  | counting target answer k =>
    obtain rfl := Option.some.inj h
    exact .count target answer k _ rfl
  | responding item k =>
    simp only [moveAt, Option.bind_eq_bind, Option.bind_eq_some_iff] at h
    obtain ⟨service, hstep, h⟩ := h
    obtain rfl := Option.some.inj h
    exact .respond item k service hstep
  | closing success k =>
    obtain rfl := Option.some.inj h
    exact .close success k
  | polling k =>
    obtain rfl := Option.some.inj h
    exact .poll k
  | snapping metrics k =>
    simp only [moveAt, Option.bind_eq_bind, Option.bind_eq_some_iff] at h
    obtain ⟨service, hstep, h⟩ := h
    obtain rfl := Option.some.inj h
    exact .snap metrics k service hstep
  | writing k =>
    simp only [moveAt, Option.bind_eq_bind, Option.bind_eq_some_iff] at h
    obtain ⟨service, hstep, h⟩ := h
    obtain rfl := Option.some.inj h
    exact .write k service hstep
  | returned => cases h
  | escaped e => cases h

end Running

/-! ## Requests -/

/-- Where a worker stands between two reports. -/
inductive RequestControl where
  | top
  | claiming
  | request (index : Nat)
  | recheck
  | delay
  deriving DecidableEq

/-- `claims` are the indices that were taken, each with the worker that took it, and `attempted` those whose attempt
is over, each with its target, whether or not anything was sent. -/
structure RequestShared where
  sequence : Nat
  claims : List (Nat × Nat)
  attempted : List (Nat × String)

/-- What a worker does not decide: whether the deadline has passed, and what the request came to. -/
structure RequestChoice where
  late : Bool
  answer : Except Raised Answer

/-- `definition.targets[index % len(definition.targets)]`. -/
def LoadTestRecord.targetAt (definition : LoadTestRecord) (index : Nat) : LoadTestTarget :=
  definition.targets.get ⟨index % definition.targets.length, Nat.mod_lt _ definition.targets_count.1⟩

/-- `worker` of `execute`. -/
def requestControl (definition : LoadTestRecord) : Control RequestShared RequestControl RequestChoice where
  start := .top
  step w cancelled shared k choice :=
    match k with
    | .top => some (shared, if cancelled then .done else .goto .claiming)
    | .claiming =>
      if definition.mode = .count ∧ shared.sequence ≥ definition.requestCount then some (shared, .done)
      else if definition.mode = .duration ∧ choice.late then some (shared, .done)
      else some ({ shared with
        sequence := shared.sequence + 1, claims := shared.claims ++ [(w, shared.sequence)] },
        .goto (.request shared.sequence))
    | .request index =>
      match choice.answer with
      | .error e => some (shared, .escape e)
      | .ok answer =>
        let name := (definition.targetAt index).name
        some ({ shared with attempted := shared.attempted ++ [(index, name)] }, .report name answer .recheck)
    | .recheck =>
      if definition.mode = .count ∧ shared.sequence ≥ definition.requestCount then some (shared, .done)
      else some (shared, .goto .delay)
    | .delay =>
      -- In `DURATION` mode the wait is cut at the deadline, and none is left past it.
      if definition.intervalMs ≠ 0 ∧ ¬ (definition.mode = .duration ∧ choice.late) ∧ cancelled then some (shared, .done)
      else some (shared, .goto .top)

/-! ## Scenarios -/

/-- Where a worker of `_execute_scenarios` stands: before target `i` of a scenario, in its request, after its report,
or at the end of the scenario. -/
inductive ScenarioControl where
  | top
  | claiming
  | target (scenario i : Nat) (vars : Dict String Json) (success : Bool)
  | request (scenario i : Nat) (vars : Dict String Json) (success : Bool)
  | reported (scenario i : Nat) (vars : Dict String Json) (success : Bool) (answered : Bool)
  | ending (scenario : Nat) (success : Bool) (completed : Bool)
  | recheck
  | delay

/-- `history` has the targets each scenario has executed, with their success, and `finished` the scenarios that
are counted. -/
structure ScenarioShared where
  sequence : Nat
  history : Nat → List (Nat × Bool)
  finished : List Nat

structure ScenarioChoice (δ : Type) where
  late : Bool
  draws : δ

/-- `worker` of `_execute_scenarios`. `perform` is one step of a scenario: it renders the target and sends it, and
returns what it came to with what was extracted. -/
def scenarioControl {δ : Type} (definition : LoadTestRecord)
    (perform : LoadTestTarget → Dict String Json → Nat → δ → Except Raised (Answer × Dict String Json)) :
    Control ScenarioShared ScenarioControl (ScenarioChoice δ) where
  start := .top
  step _ cancelled shared k choice :=
    let late := definition.mode = .duration ∧ choice.late = true
    match k with
    | .top => some (shared, if cancelled then .done else .goto .claiming)
    | .claiming =>
      if definition.mode = .count ∧ shared.sequence ≥ definition.requestCount then some (shared, .done)
      else if late then some (shared, .done)
      else some ({ shared with sequence := shared.sequence + 1 },
        .goto (.target (shared.sequence + 1) 0 definition.initialVariables true))
    | .target scenario i vars success =>
      if i ≥ definition.targets.length then some (shared, .goto (.ending scenario success true))
      else if cancelled ∨ late then some (shared, .goto (.ending scenario success false))
      else some (shared, .goto (.request scenario i vars success))
    | .request scenario i vars success => do
      let target ← definition.targets[i]?
      match perform target vars scenario choice.draws with
      | .error e => some (shared, .escape e)
      | .ok (answer, extracted) =>
        let vars := if answer.success then vars.update extracted else vars
        let executed := shared.history scenario ++ [(i, answer.success)]
        some ({ shared with history := Function.update shared.history scenario executed },
          .report target.name answer (.reported scenario i vars (success && answer.success) answer.success))
    | .reported scenario i vars success answered => do
      let target ← definition.targets[i]?
      if answered = false ∧ definition.stopOnFailure = true then some (shared, .goto (.ending scenario success true))
      else if target.thinkTimeMs ≠ 0 ∧ ¬ late ∧ cancelled then some (shared, .goto (.ending scenario success false))
      else if late ∧ i + 1 < definition.targets.length then some (shared, .goto (.ending scenario success false))
      else some (shared, .goto (.target scenario (i + 1) vars success))
    | .ending scenario success completed =>
      if completed then some ({ shared with finished := shared.finished ++ [scenario] }, .close success .recheck)
      else some (shared, .poll .recheck)
    | .recheck =>
      if cancelled then some (shared, .done)
      else if definition.mode = .count ∧ shared.sequence ≥ definition.requestCount then some (shared, .done)
      else some (shared, .goto .delay)
    | .delay =>
      if definition.intervalMs ≠ 0 ∧ ¬ late ∧ cancelled then some (shared, .done) else some (shared, .goto .top)

/-! ## The whole execution -/

def workerCount (definition : LoadTestRecord) (maxWorkers : Nat) : Nat :=
  let workers := min definition.concurrency maxWorkers
  if definition.mode = .count then min workers definition.requestCount else workers

theorem workerCount_pos (definition : LoadTestRecord) {maxWorkers : Nat} (h : 1 ≤ maxWorkers) :
    1 ≤ workerCount definition maxWorkers := by
  have hconcurrency := definition.concurrency_range.1
  have hcount := definition.requestCount_range.1
  unfold workerCount
  dsimp only
  split <;> omega

/-- `fail` is an exception before the pool exists, `join` the end of all workers. -/
inductive Label (ι : Type) where
  | launch
  | worker (m : Move ι)
  | fail (e : Raised)
  | join
  | main (e : Event)

/-- The steps of `_execute` and `cancel_run` themselves: the callbacks are moves of workers. -/
def Event.own : Event → Bool
  | .respond _ _ | .checkSnapshot _ | .writeSnapshot | .finish _ => false
  | _ => true

namespace Running

variable {γ κ ι : Type} (control : Control γ κ ι) (runId : UUID) (workers : Nat)

/-- The first exception of a worker, or the metrics when every worker has returned. -/
def outcome (x : Running γ κ) (crew : List (Worker κ)) : Except Raised Metrics :=
  match crew.findSome? (fun | .escaped e => some e | _ => none) with
  | some e => .error e
  | none => .ok x.metrics

def onService (x : Running γ κ) (e : Event) : Option (Running γ κ) :=
  (x.service.step runId e).map fun service => { x with service := service }

/-- One step of the whole: the pool is made, a worker moves, the executor ends, or `_execute` or a `cancel_run`
takes a step. -/
def step (x : Running γ κ) : Label ι → Option (Running γ κ)
  | .launch =>
    match x.service.stage, x.workers with
    | .executing, none => some { x with workers := some (List.replicate workers (.own control.start)) }
    | _, _ => none
  | .worker m => x.move control runId m
  | .fail e => if x.workers.isNone then x.onService runId (.finish (.error e)) else none
  | .join => do
    let crew ← x.workers
    if crew.all ended then x.onService runId (.finish (x.outcome crew)) else none
  | .main e => if e.own then x.onService runId e else none

end Running

end SmartTest.Load
