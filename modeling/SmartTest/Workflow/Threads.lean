import SmartTest.Lib.Steps
import SmartTest.Lib.TaskPool
import SmartTest.Workflow.Completion

/-!
# `_run_graph` and its threads

The main thread opens a wave, waits for the pool and closes the wave. The nodes of a wave
start in declaration order as workers are free and finish in any order. Whatever the order
and the number of workers, the main thread computes what `runGraph` does.
-/

open SmartTest.Lib

namespace SmartTest.Workflow

variable {ν : Type}

/-- A call of `_execute_node`, with what had been resolved when it started. -/
structure NodeCall (ν : Type) where
  wave : Nat
  node : WorkflowNode
  snapshot : Dict String ν
  executions : Dict String (NodeExecution ν)

inductive GraphPhase (ν : Type) where
  | waves
  | pool (limit : Int) (ready : List WorkflowNode) (tasks : TaskPool (NodeExecution ν × NodeResult ν))
  | returned (run : GraphRun ν)
  | raised (error : WorkflowExecutionError)

/-- `calls` notes the calls in the order in which they start; nothing reads it. -/
structure GraphThreads (ν : Type) where
  progress : Progress ν
  phase : GraphPhase ν
  wave : Nat
  calls : List (NodeCall ν)

inductive GraphMove where
  | main
  | worker (move : PoolMove)
  deriving DecidableEq, Repr

/-- Up to the creation of the pool. -/
def openWave (maxConcurrency : Int) (w : WorkflowDefinition) (p : Progress ν) :
    Except WorkflowExecutionError (Progress ν × Int × List WorkflowNode) := do
  let p := skipLoop w (p.pending.length + 1) p
  let nodes := ready w p
  if nodes = [] then .error .noProgress
  let limit ← waveLimit maxConcurrency w p.executions nodes
  if limit ≤ 0 then .error .maxWorkers
  return (p, limit, nodes)

/-- From the results of the pool to the end of the loop body. -/
def closeWave (w : WorkflowDefinition) (p : Progress ν) (nodes : List WorkflowNode)
    (completed : List (NodeExecution ν × NodeResult ν)) : Progress ν :=
  let p := record p (nodes.zip completed)
  { p with context := mergeContext (w.nodes.filter (· ∈ nodes)) p.executions p.context }

def graphRun (w : WorkflowDefinition) (p : Progress ν) : GraphRun ν :=
  ⟨orderedResults w p, p.executions.values.any (·.status = .failed), p.context⟩

def startProgress (w : WorkflowDefinition) (context : Dict String ν) : Progress ν :=
  ⟨w.nodes.map (·.id), .empty, .empty, context⟩

def GraphThreads.init (w : WorkflowDefinition) (context : Dict String ν) : GraphThreads ν :=
  ⟨startProgress w context, .waves, 0, []⟩

def callOf (k : Nat) (p : Progress ν) (node : WorkflowNode) : NodeCall ν := ⟨k, node, p.context, p.executions⟩

/-- The next input of the pool is the node of a new call. -/
def noteCall (s : GraphThreads ν) (limit : Int) (ready : List WorkflowNode)
    (tasks : TaskPool (NodeExecution ν × NodeResult ν)) : PoolMove → List (NodeCall ν)
  | .start => s.calls ++ ((tasks.next? limit ready).map (callOf s.wave s.progress)).toList
  | .finish _ => s.calls

def mainStep (maxConcurrency : Int) (w : WorkflowDefinition) (s : GraphThreads ν) : Option (GraphThreads ν) :=
  match s.phase with
  | .waves =>
    if s.progress.pending = [] then some { s with phase := .returned (graphRun w s.progress) }
    else match openWave maxConcurrency w s.progress with
      | .error e => some { s with phase := .raised e }
      | .ok (p, limit, nodes) => some { s with progress := p, phase := .pool limit nodes (.submit nodes) }
  | .pool _ nodes tasks => tasks.collect.map fun completed =>
      { s with progress := closeWave w s.progress nodes completed, phase := .waves, wave := s.wave + 1 }
  | _ => none

def graphStep (maxConcurrency : Int) (behave : Behaviour ν) (w : WorkflowDefinition) (s : GraphThreads ν) :
    GraphMove → Option (GraphThreads ν)
  | .main => mainStep maxConcurrency w s
  | .worker m =>
    match s.phase with
    | .pool limit nodes tasks => (tasks.move limit (executeNode behave s.progress.context) nodes m).map fun tasks' =>
        { s with phase := .pool limit nodes tasks', calls := noteCall s limit nodes tasks m }
    | _ => none

/-! ## The waves without threads -/

theorem one_le_waveLimit {maxConcurrency limit : Int} {w : WorkflowDefinition}
    {executions : Dict String (NodeExecution ν)} {nodes : List WorkflowNode}
    (h : waveLimit maxConcurrency w executions nodes = .ok limit) : 1 ≤ limit := by
  unfold waveLimit at h
  cases hlimits : readyLimits w executions nodes with
  | error e => simp [hlimits, bind, Except.bind] at h
  | ok limits =>
    simp only [hlimits, bind, Except.bind, pure, Except.pure, Except.ok.injEq] at h
    rw [← h]
    exact Int.le_max_left _ _

/-- The loop body, with the pool as one step. -/
theorem wave_eq (maxConcurrency : Int) (behave : Behaviour ν) (w : WorkflowDefinition) (p : Progress ν) :
    wave maxConcurrency behave w p = match openWave maxConcurrency w p with
      | .error e => .error e
      | .ok (q, _, nodes) => .ok (closeWave w q nodes (nodes.map (executeNode behave q.context))) := by
  unfold wave openWave
  set q := skipLoop w (p.pending.length + 1) p
  by_cases hready : ready w q = []
  · simp [hready, bind, Except.bind]
  · cases hlimit : waveLimit maxConcurrency w q.executions (ready w q) with
    | error e => simp [hready, hlimit, bind, Except.bind]
    | ok limit =>
      have hpos := one_le_waveLimit hlimit
      have hneg : ¬ limit ≤ 0 := by omega
      simp [hready, hlimit, poolMap_ok hpos, hneg, bind, Except.bind, pure, Except.pure, closeWave]

/-- The limit decides nothing but how many workers there are. -/
theorem openWave_limit (m m' : Int) (w : WorkflowDefinition) (p : Progress ν) :
    (openWave m w p).map (fun x => (x.1, x.2.2)) = (openWave m' w p).map fun x => (x.1, x.2.2) := by
  unfold openWave
  set q := skipLoop w (p.pending.length + 1) p
  by_cases hready : ready w q = []
  · simp [hready, bind, Except.bind, Except.map]
  · cases hlimits : readyLimits w q.executions (ready w q) with
    | error e => simp [hready, waveLimit, hlimits, bind, Except.bind, Except.map]
    | ok limits =>
      have hpos : ∀ k : Int, ¬ max 1 k ≤ 0 := by
        intro k
        omega
      simp [hready, waveLimit, hlimits, hpos, bind, Except.bind, pure, Except.pure, Except.map]

theorem wave_limit (m m' : Int) (behave : Behaviour ν) (w : WorkflowDefinition) (p : Progress ν) :
    wave m behave w p = wave m' behave w p := by
  have h := openWave_limit m m' w p
  rw [wave_eq, wave_eq]
  cases hm : openWave m w p with
  | error e =>
    cases hm' : openWave m' w p with
    | error e' => simpa [hm, hm', Except.map] using h
    | ok x => simp [hm, hm', Except.map] at h
  | ok x =>
    cases hm' : openWave m' w p with
    | error e' => simp [hm, hm', Except.map] at h
    | ok y =>
      obtain ⟨hprogress, hnodes⟩ : x.1 = y.1 ∧ x.2.2 = y.2.2 := by simpa [hm, hm', Except.map] using h
      simp only [hprogress, hnodes]

theorem runWaves_limit (m m' : Int) (behave : Behaviour ν) (w : WorkflowDefinition) (fuel : Nat) (p : Progress ν) :
    runWaves m behave w fuel p = runWaves m' behave w fuel p := by
  induction fuel generalizing p with
  | zero => rfl
  | succ fuel ih =>
    unfold runWaves
    rw [wave_limit m m']
    simp only [ih]

/-! ## Every wave takes a node off the list -/

theorem skipPass_pending_le (w : WorkflowDefinition) (nodes : List WorkflowNode) (p : Progress ν) (changed : Bool) :
    (skipPass w nodes (p, changed)).1.pending.length ≤ p.pending.length := by
  induction nodes generalizing p changed with
  | nil => exact Nat.le_refl _
  | cons node rest ih =>
    unfold skipPass
    split
    · have hle : (skip p node).pending.length ≤ p.pending.length := List.length_erase_le
      exact (ih (skip p node) true).trans hle
    · exact ih p changed

theorem skipLoop_pending_le (w : WorkflowDefinition) (fuel : Nat) (p : Progress ν) :
    (skipLoop w fuel p).pending.length ≤ p.pending.length := by
  induction fuel generalizing p with
  | zero => exact Nat.le_refl _
  | succ fuel ih =>
    have hpass := skipPass_pending_le w w.nodes p false
    simp only [skipLoop]
    split
    · exact (ih _).trans hpass
    · exact hpass

theorem record_pending_le (p : Progress ν) (l : List (WorkflowNode × NodeExecution ν × NodeResult ν)) :
    (record p l).pending.length ≤ p.pending.length := by
  induction l generalizing p with
  | nil => exact Nat.le_refl _
  | cons x rest ih =>
    obtain ⟨node, execution, result⟩ := x
    unfold record
    exact (ih _).trans List.length_erase_le

theorem openWave_ok {m limit : Int} {w : WorkflowDefinition} {p q : Progress ν} {nodes : List WorkflowNode}
    (h : openWave m w p = .ok (q, limit, nodes)) :
    q = skipLoop w (p.pending.length + 1) p ∧ nodes = ready w q ∧ nodes ≠ [] ∧ 0 < limit := by
  unfold openWave at h
  simp only [bind, Except.bind, pure, Except.pure] at h
  split at h
  · simp at h
  · next hready =>
    split at h
    · simp at h
    · split at h
      · simp at h
      · next hlimit =>
        simp only [Except.ok.injEq, Prod.mk.injEq] at h
        obtain ⟨rfl, rfl, rfl⟩ := h
        refine ⟨rfl, rfl, ?_, ?_⟩
        · intro hnil
          simp [hnil] at hready
        · by_contra hneg
          simp [not_lt.mp hneg] at hlimit

theorem closeWave_pending_lt {m limit : Int} {w : WorkflowDefinition} {p q : Progress ν}
    {nodes : List WorkflowNode} (behave : Behaviour ν) (h : openWave m w p = .ok (q, limit, nodes)) :
    (closeWave w q nodes (nodes.map (executeNode behave q.context))).pending.length < p.pending.length := by
  obtain ⟨hq, hnodes, hne, -⟩ := openWave_ok h
  have hle := skipLoop_pending_le w (p.pending.length + 1) p
  rw [← hq] at hle
  cases hcons : nodes with
  | nil => exact absurd hcons hne
  | cons node rest =>
    have hpending : node.id ∈ q.pending := by
      have hin : node ∈ ready w q := by simp [← hnodes, hcons]
      exact (isReady_iff.mp (List.mem_filter.mp hin).2).1
    have hpos := List.length_pos_of_mem hpending
    simp only [closeWave, List.map_cons, List.zip_cons_cons, record]
    refine Nat.lt_of_le_of_lt (record_pending_le _ _) ?_
    simp only [List.length_erase_of_mem hpending]
    omega

/-- Fuel beyond the pending nodes changes nothing. -/
theorem runWaves_stable (m : Int) (behave : Behaviour ν) (w : WorkflowDefinition) (fuel fuel' : Nat)
    (p : Progress ν) (h : p.pending.length < fuel) (h' : p.pending.length < fuel') :
    runWaves m behave w fuel p = runWaves m behave w fuel' p := by
  induction fuel generalizing fuel' p with
  | zero => omega
  | succ fuel ih =>
    obtain ⟨fuel', rfl⟩ : ∃ k, fuel' = k + 1 := ⟨fuel' - 1, by omega⟩
    simp only [runWaves, wave_eq]
    split
    · rfl
    · cases hopen : openWave m w p with
      | error e => rfl
      | ok x =>
        obtain ⟨q, limit, nodes⟩ := x
        have hlt := closeWave_pending_lt behave hopen
        exact ih fuel' _ (by omega) (by omega)

/-! ## The threads follow the waves -/

/-- What is still to come gives what the whole graph gives. -/
def Tracks (m : Int) (behave : Behaviour ν) (w : WorkflowDefinition)
    (outcome : Except WorkflowExecutionError (Progress ν)) (s : GraphThreads ν) : Prop :=
  match s.phase with
  | .waves => ∀ fuel, s.progress.pending.length < fuel → runWaves m behave w fuel s.progress = outcome
  | .pool _ nodes tasks => TaskPool.Sound (executeNode behave s.progress.context) nodes tasks ∧
      ∀ fuel, (closeWave w s.progress nodes (nodes.map (executeNode behave s.progress.context))).pending.length < fuel →
        runWaves m behave w fuel (closeWave w s.progress nodes
          (nodes.map (executeNode behave s.progress.context))) = outcome
  | .returned g => outcome.map (graphRun w) = .ok g
  | .raised e => outcome = .error e

variable {m : Int} {behave : Behaviour ν} {w : WorkflowDefinition}
  {outcome : Except WorkflowExecutionError (Progress ν)} {s s' : GraphThreads ν}

theorem Tracks.main (h : Tracks m behave w outcome s) (hstep : mainStep m w s = some s') :
    Tracks m behave w outcome s' := by
  unfold mainStep at hstep
  split at hstep
  · next hphase =>
    simp only [Tracks, hphase] at h
    have hrun := h (s.progress.pending.length + 1) (by omega)
    simp only [runWaves] at hrun
    split at hstep
    · next hdone =>
      obtain rfl := Option.some.inj hstep
      rw [if_pos hdone] at hrun
      simp only [Tracks, ← hrun, Except.map]
    · next hopen =>
      rw [if_neg hopen, wave_eq] at hrun
      split at hstep
      · next e herror =>
        obtain rfl := Option.some.inj hstep
        rw [herror] at hrun
        simp only [Tracks, ← hrun]
        rfl
      · next p limit nodes hok =>
        obtain rfl := Option.some.inj hstep
        refine ⟨TaskPool.sound_submit _ _, ?_⟩
        intro fuel hfuel
        have hlt := closeWave_pending_lt behave hok
        rw [hok] at hrun
        rw [← hrun]
        exact runWaves_stable m behave w fuel _ _ hfuel (by omega)
  · next limit nodes tasks hphase =>
    simp only [Tracks, hphase] at h
    obtain ⟨completed, hcollect, rfl⟩ := Option.map_eq_some_iff.mp hstep
    obtain ⟨rfl, -⟩ := h.1.collect_eq hcollect
    exact h.2
  · simp at hstep

theorem Tracks.step {move : GraphMove} (h : Tracks m behave w outcome s)
    (hstep : graphStep m behave w s move = some s') : Tracks m behave w outcome s' := by
  cases move with
  | main => exact h.main hstep
  | worker move =>
    simp only [graphStep] at hstep
    split at hstep
    · next limit nodes tasks hphase =>
      simp only [Tracks, hphase] at h
      obtain ⟨tasks', hmove, rfl⟩ := Option.map_eq_some_iff.mp hstep
      exact ⟨h.1.move hmove, h.2⟩
    · simp at hstep

theorem tracks_of_run {moves : List GraphMove} {context : Dict String ν}
    (hrun : runSteps (graphStep m behave w) (.init w context) moves = some s) :
    Tracks m behave w (runWaves m behave w (w.nodes.length + 1) (startProgress w context)) s := by
  refine runSteps_keeps (fun _ _ _ h hstep => h.step hstep) ?_ hrun
  intro fuel hfuel
  have hstart : (startProgress w context).pending.length < w.nodes.length + 1 := by
    simp [startProgress]
  exact runWaves_stable m behave w fuel _ _ hfuel hstart

theorem runGraph_eq (m : Int) (behave : Behaviour ν) (w : WorkflowDefinition) (context : Dict String ν) :
    runGraph m behave w context =
      (runWaves m behave w (w.nodes.length + 1) (startProgress w context)).map (graphRun w) := by
  show (runWaves m behave w (w.nodes.length + 1) (startProgress w context) >>= fun p => pure (graphRun w p)) = _
  cases runWaves m behave w (w.nodes.length + 1) (startProgress w context) <;> rfl

/-- Every schedule of the threads ends where `runGraph` does. -/
theorem outcome_of_run {moves : List GraphMove} {context : Dict String ν}
    (hrun : runSteps (graphStep m behave w) (.init w context) moves = some s) (m' : Int) :
    (∀ g, s.phase = .returned g → runGraph m' behave w context = .ok g) ∧
      ∀ e, s.phase = .raised e → runGraph m' behave w context = .error e := by
  have htracks := tracks_of_run hrun
  rw [runWaves_limit m m'] at htracks
  constructor
  · intro g hphase
    simp only [Tracks, hphase] at htracks
    rw [runGraph_eq, htracks]
  · intro e hphase
    simp only [Tracks, hphase] at htracks
    rw [runGraph_eq, htracks]
    rfl

/-! ## No schedule gets stuck -/

def Staffed (s : GraphThreads ν) : Prop := ∀ limit nodes tasks, s.phase = .pool limit nodes tasks → 0 < limit

theorem Staffed.step {move : GraphMove} (h : Staffed s) (hstep : graphStep m behave w s move = some s') :
    Staffed s' := by
  cases move with
  | main =>
    simp only [graphStep, mainStep] at hstep
    split at hstep
    · split at hstep
      · obtain rfl := Option.some.inj hstep
        rintro _ _ _ ⟨⟩
      · split at hstep
        · obtain rfl := Option.some.inj hstep
          rintro _ _ _ ⟨⟩
        · next hok =>
          obtain rfl := Option.some.inj hstep
          rintro _ _ _ ⟨⟩
          exact (openWave_ok hok).2.2.2
    · obtain ⟨completed, -, rfl⟩ := Option.map_eq_some_iff.mp hstep
      rintro _ _ _ ⟨⟩
    · simp at hstep
  | worker move =>
    simp only [graphStep] at hstep
    split at hstep
    · next hphase =>
      obtain ⟨tasks', -, rfl⟩ := Option.map_eq_some_iff.mp hstep
      rintro _ _ _ ⟨⟩
      exact h _ _ _ hphase
    · simp at hstep

/-- Until it returns or raises, a thread can move. -/
theorem exists_move_of_run {moves : List GraphMove} {context : Dict String ν}
    (hrun : runSteps (graphStep m behave w) (.init w context) moves = some s) :
    (∃ g, s.phase = .returned g) ∨ (∃ e, s.phase = .raised e) ∨
      ∃ move s', graphStep m behave w s move = some s' := by
  have hstaffed : Staffed s := by
    refine runSteps_keeps (fun _ _ _ h hstep => Staffed.step h hstep) ?_ hrun
    rintro _ _ _ ⟨⟩
  have htracks := tracks_of_run hrun
  cases hphase : s.phase with
  | returned g => exact .inl ⟨g, rfl⟩
  | raised e => exact .inr (.inl ⟨e, rfl⟩)
  | waves =>
    refine .inr (.inr ⟨.main, ?_⟩)
    simp only [graphStep, mainStep, hphase]
    split
    · exact ⟨_, rfl⟩
    · split
      · exact ⟨_, rfl⟩
      · exact ⟨_, rfl⟩
  | pool limit nodes tasks =>
    simp only [Tracks, hphase] at htracks
    cases hcollect : tasks.collect with
    | some completed =>
      refine .inr (.inr ⟨.main, ?_⟩)
      simp only [graphStep, mainStep, hphase, hcollect, Option.map_some]
      exact ⟨_, rfl⟩
    | none =>
      obtain ⟨move, tasks', hmove⟩ := htracks.1.exists_move (hstaffed limit nodes tasks hphase) hcollect
      refine .inr (.inr ⟨.worker move, ?_⟩)
      simp only [graphStep, hphase, hmove, Option.map_some]
      exact ⟨_, rfl⟩

end SmartTest.Workflow
