import SmartTest.Workflow.Graph

/-!
# The wave scheduler of the workflow executor

`DataFactoryExecutor._run_graph`. What a node does when it runs is a parameter:
`behave` gives its outcome from the node and the variables it sees. Timestamps are
left out.
-/

open SmartTest.Lib

namespace SmartTest.Workflow

variable {ν : Type}

inductive NodeStatus where
  | succeeded | failed | skipped
  deriving DecidableEq, Repr

/-- `_NodeExecution`. -/
structure NodeExecution (ν : Type) where
  status : NodeStatus
  details : Dict String ν
  extracted : Dict String ν
  branch : Option Bool
  deriving DecidableEq

/-- An entry of `raw_results`. -/
structure NodeResult (ν : Type) where
  nodeId : String
  name : String
  type : Tag WorkflowNodeType
  status : NodeStatus
  details : Dict String ν
  deriving DecidableEq

inductive WorkflowExecutionError where
  | noProgress
  | keyError (key : String)
  | maxWorkers
  | outOfFuel
  deriving DecidableEq, Repr

/-- What running a node gives: `_execute_node` never reports `SKIPPED`. -/
structure NodeOutcome (ν : Type) where
  succeeded : Bool
  branch : Option Bool
  details : Dict String ν
  extracted : Dict String ν
  deriving DecidableEq

abbrev Behaviour (ν : Type) := WorkflowNode → Dict String ν → NodeOutcome ν

def NodeOutcome.execution (o : NodeOutcome ν) : NodeExecution ν :=
  ⟨if o.succeeded then .succeeded else .failed, o.details, o.extracted, o.branch⟩

def executeNode (behave : Behaviour ν) (snapshot : Dict String ν) (node : WorkflowNode) :
    NodeExecution ν × NodeResult ν :=
  let execution := (behave node snapshot).execution
  (execution, ⟨node.id, node.name, node.type, execution.status, execution.details⟩)

def edgeActive (edge : WorkflowEdge) (source : NodeExecution ν) : Bool :=
  if source.status = .skipped then false
  else match edge.outcome with
    | .known .always => true
    | .known .success => source.status = .succeeded
    | .known .failure => source.status = .failed
    | .known .onTrue => source.branch = some true
    | _ => source.branch = some false

def incoming (w : WorkflowDefinition) (nodeId : String) : List WorkflowEdge :=
  w.edges.filter (·.target = nodeId)

/-- The local variables of `_run_graph`. -/
structure Progress (ν : Type) where
  pending : List String
  executions : Dict String (NodeExecution ν)
  rawResults : Dict String (NodeResult ν)
  context : Dict String ν

def sourcesDone (executions : Dict String (NodeExecution ν)) (edges : List WorkflowEdge) : Bool :=
  edges.all fun edge => (executions.get? edge.source).isSome

def someActive (executions : Dict String (NodeExecution ν)) (edges : List WorkflowEdge) : Bool :=
  edges.any fun edge => (executions.get? edge.source).any (edgeActive edge)

/-! ## Skipping -/

def skippable (w : WorkflowDefinition) (p : Progress ν) (node : WorkflowNode) : Bool :=
  node.id ∈ p.pending && incoming w node.id ≠ [] && sourcesDone p.executions (incoming w node.id)
    && !someActive p.executions (incoming w node.id)

def skip (p : Progress ν) (node : WorkflowNode) : Progress ν :=
  { p with
    executions := p.executions.set node.id ⟨.skipped, .empty, .empty, none⟩
    rawResults := p.rawResults.set node.id ⟨node.id, node.name, node.type, .skipped, .empty⟩
    pending := p.pending.erase node.id }

/-- One pass of the `for` loop, with `changed`. -/
def skipPass (w : WorkflowDefinition) : List WorkflowNode → Progress ν × Bool → Progress ν × Bool
  | [], st => st
  | node :: rest, (p, changed) =>
    if skippable w p node then skipPass w rest (skip p node, true) else skipPass w rest (p, changed)

/-- `while changed`. Each round but the last removes a pending node. -/
def skipLoop (w : WorkflowDefinition) : (fuel : Nat) → Progress ν → Progress ν
  | 0, p => p
  | fuel + 1, p =>
    let (p', changed) := skipPass w w.nodes (p, false)
    if changed then skipLoop w fuel p' else p'

/-! ## One wave -/

def isReady (w : WorkflowDefinition) (p : Progress ν) (node : WorkflowNode) : Bool :=
  node.id ∈ p.pending && (incoming w node.id = [] ||
    (sourcesDone p.executions (incoming w node.id) && someActive p.executions (incoming w node.id)))

def ready (w : WorkflowDefinition) (p : Progress ν) : List WorkflowNode :=
  w.nodes.filter (isReady w p)

/-- What one incoming edge of a ready node adds to `limits`. -/
def edgeLimit (w : WorkflowDefinition) (executions : Dict String (NodeExecution ν)) (edge : WorkflowEdge) :
    Except WorkflowExecutionError (List Int) := do
  let some source := w.nodes.find? (·.id = edge.source) | .error (.keyError edge.source)
  if source.type = .known .parallel then
    let some execution := executions.get? source.id | .error (.keyError source.id)
    return if edgeActive edge execution then [source.maxConcurrency.getD 2] else []
  else return []

def readyLimits (w : WorkflowDefinition) (executions : Dict String (NodeExecution ν))
    (nodes : List WorkflowNode) : Except WorkflowExecutionError (List Int) := do
  let edges := nodes.flatMap fun node => incoming w node.id
  return (← edges.mapM (edgeLimit w executions)).flatten

def waveLimit (maxConcurrency : Int) (w : WorkflowDefinition) (executions : Dict String (NodeExecution ν))
    (nodes : List WorkflowNode) : Except WorkflowExecutionError Int := do
  let limits ← readyLimits w executions nodes
  return max 1 ((maxConcurrency :: limits).foldl min nodes.length)

/-- `pool.map` keeps the order of its inputs; a pool needs a worker. -/
def poolMap {α β : Type} (maxWorkers : Int) (f : α → β) (inputs : List α) :
    Except WorkflowExecutionError (List β) :=
  if maxWorkers ≤ 0 then .error .maxWorkers else .ok (inputs.map f)

def record (p : Progress ν) : List (WorkflowNode × NodeExecution ν × NodeResult ν) → Progress ν
  | [] => p
  | (node, execution, result) :: rest =>
    record { p with
      executions := p.executions.set node.id execution
      rawResults := p.rawResults.set node.id result
      pending := p.pending.erase node.id } rest

/-- Declaration order defines which of two extractions of one name wins. -/
def mergeContext (nodes : List WorkflowNode) (executions : Dict String (NodeExecution ν))
    (context : Dict String ν) : Dict String ν :=
  nodes.foldl (fun acc node => ((executions.get? node.id).map fun e => acc.update e.extracted).getD acc) context

def wave (maxConcurrency : Int) (behave : Behaviour ν) (w : WorkflowDefinition) (p : Progress ν) :
    Except WorkflowExecutionError (Progress ν) := do
  let p := skipLoop w (p.pending.length + 1) p
  let nodes := ready w p
  if nodes = [] then .error .noProgress
  let limit ← waveLimit maxConcurrency w p.executions nodes
  let completed ← poolMap limit (executeNode behave p.context) nodes
  let p := record p (nodes.zip completed)
  return { p with context := mergeContext (w.nodes.filter (· ∈ nodes)) p.executions p.context }

/-! ## The whole graph -/

/-- `while pending`. -/
def runWaves (maxConcurrency : Int) (behave : Behaviour ν) (w : WorkflowDefinition) :
    (fuel : Nat) → Progress ν → Except WorkflowExecutionError (Progress ν)
  | 0, _ => .error .outOfFuel
  | fuel + 1, p =>
    if p.pending = [] then .ok p
    else do
      let p' ← wave maxConcurrency behave w p
      runWaves maxConcurrency behave w fuel p'

structure GraphRun (ν : Type) where
  orderedResults : List (String × NodeResult ν)
  failed : Bool
  context : Dict String ν
  deriving DecidableEq

def orderedResults (w : WorkflowDefinition) (p : Progress ν) : List (String × NodeResult ν) :=
  w.nodes.filterMap fun node => (p.rawResults.get? node.id).map fun result => (node.id, result)

def runGraph (maxConcurrency : Int) (behave : Behaviour ν) (w : WorkflowDefinition)
    (context : Dict String ν) : Except WorkflowExecutionError (GraphRun ν) := do
  let start : Progress ν := ⟨w.nodes.map (·.id), .empty, .empty, context⟩
  let p ← runWaves maxConcurrency behave w (w.nodes.length + 1) start
  return ⟨orderedResults w p, p.executions.values.any (·.status = .failed), p.context⟩

end SmartTest.Workflow
