import SmartTest.Lib.Dict

/-!
# Workflow graphs and their validation

The records of `data_factory_domain.py` and `validate_workflow_graph`. Canvas
coordinates are left out, and of a node's configuration only `max_concurrency` is
kept: nothing else of it is read outside the execution of the node itself.
-/

open SmartTest.Lib

namespace SmartTest.Workflow

def MAX_WORKFLOW_NODES : Nat := 100
def MAX_WORKFLOW_EDGES : Nat := 500

inductive WorkflowNodeType where
  | http | condition | parallel
  deriving DecidableEq, Repr

inductive WorkflowEdgeOutcome where
  | always | success | failure | onTrue | onFalse
  deriving DecidableEq, Repr

/-- A field that should hold a member of an enumeration, before it is checked. -/
inductive Tag (ε : Type) where
  | known (member : ε)
  | unknown (text : String)
  deriving DecidableEq, Repr

structure WorkflowNode where
  id : String
  name : String
  type : Tag WorkflowNodeType
  /-- `config.get("max_concurrency")`, an integer wherever the schema let it in. -/
  maxConcurrency : Option Int
  deriving DecidableEq, Repr

structure WorkflowEdge where
  id : String
  source : String
  target : String
  outcome : Tag WorkflowEdgeOutcome
  deriving DecidableEq, Repr

structure WorkflowDefinition where
  nodes : List WorkflowNode
  edges : List WorkflowEdge
  deriving DecidableEq, Repr

structure WorkflowValidationError where
  message : String
  deriving DecidableEq, Repr

def compatibleOutcomes : WorkflowNodeType → List WorkflowEdgeOutcome
  | .http => [.always, .success, .failure]
  | .condition => [.always, .onTrue, .onFalse]
  | .parallel => [.always]

/-! ## Identifiers -/

def identifierStart (c : Char) : Bool := c.isAlpha || c.isDigit

def identifierRest (c : Char) : Bool :=
  identifierStart c || c == '.' || c == '_' || c == ':' || c == '-'

/-- `IDENTIFIER_PATTERN.fullmatch`. -/
def isIdentifier (value : String) : Bool :=
  match value.toList with
  | [] => false
  | c :: cs => identifierStart c && cs.all identifierRest && cs.length ≤ 254

def validateIdentifier (value label : String) : Except WorkflowValidationError Unit :=
  if isIdentifier value then .ok () else .error ⟨label ++ " is invalid"⟩

/-! ## The checks on nodes and edges -/

/-- The loop over `definition.nodes`; `nodes` holds those already seen. -/
def checkNodes (nodes : Dict String WorkflowNode) :
    List WorkflowNode → Except WorkflowValidationError (Dict String WorkflowNode)
  | [] => .ok nodes
  | node :: rest => do
    validateIdentifier node.id "node id"
    match node.type with
    | .unknown _ => .error ⟨"node " ++ node.id ++ " type is invalid"⟩
    | .known _ =>
      if (nodes.get? node.id).isSome then .error ⟨"duplicate node id: " ++ node.id⟩
      else checkNodes (nodes.set node.id node) rest

def checkEdge (nodes : Dict String WorkflowNode) (edge : WorkflowEdge) : Except WorkflowValidationError Unit :=
  match nodes.get? edge.source, nodes.get? edge.target with
  | some source, some _ =>
    match edge.outcome, source.type with
    | .known outcome, .known sourceType =>
      if outcome ∈ compatibleOutcomes sourceType then .ok ()
      else .error ⟨"edge " ++ edge.id ++ " outcome is incompatible with its source node"⟩
    | _, _ => .error ⟨"edge " ++ edge.id ++ " outcome is invalid"⟩
  | _, _ => .error ⟨"edge " ++ edge.id ++ " references an unknown node"⟩

/-- The loop over `definition.edges`; `edgeIds` holds those already seen. -/
def checkEdges (nodes : Dict String WorkflowNode) (edgeIds : List String) :
    List WorkflowEdge → Except WorkflowValidationError Unit
  | [] => .ok ()
  | edge :: rest => do
    validateIdentifier edge.id "edge id"
    if edge.id ∈ edgeIds then .error ⟨"duplicate edge id: " ++ edge.id⟩
    else
      checkEdge nodes edge
      checkEdges nodes (edge.id :: edgeIds) rest

/-! ## Acyclicity -/

/-- `incoming[node_id]` after the edge loop. -/
def incomingCount (edges : List WorkflowEdge) (nodeId : String) : Int :=
  (edges.filter (·.target = nodeId)).length

/-- `outgoing[node_id]` after the edge loop. -/
def outgoing (edges : List WorkflowEdge) (nodeId : String) : List String :=
  (edges.filter (·.source = nodeId)).map (·.target)

/-- The loop over `outgoing[current]`. The stack `ready` has its top at the head. -/
def releaseTargets : List String → List String × (String → Int) → List String × (String → Int)
  | [], st => st
  | target :: rest, (ready, remaining) =>
    let remaining' := Function.update remaining target (remaining target - 1)
    releaseTargets rest (if remaining' target = 0 then target :: ready else ready, remaining')

/-- The worklist loop. `fuel` bounds the number of pops. -/
def countVisited (edges : List WorkflowEdge) :
    (fuel : Nat) → (ready : List String) → (remaining : String → Int) → (visited : Nat) → Nat
  | 0, _, _, visited => visited
  | _ + 1, [], _, visited => visited
  | fuel + 1, current :: ready, remaining, visited =>
    let (ready', remaining') := releaseTargets (outgoing edges current) (ready, remaining)
    countVisited edges fuel ready' remaining' (visited + 1)

def roots (d : WorkflowDefinition) : List String :=
  (d.nodes.map (·.id)).filter fun nodeId => incomingCount d.edges nodeId = 0

/-- The part of `validate_workflow_graph` after the edge loop. -/
def checkAcyclic (d : WorkflowDefinition) : Except WorkflowValidationError Unit :=
  if d.nodes = [] then
    if d.edges ≠ [] then .error ⟨"an empty workflow cannot contain edges"⟩ else .ok ()
  else if roots d = [] then .error ⟨"workflow must have at least one root node"⟩
  else if countVisited d.edges (d.nodes.length + 1) (roots d).reverse (incomingCount d.edges) 0 ≠ d.nodes.length then
    .error ⟨"workflow must be a DAG"⟩
  else .ok ()

def validateWorkflowGraph (d : WorkflowDefinition) : Except WorkflowValidationError Unit :=
  if d.nodes.length > MAX_WORKFLOW_NODES then .error ⟨"workflow has too many nodes"⟩
  else if d.edges.length > MAX_WORKFLOW_EDGES then .error ⟨"workflow has too many edges"⟩
  else do
    let nodes ← checkNodes .empty d.nodes
    checkEdges nodes [] d.edges
    checkAcyclic d

end SmartTest.Workflow
