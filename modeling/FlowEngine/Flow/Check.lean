import FlowEngine.Flow.Graph

/-!
# Structural problems of a flow graph

What would go wrong when the flow runs, whatever its data: ids used twice, edges that lead nowhere or
are never taken, loops without a way back, and types without an executor.
-/

namespace FlowEngine

inductive FlowProblem where
  | duplicateId (id : String)
  | severalStarts (count : Nat)
  | missingSource (edge source : String)
  | missingTarget (edge target : String)
  | neverTaken (edge : String)
  | noWayBack (loop : String)
  | noExecutor (node : String) (type : NodeType)
  deriving DecidableEq, Repr

namespace FlowProblem

def text : FlowProblem → String
  | .duplicateId id => "Duplicate node id: '" ++ id ++ "'"
  | .severalStarts count =>
    "Flow has " ++ toString count ++ " START nodes; only the first is used"
  | .missingSource edge source =>
    "Edge '" ++ edge ++ "' references missing source '" ++ source ++ "'"
  | .missingTarget edge target =>
    "Edge '" ++ edge ++ "' references missing target '" ++ target ++ "'"
  | .neverTaken edge => "Edge '" ++ edge ++ "' uses CUSTOM condition, which is never followed"
  | .noWayBack loop => "LOOP node '" ++ loop ++ "' has no outgoing CONTINUE edge"
  | .noExecutor node type =>
    "Node '" ++ node ++ "' has type " ++ type.name ++ " which has no registered executor"

end FlowProblem

def Edge.displayName (edge : Edge) : String :=
  match edge.id with
  | some id => if id.isEmpty then edge.source ++ "->" ++ edge.target else id
  | none => edge.source ++ "->" ++ edge.target

namespace FlowGraph

/-- The ids that stand in a list a second time, each as often as it is repeated. -/
def repeated : List String → List String → List String
  | _, [] => []
  | seen, id :: rest => if seen.contains id then id :: repeated seen rest else repeated (id :: seen) rest

def nodeIds (graph : FlowGraph) : List String := graph.nodes.map (·.id)

def edgeProblems (ids : List String) (edge : Edge) : List FlowProblem :=
  (if ids.contains edge.source then [] else [.missingSource edge.displayName edge.source]) ++
    (if ids.contains edge.target then [] else [.missingTarget edge.displayName edge.target]) ++
    (if edge.condition == .custom then [.neverTaken edge.displayName] else [])

def nodeProblems (graph : FlowGraph) (supported : Option (List NodeType)) (node : Node) :
    List FlowProblem :=
  (if node.type == .loop && !graph.hasContinueEdge node.id then [.noWayBack node.displayName]
    else []) ++
    (match supported with
     | some types =>
       if types.contains node.type then [] else [.noExecutor node.displayName node.type]
     | none => [])

/-- All problems of a graph: of ids, of start nodes, of edges and of nodes, in this order. Types are
checked only when it is told which have an executor. -/
def problems (graph : FlowGraph) (supported : Option (List NodeType)) : List FlowProblem :=
  let starts := (graph.nodes.filter (·.type == .start)).length
  (repeated [] graph.nodeIds).map .duplicateId ++
    (if starts > 1 then [.severalStarts starts] else []) ++
    graph.edges.flatMap (edgeProblems graph.nodeIds) ++
    graph.nodes.flatMap (nodeProblems graph supported)

end FlowGraph

end FlowEngine
