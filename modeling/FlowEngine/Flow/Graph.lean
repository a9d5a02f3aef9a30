import FlowEngine.Flow.Edge

/-!
# Flow graphs

The nodes and edges of a flow. `loopBody` lists what can be reached from a loop without passing it
again; the list of edges bounds the search, since each id is entered once and is the target of an edge.
-/

namespace FlowEngine

/-- A flow. Neither ids without a node nor repeated ids are ruled out here; `problems` lists them.
-/
structure FlowGraph where
  id : String
  name : String
  description : String
  nodes : List Node
  edges : List Edge
  /-- A step ceiling of this flow, which wins over that of the engine. -/
  maxSteps : Option Int
  extras : Entries Value
  deriving DecidableEq, Repr

namespace FlowGraph

def node? (graph : FlowGraph) (id : String) : Option Node := graph.nodes.find? (·.id == id)

/-- The nodes by id; of two with one id the later one counts. -/
def nodeMap (graph : FlowGraph) : Entries Node :=
  Entries.ofPairs (graph.nodes.map fun node => (node.id, node))

def target? (graph : FlowGraph) (id : String) : Option Node := graph.nodeMap.get? id

def start? (graph : FlowGraph) : Option Node := graph.nodes.find? (·.type == .start)

def outgoing (graph : FlowGraph) (id : String) : List Edge := graph.edges.filter (·.source == id)

def incoming (graph : FlowGraph) (id : String) : List Edge := graph.edges.filter (·.target == id)

def successors (graph : FlowGraph) (id : String) : List String :=
  (graph.outgoing id).map (·.target)

def continueTargets (graph : FlowGraph) (id : String) : List String :=
  ((graph.outgoing id).filter (·.condition == .continuing)).map (·.target)

def hasContinueEdge (graph : FlowGraph) (id : String) : Bool :=
  !(graph.continueTargets id).isEmpty

/-- Breadth-first search. An id is entered when it is not the one to avoid and not yet in the list;
the first argument bounds how many can still be entered. -/
def searchBody (graph : FlowGraph) (avoid : String) :
    Nat → (pending body : List String) → List String
  | _, [], body => body
  | steps, id :: pending, body =>
    if id == avoid || body.contains id then searchBody graph avoid steps pending body
    else
      match steps with
      | 0 => body
      | steps + 1 =>
        searchBody graph avoid steps (pending ++ graph.successors id) (body ++ [id])
  termination_by steps pending => (steps, pending.length)

/-- The ids between the way out of a loop into its body and the way back. -/
def loopBody (graph : FlowGraph) (id : String) : List String :=
  searchBody graph id graph.edges.length (graph.continueTargets id) []

end FlowGraph

end FlowEngine
