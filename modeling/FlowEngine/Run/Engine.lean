import FlowEngine.Data.Limit
import FlowEngine.Run.Attempt
import FlowEngine.Run.Recording
import FlowEngine.Run.Route
import FlowEngine.Step.Registry

/-!
# The engine

A run begins at the start node with the payload as its output, visits one node after the other, and
ends with a context that tells how it went. Failures of nodes, forbidden cycles and a run that is too
long end in the context; only what makes it impossible to run a node at all, or to record it, ends in a
fault.
-/

namespace FlowEngine

/-- Executors by type, and a limit for flows that name none. -/
structure Engine where
  registry : Registry Executor
  maxSteps : Value

structure Passage where
  walk : Walk
  context : Context
  deriving DecidableEq, Repr

namespace Engine

/-- The limit of a flow. Zero counts as none. -/
def limit (engine : Engine) (graph : FlowGraph) : Value :=
  match graph.maxSteps with
  | some n => if n = 0 then engine.maxSteps else .int n
  | none => engine.maxSteps

def overflowText (limit : Value) (node : Node) : String :=
  "Execution exceeded the maximum of " ++ limit.display ++ " steps at node '" ++
    node.displayName ++ "'. Check for an unbounded loop."

def enter (node : Node) : Work Unit :=
  Doing.update fun scene => {
    context := { scene.context with currentNode := some node.id }
    place := { scene.place with trace := scene.place.trace.put "node_id" (.text node.id) } }

def overflow (limit : Value) (node : Node) (walk : Walk) : Work Walk := do
  let _ ← Doing.ofExcept limit.shown
  let text := overflowText limit node
  Work.change fun context => context.fail text
  Work.note (Log.line .error Log.Logger.engine text)
  return { walk with failed := true, ending := some .overflow }

/-- Records the outcome of a node. That of a start node is there already. -/
def keepOutcome (node : Node) (outcome : Outcome) : Work Unit := do
  if node.type == .start then pure ()
  else
    let _ ← Doing.ofExcept node.saveName
    Work.noteAll ((← Work.context).recordWarnings node)
    Work.change fun context => context.record node outcome

/-- Runs one node and finds out what follows. The node has left the queue of the walk. -/
def visit (engine : Engine) (graph : FlowGraph) (node : Node) (walk : Walk) : Work Walk := do
  let step := (← Work.context).order.length + 1
  Work.note (Log.line .info Log.Logger.engine
    ("▶ Step " ++ toString step ++ ": " ++ node.displayName ++ " (" ++ node.type.name ++ ")"))
  Work.emitFor node Event.nodeStarted
  let executor ← Doing.ofExcept (engine.registry.get node.type (some node.id))
  let outcome ← Attempt.run executor node
  keepOutcome node outcome
  let saved := (← Work.context).nex
  Work.emitFor node fun flow execution id =>
    Event.nodeCompleted flow execution id outcome.status.name saved
  let turn := Turn.after graph node outcome walk (← Work.context)
  Work.change fun _ => turn.context
  Work.noteAll turn.lines
  return turn.walk

/-- Visits nodes until the walk is over. The first number is how many may still be visited. -/
def walkOn (engine : Engine) (graph : FlowGraph) (limit : Value) : Nat → Walk → Work Walk
  | left, walk =>
    match walk.ending, walk.queue with
    | some _, _ => pure walk
    | none, [] => pure walk
    | none, node :: queue => do
      enter node
      match left with
      | 0 => overflow limit node { walk with queue }
      | left + 1 => do
        let walk ← visit engine graph node { walk with queue }
        walkOn engine graph limit left walk

/-- The start node of a flow, or the one that stands in for it. -/
def startOf (graph : FlowGraph) : Node := graph.start?.getD Node.defaultStart

def opening (graph : FlowGraph) (executionId : String) (payload : Entries Value) (now : Instant) :
    Context :=
  ((Context.create graph.id executionId now).seed (startOf graph) payload).noteLoops graph

def conclude (walk : Walk) : Work Unit := do
  let now ← Doing.ask .now
  let status := if walk.failed then RunStatus.failure else .success
  Work.change fun context => { context with completedAt := some now, status }
  let steps := (← Work.context).order.length
  Work.note (Log.line .info Log.Logger.engine
    ((if walk.failed then "✗" else "✓") ++ " Flow finished with " ++ status.name ++ " after " ++
      toString steps ++ " steps"))

def perform (engine : Engine) (graph : FlowGraph) : Work Walk := do
  if graph.start?.isNone then
    Work.note (Log.line .warning Log.Logger.engine
      ("Flow '" ++ graph.id ++ "' has no START node; using an empty default"))
  let _ ← Doing.ofExcept (startOf graph).saveName
  Work.note (Log.line .info Log.Logger.engine
    ("🚀 Starting flow '" ++ (if graph.name.isEmpty then graph.id else graph.name) ++ "'"))
  let limit := engine.limit graph
  let most ← Doing.ofExcept (Limit.least ">=" limit)
  let walk ← walkOn engine graph limit most (Walk.starting (startOf graph))
  conclude walk
  return walk

/-- Runs a flow and gives the way it went with the context it leaves. The trace is that of the run
while it lasts, and afterwards what it was before, also when the run ends in a fault. -/
def follow (engine : Engine) (graph : FlowGraph) (executionId : String)
    (payload : Entries Value) : Act Passage := fun place =>
  .ask .now fun now =>
    let trace := place.trace.putAll
      [("flow_id", .text graph.id), ("execution_id", .text executionId)]
    let scene : Scene := ⟨opening graph executionId payload now, { place with trace }⟩
    Dialogue.bind (engine.perform graph scene) fun (result, scene) =>
      .done (result.map fun walk => ⟨walk, scene.context⟩,
        { scene.place with trace := place.trace })

def execute (engine : Engine) (graph : FlowGraph) (executionId : String)
    (payload : Entries Value) : Act Context := do
  return (← engine.follow graph executionId payload).context

end Engine

end FlowEngine
