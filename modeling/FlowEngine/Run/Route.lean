import FlowEngine.Log.Record
import FlowEngine.Flow.Graph
import FlowEngine.Run.Context

/-!
# The way of a run through its flow

A walk holds the nodes that wait for their turn and the visits made so far. After a visit the walk
goes on along the edges that the outcome activates. It ends at an end node, at an outcome that halts
the run, and where a node would be entered again without a loop.
-/

namespace FlowEngine

structure Visit where
  node : Node
  outcome : Outcome
  deriving DecidableEq, Repr

/-- Why a walk ended before its queue was empty. -/
inductive Ending where
  | terminal
  | halted
  | cycle
  | overflow
  deriving DecidableEq, Repr

structure Walk where
  queue : List Node
  visits : List Visit
  failed : Bool
  ending : Option Ending
  deriving DecidableEq, Repr

namespace FlowGraph

/-- The edges that an outcome of a status activates. -/
def activated (graph : FlowGraph) (id : String) (status : Status) : List Edge :=
  (graph.outgoing id).filter (·.fires (EdgeCondition.requiredFor status))

def next (graph : FlowGraph) (id : String) (status : Status) : List Node :=
  (graph.activated id status).filterMap fun edge => graph.target? edge.target

def nextWarnings (graph : FlowGraph) (id : String) (status : Status) : List Log.Line :=
  ((graph.activated id status).filter fun edge => (graph.target? edge.target).isNone).map
    fun edge => Log.line .warning Log.Logger.engine
      ("Edge " ++ edge.source ++ " -> " ++ edge.target ++ " points at a missing node")

end FlowGraph

/-- End nodes wait until the others are queued. -/
def endsLast (nodes : List Node) : List Node :=
  nodes.filter (!·.type.isTerminal) ++ nodes.filter (·.type.isTerminal)

namespace Walk

def starting (start : Node) : Walk := ⟨[start], [], false, none⟩

def executed (walk : Walk) : List String := walk.visits.map (·.node.id)

def isOver (walk : Walk) : Bool := walk.ending.isSome || walk.queue.isEmpty

/-- Whether a node may be entered after an outcome: it is new, it is a loop, or a loop goes on. -/
def mayEnter (executed : List String) (status : Status) (node : Node) : Bool :=
  !executed.contains node.id || status == .continuing || node.type == .loop

/-- Adds nodes to the queue, each once. Gives the first one that may not be entered, if there is
one. -/
def enqueue (executed : List String) (status : Status) :
    List Node → List Node → Except Node (List Node)
  | queue, [] => .ok queue
  | queue, node :: rest =>
    if mayEnter executed status node then
      enqueue executed status
        (if queue.any (·.id == node.id) then queue else queue ++ [node]) rest
    else .error node

end Walk

/-- Why a run failed: what is already known, else the error of the outcome, else a text. -/
def Context.failUnlessFailed (context : Context) (outcome : Outcome) (text : String) : Context :=
  if context.errorMessage.isSome then context
  else context.fail ((outcome.errorMessage.filter (!·.isEmpty)).getD text)

/-- What a visit leads to: the walk, the context, and the log lines about it. -/
structure Turn where
  walk : Walk
  context : Context
  lines : List Log.Line
  deriving DecidableEq, Repr

namespace Turn

def cycleText (node entered : Node) : String :=
  "Loop detected: node '" ++ entered.displayName ++
    "' was already executed and is reached again from '" ++ node.displayName ++
    "'. Use a LOOP node with a CONTINUE edge to iterate."

def atEnd (node : Node) (outcome : Outcome) (walk : Walk) (context : Context) : Turn :=
  let line := Log.line .info Log.Logger.engine
    ("■ Reached terminal node " ++ node.displayName ++ " (" ++ node.type.name ++ ")")
  let walk := { walk with ending := some .terminal }
  if outcome.status == .failure then
    ⟨{ walk with failed := true },
      context.failUnlessFailed outcome
        ("Flow ended at FAILURE node '" ++ node.displayName ++ "'"),
      [line]⟩
  else ⟨walk, context, [line]⟩

def halt (node : Node) (outcome : Outcome) (walk : Walk) (context : Context) : Turn :=
  let context := context.failUnlessFailed outcome
    ("Node '" ++ node.displayName ++ "' stopped the run")
  ⟨{ walk with failed := true, ending := some .halted }, context,
    [Log.line .error Log.Logger.engine
      ("✗ Run stopped at " ++ node.displayName ++ ": " ++ context.errorMessage.getD "")]⟩

/-- Notes a failure that no edge leads away from. -/
def unrouted (node : Node) (outcome : Outcome) (walk : Walk) (context : Context) : Turn :=
  ⟨{ walk with failed := true },
    context.failUnlessFailed outcome ("Node '" ++ node.displayName ++ "' failed"),
    [Log.line .error Log.Logger.engine
      ("✗ Node " ++ node.displayName ++ " failed with no FAILURE route")]⟩

/-- Queues the nodes that come next, unless one of them may not be entered. -/
def queueNext (node : Node) (outcome : Outcome) (next : List Node) (turn : Turn) : Turn :=
  match Walk.enqueue turn.walk.executed outcome.status turn.walk.queue (endsLast next) with
  | .ok queue => { turn with walk := { turn.walk with queue } }
  | .error entered =>
    let text := cycleText node entered
    ⟨{ turn.walk with failed := true, ending := some .cycle }, turn.context.fail text,
      turn.lines ++ [Log.line .error Log.Logger.engine text]⟩

def goOn (graph : FlowGraph) (node : Node) (outcome : Outcome) (walk : Walk) (context : Context) :
    Turn :=
  let next := graph.next node.id outcome.status
  let turn :=
    if outcome.status == .failure && next.isEmpty then unrouted node outcome walk context
    else ⟨walk, context, []⟩
  let turn := queueNext node outcome next turn
  { turn with lines := graph.nextWarnings node.id outcome.status ++ turn.lines }

/-- What follows from a visit. The node has left the queue and its outcome is recorded. -/
def after (graph : FlowGraph) (node : Node) (outcome : Outcome) (walk : Walk) (context : Context) :
    Turn :=
  let walk := { walk with visits := walk.visits ++ [⟨node, outcome⟩] }
  let context := { context with order := context.order ++ [node.id] }
  if node.type.isTerminal then atEnd node outcome walk context
  else if outcome.halts then halt node outcome walk context
  else goOn graph node outcome walk context

end Turn

end FlowEngine
