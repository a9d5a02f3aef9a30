import FlowEngine.Execution.Record
import FlowEngine.Flow.Store
import FlowEngine.Run.Engine
import FlowEngine.Step.CallFlow

/-!
# The dispatcher

A trigger asks that a flow be run with a payload, and makes an execution of it: one that is waited
for, or one in the background. A run that is waited for is refused when its flow is already running
around it, or when too many runs are around it. Whatever happens in a run, its execution is kept with
a final status; only a flow that is not known reaches whoever triggered.
-/

namespace FlowEngine

structure Dispatcher where
  flows : FlowStore
  /-- How many nodes a run may visit where its flow does not say so itself. -/
  maxSteps : Value
  maxDepth : Value
  /-- The executors, made with what launches the children of a run. -/
  registry : Option Step.CallFlow.Launcher → Registry Executor

namespace Act

variable {α : Type}

/-- Carries out an act inside one more run. Afterwards the enclosing runs are those of before. -/
def inside (flow : String) (x : Act α) : Act α := fun place =>
  Dialogue.bind (x { place with chain := place.chain ++ [flow] }) fun (result, after) =>
    .done (result, { after with chain := place.chain })

/-- Publishes an event about an execution. That it could not be published is only told in the
log. -/
def emit (execution : String) (event : Event) : Act Unit := do
  match ← Doing.ask (.publish event) with
  | none => pure ()
  | some reason =>
    note (Log.line .warning Log.Logger.runtime
      ("Event " ++ event.publisher ++ " for execution " ++ execution ++ " was not delivered: " ++
        reason))

end Act

namespace Dispatcher

def flow (d : Dispatcher) (id : String) : Except Fault FlowGraph :=
  match Entries.get? d.flows id with
  | some graph => .ok graph
  | none => .error (.flowNotFound id)

def begin (flow startedBy : String) : Act Execution := do
  let id ← Doing.ask .freshId
  let now ← Doing.ask .now
  let execution := Execution.begun id flow startedBy now
  Doing.ask (.keep execution)
  return execution

def circularText (flow : String) (chain : List String) : String :=
  "Circular reference: flow '" ++ flow ++ "' is already running in this chain (" ++
    " -> ".intercalate (chain ++ [flow]) ++ ")"

def depthText (d : Dispatcher) : String :=
  "Sub-flow depth exceeded: more than " ++ d.maxDepth.display ++ " nested flows"

def refusal? (d : Dispatcher) (chain : List String) (flow : String) :
    Except Fault (Option String) :=
  if flow ∈ chain then .ok (some (circularText flow chain))
  else do
    .ok (if ← Limit.reached d.maxDepth chain.length then some d.depthText else none)

def refuse (flow startedBy reason : String) : Act Execution := do
  Act.note (Log.line .warning Log.Logger.runtime ("Refusing to run flow " ++ flow ++ ": " ++ reason))
  let now ← Doing.ask .now
  let id ← Doing.ask .freshId
  let execution : Execution :=
    ⟨id, flow, .failure, startedBy, now, some now, some (Execution.crashSnapshot reason)⟩
  Doing.ask (.keep execution)
  Act.emit id (Event.executionFailed (some flow) (some id) reason)
  return execution

structure Ending where
  status : RunStatus
  snapshot : Entries Value
  /-- The text of the fault in which the run ended. -/
  error : Option String
  deriving DecidableEq, Repr

def Ending.ofContext (context : Context) : Except Fault Ending :=
  context.written.map fun snapshot =>
    ⟨if context.status = .success then .success else .failure, snapshot.fieldsOf, none⟩

def Ending.ofFault (fault : Fault) : Ending :=
  ⟨.failure, Execution.crashSnapshot fault.message, some fault.message⟩

def runInside (engine : Engine) (graph : FlowGraph) (execution : Execution)
    (payload : Entries Value) : Act Ending :=
  Act.inside graph.id do
    Act.emit execution.id (Event.executionStarted (some graph.id) (some execution.id) payload)
    let ended : Act Ending := do
      Doing.ofExcept (Ending.ofContext (← engine.execute graph execution.id payload))
    match ← Doing.attempt ended with
    | .ok ending => return ending
    | .error fault =>
      Act.noteCourse (Log.line .error Log.Logger.runtime
        ("Execution " ++ execution.id ++ " of flow " ++ graph.id ++ " crashed"))
      return Ending.ofFault fault

def Ending.event (ending : Ending) (flow execution : String) : Event :=
  match ending.error with
  | some error => Event.executionFailed (some flow) (some execution) error
  | none => Event.executionCompleted (some flow) (some execution) ending.status.name

def conduct (engine : Engine) (graph : FlowGraph) (execution : Execution)
    (payload : Entries Value) : Act Execution := do
  let ending ← runInside engine graph execution payload
  let now ← Doing.ask .now
  let execution := { execution with
    status := ending.status
    completedAt := some now
    snapshot := some ending.snapshot }
  Doing.ask (.keep execution)
  Act.emit execution.id (ending.event graph.id execution.id)
  Act.note (Log.line .info Log.Logger.runtime
    ("Execution " ++ execution.id ++ " of flow " ++ graph.id ++ " finished: " ++
      ending.status.name))
  return execution

def start (d : Dispatcher) (flow : String) (payload : Entries Value) (startedBy : String) :
    Act Execution := do
  let graph ← Doing.ofExcept (d.flow flow)
  let execution ← begin flow startedBy
  let place ← Doing.state
  Doing.ask (.start ⟨graph, execution, payload, place.trace, place.chain⟩)
  Act.note (Log.line .info Log.Logger.runtime
    ("Triggered flow " ++ flow ++ " as execution " ++ execution.id))
  return execution

/-- Starts a run in the background. A flow that is not known is only told in the log, and so is a run
that too many runs would be around. -/
def startDetached (d : Dispatcher) (flow : String) (payload : Entries Value) (startedBy : String) :
    Act Unit := do
  let place ← Doing.state
  if ← Doing.ofExcept (Limit.reached d.maxDepth place.chain.length) then
    Act.note (Log.line .error Log.Logger.runtime
      ("Not triggering flow " ++ flow ++ ": sub-flow depth exceeded"))
  else
    match d.flow flow with
    | .ok _ => let _ ← d.start flow payload startedBy
    | .error fault =>
      Act.note (Log.line .error Log.Logger.runtime
        ("Async trigger of flow " ++ flow ++ " failed: " ++ fault.text))

def flowName? (d : Dispatcher) (id : String) : Option String :=
  (Entries.get? d.flows id).map fun graph => if graph.name.isEmpty then id else graph.name

/-- What launches children by the dispatcher, given how it runs those that are waited for. -/
def launcher (d : Dispatcher) (run : String → Entries Value → String → Act Execution) :
    Step.CallFlow.Launcher where
  flowName? := d.flowName?
  run flow payload startedBy := do
    let execution ← run flow payload startedBy
    return ⟨execution.id, execution.status.name, execution.snapshot⟩
  start := d.startDetached

def engineWith (d : Dispatcher) (run : String → Entries Value → String → Act Execution) : Engine :=
  ⟨d.registry (some (d.launcher run)), d.maxSteps⟩

/-- Runs a flow and waits for it. The number is how many runs may still be nested: one for each flow
is enough, since no flow runs inside itself. -/
def runWithin (d : Dispatcher) : Nat → String → Entries Value → String → Act Execution
  | room, flow, payload, startedBy => do
    let graph ← Doing.ofExcept (d.flow flow)
    let place ← Doing.state
    match ← Doing.ofExcept (d.refusal? place.chain flow) with
    | some reason => refuse flow startedBy reason
    | none =>
      match room with
      | 0 => refuse flow startedBy d.depthText
      | room + 1 => do
        let execution ← begin flow startedBy
        conduct (d.engineWith (d.runWithin room)) graph execution payload

def room (d : Dispatcher) : Nat := d.flows.length

def run (d : Dispatcher) (flow : String) (payload : Entries Value) (startedBy : String) :
    Act Execution :=
  d.runWithin d.room flow payload startedBy

def background (d : Dispatcher) (start : Start) : Dialogue (Except Fault Execution × Place) :=
  conduct (d.engineWith (d.runWithin d.room)) start.flow start.execution start.payload
    ⟨start.trace, start.chain⟩

end Dispatcher

end FlowEngine
