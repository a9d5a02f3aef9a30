import FlowEngine.Run.Work

/-!
# Calls of other flows

A node runs another flow and waits for it, or starts it and goes on. What a child run hands back is
its snapshot and the result of the last of its nodes that has one.
-/

namespace FlowEngine.Step.CallFlow

structure Child where
  id : String
  status : String
  snapshot : Option (Entries Value)
  deriving DecidableEq, Repr

/-- What runs child flows. Flows are asked for by id, with a payload and the name of who starts
them. -/
structure Launcher where
  flowName? : String → Option String
  run : String → Entries Value → String → Act Child
  start : String → Entries Value → String → Act Unit

/-- The result that the outcome of a node holds, if it is not null. A result inside a result is
taken out. -/
def resultOf? (outcome : Value) : Option Value :=
  match (outcome.field? "successOutput").bind (·.field? "result") with
  | none | some .null => none
  | some (.object fields) => some ((Entries.get? fields "result").getD (.object fields))
  | some v => some v

def findResult (nodes : Entries Value) : List Value → Except Fault Value
  | [] => .ok .null
  | .text id :: rest =>
    match (nodes.get? id).bind resultOf? with
    | some v => .ok v
    | none => findResult nodes rest
  | .list _ :: _ => .error (.notAKey "list")
  | .object _ :: _ => .error (.notAKey "dict")
  | _ :: rest => findResult nodes rest

/-- The result of the last node of a run that has one. -/
def childResult (snapshot : Value) : Except Fault Value :=
  match snapshot.field? "nodeExecutionOrder", snapshot.field? "nodes" with
  | some (.list order), some (.object nodes) => findResult nodes order.reverse
  | _, _ => .ok .null

/-- What a child gets: the payload of the node or, when that is empty, what the run itself got. -/
def payloadFor (context : Context) (configured : Entries Value) : Entries Value :=
  if configured.isEmpty then
    match context.startOutput?.bind (·.get? "body") with
    | some (.object body) => body
    | _ => []
  else configured

def passesPayloadOn (context : Context) (configured : Entries Value) : Bool :=
  configured.isEmpty &&
    match context.startOutput?.bind (·.get? "body") with
    | some (.object _) => true
    | _ => false

structure Call where
  target : String
  targetName : String
  mode : String
  payload : Entries Value

def Call.input (call : Call) : Entries Value :=
  [("targetFlowId", .text call.target), ("targetFlowName", .text call.targetName),
    ("mode", .text call.mode), ("payload", .object call.payload)]

def childOutput (call : Call) (child : Child) (result : Value) : Entries Value :=
  [("executionId", .text child.id), ("status", .text child.status), ("mode", .text "SYNC"),
    ("targetFlowId", .text call.target), ("targetFlowName", .text call.targetName),
    ("nco", Outcome.optionalObject child.snapshot), ("result", result)]

def childOutcome (node : Node) (call : Call) (child : Child) (result : Value) : Outcome :=
  let output := childOutput call child result
  if child.status == Status.success.name then
    { Outcome.ofStatus node .success with
      input := some call.input
      successOutput := some output }
  else
    { Outcome.ofStatus node .failure with
      input := some call.input
      failureOutput := some output
      errorMessage := some ("Child flow ended with status: " ++ child.status) }

def startChild (launcher : Launcher) (node : Node) (call : Call) (startedBy : String) :
    Work Outcome := do
  Work.act (launcher.start call.target call.payload startedBy)
  return { Outcome.ofStatus node .success with
    input := some call.input
    successOutput := some [("status", .text "TRIGGERED"), ("mode", .text "ASYNC"),
      ("targetFlowId", .text call.target), ("targetFlowName", .text call.targetName)] }

def runChild (launcher : Launcher) (node : Node) (call : Call) (startedBy : String) :
    Work Outcome := do
  match ← Doing.attempt (Work.act (launcher.run call.target call.payload startedBy)) with
  | .error fault =>
    Work.note (Log.line .error Log.Logger.subFlow
      ("Child flow " ++ call.target ++ " raised: " ++ fault.text))
    return Outcome.failed node ("Child flow execution threw: " ++ fault.text) call.input []
  | .ok child =>
    let result ← Doing.ofExcept (childResult (Outcome.optionalObject child.snapshot))
    return childOutcome node call child result

def callTarget (launcher : Launcher) (node : Node) (target targetName : String) :
    Work Outcome := do
  let context ← Work.context
  let mode := Text.upper (Text.trim (node.textSetting "mode" "SYNC"))
  let configured ← Work.resolveAll (← Work.scope) (node.mapSetting "payload")
  if passesPayloadOn context configured then
    Work.note (Log.line .info Log.Logger.subFlow
      "Empty SUB_FLOW payload; passing the parent trigger body to the child")
  let call : Call := ⟨target, targetName, mode, payloadFor context configured⟩
  let startedBy := "SUB_FLOW:" ++ context.executionId
  Work.note (Log.line .info Log.Logger.subFlow
    ("Triggering child flow " ++ target ++ " (" ++ mode ++ ")"))
  if mode == "ASYNC" then startChild launcher node call startedBy
  else runChild launcher node call startedBy

def execute (launcher : Option Launcher) : Executor := fun node => do
  let target := Text.trim (node.textSetting "targetFlowId" "")
  if target.isEmpty then
    return Outcome.failedWith node "SUB_FLOW node has no targetFlowId configured"
  if target == (← Work.context).flowId then
    return Outcome.failedWith node
      "Circular reference: flow cannot call itself. Use a different target flow."
  match launcher with
  | none =>
    return Outcome.failedWith node "SUB_FLOW is not available: no flow runtime configured"
  | some launcher =>
    match launcher.flowName? target with
    | none => return Outcome.failedWith node ("Target flow not found: " ++ target)
    | some targetName => callTarget launcher node target targetName

end FlowEngine.Step.CallFlow
