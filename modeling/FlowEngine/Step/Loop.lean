import FlowEngine.Condition.Compare
import FlowEngine.Run.Work

/-!
# Loops

Each visit of a loop collects the output of the body pass that led to it, and goes on while the
condition holds. A loop without a way back, and one that has used up its iterations, ends the run.
-/

namespace FlowEngine.Step.Loop

def mostIterations : Int := 1000

/-- How often a loop may go on by its setting. A setting that is no finite number counts as
missing. -/
def bound (setting : Value) : Except Fault Int := do
  let d ← setting.asDouble
  if d.isFinite then .ok (min mostIterations (max 1 d.truncate)) else .ok defaultMaxIterations

/-- The condition of a loop; one that is missing never holds. -/
def condition (node : Node) : String :=
  match node.setting "condition" with
  | .null => "false"
  | v => v.display

/-- What a visit adds to the collected outputs: the output of the node that ran last. On the first
visit it counts only when that node belongs to the body. -/
def collected (context : Context) (state : LoopState) : List Value :=
  match context.lastExecuted? with
  | none => []
  | some last =>
    let body := (context.loopBodies.get? state.nodeId).getD []
    if last == state.nodeId || (state.index == 0 && !body.contains last) then []
    else
      match context.outcome? last with
      | none => []
      | some outcome => [Outcome.optionalObject (outcome.successOutput.or outcome.output)]

/-- Texts that begin like this are paths even without braces. -/
def pathFronts : List String := ["loop.", "variables.", "nex.", "nodes.", "meta."]

/-- An operand of a condition: the value at a path if there is one, and the text itself otherwise. -/
def operand (scope : Scope) (text : String) : Except Fault String :=
  if pathFronts.any fun front => Text.startsWith text front then
    (scope.path text).map fun v => match v with | .null => text | v => v.inline
  else .ok text

def resolvedHolds (scope : Scope) (resolved : String) : Except Fault Bool :=
  match Condition.splitCondition resolved with
  | none => (operand scope resolved).map fun text => Text.lower text == "true"
  | some (left, sign, right) => do
    let left ← operand scope left
    let right ← operand scope right
    .ok (Condition.loopHolds left sign right)

def holds (node : Node) (state : LoopState) : Work Bool := do
  let scope : Scope := ⟨← Work.context, some state⟩
  let resolved ← Work.resolve scope (condition node)
  Doing.ofExcept (resolvedHolds scope (Text.trim resolved))

def halt (node : Node) (error : String) : Work Outcome := do
  Work.change fun context => context.fail error
  return Outcome.halted node error

def noWayBackText (node : Node) : String :=
  "LOOP node '" ++ node.displayName ++ "' has no CONTINUE edge. " ++
    "Draw an edge from the CONTINUE handle back to the loop body."

def usedUpText (node : Node) (most : Int) : String :=
  "Loop exceeded max iterations (" ++ toString most ++ ") at node '" ++ node.displayName ++
    "'. Increase max or fix the exit condition."

def summary (state : LoopState) : Entries Value :=
  [("index", .int state.index), ("accumulated", .list state.accumulated),
    ("iterationCount", .int (state.index + 1))]

def goOn (node : Node) (state : LoopState) : Work Outcome := do
  let state := { state with index := state.index + 1 }
  Work.change fun context => context.setLoop node.id state
  Work.note (Log.line .debug Log.Logger.loop
    ("Loop " ++ node.displayName ++ " continuing, index=" ++ toString state.index))
  return Outcome.plain node .continuing
    [("index", .int state.index), ("continuing", .bool true)]

def leave (node : Node) (state : LoopState) : Work Outcome := do
  let output := summary state
  match (← Doing.ofExcept node.saveName).filter isSaveName with
  | some name => Work.change fun context => context.save name (.object output)
  | none => pure ()
  Work.note (Log.line .info Log.Logger.loop
    ("Loop " ++ node.displayName ++ " finished after " ++ toString state.index ++ " iterations"))
  return { Outcome.plain node .success output with successOutput := some output }

/-- A visit of a loop that has a way back. -/
def visit (node : Node) : Work Outcome := do
  let most ← Doing.ofExcept (bound (node.setting "maxIterations"))
  let context ← Work.context
  let state := context.enterLoop node.id most
  Work.change fun context => context.setLoop node.id state
  if state.maxIterations ≤ state.index then
    halt node (usedUpText node most)
  else
    let state := { state with accumulated := state.accumulated ++ collected context state }
    Work.change fun context => context.setLoop node.id state
    if ← holds node state then goOn node state else leave node state

def execute : Executor := fun node => do
  if ((← Work.context).loopEdges.get? node.id).getD false then visit node
  else halt node (noWayBackText node)

end FlowEngine.Step.Loop
