import FlowEngine.Retry.Policy
import FlowEngine.Number.Shortest
import FlowEngine.Run.Work

/-!
# Attempts at a node

A node that fails is tried again as often as its policy says, with a wait before each new attempt. A
wait that is cancelled makes the last failure one that halts the run.
-/

namespace FlowEngine

namespace Work

/-- Publishes an event about the run. That it could not be published is only told in the log. -/
def emit (event : Event) : Work Unit := do
  match ← Doing.ask (.publish event) with
  | none => pure ()
  | some reason =>
    note (Log.line .warning Log.Logger.engine
      ("Event delivery failed for " ++ event.publisher ++ ": " ++ reason))

def emitFor (node : Node) (event : (flow execution node : Option String) → Event) : Work Unit := do
  let context ← context
  emit (event (some context.flowId) (some context.executionId) (some node.id))

end Work

def Outcome.errorText (outcome : Outcome) : String :=
  (Value.ofText? outcome.errorMessage).display

namespace Attempt

/-- Runs a node once. A fault becomes a failure with its message. -/
def once (executor : Executor) (node : Node) : Work Outcome := do
  match ← Doing.attempt (executor node) with
  | .ok outcome => return outcome
  | .error fault =>
    Work.note (Log.line .error Log.Logger.engine
      ("Node " ++ node.displayName ++ " raised: " ++ fault.message))
    Work.emitFor node fun flow execution id => Event.nodeError flow execution id fault.message
    return Outcome.failedWith node fault.message

/-- Whether another attempt is of use after an outcome. -/
def callsForMore (outcome : Outcome) : Bool := outcome.status == .failure && !outcome.halts

def cancelledText (node : Node) (attempt most : Nat) (outcome : Outcome) : String :=
  "Run cancelled while node '" ++ node.displayName ++ "' waited to retry (attempt " ++
    toString attempt ++ " of " ++ toString most ++ "): " ++ outcome.errorText

def cancel (node : Node) (attempt most : Nat) (outcome : Outcome) : Work Outcome := do
  Work.note (Log.line .warning Log.Logger.engine
    ("Retry backoff for " ++ node.displayName ++ " cancelled; keeping last failure"))
  Work.change fun context => context.fail (cancelledText node attempt most outcome)
  return { outcome with halts := true }

def announce (node : Node) (attempt most : Nat) (delay : Double) (outcome : Outcome) :
    Work Unit := do
  Work.note (Log.line .info Log.Logger.engine
    ("   ↻ Retrying " ++ node.displayName ++ " (" ++ toString attempt ++ "/" ++ toString most ++
      ") in " ++ delay.fixed 3 ++ "s: " ++ outcome.errorText))
  Work.emitFor node fun flow execution id =>
    Event.nodeRetrying flow execution id attempt most (.double delay)
      (outcome.errorMessage.getD "")

/-- Runs a node until an outcome does not call for more or no attempt is left. The first two numbers
are the attempts left after the next one and those made before it. -/
def series (executor : Executor) (node : Node) (policy : RetryPolicy) :
    Nat → Nat → Double → Work Outcome
  | 0, _, _ => once executor node
  | left + 1, made, delay => do
    let outcome ← once executor node
    if callsForMore outcome then
      announce node (made + 1) policy.maxRetries delay outcome
      if ← Doing.ask (.pause delay) then
        cancel node (made + 1) policy.maxRetries outcome
      else
        series executor node policy left (made + 1) (Double.mul delay policy.multiplier)
    else
      return outcome

def run (executor : Executor) (node : Node) : Work Outcome := do
  Work.noteAll (RetryPolicy.warnings node.config)
  let policy ← Doing.ofExcept (RetryPolicy.ofConfig node.config)
  series executor node policy policy.maxRetries 0 policy.initialDelay

end Attempt

end FlowEngine
