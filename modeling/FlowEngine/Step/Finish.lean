import FlowEngine.Run.Work

/-!
# Where a run begins and ends

The start node only succeeds: its output is the payload of the run, which is there before any node
runs. The two end nodes resolve a response and differ in their status.
-/

namespace FlowEngine.Step

def start : Executor := fun node => pure (Outcome.ofStatus node .success)

def finish (status : Status) : Executor := fun node => do
  let response ← Work.resolveAll (← Work.scope) (node.mapSetting "response")
  return Outcome.plain node status response

end FlowEngine.Step
