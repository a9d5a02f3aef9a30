import FlowEngine.Execution.Record

/-!
# The store of executions

Executions are kept by id, in the order in which they were first saved.
-/

namespace FlowEngine

abbrev ExecutionStore := Entries Execution

namespace ExecutionStore

/-- Keeps an execution in the place of the one with its id. -/
def save (store : ExecutionStore) (execution : Execution) : ExecutionStore :=
  Entries.put store execution.id execution

def get? (store : ExecutionStore) (id : String) : Option Execution := Entries.get? store id

def list (store : ExecutionStore) (flow : Option String) : List Execution :=
  (store.map (·.2)).filter fun execution => (flow.map (execution.flowId == ·)).getD true

end ExecutionStore

end FlowEngine
