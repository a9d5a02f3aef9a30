import FlowEngine.Data.Value

/-!
# Events

What observers are told while flows run: the beginning and the end of a run, and the beginning, the
retries, the faults and the end of each node.
-/

namespace FlowEngine

inductive EventKind where
  | executionStarted
  | executionCompleted
  | executionFailed
  | nodeStarted
  | nodeRetrying
  | nodeCompleted
  | nodeError
  | custom
  deriving DecidableEq, Repr, Inhabited

namespace EventKind

def name : EventKind → String
  | .executionStarted => "execution_started"
  | .executionCompleted => "execution_completed"
  | .executionFailed => "execution_failed"
  | .nodeStarted => "node_started"
  | .nodeRetrying => "node_retrying"
  | .nodeCompleted => "node_completed"
  | .nodeError => "node_error"
  | .custom => "custom"

def all : List EventKind :=
  [.executionStarted, .executionCompleted, .executionFailed, .nodeStarted, .nodeRetrying,
    .nodeCompleted, .nodeError, .custom]

def ofName? (s : String) : Option EventKind := all.find? (·.name == s)

end EventKind

structure Event where
  kind : EventKind
  flowId : Option String
  executionId : Option String
  nodeId : Option String
  data : Entries Value
  deriving DecidableEq, Repr

namespace Event

def toValue (event : Event) : Value :=
  .object [("type", .text event.kind.name), ("flow_id", Value.ofText? event.flowId),
    ("execution_id", Value.ofText? event.executionId), ("node_id", Value.ofText? event.nodeId),
    ("data", .object event.data)]

def publisher (event : Event) : String := "emit_" ++ event.kind.name

def executionStarted (flowId executionId : Option String) (payload : Entries Value) : Event :=
  ⟨.executionStarted, flowId, executionId, none, [("input", .object payload)]⟩

def executionCompleted (flowId executionId : Option String) (status : String) : Event :=
  ⟨.executionCompleted, flowId, executionId, none, [("status", .text status)]⟩

/-- A run has ended without a result, or was refused. -/
def executionFailed (flowId executionId : Option String) (error : String) : Event :=
  ⟨.executionFailed, flowId, executionId, none, [("error", .text error)]⟩

def nodeStarted (flowId executionId nodeId : Option String) : Event :=
  ⟨.nodeStarted, flowId, executionId, nodeId, []⟩

def nodeRetrying (flowId executionId nodeId : Option String) (attempt most : Int)
    (seconds : Value) (error : String) : Event :=
  ⟨.nodeRetrying, flowId, executionId, nodeId,
    [("attempt", .int attempt), ("max_retries", .int most), ("delay_seconds", seconds),
      ("error", .text error)]⟩

/-- A node has ended with a status; the saved outputs are those after it. -/
def nodeCompleted (flowId executionId nodeId : Option String) (status : String)
    (saved : Entries Value) : Event :=
  ⟨.nodeCompleted, flowId, executionId, nodeId,
    [("status", .text status), ("nex", .object saved)]⟩

def nodeError (flowId executionId nodeId : Option String) (error : String) : Event :=
  ⟨.nodeError, flowId, executionId, nodeId, [("error", .text error)]⟩

/-- An event of a kind from its named fields. A field that is missing is null; payloads, saved outputs
and the error before a retry are empty instead. -/
def ofFields (kind : EventKind) (fields : Entries Value) : Event :=
  let id? (key : String) : Option String :=
    match fields.get? key with
    | some (.text s) => some s
    | _ => none
  let value (key : String) : Value := .ofOption (fields.get? key)
  let orEmpty (key : String) (empty : Value) : Value :=
    if (value key).isVoid then empty else value key
  let event (node : Option String) (data : Entries Value) : Event :=
    ⟨kind, id? "flow_id", id? "execution_id", node, data⟩
  match kind with
  | .executionStarted => event none [("input", orEmpty "payload" (.object []))]
  | .executionCompleted => event none [("status", value "status")]
  | .executionFailed => event none [("error", value "error")]
  | .nodeStarted => event (id? "node_id") []
  | .nodeRetrying =>
    event (id? "node_id")
      [("attempt", value "attempt"), ("max_retries", value "max_retries"),
        ("delay_seconds", value "delay_seconds"), ("error", orEmpty "error" (.text ""))]
  | .nodeCompleted =>
    event (id? "node_id") [("status", value "status"), ("nex", orEmpty "nex" (.object []))]
  | .nodeError => event (id? "node_id") [("error", value "error")]
  | .custom => event (id? "node_id") (value "data").fieldsOf

end Event

end FlowEngine
