import FlowEngine.Run.Context

/-!
# Executions

A run as it is seen from outside: whose flow, started by whom, how it stands, and the snapshot of its
context once it has ended.
-/

namespace FlowEngine

structure Execution where
  id : String
  flowId : String
  status : RunStatus
  triggeredBy : String
  startedAt : Instant
  completedAt : Option Instant
  snapshot : Option (Entries Value)
  deriving DecidableEq, Repr

namespace Execution

def begun (id flowId triggeredBy : String) (now : Instant) : Execution :=
  ⟨id, flowId, .running, triggeredBy, now, none, none⟩

/-- The snapshot of a run that never had a context. -/
def crashSnapshot (error : String) : Entries Value :=
  [("nodes", .object []), ("nodeExecutionOrder", .list []), ("error", .text error)]

def isFinished (execution : Execution) : Bool := execution.status != .running

open Document in
/-- Reads an execution from the fields of a document. A missing beginning is that of the reading. -/
def ofFields (origin : Origin) (now : Instant) (doc : Entries Value) : Checked Execution :=
  Execution.mk <$> required ["id"] text doc
    <*> required ["flowId", "flow_id"] text doc
    <*> optional ["status"] .running (member RunStatus.ofValue?) doc
    <*> optional ["triggeredBy", "triggered_by"] "API" text doc
    <*> optional ["startedAt", "started_at"] now (instant origin) doc
    <*> optional ["completedAt", "completed_at"] none (nullable (instant origin)) doc
    <*> optional ["snapshot"] none (nullable object) doc

def ofDocument (origin : Document.Origin) (now : Instant) (doc : Value) :
    Document.Checked Execution :=
  Document.record (ofFields origin now) doc

def toDocument (execution : Execution) : Value :=
  Document.form (.object [("id", .text execution.id), ("flowId", .text execution.flowId),
    ("status", .text execution.status.name), ("triggeredBy", .text execution.triggeredBy),
    ("startedAt", .instant execution.startedAt),
    ("completedAt",
      match execution.completedAt with | some t => .instant t | none => .null),
    ("snapshot", Outcome.optionalObject execution.snapshot)])

def written (execution : Execution) : Except Fault Value :=
  Document.written (execution.snapshot.all (Document.fitBelow 0)) execution.toDocument

end Execution

end FlowEngine
