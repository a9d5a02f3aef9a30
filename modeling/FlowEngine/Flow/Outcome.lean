import FlowEngine.Flow.Node
import FlowEngine.Document.Checked
import FlowEngine.Document.Written

/-!
# Outcomes of nodes

What a node produced. A node that calls a service fills one of the two outputs named for success and
failure, a simple node the plain output. Branching nodes tell their branch by the status.
-/

namespace FlowEngine

/-- How a node ended; the edges that fire depend on it. -/
inductive Status where
  | pending
  | running
  | success
  | failure
  | continuing
  | skipped
  | retrying
  deriving DecidableEq, Repr, Inhabited

namespace Status

def name : Status → String
  | .pending => "PENDING"
  | .running => "RUNNING"
  | .success => "SUCCESS"
  | .failure => "FAILURE"
  | .continuing => "CONTINUE"
  | .skipped => "SKIPPED"
  | .retrying => "RETRYING"

def all : List Status :=
  [.pending, .running, .success, .failure, .continuing, .skipped, .retrying]

def ofName? (s : String) : Option Status := all.find? (·.name == s)

def ofValue? : Value → Option Status
  | .text s => ofName? s
  | _ => none

end Status

structure Outcome where
  nodeId : String
  nodeType : String
  status : Status
  input : Option (Entries Value)
  output : Option (Entries Value)
  successOutput : Option (Entries Value)
  failureOutput : Option (Entries Value)
  errorMessage : Option String
  /-- The run ends here, whatever edges leave the node. -/
  halts : Bool
  deriving DecidableEq, Repr

namespace Outcome

def ofStatus (node : Node) (status : Status) : Outcome :=
  ⟨node.id, node.type.name, status, none, none, none, none, none, false⟩

def plain (node : Node) (status : Status) (output : Entries Value) : Outcome :=
  { ofStatus node status with output := some output }

/-- A failure. Its output tells the error, and more where more is known. -/
def failed (node : Node) (error : String) (input : Entries Value) (more : Entries Value) :
    Outcome :=
  { ofStatus node .failure with
    input := some input
    failureOutput := some (Entries.putAll [("error", .text error)] more)
    errorMessage := some error }

def failedWith (node : Node) (error : String) : Outcome := failed node error [] []

def halted (node : Node) (error : String) : Outcome := { failedWith node error with halts := true }

/-- The output that is saved: that of success, else the plain one, else that of failure. -/
def primary (o : Outcome) : Option (Entries Value) :=
  o.successOutput.or (o.output.or o.failureOutput)

def outputNamed (o : Outcome) (name : String) : Option (Entries Value) :=
  if name == "output" then o.output
  else if name == "successOutput" then o.successOutput
  else if name == "failureOutput" then o.failureOutput
  else none

def optionalObject : Option (Entries Value) → Value
  | some fields => .object fields
  | none => .null

/-- The fields of the written form. Whether the outcome halts the run is not written. -/
def fields (o : Outcome) : Entries Value :=
  [("nodeId", .text o.nodeId), ("nodeType", .text o.nodeType), ("status", .text o.status.name),
    ("input", optionalObject o.input), ("output", optionalObject o.output),
    ("successOutput", optionalObject o.successOutput),
    ("failureOutput", optionalObject o.failureOutput),
    ("errorMessage", Value.ofText? o.errorMessage)]

def snapshot (o : Outcome) : Value := Document.form (.object o.fields)

def fitsBelow (outer : Nat) (o : Outcome) : Bool :=
  [o.input, o.output, o.successOutput, o.failureOutput].all fun part =>
    part.all (Document.fitBelow outer)

def written (o : Outcome) : Except Fault Value := Document.written (o.fitsBelow 0) o.snapshot

open Document in
def ofDocument (doc : Entries Value) : Checked Outcome :=
  let part (names : List String) := optional names none (nullable object) doc
  Outcome.mk <$> required ["nodeId", "node_id"] text doc
    <*> required ["nodeType", "node_type"] text doc
    <*> required ["status"] (member Status.ofValue?) doc
    <*> part ["input"]
    <*> part ["output"]
    <*> part ["successOutput", "success_output"]
    <*> part ["failureOutput", "failure_output"]
    <*> optional ["errorMessage", "error_message"] none (nullable text) doc
    <*> optional ["haltsRun", "halts_run"] false bool doc

end Outcome

end FlowEngine
