import FlowEngine.Execution.Key
import FlowEngine.Execution.Record
import FlowEngine.Json.Parser
import FlowEngine.Json.Printer

/-!
# Executions in files

A folder with one file for each execution, named after its id. A file that someone else put there is
read too when its name has the right ending and does not begin with a dot.
-/

namespace FlowEngine

abbrev Folder := Entries String

inductive FilesError where
  | key (error : KeyError)
  | misfit (problems : List Document.Problem)
  | unwritable
  deriving DecidableEq, Repr

namespace ExecutionFiles

def nameOf (id : String) : String := id ++ ".json"

def textOf (execution : Execution) : Except FilesError String :=
  match execution.written with
  | .ok doc => .ok (Json.pretty doc)
  | .error _ => .error .unwritable

def ofText (now : Instant) (text : String) : Except FilesError Execution :=
  match Json.readWith .strict text with
  | .error _ => .error (.misfit [⟨[], .notJson⟩])
  | .ok doc =>
    match Execution.ofDocument .text now doc with
    | .fits execution => .ok execution
    | .misfits problems => .error (.misfit problems)

/-- Keeps an execution. An id that is not safe as a name leaves the folder as it is, and so does an
execution that cannot be written. -/
def save (folder : Folder) (execution : Execution) : Except FilesError Folder :=
  match checkKey execution.id with
  | .error e => .error (.key e)
  | .ok () => (textOf execution).map (folder.put (nameOf execution.id))

def get? (now : Instant) (folder : Folder) (id : String) : Except FilesError (Option Execution) :=
  match checkKey id with
  | .error e => .error (.key e)
  | .ok () =>
    match folder.get? (nameOf id) with
    | none => .ok none
    | some text => (ofText now text).map some

def names (folder : Folder) : List String := folder.keys.mergeSort fun a b => !(b < a)

def isRecord (name : String) : Bool := Text.endsWith name ".json" && !Text.startsWith name "."

def readAll (now : Instant) (folder : Folder) : List String → Except FilesError (List Execution)
  | [] => .ok []
  | name :: rest => do
    let execution ← ofText now ((folder.get? name).getD "")
    .ok (execution :: (← readAll now folder rest))

/-- The executions of a flow, or all of them, in the order of the names of their files. -/
def list (now : Instant) (folder : Folder) (flow : Option String) :
    Except FilesError (List Execution) := do
  let executions ← readAll now folder ((names folder).filter isRecord)
  .ok (executions.filter fun execution => (flow.map (execution.flowId == ·)).getD true)

end ExecutionFiles

end FlowEngine
