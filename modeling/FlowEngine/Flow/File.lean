import FlowEngine.Flow.Document
import FlowEngine.Flow.FilePath
import FlowEngine.Fault

/-!
# Flow graph files

A graph is read from the text of a JSON file. A document without an id is called after its file.
-/

namespace FlowEngine

inductive FlowFileError where
  | noFile (file : String)
  | notJson (file : String)
  | misfit (file : String) (problems : List Document.Problem)
  | tooManyDigits (count : Nat)
  deriving DecidableEq, Repr

namespace FlowFileError

/-- The text of an error, without the cause. -/
def text : FlowFileError → String
  | .noFile file => "Cannot read flow graph '" ++ file ++ "'"
  | .notJson file => "Cannot read flow graph '" ++ file ++ "'"
  | .misfit file _ => "Invalid flow graph '" ++ file ++ "'"
  | .tooManyDigits count => (Fault.tooManyDigits count).text

def causeKind : FlowFileError → String
  | .noFile _ => "FileNotFoundError"
  | .notJson _ => "JSONDecodeError"
  | .misfit .. => "ValidationError"
  | .tooManyDigits count => (Fault.tooManyDigits count).kind

def problems : FlowFileError → List Document.Problem
  | .misfit _ problems => problems
  | _ => []

end FlowFileError

namespace FlowGraph

/-- Gives a document its id when it has none. -/
def withDefaultId (id : String) : Value → Value
  | .object fields =>
    .object (if Entries.has fields "id" then fields else Entries.put fields "id" (.text id))
  | v => v

/-- Reads a graph from the text of a file, which is missing when there is no such file. -/
def ofFile (path : FilePath) (content : Option String) : Except FlowFileError FlowGraph :=
  let file := path.text
  match content with
  | none => .error (.noFile file)
  | some content =>
    match Json.read content with
    | .error .malformed => .error (.notJson file)
    | .error (.tooManyDigits count) => .error (.tooManyDigits count)
    | .ok doc =>
      match ofDocument (withDefaultId (path.stem) doc) with
      | .fits graph => .ok graph
      | .misfits problems => .error (.misfit file problems)

end FlowGraph

end FlowEngine
