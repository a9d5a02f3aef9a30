import FlowEngine.Data.Display
import FlowEngine.Json.Printer
import FlowEngine.Log.Record
import FlowEngine.Text.Case
import FlowEngine.Text.Color
import FlowEngine.Text.Search

/-!
# The form of log lines

A line is written for people, in color and with the short ids of the run, or for machines, as one
JSON object without color codes.
-/

namespace FlowEngine.Log

inductive Style where
  | human
  | json
  deriving DecidableEq, Repr

def toldFields : List String := ["event", "latency_ms", "model", "attempt"]

def plain : Value → Value
  | .text s => .text (Text.stripColor s)
  | v => v

def extraFields (line : Line) : Entries Value :=
  toldFields.filterMap fun name =>
    match line.extra.get? name with
    | none | some .null => none
    | some v => some (name, plain v)

/-- A log entry as an object. The fields of the trace win over those of the line, and the told fields
over both. -/
def Entry.fields (entry : Entry) : Entries Value :=
  let line := entry.record.line
  Entries.putAll (Entries.putAll
    [("timestamp", .text entry.time.iso), ("level", .text (Text.lower line.level.name)),
      ("logger", .text line.logger), ("message", .text (Text.stripColor line.message))]
    entry.record.trace) (extraFields line)

def Level.color (level : Level) : String :=
  if level = debug then "\x1b[36m"
  else if level = info then "\x1b[32m"
  else if level = warning then "\x1b[33m"
  else if level = error then "\x1b[31m"
  else if level = critical then "\x1b[35m"
  else ""

def Level.column (level : Level) : String :=
  level.name ++ String.ofList (List.replicate (8 - level.name.length) ' ')

def shownIds (trace : Trace) : List String :=
  let shown (key : String) (form : Value → String) : Option String :=
    match trace.get? key with
    | some v => if v.isVoid then none else some (form v)
    | none => none
  [shown "flow_id" fun v => "flow:" ++ v.display,
    shown "execution_id" fun v => "exec:" ++ Text.takeBack 8 v.display,
    shown "node_id" fun v => "node:" ++ v.display].filterMap id

def place (trace : Trace) : String :=
  match shownIds trace with
  | [] => ""
  | ids => "[" ++ " | ".intercalate ids ++ "] "

def humanText (record : Record) : String :=
  record.line.level.color ++ "[" ++ record.line.level.column ++ "]\x1b[0m " ++
    place record.trace ++ record.line.message

def Style.render (style : Style) (entry : Entry) : String :=
  match style with
  | .json => Json.print (.object entry.fields)
  | .human => humanText entry.record

end FlowEngine.Log
