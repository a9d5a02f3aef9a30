import FlowEngine.Data.Value

/-!
# Log lines

A line of the log with its level, the logger it belongs to, its text and the fields that went with
it. The trace tells in which run and at which node a line was written.
-/

namespace FlowEngine.Log

abbrev Level := Int

namespace Level

def debug : Level := 10
def info : Level := 20
def warning : Level := 30
def error : Level := 40
def critical : Level := 50

def name (level : Level) : String :=
  if level = 0 then "NOTSET"
  else if level = debug then "DEBUG"
  else if level = info then "INFO"
  else if level = warning then "WARNING"
  else if level = error then "ERROR"
  else if level = critical then "CRITICAL"
  else "Level " ++ toString level

def ofName? : String → Option Level
  | "CRITICAL" | "FATAL" => some critical
  | "ERROR" => some error
  | "WARN" | "WARNING" => some warning
  | "INFO" => some info
  | "DEBUG" => some debug
  | "NOTSET" => some 0
  | _ => none

end Level

/-- Fields that say where a line was written. -/
abbrev Trace := Entries Value

/-- A line before it is known where it was written. -/
structure Line where
  level : Level
  logger : String
  message : String
  extra : Entries Value
  deriving DecidableEq, Repr

structure Record where
  line : Line
  trace : Trace
  /-- Whether the line tells of a fault whose course is shown below it. -/
  withCourse : Bool
  deriving DecidableEq, Repr

structure Entry where
  time : Instant
  record : Record
  deriving DecidableEq, Repr

namespace Logger

def engine : String := "nexflow.graph.executor"
def resolver : String := "nexflow.graph.resolver"
def retry : String := "nexflow.graph.retry"
def loop : String := "nexflow.nodes.loop"
def script : String := "nexflow.nodes.script"
def subFlow : String := "nexflow.nodes.sub_flow"
def ai : String := "nexflow.nodes.ai"
def model : String := "nexflow.llm.litellm"
def http : String := "nexflow.connectors.http"
def sql : String := "nexflow.connectors.sql"
def runner : String := "nexflow.sandbox.script_runner"
def runtime : String := "nexflow.runtime.flow_runtime"
def bus : String := "nexflow.runtime.event_bus"
def flowStore : String := "nexflow.storage.flow_store"
def connectorStore : String := "nexflow.storage.connector_store"
def decision : String := "nexflow.nodes.decision"
def data : String := "nexflow.nodes.data"
def registry : String := "nexflow.nodes.registry"

end Logger

def line (level : Level) (logger message : String) : Line := ⟨level, logger, message, []⟩

end FlowEngine.Log
