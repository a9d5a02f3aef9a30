import FlowEngine.Fault
import FlowEngine.Log.Record

/-!
# Results of scripts

A script ends with an output or with an error. The error is told by the script, so it may be any
value.
-/

namespace FlowEngine.Script

inductive Result where
  | finished (output : Value)
  | failed (error : Value)
  deriving DecidableEq, Repr

def Result.toValue : Result → Value
  | .finished output => .object [("success", .bool true), ("output", output), ("error", .null)]
  | .failed error => .object [("success", .bool false), ("output", .null), ("error", error)]

/-- What is said of the run of a script: lines for the log, and the result if there is one. -/
structure Report where
  /-- For how many turns of others the report is waited for. -/
  turns : Nat
  lines : List Log.Line
  result : Except Fault Result

/-- What keeps a script from being run: an error of the system, which its result tells, or something
else, of which there is no result. -/
inductive Trouble where
  | system (text : String)
  | other (fault : Fault)
  deriving DecidableEq, Repr

namespace Trouble

def result : Trouble → Except Fault Result
  | .system text => .ok (.failed (.text ("Failed to run script: " ++ text)))
  | .other fault => .error fault

def lines : Trouble → List Log.Line
  | .system text => [Log.line .error Log.Logger.runner ("Script runner IO error: " ++ text)]
  | .other _ => []

def report (trouble : Trouble) : Report := ⟨0, trouble.lines, trouble.result⟩

end Trouble

def defaultLanguage : String := "javascript"

end FlowEngine.Script
