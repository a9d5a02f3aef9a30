import FlowEngine.Settings.Basic
import FlowEngine.Step.AskModel
import FlowEngine.Step.Branch
import FlowEngine.Step.CallFlow
import FlowEngine.Step.CallService
import FlowEngine.Step.Data
import FlowEngine.Step.Finish
import FlowEngine.Step.Loop
import FlowEngine.Step.Registry

/-!
# The executors that come with the engine

One executor for each type that can be run without further parts.
-/

namespace FlowEngine.Step

def modelSettings (settings : Settings) : AskModel.Settings where
  client := Model.Client.default
  credentials := settings.credentials
  maxInputChars := settings.maxInputChars
  model := settings.model
  maxTokens := settings.maxTokens
  temperature := settings.temperature

/-- The executor of a type, if the engine has one. -/
def executor? (settings : Settings) (connectors : Entries Connector)
    (launcher : Option CallFlow.Launcher) : NodeType → Option Executor
  | .start => some start
  | .success => some (finish .success)
  | .failure => some (finish .failure)
  | .variable => some setVariables
  | .mapper => some reshape
  | .decision => some Branch.execute
  | .loop => some Loop.execute
  | .script => some script
  | .nexus => some (CallService.execute ⟨connectors, settings.httpTimeout⟩)
  | .subFlow => some (CallFlow.execute launcher)
  | .ai => some (AskModel.execute (modelSettings settings))
  | _ => none

/-- The types that have an executor, in the order in which they are registered. -/
def standardTypes : List NodeType :=
  [.start, .success, .failure, .variable, .mapper, .decision, .loop, .script, .nexus, .subFlow, .ai]

def standard (settings : Settings) (connectors : Entries Connector)
    (launcher : Option CallFlow.Launcher) : Registry Executor where
  entries := standardTypes.filterMap fun type =>
    (executor? settings connectors launcher type).map fun executor => (type, executor)
  nodup := by
    have h : (standardTypes.filterMap fun type =>
        (executor? settings connectors launcher type).map fun executor => (type, executor)).map
          (·.1) = standardTypes := rfl
    rw [h]
    decide

/-- What is told in the log of a registry: the types in alphabetical order. -/
def builtLine (registry : Registry Executor) : Log.Line :=
  let names := (registry.types.map NodeType.name).mergeSort fun a b => !(b < a)
  Log.line .debug Log.Logger.registry
    ("Executor registry built for [" ++
      ", ".intercalate (names.map fun name => "<NodeType." ++ name ++ ": '" ++ name ++ "'>") ++ "]")

end FlowEngine.Step
