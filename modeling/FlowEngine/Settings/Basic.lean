import FlowEngine.Fault
import FlowEngine.Model.Provider
import FlowEngine.Number.Double

/-!
# Settings

How the engine is set up. A setting is a value of any kind, as it was configured; only what uses it
can tell whether it fits.
-/

namespace FlowEngine

/-- The settings of the engine, none of them checked yet. -/
structure Settings where
  maxSteps : Value
  scriptTimeout : Value
  httpTimeout : Value
  model : Value
  maxTokens : Value
  temperature : Value
  maxInputChars : Value
  maxDepth : Value
  credentials : Entries Credentials
  deriving DecidableEq, Repr

namespace Settings

def default : Settings where
  maxSteps := .int 5000
  scriptTimeout := .int 10
  httpTimeout := .double (.ofNat 30)
  model := .null
  maxTokens := .int 1000
  temperature := .double (.ofNat 0)
  maxInputChars := .int 12000
  maxDepth := .int 16
  credentials := []

def entries (settings : Settings) : Entries Value :=
  [("max_steps", settings.maxSteps), ("script_timeout_seconds", settings.scriptTimeout),
    ("http_timeout_seconds", settings.httpTimeout), ("llm_model", settings.model),
    ("llm_max_tokens", settings.maxTokens), ("llm_temperature", settings.temperature),
    ("ai_max_input_chars", settings.maxInputChars), ("max_sub_flow_depth", settings.maxDepth)]

def toValue (settings : Settings) : Value :=
  .object (settings.entries ++
    [("llm_credentials", .object (settings.credentials.mapValues Credentials.toValue))])

/-- The name by which credentials are given. They are given as none at all or not by name. -/
def credentialsName : String := "llm_credentials"

def unknownNames (given : Entries Value) : List String :=
  given.keys.filter fun name => !(credentialsName :: default.entries.keys).contains name

/-- The same settings with the values given by name. Each name must be that of a setting. -/
def override (settings : Settings) (given : Entries Value) : Except Fault Settings := do
  let value (name : String) (v : Value) : Value := (given.get? name).getD v
  if let name :: _ := unknownNames given then
    .error (.outside "TypeError" ("unexpected setting '" ++ name ++ "'"))
  let credentials ← match given.get? credentialsName with
    | none => .ok settings.credentials
    | some (.object []) => .ok []
    | some v => .error (.noOperation v.kindName "api_key")
  .ok { settings with
    maxSteps := value "max_steps" settings.maxSteps
    scriptTimeout := value "script_timeout_seconds" settings.scriptTimeout
    httpTimeout := value "http_timeout_seconds" settings.httpTimeout
    model := value "llm_model" settings.model
    maxTokens := value "llm_max_tokens" settings.maxTokens
    temperature := value "llm_temperature" settings.temperature
    maxInputChars := value "ai_max_input_chars" settings.maxInputChars
    maxDepth := value "max_sub_flow_depth" settings.maxDepth
    credentials }

end Settings

end FlowEngine
