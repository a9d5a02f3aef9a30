import FlowEngine.Json.Parser
import FlowEngine.Fault
import FlowEngine.Settings.Basic

/-!
# Reading settings

Settings come from a file, which may be missing or hold anything, and keys for providers from the
environment as well. The provider that the file names takes its key from the variable that the file
names, which wins over the others.
-/

namespace FlowEngine.Settings

/-- What a configuration file holds; nothing when there is none or when it holds no object. -/
def fileFields (content : Option String) : Except Fault (Entries Value) :=
  match content with
  | none => .ok []
  | some text =>
    match Json.read (Text.dropFront "\ufeff" text) with
    | .ok (.object fields) => .ok fields
    | .ok _ => .ok []
    | .error .malformed => .ok []
    | .error (.tooManyDigits count) => .error (.tooManyDigits count)

def part (fields : Entries Value) (name : String) : Entries Value :=
  (Value.ofOption (fields.get? name)).fieldsOf

abbrev Environment := String → Option String

def lookUp? (environment : Environment) (name : String) : Option String :=
  (environment name).filter (!·.isEmpty)

def namedKeys (environment : Environment) : Entries Credentials :=
  Provider.all.filterMap fun p =>
    (lookUp? environment (Text.upper p.name ++ "_API_KEY")).map fun key =>
      (p.name, ⟨key, .null⟩)

/-- The keys by provider, that of the configured provider included. -/
def credentialsOf (fields : Entries Value) (environment : Environment) :
    Except Fault (Entries Credentials) := do
  let model := part fields "llm"
  let keys := namedKeys environment
  let wanted := Value.ofOption (model.get? "api_key_env_var")
  match ← Provider.ofSetting (Value.ofOption (model.get? "provider")) with
  | none => .ok keys
  | some p =>
    if wanted.isVoid then .ok keys
    else
      match wanted with
      | .text name =>
        match lookUp? environment name with
        | some key =>
          .ok (keys.put p.name ⟨key, Value.ofOption (model.get? "api_base")⟩)
        | none => .ok keys
      | v => .error (.outside "TypeError" ("str expected, not " ++ v.kindName))

def variableNames (fields : Entries Value) : List String :=
  let wanted :=
    match (part fields "llm").get? "api_key_env_var" with
    | some (.text name) => [name]
    | _ => []
  Provider.all.map (fun p => Text.upper p.name ++ "_API_KEY") ++ wanted

def ofFields (fields : Entries Value) (environment : Environment) : Except Fault Settings := do
  let engine (key : String) (fallback : Value) : Value :=
    ((part fields "engine").get? key).getD fallback
  let model (key : String) (fallback : Value) : Value :=
    ((part fields "llm").get? key).getD fallback
  .ok {
    maxSteps := engine "max_steps" default.maxSteps
    scriptTimeout := engine "script_timeout_seconds" default.scriptTimeout
    httpTimeout := engine "http_timeout_seconds" default.httpTimeout
    model := model "model" default.model
    maxTokens := model "max_tokens" default.maxTokens
    temperature := model "temperature" default.temperature
    maxInputChars := engine "ai_max_input_chars" default.maxInputChars
    maxDepth := engine "max_sub_flow_depth" default.maxDepth
    credentials := ← credentialsOf fields environment }

def ofFile (content : Option String) (environment : Environment) : Except Fault Settings := do
  ofFields (← fileFields content) environment

end FlowEngine.Settings
