import FlowEngine.Data.Value
import FlowEngine.Fault
import FlowEngine.Text.Blank
import FlowEngine.Text.Case
import FlowEngine.Text.Search

/-!
# Providers of language models

The providers that a node may name, their default models, and the name under which a model is called.
-/

namespace FlowEngine

/-- Who serves a language model. The custom one is a server of one's own. -/
inductive Provider where
  | anthropic
  | openai
  | gemini
  | groq
  | mistral
  | custom
  deriving DecidableEq, Repr, Inhabited

namespace Provider

def name : Provider → String
  | .anthropic => "anthropic"
  | .openai => "openai"
  | .gemini => "gemini"
  | .groq => "groq"
  | .mistral => "mistral"
  | .custom => "custom"

def all : List Provider := [.anthropic, .openai, .gemini, .groq, .mistral, .custom]

def ofName? (s : String) : Option Provider :=
  all.find? (·.name == Text.lower (Text.trim s))

/-- The provider that a setting names. One that counts as absent names the first provider; one that
is no text is a fault. -/
def ofSetting (v : Value) : Except Fault (Option Provider) :=
  if v.isVoid then .ok (some .anthropic)
  else
    match v with
    | .text s => .ok (ofName? s)
    | v => .error (.noOperation v.kindName "strip")

/-- The model that is called when none is configured. Servers of one's own have none. -/
def defaultModel? : Provider → Option String
  | .anthropic => some "claude-haiku-4-5-20251001"
  | .openai => some "gpt-4o-mini"
  | .gemini => some "gemini-2.0-flash"
  | .groq => some "llama-3.3-70b-versatile"
  | .mistral => some "mistral-small-latest"
  | .custom => none

/-- The family in front of the name of a model. Servers of one's own speak the second protocol. -/
def family : Provider → String
  | .custom => "openai"
  | p => p.name

def modelName? (p : Provider) (model : Option String) : Option String :=
  let configured := Text.trim (model.getD "")
  let chosen := if configured.isEmpty then p.defaultModel?.getD "" else configured
  if chosen.isEmpty then none
  else if Text.startsWith chosen (p.family ++ "/") then some chosen
  else some (p.family ++ "/" ++ chosen)

end Provider

/-- The key for a provider and, for a server of one's own, its address. -/
structure Credentials where
  apiKey : String
  apiBase : Value
  deriving DecidableEq, Repr

def Credentials.toValue (c : Credentials) : Value :=
  .object [("api_key", .text c.apiKey), ("api_base", c.apiBase)]

end FlowEngine
