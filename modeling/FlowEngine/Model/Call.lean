import FlowEngine.Model.Provider
import FlowEngine.Log.Record

/-!
# Calls of language models

A request becomes a call once the full name of its model is known and, for a server of one's own, the
address. The reply becomes an answer with the text and the count of tokens.
-/

namespace FlowEngine.Model

structure Request where
  user : String
  system : String
  provider : Provider
  model : Value
  maxTokens : Value
  temperature : Value
  deriving DecidableEq, Repr

/-- The settings with which a model is called, by name. -/
abbrev Call := Entries Value

/-- What a provider sends back. Only a completion holds the settings it was made with. -/
inductive Reply where
  | completion (content : Option String) (inputTokens outputTokens : Value)
    (model : Option String)
  | nothing
  | broken (text : String)
  deriving DecidableEq, Repr

inductive Answer where
  | completed (text : String) (inputTokens outputTokens : Value) (model : String)
  | failed (error : String) (model : Option String)
  deriving DecidableEq, Repr

def Answer.toValue : Answer → Value
  | .completed text inputTokens outputTokens model =>
    .object [("success", .bool true), ("raw_text", .text text), ("error_message", .null),
      ("input_tokens", inputTokens), ("output_tokens", outputTokens), ("model", .text model)]
  | .failed error model =>
    .object [("success", .bool false), ("raw_text", .null), ("error_message", .text error),
      ("input_tokens", .int 0), ("output_tokens", .int 0), ("model", Value.ofText? model)]

/-- How calls are made: the time allowed, and settings added to every call. -/
structure Client where
  timeout : Value
  extra : Entries Value
  deriving DecidableEq, Repr

def Client.default : Client := ⟨.double (.ofNat 60), []⟩

/-- The model that a setting names. A setting that is no text has no name to be read. -/
def modelSetting : Value → Except Fault (Option String)
  | .text s => .ok (some s)
  | v => if v.isVoid then .ok none else .error (.noOperation v.kindName "strip")

/-- The messages of a call. An empty system part is left out. -/
def messages (request : Request) : Value :=
  let message (role content : String) : Value :=
    .object [("role", .text role), ("content", .text content)]
  .list ((if request.system.isEmpty then [] else [message "system" request.system]) ++
    [message "user" request.user])

/-- The call of a request with the full name of its model, or the answer when there is nothing to
call. -/
def prepare (client : Client) (credentials : Credentials) (request : Request) :
    Except Fault (Except Answer (String × Call)) := do
  match request.provider.modelName? (← modelSetting request.model) with
  | none =>
    .ok (.error (.failed ("No model configured for provider '" ++ request.provider.name ++ "'")
      none))
  | some model =>
    if request.provider = .custom ∧ credentials.apiBase.isVoid = true then
      .ok (.error (.failed "Custom provider requires an endpoint (api_base)" (some model)))
    else
      let settings := Entries.putAll
        [("model", .text model), ("messages", messages request),
          ("max_tokens", request.maxTokens), ("temperature", request.temperature),
          ("api_key", .text credentials.apiKey), ("timeout", client.timeout)]
        client.extra
      .ok (.ok (model,
        if credentials.apiBase.isVoid then settings
        else Entries.put settings "api_base" credentials.apiBase))

/-- What becomes of a reply. Missing counts of tokens are zero. -/
def answer (model : String) : Reply → Answer
  | .completion content inputTokens outputTokens named =>
    .completed (content.getD "") (inputTokens.orElse (.int 0)) (outputTokens.orElse (.int 0))
      ((named.filter (!·.isEmpty)).getD model)
  | .nothing => .failed "LLM returned no choices" (some model)
  | .broken text => .failed (if text.isEmpty then "RuntimeError" else text) (some model)

def logLines (model : String) : Reply → List Log.Line
  | .broken text =>
    [Log.line .error Log.Logger.model ("LLM call to " ++ model ++ " failed: " ++ text)]
  | _ => []

end FlowEngine.Model
