import FlowEngine.Data.Limit
import FlowEngine.Model.Prompt
import FlowEngine.Model.Reply
import FlowEngine.Run.Work

/-!
# Nodes that ask a language model

A node asks a model for an object or a list. Only what it binds or names in its prompt reaches the
model, and nothing that holds credentials may be bound. A reply that holds no object or list is asked
for once more.
-/

namespace FlowEngine.Step.AskModel

/-- What nodes need to ask a model. The last four are used where a node does not say otherwise. -/
structure Settings where
  client : Model.Client
  credentials : Entries Credentials
  maxInputChars : Value
  model : Value
  maxTokens : Value
  temperature : Value

/-- A failure that is told in the log. -/
def refuse (node : Node) (error : String) (input : Entries Value) : Work Outcome := do
  Work.note (Log.line .error Log.Logger.ai
    ("AI node " ++ node.displayName ++ " failed: " ++ error))
  return Outcome.failed node error input []

structure Binding where
  name : String
  path : String
  deriving DecidableEq, Repr

/-- A part of a binding; empty when it is missing. -/
def bindingPart (fields : Entries Value) (key : String) : Except Fault String :=
  ((Value.ofOption (fields.get? key)).orElse (.text "")).shown.map Text.trim

/-- A binding with a name and a path, or why one of them has no text; anything else binds nothing. -/
def binding? (v : Value) : Option (Except Fault Binding) :=
  match v with
  | .object fields =>
    match bindingPart fields "name", bindingPart fields "nexPath" with
    | .error fault, _ => some (.error fault)
    | _, .error fault => some (.error fault)
    | .ok name, .ok path =>
      if name.isEmpty || path.isEmpty then none else some (.ok ⟨name, path⟩)
  | _ => none

/-- The bindings of a node, each read when it has its turn. A setting that nothing can be taken from
one by one is a fault. -/
def bindings (setting : Value) : Except Fault (List (Except Fault Binding)) :=
  if setting.isVoid then .ok []
  else
    match setting with
    | .list items => .ok (items.filterMap binding?)
    | .object _ | .text _ => .ok []
    | v => .error (.notIterable v.kindName)

/-- The values bound, or the name of the first binding that is forbidden. -/
def boundValues (scope : Scope) (inputs : Entries Value) :
    List (Except Fault Binding) → Except Fault (Except String (Entries Value))
  | [] => .ok (.ok inputs)
  | .error fault :: _ => .error fault
  | .ok b :: rest =>
    if Prompt.isForbidden b.path then .ok (.error b.name)
    else do
      let v ← scope.object (Prompt.plainPath b.path)
      let v := match v with | .null => .text "" | v => v
      boundValues scope (inputs.put b.name v) rest

/-- The value that a prompt names: one that is bound, or what its path leads to. -/
def named (scope : Scope) (inputs : Entries Value) (token : String) : Except Fault (Option Value) :=
  match inputs.get? token with
  | some v => .ok (some v)
  | none => do
    let path := Prompt.plainPath token
    match ← scope.object path with
    | .null =>
      if Text.startsWith path "nex.start." then do
        match ← scope.object ("nodes.start.output." ++ Text.dropFront "nex.start." path) with
        | .null => .ok none
        | v => .ok (some v)
      else .ok none
    | v => .ok (some v)

/-- The text of one piece of a prompt. What leads nowhere is marked. -/
def promptPiece (scope : Scope) (inputs : Entries Value) :
    Template.Piece → Except Fault (List Char)
  | .char c => .ok [c]
  | .reference body => do
    let token := String.ofList (Text.trimChars body)
    match ← named scope inputs token with
    | some v => (v.printed Prompt.readable).map String.toList
    | none => .ok ("[unresolved: " ++ token ++ "]").toList

def promptChars (scope : Scope) (inputs : Entries Value) :
    List Template.Piece → Except Fault (List Char)
  | [] => .ok []
  | piece :: rest => do
    .ok ((← promptPiece scope inputs piece) ++ (← promptChars scope inputs rest))

def promptWarnings (scope : Scope) (inputs : Entries Value) : List Template.Piece → List Log.Line
  | [] => []
  | .char _ :: rest => promptWarnings scope inputs rest
  | .reference body :: rest =>
    let token := String.ofList (Text.trimChars body)
    match named scope inputs token with
    | .error _ => []
    | .ok (some v) => if v.isPrintable then promptWarnings scope inputs rest else []
    | .ok none =>
      Log.line .warning Log.Logger.ai
        ("Could not resolve prompt reference \x7b\x7b" ++ token ++
          "\x7d\x7d, leaving placeholder") :: promptWarnings scope inputs rest

def promptText (scope : Scope) (inputs : Entries Value) (prompt : String) : Work String := do
  let pieces := Template.pieces prompt.toList
  Work.noteAll (promptWarnings scope inputs pieces)
  return String.ofList (← Doing.ofExcept (promptChars scope inputs pieces))

/-- A count of tokens: a number that is finite and positive, else the default. -/
def tokensSetting (v default : Value) : Except Fault Value :=
  match v.numeric? with
  | none => .ok default
  | some n => do
    let d ← n.toDouble
    if d.isFinite && Double.less (.ofNat 0) d then
      match n with
      | .int n => .ok (.int n)
      | .double d => .ok (.int d.truncate)
    else .ok default

def temperatureSetting (v default : Value) : Except Fault Value :=
  match v.numeric? with
  | none => .ok default
  | some n => do
    let d ← n.toDouble
    .ok (if d.isFinite then .double d else default)

def call (client : Model.Client) (credentials : Credentials) (request : Model.Request) :
    Act Model.Answer := do
  match ← Doing.ofExcept (Model.prepare client credentials request) with
  | .error answer => return answer
  | .ok (model, call) =>
    let reply ← Doing.ask (.complete call)
    Act.noteAll (Model.logLines model reply)
    return Model.answer model reply

/-- What a model said, with the counts that came with it. -/
structure Said where
  text : String
  value : Option Value
  inputTokens : Value
  outputTokens : Value
  model : String

/-- What an answer says: the text and the object or list in it, or why there is none. -/
def said (answer : Model.Answer) : Except Fault (Except String Said) :=
  match answer with
  | .failed error _ => .ok (.error error)
  | .completed text inputTokens outputTokens model => do
    .ok (.ok ⟨text, ← Reply.extract (some text), inputTokens, outputTokens, model⟩)

structure Question where
  prompt : String
  resolved : String
  request : Model.Request
  credentials : Credentials

def conclude (node : Node) (question : Question) (said : Said) : Work Outcome := do
  match said.value with
  | none =>
    refuse node ("AI node could not parse a valid JSON object from the model response. Raw: " ++
      Prompt.shortened said.text 300) []
  | some value =>
    let provider := question.request.provider.name
    let inputTokens ← Doing.ofExcept said.inputTokens.shown
    let outputTokens ← Doing.ofExcept said.outputTokens.shown
    Work.note ⟨.info, Log.Logger.ai,
      "AI node " ++ node.displayName ++ " completed. Tokens: " ++ inputTokens ++ "in/" ++
        outputTokens ++ "out. Provider: " ++ provider,
      [("model", .text said.model)]⟩
    return { Outcome.ofStatus node .success with
      input := some [("provider", .text provider), ("prompt", .text question.prompt)]
      successOutput := some [("result", value), ("model", .text said.model),
        ("inputTokens", said.inputTokens), ("outputTokens", said.outputTokens),
        ("provider", .text provider), ("rawResponse", .text said.text),
        ("resolvedPrompt", .text question.resolved)] }

/-- Asks a second time, with the demand for an object or a list. -/
def askAgain (settings : Settings) (node : Node) (question : Question) : Work Outcome := do
  Work.note (Log.line .warning Log.Logger.ai
    ("AI node " ++ node.displayName ++ ": reply was not JSON, retrying with JSON nudge"))
  let request := { question.request with user := question.request.user ++ Prompt.nudge }
  let answer ← Work.act (call settings.client question.credentials request)
  match ← Doing.ofExcept (said answer) with
  | .error error => refuse node ("LLM retry failed: " ++ error) []
  | .ok said => conclude node question said

/-- Asks a model, and once more when its reply holds no object or list. -/
def ask (settings : Settings) (node : Node) (question : Question) : Work Outcome := do
  let answer ← Work.act (call settings.client question.credentials question.request)
  match ← Doing.ofExcept (said answer) with
  | .error error =>
    refuse node ("LLM call failed: " ++ error)
      [("provider", .text question.request.provider.name)]
  | .ok said =>
    match said.value with
    | some _ => conclude node question said
    | none => askAgain settings node question

/-- Asks a model about inputs that have a text. -/
def askAbout (settings : Settings) (node : Node) (prompt : String) (provider : Provider)
    (credentials : Credentials) (inputs : Entries Value) (inputsText : String) : Work Outcome := do
  let scope ← Work.scope
  if ← Doing.ofExcept (Limit.exceeded settings.maxInputChars inputsText.length) then
    let limit ← Doing.ofExcept settings.maxInputChars.shown
    refuse node ("AI node inputs exceed maximum size (" ++ limit ++
      " chars). Reduce the data passed via input bindings.") []
  else
    let resolved ← promptText scope inputs prompt
    if ← Doing.ofExcept (Limit.exceeded settings.maxInputChars resolved.length) then
      refuse node ("Resolved prompt is too large (" ++ toString resolved.length ++
        " chars). Reduce referenced data.") []
    else
      let system ← Doing.ofExcept (Prompt.system (node.setting "outputSchema"))
      let maxTokens ←
        Doing.ofExcept (tokensSetting (node.setting "maxTokens") settings.maxTokens)
      let temperature ←
        Doing.ofExcept (temperatureSetting (node.setting "temperature") settings.temperature)
      ask settings node {
        prompt, resolved, credentials
        request := {
          user := Prompt.user resolved inputsText (!inputs.isEmpty)
          system, provider
          model := (node.setting "model").orElse settings.model
          maxTokens, temperature } }

def askWith (settings : Settings) (node : Node) (prompt : String) (provider : Provider)
    (credentials : Credentials) (inputs : Entries Value) : Work Outcome :=
  match (Value.object inputs).printed Json.print with
  | .error fault => refuse node ("Failed to serialise AI node inputs: " ++ fault.text) []
  | .ok text => askAbout settings node prompt provider credentials inputs text

def askProvider (settings : Settings) (node : Node) (prompt : String) (provider : Provider)
    (credentials : Credentials) : Work Outcome := do
  let bindings ← Doing.ofExcept (bindings (node.setting "inputBindings"))
  match ← Doing.ofExcept (boundValues (← Work.scope) [] bindings) with
  | .error name =>
    refuse node ("AI node input binding '" ++ name ++
      "' references a forbidden path. Credentials cannot be passed to AI nodes.") []
  | .ok inputs => askWith settings node prompt provider credentials inputs

def execute (settings : Settings) : Executor := fun node => do
  match node.setting "prompt" with
  | .text prompt =>
    if Text.isBlankText prompt then refuse node "AI node has no prompt configured." []
    else
      match ← Doing.ofExcept (Provider.ofSetting (node.setting "provider")) with
      | none =>
        refuse node ("Unknown LLM provider: '" ++ (node.setting "provider").display ++ "'.") []
      | some provider =>
        match (settings.credentials.get? provider.name).filter (!·.apiKey.isEmpty) with
        | some credentials => askProvider settings node prompt provider credentials
        | none =>
          refuse node ("No API key configured for provider '" ++ provider.name ++
            "'. Add the key to the nexflow configuration or environment.") []
  | _ => refuse node "AI node has no prompt configured." []

end FlowEngine.Step.AskModel
