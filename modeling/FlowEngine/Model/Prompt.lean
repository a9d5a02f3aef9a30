import FlowEngine.Data.Inline
import FlowEngine.Fault
import FlowEngine.Text.Blank
import FlowEngine.Text.Case
import FlowEngine.Text.Search

/-!
# Prompts for a language model

The two parts of a prompt, the form of a value inside it, and the paths whose values never reach a
model.
-/

namespace FlowEngine.Prompt

def forbiddenPaths : List String :=
  ["nex.dbPassword", "nex.password", "nex.apiKey", "nex.authToken", "nex.secret",
    "nex.credentials"]

/-- Whether one of the forbidden paths stands anywhere in a path, in any case. -/
def isForbidden (path : String) : Bool :=
  forbiddenPaths.any fun forbidden => Text.containsText (Text.lower path) (Text.lower forbidden)

def plainPath (path : String) : String := Text.trim (Text.dropFront "input." path)

def systemText : String :=
  "You are a data processing engine embedded inside an automation workflow.\n" ++
  "You will receive a task description and a JSON object called INPUTS.\n" ++
  "You must ONLY work with the data provided in INPUTS.\n" ++
  "You must return ONLY a valid JSON object, with no explanation, no markdown and no code fences.\n" ++
  "Do not attempt to access external systems, databases, credentials, or files.\n" ++
  "Do not include any text before or after the JSON object.\n"

mutual

/-- What keeps a value from being written as JSON, the first of it in the order of the text. An instant
has no text there. -/
def schemaFault? : Value → Option Fault
  | .instant _ => some (.notWritable "datetime")
  | .list items => itemsFault? items
  | .object fields => fieldsFault? fields
  | v => if v.isPrintable then none else some .unprintable

def itemsFault? : List Value → Option Fault
  | [] => none
  | v :: rest => (schemaFault? v).or (itemsFault? rest)

def fieldsFault? : List (String × Value) → Option Fault
  | [] => none
  | (_, v) :: rest => (schemaFault? v).or (fieldsFault? rest)

end

/-- The text of a schema: JSON for an object or a list. -/
def schemaText (schema : Value) : Except Fault (Option String) :=
  match schema with
  | .object _ | .list _ =>
    match schemaFault? schema with
    | some fault => .error fault
    | none => .ok (some (Json.print schema))
  | .text s => .ok (some s)
  | _ => .ok none

def system (schema : Value) : Except Fault String := do
  match ← schemaText schema with
  | some text =>
    if Text.isBlankText text then .ok systemText
    else .ok (systemText ++ "\nYour output JSON must match this schema:\n" ++ text ++ "\n")
  | none => .ok systemText

def user (task inputs : String) (hasInputs : Bool) : String :=
  if !hasInputs || inputs == "\x7b\x7d" then
    "TASK:\n" ++ task ++ "\n\nRespond with a valid JSON object only."
  else
    "TASK:\n" ++ task ++ "\n\nINPUTS:\n" ++ inputs ++
      "\n\nRespond with a valid JSON object only."

def nudge : String :=
  "\n\nIMPORTANT: Your response must be valid JSON only. No explanation text."

def readable : Value → String
  | .null => "null"
  | .bool b => if b then "true" else "false"
  | .text s => s
  | .int n => toString n
  | .double d => d.text
  | v => Json.print v

/-- A text cut to a length, with dots when something was cut off. A negative length counts from the
end of the text. -/
def shortened (s : String) (limit : Int) : String :=
  let size := s.toList.length
  if (size : Int) > limit then
    Text.takeFront (if limit < 0 then (size + limit).toNat else limit.toNat) s ++ "..."
  else s

end FlowEngine.Prompt
