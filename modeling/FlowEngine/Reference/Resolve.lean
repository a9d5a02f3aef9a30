import FlowEngine.Data.Path
import FlowEngine.Expression.Arithmetic
import FlowEngine.Reference.Template
import FlowEngine.Run.Context

/-!
# Resolving references

A reference is a path into the context, or two paths with an operator between them. A path that leads
nowhere gives null. In text a reference is replaced by the string form of its value; a setting that
is nothing but one reference takes the value itself.
-/

namespace FlowEngine

/-- What references are resolved against: a context and, inside a loop, its state. -/
structure Scope where
  context : Context
  loop : Option LoopState

namespace Scope

def metaField (context : Context) (field : String) : Value :=
  if field == "flowId" then .text context.flowId
  else if field == "executionId" then .text context.executionId
  else if field == "startedAt" then .instant context.startedAt
  else .null

def loopField (state : LoopState) (field : String) : Value :=
  if field == "index" then .int state.index
  else if field == "accumulated" then .list state.accumulated
  else .null

/-- Goes down the fields of objects, by keys as they are. -/
def descend (v : Value) (keys : List String) : Value :=
  keys.foldl (fun v key => Value.ofOption (v.field? key)) v

/-- The id that a key of a path stands for: `start`, in any case, is the start node. -/
def nodeKey? (context : Context) (key : String) : Option String :=
  if Text.lower key == "start" then context.startId? else some key

def nodePath (context : Context) (key part : String) (keys : List String) : Value :=
  match (nodeKey? context key).bind context.outcome? with
  | some outcome => descend (Outcome.optionalObject (outcome.outputNamed part)) keys
  | none => .null

def parts (scope : Scope) : List String → Except Fault Value
  | "nex" :: part :: rest => Value.follow (.object scope.context.nex) (part :: rest)
  | "loop" :: field :: _ =>
    match scope.loop with
    | some state => .ok (loopField state field)
    | none => .ok .null
  | ["variables", name] => .ok (Value.ofOption (scope.context.vars.get? name))
  | ["meta", field] => .ok (metaField scope.context field)
  | "nodes" :: key :: part :: keys => .ok (nodePath scope.context key part keys)
  | _ => .ok .null

def withoutInput (path : String) : String :=
  if Text.startsWith path "input." then Text.trim (Text.dropFront "input." path) else path

def path (scope : Scope) (path : String) : Except Fault Value :=
  let path := withoutInput path
  if Text.isBlankText path then .ok .null else scope.parts (Text.dottedParts path)

/-- The first operator of those looked for that stands in a reference, with the paths around it. -/
def splitOperator (body : List Char) : List Operator → Option (String × Operator × String)
  | [] => none
  | op :: rest =>
    match Text.splitFirst? op.spelled body with
    | some (left, right) =>
      some (String.ofList (Text.trimChars left), op, String.ofList (Text.trimChars right))
    | none => splitOperator body rest

def expression (scope : Scope) (body : String) : Except Fault Value :=
  match splitOperator body.toList Operator.all with
  | some (left, op, right) => do
    let a ← scope.path left
    let b ← scope.path right
    Value.evaluate op a b
  | none => scope.path body

def reference (scope : Scope) (body : List Char) : Except Fault Value :=
  scope.expression (String.ofList (Text.trimChars body))

def piece (scope : Scope) : Template.Piece → Except Fault (List Char)
  | .char c => .ok [c]
  | .reference body => (scope.reference body).map fun v => v.inline.toList

def piecesText (scope : Scope) : List Template.Piece → Except Fault (List Char)
  | [] => .ok []
  | p :: rest => do .ok ((← scope.piece p) ++ (← piecesText scope rest))

/-- A template with the string form of each reference in its place. -/
def resolve (scope : Scope) (template : String) : Except Fault String :=
  (scope.piecesText (Template.pieces template.toList)).map String.ofList

/-- The body of a setting that is nothing but one pair of double braces around something. -/
def soleReference? (setting : String) : Option (List Char) :=
  let s := Text.trimChars setting.toList
  if 5 ≤ s.length && ['\x7b', '\x7b'].isPrefixOf s && ['\x7d', '\x7d'].isSuffixOf s then
    some ((s.drop 2).take (s.length - 4))
  else none

/-- A setting: a sole reference takes its value, other text its resolved form, and anything else is
taken as it is. -/
def setting (scope : Scope) : Value → Except Fault Value
  | .text s =>
    match soleReference? s with
    | some body =>
      (scope.reference body).map fun v => match v with | .null => .text "" | v => v
    | none => (scope.resolve s).map .text
  | v => .ok v

def settings (scope : Scope) : Entries Value → Except Fault (Entries Value)
  | [] => .ok []
  | (key, v) :: rest => do .ok ((key, ← scope.setting v) :: (← settings scope rest))

def bracedBody? (s : List Char) : Option (List Char) :=
  match Text.splitFirst? ['\x7b', '\x7b'] s with
  | some (_, rest) => (Text.splitFirst? ['\x7d', '\x7d'] rest).map (·.1)
  | none => none

def object (scope : Scope) (path : String) : Except Fault Value :=
  let path :=
    match bracedBody? path.toList with
    | some body => String.ofList (Text.trimChars body)
    | none => path
  if Text.isBlankText path then .ok .null else scope.path path

end Scope

end FlowEngine
