import FlowEngine.Data.Display
import FlowEngine.Text.Case
import FlowEngine.Text.Digit

/-!
# Nodes

A node is data: an id, a type, a label for people and a configuration whose meaning depends on the
type. Types are found by name in any case and with white space around the name.
-/

namespace FlowEngine

/-- The types of node. No executor comes with the last four. -/
inductive NodeType where
  | start
  | nexus
  | subFlow
  | script
  | variable
  | mapper
  | decision
  | loop
  | ai
  | success
  | failure
  | kafkaProducer
  | kafkaConsumer
  | delay
  | transform
  deriving DecidableEq, Repr, Inhabited

namespace NodeType

def name : NodeType → String
  | .start => "START"
  | .nexus => "NEXUS"
  | .subFlow => "SUB_FLOW"
  | .script => "SCRIPT"
  | .variable => "VARIABLE"
  | .mapper => "MAPPER"
  | .decision => "DECISION"
  | .loop => "LOOP"
  | .ai => "AI"
  | .success => "SUCCESS"
  | .failure => "FAILURE"
  | .kafkaProducer => "KAFKA_PRODUCER"
  | .kafkaConsumer => "KAFKA_CONSUMER"
  | .delay => "DELAY"
  | .transform => "TRANSFORM"

def all : List NodeType :=
  [.start, .nexus, .subFlow, .script, .variable, .mapper, .decision, .loop, .ai, .success,
    .failure, .kafkaProducer, .kafkaConsumer, .delay, .transform]

theorem mem_all (t : NodeType) : t ∈ all := by cases t <;> decide

def ofName? (s : String) : Option NodeType :=
  let wanted := Text.upper (Text.trim s)
  all.find? (·.name == wanted)

def isTerminal (t : NodeType) : Bool := t == .success || t == .failure

end NodeType

def NodeType.ofValue? : Value → Option NodeType
  | .text s => NodeType.ofName? s
  | _ => none

structure Node where
  id : String
  type : NodeType
  label : String
  config : Entries Value
  /-- Keys of the document that are no field of a node. -/
  extras : Entries Value
  deriving DecidableEq, Repr

namespace Node

def displayName (node : Node) : String := if node.label.isEmpty then node.id else node.label

/-- A setting of a node; null when it is missing. -/
def setting (node : Node) (key : String) : Value := Value.ofOption (node.config.get? key)

/-- A setting that is an object; without fields when it is anything else. -/
def mapSetting (node : Node) (key : String) : Entries Value := (node.setting key).fieldsOf

/-- A setting as text, with a fallback for one that counts as absent. -/
def textSetting (node : Node) (key fallback : String) : String :=
  ((node.setting key).orElse (.text fallback)).display

/-- The name under which the output of a node is saved, if it asks for one. -/
def saveName (node : Node) : Except Fault (Option String) :=
  match node.setting "saveOutputAs" with
  | .null => .ok none
  | v => v.shown.map fun text =>
    let name := Text.trim text
    if name.isEmpty then none else some name

def saveName? (node : Node) : Option String := node.saveName.toOption.join

theorem saveName?_of_eq {node : Node} {name : Option String} (h : node.saveName = .ok name) :
    node.saveName? = name := by
  rw [saveName?, h]
  exact Option.join_some

theorem eq_unprintable_of_saveName {node : Node} {fault : Fault}
    (h : node.saveName = .error fault) : fault = .unprintable := by
  unfold saveName at h
  split at h
  · cases h
  · cases hs : (node.setting "saveOutputAs").shown with
    | ok text =>
      rw [hs] at h
      cases h
    | error fault' =>
      rw [hs] at h
      cases h
      exact Value.eq_unprintable_of_shown hs

end Node

/-- The characters of a save name: ASCII letters, digits and underscores, no digit first. -/
def isIdentifier : List Char → Bool
  | [] => false
  | c :: rest =>
    (c.isAlpha || c == '_') && rest.all fun d => d.isAlpha || d.isDigit || d == '_'

/-- Whether a name may be used to save an output. A line feed at the end is passed over. -/
def isSaveName (name : String) : Bool :=
  let chars := name.toList
  isIdentifier chars || (chars.getLast? == some '\n' && isIdentifier chars.dropLast)

end FlowEngine
