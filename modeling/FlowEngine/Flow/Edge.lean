import FlowEngine.Flow.Outcome

/-!
# Edges

An edge leads from one node to another and tells for which outcomes of its source it may be taken.
The custom condition is kept in documents but never holds.
-/

namespace FlowEngine

inductive EdgeCondition where
  | success
  | failure
  | continuing
  | always
  | custom
  deriving DecidableEq, Repr, Inhabited

namespace EdgeCondition

def name : EdgeCondition → String
  | .success => "SUCCESS"
  | .failure => "FAILURE"
  | .continuing => "CONTINUE"
  | .always => "DEFAULT"
  | .custom => "CUSTOM"

def all : List EdgeCondition := [.success, .failure, .continuing, .always, .custom]

def ofName? (s : String) : Option EdgeCondition :=
  let wanted := Text.upper (Text.trim s)
  all.find? (·.name == wanted)

def ofValue? : Value → Option EdgeCondition
  | .text s => ofName? s
  | _ => none

/-- The condition that an outcome of a status activates. -/
def requiredFor : Status → EdgeCondition
  | .success => .success
  | .failure => .failure
  | .continuing => .continuing
  | _ => .always

end EdgeCondition

structure Edge where
  id : Option String
  source : String
  target : String
  condition : EdgeCondition
  /-- The expression of a custom edge, which nothing evaluates. -/
  expression : Option String
  extras : Entries Value
  deriving DecidableEq, Repr

/-- Whether an edge is taken when a condition is required: its own is that condition, or it is
always taken. -/
def Edge.fires (edge : Edge) (wanted : EdgeCondition) : Bool :=
  edge.condition == wanted || edge.condition == .always

end FlowEngine
