import FlowEngine.Data.Value
import FlowEngine.Fault

/-!
# Writing documents

The form that a value has in a written document, and the depth to which values are written. The form
of a list has the forms of its items, and a written form is its own form.
-/

namespace FlowEngine.Document

/-- The form a value takes in a written document: instants become texts, and doubles that are no
numbers become null. -/
def scalarForm : Value → Value
  | .instant t => .text t.documentText
  | .double d => if d.isFinite then .double d else .null
  | v => v

mutual

def form : Value → Value
  | .list items => .list (formItems items)
  | .object fields => .object (formFields fields)
  | v => scalarForm v

def formItems : List Value → List Value
  | [] => []
  | v :: rest => form v :: formItems rest

def formFields : List (String × Value) → List (String × Value)
  | [] => []
  | (k, v) :: rest => (k, form v) :: formFields rest

end

mutual

/-- How many values stand inside each other, from a value down to the deepest one in it. -/
def levels : Value → Nat
  | .list items => 1 + itemLevels items
  | .object fields => 1 + fieldLevels fields
  | _ => 1

def itemLevels : List Value → Nat
  | [] => 0
  | v :: rest => max (levels v) (itemLevels rest)

def fieldLevels : List (String × Value) → Nat
  | [] => 0
  | (_, v) :: rest => max (levels v) (fieldLevels rest)

end

/-- How many values may stand inside each other in a part of a document that is free in form. -/
def levelLimit : Nat := 255

/-- Whether free values can be written that already stand inside some others. -/
def fitBelow (outer : Nat) (fields : Entries Value) : Bool :=
  outer + fieldLevels fields ≤ levelLimit

def written (fits : Bool) (v : Value) : Except Fault Value :=
  if fits then .ok v else .error .tooDeep

end FlowEngine.Document
