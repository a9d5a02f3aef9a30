import FlowEngine.Number.Double
import FlowEngine.Data.Entries
import FlowEngine.Data.Instant

/-!
# Values

What a flow computes with: documents in which integers of any size, doubles and instants are kept
apart, and in which an object keeps the order of its keys.
-/

namespace FlowEngine

inductive Value where
  | null
  | bool (b : Bool)
  | int (n : Int)
  | double (d : Double)
  | text (s : String)
  | instant (t : Instant)
  | list (items : List Value)
  | object (fields : List (String × Value))
  deriving Repr, Inhabited

namespace Value

mutual

/-- Decides equality of values as data: the two zeros differ, and a NaN is equal to itself. -/
def decEq : (a b : Value) → Decidable (a = b)
  | .null, .null => isTrue rfl
  | .bool a, .bool b => if h : a = b then isTrue (by rw [h]) else isFalse (by simp [h])
  | .int a, .int b => if h : a = b then isTrue (by rw [h]) else isFalse (by simp [h])
  | .double a, .double b => if h : a = b then isTrue (by rw [h]) else isFalse (by simp [h])
  | .text a, .text b => if h : a = b then isTrue (by rw [h]) else isFalse (by simp [h])
  | .instant a, .instant b => if h : a = b then isTrue (by rw [h]) else isFalse (by simp [h])
  | .list a, .list b =>
    match decEqList a b with
    | isTrue h => isTrue (by rw [h])
    | isFalse h => isFalse (by simp [h])
  | .object a, .object b =>
    match decEqFields a b with
    | isTrue h => isTrue (by rw [h])
    | isFalse h => isFalse (by simp [h])
  | .null, .bool _ | .null, .int _ | .null, .double _ | .null, .text _ | .null, .instant _
  | .null, .list _ | .null, .object _
  | .bool _, .null | .bool _, .int _ | .bool _, .double _ | .bool _, .text _ | .bool _, .instant _
  | .bool _, .list _ | .bool _, .object _
  | .int _, .null | .int _, .bool _ | .int _, .double _ | .int _, .text _ | .int _, .instant _
  | .int _, .list _ | .int _, .object _
  | .double _, .null | .double _, .bool _ | .double _, .int _ | .double _, .text _
  | .double _, .instant _ | .double _, .list _ | .double _, .object _
  | .text _, .null | .text _, .bool _ | .text _, .int _ | .text _, .double _ | .text _, .instant _
  | .text _, .list _ | .text _, .object _
  | .instant _, .null | .instant _, .bool _ | .instant _, .int _ | .instant _, .double _
  | .instant _, .text _ | .instant _, .list _ | .instant _, .object _
  | .list _, .null | .list _, .bool _ | .list _, .int _ | .list _, .double _ | .list _, .text _
  | .list _, .instant _ | .list _, .object _
  | .object _, .null | .object _, .bool _ | .object _, .int _ | .object _, .double _
  | .object _, .text _ | .object _, .instant _ | .object _, .list _ => isFalse (by simp)

def decEqList : (a b : List Value) → Decidable (a = b)
  | [], [] => isTrue rfl
  | [], _ :: _ => isFalse (by simp)
  | _ :: _, [] => isFalse (by simp)
  | a :: as, b :: bs =>
    match decEq a b, decEqList as bs with
    | isTrue h, isTrue i => isTrue (by rw [h, i])
    | isFalse h, _ => isFalse (by simp [h])
    | _, isFalse h => isFalse (by simp [h])

def decEqFields : (a b : List (String × Value)) → Decidable (a = b)
  | [], [] => isTrue rfl
  | [], _ :: _ => isFalse (by simp)
  | _ :: _, [] => isFalse (by simp)
  | (k, a) :: as, (l, b) :: bs =>
    match instDecidableEqString k l, decEq a b, decEqFields as bs with
    | isTrue h, isTrue i, isTrue j => isTrue (by rw [h, i, j])
    | isFalse h, _, _ => isFalse (by simp [h])
    | _, isFalse h, _ => isFalse (by simp [h])
    | _, _, isFalse h => isFalse (by simp [h])

end

instance : DecidableEq Value := decEq

/-- The number a value holds, if it is one. Truth values are not numbers. -/
inductive Numeric where
  | int (n : Int)
  | double (d : Double)
  deriving DecidableEq, Repr

def numeric? : Value → Option Numeric
  | .int n => some (.int n)
  | .double d => some (.double d)
  | _ => none

def isNumber (v : Value) : Bool := v.numeric?.isSome

def kindName : Value → String
  | .null => "NoneType"
  | .bool _ => "bool"
  | .int _ => "int"
  | .double _ => "float"
  | .text _ => "str"
  | .instant _ => "datetime.datetime"
  | .list _ => "list"
  | .object _ => "dict"

def field? (v : Value) (key : String) : Option Value :=
  match v with
  | .object fields => Entries.get? fields key
  | _ => none

def fieldsOf : Value → Entries Value
  | .object fields => fields
  | _ => []

def ofOption : Option Value → Value
  | some v => v
  | none => .null

def ofText? : Option String → Value
  | some s => .text s
  | none => .null

/-- Null, false, zero, and the empty text, list and object count as absent where a setting falls
back to a default. -/
def isVoid : Value → Bool
  | .null => true
  | .bool b => !b
  | .int n => n == 0
  | .double d => d.isZero
  | .text s => s.isEmpty
  | .instant _ => false
  | .list items => items.isEmpty
  | .object fields => fields.isEmpty

def orElse (v : Value) (fallback : Value) : Value := if v.isVoid then fallback else v

end Value

end FlowEngine
