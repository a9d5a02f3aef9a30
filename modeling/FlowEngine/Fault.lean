import FlowEngine.Text.Blank

/-!
# Faults

The causes for which an operation ends without a result. Inside a node a fault becomes the text of a
failed result; elsewhere it reaches the caller.
-/

namespace FlowEngine

/-- A cause for which an operation ends without a result. -/
inductive Fault where
  | integerTooLarge
  | tooManyDigits (count : Nat)
  /-- A value without a text, since it holds an integer of too many digits. -/
  | unprintable
  /-- A value of a kind that does not have the operation asked for. -/
  | noOperation (kind operation : String)
  | notIterable (kind : String)
  | notOrdered (comparison left right : String)
  /-- A value of a kind that no object can have as a key. -/
  | notAKey (kind : String)
  | notWritable (kind : String)
  | tooDeep
  | notJson
  | unfitResult
  | noExecutor (type : String) (node : Option String)
  | flowNotFound (id : String)
  /-- A failure outside of the engine, with its kind and its text. -/
  | outside (kind text : String)
  deriving DecidableEq, Repr, Inhabited

namespace Fault

/-- The text of a fault. It may be empty for a failure outside of the engine. -/
def text : Fault → String
  | .integerTooLarge => "int too large to convert to float"
  | .tooManyDigits count =>
    "Exceeds the limit (4300 digits) for integer string conversion: value has " ++
      toString count ++ " digits; use sys.set_int_max_str_digits() to increase the limit"
  | .unprintable =>
    "Exceeds the limit (4300 digits) for integer string conversion; " ++
      "use sys.set_int_max_str_digits() to increase the limit"
  | .noOperation kind operation => "'" ++ kind ++ "' object has no attribute '" ++ operation ++ "'"
  | .notIterable kind => "'" ++ kind ++ "' object is not iterable"
  | .notOrdered comparison left right =>
    "'" ++ comparison ++ "' not supported between instances of '" ++ left ++ "' and '" ++ right ++
      "'"
  | .notAKey kind => "unhashable type: '" ++ kind ++ "'"
  | .notWritable kind => "Object of type " ++ kind ++ " is not JSON serializable"
  | .tooDeep => "Maximum serialization depth exceeded"
  | .notJson => ""
  | .unfitResult => ""
  | .noExecutor type node =>
    "No executor registered for node type " ++ type ++
      (match node with
       | some id => if id.isEmpty then "" else " (node '" ++ id ++ "')"
       | none => "")
  | .flowNotFound id => "Flow not found: " ++ id
  | .outside _ text => text

def kind : Fault → String
  | .integerTooLarge => "OverflowError"
  | .tooManyDigits _ => "ValueError"
  | .unprintable => "ValueError"
  | .noOperation .. => "AttributeError"
  | .notIterable _ => "TypeError"
  | .notOrdered .. => "TypeError"
  | .notAKey _ => "TypeError"
  | .notWritable _ => "TypeError"
  | .tooDeep => "ValueError"
  | .notJson => "JSONDecodeError"
  | .unfitResult => "ValidationError"
  | .noExecutor .. => "ExecutorNotRegisteredError"
  | .flowNotFound _ => "FlowNotFoundError"
  | .outside kind _ => kind

/-- What is reported of a fault: its text, or its kind when there is no text. -/
def message (fault : Fault) : String := if fault.text.isEmpty then fault.kind else fault.text

end Fault

end FlowEngine
