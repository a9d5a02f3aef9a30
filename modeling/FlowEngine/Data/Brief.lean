import FlowEngine.Expression.Arithmetic
import FlowEngine.Number.Shortest

/-!
# Numbers in their short form

At most six digits, for times that are told to people.
-/

namespace FlowEngine.Value

def brief : Value → Except Fault String
  | .double d => .ok d.brief
  | .int n => (Numeric.toDouble (.int n)).map Double.brief
  | .bool b => .ok (if b then "1" else "0")
  | .text _ => .error (.outside "ValueError" "Unknown format code 'g' for object of type 'str'")
  | v => .error (.outside "TypeError"
      ("unsupported format string passed to " ++ v.kindName ++ ".__format__"))

end FlowEngine.Value
