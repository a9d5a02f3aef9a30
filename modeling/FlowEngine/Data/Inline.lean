import FlowEngine.Data.Display
import FlowEngine.Json.Printer

/-!
# Values inside text

The string form that a value takes when a reference to it stands in the middle of a text.
-/

namespace FlowEngine.Value

def inline : Value → String
  | .null => ""
  | .bool b => if b then "true" else "false"
  | .list items => Json.print (.list items)
  | .object fields => Json.print (.object fields)
  | .instant t => t.iso
  | .int n => toString n
  | .double d => d.text
  | .text s => s

end FlowEngine.Value
