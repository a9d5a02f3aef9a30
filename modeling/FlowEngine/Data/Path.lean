import FlowEngine.Data.Value
import FlowEngine.Json.Parser
import FlowEngine.Text.Blank
import FlowEngine.Text.Search
import FlowEngine.Text.Digit
import FlowEngine.Fault

/-!
# Looking up a path in a value

A path is a row of segments between dots. A segment names a key of an object or, written in decimal
digits of any script, a place in a list. A step that leads nowhere gives null, and null stays null
whatever follows.
-/

namespace FlowEngine.Value

def itemAt (items : List Value) (digits : List Nat) : Except Fault Value :=
  if digits.length > digitLimit then .error (.tooManyDigits digits.length)
  else .ok (items.getD (Text.digitsValue digits) .null)

def stepInto (v : Value) (segment : String) : Except Fault Value :=
  let segment := Text.trim segment
  if segment.isEmpty then .ok .null
  else
    match v with
    | .object fields => .ok (ofOption (Entries.get? fields segment))
    | .list items =>
      match Text.digits? segment.toList with
      | some digits => itemAt items digits
      | none => .ok .null
    | _ => .ok .null

def follow : Value → List String → Except Fault Value
  | v, [] => .ok v
  | .null, _ :: _ => .ok .null
  | v, segment :: rest => do follow (← stepInto v segment) rest

def at? (v : Value) (path : String) : Except Fault Value :=
  if Text.isBlankText path then .ok .null else follow v (Text.dottedParts path)

theorem follow_null (segments : List String) : follow .null segments = .ok .null := by
  cases segments <;> rfl

theorem follow_append (v : Value) (front back : List String) :
    follow v (front ++ back) = follow v front >>= fun w => follow w back := by
  induction front generalizing v with
  | nil => rfl
  | cons segment rest ih =>
    cases v with
    | null => simp [follow, follow_null, bind, Except.bind]
    | _ =>
      simp only [List.cons_append, follow]
      cases h : stepInto _ segment <;> simp [bind, Except.bind, ih]

end FlowEngine.Value
