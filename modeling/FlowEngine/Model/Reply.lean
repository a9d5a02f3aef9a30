import FlowEngine.Fault
import FlowEngine.Json.Parser
import FlowEngine.Text.Search

/-!
# Replies of a language model

The first object or list in a reply, read after an opening code fence, if there is one, and whatever
prose stands in front. What follows the value does not count.
-/

namespace FlowEngine.Reply

def fence : List Char := List.replicate 3 (Char.ofNat 96)

/-- Removes an opening fence with the name of its language and one line feed. -/
def dropOpening (s : List Char) : List Char :=
  if fence.isPrefixOf s then
    match (s.drop 3).dropWhile Char.isAlpha with
    | '\n' :: rest => rest
    | rest => rest
  else s

def dropClosing (s : List Char) : List Char :=
  if fence.isSuffixOf s then s.take (s.length - 3) else s

def unfenced (s : List Char) : List Char :=
  if fence.isPrefixOf s then Text.trimChars (dropClosing (dropOpening s)) else s

def isOpening (c : Char) : Bool := c == '\x7b' || c == '['

/-- The first object or list in a reply; nothing when none can be read there. -/
def extract (raw : Option String) : Except Fault (Option Value) :=
  match raw with
  | none => .ok none
  | some raw =>
    match (unfenced (Text.trimChars raw.toList)).dropWhile (!isOpening ·) with
    | [] => .ok none
    | s =>
      match Json.readFront .lenient s with
      | .ok (v, _) => .ok (some v)
      | .error .malformed => .ok none
      | .error (.tooManyDigits count) => .error (.tooManyDigits count)

end FlowEngine.Reply
